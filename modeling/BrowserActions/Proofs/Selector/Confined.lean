import Mathlib
import BrowserActions.Proofs.Selector.Translation

/-!
# Confined predicates

A predicate may hold any text. The rules for calls read on to the next text that closes the call,
so they may read past the brackets that they began in. A predicate is confined if it opens no call
or closes the one that it opens. Then each stage changes it alone, whatever stands behind it.
-/
namespace BrowserActions.Selector

open Text

def isInsideChar (c : Char) : Bool := decide (c ∉ ['/', '[', ']', '\n'])

def unmarked (cs : List Char) : List Char := cs.filter fun c => c != '@'

def arguments (subject : List Char) (gap : Run isBlank) (value : List Char) : List Char :=
  subject ++ ',' :: (gap.chars ++ '\'' :: value)

/-- No call, or one that ends where the brackets end. A tag must not end in a blank character: it
would be trimmed behind the last step, but not in front of another. -/
inductive Confined : List Char → Prop
  | plain {cs : List Char} (hcontains : ¬ containsCall <+: cs) (hname : ¬ nameCall <+: cs) :
    Confined cs
  | containment (subject : List Char) (gap : Run isBlank) (value : List Char)
    (htag : nameCall <+: subject → Firm value) :
    Confined (containsCall ++ (arguments subject gap value ++ ['\'', ')']))
  | tag (name : List Char) (hfirm : Firm name) : Confined (nameCall ++ (name ++ ['\'']))

variable {rule : Rule} {cs rest : List Char} {x : Char}

def marking : List Rule := [descendantRule, childRule, positionRule, attributeRule]

def calling : List Rule := [containsRule, nameRule, predicateRule]

theorem stages_split : stages = marking ++ calling := rfl

/-- What stands in one pair of brackets, on one line. -/
def Inside (cs : List Char) : Prop := ∀ x ∈ ['[', ']', '\n'], Without x cs

theorem Inside.of_subset {a b : List Char} (h : Inside b) (hsub : a ⊆ b) : Inside a :=
  fun x hx c hc => h x hx c (hsub hc)

theorem Inside.append {a b : List Char} (ha : Inside a) (hb : Inside b) : Inside (a ++ b) :=
  fun x hx => (ha x hx).append (hb x hx)

theorem inside_unmarked (x : Run isInsideChar) : Inside (unmarked x.chars) := by
  intro m hm c hc
  have hinside : isInsideChar m = false := by fin_cases hm <;> decide
  exact x.without hinside c (List.mem_of_mem_filter hc)

theorem keeps_marking (h : ∀ x ∈ ['/', '[', '@'], Without x cs) : Passes marking cs cs :=
  have hslash := h '/' (by decide)
  .stage (appliesAt_descendant.keeps hslash) <| .stage (appliesAt_child.keeps hslash) <|
    .stage (appliesAt_position.keeps (h '[' (by decide))) <|
    .stage (appliesAt_attribute.keeps (h '@' (by decide))) (.done cs)

theorem axis_marked (a : Axis) (name : Word isNameChar) :
    Passes marking (a.text ++ name.chars) (a.css ++ name.chars) := by
  have hchild := (child_axis a).append (keeps_name appliesAt_child (by decide) name)
  have hwithout : ∀ x ∈ ['@', '['], Without x (a.css ++ name.chars) := by
    intro x hx
    have haxis : Without x a.css := by cases a <;> fin_cases hx <;> decide
    exact haxis.append (name.without (by fin_cases hx <;> decide))
  exact .stage (descendant_axis a name) <| .stage hchild <|
    .stage (appliesAt_position.keeps (hwithout '[' (by decide))) <|
    .stage (appliesAt_attribute.keeps (hwithout '@' (by decide))) (.done _)

theorem keeps_inside (h : AppliesAt '/' rule) (x : Run isInsideChar) :
    Rewrites rule (bracketed x.chars) (bracketed x.chars) :=
  h.keeps (((x.without (by decide)).append (by decide)).cons (by decide))

theorem position_none_inside (hclose : Without ']' cs)
    (hdigits : cs = [] ∨ ∃ c ∈ cs, isDecimalDigit c = false) (rest : List Char) :
    positionRule (bracketed cs ++ rest) = none := by
  rw [bracketed_append]
  rcases hdigits with rfl | ⟨c, hc, hdigit⟩
  · rfl
  · have hfound : (cs.find? fun d => !isDecimalDigit d).isSome = true :=
      List.find?_isSome.mpr ⟨c, hc, by rw [hdigit]; rfl⟩
    obtain ⟨d, hfirst⟩ := Option.isSome_iff_exists.mp hfound
    obtain ⟨hd, front, more, rfl, hfront⟩ := List.find?_eq_some_iff_append.mp hfirst
    have hend : d ≠ ']' := hclose d (List.mem_append_right _ List.mem_cons_self)
    rw [List.append_assoc, List.cons_append]
    have htake : (front ++ d :: (more ++ ']' :: rest)).takeWhile isDecimalDigit = front := by
      rw [List.takeWhile_append_of_pos fun e he => by simpa using hfront e he,
        List.takeWhile_cons_of_neg (by simpa using hd), List.append_nil]
    simp only [positionRule, strip, if_pos, Option.bind_eq_bind, Option.bind_some, htake,
      List.drop_left, if_neg hend.symm, Option.bind_none]

theorem attribute_unmarked (cs : List Char) : Rewrites attributeRule cs (unmarked cs) := by
  induction cs with
  | nil => exact rewrites_nil _
  | cons c cs ih =>
    by_cases hc : c = '@'
    · subst hc
      exact attribute_mark.append ih
    · have hkept : unmarked (c :: cs) = c :: unmarked cs :=
        List.filter_cons_of_pos (bne_iff_ne.mpr hc)
      rw [hkept]
      exact ih.cons fun rest => appliesAt_attribute c _ hc

theorem no_lead {call : List Char} (hcall : Without ']' call) (h : ¬ call <+: cs)
    (rest : List Char) : strip ('[' :: call) (bracketed cs ++ rest) = none := by
  rw [bracketed_append, Option.eq_none_iff_forall_ne_some]
  intro behind hbehind
  have heq := strip_eq_some.mp hbehind
  rw [List.cons_append, List.cons.injEq] at heq
  exact h (prefix_of_without hcall ⟨behind, heq.2.symm⟩)

theorem keeps_no_contains (hin : Inside cs) (h : ¬ containsCall <+: cs) :
    Rewrites containsRule (bracketed cs) (bracketed cs) :=
  keeps_bracketed appliesAt_contains (hin '[' (by decide)) fun _ =>
    contains_none (no_lead (by decide) h _)

theorem keeps_no_name (hin : Inside cs) (h : ¬ nameCall <+: cs) :
    Rewrites nameRule (bracketed cs) (bracketed cs) :=
  keeps_bracketed appliesAt_name (hin '[' (by decide)) fun _ =>
    name_none (no_lead (by decide) h _)

theorem quoted_closed (hin : Inside cs) (hblank : ∃ c ∈ cs, isBlank c = false) :
    (∀ rest, quotedValue? (cs ++ ('\'' :: [')', ']'] ++ rest)) = none) ∨
      ∃ (gap : Run isBlank) (value : List Char), cs = gap.chars ++ '\'' :: value ∧
        ∀ rest, quotedValue? (cs ++ ('\'' :: [')', ']'] ++ rest)) = some (value, rest) := by
  have hsplit : cs.takeWhile isBlank ++ cs.dropWhile isBlank = cs :=
    List.takeWhile_append_dropWhile
  let gap : Run isBlank := ⟨cs.takeWhile isBlank, fun c hc => List.mem_takeWhile_imp hc⟩
  cases hdrop : cs.dropWhile isBlank with
  | nil =>
    obtain ⟨c, hc, hb⟩ := hblank
    rw [List.dropWhile_eq_nil_iff.mp hdrop c hc] at hb
    cases hb
  | cons c value =>
    rw [hdrop] at hsplit
    by_cases hc : c = '\''
    · subst hc
      right
      refine ⟨gap, value, hsplit.symm, fun rest => ?_⟩
      have hvin : Inside value := hin.of_subset fun d hd =>
        hsplit ▸ List.mem_append_right _ (List.mem_cons_of_mem _ hd)
      have hread := quoted_value gap (hvin ']' (by decide)) (hvin '\n' (by decide)) rest
      rw [← hsplit, List.append_assoc]
      exact hread
    · left
      intro rest
      have hblank : isBlank c = false := by
        refine @head_trimStart cs c ?_
        rw [trimStart, hdrop]
        rfl
      rw [← hsplit, List.append_assoc, quotedValue?, List.dropWhile_append_of_pos gap.among_all,
        List.cons_append, List.dropWhile_cons_of_neg (by rw [hblank]; decide), strip,
        if_neg (Ne.symm hc)]
      rfl

variable {subject value : List Char} {gap : Run isBlank}

theorem suffix_arguments (subject : List Char) (gap : Run isBlank) (value : List Char) :
    value <:+ arguments subject gap value :=
  ⟨subject ++ ',' :: (gap.chars ++ ['\'']), by simp [arguments]⟩

theorem contains_closed (subject : List Char) (gap : Run isBlank) (value : List Char)
    (hin : Inside (arguments subject gap value)) :
    ∃ left gap' right, arguments subject gap value = arguments left gap' right ∧
      ∀ rest, containsParts? (arguments subject gap value ++ ('\'' :: [')', ']'] ++ rest)) =
        some (left, right, rest) := by
  induction subject with
  | nil =>
    have hvin : Inside value := hin.of_subset (suffix_arguments [] gap value).subset
    refine ⟨[], gap, value, rfl, fun rest => ?_⟩
    have hread := quoted_value gap (hvin ']' (by decide)) (hvin '\n' (by decide)) rest
    rw [arguments, List.nil_append, List.cons_append, List.append_assoc, List.cons_append]
    exact contains_parts_here hread
  | cons c subject ih =>
    have hstep : arguments (c :: subject) gap value = c :: arguments subject gap value := rfl
    rw [hstep] at hin ⊢
    have hrest : Inside (arguments subject gap value) := hin.of_subset (List.subset_cons_self _ _)
    have hcomma : ',' ∈ arguments subject gap value :=
      List.mem_append_right _ List.mem_cons_self
    by_cases hhere : c = ',' ∧ ∃ (gap' : Run isBlank) (right : List Char),
      arguments subject gap value = gap'.chars ++ '\'' :: right ∧ ∀ rest, quotedValue?
        (arguments subject gap value ++ ('\'' :: [')', ']'] ++ rest)) = some (right, rest)
    · obtain ⟨rfl, gap', right, heq, hvalue⟩ := hhere
      exact ⟨[], gap', right, congrArg (',' :: ·) heq,
        fun rest => contains_parts_here (hvalue rest)⟩
    · obtain ⟨left, gap', right, heq, hread⟩ := ih hrest
      refine ⟨c :: left, gap', right, congrArg (c :: ·) heq, fun rest => ?_⟩
      have hline : c ≠ '\n' := hin '\n' (by decide) c List.mem_cons_self
      have hnone : c = ',' →
          quotedValue? (arguments subject gap value ++ ('\'' :: [')', ']'] ++ rest)) = none := by
        intro hc
        rcases quoted_closed hrest ⟨',', hcomma, by decide⟩ with h | h
        · exact h rest
        · exact absurd ⟨hc, h⟩ hhere
      rw [List.cons_append, contains_parts_later hline hnone, hread]
      rfl

theorem name_arguments : nameCall <+: arguments subject gap value ↔ nameCall <+: subject :=
  ⟨prefix_of_without (by decide), fun h => h.trans (List.prefix_append _ _)⟩

theorem firm_quoted (front value : List Char) : Firm (front ++ '\'' :: value) ↔ Firm value := by
  refine ⟨fun h => h.of_suffix ⟨front ++ ['\''], by simp⟩, fun h => ?_⟩
  have hquote : Firm (front ++ ['\'']) := firm_concat front (by decide)
  simpa using hquote.append h

theorem firm_arguments : Firm (arguments subject gap value) ↔ Firm value := by
  have hsplit : arguments subject gap value = subject ++ ',' :: gap.chars ++ '\'' :: value := by
    simp [arguments]
  rw [hsplit, firm_quoted]

theorem take_read (read rest : List Char) :
    (read ++ rest).take ((read ++ rest).length - rest.length) = read := by
  simp

theorem quoted_value_eq_some (h : quotedValue? cs = some (value, rest)) :
    ∃ gap : Run isBlank, cs = gap.chars ++ '\'' :: (value ++ ('\'' :: [')', ']'] ++ rest)) := by
  obtain ⟨inside, hquote, hvalue⟩ := Option.bind_eq_some_iff.mp h
  refine ⟨⟨cs.takeWhile isBlank, fun c hc => List.mem_takeWhile_imp hc⟩, ?_⟩
  have hsplit : cs.takeWhile isBlank ++ cs.dropWhile isBlank = cs :=
    List.takeWhile_append_dropWhile
  have hinside := strip_eq_some.mp hquote
  rw [upTo_eq_some hvalue] at hinside
  rw [hinside] at hsplit
  exact hsplit.symm

theorem contains_parts_eq_some (h : containsParts? cs = some (subject, value, rest)) :
    ∃ gap, cs = arguments subject gap value ++ ('\'' :: [')', ']'] ++ rest) := by
  induction cs generalizing subject with
  | nil => cases h
  | cons c cs ih =>
    by_cases hhere : c = ',' ∧ ∃ p, quotedValue? cs = some p
    · obtain ⟨rfl, ⟨found, behind⟩, hfound⟩ := hhere
      rw [contains_parts_here hfound] at h
      cases h
      obtain ⟨gap, rfl⟩ := quoted_value_eq_some hfound
      exact ⟨gap, by simp [arguments]⟩
    · have hnone : c = ',' → quotedValue? cs = none := fun hc =>
        Option.eq_none_iff_forall_ne_some.mpr fun p hp => hhere ⟨hc, p, hp⟩
      by_cases hline : c = '\n'
      · subst hline
        cases h
      · rw [contains_parts_later hline hnone] at h
        obtain ⟨⟨left, found, behind⟩, hleft, heq⟩ := Option.map_eq_some_iff.mp h
        cases heq
        obtain ⟨gap, rfl⟩ := ih hleft
        exact ⟨gap, rfl⟩

theorem contains_eq_some {out : List Char} {n : Nat} (h : containsRule cs = some (out, n)) :
    ∃ subject gap value rest,
      cs = '[' :: containsCall ++ (arguments subject gap value ++ ('\'' :: [')', ']'] ++ rest)) ∧
      out = '[' :: subject ++ ['*', '=', '\''] ++ value ++ ['\'', ']'] ∧
      cs.take n = '[' :: containsCall ++ (arguments subject gap value ++ ['\'', ')', ']']) := by
  obtain ⟨inside, hlead, hrest⟩ := Option.bind_eq_some_iff.mp h
  obtain ⟨⟨subject, value, rest⟩, hparts, heq⟩ := Option.bind_eq_some_iff.mp hrest
  obtain ⟨gap, rfl⟩ := contains_parts_eq_some hparts
  obtain rfl := strip_eq_some.mp hlead
  cases heq
  have hread := take_read
    ('[' :: containsCall ++ (arguments subject gap value ++ ['\'', ')', ']'])) rest
  rw [List.append_assoc, List.append_assoc] at hread
  exact ⟨subject, gap, value, rest, rfl, rfl, hread⟩

theorem group_eq_some {lead stop out : List Char} {write : List Char → List Char} {n : Nat}
    (h : group lead stop write cs = some (out, n)) :
    ∃ body rest, cs = lead ++ (body ++ (stop ++ rest)) ∧ out = write body ∧
      cs.take n = lead ++ (body ++ stop) := by
  obtain ⟨inside, hlead, hrest⟩ := Option.bind_eq_some_iff.mp h
  obtain ⟨⟨body, rest⟩, hbody, heq⟩ := Option.bind_eq_some_iff.mp hrest
  obtain rfl := upTo_eq_some hbody
  obtain rfl := strip_eq_some.mp hlead
  cases heq
  have hread := take_read (lead ++ (body ++ stop)) rest
  rw [List.append_assoc, List.append_assoc] at hread
  exact ⟨body, rest, rfl, rfl, hread⟩

theorem frugal_predicate (hx : isBlank x = false) : Frugal x predicateRule := by
  intro cs out n h
  obtain ⟨body, rest, -, rfl, htake⟩ := group_eq_some h
  have htrim := count_trim hx body
  rw [htake]
  simp only [List.count_append, List.count_cons, List.count_nil] at htrim ⊢
  omega

theorem firm_bracketed (cs : List Char) : Firm (bracketed cs) :=
  firm_concat ('[' :: cs) (by decide)

/-- What is a test of a tag closes, and its tag does not end in a blank character. -/
def TagCloses (cs : List Char) : Prop :=
  nameCall <+: cs → ∃ name, cs = nameCall ++ (name ++ ['\'']) ∧ Firm name

theorem contains_kept (subject : List Char) (gap : Run isBlank) (value : List Char)
    (hin : Inside (arguments subject gap value)) :
    ∃ kept, Rewrites containsRule
        (bracketed (containsCall ++ (arguments subject gap value ++ ['\'', ')'])))
        (bracketed kept) ∧
      Inside kept ∧ (nameCall <+: kept ↔ nameCall <+: subject) ∧
      (nameCall <+: kept →
        ∃ name, kept = nameCall ++ (name ++ ['\'']) ∧ (Firm name ↔ Firm value)) := by
  obtain ⟨left, gap', right, heq, hread⟩ := contains_closed subject gap value hin
  have hleft : nameCall <+: left ++ '*' :: '=' :: '\'' :: (right ++ ['\'']) ↔ nameCall <+: left :=
    ⟨prefix_of_without (by decide), fun h => h.trans (List.prefix_append _ _)⟩
  refine ⟨left ++ '*' :: '=' :: '\'' :: (right ++ ['\'']), contains_reads fun rest => ?_, ?_, ?_,
    ?_⟩
  · rw [List.append_assoc]
    exact hread rest
  · rw [heq] at hin
    have hl : Inside left := hin.of_subset (List.subset_append_left _ _)
    have hr : Inside right := hin.of_subset (suffix_arguments left gap' right).subset
    have hmiddle : Inside ['*', '=', '\''] := fun x hx => by fin_cases hx <;> decide
    have hquote : Inside ['\''] := hmiddle.of_subset (by simp)
    simpa using hl.append (hmiddle.append (hr.append hquote))
  · rw [hleft, ← name_arguments, ← heq, name_arguments]
  · intro hcall
    obtain ⟨tag, rfl⟩ := hleft.mp hcall
    refine ⟨tag ++ ['*', '='] ++ '\'' :: right, by simp, ?_⟩
    rw [firm_quoted, ← firm_arguments, ← heq, firm_arguments]

theorem confined_contains (h : Confined cs) (hin : Inside cs) :
    ∃ kept, Rewrites containsRule (bracketed cs) (bracketed kept) ∧ Inside kept ∧
      TagCloses kept := by
  cases h with
  | plain hcontains hname =>
    exact ⟨cs, keeps_no_contains hin hcontains, hin, fun h => absurd h hname⟩
  | tag name hfirm =>
    have hcontains : ¬ containsCall <+: nameCall ++ (name ++ ['\'']) := by
      intro h
      cases (List.cons_prefix_cons.mp h).1
    exact ⟨_, keeps_no_contains hin hcontains, hin, fun _ => ⟨name, rfl, hfirm⟩⟩
  | containment subject gap value htag =>
    have hclosed : Inside (arguments subject gap value) :=
      hin.of_subset fun c hc => List.mem_append_right _ (List.mem_append_left _ hc)
    obtain ⟨kept, hreads, hkept, hsubject, hcall⟩ := contains_kept subject gap value hclosed
    refine ⟨kept, hreads, hkept, fun h => ?_⟩
    obtain ⟨name, rfl, hfirm⟩ := hcall h
    exact ⟨name, rfl, hfirm.mpr (htag (hsubject.mp h))⟩

theorem tag_closes_passes (hin : Inside cs) (htag : TagCloses cs) :
    ∃ css, Passes [nameRule, predicateRule] (bracketed cs) css ∧ Firm css := by
  by_cases hcall : nameCall <+: cs
  · obtain ⟨name, rfl, hfirm⟩ := htag hcall
    have hname : Inside name :=
      hin.of_subset fun c hc => List.mem_append_right _ (List.mem_append_left _ hc)
    have hreads := name_reads (hname ']' (by decide)) (hname '\n' (by decide))
    have hkeeps := appliesAt_predicate.keeps (hname '[' (by decide))
    exact ⟨name, .stage hreads (.stage hkeeps (.done name)), hfirm⟩
  · have htrims := predicate_trims (hin ']' (by decide)) (hin '\n' (by decide))
    exact ⟨_, .stage (keeps_no_name hin hcall) (.stage htrims (.done _)), firm_bracketed _⟩

theorem keeps_calling (hopen : Without '[' cs) : Passes calling cs cs :=
  .stage (appliesAt_contains.keeps hopen) <| .stage (appliesAt_name.keeps hopen) <|
    .stage (appliesAt_predicate.keeps hopen) (.done cs)

theorem position_passes (number : Word isDecimalDigit) :
    Passes stages (Predicate.position number).text (Predicate.position number).css := by
  have hcss : ∀ x ∈ ['@', '['], Without x (Predicate.position number).css := by
    intro x hx
    have hnumber := number.without (digit_of_mark (x := x) (by fin_cases hx <;> decide))
    exact Without.append (by fin_cases hx <;> decide)
      (hnumber.append (by fin_cases hx <;> decide))
  exact .stage (keeps_text appliesAt_descendant _) <| .stage (keeps_text appliesAt_child _) <|
    .stage (position_applies number) <| .stage (appliesAt_attribute.keeps (hcss '@' (by decide)))
      (keeps_calling (hcss '[' (by decide)))

theorem marks_pass (x : Run isInsideChar)
    (hother : x.chars = [] ∨ ∃ c ∈ x.chars, isDecimalDigit c = false) :
    Passes marking (bracketed x.chars) (bracketed (unmarked x.chars)) := by
  have hposition := keeps_bracketed appliesAt_position (x.without (by decide))
    (position_none_inside (x.without (by decide)) hother)
  have hmarks : Rewrites attributeRule (bracketed x.chars) (bracketed (unmarked x.chars)) := by
    have hall := attribute_unmarked (bracketed x.chars)
    simpa [unmarked, bracketed] using hall
  exact .stage (keeps_inside appliesAt_descendant x) <| .stage (keeps_inside appliesAt_child x) <|
    .stage hposition <| .stage hmarks (.done _)

/-- A confined predicate is translated alike whatever stands behind it. -/
theorem confined_passes (x : Run isInsideChar) (h : Confined (unmarked x.chars)) :
    ∃ css, Passes stages (bracketed x.chars) css ∧ Firm css := by
  by_cases hdigits : x.chars ≠ [] ∧ ∀ c ∈ x.chars, isDecimalDigit c = true
  · let number : Word isDecimalDigit := ⟨⟨x.chars, hdigits.2⟩, hdigits.1⟩
    have hfirm : Firm (positionCall ++ x.chars ++ [')']) := firm_concat _ (by decide)
    exact ⟨_, position_passes number, by simpa [Predicate.css, number] using hfirm⟩
  · have hother : x.chars = [] ∨ ∃ c ∈ x.chars, isDecimalDigit c = false := by
      rcases not_and_or.mp hdigits with hempty | hsome
      · exact .inl (not_not.mp hempty)
      · obtain ⟨c, hc⟩ := not_forall.mp hsome
        obtain ⟨hmem, hdigit⟩ := Classical.not_imp.mp hc
        exact .inr ⟨c, hmem, Bool.eq_false_iff.mpr hdigit⟩
    obtain ⟨kept, hcontains, hin, htag⟩ := confined_contains h (inside_unmarked x)
    obtain ⟨css, hpasses, hfirm⟩ := tag_closes_passes hin htag
    exact ⟨css, (marks_pass x hother).trans (.stage hcontains hpasses), hfirm⟩

end BrowserActions.Selector
