import Mathlib
import BrowserActions.Proofs.Selector.Composition

/-!
# Predicates that are not confined

No predicate can be spared the condition on paths. Behind one that is not confined, some step keeps
the path from being translated step by step: it closes the call that was left open, and the
parenthesis of the call is lost, or it keeps a blank character that a step on its own loses.
-/
namespace BrowserActions.Selector

open Text

variable {cs front rest : List Char}

theorem contains_parts_isSome (hline : Without '\n' front) :
    (containsParts? (front ++ ",'')]".toList)).isSome = true := by
  induction front with
  | nil => rfl
  | cons c front ih =>
    rw [List.cons_append]
    by_cases hhere : c = ',' ∧ ∃ p, quotedValue? (front ++ ",'')]".toList) = some p
    · obtain ⟨rfl, ⟨value, behind⟩, hfound⟩ := hhere
      rw [contains_parts_here hfound]
      rfl
    · have hnone : c = ',' → quotedValue? (front ++ ",'')]".toList) = none := fun hc =>
        Option.eq_none_iff_forall_ne_some.mpr fun p hp => hhere ⟨hc, p, hp⟩
      rw [contains_parts_later (hline c List.mem_cons_self) hnone, Option.isSome_map]
      exact ih hline.tail

theorem spends_contains : Spends '(' containsRule := by
  intro cs out n h
  obtain ⟨subject, gap, value, rest, -, rfl, htake⟩ := contains_eq_some h
  have hwritten : ('[' :: subject ++ ['*', '=', '\''] ++ value ++ ['\'', ']']).count '(' =
      subject.count '(' + value.count '(' := by simp
  have htaken :
      ('[' :: containsCall ++ (arguments subject gap value ++ ['\'', ')', ']'])).count '(' =
        1 + (subject.count '(' + (gap.chars.count '(' + value.count '(')) := by
    simp [arguments, (by decide : containsCall.count '(' = 1)]
  rw [htake, hwritten, htaken]
  omega

theorem spends_name : Spends '(' nameRule := by
  intro cs out n h
  obtain ⟨body, rest, -, rfl, htake⟩ := group_eq_some h
  rw [htake]
  simp [List.count_append]

variable {x z : Run isInsideChar}

def before (x : Run isInsideChar) (next : List (Run isInsideChar)) : Route :=
  ⟨⟨firstName, [x]⟩, [(.child, ⟨nextName, next⟩)]⟩

theorem staged_marked {text marked : List Char} (h : Passes marking text marked) :
    staged text =
      replaceAll predicateRule (replaceAll nameRule (replaceAll containsRule marked)) := by
  rw [staged, stages_split, List.foldl_append, h.all]
  rfl

theorem letter_marked : Passes marking ['a'] ['a'] :=
  keeps_marking fun x hx => by fin_cases hx <;> decide

theorem child_marked : Passes marking ['/', 'b'] [' ', '>', ' ', 'b'] := axis_marked .child nextName

/-- What is left of the first step before calls are read. -/
def marked (x : Run isInsideChar) : List Char := 'a' :: bracketed (unmarked x.chars)

def markedNext (z : Run isInsideChar) : List Char :=
  [' ', '>', ' ', 'b'] ++ bracketed (unmarked z.chars)

theorem step_text (x : Run isInsideChar) :
    (Segment.mk firstName [x]).text = ['a'] ++ bracketed x.chars := by
  simp [Segment.text, firstName]

theorem before_text (x : Run isInsideChar) (next : List (Run isInsideChar)) :
    (before x next).text = (Segment.mk firstName [x]).text ++
      (['/', 'b'] ++ next.flatMap fun z => bracketed z.chars) := by
  simp [Route.text, Route.joined, before, Segment.text, firstName, nextName, Axis.text]

theorem step_marked (hx : ∃ c ∈ x.chars, isDecimalDigit c = false) :
    Passes marking (Segment.mk firstName [x]).text (marked x) := by
  rw [step_text]
  exact letter_marked.append (marks_pass x (.inr hx))

theorem before_marked (hx : ∃ c ∈ x.chars, isDecimalDigit c = false)
    (hz : ∃ c ∈ z.chars, isDecimalDigit c = false) :
    Passes marking (before x [z]).text (marked x ++ markedNext z) := by
  rw [before_text, List.flatMap_singleton]
  exact (step_marked hx).append (child_marked.append (marks_pass z (.inr hz)))

theorem keeps_lone {rule : Rule} (h : AppliesAt '[' rule)
    (hnone : rule (bracketed (unmarked x.chars)) = none) :
    replaceAll rule (marked x) = marked x := by
  have hopen : Without '[' (unmarked x.chars ++ [']']) :=
    (inside_unmarked x '[' (by decide)).append (by decide)
  rw [marked, replaceAll_cons_none (h 'a' _ (by decide)), bracketed, replaceAll_cons_none hnone,
    (h.keeps hopen).all]

theorem count_lone (hx : ∃ c ∈ x.chars, isDecimalDigit c = false)
    (hcontains : containsRule (bracketed (unmarked x.chars)) = none)
    (hname : nameRule (bracketed (unmarked x.chars)) = none) :
    (translate (Segment.mk firstName [x]).text).count '(' = (unmarked x.chars).count '(' := by
  have hin := inside_unmarked x
  have htrims := predicate_trims (hin ']' (by decide)) (hin '\n' (by decide))
  have hstaged : staged (Segment.mk firstName [x]).text =
      'a' :: bracketed (trim (unmarked x.chars)) := by
    rw [staged_marked (step_marked hx), keeps_lone appliesAt_contains hcontains,
      keeps_lone appliesAt_name hname, marked,
      replaceAll_cons_none (appliesAt_predicate 'a' _ (by decide)), htrims.all]
  have htrim := count_trim (x := '(') (by decide)
  change (trim (staged _)).count '(' = _
  rw [htrim, hstaged]
  simp [bracketed, htrim]

theorem lost_parenthesis (hx : ∃ c ∈ x.chars, isDecimalDigit c = false)
    (hz : ∃ c ∈ z.chars, isDecimalDigit c = false) (hnext : (markedNext z).count '(' = 0)
    (hcontains : containsRule (bracketed (unmarked x.chars)) = none)
    (hname : nameRule (bracketed (unmarked x.chars)) = none)
    (hlost : (replaceAll nameRule (replaceAll containsRule (marked x ++ markedNext z))).count '(' <
      (marked x ++ markedNext z).count '(') : ¬ (before x [z]).Composes := by
  intro hcomposes
  have htrim := count_trim (x := '(') (by decide)
  have hpath : (trim (staged (before x [z]).text)).count '(' <
      (marked x ++ markedNext z).count '(' := by
    rw [htrim, staged_marked (before_marked hx hz)]
    exact Nat.lt_of_le_of_lt ((frugal_predicate (by decide)).replaceAll _) hlost
  have hsteps : (trim (before x [z]).stepwise).count '(' ≥ (unmarked x.chars).count '(' := by
    rw [htrim, before, Route.stepwise_cons, List.count_append, count_lone hx hcontains hname]
    exact Nat.le_add_right _ _
  have hmarked : (marked x ++ markedNext z).count '(' = (unmarked x.chars).count '(' := by
    rw [List.count_append, hnext]
    simp [marked, bracketed]
  rw [(Route.composes_iff _).mp hcomposes, hmarked] at hpath
  omega

def closeCall : Run isInsideChar := ⟨",'')".toList, List.all_eq_true.mp (by decide +kernel)⟩

def closeTag : Run isInsideChar := ⟨['\''], List.all_eq_true.mp (by decide +kernel)⟩

theorem not_digit_of_prefix {call : List Char} {c : Char} (h : call <+: unmarked x.chars)
    (hc : c ∈ call) (hdigit : isDecimalDigit c = false) :
    ∃ c ∈ x.chars, isDecimalDigit c = false :=
  ⟨c, List.mem_of_mem_filter (h.subset hc), hdigit⟩

theorem lone_contains_none (h : ¬ containsCall <+: cs) : containsRule (bracketed cs) = none := by
  have hlead := no_lead (by decide) h []
  rw [List.append_nil] at hlead
  exact contains_none hlead

theorem lone_name_none (h : ¬ nameCall <+: cs) : nameRule (bracketed cs) = none := by
  have hlead := no_lead (by decide) h []
  rw [List.append_nil] at hlead
  exact name_none hlead

theorem eq_of_close {inside : List Char} (rest : List Char) (hin : Inside cs)
    (h : cs ++ [']'] = inside ++ ']' :: rest) : cs = inside :=
  have hnot : ']' ∉ cs := fun hmem => hin ']' (by decide) ']' hmem rfl
  ((List.append_cons_inj_of_notMem hnot List.not_mem_nil).mp h).1

/-- A rule that applies at the brackets of the first step takes a parenthesis off. -/
theorem count_first {rule : Rule} (hbracket : AppliesAt '[' rule) (hspends : Spends '(' rule)
    (happlies : (rule (bracketed (unmarked x.chars) ++ rest)).isSome = true) :
    (replaceAll rule (marked x ++ rest)).count '(' < (marked x ++ rest).count '(' := by
  rw [bracketed_append] at happlies
  have hless := hspends.replaceAll happlies
  rw [marked, List.cons_append, bracketed_append,
    replaceAll_cons_none (hbracket 'a' _ (by decide)), List.count_cons, List.count_cons]
  exact Nat.add_lt_add_right hless _

theorem contains_isSome {call : List Char} (h : (containsParts? call).isSome = true) :
    (containsRule ('[' :: (containsCall ++ call))).isSome = true := by
  obtain ⟨parts, hparts⟩ := Option.isSome_iff_exists.mp h
  rw [containsRule, contains_lead, strip, if_pos rfl, strip_append, Option.bind_eq_bind,
    Option.bind_some, hparts]
  rfl

theorem name_isSome {tag : List Char} (h : (upTo ['\'', ']'] tag).isSome = true) :
    (nameRule ('[' :: (nameCall ++ tag))).isSome = true := by
  obtain ⟨parts, hparts⟩ := Option.isSome_iff_exists.mp h
  rw [nameRule, group, name_lead, strip, if_pos rfl, strip_append, Option.bind_eq_bind,
    Option.bind_some, hparts]
  rfl

theorem text_behind_call {call opened : List Char} (h : call ++ opened = unmarked x.chars) :
    bracketed (unmarked x.chars) ++ markedNext z =
      '[' :: (call ++ (opened ++ [']', ' ', '>', ' ', 'b', '['] ++
        (unmarked z.chars ++ [']']))) := by
  rw [← h]
  simp [bracketed, markedNext]

theorem line_behind_call {call opened : List Char} (h : call ++ opened = unmarked x.chars) :
    Without '\n' (opened ++ [']', ' ', '>', ' ', 'b', '[']) := by
  have hopened : Inside opened :=
    (inside_unmarked x).of_subset fun c hc => h ▸ List.mem_append_right _ hc
  exact (hopened '\n' (by decide)).append (by decide)

theorem open_contains_none (hopen : ∀ subject gap value,
    unmarked x.chars ≠ containsCall ++ (arguments subject gap value ++ ['\'', ')'])) :
    containsRule (bracketed (unmarked x.chars)) = none := by
  rw [Option.eq_none_iff_forall_ne_some]
  intro applied happlied
  obtain ⟨subject, gap, value, rest, heq, -⟩ := contains_eq_some happlied
  refine hopen subject gap value (eq_of_close rest (inside_unmarked x) ?_)
  simpa [bracketed] using heq

theorem open_name_none (hopen : ∀ tag, unmarked x.chars ≠ nameCall ++ (tag ++ ['\''])) :
    nameRule (bracketed (unmarked x.chars)) = none := by
  rw [Option.eq_none_iff_forall_ne_some]
  intro applied happlied
  obtain ⟨tag, rest, heq, -⟩ := group_eq_some happlied
  refine hopen tag (eq_of_close rest (inside_unmarked x) ?_)
  rw [name_lead] at heq
  simpa [bracketed] using heq

theorem open_contains (h : containsCall <+: unmarked x.chars)
    (hopen : ∀ subject gap value,
      unmarked x.chars ≠ containsCall ++ (arguments subject gap value ++ ['\'', ')'])) :
    ¬ (before x [closeCall]).Composes := by
  have hx := not_digit_of_prefix (c := 'c') h (by decide) (by decide +kernel)
  obtain ⟨call, hcall⟩ := h
  have hname : nameRule (bracketed (unmarked x.chars)) = none := by
    refine lone_name_none fun hname => ?_
    rw [← hcall] at hname
    cases (List.cons_prefix_cons.mp hname).1
  have hread :
      (containsRule (bracketed (unmarked x.chars) ++ markedNext closeCall)).isSome = true := by
    have hclose : unmarked closeCall.chars ++ [']'] = ",'')]".toList := by decide +kernel
    rw [text_behind_call hcall, hclose]
    exact contains_isSome (contains_parts_isSome (line_behind_call hcall))
  have hlost := count_first appliesAt_contains spends_contains hread
  exact lost_parenthesis hx ⟨',', by decide +kernel, by decide +kernel⟩ (by decide +kernel)
    (open_contains_none hopen) hname
    (Nat.lt_of_le_of_lt (spends_name.frugal.replaceAll _) hlost)

theorem open_name (h : nameCall <+: unmarked x.chars)
    (hopen : ∀ tag, unmarked x.chars ≠ nameCall ++ (tag ++ ['\''])) :
    ¬ (before x [closeTag]).Composes := by
  have hx := not_digit_of_prefix (c := 'n') h (by decide) (by decide +kernel)
  obtain ⟨tag, htag⟩ := h
  have hno : ¬ containsCall <+: unmarked x.chars := by
    intro hcontains
    rw [← htag] at hcontains
    cases (List.cons_prefix_cons.mp hcontains).1
  have hkeeps : replaceAll containsRule (marked x ++ markedNext closeTag) =
      marked x ++ markedNext closeTag := by
    have hfirst : Rewrites containsRule (marked x) (marked x) :=
      (keeps_no_contains (inside_unmarked x) hno).cons fun rest =>
        appliesAt_contains 'a' _ (by decide)
    have hcall : ¬ containsCall <+: unmarked closeTag.chars := by decide +kernel
    have hnext : Rewrites containsRule (markedNext closeTag) (markedNext closeTag) :=
      (appliesAt_contains.keeps (by decide)).append
        (keeps_no_contains (inside_unmarked closeTag) hcall)
    exact (hfirst.append hnext).all
  have hread : (nameRule (bracketed (unmarked x.chars) ++ markedNext closeTag)).isSome = true := by
    have hclose : unmarked closeTag.chars ++ [']'] = ['\'', ']'] := by decide +kernel
    rw [text_behind_call htag, hclose]
    exact name_isSome (upTo_isSome (List.cons_ne_nil _ _) (line_behind_call htag))
  refine lost_parenthesis hx ⟨'\'', by decide +kernel, by decide +kernel⟩ (by decide +kernel)
    (lone_contains_none hno) (open_name_none hopen) ?_
  rw [hkeeps]
  exact count_first appliesAt_name spends_name hread

variable {css tag : List Char}

theorem step_passes (h : Passes stages (bracketed x.chars) css) :
    Passes stages (Segment.mk firstName [x]).text ('a' :: css) := by
  rw [step_text]
  exact (name_passes firstName).append h

theorem before_passes (h : Passes stages (bracketed x.chars) css) :
    Passes stages (before x []).text ('a' :: css ++ [' ', '>', ' ', 'b']) := by
  rw [before_text, List.flatMap_nil, List.append_nil]
  exact (step_passes h).append (axis_passes .child nextName)

theorem blank_end (h : Passes stages (bracketed x.chars) css) (hblank : ¬ Firm css) :
    ¬ (before x []).Composes := by
  intro hcomposes
  have hfirst : translate (Segment.mk firstName [x]).text = trimEnd ('a' :: css) := by
    rw [Segment.translate_text, staged, (step_passes h).all]
  have hbegins : Begins ('a' :: css ++ [' ', '>', ' ', 'b']) := ⟨'a', rfl, by decide⟩
  have hfirm : Firm ('a' :: css ++ [' ', '>', ' ', 'b']) := by
    have hlast : Firm ('a' :: css ++ [' ', '>', ' '] ++ ['b']) := firm_concat _ (by decide)
    simpa using hlast
  have hpath : trim (staged (before x []).text) = 'a' :: css ++ [' ', '>', ' ', 'b'] := by
    rw [staged, (before_passes h).all, hbegins.trim_eq, trimEnd_of_last hfirm]
  have hless : (trimEnd ('a' :: css)).length < ('a' :: css).length :=
    length_trimEnd_lt fun hend => hblank (hend.of_suffix (List.suffix_cons _ _))
  have hlength := (trim_within (before x []).stepwise).length_le
  have hnext : (Route.mk ⟨nextName, []⟩ []).stepwise = ['b'] := by decide +kernel
  rw [← (Route.composes_iff _).mp hcomposes, hpath, before, Route.stepwise_cons, hfirst,
    hnext] at hlength
  simp only [List.length_append, List.length_cons, List.length_nil, Axis.css] at hlength hless
  omega

theorem blank_tag (hx : ∃ c ∈ x.chars, isDecimalDigit c = false)
    (hcontains : Rewrites containsRule (bracketed (unmarked x.chars))
      (bracketed (nameCall ++ (tag ++ ['\'']))))
    (hin : Inside tag) (hblank : ¬ Firm tag) : ¬ (before x []).Composes := by
  have hcalls : Passes calling (bracketed (unmarked x.chars)) tag :=
    .stage hcontains <| .stage (name_reads (hin ']' (by decide)) (hin '\n' (by decide))) <|
      .stage (appliesAt_predicate.keeps (hin '[' (by decide))) (.done tag)
  exact blank_end ((marks_pass x (.inr hx)).trans hcalls) hblank

/-- Behind every predicate that is not confined, some step keeps the path from being translated
step by step. -/
theorem exists_not_composed (x : Run isInsideChar) (h : ¬ Confined (unmarked x.chars)) :
    ∃ next, ¬ (before x next).Composes := by
  have hin := inside_unmarked x
  by_cases hcontains : containsCall <+: unmarked x.chars
  · have hx := not_digit_of_prefix (c := 'c') hcontains (by decide) (by decide +kernel)
    by_cases hopen : ∃ subject gap value,
      unmarked x.chars = containsCall ++ (arguments subject gap value ++ ['\'', ')'])
    · obtain ⟨subject, gap, value, heq⟩ := hopen
      have hclosed : Inside (arguments subject gap value) := hin.of_subset fun c hc =>
        heq ▸ List.mem_append_right _ (List.mem_append_left _ hc)
      obtain ⟨kept, hreads, hkept, hsubject, hcall⟩ := contains_kept subject gap value hclosed
      have hblank : ¬ (nameCall <+: subject → Firm value) := fun htag =>
        h (heq ▸ .containment subject gap value htag)
      obtain ⟨htest, hvalue⟩ := Classical.not_imp.mp hblank
      obtain ⟨tag, rfl, hfirm⟩ := hcall (hsubject.mpr htest)
      have htag : Inside tag := hkept.of_subset fun c hc =>
        List.mem_append_right _ (List.mem_append_left _ hc)
      rw [← heq] at hreads
      exact ⟨[], blank_tag hx hreads htag fun hend => hvalue (hfirm.mp hend)⟩
    · push Not at hopen
      exact ⟨_, open_contains hcontains hopen⟩
  · by_cases hname : nameCall <+: unmarked x.chars
    · have hx := not_digit_of_prefix (c := 'n') hname (by decide) (by decide +kernel)
      by_cases hopen : ∃ tag, unmarked x.chars = nameCall ++ (tag ++ ['\''])
      · obtain ⟨tag, heq⟩ := hopen
        have htag : Inside tag := hin.of_subset fun c hc =>
          heq ▸ List.mem_append_right _ (List.mem_append_left _ hc)
        have hkeeps : Rewrites containsRule (bracketed (unmarked x.chars))
            (bracketed (nameCall ++ (tag ++ ['\'']))) := by
          rw [← heq]
          exact keeps_no_contains hin hcontains
        exact ⟨[], blank_tag hx hkeeps htag fun hend => h (heq ▸ .tag tag hend)⟩
      · push Not at hopen
        exact ⟨_, open_name hname hopen⟩
    · exact absurd (.plain hcontains hname) h

end BrowserActions.Selector
