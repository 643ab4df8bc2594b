import Mathlib
import BrowserActions.Proofs.Selector.Stages

/-!
# The translation of paths

The stages behind the slashes take the predicates one kind after the other. A rule for brackets
begins with letters and a parenthesis that no attribute test has, or with a digit; so it applies at
the predicates of its own kind only.
-/
namespace BrowserActions.Selector

open Text

variable {rule : Rule} {x : Char} {mark cs rest : List Char}

theorem length_bracketed (inside rest : List Char) :
    ('[' :: (inside ++ ']' :: rest)).length - rest.length = (bracketed inside).length := by
  simp only [bracketed, List.length_cons, List.length_append, List.length_nil]
  omega

theorem position_reads (number : Word isDecimalDigit) (rest : List Char) :
    positionRule (bracketed number.chars ++ rest) =
      some (positionCall ++ (number.chars ++ [')']), (bracketed number.chars).length) := by
  have hdigits : (number.chars ++ ']' :: rest).takeWhile isDecimalDigit = number.chars := by
    rw [List.takeWhile_append_of_pos number.among_all, List.takeWhile_cons_of_neg (by decide),
      List.append_nil]
  have hempty : ¬ number.chars.isEmpty = true := by simpa using number.ne_nil
  rw [bracketed_append]
  simp only [positionRule, strip, if_pos, Option.bind_eq_bind, Option.bind_some, hdigits,
    List.drop_left, if_neg hempty, length_bracketed]
  rfl

theorem position_applies (number : Word isDecimalDigit) :
    Rewrites positionRule (Predicate.position number).text (Predicate.position number).css :=
  rewrites_of_applies (List.cons_ne_nil _ _) (position_reads number)

theorem position_none {c : Char} (hdigit : isDecimalDigit c = false) (hc : c ≠ ']') :
    positionRule ('[' :: c :: cs) = none := by
  simp only [positionRule, strip, if_pos, Option.bind_eq_bind, Option.bind_some,
    List.takeWhile_cons_of_neg (Bool.eq_false_iff.mp hdigit), List.length_nil, List.drop_zero,
    if_neg hc.symm, Option.bind_none]

theorem position_none_gap (before : Run isGapChar) (cs : List Char) :
    positionRule ('[' :: (before.chars ++ '@' :: cs)) = none := by
  cases hb : before.chars with
  | nil => exact position_none (by decide) (by decide)
  | cons c more =>
    have hgap := before.among_all c (hb ▸ List.mem_cons_self)
    have hblank : isBlank c = true := ((Bool.and_eq_true _ _).mp hgap).1
    refine position_none (digit_of_blank hblank) ?_
    rintro rfl
    cases hblank

theorem position_predicate (p : Predicate) :
    Rewrites positionRule p.text (p.placed ['@']) := by
  have hin : Without '[' (p.inside ['@']) := inside_without (by decide) (by decide) p
  cases p with
  | position number => exact position_applies number
  | presence before name after =>
    refine keeps_bracketed appliesAt_position hin fun rest => ?_
    rw [bracketed_append, Predicate.inside, List.append_assoc]
    exact position_none_gap before _
  | equality before name value after =>
    refine keeps_bracketed appliesAt_position hin fun rest => ?_
    rw [bracketed_append, Predicate.inside, List.append_assoc]
    exact position_none_gap before _
  | containment name gap value =>
    exact keeps_bracketed appliesAt_position hin fun rest => position_none (by decide) (by decide)
  | tag name =>
    exact keeps_bracketed appliesAt_position hin fun rest => position_none (by decide) (by decide)

theorem appliesAt_attribute : AppliesAt '@' attributeRule := appliesAt_literal _ _ _

theorem attribute_mark : Rewrites attributeRule ['@'] [] :=
  rewrites_of_applies (by decide) fun _ => rfl

theorem attribute_inside {before after : List Char} (hb : Without '@' before)
    (ha : Without '@' after) :
    Rewrites attributeRule (bracketed (before ++ (['@'] ++ after)))
      (bracketed (before ++ ([] ++ after))) := by
  have hfront : Rewrites attributeRule ('[' :: before) ('[' :: before) :=
    appliesAt_attribute.keeps (hb.cons (by decide))
  have hback : Rewrites attributeRule (after ++ [']']) (after ++ [']']) :=
    appliesAt_attribute.keeps (ha.append (by decide))
  have hall := hfront.append (attribute_mark.append hback)
  simpa only [bracketed, List.append_assoc, List.cons_append] using hall

theorem attribute_predicate (p : Predicate) :
    Rewrites attributeRule (p.placed ['@']) (p.placed []) := by
  have hat : '@' ∈ marks := by decide
  cases p with
  | position number =>
    have hnumber := number.without (digit_of_mark hat)
    exact appliesAt_attribute.keeps (Without.append (by decide) (hnumber.append (by decide)))
  | presence before name after =>
    exact attribute_inside (before.without (gap_of_mark hat))
      ((name.without (word_of_mark hat)).append (after.without (gap_of_mark hat)))
  | equality before name value after =>
    have hright := (value.without (x := '@') (by decide)).append
      ((after.without (gap_of_mark hat)).cons (c := '\'') (by decide))
    exact attribute_inside (before.without (gap_of_mark hat)) ((name.without
      (word_of_mark hat)).append ((hright.cons (c := '\'') (by decide)).cons (by decide)))
  | containment name gap value =>
    have hright := (value.without (x := '@') (by decide)).append (b := ['\'', ')']) (by decide)
    have hgap := (gap.without (by decide)).append (hright.cons (c := '\'') (by decide))
    exact attribute_inside (by decide)
      ((name.without (word_of_mark hat)).append (hgap.cons (by decide)))
  | tag name =>
    have hname := (name.without (word_of_mark hat)).append (b := ['\'']) (by decide)
    have hin : Without '@' (nameCall ++ (name.chars ++ ['\''])) :=
      Without.append (by decide) hname
    exact appliesAt_attribute.keeps ((hin.append (by decide)).cons (by decide))

theorem no_call {letters front : List Char} (more : List Char) {x : Char}
    (hfront : Without '(' front) (hletters : Without x letters) (hparen : '(' ≠ x) (cs : List Char) :
    strip ('[' :: (letters ++ '(' :: more)) ('[' :: (front ++ x :: cs)) = none := by
  rw [strip, if_pos rfl]
  exact strip_without hfront hletters hparen cs

theorem no_call_presence (letters : List Char) {more : List Char} (hletters : Without ']' letters)
    (before : Run isGapChar) (name : Word isWordChar) (after : Run isGapChar) (rest : List Char) :
    strip ('[' :: (letters ++ '(' :: more))
      (bracketed ((Predicate.presence before name after).inside []) ++ rest) = none := by
  have hparen : '(' ∈ marks := by decide
  rw [bracketed_append]
  exact no_call more ((before.without (gap_of_mark hparen)).append ((name.without
    (word_of_mark hparen)).append (after.without (gap_of_mark hparen)))) hletters (by decide) rest

theorem no_call_equality (letters : List Char) {more : List Char} (hletters : Without '=' letters)
    (before : Run isGapChar) (name : Word isWordChar) (value : Run isValueChar)
    (after : Run isGapChar) (rest : List Char) :
    strip ('[' :: (letters ++ '(' :: more))
      (bracketed ((Predicate.equality before name value after).inside []) ++ rest) = none := by
  have hparen : '(' ∈ marks := by decide
  have hfront := (before.without (gap_of_mark hparen)).append (name.without (word_of_mark hparen))
  have hnone := no_call more hfront hletters (by decide)
    ('\'' :: (value.chars ++ '\'' :: (after.chars ++ ']' :: rest)))
  rw [bracketed_append]
  simpa only [Predicate.inside, List.nil_append, List.append_assoc, List.cons_append] using hnone

theorem contains_lead : "[contains(".toList = '[' :: containsCall := rfl

theorem name_lead : "[name()='".toList = '[' :: nameCall := rfl

theorem contains_none (h : strip "[contains(".toList cs = none) : containsRule cs = none := by
  rw [containsRule, h]
  rfl

theorem name_none (h : strip "[name()='".toList cs = none) : nameRule cs = none := by
  rw [nameRule, group, h]
  rfl

theorem quoted_value (gap : Run isBlank) {value : List Char} (hclose : Without ']' value)
    (hline : Without '\n' value) (rest : List Char) :
    quotedValue? (gap.chars ++ '\'' :: (value ++ ('\'' :: [')', ']'] ++ rest))) =
      some (value, rest) := by
  have hgap : ∀ tail, (gap.chars ++ '\'' :: tail).dropWhile isBlank = '\'' :: tail := by
    intro tail
    rw [List.dropWhile_append_of_pos gap.among_all, List.dropWhile_cons_of_neg (by decide)]
  rw [quotedValue?, hgap, strip, if_pos rfl]
  exact upTo_last ['\'', ')'] (by decide) hclose hline rest

theorem contains_parts_here {value : List Char} (h : quotedValue? cs = some (value, rest)) :
    containsParts? (',' :: cs) = some ([], value, rest) := by
  rw [containsParts?, if_pos rfl, h]

theorem contains_parts_later {c : Char} (hline : c ≠ '\n')
    (h : c = ',' → quotedValue? cs = none) :
    containsParts? (c :: cs) = (containsParts? cs).map fun p => (c :: p.1, p.2) := by
  have hhere : (if c = ',' then quotedValue? cs else none) = none := by
    split
    · exact h ‹_›
    · rfl
  rw [containsParts?, hhere, if_neg hline]

theorem contains_parts {name value : List Char} (hcomma : Without ',' name)
    (hline : Without '\n' name) (h : quotedValue? cs = some (value, rest)) :
    containsParts? (name ++ ',' :: cs) = some (name, value, rest) := by
  induction name with
  | nil => exact contains_parts_here h
  | cons c name ih =>
    have hc := hcomma c List.mem_cons_self
    rw [List.cons_append, contains_parts_later (hline c List.mem_cons_self) fun h => absurd h hc,
      ih hcomma.tail hline.tail]
    rfl

theorem contains_reads {call subject value : List Char}
    (h : ∀ rest, containsParts? (call ++ ']' :: rest) = some (subject, value, rest)) :
    Rewrites containsRule (bracketed (containsCall ++ call))
      (bracketed (subject ++ '*' :: '=' :: '\'' :: (value ++ ['\'']))) := by
  refine rewrites_of_applies (List.cons_ne_nil _ _) fun rest => ?_
  have hlength := length_bracketed (containsCall ++ call) rest
  have hcss : '[' :: subject ++ ['*', '=', '\''] ++ value ++ ['\'', ']'] =
      bracketed (subject ++ '*' :: '=' :: '\'' :: (value ++ ['\''])) := by simp [bracketed]
  rw [List.append_assoc] at hlength
  rw [bracketed_append, containsRule, contains_lead, strip, if_pos rfl, List.append_assoc,
    strip_append, Option.bind_eq_bind, Option.bind_some, h, Option.bind_eq_bind, Option.bind_some]
  exact congrArg some (Prod.ext hcss hlength)

theorem contains_applies (name : Word isWordChar) (gap : Run isBlank) (value : Run isValueChar) :
    Rewrites containsRule (bracketed ((Predicate.containment name gap value).inside []))
      (Predicate.containment name gap value).css := by
  refine contains_reads fun rest => ?_
  have hcomma := name.without (word_of_mark (x := ',') (by decide))
  have hparts := contains_parts hcomma (name.without (word_of_mark (by decide)))
    (quoted_value gap (value.without (by decide)) (value.without (by decide)) rest)
  simpa only [List.append_assoc, List.cons_append, List.nil_append] using hparts

theorem contains_predicate (p : Predicate) :
    Rewrites containsRule (p.placed []) p.compared := by
  have hin : Without '[' (p.inside []) := inside_without (by decide) (by decide) p
  cases p with
  | position number =>
    have hnumber := number.without (digit_of_mark (x := '[') (by decide))
    exact appliesAt_contains.keeps (Without.append (by decide) (hnumber.append (by decide)))
  | presence before name after =>
    exact keeps_bracketed appliesAt_contains hin fun rest => contains_none
      (no_call_presence "contains".toList (by decide) before name after rest)
  | equality before name value after =>
    exact keeps_bracketed appliesAt_contains hin fun rest => contains_none
      (no_call_equality "contains".toList (by decide) before name value after rest)
  | containment name gap value => exact contains_applies name gap value
  | tag name =>
    exact keeps_bracketed appliesAt_contains hin fun rest => contains_none rfl

theorem name_reads {name : List Char} (hclose : Without ']' name) (hline : Without '\n' name) :
    Rewrites nameRule (bracketed (nameCall ++ (name ++ ['\'']))) name := by
  refine rewrites_of_applies (List.cons_ne_nil _ _) fun rest => ?_
  have hname : upTo ['\'', ']'] (name ++ '\'' :: ']' :: rest) = some (name, rest) :=
    upTo_last ['\''] (by decide) hclose hline rest
  have hlength := length_bracketed (nameCall ++ (name ++ ['\''])) rest
  have hcall : nameCall ++ (name ++ ['\'']) ++ ']' :: rest =
      nameCall ++ (name ++ '\'' :: ']' :: rest) := by
    simp only [List.append_assoc, List.singleton_append]
  rw [bracketed_append, nameRule, group, name_lead, strip, if_pos rfl, hcall, strip_append, ← hcall,
    Option.bind_eq_bind, Option.bind_some, hname, Option.bind_eq_bind, Option.bind_some]
  exact congrArg some (Prod.ext rfl hlength)

theorem no_call_containment (name : Word isWordChar) (gap : Run isBlank) (value : Run isValueChar)
    (rest : List Char) :
    strip "[name()='".toList ((Predicate.containment name gap value).css ++ rest) = none := by
  have hletters : Without '*' "name".toList := by decide
  have hnone := no_call ")='".toList (name.without (word_of_mark (x := '(') (by decide))) hletters
    (by decide) ('=' :: '\'' :: (value.chars ++ '\'' :: ']' :: rest))
  have hlead : "[name()='".toList = '[' :: ("name".toList ++ '(' :: ")='".toList) := rfl
  rw [Predicate.css, bracketed_append, hlead]
  simpa only [List.append_assoc, List.cons_append, List.nil_append] using hnone

theorem name_predicate (p : Predicate) : Rewrites nameRule p.compared p.named := by
  have hin : Without '[' (p.inside []) := inside_without (by decide) (by decide) p
  have hopen : '[' ∈ marks := by decide
  cases p with
  | position number =>
    have hnumber := number.without (digit_of_mark hopen)
    exact appliesAt_name.keeps (Without.append (by decide) (hnumber.append (by decide)))
  | presence before name after =>
    exact keeps_bracketed appliesAt_name hin fun rest => name_none
      (no_call_presence "name".toList (by decide) before name after rest)
  | equality before name value after =>
    exact keeps_bracketed appliesAt_name hin fun rest => name_none
      (no_call_equality "name".toList (by decide) before name value after rest)
  | containment name gap value =>
    have hvalue := (value.without (x := '[') (by decide)).append (b := ['\'']) (by decide)
    have hright := ((hvalue.cons (c := '\'') (by decide)).cons (c := '=') (by decide)).cons
      (c := '*') (by decide)
    exact keeps_bracketed appliesAt_name ((name.without (word_of_mark hopen)).append hright)
      fun rest => name_none (no_call_containment name gap value rest)
  | tag name =>
    have hword : ∀ x ∈ [']', '\n'], Without x name.chars :=
      fun x hx => name.without (word_of_mark (by fin_cases hx <;> decide))
    exact name_reads (hword ']' (by decide)) (hword '\n' (by decide))

theorem tight_word (name : Word isWordChar) : Tight name.chars :=
  ⟨fun c hc => blank_of_word (name.among_all c (List.mem_of_mem_head? hc)),
    fun c hc => blank_of_word (name.among_all c (List.mem_of_mem_getLast? hc))⟩

theorem tight_quoted (name : Word isWordChar) (middle : List Char) :
    Tight (name.chars ++ (middle ++ ['\''])) := by
  obtain ⟨c, cs, hcs⟩ := List.exists_cons_of_ne_nil name.ne_nil
  have hc : isBlank c = false := blank_of_word (name.among_all c (hcs ▸ List.mem_cons_self))
  refine ⟨?_, ?_⟩
  · simpa [hcs] using hc
  · simpa [← List.append_assoc] using (by decide : isBlank '\'' = false)

theorem blank_of_gap (gap : Run isGapChar) : ∀ c ∈ gap.chars, isBlank c = true :=
  fun c hc => ((Bool.and_eq_true _ _).mp (gap.among_all c hc)).1

/-- A group up to the next bracket on its line loses its blank ends. -/
theorem predicate_group {body : List Char} (h : upTo [']'] cs = some (body, rest)) :
    replaceAll predicateRule ('[' :: cs) =
      bracketed (trim body) ++ replaceAll predicateRule rest := by
  have hcs : cs = body ++ ']' :: rest := upTo_eq_some h
  subst hcs
  have hlength := length_bracketed body rest
  have happlies : predicateRule (bracketed body ++ rest) =
      some (bracketed (trim body), (bracketed body).length) := by
    rw [bracketed_append, predicateRule, group, strip, if_pos rfl, strip, Option.bind_eq_bind,
      Option.bind_some, h, Option.bind_eq_bind, Option.bind_some]
    exact congrArg some (Prod.ext rfl hlength)
  rw [← bracketed_append]
  exact replaceAll_applies (List.cons_ne_nil _ _) happlies

theorem predicate_trims {body : List Char} (hclose : Without ']' body)
    (hline : Without '\n' body) :
    Rewrites predicateRule (bracketed body) (bracketed (trim body)) := by
  intro rest
  rw [bracketed_append]
  exact predicate_group (upTo_append [] hclose hline rest)

theorem predicate_applies (before after : Run isGapChar) {body : List Char} (htight : Tight body)
    (hbody : ∀ x ∈ [']', '\n'], Without x body) :
    Rewrites predicateRule (bracketed (before.chars ++ body ++ after.chars)) (bracketed body) := by
  have hinside : ∀ x ∈ [']', '\n'], Without x (before.chars ++ body ++ after.chars) := by
    intro x hx
    have hgap : isGapChar x = false := gap_of_mark (by fin_cases hx <;> decide)
    exact ((before.without hgap).append (hbody x hx)).append (after.without hgap)
  have htrims := predicate_trims (hinside ']' (by decide)) (hinside '\n' (by decide))
  rwa [trim_around (blank_of_gap before) (blank_of_gap after) htight] at htrims

theorem predicate_quoted (before after : Run isGapChar) (name : Word isWordChar)
    (value : Run isValueChar) {operator : List Char}
    (hoperator : ∀ x ∈ [']', '\n'], Without x operator) :
    Rewrites predicateRule
      (bracketed (before.chars ++ (name.chars ++ (operator ++ '\'' :: value.chars ++ ['\''])) ++
        after.chars))
      (bracketed (name.chars ++ (operator ++ '\'' :: value.chars ++ ['\'']))) := by
  refine predicate_applies before after (tight_quoted name _) fun x hx => ?_
  have hvalue : isValueChar x = false := by fin_cases hx <;> decide
  have hword : isWordChar x = false := word_of_mark (by fin_cases hx <;> decide)
  have hquote : '\'' ≠ x := by fin_cases hx <;> decide
  exact (name.without hword).append (((hoperator x hx).append
    ((value.without hvalue).cons hquote)).append ((without_nil x).cons hquote))

theorem predicate_predicate (p : Predicate) : Rewrites predicateRule p.named p.css := by
  have hopen : '[' ∈ marks := by decide
  cases p with
  | position number =>
    have hnumber := number.without (digit_of_mark hopen)
    exact appliesAt_predicate.keeps (Without.append (by decide) (hnumber.append (by decide)))
  | presence before name after =>
    have hname : ∀ x ∈ [']', '\n'], Without x name.chars :=
      fun x hx => name.without (word_of_mark (by fin_cases hx <;> decide))
    have hgroup := predicate_applies before after (tight_word name) hname
    simpa only [Predicate.named, Predicate.compared, Predicate.placed, Predicate.inside,
      Predicate.css, List.append_assoc, List.nil_append] using hgroup
  | equality before name value after =>
    have hoperator : ∀ x ∈ [']', '\n'], Without x ['='] := fun x hx => by fin_cases hx <;> decide
    have hgroup := predicate_quoted before after name value hoperator
    simpa only [Predicate.named, Predicate.compared, Predicate.placed, Predicate.inside,
      Predicate.css, List.append_assoc, List.cons_append, List.nil_append] using hgroup
  | containment name gap value =>
    have hoperator : ∀ x ∈ [']', '\n'], Without x ['*', '='] :=
      fun x hx => by fin_cases hx <;> decide
    have hgroup := predicate_quoted (Run.empty _) (Run.empty _) name value hoperator
    simpa only [Predicate.named, Predicate.compared, Predicate.css, Run.empty, List.append_nil,
      List.append_assoc, List.cons_append, List.nil_append] using hgroup
  | tag name => exact appliesAt_predicate.keeps (name.without (word_of_mark hopen))

/-- The translation of a path is its selector, with the space of a leading axis taken off. -/
theorem ofXPath_text (p : Path) : ofXPath (String.ofList p.text) = String.ofList (trim p.css) := by
  have hposition := stage_predicates appliesAt_position (by decide) position_predicate p
  have hattribute := stage_predicates appliesAt_attribute (by decide) attribute_predicate p
  have hcontains := stage_predicates appliesAt_contains (by decide) contains_predicate p
  have hname := stage_predicates appliesAt_name (by decide) name_predicate p
  have hpredicate := stage_predicates appliesAt_predicate (by decide) predicate_predicate p
  simp only [ofXPath, translate, stages, String.toList_ofList, List.foldl_cons, List.foldl_nil,
    stage_descendant, stage_child, hposition, hattribute, hcontains, hname, hpredicate]
  rfl

example : ofXPath "//ul[ @class='nav' ]/li[2]//a[contains(@href, 'docs')]" =
    "ul[class='nav'] > li:nth-of-type(2) a[href*='docs']" := by decide +kernel

end BrowserActions.Selector
