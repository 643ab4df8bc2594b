import Mathlib
import BrowserActions.Proofs.Selector.Composition
import BrowserActions.Proofs.Selector.Groups
import BrowserActions.Proofs.Selector.Marking

/-!
# Quoted values

The stages change a text wherever it stands, also between the quotes of an attribute test. A value
is kept if it holds nothing that a stage changes: no slash, no mark of an attribute, no position,
and no bracket group with a blank end. Every other value is damaged.
-/
namespace BrowserActions.Selector

open Text

def isQuotableChar (c : Char) : Bool := decide (c ∉ ['\'', '\n'])

def quoted (value : List Char) : List Char := '\'' :: (value ++ ['\''])

inductive Comparison where
  | whole
  | part

namespace Comparison

def text (name value : List Char) : Comparison → List Char
  | .whole => bracketed ('@' :: (name ++ '=' :: quoted value))
  | .part => bracketed (containsCall ++ '@' :: (name ++ ',' :: (quoted value ++ [')'])))

def operator : Comparison → List Char
  | .whole => ['=']
  | .part => ['*', '=']

def css (name value : List Char) (o : Comparison) : List Char :=
  bracketed (name ++ (o.operator ++ quoted value))

end Comparison

/-- The value holds nothing that a stage changes. In the brackets of the test the first group begins
in front of the value, and the last may end behind it. -/
structure Kept (value : List Char) : Prop extends Plain value where
  ends : ∀ body ∈ groups (bracketed (quoted value)), Tight body

variable {rule : Rule} {cs out value : List Char} {x : Char}

theorem two_quotes (a b rest : List Char) :
    2 ≤ (a ++ '\'' :: (b ++ '\'' :: rest)).count '\'' := by
  rw [List.count_append, List.count_cons_self, List.count_append, List.count_cons_self]
  omega

theorem contains_quotes {n : Nat} (h : containsRule cs = some (out, n)) : 2 ≤ cs.count '\'' := by
  obtain ⟨subject, gap, value, rest, rfl, -, -⟩ := contains_eq_some h
  have hsplit :
      '[' :: containsCall ++ (arguments subject gap value ++ ('\'' :: [')', ']'] ++ rest)) =
        '[' :: containsCall ++ (subject ++ ',' :: gap.chars) ++
          '\'' :: (value ++ '\'' :: ([')', ']'] ++ rest)) := by simp [arguments]
  rw [hsplit]
  exact two_quotes _ _ _

theorem name_quotes {n : Nat} (h : nameRule cs = some (out, n)) : 2 ≤ cs.count '\'' := by
  obtain ⟨body, rest, rfl, -, -⟩ := group_eq_some h
  exact two_quotes "[name()=".toList body (']' :: rest)

theorem keeps_one_quote (h : ∀ cs out n, rule cs = some (out, n) → 2 ≤ cs.count '\'')
    (hcs : cs.count '\'' ≤ 1) : replaceAll rule cs = cs := by
  refine replaceAll_none fun s hs => ?_
  rw [Option.eq_none_iff_forall_ne_some]
  rintro ⟨out, n⟩ happlies
  have hquotes := h s out n happlies
  have hcount := hs.sublist.count_le '\''
  omega

theorem test_none (hx : x ∈ ['=', '*']) (attr : Word isWordChar) (cs : List Char) :
    containsRule ('[' :: (attr.chars ++ x :: cs)) = none ∧
      nameRule ('[' :: (attr.chars ++ x :: cs)) = none := by
  have hfront : Without '(' attr.chars := attr.without (word_of_mark (by decide))
  have hcontains : Without x "contains".toList := by fin_cases hx <;> decide
  have hname : Without x "name".toList := by fin_cases hx <;> decide
  have hparen : '(' ≠ x := by fin_cases hx <;> decide
  exact ⟨contains_none (no_call [] hfront hcontains hparen cs),
    name_none (no_call ")='".toList hfront hname hparen cs)⟩

theorem Comparison.no_call (o : Comparison) (attr : Word isWordChar) (cs : List Char) :
    containsRule ('[' :: (attr.chars ++ (o.operator ++ cs))) = none ∧
      nameRule ('[' :: (attr.chars ++ (o.operator ++ cs))) = none := by
  cases o with
  | whole => exact test_none (by decide) attr cs
  | part => exact test_none (by decide) attr ('=' :: cs)

theorem Comparison.keeps_css (o : Comparison) (attr : Word isWordChar) (hquote : Without '\'' value)
    (hbracket : AppliesAt '[' rule)
    (hquotes : ∀ cs out n, rule cs = some (out, n) → 2 ≤ cs.count '\'')
    (hnone : ∀ cs, rule ('[' :: (attr.chars ++ (o.operator ++ cs))) = none) :
    replaceAll rule (o.css attr.chars value) = o.css attr.chars value := by
  have hopen : Without '[' attr.chars := attr.without (word_of_mark (by decide))
  have hoperator : Without '[' (o.operator ++ ['\'']) := by cases o <;> decide
  have hfront : Rewrites rule ('[' :: (attr.chars ++ (o.operator ++ ['\''])))
      ('[' :: (attr.chars ++ (o.operator ++ ['\'']))) := by
    refine (hbracket.keeps (hopen.append hoperator)).cons fun rest => ?_
    simpa only [List.append_assoc] using hnone (['\''] ++ rest)
  have hback : replaceAll rule (value ++ ['\'', ']']) = value ++ ['\'', ']'] := by
    refine keeps_one_quote hquotes ?_
    rw [List.count_append, List.count_eq_zero.mpr (without_iff.mpr hquote)]
    decide
  have hcss : o.css attr.chars value =
      '[' :: (attr.chars ++ (o.operator ++ ['\''])) ++ (value ++ ['\'', ']']) := by
    simp [css, bracketed, quoted]
  rw [hcss, hfront, hback]

theorem unmarked_attribute (attr : Word isWordChar) : unmarked attr.chars = attr.chars := by
  have hmark : Without '@' attr.chars := attr.without (word_of_mark (by decide))
  exact List.filter_eq_self.mpr fun c hc => bne_iff_ne.mpr (hmark c hc)

theorem reduced_test (front behind close : List Char) (attr : Word isWordChar)
    (hfront : ∀ x ∈ ['/', '['], Without x front) (hbehind : ∀ x ∈ ['/', '['], Without x behind)
    (hclose : ∀ x ∈ ['/', '[', '@'], Without x close)
    (hnone : ∀ rest, positionRule ('[' :: (front ++ rest)) = none) (value : List Char) :
    reduced ('[' :: (front ++ (attr.chars ++ behind)) ++ (value ++ '\'' :: close)) =
      '[' :: (unmarked front ++ (attr.chars ++ unmarked behind)) ++
        (reduced value ++ '\'' :: close) := by
  have hlead : ∀ x ∈ ['/', '['], Without x (front ++ (attr.chars ++ behind)) := by
    intro x hx
    have hattr : Without x attr.chars := attr.without (word_of_mark (by fin_cases hx <;> decide))
    exact (hfront x hx).append (hattr.append (hbehind x hx))
  have hslash : Without '/' ('[' :: (front ++ (attr.chars ++ behind))) :=
    (hlead '/' (by decide)).cons (by decide)
  have hposition := (appliesAt_position.keeps (hlead '[' (by decide))).cons fun rest => by
    rw [List.append_assoc]
    exact hnone _
  have hmarks : unmarked ('[' :: (front ++ (attr.chars ++ behind))) =
      '[' :: (unmarked front ++ (attr.chars ++ unmarked behind)) := by
    rw [← unmarked_attribute attr]
    simp [unmarked]
  have hpasses : Passes marking ('[' :: (front ++ (attr.chars ++ behind)))
      ('[' :: (unmarked front ++ (attr.chars ++ unmarked behind))) :=
    .stage (appliesAt_descendant.keeps hslash) <| .stage (appliesAt_child.keeps hslash) <|
      .stage hposition <| .stage (hmarks ▸ attribute_unmarked _) (.done _)
  have hback : reduced close = close := (keeps_marking hclose).all
  rw [reduced_append hpasses, reduced_quote, hback]

theorem reduced_whole (attr : Word isWordChar) (value : List Char) :
    reduced (Comparison.whole.text attr.chars value) =
      Comparison.whole.css attr.chars (reduced value) := by
  have hreduced := reduced_test ['@'] ['=', '\''] [']'] attr
    (fun x hx => by fin_cases hx <;> decide) (fun x hx => by fin_cases hx <;> decide)
    (fun x hx => by fin_cases hx <;> decide)
    (fun rest => position_none (by decide) (by decide)) value
  simpa [Comparison.text, Comparison.css, Comparison.operator, bracketed, quoted, unmarked]
    using hreduced

theorem reduced_part (attr : Word isWordChar) (value : List Char) :
    reduced (Comparison.part.text attr.chars value) = bracketed (containsCall ++
      (attr.chars ++ ',' :: ('\'' :: (reduced value ++ ['\'', ')'])))) := by
  have hcall : unmarked (containsCall ++ ['@']) = containsCall := by decide
  have hcomma : unmarked [',', '\''] = [',', '\''] := by decide
  have hreduced := reduced_test (containsCall ++ ['@']) [',', '\''] [')', ']'] attr
    (fun x hx => by fin_cases hx <;> decide) (fun x hx => by fin_cases hx <;> decide)
    (fun x hx => by fin_cases hx <;> decide)
    (fun rest => position_none (by decide) (by decide)) value
  rw [hcall, hcomma] at hreduced
  simpa [Comparison.text, bracketed, quoted] using hreduced

theorem call_reads (attr : Word isWordChar) (hquote : Without '\'' value)
    (hline : Without '\n' value) :
    replaceAll containsRule (bracketed (containsCall ++
        (attr.chars ++ ',' :: ('\'' :: (value ++ ['\'', ')']))))) =
      Comparison.part.css attr.chars value := by
  refine Rewrites.all (contains_reads fun rest => ?_)
  have hvalue : quotedValue? ('\'' :: (value ++ ('\'' :: [')', ']'] ++ rest))) =
      some (value, rest) := by
    rw [quotedValue?, List.dropWhile_cons_of_neg (by decide), strip, if_pos rfl]
    exact upTo_append [')', ']'] hquote hline rest
  have hparts := contains_parts (attr.without (word_of_mark (by decide)))
    (attr.without (word_of_mark (by decide))) hvalue
  simpa using hparts

/-- All stages but the last turn a test into the one of a selector, with its value reduced. -/
theorem staged_test (o : Comparison) (attr : Word isWordChar) (value : Run isQuotableChar) :
    staged (o.text attr.chars value.chars) =
      replaceAll predicateRule (o.css attr.chars (reduced value.chars)) := by
  have hquote : Without '\'' (reduced value.chars) :=
    reduced_without (by decide) (value.without (by decide))
  have hline : Without '\n' (reduced value.chars) :=
    reduced_without (by decide) (value.without (by decide))
  have hcontains := o.keeps_css attr hquote appliesAt_contains (fun _ _ _ => contains_quotes)
    fun cs => (o.no_call attr cs).1
  have hname := o.keeps_css attr hquote appliesAt_name (fun _ _ _ => name_quotes)
    fun cs => (o.no_call attr cs).2
  have hcalls : replaceAll containsRule (reduced (o.text attr.chars value.chars)) =
      o.css attr.chars (reduced value.chars) := by
    cases o with
    | whole => rw [reduced_whole, hcontains]
    | part => rw [reduced_part, call_reads attr hquote hline]
  rw [staged, stages_split, List.foldl_append, ← reduced]
  simp only [calling, List.foldl_cons, List.foldl_nil]
  rw [hcalls, hname]

theorem groups_lead {lead : List Char} (hclose : Without ']' lead) (hline : Without '\n' lead)
    (hvalue : Without '\n' value) :
    ∃ front more, groups (bracketed (lead ++ quoted value)) = (lead ++ '\'' :: front) :: more ∧
      groups (bracketed (quoted value)) = ('\'' :: front) :: more := by
  have hsome : (upTo [']'] (value ++ ['\''] ++ [']'])).isSome = true :=
    upTo_isSome (List.cons_ne_nil _ _) (hvalue.append (by decide))
  obtain ⟨⟨front, rest⟩, hread⟩ := Option.isSome_iff_exists.mp hsome
  have hopened : ∀ {lead : List Char}, Without ']' lead → Without '\n' lead →
      groups (bracketed (lead ++ quoted value)) = (lead ++ '\'' :: front) :: groups rest := by
    intro lead hclose hline
    have hfront := upTo_front [] (hclose.append (b := ['\'']) (by decide))
      (hline.append (by decide)) (value ++ ['\''] ++ [']'])
    rw [hread, Option.map_some] at hfront
    refine groups_opened (c := '[') ?_
    simpa [opened?, quoted] using hfront
  exact ⟨front, groups rest, hopened hclose hline, hopened (without_nil _) (without_nil _)⟩

theorem tight_lead {lead front : List Char} (h : Begins lead) :
    Tight (lead ++ '\'' :: front) ↔ Tight ('\'' :: front) := by
  have hhead : ∀ c ∈ (lead ++ '\'' :: front).head?, isBlank c = false := by
    obtain ⟨d, hd, hblank⟩ := h.append ('\'' :: front)
    intro c hc
    rwa [Option.mem_unique hc hd]
  have hquote : ∀ c ∈ ('\'' :: front).head?, isBlank c = false := by
    intro c hc
    rw [← Option.some.inj hc]
    decide
  have hlast : (lead ++ '\'' :: front).getLast? = ('\'' :: front).getLast? :=
    List.getLast?_append_of_ne_nil _ (List.cons_ne_nil _ _)
  rw [Tight, Tight, hlast, and_iff_right hhead, and_iff_right hquote]

theorem begins_attribute (attr : Word isWordChar) : Begins attr.chars := by
  obtain ⟨c, cs, hcs⟩ := List.exists_cons_of_ne_nil attr.ne_nil
  exact ⟨c, by rw [hcs]; rfl, blank_of_word (attr.among_all c (hcs ▸ List.mem_cons_self))⟩

theorem tight_groups (o : Comparison) (attr : Word isWordChar) (hline : Without '\n' value) :
    (∀ body ∈ groups (o.css attr.chars value), Tight body) ↔
      ∀ body ∈ groups (bracketed (quoted value)), Tight body := by
  have hlead : ∀ x ∈ [']', '\n'], Without x (attr.chars ++ o.operator) := by
    intro x hx
    have hattr : Without x attr.chars := attr.without (word_of_mark (by fin_cases hx <;> decide))
    exact hattr.append (by cases o <;> fin_cases hx <;> decide)
  obtain ⟨front, more, htest, hvalue⟩ :=
    groups_lead (hlead ']' (by decide)) (hlead '\n' (by decide)) hline
  rw [Comparison.css, ← List.append_assoc, htest, hvalue, List.forall_mem_cons,
    List.forall_mem_cons, tight_lead ((begins_attribute attr).append _)]

theorem count_css (o : Comparison) (attr value : List Char) (x : Char) :
    (o.css attr value).count x = (o.css attr []).count x + value.count x := by
  simp only [Comparison.css, bracketed, quoted, List.count_append, List.count_cons, List.count_nil]
  omega

theorem translate_test (o : Comparison) (tag : Word isNameChar) (attr : Word isWordChar)
    (value : Run isQuotableChar) :
    translate (['/', '/'] ++ (tag.chars ++ o.text attr.chars value.chars)) =
      trim (tag.chars ++ replaceAll predicateRule (o.css attr.chars (reduced value.chars))) := by
  have hstaged := staged_append (axis_passes .descendant tag) (o.text attr.chars value.chars)
  have hspace : ∀ c ∈ Axis.css .descendant, isBlank c = true := by
    intro c hc
    rw [List.mem_singleton.mp hc]
    decide
  rw [staged_test, List.append_assoc, List.append_assoc] at hstaged
  change trim (staged (Axis.text .descendant ++ _)) = _
  rw [hstaged, trim, trimStart_blank_append hspace, ← trim]

theorem plain_of_translated (o : Comparison) (tag attr : List Char)
    (h : trim (tag ++ replaceAll predicateRule (o.css attr (reduced value))) =
      tag ++ o.css attr value) : Plain value := by
  refine plain_of_count fun x hx => ?_
  have hblank : isBlank x = false := by fin_cases hx <;> decide
  have hgroups := (frugal_predicate hblank).replaceAll (o.css attr (reduced value))
  have hcount := congrArg (List.count x) h
  rw [count_trim hblank, List.count_append, List.count_append, count_css o attr value] at hcount
  rw [count_css o attr (reduced value)] at hgroups
  omega

theorem groups_of_translated {tag css : List Char}
    (h : trim (tag ++ replaceAll predicateRule css) = tag ++ css) :
    replaceAll predicateRule css = css := by
  have htrim := trim_within (tag ++ replaceAll predicateRule css)
  have hshort := length_predicate css
  have hlength : (trim (tag ++ replaceAll predicateRule css)).length =
      (tag ++ replaceAll predicateRule css).length := by
    refine Nat.le_antisymm htrim.length_le ?_
    rw [h, List.length_append, List.length_append]
    exact Nat.add_le_add_left hshort _
  rw [htrim.eq_of_length hlength] at h
  exact List.append_cancel_left h

/-- The translation of an attribute test keeps the value as it is for the kept values, and for no
others. -/
theorem value_kept_iff (o : Comparison) (tag : Word isNameChar) (attr : Word isWordChar)
    (value : Run isQuotableChar) :
    ofXPath (String.ofList (['/', '/'] ++ (tag.chars ++ o.text attr.chars value.chars))) =
        String.ofList (tag.chars ++ o.css attr.chars value.chars) ↔
      Kept value.chars := by
  have hgroups := predicate_eq_iff (o.css attr.chars value.chars)
  rw [tight_groups o attr (value.without (by decide))] at hgroups
  rw [ofXPath, String.toList_ofList, translate_test]
  constructor
  · intro h
    have htranslated := String.ofList_injective h
    have hplain := plain_of_translated o tag.chars attr.chars htranslated
    rw [hplain.reduced_eq] at htranslated
    exact ⟨hplain, hgroups.mp (groups_of_translated htranslated)⟩
  · intro h
    have hfirm : Firm (tag.chars ++ o.css attr.chars value.chars) := by
      rw [Comparison.css, bracketed, ← List.cons_append, ← List.append_assoc]
      exact firm_concat _ (by decide)
    have hbegins := (begins_name tag).append (o.css attr.chars value.chars)
    rw [h.reduced_eq, hgroups.mpr h.ends, hbegins.trim_eq, trimEnd_of_last hfirm]

/-- Slashes, marks and positions in quotes are translated as if they stood in the path. -/
theorem slash_not_kept :
    ofXPath "//a[@href='/login']" = "a[href=' > login']" ∧
      ofXPath "//a[@href='/login']" ≠ "a[href='/login']" ∧
      ofXPath "//a[@title='user@host']" ≠ "a[title='user@host']" ∧
      ofXPath "//a[contains(@title,'x[1]')]" ≠ "a[title*='x[1]']" := by
  refine ⟨?_, ?_, ?_, ?_⟩ <;> decide +kernel

/-- Brackets are kept if no blank character stands at the end of a group. -/
example : ofXPath "//a[contains(@title,'[x] y')]" = "a[title*='[x] y']" := by decide +kernel

end BrowserActions.Selector
