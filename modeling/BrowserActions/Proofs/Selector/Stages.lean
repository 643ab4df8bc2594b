import Mathlib
import BrowserActions.Proofs.Selector.Path

/-!
# Stage by stage

Each stage of the translation changes one kind of part of a path and leaves the others alone, so
what stands between two stages is again rendered from the texts of axes and predicates. No rule can
apply in a name, and the rules for brackets can only apply where a predicate begins.
-/
namespace BrowserActions.Selector

open Text

variable {rule : Rule} {axis axis' : Axis → List Char}
  {predicate predicate' : Predicate → List Char}

theorem appliesAt_literal (x : Char) (what out : List Char) :
    AppliesAt x (literal (x :: what) out) := by
  intro c cs hc
  rw [literal, strip, if_neg hc.symm]
  rfl

theorem appliesAt_bracket {f : List Char → List Char → Option (List Char × Nat)} (lead : List Char)
    (h : ∀ cs, rule cs = (strip ('[' :: lead) cs).bind (f cs)) : AppliesAt '[' rule := by
  intro c cs hc
  rw [h, strip, if_neg hc.symm]
  rfl

theorem appliesAt_position : AppliesAt '[' positionRule := appliesAt_bracket [] fun _ => rfl

theorem appliesAt_contains : AppliesAt '[' containsRule :=
  appliesAt_bracket "contains(".toList fun _ => rfl

theorem appliesAt_name : AppliesAt '[' nameRule := appliesAt_bracket "name()='".toList fun _ => rfl

theorem appliesAt_predicate : AppliesAt '[' predicateRule := appliesAt_bracket [] fun _ => rfl

theorem keeps_name {x : Char} (h : AppliesAt x rule) (hx : x ∈ ['/', '@', '[', ']'])
    (name : Word isNameChar) : Rewrites rule name.chars name.chars := by
  refine h.keeps (name.without ?_)
  fin_cases hx <;> decide

theorem rewrites_step (hname : ∀ name : Word isNameChar, Rewrites rule name.chars name.chars)
    (hpredicate : ∀ p, Rewrites rule (predicate p) (predicate' p)) (s : Step) :
    Rewrites rule (s.render predicate) (s.render predicate') :=
  (hname s.name).append (rewrites_flatMap fun p _ => hpredicate p)

theorem rewrites_path (hname : ∀ name : Word isNameChar, Rewrites rule name.chars name.chars)
    (haxis : ∀ a (name : Word isNameChar),
      Rewrites rule (axis a ++ name.chars) (axis' a ++ name.chars))
    (hpredicate : ∀ p, Rewrites rule (predicate p) (predicate' p)) (p : Path) :
    replaceAll rule (p.render axis predicate) = p.render axis' predicate' := by
  have hstep : ∀ a s, Rewrites rule (axis a ++ Step.render predicate s)
      (axis' a ++ Step.render predicate' s) := by
    intro a s
    rw [Step.render, Step.render, ← List.append_assoc, ← List.append_assoc]
    exact (haxis a s.name).append (rewrites_flatMap fun p _ => hpredicate p)
  have hmore : Rewrites rule (p.more.flatMap fun s => axis s.1 ++ s.2.render predicate)
      (p.more.flatMap fun s => axis' s.1 ++ s.2.render predicate') :=
    rewrites_flatMap fun s _ => hstep s.1 s.2
  refine Rewrites.all ?_
  rw [Path.render, Path.render]
  cases p.leading with
  | none => exact (rewrites_step hname hpredicate p.first).append hmore
  | some a =>
    rw [← List.append_assoc, ← List.append_assoc]
    exact (hstep a p.first).append hmore

namespace Predicate

def placed (mark : List Char) : Predicate → List Char
  | .position number => (Predicate.position number).css
  | p => bracketed (p.inside mark)

def compared : Predicate → List Char
  | .containment name gap value => (Predicate.containment name gap value).css
  | p => p.placed []

def named : Predicate → List Char
  | .tag name => (Predicate.tag name).css
  | p => p.compared

end Predicate

def Axis.spaced : Axis → List Char
  | .child => ['/']
  | .descendant => [' ']

variable {x : Char} {mark cs : List Char}

theorem inside_without (hx : x ∈ ['/', '[', ']']) (hmark : Without x mark) (p : Predicate) :
    Without x (p.inside mark) := by
  have hmarks : x ∈ marks := by fin_cases hx <;> decide
  have hvalue : isValueChar x = false := by fin_cases hx <;> decide
  have hblank : isBlank x = false := by fin_cases hx <;> decide
  have hquote : '\'' ≠ x := by fin_cases hx <;> decide
  cases p with
  | position number => exact number.without (digit_of_mark hmarks)
  | presence before name after =>
    have hname := (name.without (word_of_mark hmarks)).append (after.without (gap_of_mark hmarks))
    exact (before.without (gap_of_mark hmarks)).append (hmark.append hname)
  | equality before name value after =>
    have heq : '=' ≠ x := by fin_cases hx <;> decide
    have hright := (value.without hvalue).append ((after.without (gap_of_mark hmarks)).cons hquote)
    have hname := (name.without (word_of_mark hmarks)).append ((hright.cons hquote).cons heq)
    exact (before.without (gap_of_mark hmarks)).append (hmark.append hname)
  | containment name gap value =>
    have hcomma : ',' ≠ x := by fin_cases hx <;> decide
    have hlead : Without x containsCall := by fin_cases hx <;> decide
    have hend : Without x ['\'', ')'] := by fin_cases hx <;> decide
    have hright := (gap.without hblank).append (((value.without hvalue).append hend).cons hquote)
    have hname := (name.without (word_of_mark hmarks)).append (hright.cons hcomma)
    exact hlead.append (hmark.append hname)
  | tag name =>
    have hlead : Without x nameCall := by fin_cases hx <;> decide
    exact hlead.append ((name.without (word_of_mark hmarks)).append ((without_nil x).cons hquote))

theorem bracketed_append (inside rest : List Char) :
    bracketed inside ++ rest = '[' :: (inside ++ ']' :: rest) := by
  simp [bracketed]

theorem keeps_bracketed (h : AppliesAt '[' rule) (hcs : Without '[' cs)
    (hnone : ∀ rest, rule (bracketed cs ++ rest) = none) :
    Rewrites rule (bracketed cs) (bracketed cs) := by
  have htail : Rewrites rule (cs ++ [']']) (cs ++ [']']) := h.keeps (hcs.append (by decide))
  exact htail.cons hnone

theorem keeps_text (h : AppliesAt '/' rule) (p : Predicate) : Rewrites rule p.text p.text :=
  h.keeps (((inside_without (by decide) (by decide) p).append (by decide)).cons (by decide))

theorem appliesAt_descendant : AppliesAt '/' descendantRule := appliesAt_literal _ _ _

theorem appliesAt_child : AppliesAt '/' childRule := appliesAt_literal _ _ _

theorem descendant_axis (a : Axis) (name : Word isNameChar) :
    Rewrites descendantRule (a.text ++ name.chars) (a.spaced ++ name.chars) := by
  have hname := keeps_name appliesAt_descendant (by decide) name
  cases a with
  | descendant =>
    have hslashes : Rewrites descendantRule ['/', '/'] [' '] :=
      rewrites_of_applies (by decide) fun _ => rfl
    exact hslashes.append hname
  | child =>
    refine hname.cons fun rest => ?_
    obtain ⟨c, cs, hcs⟩ := List.exists_cons_of_ne_nil name.ne_nil
    have hc : c ≠ '/' := name.without (by decide) c (hcs ▸ List.mem_cons_self)
    rw [hcs, descendantRule, literal, strip, if_pos rfl, List.cons_append, strip, if_neg hc.symm]
    rfl

theorem stage_descendant (p : Path) :
    replaceAll descendantRule p.text = p.render Axis.spaced Predicate.text :=
  rewrites_path (keeps_name appliesAt_descendant (by decide)) descendant_axis
    (keeps_text appliesAt_descendant) p

theorem child_axis (a : Axis) : Rewrites childRule a.spaced a.css := by
  cases a with
  | child => exact rewrites_of_applies (by decide) fun _ => rfl
  | descendant => exact appliesAt_child.keeps (by decide)

theorem stage_child (p : Path) :
    replaceAll childRule (p.render Axis.spaced Predicate.text) =
      p.render Axis.css Predicate.text := by
  have hname := keeps_name appliesAt_child (by decide)
  exact rewrites_path hname (fun a name => (child_axis a).append (hname name))
    (keeps_text appliesAt_child) p

/-- A stage behind the first two only changes predicates. -/
theorem stage_predicates (h : AppliesAt x rule) (hx : x ∈ ['@', '['])
    (hpredicate : ∀ p, Rewrites rule (predicate p) (predicate' p)) (p : Path) :
    replaceAll rule (p.render Axis.css predicate) = p.render Axis.css predicate' := by
  have hname := keeps_name h (by fin_cases hx <;> decide)
  have haxis : ∀ a : Axis, Without x a.css := by
    intro a
    cases a <;> fin_cases hx <;> decide
  exact rewrites_path hname (fun a name => (h.keeps (haxis a)).append (hname name)) hpredicate p

end BrowserActions.Selector
