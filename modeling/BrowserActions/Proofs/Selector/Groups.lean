import Mathlib
import BrowserActions.Proofs.Selector.Translation

/-!
# Bracket groups

The last stage goes from group to group: from an opening bracket to the next closing one on the
same line. What an earlier group holds cannot open another. The stage only takes blank ends off,
so it leaves a text alone if no group in it has any.
-/
namespace BrowserActions.Selector

open Text

variable {cs body rest : List Char}

/-- The text behind a bracket that opens a group, up to the one that closes it, and the rest. -/
def opened? (c : Char) (cs : List Char) : Option (List Char × List Char) :=
  if c = '[' then upTo [']'] cs else none

theorem opened_eq_some {c : Char} (h : opened? c cs = some (body, rest)) :
    c = '[' ∧ upTo [']'] cs = some (body, rest) := by
  rw [opened?] at h
  split at h
  · exact ⟨‹_›, h⟩
  · cases h

theorem opened_eq_none {c : Char} : opened? c cs = none ↔ (c = '[' → upTo [']'] cs = none) := by
  rw [opened?]
  split
  next hc => exact ⟨fun h _ => h, fun h => h hc⟩
  next hc => exact ⟨fun _ h => absurd h hc, fun _ => rfl⟩

theorem length_opened {c : Char} (h : opened? c cs = some (body, rest)) :
    cs.length = body.length + 1 + rest.length := by
  rw [upTo_eq_some (opened_eq_some h).2]
  simp only [List.length_append, List.length_cons, List.length_nil]
  omega

/-- What stands in the groups, from the left. -/
def groups : List Char → List (List Char)
  | [] => []
  | c :: cs =>
    match h : opened? c cs with
    | some (body, rest) =>
      have := length_opened h
      body :: groups rest
    | none => groups cs
termination_by cs => cs.length

theorem groups_opened {c : Char} (h : opened? c cs = some (body, rest)) :
    groups (c :: cs) = body :: groups rest := by
  rw [groups]
  split
  · next heq =>
    rw [h] at heq
    cases heq
    rfl
  · next heq =>
    rw [h] at heq
    cases heq

theorem groups_skipped {c : Char} (h : opened? c cs = none) : groups (c :: cs) = groups cs := by
  rw [groups]
  split
  · next heq =>
    rw [h] at heq
    cases heq
  · rfl

theorem groups_induction {P : List Char → Prop} (nil : P [])
    (group : ∀ cs body rest, upTo [']'] cs = some (body, rest) → P rest → P ('[' :: cs))
    (skip : ∀ c cs, opened? c cs = none → P cs → P (c :: cs)) (cs : List Char) : P cs := by
  fun_induction groups cs with
  | case1 => exact nil
  | case2 c cs body rest h _ ih =>
    obtain ⟨rfl, hread⟩ := opened_eq_some h
    exact group cs body rest hread ih
  | case3 c cs h ih => exact skip c cs h ih

theorem predicate_skip {c : Char} (h : opened? c cs = none) :
    replaceAll predicateRule (c :: cs) = c :: replaceAll predicateRule cs := by
  refine replaceAll_cons_none ?_
  by_cases hc : c = '['
  · subst hc
    rw [opened?, if_pos rfl] at h
    rw [predicateRule, group, strip, if_pos rfl, strip, Option.bind_eq_bind, Option.bind_some, h]
    rfl
  · exact appliesAt_predicate c cs hc

theorem length_predicate (cs : List Char) : (replaceAll predicateRule cs).length ≤ cs.length := by
  induction cs using groups_induction with
  | nil => exact Nat.le_refl _
  | group cs body rest h ih =>
    have htrim := (trim_within body).length_le
    rw [predicate_group h, upTo_eq_some h]
    simp only [bracketed, List.length_append, List.length_cons, List.length_nil]
    omega
  | skip c cs h ih =>
    rw [predicate_skip h]
    exact Nat.succ_le_succ ih

theorem predicate_eq_iff (cs : List Char) :
    replaceAll predicateRule cs = cs ↔ ∀ body ∈ groups cs, Tight body := by
  induction cs using groups_induction with
  | nil => exact iff_of_true rfl (by rw [groups]; exact List.forall_mem_nil _)
  | group cs body rest h ih =>
    have htrim := (trim_within body).length_le
    have hrest := length_predicate rest
    rw [groups_opened (c := '[') h, List.forall_mem_cons, ← trim_eq_iff, ← ih, predicate_group h,
      upTo_eq_some h, bracketed_append, List.cons.injEq]
    refine ⟨fun heq => ?_, fun heq => ⟨rfl, by rw [heq.1, heq.2]; rfl⟩⟩
    have hlength := congrArg List.length heq.2
    simp only [List.length_append, List.length_cons, List.length_nil] at hlength
    obtain ⟨hbody, hmore⟩ := List.append_inj heq.2 (by omega)
    exact ⟨hbody, (List.cons.inj hmore).2⟩
  | skip c cs h ih =>
    rw [predicate_skip h, groups_skipped h, List.cons.injEq, ih]
    exact and_iff_right rfl

end BrowserActions.Selector
