import Mathlib
import BrowserActions.Proofs.Selector.Confined
import BrowserActions.Proofs.Text.Spelled

/-!
# The stages in front of the calls

These stages read certain texts only: slashes, marks of attributes and positions. So they leave
plain texts alone, they take something off every other text, and none of them reads past a quote.
-/
namespace BrowserActions.Selector

open Text

variable {cs out : List Char} {x : Char}

theorem spelled_literal (what out : List Char) :
    Spelled (fun read written => read = what ∧ written = out) (literal what out) := by
  intro cs written n
  rw [literal, Option.map_eq_some_iff]
  constructor
  · rintro ⟨rest, hrest, heq⟩
    cases heq
    exact ⟨what, ⟨rfl, rfl⟩, ⟨rest, (strip_eq_some.mp hrest).symm⟩, rfl⟩
  · rintro ⟨read, ⟨rfl, rfl⟩, ⟨rest, rfl⟩, rfl⟩
    exact ⟨rest, strip_append _ _, rfl⟩

theorem spelled_position :
    Spelled (fun read written => ∃ number : Word isDecimalDigit,
      read = bracketed number.chars ∧ written = positionCall ++ (number.chars ++ [')']))
      positionRule := by
  intro cs written n
  constructor
  · intro h
    obtain ⟨inside, hopen, hrest⟩ := Option.bind_eq_some_iff.mp h
    obtain ⟨rest, hclose, heq⟩ := Option.bind_eq_some_iff.mp hrest
    have hne : inside.takeWhile isDecimalDigit ≠ [] := by
      intro hempty
      simp [hempty] at heq
    let number : Word isDecimalDigit :=
      ⟨⟨inside.takeWhile isDecimalDigit, fun c hc => List.mem_takeWhile_imp hc⟩, hne⟩
    have hcs : cs = bracketed number.chars ++ rest := by
      have hsplit : inside = number.chars ++ ']' :: rest := by
        have hdrop := strip_eq_some.mp hclose
        rw [List.singleton_append] at hdrop
        rw [← hdrop]
        exact (List.prefix_iff_eq_append.mp (List.takeWhile_prefix _)).symm
      rw [strip_eq_some.mp hopen, hsplit, bracketed_append, List.singleton_append]
    have happlies := position_reads number rest
    rw [← hcs, h] at happlies
    cases happlies
    exact ⟨_, ⟨number, rfl, rfl⟩, ⟨rest, hcs.symm⟩, rfl⟩
  · rintro ⟨read, ⟨number, rfl, rfl⟩, ⟨rest, rfl⟩, rfl⟩
    exact position_reads number rest

theorem stopsAt_literal {what : List Char} (out : List Char) (hne : what ≠ [])
    (hx : Without x what) : StopsAt x (literal what out) :=
  (spelled_literal what out).stopsAt fun _ _ h => h.1 ▸ ⟨hne, hx⟩

theorem frugal_literal (x : Char) (what out : List Char) (hcount : out.count x ≤ what.count x) :
    Frugal x (literal what out) :=
  (spelled_literal what out).frugal fun _ _ h => by rwa [h.1, h.2]

theorem count_position (hx : x ∈ marks) (hcall : (positionCall ++ [')']).count x = 0)
    (number : Word isDecimalDigit) :
    (positionCall ++ (number.chars ++ [')'])).count x = 0 ∧
      (bracketed number.chars).count x = ['[', ']'].count x := by
  have hnumber : number.chars.count x = 0 :=
    List.count_eq_zero.mpr (without_iff.mpr (number.without (digit_of_mark hx)))
  rw [List.count_append] at hcall
  simp only [bracketed, List.count_append, List.count_cons, List.count_nil] at hcall hnumber ⊢
  omega

theorem frugal_position (hx : x ∈ marks) (hcall : (positionCall ++ [')']).count x = 0) :
    Frugal x positionRule := by
  refine spelled_position.frugal fun read written h => ?_
  obtain ⟨number, -, rfl⟩ := h
  rw [(count_position hx hcall number).1]
  exact Nat.zero_le _

theorem spends_position : Spends '[' positionRule := by
  refine spelled_position.spends fun read written h => ?_
  obtain ⟨number, rfl, rfl⟩ := h
  obtain ⟨hwritten, hread⟩ := count_position (x := '[') (by decide) (by decide) number
  rw [hwritten, hread]
  decide

/-- What the stages in front of the calls make of a text. -/
def reduced (cs : List Char) : List Char := marking.foldl (fun cs rule => replaceAll rule cs) cs

theorem reduced_append {a b : List Char} (h : Passes marking a b) (rest : List Char) :
    reduced (a ++ rest) = b ++ reduced rest := h.foldl rest

theorem forall_marking {P : Rule → Prop} (hdescendant : P descendantRule) (hchild : P childRule)
    (hposition : P positionRule) (hattribute : P attributeRule) : ∀ rule ∈ marking, P rule :=
  List.forall_mem_cons.mpr ⟨hdescendant, List.forall_mem_cons.mpr ⟨hchild,
    List.forall_mem_cons.mpr ⟨hposition, List.forall_mem_singleton.mpr hattribute⟩⟩⟩

theorem reduced_quote (cs rest : List Char) :
    reduced (cs ++ '\'' :: rest) = reduced cs ++ '\'' :: reduced rest := by
  have hposition : StopsAt '\'' positionRule := by
    refine spelled_position.stopsAt fun read written h => ?_
    obtain ⟨number, rfl, -⟩ := h
    have hnumber : Without '\'' number.chars := number.without (digit_of_mark (by decide))
    exact ⟨List.cons_ne_nil _ _, (hnumber.append (by decide)).cons (by decide)⟩
  exact StopsAt.foldl (forall_marking (stopsAt_literal _ (by decide) (by decide))
    (stopsAt_literal _ (by decide) (by decide)) hposition
    (stopsAt_literal _ (by decide) (by decide))) cs rest

theorem reduced_without (hx : x ∈ ['\'', '\n']) (hcs : Without x cs) : Without x (reduced cs) := by
  have hfrugal : ∀ rule ∈ marking, Frugal x rule := by
    fin_cases hx <;> exact forall_marking (frugal_literal _ _ _ (by decide))
      (frugal_literal _ _ _ (by decide)) (frugal_position (by decide) (by decide))
      (frugal_literal _ _ _ (by decide))
  have hnone := List.count_eq_zero.mpr (without_iff.mpr hcs)
  have hcount := frugal_foldl hfrugal cs
  exact without_iff.mp (List.count_eq_zero.mp (Nat.le_zero.mp (hcount.trans_eq hnone)))

theorem without_literal (hout : Without x out) (cs : List Char) :
    Without x (replaceAll (literal [x] out) cs) := by
  induction cs with
  | nil => exact without_nil x
  | cons c cs ih =>
    by_cases hc : c = x
    · subst hc
      have hfront : Rewrites (literal [c] out) [c] out :=
        rewrites_of_applies (by simp) fun rest => by simp [literal, strip]
      have hreplaced := hfront cs
      rw [List.singleton_append] at hreplaced
      rw [hreplaced]
      exact hout.append ih
    · rw [replaceAll_cons_none (appliesAt_literal x [] out c cs hc)]
      exact ih.cons hc

theorem reduced_unmarked (hx : x ∈ ['/', '@']) (cs : List Char) : Without x (reduced cs) := by
  fin_cases hx
  · have hchild : Without '/' (replaceAll childRule (replaceAll descendantRule cs)) :=
      without_literal (by decide) _
    have hposition := (frugal_position (x := '/') (by decide) (by decide)).replaceAll
      (replaceAll childRule (replaceAll descendantRule cs))
    have hmark := (frugal_literal '/' ['@'] [] (by decide)).replaceAll
      (replaceAll positionRule (replaceAll childRule (replaceAll descendantRule cs)))
    rw [List.count_eq_zero.mpr (without_iff.mpr hchild)] at hposition
    exact without_iff.mp (List.count_eq_zero.mp (Nat.le_zero.mp (hmark.trans hposition)))
  · exact without_literal (without_nil _) _

/-- No step, no mark of an attribute and no position. -/
structure Plain (cs : List Char) : Prop where
  slash : Without '/' cs
  mark : Without '@' cs
  position : ∀ number : Word isDecimalDigit, ¬ bracketed number.chars <:+: cs

theorem Plain.reduced_eq (h : Plain cs) : reduced cs = cs := by
  have hdescendant := (appliesAt_descendant.keeps h.slash).all
  have hchild := (appliesAt_child.keeps h.slash).all
  have hposition : replaceAll positionRule cs = cs := by
    refine spelled_position.replaceAll_self fun read written hread => ?_
    obtain ⟨number, rfl, -⟩ := hread
    exact h.position number
  have hmark := (appliesAt_attribute.keeps h.mark).all
  simp only [reduced, marking, List.foldl_cons, List.foldl_nil, hdescendant, hchild, hposition,
    hmark]

theorem plain_of_count (h : ∀ x ∈ ['/', '@', '['], cs.count x ≤ (reduced cs).count x) :
    Plain cs := by
  have hwithout : ∀ x ∈ ['/', '@'], Without x cs := by
    intro x hx
    have hnone := List.count_eq_zero.mpr (without_iff.mpr (reduced_unmarked hx cs))
    have hcount := h x (List.mem_of_mem_take (i := 2) hx)
    exact without_iff.mp (List.count_eq_zero.mp (by omega))
  have hslash := hwithout '/' (by decide)
  refine ⟨hslash, hwithout '@' (by decide), fun number => ?_⟩
  have hmark := (frugal_literal '[' ['@'] [] (by decide)).replaceAll
    (replaceAll positionRule cs)
  have hreduced : reduced cs = replaceAll attributeRule (replaceAll positionRule cs) := by
    simp only [reduced, marking, List.foldl_cons, List.foldl_nil,
      (appliesAt_descendant.keeps hslash).all, (appliesAt_child.keeps hslash).all]
  have hopen := h '[' (by decide)
  rw [hreduced] at hopen
  exact spelled_position.none_of_count spends_position (hopen.trans hmark) ⟨number, rfl, rfl⟩

end BrowserActions.Selector
