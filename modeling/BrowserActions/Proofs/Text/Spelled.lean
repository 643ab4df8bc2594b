import Mathlib
import BrowserActions.Proofs.Text.Replace

/-!
# Rules that read certain texts

A rule may read certain texts only, and all of each. Then it stops at every character that none of
them has: the text in front of the character and the text behind it are replaced on their own. What
such a rule writes is counted against what it reads.
-/
namespace BrowserActions.Text

variable {rule : Rule} {rules : List Rule} {cs : List Char} {x : Char}

/-- The rule reads the same in front of this character as at the end of the text. -/
structure StopsAt (x : Char) (rule : Rule) : Prop where
  nil : rule [] = none
  reads : ∀ cs rest, rule (cs ++ x :: rest) = rule cs
  within : ∀ cs out n, rule cs = some (out, n) → n ≤ cs.length

theorem StopsAt.replaceFrom (h : StopsAt x rule) {skip : Nat} {cs : List Char}
    (hskip : skip ≤ cs.length) (rest : List Char) :
    replaceFrom rule skip (cs ++ x :: rest) =
      replaceFrom rule skip cs ++ x :: replaceAll rule rest := by
  induction cs generalizing skip with
  | nil =>
    obtain rfl := Nat.le_zero.mp hskip
    have hnone := h.reads [] rest
    rw [List.nil_append, h.nil] at hnone
    exact replaceAll_cons_none hnone
  | cons c cs ih =>
    cases skip with
    | succ skip => exact ih (Nat.le_of_succ_le_succ hskip)
    | zero =>
      have hreads := h.reads (c :: cs) rest
      rw [List.cons_append] at hreads
      rw [List.cons_append, Text.replaceFrom, Text.replaceFrom, hreads]
      cases happlies : rule (c :: cs) with
      | none => exact congrArg (c :: ·) (ih (Nat.zero_le _))
      | some applied =>
        obtain ⟨out, n⟩ := applied
        have hwithin := h.within _ _ _ happlies
        rw [List.length_cons] at hwithin
        simp only [ih (Nat.sub_le_of_le_add hwithin), List.append_assoc]

theorem StopsAt.foldl {rules : List Rule} (h : ∀ rule ∈ rules, StopsAt x rule)
    (cs rest : List Char) :
    rules.foldl (fun cs rule => replaceAll rule cs) (cs ++ x :: rest) =
      rules.foldl (fun cs rule => replaceAll rule cs) cs ++
        x :: rules.foldl (fun cs rule => replaceAll rule cs) rest := by
  induction rules generalizing cs rest with
  | nil => rfl
  | cons rule rules ih =>
    have hfirst := (h rule List.mem_cons_self).replaceFrom (Nat.zero_le cs.length) rest
    rw [List.foldl_cons, List.foldl_cons, List.foldl_cons, replaceAll, hfirst]
    exact ih (fun r hr => h r (List.mem_cons_of_mem _ hr)) _ _

/-- The rule applies where one of these texts stands, and reads no more than that text. -/
def Spelled (spelling : List Char → List Char → Prop) (rule : Rule) : Prop :=
  ∀ cs out n, rule cs = some (out, n) ↔
    ∃ read, spelling read out ∧ read <+: cs ∧ n = read.length

variable {spelling : List Char → List Char → Prop}

theorem Spelled.stopsAt (h : Spelled spelling rule)
    (hx : ∀ read out, spelling read out → read ≠ [] ∧ Without x read) : StopsAt x rule where
  nil := by
    rw [Option.eq_none_iff_forall_ne_some]
    rintro ⟨out, n⟩ happlies
    obtain ⟨read, hspelled, hread, -⟩ := (h _ _ _).mp happlies
    exact (hx read out hspelled).1 (List.prefix_nil.mp hread)
  reads cs rest := by
    refine Option.ext fun ⟨out, n⟩ => ?_
    rw [h, h]
    constructor
    · rintro ⟨read, hspelled, hread, hn⟩
      exact ⟨read, hspelled, prefix_of_without (hx read out hspelled).2 hread, hn⟩
    · rintro ⟨read, hspelled, hread, hn⟩
      exact ⟨read, hspelled, hread.trans (List.prefix_append _ _), hn⟩
  within cs out n happlies := by
    obtain ⟨read, -, hread, rfl⟩ := (h _ _ _).mp happlies
    exact hread.length_le

theorem Spelled.read (h : Spelled spelling rule) {out : List Char} {n : Nat}
    (happlies : rule cs = some (out, n)) : spelling (cs.take n) out := by
  obtain ⟨read, hspelled, hread, rfl⟩ := (h _ _ _).mp happlies
  rwa [← List.prefix_iff_eq_take.mp hread]

theorem Spelled.frugal (h : Spelled spelling rule)
    (hx : ∀ read out, spelling read out → out.count x ≤ read.count x) : Frugal x rule :=
  fun _ _ _ happlies => hx _ _ (h.read happlies)

theorem Spelled.spends (h : Spelled spelling rule)
    (hx : ∀ read out, spelling read out → out.count x < read.count x) : Spends x rule :=
  fun _ _ _ happlies => hx _ _ (h.read happlies)

theorem Spelled.replaceAll_self (h : Spelled spelling rule)
    (hnone : ∀ read out, spelling read out → ¬ read <:+: cs) : replaceAll rule cs = cs := by
  refine replaceAll_none fun s hs => ?_
  rw [Option.eq_none_iff_forall_ne_some]
  rintro ⟨out, n⟩ happlies
  obtain ⟨read, hspelled, hread, -⟩ := (h _ _ _).mp happlies
  exact hnone read out hspelled (List.infix_iff_prefix_suffix.mpr ⟨s, hread, hs⟩)

theorem Spelled.none_of_count (h : Spelled spelling rule) (hspends : Spends x rule)
    (hcount : cs.count x ≤ (replaceAll rule cs).count x) {read out : List Char}
    (hspelled : spelling read out) : ¬ read <:+: cs := by
  intro hread
  obtain ⟨s, hprefix, hsuffix⟩ := List.infix_iff_prefix_suffix.mp hread
  have happlies : (rule s).isSome = true :=
    Option.isSome_iff_exists.mpr ⟨_, (h s out read.length).mpr ⟨read, hspelled, hprefix, rfl⟩⟩
  have hless := hspends.replaceAll_suffix hsuffix happlies
  omega

theorem frugal_foldl (h : ∀ rule ∈ rules, Frugal x rule) (cs : List Char) :
    (rules.foldl (fun cs rule => replaceAll rule cs) cs).count x ≤ cs.count x := by
  induction rules generalizing cs with
  | nil => exact Nat.le_refl _
  | cons rule rules ih =>
    calc ((rule :: rules).foldl (fun cs rule => replaceAll rule cs) cs).count x
        ≤ (replaceAll rule cs).count x := ih (fun r hr => h r (List.mem_cons_of_mem _ hr)) _
      _ ≤ cs.count x := (h rule List.mem_cons_self).replaceAll cs

end BrowserActions.Text
