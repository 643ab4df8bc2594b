import Mathlib
import BrowserActions.Text.Replace

/-!
# Replacement piece by piece

A rule that can only apply at one character leaves pieces without that character alone, and where
it applies to a whole piece whatever follows, the piece is replaced. So the text of several pieces
is replaced piece by piece.
-/
namespace BrowserActions.Text

def Without (x : Char) (cs : List Char) : Prop := ∀ c ∈ cs, c ≠ x

theorem without_iff {x : Char} {cs : List Char} : x ∉ cs ↔ Without x cs :=
  List.forall_mem_ne'.symm

instance (x : Char) (cs : List Char) : Decidable (Without x cs) := decidable_of_iff _ without_iff

/-- Whatever follows it, the piece `a` becomes `b`. -/
def Rewrites (rule : Rule) (a b : List Char) : Prop :=
  ∀ rest, replaceAll rule (a ++ rest) = b ++ replaceAll rule rest

/-- The rule only applies where this character stands. -/
def AppliesAt (x : Char) (rule : Rule) : Prop := ∀ c cs, c ≠ x → rule (c :: cs) = none

variable {α : Type} {rule : Rule} {a b a' b' cs : List Char} {c x : Char}

theorem without_nil (x : Char) : Without x [] := List.forall_mem_nil _

theorem Without.cons (h : Without x cs) (hc : c ≠ x) : Without x (c :: cs) :=
  List.forall_mem_cons.mpr ⟨hc, h⟩

theorem Without.tail (h : Without x (c :: cs)) : Without x cs := (List.forall_mem_cons.mp h).2

theorem Without.append (h : Without x a) (h' : Without x b) : Without x (a ++ b) :=
  List.forall_mem_append.mpr ⟨h, h'⟩

theorem replaceAll_cons_none (h : rule (c :: cs) = none) :
    replaceAll rule (c :: cs) = c :: replaceAll rule cs := by
  rw [replaceAll, replaceFrom, h]
  rfl

theorem replaceFrom_skip (rule : Rule) (a rest : List Char) :
    replaceFrom rule a.length (a ++ rest) = replaceAll rule rest := by
  induction a with
  | nil => rfl
  | cons c a ih => exact ih

theorem replaceAll_applies {rest : List Char} (hne : a ≠ [])
    (h : rule (a ++ rest) = some (b, a.length)) :
    replaceAll rule (a ++ rest) = b ++ replaceAll rule rest := by
  obtain ⟨c, a, rfl⟩ := List.exists_cons_of_ne_nil hne
  rw [List.cons_append] at h ⊢
  rw [replaceAll, replaceFrom, h]
  exact congrArg (b ++ ·) (replaceFrom_skip rule a rest)

theorem rewrites_of_applies (hne : a ≠ []) (h : ∀ rest, rule (a ++ rest) = some (b, a.length)) :
    Rewrites rule a b := fun rest => replaceAll_applies hne (h rest)

theorem replaceAll_none (h : ∀ s, s <:+ cs → rule s = none) : replaceAll rule cs = cs := by
  induction cs with
  | nil => rfl
  | cons c cs ih =>
    rw [replaceAll_cons_none (h _ (List.suffix_refl _)),
      ih fun s hs => h s (hs.trans (List.suffix_cons c cs))]

theorem rewrites_nil (rule : Rule) : Rewrites rule [] [] := fun _ => rfl

theorem Rewrites.append (h : Rewrites rule a b) (h' : Rewrites rule a' b') :
    Rewrites rule (a ++ a') (b ++ b') := by
  intro rest
  rw [List.append_assoc, h, h', List.append_assoc]

theorem Rewrites.cons (h : Rewrites rule a b) (hc : ∀ rest, rule (c :: (a ++ rest)) = none) :
    Rewrites rule (c :: a) (c :: b) := by
  intro rest
  rw [List.cons_append, replaceAll_cons_none (hc rest), h, List.cons_append]

theorem AppliesAt.keeps (hr : AppliesAt x rule) (ha : Without x a) : Rewrites rule a a := by
  induction a with
  | nil => exact rewrites_nil rule
  | cons c a ih => exact (ih ha.tail).cons fun rest => hr c _ (ha c List.mem_cons_self)

theorem rewrites_flatMap {f g : α → List Char} {items : List α}
    (h : ∀ i ∈ items, Rewrites rule (f i) (g i)) :
    Rewrites rule (items.flatMap f) (items.flatMap g) := by
  induction items with
  | nil => exact rewrites_nil rule
  | cons i items ih =>
    rw [List.flatMap_cons, List.flatMap_cons]
    exact (h i List.mem_cons_self).append (ih fun j hj => h j (List.mem_cons_of_mem _ hj))

theorem Rewrites.all (h : Rewrites rule a b) : replaceAll rule a = b := by
  have hend := h []
  rw [List.append_nil] at hend
  rw [hend]
  exact List.append_nil b

/-- Stage after stage and whatever follows it, the piece `a` becomes `b`. -/
inductive Passes : List Rule → List Char → List Char → Prop
  | done (a : List Char) : Passes [] a a
  | stage {rule : Rule} {rules : List Rule} {a b out : List Char} :
    Rewrites rule a b → Passes rules b out → Passes (rule :: rules) a out

theorem Passes.append {rules : List Rule} (h : Passes rules a b) (h' : Passes rules a' b') :
    Passes rules (a ++ a') (b ++ b') := by
  induction h generalizing a' with
  | done a =>
    cases h'
    exact .done _
  | stage hrule _ ih =>
    cases h' with
    | stage hrule' h' => exact .stage (hrule.append hrule') (ih h')

theorem passes_nil (rules : List Rule) : Passes rules [] [] := by
  induction rules with
  | nil => exact .done []
  | cons rule rules ih => exact .stage (rewrites_nil rule) ih

theorem Passes.trans {rules rules' : List Rule} {out : List Char} (h : Passes rules a b)
    (h' : Passes rules' b out) : Passes (rules ++ rules') a out := by
  induction h with
  | done a => exact h'
  | stage hrule _ ih => exact .stage hrule (ih h')

theorem Passes.foldl {rules : List Rule} (h : Passes rules a b) (rest : List Char) :
    rules.foldl (fun cs rule => replaceAll rule cs) (a ++ rest) =
      b ++ rules.foldl (fun cs rule => replaceAll rule cs) rest := by
  induction h generalizing rest with
  | done a => rfl
  | stage hrule _ ih => rw [List.foldl_cons, hrule, ih, List.foldl_cons]

theorem Passes.all {rules : List Rule} (h : Passes rules a b) :
    rules.foldl (fun cs rule => replaceAll rule cs) a = b := by
  induction h with
  | done a => rfl
  | stage hrule _ ih => rw [List.foldl_cons, hrule.all, ih]

/-- Where the rule applies, it writes no more of this character than it reads. -/
def Frugal (x : Char) (rule : Rule) : Prop :=
  ∀ cs out n, rule cs = some (out, n) → out.count x ≤ (cs.take n).count x

/-- Where the rule applies, it writes less of this character than it reads. -/
def Spends (x : Char) (rule : Rule) : Prop :=
  ∀ cs out n, rule cs = some (out, n) → out.count x < (cs.take n).count x

theorem Spends.frugal (h : Spends x rule) : Frugal x rule :=
  fun cs out n happlies => Nat.le_of_lt (h cs out n happlies)

theorem count_take_drop (x : Char) (cs : List Char) (n : Nat) :
    (cs.take n).count x + (cs.drop n).count x = cs.count x := by
  rw [← List.count_append, List.take_append_drop]

theorem Frugal.replaceFrom (h : Frugal x rule) (skip : Nat) (cs : List Char) :
    (replaceFrom rule skip cs).count x ≤ (cs.drop skip).count x := by
  induction cs generalizing skip with
  | nil => cases skip <;> exact Nat.zero_le _
  | cons c cs ih =>
    cases skip with
    | succ skip => exact ih skip
    | zero =>
      rw [Text.replaceFrom]
      cases happlies : rule (c :: cs) with
      | none =>
        have hrest := ih 0
        simp only [List.drop_zero, List.count_cons] at hrest ⊢
        omega
      | some applied =>
        obtain ⟨out, n⟩ := applied
        have hout := h _ _ _ happlies
        have hrest := ih (n - 1)
        have hall := count_take_drop x (c :: cs) n
        cases n with
        | zero =>
          simp only [List.take_zero, Nat.zero_sub, List.drop_zero, List.count_nil,
            List.count_append, List.count_cons] at hout hrest ⊢
          omega
        | succ n =>
          simp only [Nat.add_sub_cancel, List.drop_succ_cons, List.drop_zero,
            List.count_append] at hout hrest hall ⊢
          omega

theorem Frugal.replaceAll (h : Frugal x rule) (cs : List Char) :
    (replaceAll rule cs).count x ≤ cs.count x := h.replaceFrom 0 cs

theorem Spends.replaceAll (h : Spends x rule) (happlies : (rule (c :: cs)).isSome = true) :
    (replaceAll rule (c :: cs)).count x < (c :: cs).count x := by
  obtain ⟨⟨out, n⟩, happlies⟩ := Option.isSome_iff_exists.mp happlies
  have hout := h _ _ _ happlies
  have hrest := h.frugal.replaceFrom (n - 1) cs
  have hall := count_take_drop x (c :: cs) n
  cases n with
  | zero => exact absurd hout (Nat.not_lt_zero _)
  | succ n =>
    rw [Text.replaceAll, Text.replaceFrom, happlies, List.count_append]
    simp only [Nat.add_sub_cancel, List.drop_succ_cons] at hrest hall ⊢
    omega

theorem Spends.replaceAll_suffix (h : Spends x rule) {s : List Char} (hs : s <:+ cs)
    (happlies : (rule s).isSome = true) : (Text.replaceAll rule cs).count x < cs.count x := by
  induction cs with
  | nil =>
    obtain ⟨⟨out, n⟩, happlies⟩ := Option.isSome_iff_exists.mp happlies
    have hout := h _ _ _ happlies
    rw [List.suffix_nil.mp hs, List.take_nil] at hout
    exact absurd hout (Nat.not_lt_zero _)
  | cons c cs ih =>
    cases hfront : rule (c :: cs) with
    | some applied => exact h.replaceAll (by rw [hfront]; rfl)
    | none =>
      rcases List.suffix_cons_iff.mp hs with rfl | hs
      · rw [hfront] at happlies
        cases happlies
      · rw [replaceAll_cons_none hfront, List.count_cons, List.count_cons]
        exact Nat.add_lt_add_right (ih hs) _

theorem strip_eq_some {lead cs rest : List Char} :
    strip lead cs = some rest ↔ cs = lead ++ rest := by
  induction lead generalizing cs with
  | nil => simp [strip, eq_comm]
  | cons l ls ih =>
    cases cs with
    | nil => simp [strip]
    | cons c cs =>
      by_cases hc : l = c
      · simp [strip, hc, ih]
      · simp [strip, hc, Ne.symm hc]

theorem strip_append (lead rest : List Char) : strip lead (lead ++ rest) = some rest :=
  strip_eq_some.mpr rfl

theorem strip_without {lead more front : List Char} {m x : Char} (hfront : Without m front)
    (hlead : Without x lead) (hne : m ≠ x) (cs : List Char) :
    strip (lead ++ m :: more) (front ++ x :: cs) = none := by
  induction lead generalizing front with
  | nil =>
    cases front with
    | nil => exact if_neg hne
    | cons c front => exact if_neg (hfront c List.mem_cons_self).symm
  | cons l lead ih =>
    cases front with
    | nil => exact if_neg (hlead l List.mem_cons_self)
    | cons c front =>
      rw [List.cons_append, List.cons_append, strip]
      split
      · exact ih hfront.tail hlead.tail
      · rfl

theorem upTo_front (stop : List Char) {front : List Char} {s : Char} (hfront : Without s front)
    (hline : Without '\n' front) (cs : List Char) :
    upTo (s :: stop) (front ++ cs) = (upTo (s :: stop) cs).map fun p => (front ++ p.1, p.2) := by
  induction front with
  | nil => simp
  | cons c front ih =>
    have hnone : strip (s :: stop) (c :: (front ++ cs)) = none :=
      if_neg (hfront c List.mem_cons_self).symm
    rw [List.cons_append, upTo, hnone, if_neg (hline c List.mem_cons_self),
      ih hfront.tail hline.tail, Option.map_map]
    rfl

theorem upTo_append (stop : List Char) {body : List Char} {s : Char} (hbody : Without s body)
    (hline : Without '\n' body) (rest : List Char) :
    upTo (s :: stop) (body ++ (s :: stop ++ rest)) = some (body, rest) := by
  have hstop := strip_append (s :: stop) rest
  rw [List.cons_append] at hstop
  rw [upTo_front stop hbody hline, List.cons_append, upTo, hstop, Option.map_some, List.append_nil]

theorem upTo_eq_some {stop cs body rest : List Char} (h : upTo stop cs = some (body, rest)) :
    cs = body ++ (stop ++ rest) := by
  induction cs generalizing body with
  | nil => cases h
  | cons c cs ih =>
    rw [upTo] at h
    cases hstop : strip stop (c :: cs) with
    | some behind =>
      rw [hstop] at h
      cases h
      rw [List.nil_append]
      exact strip_eq_some.mp hstop
    | none =>
      simp only [hstop] at h
      split at h
      · cases h
      · obtain ⟨⟨front, behind⟩, hfront, heq⟩ := Option.map_eq_some_iff.mp h
        cases heq
        rw [ih hfront, List.cons_append]

theorem upTo_isSome {stop front : List Char} (hstop : stop ≠ []) (hline : Without '\n' front) :
    (upTo stop (front ++ stop)).isSome = true := by
  induction front with
  | nil =>
    obtain ⟨s, stop, rfl⟩ := List.exists_cons_of_ne_nil hstop
    have hread := strip_append (s :: stop) []
    rw [List.append_nil] at hread
    rw [List.nil_append, upTo, hread]
    rfl
  | cons c front ih =>
    rw [List.cons_append, upTo]
    cases strip stop (c :: (front ++ stop)) with
    | some behind => rfl
    | none => simp [if_neg (hline c List.mem_cons_self), ih hline.tail]

theorem prefix_of_without {lead body rest : List Char} (hlead : Without x lead)
    (h : lead <+: body ++ x :: rest) : lead <+: body := by
  rcases List.prefix_or_prefix_of_prefix h (List.prefix_append body _) with hbody | ⟨cs, rfl⟩
  · exact hbody
  · cases cs with
    | nil => rw [List.append_nil]
    | cons c cs =>
      obtain ⟨hc, -⟩ := List.cons_prefix_cons.mp ((List.prefix_append_right_inj body).mp h)
      exact absurd hc (hlead c (List.mem_append_right _ List.mem_cons_self))

theorem upTo_last (front : List Char) {body : List Char} (hfront : Without x front)
    (hbody : Without x body) (hline : Without '\n' body) (rest : List Char) :
    upTo (front ++ [x]) (body ++ (front ++ x :: rest)) = some (body, rest) := by
  induction body with
  | nil =>
    have hstop := strip_append (front ++ [x]) rest
    rw [List.append_assoc, List.singleton_append] at hstop
    cases hcs : front ++ x :: rest with
    | nil => exact absurd hcs (List.append_ne_nil_of_right_ne_nil _ (List.cons_ne_nil _ _))
    | cons c cs =>
      rw [hcs] at hstop
      rw [List.nil_append, upTo, hstop]
  | cons c body ih =>
    have hnone : strip (front ++ [x]) (c :: (body ++ (front ++ x :: rest))) = none := by
      rw [Option.eq_none_iff_forall_ne_some]
      intro cs hcs
      have hstop : front ++ [x] <+: (c :: (body ++ front)) ++ x :: rest := by
        refine ⟨cs, ?_⟩
        rw [← strip_eq_some.mp hcs, List.cons_append, List.append_assoc]
      have hfree : Without x (c :: (body ++ front)) :=
        (hbody.tail.append hfront).cons (hbody c List.mem_cons_self)
      have hlast : x ∈ front ++ [x] := List.mem_append_right _ List.mem_cons_self
      rcases List.prefix_or_prefix_of_prefix hstop (List.prefix_append _ _) with h | h
      · exact hfree x (h.subset hlast) rfl
      · have hlength : (front ++ [x]).length ≤ (c :: (body ++ front)).length := by
          simp only [List.length_append, List.length_cons, List.length_nil]
          omega
        rw [← h.eq_of_length_le hlength] at hlast
        exact hfree x hlast rfl
    rw [List.cons_append, upTo, hnone, if_neg (hline c List.mem_cons_self),
      ih hbody.tail hline.tail]
    rfl

end BrowserActions.Text
