import Mathlib
import BrowserActions.Text.Blank

/-!
# Trimming

What `trim` takes off is blank, and a text whose ends are not blank loses nothing but the blank
characters put around it.
-/
namespace BrowserActions.Text

/-- Neither the first nor the last character is blank; there may be none at all. -/
def Tight (cs : List Char) : Prop :=
  (∀ c ∈ cs.head?, isBlank c = false) ∧ ∀ c ∈ cs.getLast?, isBlank c = false

/-- The text does not end in a blank character; there may be none at all. -/
def Firm (cs : List Char) : Prop := ∀ c ∈ cs.getLast?, isBlank c = false

theorem firm_nil : Firm [] := nofun

theorem Firm.append {a b : List Char} (ha : Firm a) (hb : Firm b) : Firm (a ++ b) := by
  intro c hc
  rw [List.getLast?_append] at hc
  cases hlast : b.getLast? with
  | none =>
    rw [hlast] at hc
    exact ha c hc
  | some d =>
    rw [hlast] at hc
    exact hb c (hlast ▸ hc)

theorem firm_concat (cs : List Char) {c : Char} (h : isBlank c = false) : Firm (cs ++ [c]) := by
  intro d hd
  obtain rfl : c = d := by simpa using hd
  exact h

theorem Firm.of_suffix {a b : List Char} (hb : Firm b) (h : a <:+ b) : Firm a := by
  obtain ⟨front, rfl⟩ := h
  intro c hc
  refine hb c ?_
  rw [List.getLast?_append, Option.mem_def.mp hc]
  rfl

theorem trimStart_blank_append {ws : List Char} (hw : ∀ c ∈ ws, isBlank c = true)
    (cs : List Char) : trimStart (ws ++ cs) = trimStart cs := by
  induction ws with
  | nil => rfl
  | cons w ws ih =>
    have hb := hw w List.mem_cons_self
    simp only [trimStart, List.cons_append, List.dropWhile_cons, hb, if_true] at ih ⊢
    exact ih fun c hc => hw c (List.mem_cons_of_mem _ hc)

theorem trimStart_of_head {cs : List Char} (h : ∀ c ∈ cs.head?, isBlank c = false) :
    trimStart cs = cs := by
  cases cs with
  | nil => rfl
  | cons c cs => simp [trimStart, h c rfl]

theorem trimEnd_eq_reverse (cs : List Char) : trimEnd cs = (trimStart cs.reverse).reverse := rfl

theorem trimEnd_append_blank {ws : List Char} (hw : ∀ c ∈ ws, isBlank c = true)
    (cs : List Char) : trimEnd (cs ++ ws) = trimEnd cs := by
  rw [trimEnd_eq_reverse, List.reverse_append, trimStart_blank_append, ← trimEnd_eq_reverse]
  intro c hc
  exact hw c (List.mem_reverse.mp hc)

theorem trimEnd_of_last {cs : List Char} (h : ∀ c ∈ cs.getLast?, isBlank c = false) :
    trimEnd cs = cs := by
  rw [trimEnd_eq_reverse, trimStart_of_head, List.reverse_reverse]
  simpa only [List.head?_reverse] using h

theorem trimEnd_split (cs : List Char) :
    ∃ ws, (∀ c ∈ ws, isBlank c = true) ∧ cs = trimEnd cs ++ ws := by
  refine ⟨(cs.reverse.takeWhile isBlank).reverse, ?_, ?_⟩
  · intro c hc
    exact List.mem_takeWhile_imp (List.mem_reverse.mp hc)
  · rw [trimEnd, ← List.reverse_append, List.takeWhile_append_dropWhile, List.reverse_reverse]

theorem trim_around {cs w₁ w₂ : List Char} (h₁ : ∀ c ∈ w₁, isBlank c = true)
    (h₂ : ∀ c ∈ w₂, isBlank c = true) (h : Tight cs) : trim (w₁ ++ cs ++ w₂) = cs := by
  rw [trim, List.append_assoc, trimStart_blank_append h₁]
  cases cs with
  | nil =>
    have hall := trimStart_blank_append h₂ []
    rw [List.append_nil] at hall
    rw [List.nil_append, hall]
    rfl
  | cons c cs =>
    rw [trimStart_of_head (by simpa using h.1), trimEnd_append_blank h₂, trimEnd_of_last h.2]

theorem trim_within (cs : List Char) : trim cs <:+: cs := by
  have hstart : trimStart cs <:+ cs := List.dropWhile_suffix _
  have hend : trim cs <+: trimStart cs := by
    obtain ⟨ws, -, h⟩ := trimEnd_split (trimStart cs)
    exact ⟨ws, h.symm⟩
  exact hend.isInfix.trans hstart.isInfix

theorem head_trimStart {cs : List Char} {c : Char} (h : c ∈ (trimStart cs).head?) :
    isBlank c = false := by
  induction cs with
  | nil => simp [trimStart] at h
  | cons d cs ih =>
    by_cases hd : isBlank d = true
    · exact ih (by rwa [trimStart, List.dropWhile_cons_of_pos hd] at h)
    · rw [trimStart, List.dropWhile_cons_of_neg hd] at h
      obtain rfl : d = c := by simpa using h
      exact Bool.eq_false_iff.mpr hd

theorem trimStart_split (cs : List Char) :
    ∃ ws, (∀ c ∈ ws, isBlank c = true) ∧ cs = ws ++ trimStart cs :=
  ⟨cs.takeWhile isBlank, fun _ hc => List.mem_takeWhile_imp hc,
    (List.takeWhile_append_dropWhile ..).symm⟩

theorem trimEnd_blank {ws : List Char} (h : ∀ c ∈ ws, isBlank c = true) : trimEnd ws = [] :=
  trimEnd_append_blank h []

theorem last_trimEnd {cs : List Char} {c : Char} (h : c ∈ (trimEnd cs).getLast?) :
    isBlank c = false := by
  rw [trimEnd_eq_reverse, List.getLast?_reverse] at h
  exact head_trimStart h

theorem trimEnd_cons {c : Char} {cs : List Char} (h : ∃ d ∈ c :: cs, isBlank d = false) :
    trimEnd (c :: cs) = c :: trimEnd cs := by
  obtain ⟨ws, hws, hsplit⟩ := trimEnd_split cs
  have hlast : ∀ d ∈ (c :: trimEnd cs).getLast?, isBlank d = false := by
    intro d hd
    cases hkept : trimEnd cs with
    | nil =>
      obtain ⟨e, he, hblank⟩ := h
      rw [hkept] at hd
      obtain rfl : c = d := by simpa using hd
      rw [hsplit, hkept, List.nil_append] at he
      rcases List.mem_cons.mp he with rfl | he
      · exact hblank
      · rw [hws e he] at hblank
        cases hblank
    | cons e kept =>
      refine @last_trimEnd cs d ?_
      rwa [hkept, List.getLast?_cons_cons, ← hkept] at hd
  calc trimEnd (c :: cs) = trimEnd (c :: trimEnd cs ++ ws) := by rw [List.cons_append, ← hsplit]
    _ = trimEnd (c :: trimEnd cs) := trimEnd_append_blank hws _
    _ = c :: trimEnd cs := trimEnd_of_last hlast

theorem trimEnd_append (a : List Char) {b : List Char} (h : ∃ d ∈ b, isBlank d = false) :
    trimEnd (a ++ b) = a ++ trimEnd b := by
  induction a with
  | nil => rfl
  | cons c a ih =>
    obtain ⟨d, hd, hblank⟩ := h
    have hrest : ∃ d ∈ c :: (a ++ b), isBlank d = false :=
      ⟨d, List.mem_cons_of_mem _ (List.mem_append_right _ hd), hblank⟩
    rw [List.cons_append, trimEnd_cons hrest, ih, List.cons_append]

def Begins (cs : List Char) : Prop := ∃ c ∈ cs.head?, isBlank c = false

theorem Begins.append {a : List Char} (h : Begins a) (b : List Char) : Begins (a ++ b) := by
  obtain ⟨c, hc, hblank⟩ := h
  refine ⟨c, ?_, hblank⟩
  rw [List.head?_append, Option.mem_def.mp hc]
  rfl

theorem Begins.exists {cs : List Char} (h : Begins cs) : ∃ c ∈ cs, isBlank c = false := by
  obtain ⟨c, hc, hblank⟩ := h
  exact ⟨c, List.mem_of_mem_head? hc, hblank⟩

theorem Begins.trim_eq {cs : List Char} (h : Begins cs) : trim cs = trimEnd cs := by
  obtain ⟨c, hc, hblank⟩ := h
  rw [trim, trimStart_of_head]
  intro d hd
  rwa [Option.mem_unique hd hc]

theorem Begins.trimEnd {cs : List Char} (h : Begins cs) : Begins (trimEnd cs) := by
  cases cs with
  | nil =>
    obtain ⟨c, hc, -⟩ := h
    cases hc
  | cons d cs =>
    rw [trimEnd_cons h.exists]
    exact h

theorem tight_trim (cs : List Char) : Tight (trim cs) := by
  refine ⟨fun c hc => ?_, fun c hc => last_trimEnd hc⟩
  obtain ⟨ws, -, hsplit⟩ := trimEnd_split (trimStart cs)
  refine @head_trimStart cs c ?_
  rw [hsplit, List.head?_append]
  exact Option.mem_def.mpr (by rw [← trim, Option.mem_def.mp hc]; rfl)

theorem trim_eq_iff {cs : List Char} : trim cs = cs ↔ Tight cs := by
  constructor
  · intro h
    rw [← h]
    exact tight_trim cs
  · intro h
    have htrim := trim_around (List.forall_mem_nil _) (List.forall_mem_nil _) h
    rwa [List.nil_append, List.append_nil] at htrim

theorem count_trim {x : Char} (hx : isBlank x = false) (cs : List Char) :
    (trim cs).count x = cs.count x := by
  have hblank : ∀ ws : List Char, (∀ c ∈ ws, isBlank c = true) → ws.count x = 0 := by
    intro ws hws
    refine List.count_eq_zero.mpr fun hmem => ?_
    rw [hws x hmem] at hx
    cases hx
  obtain ⟨front, hfront, hstart⟩ := trimStart_split cs
  obtain ⟨back, hback, hend⟩ := trimEnd_split (trimStart cs)
  have hcount : (trimStart cs).count x = (trim cs).count x := by
    conv_lhs => rw [hend]
    rw [List.count_append, hblank back hback, Nat.add_zero]
    rfl
  conv_rhs => rw [hstart]
  rw [List.count_append, hblank front hfront, Nat.zero_add, hcount]

theorem length_trimEnd (cs : List Char) : (trimEnd cs).length ≤ cs.length := by
  obtain ⟨ws, -, hsplit⟩ := trimEnd_split cs
  conv_rhs => rw [hsplit]
  exact (List.prefix_append _ ws).length_le

theorem length_trimEnd_lt {cs : List Char} (h : ¬ Firm cs) : (trimEnd cs).length < cs.length := by
  obtain ⟨ws, -, hsplit⟩ := trimEnd_split cs
  refine lt_of_le_of_ne (length_trimEnd cs) fun hlength => h ?_
  have hkept : trimEnd cs = cs := List.IsPrefix.eq_of_length ⟨ws, hsplit.symm⟩ hlength
  rw [← hkept]
  exact fun c hc => last_trimEnd hc

end BrowserActions.Text
