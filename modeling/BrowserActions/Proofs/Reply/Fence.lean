import Mathlib
import BrowserActions.Reply.Basic
import BrowserActions.Proofs.Json.Scan
import BrowserActions.Proofs.Text.Replace

/-!
# The first fence of a text

`splitFence` finds the first fence. A text is closed if it holds no fence and ends in none of the
three backticks of one: whatever follows a closed text, no fence begins inside it.
-/
namespace BrowserActions.Reply

open Text

/-- No fence begins inside the text, whatever follows it. -/
structure Closed (cs : List Char) : Prop where
  no_fence : ¬ fence <:+: cs
  last_ne : cs.getLast? ≠ some '\x60'

/-- A reply that holds `inside` in a block tagged as JSON. -/
def tagged (before inside after : List Char) : List Char :=
  before ++ (fence ++ (tag ++ (inside ++ (fence ++ after))))

theorem closed_of_no_backtick {cs : List Char} (h : ∀ c ∈ cs, c ≠ '\x60') : Closed cs where
  no_fence hf := h '\x60' (hf.subset (by simp [fence])) rfl
  last_ne hl := h '\x60' (List.mem_of_getLast? hl) rfl

theorem Closed.tail {c : Char} {cs : List Char} (h : Closed (c :: cs)) : Closed cs where
  no_fence hf := h.no_fence (hf.trans (List.suffix_cons c cs).isInfix)
  last_ne hl := h.last_ne (by simp [List.getLast?_cons, hl])

theorem Closed.strip_none {c : Char} {r : List Char} (h : Closed (c :: r)) (cs : List Char) :
    strip fence (c :: (r ++ cs)) = none := by
  rw [Option.eq_none_iff_forall_ne_some]
  intro rest hs
  have heq := strip_eq_some.mp hs
  have hno := h.no_fence
  have hlast := h.last_ne
  -- The fence would take up to three characters of the closed text.
  rcases r with _ | ⟨d, _ | ⟨e, r⟩⟩
  · simp_all [fence]
  · simp_all [fence]
  · simp only [fence, List.cons_append, List.nil_append, List.cons.injEq] at heq
    obtain ⟨rfl, rfl, rfl, _⟩ := heq
    exact hno ⟨[], r, rfl⟩

theorem splitFence_append {r : List Char} (h : Closed r) (cs : List Char) :
    splitFence (r ++ cs) = (splitFence cs).map fun p => (r ++ p.1, p.2) := by
  induction r with
  | nil => simp
  | cons c r ih =>
    rw [List.cons_append, splitFence, h.strip_none, ih h.tail, Option.map_map]
    rfl

theorem splitFence_fence (cs : List Char) : splitFence (fence ++ cs) = some ([], cs) := by
  have hs := strip_append fence cs
  rw [fence, List.cons_append] at hs ⊢
  rw [splitFence, fence, hs]

theorem splitFence_closed {r : List Char} (h : Closed r) (cs : List Char) :
    splitFence (r ++ (fence ++ cs)) = some (r, cs) := by
  rw [splitFence_append h, splitFence_fence]
  simp

theorem closed_of_blank {ws : List Char} (h : ∀ c ∈ ws, isBlank c = true) : Closed ws :=
  closed_of_no_backtick fun c hc heq => absurd (h c hc) (by rw [heq]; decide)

theorem splitFence_eq_some {cs a b : List Char} (h : splitFence cs = some (a, b)) :
    cs = a ++ (fence ++ b) := by
  induction cs generalizing a with
  | nil => simp [splitFence] at h
  | cons c cs ih =>
    rw [splitFence] at h
    split at h
    next rest hs =>
      simp only [Option.some.injEq, Prod.mk.injEq] at h
      obtain ⟨rfl, rfl⟩ := h
      have hcs : c :: cs = fence ++ rest := strip_eq_some.mp hs
      exact hcs
    next =>
      obtain ⟨⟨a', b'⟩, hp, hq⟩ := Option.map_eq_some_iff.mp h
      simp only [Prod.mk.injEq] at hq
      obtain ⟨rfl, rfl⟩ := hq
      rw [ih hp, List.cons_append]

theorem splitFence_eq_none {cs : List Char} : splitFence cs = none ↔ ¬ fence <:+: cs := by
  constructor
  · rintro hn ⟨a, b, rfl⟩
    induction a with
    | nil => rw [List.nil_append, splitFence_fence] at hn; cases hn
    | cons c a ih =>
      rw [List.cons_append, List.cons_append, splitFence] at hn
      split at hn
      · cases hn
      · exact ih (Option.map_eq_none_iff.mp hn)
  · intro hno
    rw [Option.eq_none_iff_forall_ne_some]
    rintro ⟨a, b⟩ hs
    exact hno ⟨a, b, by rw [splitFence_eq_some hs, List.append_assoc]⟩

theorem Closed.append {a b : List Char} (ha : Closed a) (hb : Closed b) : Closed (a ++ b) where
  no_fence := by
    rw [← splitFence_eq_none, splitFence_append ha, splitFence_eq_none.mpr hb.no_fence]
    rfl
  last_ne := by
    rw [List.getLast?_append]
    cases hl : b.getLast? with
    | none => simpa using ha.last_ne
    | some c => simpa [hl] using hb.last_ne

theorem closed_before_fence {cs a b : List Char} (h : splitFence cs = some (a, b)) : Closed a := by
  induction cs generalizing a with
  | nil => simp [splitFence] at h
  | cons c cs ih =>
    rw [splitFence] at h
    split at h
    next rest hs =>
      simp only [Option.some.injEq, Prod.mk.injEq] at h
      obtain ⟨rfl, rfl⟩ := h
      exact closed_of_no_backtick (by simp)
    next hnone =>
      obtain ⟨⟨a', b'⟩, hp, hq⟩ := Option.map_eq_some_iff.mp h
      simp only [Prod.mk.injEq] at hq
      obtain ⟨rfl, rfl⟩ := hq
      have hcs := splitFence_eq_some hp
      have hno : ∀ rest, c :: cs ≠ fence ++ rest := by
        intro rest heq
        rw [strip_eq_some.mpr heq] at hnone
        cases hnone
      constructor
      · intro hf
        rcases List.infix_cons_iff.mp hf with ⟨rest, hrest⟩ | hf
        · exact hno (rest ++ (fence ++ b')) (by rw [← List.append_assoc, hrest, hcs]; rfl)
        · exact (ih hp).no_fence hf
      · intro hl
        cases a' with
        | nil =>
          obtain rfl : c = '\x60' := by simpa using hl
          exact hno ('\x60' :: b') (by rw [hcs]; rfl)
        | cons d a' => exact (ih hp).last_ne (by simpa [List.getLast?_cons] using hl)

/-- A fence that was found stays the first one, whatever is put behind the text. -/
theorem splitFence_extend {cs a b : List Char} (h : splitFence cs = some (a, b))
    (after : List Char) : splitFence (cs ++ after) = some (a, b ++ after) := by
  rw [splitFence_eq_some h, List.append_assoc, List.append_assoc]
  exact splitFence_closed (closed_before_fence h) _

theorem blocks_nil {cs : List Char} (h : splitFence cs = none) : blocks cs = [] := by
  rw [blocks]
  split
  next => rfl
  next before inside hopen => rw [h] at hopen; cases hopen

theorem blocks_unclosed {cs before inside : List Char}
    (hopen : splitFence cs = some (before, inside)) (hclose : splitFence inside = none) :
    blocks cs = [] := by
  rw [blocks]
  split
  next => rfl
  next before' inside' hopen' =>
    obtain ⟨-, rfl⟩ := Prod.mk.inj (Option.some.inj (hopen.symm.trans hopen'))
    split
    next => rfl
    next hsome => rw [hclose] at hsome; cases hsome

theorem blocks_cons {cs before inside body rest : List Char}
    (hopen : splitFence cs = some (before, inside))
    (hclose : splitFence inside = some (body, rest)) :
    blocks cs = Block.ofInside body :: blocks rest := by
  rw [blocks]
  split
  next hnone => rw [hopen] at hnone; cases hnone
  next before' inside' hopen' =>
    obtain ⟨-, rfl⟩ := Prod.mk.inj (Option.some.inj (hopen.symm.trans hopen'))
    split
    next hnone => rw [hclose] at hnone; cases hnone
    next body' rest' hclose' =>
      obtain ⟨rfl, rfl⟩ := Prod.mk.inj (Option.some.inj (hclose.symm.trans hclose'))
      rfl

/-- The tagged block is the first candidate. It ends at the first fence inside it. -/
theorem candidates_tagged {before inside after body rest : List Char} (hb : Closed before)
    (hs : splitFence (inside ++ (fence ++ after)) = some (body, rest)) :
    candidates (tagged before inside after) = ⟨true, trim body⟩ :: candidates rest := by
  have htag : Closed tag := closed_of_no_backtick (by simp [tag])
  have hclose : splitFence (tag ++ (inside ++ (fence ++ after))) = some (tag ++ body, rest) := by
    rw [splitFence_append htag, hs]
    rfl
  have hblock : Block.ofInside (tag ++ body) = ⟨true, trim body⟩ := by
    rw [Block.ofInside, strip_append]
  rw [candidates, candidates, tagged, blocks_cons (splitFence_closed hb _) hclose, hblock]
  rfl

end BrowserActions.Reply
