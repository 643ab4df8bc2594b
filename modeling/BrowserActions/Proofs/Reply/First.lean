import Mathlib
import BrowserActions.Proofs.Reply.Tagged

/-!
# The first candidate

Paired fences stay paired whatever is put behind a text, so the blocks of a text are the first
blocks of every longer one. A reply that is no JSON is read from its first candidate alone: once a
text has a candidate, nothing that follows it counts.
-/
namespace BrowserActions.Reply

open Text

variable {cs : List Char} {b : Block} {more : List Block} {v : Json} {items : List Json}

theorem blocks_append (cs after : List Char) : blocks cs <+: blocks (cs ++ after) := by
  induction cs using blocks.induct with
  | case1 cs hopen =>
    rw [blocks_nil hopen]
    exact List.nil_prefix
  | case2 cs before inside hopen hclose =>
    rw [blocks_unclosed hopen hclose]
    exact List.nil_prefix
  | case3 cs before inside hopen body rest hclose hlength ih =>
    rw [blocks_cons hopen hclose,
      blocks_cons (splitFence_extend hopen after) (splitFence_extend hclose after)]
    exact List.cons_prefix_cons.mpr ⟨rfl, ih⟩

theorem candidates_append (cs after : List Char) : candidates cs <+: candidates (cs ++ after) :=
  (blocks_append cs after).filter _

theorem head_candidates_append (h : candidates cs = b :: more) (after : List Char) :
    (candidates (cs ++ after)).head? = some b := by
  obtain ⟨later, hlater⟩ := candidates_append cs after
  rw [← hlater, h]
  rfl

/-- The records that a block holds. -/
def recordsIn (body : List Char) : Except Failure (List Json) :=
  match Json.read? body with
  | some (.array items) => .ok items
  | some _ => .error .notAnArray
  | none => .error .noJson

theorem recordsIn_eq_ok {body : List Char} :
    recordsIn body = .ok items ↔ Json.read? body = some (.array items) := by
  rw [recordsIn]
  constructor
  · intro h
    split at h
    next hread =>
      cases h
      exact hread
    · cases h
    · cases h
  · intro h
    rw [h]

theorem records_of_value {body : List Char} (h : value cs = valueOf body) :
    records cs = recordsIn body := by
  rw [records, h, valueOf, recordsIn]
  cases Json.read? body with
  | none => rfl
  | some v => cases v <;> rfl

theorem records_of_read (h : Json.read? cs = some v) : records cs = recordsIn cs := by
  refine records_of_value ?_
  simp only [value, valueOf, h]

theorem records_of_candidate (hread : Json.read? cs = none)
    (h : (candidates cs).head? = some b) : records cs = recordsIn b.body := by
  obtain ⟨more, hcandidates⟩ := List.head?_eq_some_iff.mp h
  exact records_of_value (value_of_candidate hread hcandidates)

/-- What stands behind the first candidate has no part in the records, and none in the fault. -/
theorem later_text_ignored {p : List Char} (hp : candidates p ≠ []) (s₁ s₂ : List Char)
    (h₁ : Json.read? (p ++ s₁) = none) (h₂ : Json.read? (p ++ s₂) = none) :
    records (p ++ s₁) = records (p ++ s₂) ∧
    ∃ b, (candidates p).head? = some b ∧ (candidates (p ++ s₁)).head? = some b ∧
      (candidates (p ++ s₂)).head? = some b := by
  obtain ⟨b, more, hb⟩ := List.exists_cons_of_ne_nil hp
  have hfirst := head_candidates_append hb s₁
  have hsecond := head_candidates_append hb s₂
  refine ⟨?_, b, by rw [hb]; rfl, hfirst, hsecond⟩
  rw [records_of_candidate h₁ hfirst, records_of_candidate h₂ hsecond]

/-- The first candidate is malformed. The two backticks behind it stay alone, or what follows makes
a fence of them that opens a whole array. -/
theorem later_text_ignored_malformed :
    let p := ("No \x60\x60\x60 list \x60\x60\x60 " ++
      "but \x60\x60\x60json[oops\x60\x60\x60 \x60\x60").toList
    let s₁ := "\x60json[]\x60\x60\x60".toList
    let s₂ := " [1]".toList
    records (p ++ s₁) = records (p ++ s₂) ∧
    ∃ b, (candidates p).head? = some b ∧ (candidates (p ++ s₁)).head? = some b ∧
      (candidates (p ++ s₂)).head? = some b := by
  intro p s₁ s₂
  have hp : candidates p ≠ [] := by decide +kernel
  have h₁ : Json.read? (p ++ s₁) = none := Option.isNone_iff_eq_none.mp (by decide +kernel)
  have h₂ : Json.read? (p ++ s₂) = none := Option.isNone_iff_eq_none.mp (by decide +kernel)
  exact later_text_ignored hp s₁ s₂ h₁ h₂

end BrowserActions.Reply
