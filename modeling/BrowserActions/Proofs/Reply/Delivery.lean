import Mathlib
import BrowserActions.Proofs.Json.Kind
import BrowserActions.Proofs.Reply.First
import BrowserActions.Proofs.Reply.Pairs

/-!
# What can deliver actions

Records come from a reply that is an array as a whole, or from a first candidate that is tagged and
begins like an array. An untagged candidate begins like an object, so it is never an array.
-/
namespace BrowserActions.Reply

open Text

variable {cs : List Char} {b : Block} {more : List Block} {v : Json} {items : List Json} {c : Char}

theorem space_of_not_blank (h : isBlank c = false) : Json.isSpace c = false := by
  cases hc : Json.isSpace c with
  | false => rfl
  | true =>
    have hspace : c = ' ' ∨ c = '\t' ∨ c = '\n' ∨ c = '\r' := by
      simpa [Json.isSpace, or_assoc] using hc
    rcases hspace with rfl | rfl | rfl | rfl <;> exact absurd h (by decide)

theorem head_of_read (htight : Tight cs) (h : Json.read? cs = some v) :
    ∃ c ∈ cs.head?, v.kind = Json.Kind.ofFirst c := by
  cases cs with
  | nil => cases h
  | cons c cs => exact ⟨c, rfl, Json.kind_of_read (space_of_not_blank (htight.1 c rfl)) h⟩

theorem head_of_array (htight : Tight cs) (h : Json.read? cs = some (.array items)) :
    cs.head? = some '[' := by
  obtain ⟨c, hc, hkind⟩ := head_of_read htight h
  rw [Option.mem_def] at hc
  by_cases hbracket : c = '['
  · rw [hc, hbracket]
  · rw [Json.Kind.ofFirst, if_neg hbracket] at hkind
    split at hkind <;> cases hkind

theorem recordsIn_untagged (hc : b.isCandidate = true) (ht : b.tagged = false)
    (htight : Tight b.body) :
    recordsIn b.body =
      .error (if (Json.read? b.body).isSome then .notAnArray else .noJson) := by
  have hhead : b.body.head? = some '\x7b' := by
    simpa [Block.isCandidate, ht] using hc
  cases hread : Json.read? b.body with
  | none =>
    rw [recordsIn, hread]
    rfl
  | some v =>
    rw [recordsIn, hread]
    cases v with
    | array items =>
      rw [head_of_array htight hread] at hhead
      cases hhead
    | _ => rfl

theorem first_candidate (h : (candidates cs).head? = some b) :
    b.isCandidate = true ∧ Tight b.body := by
  obtain ⟨hblock, hcandidate⟩ := List.mem_filter.mp (List.mem_of_mem_head? h)
  exact ⟨hcandidate, (within_block hblock).2.2⟩

theorem records_untagged (hread : Json.read? cs = none) (h : (candidates cs).head? = some b)
    (ht : b.tagged = false) :
    records cs = .error (if (Json.read? b.body).isSome then .notAnArray else .noJson) := by
  obtain ⟨hcandidate, htight⟩ := first_candidate h
  rw [records_of_candidate hread h, recordsIn_untagged hcandidate ht htight]

theorem records_without_candidate (hread : Json.read? cs = none)
    (h : (candidates cs).head? = none) : records cs = .error .noJson := by
  have hvalue : value cs = valueOf cs := by
    simp only [value, valueOf, hread, List.head?_eq_none_iff.mp h]
  rw [records_of_value hvalue, recordsIn, hread]

theorem delivers_iff : records cs = .ok items ↔
    Json.read? cs = some (.array items) ∨
    Json.read? cs = none ∧ ∃ b, (candidates cs).head? = some b ∧ b.tagged = true ∧
      b.body.head? = some '[' ∧ Json.read? b.body = some (.array items) := by
  cases hread : Json.read? cs with
  | some v =>
    rw [records_of_read hread, recordsIn_eq_ok, hread]
    exact ⟨.inl, fun h => h.resolve_right fun hno => nomatch hno.1⟩
  | none =>
    refine ⟨fun h => .inr ⟨rfl, ?_⟩, ?_⟩
    · cases hfirst : (candidates cs).head? with
      | none =>
        rw [records_without_candidate hread hfirst] at h
        cases h
      | some b =>
        have ht : b.tagged = true := by
          by_contra ht
          rw [records_untagged hread hfirst (Bool.eq_false_iff.mpr ht)] at h
          cases h
        rw [records_of_candidate hread hfirst, recordsIn_eq_ok] at h
        exact ⟨b, rfl, ht, head_of_array (first_candidate hfirst).2 h, h⟩
    · rintro (h | ⟨-, b, hfirst, -, -, hitems⟩)
      · cases h
      · rw [records_of_candidate hread hfirst, recordsIn_eq_ok, hitems]

/-- An untagged first candidate delivers nothing, whatever stands behind it. Records come from a
reply that is an array itself, or from a tagged first candidate that is one. -/
theorem only_tagged_delivers (cs : List Char) :
    (∀ b, Json.read? cs = none → (candidates cs).head? = some b → b.tagged = false →
      records cs = .error (if (Json.read? b.body).isSome then .notAnArray else .noJson)) ∧
    (∀ items, records cs = .ok items ↔
      Json.read? cs = some (.array items) ∨
      Json.read? cs = none ∧ ∃ b, (candidates cs).head? = some b ∧ b.tagged = true ∧
        b.body.head? = some '[' ∧ Json.read? b.body = some (.array items)) ∧
    Failure.notAnArray.message = "Response JSON is not an array of actions" ∧
    Failure.noJson.message = "Response does not contain valid JSON" :=
  ⟨fun _ hread hfirst ht => records_untagged hread hfirst ht, fun _ => delivers_iff, rfl, rfl⟩

/-- An object in front of a tagged array, and an untagged array in front of it. -/
theorem only_tagged_delivers_array :
    let object := ("So \x60\x60\x60\x7b\"a\": [1]\x7d\x60\x60\x60, " ++
      "or \x60\x60\x60json[]\x60\x60\x60").toList
    let array := ("So \x60\x60\x60[1]\x60\x60\x60, " ++
      "or \x60\x60\x60json [\x7b\x7d] \x60\x60\x60").toList
    records object = .error .notAnArray ∧ records array = .ok [.object []] := by
  intro object array
  constructor
  · have hread : Json.read? object = none := Option.isNone_iff_eq_none.mp (by decide +kernel)
    have hfirst : (candidates object).head? = some ⟨false, "\x7b\"a\": [1]\x7d".toList⟩ := by
      decide +kernel
    have herror := (only_tagged_delivers object).1 _ hread hfirst rfl
    rwa [if_pos (by decide +kernel)] at herror
  · have hread : Json.read? array = none := Option.isNone_iff_eq_none.mp (by decide +kernel)
    have hfirst : (candidates array).head? = some ⟨true, "[\x7b\x7d]".toList⟩ := by decide +kernel
    have hitems : Json.read? "[\x7b\x7d]".toList = some (.array [.object []]) := rfl
    exact ((only_tagged_delivers array).2.1 _).mpr (.inr ⟨hread, _, hfirst, rfl, rfl, hitems⟩)

end BrowserActions.Reply
