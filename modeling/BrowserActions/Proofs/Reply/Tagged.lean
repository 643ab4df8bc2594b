import Mathlib
import BrowserActions.Proofs.Reply.Fence

/-!
# Tagged payloads

A payload in a tagged block says what it says alone. The text around it cannot make the whole
reply JSON: its first backtick stands outside any string.
-/
namespace BrowserActions.Reply

open Text

variable {before inside : List Char}

/-- What is told of a candidate block, or of a text without fences. -/
def valueOf (body : List Char) : Except Failure Json :=
  match Json.read? body with
  | some v => .ok v
  | none => .error .noJson

theorem value_of_candidate {cs : List Char} {block : Block} {more : List Block}
    (hr : Json.read? cs = none) (hc : candidates cs = block :: more) :
    value cs = valueOf block.body := by
  cases hv : Json.read? block.body <;> simp only [value, valueOf, hr, hc, hv]

theorem value_without_fence {cs : List Char} (h : ¬ fence <:+: cs) : value cs = valueOf cs := by
  have hc : candidates cs = [] := by
    rw [candidates, blocks_nil (splitFence_eq_none.mpr h)]
    rfl
  cases hv : Json.read? cs <;> simp only [value, valueOf, hc, hv]

theorem read_tagged (hb : ∀ c ∈ before, c ≠ '"') (inside after : List Char) :
    Json.read? (tagged before inside after) = none :=
  Json.read_backtick_outside hb _

theorem value_tagged (hb : ∀ c ∈ before, c ≠ '\x60' ∧ c ≠ '"') {after body rest : List Char}
    (hs : splitFence (inside ++ (fence ++ after)) = some (body, rest)) :
    value (tagged before inside after) = valueOf (trim body) :=
  value_of_candidate (read_tagged (fun c hc => (hb c hc).2) _ _)
    (candidates_tagged (closed_of_no_backtick fun c hc => (hb c hc).1) hs)

/-- Fenced and bare payloads are read alike, and the reply as a whole is not read at all. -/
theorem tagged_as_bare (hb : ∀ c ∈ before, c ≠ '\x60' ∧ c ≠ '"') (hf : ¬ fence <:+: inside)
    (hl : inside.getLast? ≠ some '\x60') (after : List Char) :
    Json.read? (tagged before inside after) = none ∧
      records (tagged before inside after) = records (trim inside) := by
  refine ⟨read_tagged (fun c hc => (hb c hc).2) _ _, ?_⟩
  have htrim : ¬ fence <:+: trim inside := fun h => hf (h.trans (trim_within inside))
  rw [records, records, value_tagged hb (splitFence_closed ⟨hf, hl⟩ after),
    value_without_fence htrim]

theorem tagged_as_bare_object :
    Json.read? (tagged ['O', 'k', ':'] [' ', '\x7b', '\x7d', '\u00a0'] ['\x60']) = none ∧
      records (tagged ['O', 'k', ':'] [' ', '\x7b', '\x7d', '\u00a0'] ['\x60']) =
        records (trim [' ', '\x7b', '\x7d', '\u00a0']) :=
  tagged_as_bare (by simp) (by decide) (by decide) _

end BrowserActions.Reply
