import Mathlib
import BrowserActions.Proofs.Action.Record
import BrowserActions.Proofs.Reply.Tagged

/-!
# Replies that say given actions

A list of actions, written as an array of records, is read back as that list, bare or in a tagged
block. Only three backticks in a row inside one of its texts end the block early, and then nothing
is read at all.
-/
namespace BrowserActions.Reply

open Text

/-- The text of the records that say some actions. -/
def written (actions : List (Action Operation)) : List Char :=
  (Json.array (actions.map Action.toRecord)).compact

theorem exact_records (actions : List (Action Operation)) :
    Json.ItemsExact (actions.map Action.toRecord) := by
  apply Json.itemsExact_of_forall
  intro v hv
  obtain ⟨action, -, rfl⟩ := List.mem_map.mp hv
  exact exact_toRecord action

theorem depth_records (actions : List (Action Operation)) :
    Json.itemsDepth (actions.map Action.toRecord) ≤ 3 := by
  apply Json.itemsDepth_le
  intro v hv
  obtain ⟨action, -, rfl⟩ := List.mem_map.mp hv
  exact (depth_toRecord action).le

theorem read_written (actions : List (Action Operation)) :
    Json.read? (written actions) = some (.array (actions.map fun a => a.toRecord.ordered)) := by
  have hexact : (Json.array (actions.map Action.toRecord)).Exact := exact_records actions
  have hdepth : (Json.array (actions.map Action.toRecord)).depth ≤ Json.deepest := by
    have := depth_records actions
    rw [Json.depth, Json.deepest]
    omega
  rw [written, Json.read_compact hexact hdepth, Json.ordered, Json.orderedItems_eq_map,
    List.map_map]
  rfl

theorem written_brackets (actions : List (Action Operation)) :
    ∃ body, written actions = '[' :: (body ++ [']']) := by
  cases actions with
  | nil => exact ⟨[], rfl⟩
  | cons action rest => exact ⟨_, rfl⟩

theorem tight_written (actions : List (Action Operation)) : Tight (written actions) := by
  obtain ⟨body, h⟩ := written_brackets actions
  rw [h]
  refine ⟨fun c hc => ?_, fun c hc => ?_⟩
  · obtain rfl : '[' = c := by simpa using hc
    decide
  · obtain rfl : ']' = c := by simpa [List.getLast?_cons, List.getLast?_append] using hc
    decide

theorem last_written (actions : List (Action Operation)) :
    (written actions).getLast? ≠ some '\x60' := by
  obtain ⟨body, h⟩ := written_brackets actions
  simp [h, List.getLast?_cons, List.getLast?_append]

theorem actions_of_value {cs : List Char} {actions : List (Action Operation)}
    (h : value cs = .ok (.array (actions.map fun a => a.toRecord.ordered))) :
    Reply.actions (String.ofList cs) = .ok actions := by
  rw [Reply.actions, String.toList_ofList, parse, records, h]
  exact assemble_toRecord actions

theorem actions_of_fault {cs : List Char} {e : Failure} (h : value cs = .error e) :
    Reply.actions (String.ofList cs) = .error e := by
  rw [Reply.actions, String.toList_ofList, parse, records, h]
  rfl

theorem actions_written (actions : List (Action Operation)) :
    Reply.actions (String.ofList (written actions)) = .ok actions := by
  apply actions_of_value
  rw [value, read_written]

variable {before w₁ w₂ : List Char}

theorem actions_tagged (hb : ∀ c ∈ before, c ≠ '\x60' ∧ c ≠ '"')
    (h₁ : ∀ c ∈ w₁, isBlank c = true) (h₂ : ∀ c ∈ w₂, isBlank c = true)
    {actions : List (Action Operation)} (hf : ¬ fence <:+: written actions) (after : List Char) :
    Reply.actions (String.ofList (tagged before (w₁ ++ written actions ++ w₂) after)) =
      .ok actions := by
  have hclosed : Closed (w₁ ++ written actions ++ w₂) :=
    ((closed_of_blank h₁).append ⟨hf, last_written actions⟩).append (closed_of_blank h₂)
  apply actions_of_value
  rw [value_tagged hb (splitFence_closed hclosed after), trim_around h₁ h₂ (tight_written actions),
    valueOf, read_written]

theorem actions_cut (hb : ∀ c ∈ before, c ≠ '\x60' ∧ c ≠ '"')
    (h₁ : ∀ c ∈ w₁, isBlank c = true) {actions : List (Action Operation)}
    (hf : fence <:+: written actions) (w₂ after : List Char) :
    Reply.actions (String.ofList (tagged before (w₁ ++ written actions ++ w₂) after)) =
      .error .noJson := by
  obtain ⟨⟨a, b⟩, hsplit⟩ : ∃ p, splitFence (written actions) = some p :=
    Option.ne_none_iff_exists'.mp fun hnone => splitFence_eq_none.mp hnone hf
  have hwritten := splitFence_eq_some hsplit
  have hbody : splitFence (w₁ ++ written actions ++ w₂ ++ (fence ++ after)) =
      some (w₁ ++ a, b ++ (w₂ ++ (fence ++ after))) := by
    rw [List.append_assoc, List.append_assoc, splitFence_append (closed_of_blank h₁),
      splitFence_extend hsplit]
    rfl
  have hstart : trimStart a = a := by
    obtain ⟨body, hbrackets⟩ := written_brackets actions
    rw [hbrackets] at hwritten
    cases a with
    | nil => simp [fence] at hwritten
    | cons c a =>
      obtain ⟨rfl, -⟩ := List.cons.inj hwritten
      exact trimStart_of_head fun d hd => by
        obtain rfl : '[' = d := by simpa using hd
        decide
  have hcut : Json.read? (trimEnd a) = none := by
    have hread := read_written actions
    rw [hwritten] at hread
    exact Json.read_cut hread
  apply actions_of_fault
  rw [value_tagged hb hbody, trim, trimStart_blank_append h₁, hstart, valueOf, hcut]

/-- Written actions are read back, bare or in a tagged block with blank characters around them,
unless three backticks in a row inside them end the block; then there is no JSON in the reply. -/
theorem written_round_trip (actions : List (Action Operation)) :
    Reply.actions (String.ofList (written actions)) = .ok actions ∧
    ∀ before w₁ w₂ after : List Char, (∀ c ∈ before, c ≠ '\x60' ∧ c ≠ '"') →
      (∀ c ∈ w₁, isBlank c = true) → (∀ c ∈ w₂, isBlank c = true) →
      (¬ fence <:+: written actions →
        Reply.actions (String.ofList (tagged before (w₁ ++ written actions ++ w₂) after)) =
          .ok actions) ∧
      (fence <:+: written actions →
        Reply.actions (String.ofList (tagged before (w₁ ++ written actions ++ w₂) after)) =
            .error .noJson ∧
          Failure.noJson.message = "Response does not contain valid JSON") := by
  refine ⟨actions_written actions, fun before w₁ w₂ after hb h₁ h₂ => ⟨fun hf => ?_, fun hf => ?_⟩⟩
  · exact actions_tagged hb h₁ h₂ hf after
  · exact ⟨actions_cut hb h₁ hf w₂ after, rfl⟩

def fenceQuoted : List (Action Operation) := [⟨some "a \x60\x60\x60", .back⟩]

def fenceAvoided : List (Action Operation) := [⟨none, .setValue "//a" "\x60\x60\"\x60\\"⟩]

theorem written_round_trip_backticks :
    (¬ fence <:+: written fenceAvoided ∧
      Reply.actions (String.ofList
        (tagged ['O', 'k'] (['\n'] ++ written fenceAvoided ++ ['\u00a0']) ['\x60'])) =
          .ok fenceAvoided) ∧
    fence <:+: written fenceQuoted ∧
      Reply.actions (String.ofList
        (tagged ['O', 'k'] (['\n'] ++ written fenceQuoted ++ ['\u00a0']) ['\x60'])) =
          .error .noJson := by
  have hf : ¬ fence <:+: written fenceAvoided := by decide +kernel
  have hq : fence <:+: written fenceQuoted := by decide +kernel
  have hb : ∀ c ∈ ['O', 'k'], c ≠ '\x60' ∧ c ≠ '"' := by simp
  have hblank : ∀ w : Char, isBlank w = true → ∀ c ∈ [w], isBlank c = true := by
    intro w hw c hc
    rwa [List.mem_singleton.mp hc]
  have hsplit := fun actions => (written_round_trip actions).2 ['O', 'k'] ['\n'] ['\u00a0']
    ['\x60'] hb (hblank _ (by decide)) (hblank _ (by decide))
  exact ⟨⟨hf, (hsplit fenceAvoided).1 hf⟩, hq, ((hsplit fenceQuoted).2 hq).1⟩

end BrowserActions.Reply
