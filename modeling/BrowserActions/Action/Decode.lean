import BrowserActions.Action.Basic
import BrowserActions.Operation.Decode

/-!
# Reading actions
-/
namespace BrowserActions.Action

open Decode

structure Told where
  thought : Option (Option String) := none
  operation : Option Operation := none
  deriving DecidableEq, Repr

/-- An action without a thought need not mention it, unless it is written as an array. -/
def record (room : Nat) : Record Told (Action Operation) where
  title := "struct Action"
  start := {}
  members := [
    ⟨"thought", false, (·.thought.isSome), fun t d => do
      pure { t with thought := some (← optional string d) }⟩,
    ⟨"operation", false, (·.operation.isSome), fun t d => do
      pure { t with operation := some (← Operation.decode (room - 1) d) }⟩]
  finish t := do pure ⟨t.thought.getD none, ← wanted "operation" t.operation⟩

def decode (room : Nat) (d : Draft) : Result (Action Operation) := (record room).decode true d

def decodeList (room : Nat) (d : Draft) : Result (List (Action Operation)) :=
  sequence (decode (room - 1)) d

end BrowserActions.Action
