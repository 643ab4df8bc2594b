import Mathlib
import BrowserActions.Action.Basic
import BrowserActions.Proofs.Schema.Written

/-!
# Records that say given actions

Each action has a record, and records that were written and read back are assembled to the
actions they say.
-/
namespace BrowserActions

open Json (depth membersDepth ordered given_ordered_some given_ordered_null)
open BrowserOperations

def Action.toRecord (action : Action Operation) : Json :=
  .object [
    ("action", action.operation.toJson),
    ("thought", match action.thought with
      | none => .null
      | some s => .string s)]

theorem exact_toRecord (action : Action Operation) : action.toRecord.Exact := by
  obtain ⟨_ | thought, operation⟩ := action <;>
    exact ⟨⟨trivial, exact_arguments operation, trivial⟩, trivial, trivial⟩

theorem depth_toRecord (action : Action Operation) : action.toRecord.depth = 3 := by
  obtain ⟨_ | thought, operation⟩ := action <;>
    simp [Action.toRecord, Operation.toJson, depth, membersDepth, depth_arguments]

theorem ofRecord_toRecord (action : Action Operation) :
    Action.ofRecord BrowserOperations.schema action.toRecord.ordered = .ok action := by
  have haction : action.toRecord.ordered.given? "action" = some action.operation.toJson.ordered :=
    given_ordered_some rfl rfl nofun
  have hthought : Action.thoughtOf action.toRecord.ordered = action.thought := by
    obtain ⟨_ | s, operation⟩ := action
    · rw [Action.thoughtOf, Action.toRecord, given_ordered_null rfl]
    · have hs : (Action.toRecord ⟨some s, operation⟩).ordered.given? "thought" = some (.string s) :=
        given_ordered_some rfl rfl nofun
      rw [Action.thoughtOf, hs]
  rw [Action.ofRecord, haction]
  dsimp only [BrowserOperations.schema]
  rw [validate_ordered, hthought]

theorem assemble_toRecord (actions : List (Action Operation)) :
    Action.assemble BrowserOperations.schema (actions.map fun a => a.toRecord.ordered) =
      .ok actions := by
  induction actions with
  | nil => rfl
  | cons action rest ih =>
    rw [Action.assemble, List.map_cons, List.mapM_cons, ofRecord_toRecord]
    rw [Action.assemble] at ih
    rw [ih]
    rfl

end BrowserActions
