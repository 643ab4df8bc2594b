import BrowserActions.Failure
import BrowserActions.Operation.Basic

/-!
# Actions

An action is an operation together with the thought that led to it. A record is a JSON value that
should say an action. Records become actions all together or not at all: the first record that is
rejected decides.
-/
namespace BrowserActions

structure Action (Op : Type) where
  thought : Option String
  operation : Op
  deriving DecidableEq, Repr

namespace Action

variable {Op : Type}

/-- A thought that is no string is kept as its JSON text. -/
def thoughtOf (record : Json) : Option String :=
  match record.given? "thought" with
  | none => none
  | some (.string s) => some s
  | some other => some other.text

def ofRecord (schema : OperationSchema Op) (record : Json) : Except Failure (Action Op) :=
  match record.given? "action" with
  | none => .error (.rejected .actionRequired record)
  | some raw =>
    match schema.validate raw with
    | .ok operation => .ok ⟨thoughtOf record, operation⟩
    | .error issues => .error (.rejected (.invalid issues) record)

def assemble (schema : OperationSchema Op) (records : List Json) :
    Except Failure (List (Action Op)) :=
  records.mapM (ofRecord schema)

def toJson (action : Action Operation) : Json :=
  .object [
    ("thought", match action.thought with
      | none => .null
      | some s => .string s),
    ("operation", action.operation.toJson)]

def listToJson (actions : List (Action Operation)) : Json := .array (actions.map toJson)

end Action
end BrowserActions
