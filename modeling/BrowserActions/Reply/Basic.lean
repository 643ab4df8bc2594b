import BrowserActions.Action.Basic
import BrowserActions.Json.Reader
import BrowserActions.Reply.Fence
import BrowserActions.Schema.Browser

/-!
# Replies

A reply holds an array of records, either as the whole text or in its first candidate block. The
blocks behind that one are never looked at.
-/
namespace BrowserActions.Reply

def value (reply : List Char) : Except Failure Json :=
  match Json.read? reply with
  | some v => .ok v
  | none =>
    match candidates reply with
    | [] => .error .noJson
    | block :: _ =>
      match Json.read? block.body with
      | some v => .ok v
      | none => .error .noJson

def records (reply : List Char) : Except Failure (List Json) := do
  match ← value reply with
  | .array items => pure items
  | _ => throw .notAnArray

def parse {Op : Type} (schema : OperationSchema Op) (reply : List Char) :
    Except Failure (List (Action Op)) := do
  Action.assemble schema (← records reply)

def actions (reply : String) : Except Failure (List (Action Operation)) :=
  parse BrowserOperations.schema reply.toList

end BrowserActions.Reply
