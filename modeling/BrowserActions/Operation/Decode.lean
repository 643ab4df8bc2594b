import BrowserActions.Decode
import BrowserActions.Json.Reader
import BrowserActions.Operation.Basic

/-!
# Reading operations

An operation is an object with a name and arguments, or an array of the two, in which the name is
a plain string. Arguments that come before the name are held until the name says how to read them;
they have to be a JSON value then.
-/
namespace BrowserActions.Operation

open Decode

structure Told where
  xpath : Option String := none
  value : Option String := none
  direction : Option Direction := none
  amount : Option (Option UInt64) := none
  url : Option String := none
  durationMs : Option UInt64 := none
  deriving DecidableEq, Repr

def readVariant (held : Bool) (options : List String) (d : Draft) : Result String :=
  if held then heldVariant options d else variant options d

def readDirection (held : Bool) (d : Draft) : Result Direction := do
  wanted "direction" (Direction.ofName? (← readVariant held Direction.names d))

def xpathMember : Member Told :=
  ⟨"xpath", false, (·.xpath.isSome), fun t d => do pure { t with xpath := some (← string d) }⟩

def valueMember : Member Told :=
  ⟨"value", false, (·.value.isSome), fun t d => do pure { t with value := some (← string d) }⟩

def directionMember (held : Bool) : Member Told :=
  ⟨"direction", false, (·.direction.isSome), fun t d => do
    pure { t with direction := some (← readDirection held d) }⟩

def amountMember : Member Told :=
  ⟨"amount", false, (·.amount.isSome), fun t d => do
    pure { t with amount := some (← optional uint64 d) }⟩

def urlMember : Member Told :=
  ⟨"url", false, (·.url.isSome), fun t d => do pure { t with url := some (← string d) }⟩

def durationMember : Member Told :=
  ⟨"duration_ms", false, (·.durationMs.isSome), fun t d => do
    pure { t with durationMs := some (← uint64 d) }⟩

def Kind.members (held : Bool) : Kind → List (Member Told)
  | .click | .hover => [xpathMember]
  | .setValue | .setValueAndEnter => [xpathMember, valueMember]
  | .scroll => [directionMember held, amountMember]
  | .navigate => [urlMember]
  | .back | .forward => []
  | .wait => [durationMember]

def Kind.finish (t : Told) : Kind → Result Operation
  | .click => do pure (.click (← wanted "xpath" t.xpath))
  | .hover => do pure (.hover (← wanted "xpath" t.xpath))
  | .setValue => do pure (.setValue (← wanted "xpath" t.xpath) (← wanted "value" t.value))
  | .setValueAndEnter => do
    pure (.setValueAndEnter (← wanted "xpath" t.xpath) (← wanted "value" t.value))
  | .scroll => do pure (.scroll (← wanted "direction" t.direction) (t.amount.getD none))
  | .navigate => do pure (.navigate (← wanted "url" t.url))
  | .back => pure .back
  | .forward => pure .forward
  | .wait => do pure (.wait (← wanted "duration_ms" t.durationMs))

def Kind.title : Kind → String
  | .click => "struct variant Operation::Click"
  | .hover => "struct variant Operation::Hover"
  | .setValue => "struct variant Operation::SetValue"
  | .setValueAndEnter => "struct variant Operation::SetValueAndEnter"
  | .scroll => "struct variant Operation::Scroll"
  | .navigate => "struct variant Operation::Navigate"
  | .back => "struct variant Operation::Back"
  | .forward => "struct variant Operation::Forward"
  | .wait => "struct variant Operation::Wait"

def Kind.record (held : Bool) (k : Kind) : Record Told Operation where
  title := k.title
  start := {}
  members := k.members held
  finish t := k.finish t

def decodeKind (name : Result String) : Result Kind := do
  wanted "name" (Kind.ofName? (← name))

inductive Progress where
  | nothing
  | named (k : Kind)
  | held (args : Draft)
  | done (op : Operation)

/-- Whether an array or object may nest is counted from the outermost one; `room` levels are left
for the operation. -/
def Progress.step (room : Nat) (p : Progress) : Option String × Draft → Result Progress
  | (none, _) => throw .malformed
  | (some "name", d) =>
    match p with
    | .nothing => do pure (.named (← decodeKind (variant Kind.names d)))
    | .held args => do
      let k ← decodeKind (variant Kind.names d)
      pure (.done (← (k.record true).ofObject args))
    | .named _ | .done _ => throw (.duplicateField "name")
  | (some "args", d) =>
    match p with
    | .nothing => if (d.value? (room - 1)).isSome then pure (.held d) else throw .malformed
    | .named k => do pure (.done (← (k.record false).ofObject d))
    | .held _ | .done _ => throw (.duplicateField "args")
  | (some _, d) => if d.isWhole then pure p else throw .malformed

def Progress.finish : Progress → Result Operation
  | .nothing | .held _ => throw (.missingField "name")
  | .named _ => throw (.missingField "args")
  | .done op => pure op

def title : String := "adjacently tagged enum Operation"

def decode (room : Nat) : Draft → Result Operation
  | .object members closed => do
    let p ← members.foldlM (Progress.step room) .nothing
    if closed then p.finish else throw .malformed
  | .array items closed =>
    match items with
    | [] => throw (if closed then .invalidLength 0 title else .malformed)
    | first :: rest => do
      let k ← decodeKind (name Kind.names first)
      match rest with
      | [] => throw (if closed then .invalidLength 1 title else .malformed)
      | args :: more => do
        let op ← (k.record false).ofObject args
        if more.isEmpty && closed then pure op else throw .malformed
  | d => throw (mistyped title d)

end BrowserActions.Operation
