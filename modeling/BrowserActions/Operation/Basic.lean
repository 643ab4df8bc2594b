import BrowserActions.Json.Basic

/-!
# Browser operations

The things that can be done to a page. An operation is written as an object with its name and
its arguments.
-/
namespace BrowserActions

inductive Direction where
  | up
  | down
  deriving DecidableEq, Repr

inductive Operation where
  | click (xpath : String)
  | hover (xpath : String)
  | setValue (xpath value : String)
  | setValueAndEnter (xpath value : String)
  | scroll (direction : Direction) (amount : Option UInt64)
  | navigate (url : String)
  | back
  | forward
  | wait (durationMs : UInt64)
  deriving DecidableEq, Repr

def Direction.name : Direction → String
  | .up => "up"
  | .down => "down"

def Direction.all : List Direction := [.up, .down]
def Direction.names : List String := all.map name
def Direction.ofName? (s : String) : Option Direction := all.find? (·.name = s)

namespace Operation

inductive Kind where
  | click
  | hover
  | setValue
  | setValueAndEnter
  | scroll
  | navigate
  | back
  | forward
  | wait
  deriving DecidableEq, Repr

namespace Kind

def all : List Kind :=
  [.click, .hover, .setValue, .setValueAndEnter, .scroll, .navigate, .back, .forward, .wait]

def name : Kind → String
  | .click => "click"
  | .hover => "hover"
  | .setValue => "setValue"
  | .setValueAndEnter => "setValueAndEnter"
  | .scroll => "scroll"
  | .navigate => "navigate"
  | .back => "back"
  | .forward => "forward"
  | .wait => "wait"

def names : List String := all.map name
def ofName? (s : String) : Option Kind := all.find? (·.name = s)

end Kind

def kind : Operation → Kind
  | .click _ => .click
  | .hover _ => .hover
  | .setValue _ _ => .setValue
  | .setValueAndEnter _ _ => .setValueAndEnter
  | .scroll _ _ => .scroll
  | .navigate _ => .navigate
  | .back => .back
  | .forward => .forward
  | .wait _ => .wait

/-- An amount that is not given is left out. -/
def arguments : Operation → List (String × Json)
  | .click xpath | .hover xpath => [("xpath", .string xpath)]
  | .setValue xpath value | .setValueAndEnter xpath value =>
    [("xpath", .string xpath), ("value", .string value)]
  | .scroll direction none => [("direction", .string direction.name)]
  | .scroll direction (some amount) =>
    [("direction", .string direction.name), ("amount", .integer amount.toNat)]
  | .navigate url => [("url", .string url)]
  | .back | .forward => []
  | .wait durationMs => [("duration_ms", .integer durationMs.toNat)]

def toJson (op : Operation) : Json :=
  .object [("name", .string op.kind.name), ("args", .object op.arguments)]

end Operation
end BrowserActions
