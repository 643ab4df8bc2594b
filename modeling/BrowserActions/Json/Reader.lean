import BrowserActions.Json.Basic
import BrowserActions.Json.Token
import BrowserActions.Draft

/-!
# Reading JSON

Tokens are put together into a draft, and a draft that is whole is a value. Of members with one
name the last counts, and the members of a value ascend by name. Arrays and objects nest at most
127 deep.
-/
namespace BrowserActions.Json

abbrev Entry := Option String × Draft

/-- An array or object that is being read, around the place where the reading stands. What was
read already is kept last one first. -/
inductive Frame where
  | array (before : List Draft)
  | object (before : List Entry) (name : Option String)

inductive Place where
  /-- A value has to come. -/
  | value
  /-- An array has just been opened. -/
  | item
  /-- A name has to come; directly behind the opening brace the object may also end. -/
  | key (opened : Bool) (before : List Entry)
  | colon (before : List Entry) (name : Option String)
  | behind (v : Draft)

structure Building where
  frames : List Frame
  place : Place

/-- What the frame amounts to if the reading stops inside it. -/
def Frame.cut (inner : Draft) : Frame → Draft
  | .array before => .array (before.reverse ++ [inner]) false
  | .object before name => .object (before.reverse ++ [(name, inner)]) false

def Place.cut : Place → Draft
  | .value => .broken
  | .item => .array [] false
  | .key _ before => .object before.reverse false
  | .colon before name => .object (before.reverse ++ [(name, .broken)]) false
  | .behind v => v

def Building.cut (b : Building) : Draft :=
  match b.frames, b.place with
  | .array before :: frames, .behind v =>
    frames.foldl Frame.cut (.array (before.reverse ++ [v]) false)
  | .object before name :: frames, .behind v =>
    frames.foldl Frame.cut (.object (before.reverse ++ [(name, v)]) false)
  | frames, place => frames.foldl Frame.cut place.cut

/-- The value that a token opens or is, put at a place that expects a value. -/
def Building.put (frames : List Frame) : Token → Option Building
  | .openArray => some ⟨frames, .item⟩
  | .openObject => some ⟨frames, .key true []⟩
  | .null => some ⟨frames, .behind .null⟩
  | .bool b => some ⟨frames, .behind (.bool b)⟩
  | .number (.integer n) => some ⟨frames, .behind (.integer n)⟩
  | .number (.double x) => some ⟨frames, .behind (.real (.finite x))⟩
  | .oversized | .unpaired => some ⟨frames, .behind .unusable⟩
  | .string s => some ⟨frames, .behind (.string s)⟩
  | .closeArray | .closeObject | .comma | .colon | .broken => none

def Building.step (b : Building) (t : Token) : Option Building :=
  match b.place with
  | .value => put b.frames t
  | .item =>
    if t = .closeArray then some ⟨b.frames, .behind (.array [] true)⟩
    else put (.array [] :: b.frames) t
  | .key opened before =>
    match t with
    | .string s => some ⟨b.frames, .colon before (some s)⟩
    | .unpaired => some ⟨b.frames, .colon before none⟩
    | .closeObject =>
      if opened then some ⟨b.frames, .behind (.object before.reverse true)⟩ else none
    | _ => none
  | .colon before name =>
    if t = .colon then some ⟨.object before name :: b.frames, .value⟩ else none
  | .behind v =>
    match b.frames, t with
    | .array before :: frames, .comma => some ⟨.array (v :: before) :: frames, .value⟩
    | .array before :: frames, .closeArray =>
      some ⟨frames, .behind (.array (v :: before).reverse true)⟩
    | .object before name :: frames, .comma => some ⟨frames, .key false ((name, v) :: before)⟩
    | .object before name :: frames, .closeObject =>
      some ⟨frames, .behind (.object ((name, v) :: before).reverse true)⟩
    | _, _ => none

/-- The draft of a text, and whether the text is one value and nothing else. -/
structure Reading where
  draft : Draft
  whole : Bool

def Building.run (b : Building) : List Token → Reading
  | [] =>
    match b.frames, b.place with
    | [], .behind v => ⟨v, true⟩
    | _, _ => ⟨b.cut, false⟩
  | t :: ts =>
    match b.step t with
    | some b => b.run ts
    | none => ⟨b.cut, false⟩

def reading (cs : List Char) : Reading := Building.run ⟨[], .value⟩ (tokens cs)

end BrowserActions.Json

namespace BrowserActions.Draft

mutual

/-- The JSON value of a draft in which everything is usable and nothing nests deeper than `room`. -/
def value? (room : Nat) : Draft → Option Json
  | .null => some .null
  | .bool b => some (.bool b)
  | .integer n => some (.integer n)
  | .real (.finite x) => some (.double x)
  | .real _ => none
  | .string s => some (.string s)
  | .array items closed =>
    if closed && room != 0 then (values? (room - 1) items).map .array else none
  | .object members closed =>
    if closed && room != 0 then
      (memberValues? (room - 1) members).map fun ms => .object (Keyed.ofList ms)
    else none
  | .unusable => none
  | .broken => none

def values? (room : Nat) : List Draft → Option (List Json)
  | [] => some []
  | d :: ds => do
    let v ← value? room d
    let vs ← values? room ds
    pure (v :: vs)

def memberValues? (room : Nat) : List (Option String × Draft) → Option (List (String × Json))
  | [] => some []
  | m :: ms => do
    let name ← m.1
    let v ← value? room m.2
    let vs ← memberValues? room ms
    pure ((name, v) :: vs)

end

end BrowserActions.Draft

namespace BrowserActions.Json

/-- How deep arrays and objects may nest. -/
def deepest : Nat := 127

def read? (cs : List Char) : Option Json :=
  let r := reading cs
  if r.whole then r.draft.value? deepest else none

end BrowserActions.Json
