import BrowserActions.Draft
import BrowserActions.Text.Shown

/-!
# Reading typed values

A typed value is read from a draft in writing order, and the first fault found ends the reading.
A fault is either that the text is malformed where a reader has to look, or that it says
something other than what was wanted there. The error names both.

A record is read from an object or from an array that lists its members in order.
-/
namespace BrowserActions.Decode

open Number

/-- What stood where something else was wanted. -/
inductive Found where
  | null
  | bool (b : Bool)
  | integer (n : Int)
  | real (x : Extended)
  | string (s : String)
  | sequence
  | map
  deriving DecidableEq, Repr

inductive Error where
  | malformed
  | invalidType (found : Found) (wanted : String)
  | invalidValue (found : Found) (wanted : String)
  | invalidLength (length : Nat) (wanted : String)
  | unknownVariant (name : String) (options : List String)
  | missingField (name : String)
  | duplicateField (name : String)
  deriving DecidableEq, Repr

def ticked (s : String) : String := "`" ++ s ++ "`"

def Found.text (layout : Layout) : Found → String
  | .null => "null"
  | .bool b => "boolean " ++ ticked (if b then "true" else "false")
  | .integer n => "integer " ++ ticked (toString n)
  | .real x => "floating point " ++ ticked (String.ofList (x.render layout))
  | .string s => "string " ++ Text.shown s
  | .sequence => "sequence"
  | .map => "map"

def optionsText : List String → String
  | [a] => ticked a
  | [a, b] => ticked a ++ " or " ++ ticked b
  | options => "one of " ++ ", ".intercalate (options.map ticked)

/-- Malformed text has no message of its own. -/
def Error.message? (layout : Layout) : Error → Option String
  | .malformed => none
  | .invalidType found wanted =>
    some ("invalid type: " ++ found.text layout ++ ", expected " ++ wanted)
  | .invalidValue found wanted =>
    some ("invalid value: " ++ found.text layout ++ ", expected " ++ wanted)
  | .invalidLength length wanted =>
    some ("invalid length " ++ toString length ++ ", expected " ++ wanted)
  | .unknownVariant name options =>
    some ("unknown variant " ++ ticked name ++ ", expected " ++ optionsText options)
  | .missingField name => some ("missing field " ++ ticked name)
  | .duplicateField name => some ("duplicate field " ++ ticked name)

abbrev Result (α : Type) := Except Error α

def mistyped (wanted : String) : Draft → Error
  | .null => .invalidType .null wanted
  | .bool b => .invalidType (.bool b) wanted
  | .integer n => .invalidType (.integer n) wanted
  | .real x => .invalidType (.real x) wanted
  | .string s => .invalidType (.string s) wanted
  | .array _ _ => .invalidType .sequence wanted
  | .object _ _ => .invalidType .map wanted
  | .unusable | .broken => .malformed

def string : Draft → Result String
  | .string s => .ok s
  | d => .error (mistyped "a string" d)

def bool : Draft → Result Bool
  | .bool b => .ok b
  | d => .error (mistyped "a boolean" d)

def uint64 : Draft → Result UInt64
  | .integer n =>
    if 0 ≤ n ∧ n < UInt64.size then .ok (UInt64.ofNat n.toNat)
    else .error (.invalidValue (.integer n) "u64")
  | d => .error (mistyped "u64" d)

def uint32 : Draft → Result UInt32
  | .integer n =>
    if 0 ≤ n ∧ n < UInt32.size then .ok (UInt32.ofNat n.toNat)
    else .error (.invalidValue (.integer n) "u32")
  | d => .error (mistyped "u32" d)

/-- Null says that there is no value. -/
def optional {α : Type} (read : Draft → Result α) : Draft → Result (Option α)
  | .null => .ok none
  | d => (read d).map some

def sequence {α : Type} (read : Draft → Result α) : Draft → Result (List α)
  | .array items closed => do
    let values ← items.mapM read
    if closed then pure values else throw .malformed
  | d => .error (mistyped "a sequence" d)

def entries {α : Type} (read : Draft → Result α) : Draft → Result (List (String × α))
  | .object members closed => do
    let values ← members.mapM fun
      | (some name, d) => (read d).map fun v => (name, v)
      | (none, _) => throw .malformed
    if closed then pure values else throw .malformed
  | d => .error (mistyped "a map" d)

def name (options : List String) : Draft → Result String
  | .string s => if s ∈ options then .ok s else .error (.unknownVariant s options)
  | d => .error (mistyped "variant identifier" d)

/-- One of some names: a string, or an object with the name as its only member, which is null. -/
def variant (options : List String) : Draft → Result String
  | .string s => if s ∈ options then .ok s else .error (.unknownVariant s options)
  | .object ((some s, d) :: rest) closed =>
    if s ∉ options then .error (.unknownVariant s options)
    else match d with
      | .null => if rest.isEmpty && closed then .ok s else .error .malformed
      | d => .error (mistyped "unit" d)
  | _ => .error .malformed

/-- The same, read from a draft that was already found to be whole: there the type of anything else
can be told, and an empty object counts as null. -/
def heldVariant (options : List String) : Draft → Result String
  | .string s => if s ∈ options then .ok s else .error (.unknownVariant s options)
  | .object [(some s, d)] _ =>
    if s ∉ options then .error (.unknownVariant s options)
    else match d with
      | .null | .object [] _ => .ok s
      | d => .error (mistyped "unit" d)
  | .object _ _ => .error (.invalidValue .map "map with a single key")
  | d => .error (mistyped "string or map" d)

structure Member (σ : Type) where
  name : String
  /-- Whether an array may end before this member. -/
  omissible : Bool
  isRead : σ → Bool
  read : σ → Draft → Result σ

structure Record (σ α : Type) where
  title : String
  start : σ
  members : List (Member σ)
  finish : σ → Result α

namespace Record

variable {σ α : Type}

def readMembers (r : Record σ α) (s : σ) : List (Option String × Draft) → Result σ
  | [] => .ok s
  | (none, _) :: _ => .error .malformed
  | (some name, d) :: rest =>
    match r.members.find? (·.name = name) with
    | some m =>
      if m.isRead s then .error (.duplicateField name)
      else do r.readMembers (← m.read s d) rest
    | none => if d.isWhole then r.readMembers s rest else .error .malformed

def ofObject (r : Record σ α) : Draft → Result α
  | .object members closed => do
    let s ← r.readMembers r.start members
    if closed then r.finish s else throw .malformed
  | d => .error (mistyped r.title d)

def lengthText (r : Record σ α) : String :=
  r.title ++ " with " ++ toString r.members.length
    ++ (if r.members.length = 1 then " element" else " elements")

/-- An exact reader wants the array to have no further items. -/
def readItems (r : Record σ α) (exact closed : Bool) (length : Nat) (s : σ) :
    List (Member σ) → List Draft → Result σ
  | [], items => if exact && !(items.isEmpty && closed) then .error .malformed else .ok s
  | m :: ms, d :: ds => do r.readItems exact closed (length + 1) (← m.read s d) ms ds
  | m :: ms, [] =>
    if !closed then .error .malformed
    else if m.omissible then r.readItems exact closed length s ms []
    else .error (.invalidLength length r.lengthText)

def decode (r : Record σ α) (exact : Bool) : Draft → Result α
  | .array items closed => do r.finish (← r.readItems exact closed 0 r.start r.members items)
  | d => r.ofObject d

end Record

def wanted {α : Type} (name : String) : Option α → Result α
  | some a => .ok a
  | none => .error (.missingField name)

end BrowserActions.Decode
