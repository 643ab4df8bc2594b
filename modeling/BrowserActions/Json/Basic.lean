import BrowserActions.Keyed
import BrowserActions.Number.Binary64

/-!
# JSON values

A number is an integer that fits 64 bits, signed or unsigned, or else a double. The members of
an object are listed in the order in which they are written.
-/
namespace BrowserActions

open Number

inductive Json where
  | null
  | bool (b : Bool)
  | integer (n : Int)
  | double (x : Binary64)
  | string (s : String)
  | array (items : List Json)
  | object (members : List (String × Json))
  deriving Repr, Inhabited

namespace Json

def typeName : Json → String
  | .null => "null"
  | .bool _ => "boolean"
  | .integer _ | .double _ => "number"
  | .string _ => "string"
  | .array _ => "array"
  | .object _ => "object"

def member? (name : String) : Json → Option Json
  | .object members => Keyed.lookup name members
  | _ => none

/-- An absent member and a member that is null say the same. -/
def given? (name : String) (v : Json) : Option Json :=
  match v.member? name with
  | some .null => none
  | other => other

end Json
end BrowserActions
