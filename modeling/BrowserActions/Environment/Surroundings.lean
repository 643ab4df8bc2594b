import BrowserActions.Files

/-!
# Surroundings

What a program run finds outside itself, as a value.
-/
namespace BrowserActions

/-- The value of an environment variable, which need not be a text. -/
inductive VariableValue where
  | text (s : String)
  | bytes (raw : List UInt8)
  deriving DecidableEq, Repr

def VariableValue.ofBytes (bytes : ByteArray) : VariableValue :=
  match String.fromUTF8? bytes with
  | some s => .text s
  | none => .bytes bytes.toList

abbrev Bindings := List (String × VariableValue)

def Bindings.value? (bindings : Bindings) (name : String) : Option VariableValue :=
  (bindings.find? (·.1 = name)).map (·.2)

/-- The text that a variable is set to. One that is set to something else has none. -/
def Bindings.text? (bindings : Bindings) (name : String) : Option String :=
  match bindings.value? name with
  | some (.text s) => some s
  | _ => none

structure Surroundings where
  bindings : Bindings
  files : Files
  programDirectory : Option String
  /-- The directory of the user's settings, if there is one once the environment file is loaded. -/
  settingsDirectory : Option String
  input : FileContent
  deriving DecidableEq, Repr

def Surroundings.valueOf? (s : Surroundings) (name : String) : Option String :=
  s.bindings.text? name

end BrowserActions
