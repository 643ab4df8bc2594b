import BrowserActions.Operation.Basic
import BrowserActions.Schema.Basic

/-!
# The schema of browser operations

An operation is an object with a `name` and `args`. All fields of the arguments are checked before
anything is reported. Members that an operation does not know are ignored.
-/
namespace BrowserActions.BrowserOperations

open Operation

def defaultWaitMs : UInt64 := 1000

def fieldPath (key : String) : String := "args." ++ key

def mistypedField {α : Type} (key expected : String) (v : Json) : Checked α :=
  .error [⟨fieldPath key, .invalidType expected v.typeName⟩]

def text (key : String) (args : Json) : Checked String :=
  match args.given? key with
  | some (.string s) => .ok s
  | some v => mistypedField key "string" v
  | none => .error [⟨fieldPath key, .required⟩]

def direction (key : String) (args : Json) : Checked Direction := do
  let s ← text key args
  match Direction.ofName? s with
  | some d => .ok d
  | none => .error [⟨fieldPath key, .invalidEnum Direction.names s⟩]

def natural? : Json → Option UInt64
  | .integer n => if 0 ≤ n ∧ n < UInt64.size then some (UInt64.ofNat n.toNat) else none
  | _ => none

def optionalNatural (key : String) (args : Json) : Checked (Option UInt64) :=
  match args.given? key with
  | none => .ok none
  | some v =>
    match natural? v with
    | some n => .ok (some n)
    | none => mistypedField key "non-negative integer" v

def ofArguments (args : Json) : Kind → Checked Operation
  | .click => (text "xpath" args).map .click
  | .hover => (text "xpath" args).map .hover
  | .setValue => Checked.both .setValue (text "xpath" args) (text "value" args)
  | .setValueAndEnter => Checked.both .setValueAndEnter (text "xpath" args) (text "value" args)
  | .scroll => Checked.both .scroll (direction "direction" args) (optionalNatural "amount" args)
  | .navigate => (text "url" args).map .navigate
  | .back => .ok .back
  | .forward => .ok .forward
  | .wait => (optionalNatural "duration_ms" args).map fun n => .wait (n.getD defaultWaitMs)

def withoutArguments : Kind → Checked Operation
  | .back => .ok .back
  | .forward => .ok .forward
  | .wait => .ok (.wait defaultWaitMs)
  | _ => .error [⟨"args", .required⟩]

def kind (v : Json) : Checked Kind :=
  match v.given? "name" with
  | some (.string s) =>
    match Kind.ofName? s with
    | some k => .ok k
    | none => .error [⟨"name", .invalidDiscriminator Kind.names⟩]
  | some other => .error [⟨"name", .invalidType "string" other.typeName⟩]
  | none => .error [⟨"name", .required⟩]

def validate (v : Json) : Checked Operation :=
  match v with
  | .object _ => do
    let k ← kind v
    match v.given? "args" with
    | none => withoutArguments k
    | some (.object members) => ofArguments (.object members) k
    | some other => .error [⟨"args", .invalidType "object" other.typeName⟩]
  | other => .error [⟨"", .invalidType "object" other.typeName⟩]

def schema : OperationSchema Operation := ⟨Kind.names, validate⟩

end BrowserActions.BrowserOperations
