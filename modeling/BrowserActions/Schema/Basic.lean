import BrowserActions.Json.Basic

/-!
# Schemas

A schema says which JSON values are operations. What it finds wrong with a value is a list of
issues, each with the path of the part it is about.
-/
namespace BrowserActions

inductive Issue.Kind where
  | required
  | invalidType (expected received : String)
  | invalidDiscriminator (options : List String)
  | invalidEnum (options : List String) (received : String)
  deriving DecidableEq, Repr

structure Issue where
  path : String
  kind : Issue.Kind
  deriving DecidableEq, Repr

namespace Issue

def optionsText (options : List String) : String :=
  " | ".intercalate (options.map fun o => "'" ++ o ++ "'")

def Kind.message : Kind → String
  | .required => "Required"
  | .invalidType expected received => "Expected " ++ expected ++ ", received " ++ received
  | .invalidDiscriminator options =>
    "Invalid discriminator value. Expected " ++ optionsText options
  | .invalidEnum options received =>
    "Invalid enum value. Expected " ++ optionsText options ++ ", received '" ++ received ++ "'"

/-- An issue with the whole value has no path. -/
def message (i : Issue) : String :=
  if i.path = "" then i.kind.message else i.kind.message ++ " at \"" ++ i.path ++ "\""

def describe (issues : List Issue) : String :=
  "Validation error: " ++ "; ".intercalate (issues.map message)

end Issue

abbrev Checked (α : Type) := Except (List Issue) α

/-- Two parts are checked independently, so the issues of both are told. -/
def Checked.both {α β γ : Type} (f : α → β → γ) : Checked α → Checked β → Checked γ
  | .ok a, .ok b => .ok (f a b)
  | .error first, .ok _ => .error first
  | .ok _, .error second => .error second
  | .error first, .error second => .error (first ++ second)

structure OperationSchema (Op : Type) where
  variants : List String
  validate : Json → Checked Op

end BrowserActions
