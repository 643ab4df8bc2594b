import BrowserActions.Config.Decode
import BrowserActions.Failure
import BrowserActions.Toml.Quoted
import BrowserActions.Toml.Reader

/-!
# Configuration files

A configuration is written as three tables, one setting a line. Reading a file lays what it tells
over the defaults. Integers in a file have a sign, so those from `2 ^ 63` on cannot be written.
-/
namespace BrowserActions.Config

inductive Setting where
  | integer (n : Nat)
  | boolean (b : Bool)
  | string (s : String)
  deriving DecidableEq, Repr

def Setting.fits : Setting → Bool
  | .integer n => decide (n < Number.twoTo 63)
  | _ => true

def Setting.render : Setting → List Char
  | .integer n => Nat.toDigits 10 n
  | .boolean true => ['t', 'r', 'u', 'e']
  | .boolean false => ['f', 'a', 'l', 's', 'e']
  | .string s => Toml.Quoted.write s.toList

structure Section where
  name : String
  settings : List (String × Setting)

def sections (c : Config) : List Section := [
  ⟨"polling", [
    ("interval_ms", .integer c.polling.intervalMs.toNat),
    ("max_checks", .integer c.polling.maxChecks.toNat),
    ("reject_on_timeout", .boolean c.polling.rejectOnTimeout)]⟩,
  ⟨"stability", [
    ("interval_ms", .integer c.stability.intervalMs.toNat),
    ("timeout_ms", .integer c.stability.timeoutMs.toNat),
    ("reject_on_timeout", .boolean c.stability.rejectOnTimeout)]⟩,
  ⟨"logging", [("filter", .string c.logging.filter)]⟩]

def Section.fits (s : Section) : Bool := s.settings.all fun e => e.2.fits

def Section.render (s : Section) : List Char :=
  '[' :: (s.name.toList ++ [']', '\n'] ++
    s.settings.flatMap fun e => e.1.toList ++ [' ', '=', ' '] ++ e.2.render ++ ['\n'])

/-- An empty line stands between two tables. -/
def renderSections : List Section → List Char
  | [] => []
  | [s] => s.render
  | s :: t :: rest => s.render ++ '\n' :: renderSections (t :: rest)

def toToml (c : Config) : Except Failure String :=
  if c.sections.all Section.fits then .ok (String.ofList (renderSections c.sections))
  else .error .integerTooLarge

def ofToml (text : String) : Except Failure Config :=
  match Toml.read? text.toList with
  | none => .error (.toml .malformed)
  | some table =>
    match (record false).decode false (Toml.Item.table .headed table).draft with
    | .ok c => .ok c
    | .error e => .error (.toml e)

end BrowserActions.Config
