import BrowserActions.Command.Arguments
import BrowserActions.Config.Lookup
import BrowserActions.Environment.EnvFile
import BrowserActions.Reply.Basic
import BrowserActions.Script
import BrowserActions.Selector

/-!
# Program runs

A run reads its surroundings and ends with an exit code and what it has written. The environment
file comes first, then the arguments, then the configuration, and only then the command, so a
configuration that cannot be loaded fails every command. Nothing is written before a command has
its whole answer.
-/
namespace BrowserActions.Command

/-- How a run ends. What it logs is left out, and so are the words about its arguments. -/
inductive Outcome where
  | printed (text : String)
  | failed (e : Failure)
  | helped
  | misused
  /-- The environment file ended the program. -/
  | crashed

namespace Outcome

def code : Outcome → Nat
  | .printed _ | .helped => 0
  | .failed _ => 1
  | .misused => 2
  | .crashed => 101

/-- What stands on the standard output, unless it is the help. -/
def output? : Outcome → Option String
  | .printed text => some text
  | .helped => none
  | .failed _ | .misused | .crashed => some ""

/-- What is told of a failure. It stands where the log stands, behind all that was logged. -/
def error? : Outcome → Option String
  | .failed e => some ("error: " ++ e.message ++ "\n")
  | _ => none

end Outcome

def versionText : String := "pagepilot 0.1.0\n"

def loadConfig (s : Surroundings) (path : Option String) : Except Failure Config :=
  match path with
  | some path => Config.loadFrom s path
  | none => Config.load s

def readReply (s : Surroundings) (file : Option String) : Except Failure String :=
  let text := match file with
    | some path => s.files.read path
    | none => s.input.read
  text.mapError .file

def answer (s : Surroundings) (config : Config) : Request → Except Failure String
  | .parse file => do
    let actions ← Reply.actions (← readReply s file)
    pure ((Action.listToJson actions).prettyText ++ "\n")
  | .css xpath script =>
    let selector := Selector.ofXPath xpath
    let text := match script with
      | none => selector
      | some .count => Script.count selector
      | some .describe => Script.describe selector
    .ok (text ++ "\n")
  | .config => config.toToml

def perform (s : Surroundings) (i : Invocation) : Except Failure String := do
  answer s (← loadConfig s i.config) i.request

def run (s : Surroundings) (args : List String) : Outcome :=
  match EnvFile.apply s with
  | none => .crashed
  | some s =>
    match Parsed.ofArgs args with
    | .version => .printed versionText
    | .help => .helped
    | .usageError => .misused
    | .run i =>
      match perform s i with
      | .ok text => .printed text
      | .error e => .failed e

/-- The paths that a run may look at, the environment file apart. -/
def pathsOf (s : Surroundings) (args : List String) : List String :=
  match EnvFile.apply s, Parsed.ofArgs args with
  | some s, .run i =>
    i.config.toList ++ (s.valueOf? Config.variableName).toList ++ Config.candidates s ++
      match i.request with
      | .parse (some file) => [file]
      | _ => []
  | _, _ => []

def readsInput (args : List String) : Bool :=
  match Parsed.ofArgs args with
  | .run ⟨_, .parse none⟩ => true
  | _ => false

end BrowserActions.Command
