/-!
# Command line arguments

One of three commands, with options of its own, and a path to the configuration that may stand
before or behind the command. The options of a command may come in any order; behind `--` there
are none.
-/
namespace BrowserActions.Command

inductive ScriptKind where
  | count
  | describe
  deriving DecidableEq, Repr

def ScriptKind.ofName? : String → Option ScriptKind
  | "count" => some .count
  | "describe" => some .describe
  | _ => none

inductive Request where
  | parse (file : Option String)
  | css (xpath : String) (script : Option ScriptKind)
  | config
  deriving DecidableEq, Repr

structure Invocation where
  config : Option String
  request : Request
  deriving DecidableEq, Repr

/-- What the arguments ask for. -/
inductive Parsed where
  | run (i : Invocation)
  | version
  | help
  | usageError
  deriving DecidableEq, Repr

inductive Name where
  | parse
  | css
  | config
  deriving DecidableEq, Repr

def Name.ofText? : String → Option Name
  | "parse" => some .parse
  | "css" => some .css
  | "config" => some .config
  | _ => none

/-- A single hyphen is a value. -/
def isOption (arg : String) : Bool := arg.startsWith "-" && arg != "-"

inductive OptionName where
  | config
  | script
  deriving DecidableEq, Repr

def OptionName.text : OptionName → String
  | .config => "--config"
  | .script => "--script"

def OptionName.belongsTo (option : OptionName) (name : Name) : Bool :=
  option == .config || name == .css

def optionNames : List OptionName := [.config, .script]

def OptionName.ofText? (arg : String) : Option OptionName :=
  optionNames.find? fun option => option.text = arg

/-- An option with its value in one argument, `--name=value`. -/
def attached? (arg : String) : Option (OptionName × String) :=
  optionNames.findSome? fun option =>
    if arg.startsWith (option.text ++ "=") then
      some (option, String.ofList (arg.toList.drop (option.text.length + 1)))
    else none

structure Given where
  config : Option String
  script : Option ScriptKind
  value : Option String
  deriving DecidableEq, Repr

def once {α : Type} (known new : Option α) : Option (Option α) :=
  match known, new with
  | none, some a => some (some a)
  | _, _ => none

def pathValue? (text : String) : Option String := if text = "" then none else some text

def Given.addOption (name : Name) (g : Given) (option : OptionName) (text : String) :
    Option Given :=
  if !option.belongsTo name then none
  else match option with
    | .config => do some { g with config := ← once g.config (pathValue? text) }
    | .script => do some { g with script := ← once g.script (ScriptKind.ofName? text) }

def Given.addValue (name : Name) (g : Given) (text : String) : Option Given :=
  match name with
  | .parse => do some { g with value := ← once g.value (pathValue? text) }
  | .css => do some { g with value := ← once g.value (some text) }
  | .config => none

/-- A configuration named behind the command counts before one named in front of it. -/
def Given.finish (name : Name) (outer : Option String) (g : Given) : Parsed :=
  let config := g.config <|> outer
  match name, g.value with
  | .parse, file => .run ⟨config, .parse file⟩
  | .css, some xpath => .run ⟨config, .css xpath g.script⟩
  | .css, none => .usageError
  | .config, _ => .run ⟨config, .config⟩

def valuesOnly (name : Name) (outer : Option String) (g : Given) : List String → Parsed
  | [] => g.finish name outer
  | arg :: rest =>
    match g.addValue name arg with
    | some g => valuesOnly name outer g rest
    | none => .usageError

/-- The arguments behind the command, of which `pending` still wants its value. -/
def commandArgs (name : Name) (outer : Option String) (pending : Option OptionName) (g : Given) :
    List String → Parsed
  | [] => if pending.isSome then .usageError else g.finish name outer
  | arg :: rest =>
    match pending with
    | some option =>
      if isOption arg then .usageError
      else match g.addOption name option arg with
        | some g => commandArgs name outer none g rest
        | none => .usageError
    | none =>
      if arg = "--" then valuesOnly name outer g rest
      else if arg = "--help" ∨ arg.startsWith "-h" then .help
      else if isOption arg then
        match OptionName.ofText? arg, attached? arg with
        | some option, _ =>
          if option.belongsTo name then commandArgs name outer (some option) g rest else .usageError
        | none, some (option, value) =>
          match g.addOption name option value with
          | some g => commandArgs name outer none g rest
          | none => .usageError
        | none, none => .usageError
      else match g.addValue name arg with
        | some g => commandArgs name outer none g rest
        | none => .usageError

def helpArgs : List String → Parsed
  | [] => .help
  | [name] => if (Name.ofText? name).isSome || name = "help" then .help else .usageError
  | _ => .usageError

def parseArgs (pending : Bool) (outer : Option String) : List String → Parsed
  | [] => .usageError
  | arg :: rest =>
    if pending then
      if isOption arg then .usageError
      else match once outer (pathValue? arg) with
        | some outer => parseArgs false outer rest
        | none => .usageError
    else match Name.ofText? arg with
      | some name => commandArgs name outer none ⟨none, none, none⟩ rest
      | none =>
        if arg = "help" then helpArgs rest
        else if arg = "--version" ∨ arg.startsWith "-V" then .version
        else if arg = "--help" ∨ arg.startsWith "-h" then .help
        else if arg = "--config" then parseArgs true outer rest
        else match attached? arg with
          | some (.config, value) =>
            match once outer (pathValue? value) with
            | some outer => parseArgs false outer rest
            | none => .usageError
          | _ => .usageError

def Parsed.ofArgs (args : List String) : Parsed := parseArgs false none args

end BrowserActions.Command
