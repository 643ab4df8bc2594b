import BrowserActions.Config.Toml
import BrowserActions.Environment.Surroundings

/-!
# Finding the configuration

The first of these that is there decides, and nothing behind it is looked at: the path that a
variable names, whether or not there is such a file, and then a file beside the program, in the
working directory, and among the user's settings. Without any of them the defaults hold. A variable
whose value is no text names no path and is passed over.
-/
namespace BrowserActions.Config

def fileName : String := "config.toml"
def variableName : String := "PAGEPILOT_CONFIG"
def settingsName : String := "pagepilot"

def join (directory name : String) : String :=
  if directory.endsWith "/" then directory ++ name else directory ++ "/" ++ name

def workingPath (s : Surroundings) : String :=
  "/" ++ "/".intercalate (s.files.workingDirectory ++ [fileName])

/-- The places to look at, in this order, if no variable names one. -/
def candidates (s : Surroundings) : List String :=
  (s.programDirectory.map (join · fileName)).toList ++ [workingPath s] ++
    (s.settingsDirectory.map fun d => join (join d settingsName) fileName).toList

def path? (s : Surroundings) : Option String :=
  match s.valueOf? variableName with
  | some path => some path
  | none => (candidates s).find? s.files.hasPath

def loadFrom (s : Surroundings) (path : String) : Except Failure Config :=
  match s.files.read path with
  | .ok text => ofToml text
  | .error e => .error (.config (.unreadable path e))

def load (s : Surroundings) : Except Failure Config :=
  match path? s with
  | some path => loadFrom s path
  | none => .ok standard

/-- Writes the configuration to a file. It is put into words before the file is touched. -/
def saving (c : Config) (path : String) : ExceptT Failure (StateM Files) Unit := do
  let text ← MonadExcept.ofExcept c.toToml
  let files ← get
  set (← MonadExcept.ofExcept ((files.write path text).mapError Failure.file))

def save (c : Config) (files : Files) (path : String) : Except Failure Files :=
  match (c.saving path).run files with
  | (.ok (), files) => .ok files
  | (.error e, _) => .error e

end BrowserActions.Config
