import BrowserActions.Command.Run

/-!
# The program

Collects what a run may look at, performs the run, and writes what it says.
-/
open BrowserActions

def contentAt? (path : String) : IO (Option FileContent) := do
  try
    return some (.ofBytes (← IO.FS.readBinFile path))
  catch
    | .inappropriateType .. => return some .directory
    | _ => return none

def absoluteNames (working : List String) (path : String) : List String :=
  (if Files.isAbsolute path then [] else working) ++
    (Files.parts path).filter fun part => part != "" && part != "."

def withContent (files : Files) (path : String) : IO Files := do
  match ← contentAt? path with
  | some content =>
    let names := absoluteNames files.workingDirectory path
    return { files with entries := (names, content) :: files.entries }
  | none => return files

/-- The paths of the environment files that may count. -/
def envFilePaths (working : List String) : List String :=
  (List.range (working.length + 1)).map fun n =>
    "/" ++ "/".intercalate (working.take n ++ [EnvFile.fileName])

def bindingOf? (entry : List UInt8) : Option (String × VariableValue) := do
  let isNameByte (b : UInt8) : Bool := b != 61
  let name ← String.fromUTF8? ⟨(entry.takeWhile isNameByte).toArray⟩
  some (name, .ofBytes ⟨(entry.dropWhile isNameByte).tail.toArray⟩)

/-- The variables as the system keeps them, so that values that are no texts are not lost. -/
def environment : IO Bindings := do
  let bytes ← IO.FS.readBinFile "/proc/self/environ"
  return (bytes.toList.splitOn 0).filterMap bindingOf?

/-- The directory of the user's settings: one that is named by an absolute path, or else one in the
home directory. -/
def settingsDirectory? (bindings : Bindings) : Option String :=
  (bindings.text? "XDG_CONFIG_HOME").filter Files.isAbsolute <|>
    ((bindings.text? "HOME").filter (· != "")).map (Config.join · ".config")

def main (args : List String) : IO UInt32 := do
  let working := (Files.parts (← IO.currentDir).toString).filter (· != "")
  let program ← IO.appPath
  let files ← (envFilePaths working).foldlM withContent ⟨[], working⟩
  let input ← if Command.readsInput args then
      FileContent.ofBytes <$> (← IO.getStdin).readBinToEnd
    else pure (.text "")
  let found : Surroundings :=
    ⟨← environment, files, program.parent.map (·.toString), none, input⟩
  -- the settings are looked for with the variables that the environment file has set
  let loaded := (EnvFile.apply found).getD found
  let surroundings := { found with settingsDirectory := settingsDirectory? loaded.bindings }
  let files ← (Command.pathsOf surroundings args).foldlM withContent files
  let outcome := Command.run { surroundings with files := files } args
  (← IO.getStdout).putStr (outcome.output?.getD "")
  (← IO.getStderr).putStr (outcome.error?.getD "")
  return outcome.code.toUInt32
