/-!
# Files

A tree of files and directories, seen from a working directory. Paths that do not start with a
slash are taken from there.
-/
namespace BrowserActions

inductive FileError where
  | notFound
  | notADirectory
  | isADirectory
  | nameTooLong
  | invalidText
  | nulInPath
  deriving DecidableEq, Repr

def FileError.message : FileError → String
  | .notFound => "No such file or directory (os error 2)"
  | .notADirectory => "Not a directory (os error 20)"
  | .isADirectory => "Is a directory (os error 21)"
  | .nameTooLong => "File name too long (os error 36)"
  | .invalidText => "stream did not contain valid UTF-8"
  | .nulInPath => "file name contained an unexpected NUL byte"

inductive FileContent where
  | text (s : String)
  /-- Bytes that are no text, apart from some whole lines in front. -/
  | garbled (head : String)
  | directory
  deriving DecidableEq, Repr

namespace FileContent

/-- The lines of some bytes, each with its line feed, one after the other as long as they are
text. -/
def headLines (line : ByteArray) (head : String) : List UInt8 → String
  | [] => head
  | b :: bs =>
    if b = 10 then
      match String.fromUTF8? (line.push b) with
      | some s => headLines ByteArray.empty (head ++ s) bs
      | none => head
    else headLines (line.push b) head bs

def ofBytes (bytes : ByteArray) : FileContent :=
  match String.fromUTF8? bytes with
  | some s => .text s
  | none => .garbled (headLines ByteArray.empty "" bytes.toList)

def read : FileContent → Except FileError String
  | .text s => .ok s
  | .garbled _ => .error .invalidText
  | .directory => .error .isADirectory

end FileContent

/-- Files by the names that lead to them from the root. A directory that holds something need not
be listed. -/
structure Files where
  entries : List (List String × FileContent)
  workingDirectory : List String
  deriving DecidableEq, Repr

namespace Files

/-- What stands before the first slash, between slashes, and behind the last one. -/
def splitSlashes : List Char → List (List Char)
  | [] => [[]]
  | c :: cs =>
    if c = '/' then [] :: splitSlashes cs
    else match splitSlashes cs with
      | [] => [[c]]
      | part :: rest => (c :: part) :: rest

def parts (path : String) : List String := (splitSlashes path.toList).map String.ofList

def isAbsolute (path : String) : Bool := path.startsWith "/"

def base (files : Files) (path : String) : List String :=
  if isAbsolute path then [] else files.workingDirectory

def at? (files : Files) (names : List String) : Option FileContent :=
  match files.entries.find? (·.1 = names) with
  | some e => some e.2
  | none =>
    if names.isPrefixOf files.workingDirectory || files.entries.any fun e => names.isPrefixOf e.1
    then some .directory else none

/-- Goes through the parts of a path. All that it goes through has to be a directory. -/
def walk (files : Files) (names : List String) : List String → Except FileError (List String)
  | [] => .ok names
  | part :: rest =>
    match files.at? names with
    | none => .error .notFound
    | some .directory =>
      if part = "" ∨ part = "." then files.walk names rest
      else if part = ".." then files.walk names.dropLast rest
      else if 255 < part.utf8ByteSize then .error .nameTooLong
      else files.walk (names ++ [part]) rest
    | some _ => .error .notADirectory

def pathFault? (path : String) : Option FileError :=
  if path.toList.contains '\x00' then some .nulInPath
  else if path = "" then some .notFound
  else if 4096 ≤ path.utf8ByteSize then some .nameTooLong
  else none

def locate (files : Files) (path : String) : Except FileError FileContent :=
  match pathFault? path with
  | some e => .error e
  | none => do
    match files.at? (← files.walk (files.base path) (parts path)) with
    | some content => pure content
    | none => throw .notFound

def read (files : Files) (path : String) : Except FileError String := do (← files.locate path).read

def hasPath (files : Files) (path : String) : Bool := (files.locate path).isOk

/-- Puts a text under a path whose directory is there, in place of the file that was there. -/
def write (files : Files) (path text : String) : Except FileError Files :=
  match pathFault? path with
  | some e => .error e
  | none => do
    let last := (parts path).getLast?.getD ""
    let directory ← files.walk (files.base path) (parts path).dropLast
    match files.at? directory with
    | none => throw .notFound
    | some .directory =>
      if last = "" ∨ last = "." ∨ last = ".." then throw .isADirectory
      else if 255 < last.utf8ByteSize then throw .nameTooLong
      else
        let names := directory ++ [last]
        if files.at? names = some .directory then throw .isADirectory
        else pure { files with entries := (names, .text text) :: files.entries.filter (·.1 ≠ names) }
    | some _ => throw .notADirectory

end Files
end BrowserActions
