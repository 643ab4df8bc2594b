import BrowserActions.Toml.Quoted
import BrowserActions.Toml.Scalar

/-!
# Reading TOML

A document is read line by line into pairs and headers, and these are put together into tables.
Arrays and literal tables nest less than 80 deep, and a dotted key has less than 80 parts.
-/
namespace BrowserActions.Toml

open Text

/-- Nesting and dotted keys stay below this. -/
def depthLimit : Nat := 80

def isGap (c : Char) : Bool := c = ' ' || c = '\t'
def skipGap (cs : List Char) : List Char := cs.dropWhile isGap

def isBareKeyChar (c : Char) : Bool := c.isAlphanum || c = '_' || c = '-'

def lineEnd : List Char → Option (List Char)
  | [] => some []
  | '\n' :: cs => some cs
  | '\r' :: '\n' :: cs => some cs
  | _ => none

def skipComment (cs : List Char) : List Char :=
  match cs with
  | '#' :: more => more.dropWhile isTextChar
  | _ => cs

def restOfLine (cs : List Char) : Option (List Char) := lineEnd (skipComment (skipGap cs))

def skipLines (comment : Bool) : List Char → List Char
  | [] => []
  | '\r' :: '\n' :: cs => skipLines false cs
  | c :: cs =>
    if c = '\n' then skipLines false cs
    else if comment then (if isTextChar c then skipLines true cs else c :: cs)
    else if isGap c then skipLines false cs
    else if c = '#' then skipLines true cs
    else c :: cs

def simpleKey : Reader String := fun cs =>
  match cs with
  | '"' :: _ | '\'' :: _ => (Quoted.readLine cs).map fun p => (String.ofList p.1, p.2)
  | _ =>
    let name := cs.takeWhile isBareKeyChar
    if name.isEmpty then none else some (String.ofList name, cs.drop name.length)

def keyParts : Nat → Reader (List String)
  | 0, _ => none
  | limit + 1, cs => do
    let (name, cs) ← simpleKey (skipGap cs)
    match skipGap cs with
    | '.' :: cs =>
      let (names, cs) ← keyParts limit cs
      some (name :: names, cs)
    | cs => some ([name], cs)

/-- A key, as the path to its table and its name there. -/
def key : Reader (List String × String) := fun cs => do
  let (names, cs) ← keyParts (depthLimit - 1) cs
  some ((names.dropLast, ← names.getLast?), cs)

def pair (value : Reader Item) : Reader Pair := fun cs => do
  let ((path, name), cs) ← key cs
  let cs ← strip ['='] cs
  let (item, cs) ← value (skipGap cs)
  some (⟨path, name, item⟩, cs)

/-- The items of an array up to its closing bracket. The number bounds how many there can be. -/
def arrayItems (value : Reader Item) : Nat → Reader (List Item)
  | 0, _ => none
  | bound + 1, cs =>
    match skipLines false cs with
    | ']' :: rest => some ([], rest)
    | cs => do
      let (item, cs) ← value cs
      match skipLines false cs with
      | ',' :: cs =>
        let (items, cs) ← arrayItems value bound cs
        some (item :: items, cs)
      | ']' :: cs => some ([item], cs)
      | _ => none

def literalPairs (value : Reader Item) : Nat → Reader (List Pair)
  | 0, _ => none
  | bound + 1, cs => do
    let (p, cs) ← pair value cs
    match skipGap cs with
    | ',' :: cs =>
      let (ps, cs) ← literalPairs value bound cs
      some (p :: ps, cs)
    | '\x7d' :: cs => some ([p], cs)
    | _ => none

def literalTable (value : Reader Item) : Reader Item := fun cs => do
  match skipGap cs with
  | '\x7d' :: cs => some (.table .literal [], cs)
  | _ =>
    let (pairs, rest) ← literalPairs value cs.length cs
    some (.table .literal (← Table.addPairs [] pairs), rest)

/-- A value, given the reader of what is nested in it, if anything may be. -/
def valueAround (nested : Option (Reader Item)) : Reader Item := fun cs =>
  match cs with
  | [] => none
  | c :: rest =>
    if c = '"' ∨ c = '\'' then (Quoted.read cs).map fun p => (.string (String.ofList p.1), p.2)
    else if c = '[' then do
      let (items, rest) ← arrayItems (← nested) (rest.length + 1) rest
      some (.array items, rest)
    else if c = '\x7b' then do literalTable (← nested) rest
    else if c = 't' then (strip ['r', 'u', 'e'] rest).map fun cs => (.boolean true, cs)
    else if c = 'f' then (strip ['a', 'l', 's', 'e'] rest).map fun cs => (.boolean false, cs)
    else number cs

/-- A value in which nothing nests deeper than the number says. -/
def value : Nat → Reader Item
  | 0 => valueAround none
  | room + 1 => valueAround (some (value room))

inductive Line where
  | blank
  | pair (p : Pair)
  | header (path : List String) (key : String) (isElement : Bool)

def headerLine : Reader Line := fun cs => do
  match strip ['[', '['] cs with
  | some cs => do
    let ((path, name), cs) ← key cs
    some (.header path name true, ← restOfLine (← strip [']', ']'] cs))
  | none => do
    let ((path, name), cs) ← key (← strip ['['] cs)
    some (.header path name false, ← restOfLine (← strip [']'] cs))

def line : Reader Line := fun cs =>
  match skipGap cs with
  | [] => some (.blank, [])
  | '[' :: rest => headerLine ('[' :: rest)
  | c :: rest =>
    if c = '#' ∨ c = '\n' ∨ c = '\r' then (restOfLine (c :: rest)).map fun cs => (.blank, cs)
    else do
      let (p, cs) ← pair (value (depthLimit - 1)) (c :: rest)
      some (.pair p, ← restOfLine cs)

/-- The number bounds how many lines there can be. -/
def lines : Nat → List Char → Option (List Line)
  | _, [] => some []
  | 0, _ :: _ => none
  | bound + 1, c :: cs => do
    let (l, rest) ← line (c :: cs)
    let ls ← lines bound rest
    some (l :: ls)

def Document.ofLines : List Line → Document
  | [] => ⟨[], []⟩
  | l :: ls =>
    let d := ofLines ls
    match l with
    | .blank => d
    | .pair p => { d with pairs := p :: d.pairs }
    | .header path name isElement => ⟨[], ⟨path, name, isElement, d.pairs⟩ :: d.parts⟩

/-- A byte order mark in front is no part of the document. -/
def read? (cs : List Char) : Option Table := do
  let cs := match cs with
    | '\ufeff' :: cs => cs
    | cs => cs
  (Document.ofLines (← lines (cs.length + 1) cs)).table?

end BrowserActions.Toml
