import BrowserActions.Environment.Surroundings
import BrowserActions.Text.Alphanumeric
import BrowserActions.Text.Blank
import BrowserActions.Text.Replace

/-!
# Environment files

A file of lines such as `export NAME="value" # comment`. Quoted values may go over several lines,
a backslash escapes, and `$name` or `${name}` stands for the value of a variable. Variables that
are already set to a text keep it. The first line that cannot be read ends the reading; the lines
before it count. A variable cannot hold a NUL, and a line that wants to set one to it ends the
program.
-/
namespace BrowserActions.EnvFile

open Text

/-- Where a line stands as far as its end is concerned. -/
inductive LineState where
  | complete
  | escape
  | strong
  | strongEscape
  | weak
  | weakEscape
  | space
  deriving DecidableEq, Repr

def LineState.next (c : Char) : LineState → Option LineState
  | .space =>
    match c with
    | '#' => none
    | '\\' => some .escape
    | '"' => some .weak
    | '\'' => some .strong
    | _ => some .complete
  | .escape => some .complete
  | .complete =>
    if isBlank c ∧ c ≠ '\n' ∧ c ≠ '\r' then some .space
    else match c with
      | '\\' => some .escape
      | '"' => some .weak
      | '\'' => some .strong
      | _ => some .complete
  | .weak =>
    match c with
    | '\\' => some .weakEscape
    | '"' => some .complete
    | _ => some .weak
  | .weakEscape => some .weak
  | .strong =>
    match c with
    | '\\' => some .strongEscape
    | '\'' => some .complete
    | _ => some .strong
  | .strongEscape => some .strong

/-- Goes through a line. It gives the state at its end, or the text before a comment. -/
def LineState.through (state : LineState) (before : List Char) : List Char → LineState ⊕ List Char
  | [] => .inl state
  | c :: cs =>
    match state.next c with
    | some state => state.through (before ++ [c]) cs
    | none => .inr before

def physicalLines (line : List Char) : List Char → List (List Char)
  | [] => if line.isEmpty then [] else [line]
  | c :: cs =>
    if c = '\n' then (line ++ [c]) :: physicalLines [] cs else physicalLines (line ++ [c]) cs

def dropLineEnd (line : List Char) : List Char :=
  match line.reverse with
  | '\n' :: '\r' :: cs => cs.reverse
  | '\n' :: cs => cs.reverse
  | _ => line

/-- Joins lines that belong together. A text that ends inside a line ends with `none`. -/
def logicalLines (state : LineState) (before : List Char) :
    List (List Char) → List (Option (List Char))
  | [] => if state = .complete then [] else [none]
  | line :: rest =>
    let joined := before ++ line
    if (trimStart joined).head? = some '#' then some [] :: logicalLines .complete [] rest
    else match state.through before line with
      | .inr text => some text :: logicalLines .complete [] rest
      | .inl .complete => some (dropLineEnd joined) :: logicalLines .complete [] rest
      | .inl state => logicalLines state joined rest

/-- A variable that is being named inside a value, by `$name` or in braces. -/
inductive Naming where
  | no
  | bare
  | braced
  deriving DecidableEq, Repr

structure ValueState where
  strong : Bool
  weak : Bool
  escaped : Bool
  /-- Nothing but a comment may come. -/
  ended : Bool
  naming : Naming
  name : List Char
  value : List Char

namespace ValueState

def start : ValueState := ⟨false, false, false, false, .no, [], []⟩

def push (s : ValueState) (c : Char) : ValueState := { s with value := s.value ++ [c] }

def substitute (lookup : String → String) (s : ValueState) : ValueState :=
  { s with value := s.value ++ (lookup (String.ofList s.name)).toList, name := [], naming := .no }

def escapeStep (c : Char) (s : ValueState) : Option ValueState :=
  if c ∈ ['\\', '\'', '"', '$', ' '] then some (push { s with escaped := false } c)
  else if c = 'n' then some (push { s with escaped := false } '\n')
  else none

def namingStep (lookup : String → String) (c : Char) (s : ValueState) : ValueState :=
  if isAlphanumeric c then { s with name := s.name ++ [c] }
  else if s.naming = .braced then
    if c = '\x7d' then s.substitute lookup else { s with name := s.name ++ [c] }
  else if c = '\x7b' ∧ s.name = [] then { s with naming := .braced }
  else
    let s := s.substitute lookup
    if c = '$' then { s with naming := .bare } else s.push c

def plainStep (c : Char) (s : ValueState) : ValueState :=
  if c = '$' then { s with naming := .bare }
  else if s.weak then
    if c = '"' then { s with weak := false }
    else if c = '\\' then { s with escaped := true }
    else s.push c
  else if c = '\'' then { s with strong := true }
  else if c = '"' then { s with weak := true }
  else if c = '\\' then { s with escaped := true }
  else if c = ' ' ∨ c = '\t' then { s with ended := true }
  else s.push c

/-- A value that stays open has none. -/
def finish (lookup : String → String) (s : ValueState) : Option (List Char) :=
  if s.naming = .braced || s.strong || s.weak then none else some (s.substitute lookup).value

def run (lookup : String → String) (s : ValueState) : List Char → Option (List Char)
  | [] => s.finish lookup
  | c :: cs =>
    if s.ended then
      if c = ' ' ∨ c = '\t' then run lookup s cs
      else if c = '#' then s.finish lookup
      else none
    else if s.escaped then
      match escapeStep c s with
      | some s => run lookup s cs
      | none => none
    else if s.strong then
      if c = '\'' then run lookup { s with strong := false } cs else run lookup (s.push c) cs
    else if s.naming ≠ .no then run lookup (namingStep lookup c s) cs
    else run lookup (plainStep c s) cs

end ValueState

def isKeyStart (c : Char) : Bool := c.isAlpha || c = '_'
def isKeyChar (c : Char) : Bool := c.isAlphanum || c = '_' || c = '.'

def key? (cs : List Char) : Option (String × List Char) :=
  if (cs.head?.map isKeyStart).getD false then
    let name := cs.takeWhile isKeyChar
    some (String.ofList name, trimStart (cs.drop name.length))
  else none

def equals? : List Char → Option (List Char)
  | '=' :: cs => some (trimStart cs)
  | _ => none

/-- The name that a line sets and its unread value. `export` may stand in front, or be the name. -/
def binding? (cs : List Char) : Option (String × List Char) := do
  let (name, rest) ← key? cs
  match equals? rest with
  | some value => some (name, value)
  | none =>
    if name = "export" then do
      let (name, rest) ← key? rest
      some (name, ← equals? rest)
    else none

structure Loaded where
  bindings : Bindings
  said : List (String × String)

def Loaded.lookup (l : Loaded) (name : String) : String :=
  match l.bindings.text? name with
  | some value => value
  | none => ((l.said.find? (·.1 = name)).map (·.2)).getD ""

/-- What a line says, if it can be read: a variable and its value, or nothing. -/
def Loaded.line? (l : Loaded) (line : List Char) : Option (Option (String × List Char)) :=
  let cs := trimStart (trimEnd line)
  if cs.isEmpty || cs.head? = some '#' then some none
  else do
    let (name, rest) ← binding? cs
    let value ←
      if rest.isEmpty || rest.head? = some '#' then some []
      else ValueState.start.run l.lookup rest
    some (some (name, value))

/-- Sets a variable, unless it has a text. There is no result if the value cannot be set. -/
def Loaded.add (l : Loaded) (name : String) (value : List Char) : Option Loaded :=
  let said := (name, String.ofList value) :: l.said
  if (l.bindings.text? name).isSome then some ⟨l.bindings, said⟩
  else if value.contains '\x00' then none
  else some ⟨(name, .text (String.ofList value)) :: l.bindings, said⟩

def Loaded.lines (l : Loaded) : List (Option (List Char)) → Option Loaded
  | [] => some l
  | line :: rest =>
    match line.bind l.line? with
    | none => some l
    | some none => l.lines rest
    | some (some (name, value)) =>
      match l.add name value with
      | some l => l.lines rest
      | none => none

/-- The variables after a file has been loaded, unless the program ends over it. -/
def load (bindings : Bindings) (text : String) : Option Bindings :=
  let cs := match text.toList with
    | '\ufeff' :: cs => cs
    | cs => cs
  (Loaded.lines ⟨bindings, []⟩ (logicalLines .complete [] (physicalLines [] cs))).map (·.bindings)

def fileName : String := ".env"

/-- The environment file of the nearest directory that has one. -/
def nearest? (files : Files) (directory : List String) : Option FileContent :=
  match files.at? (directory ++ [fileName]) with
  | some (.text s) => some (.text s)
  | some (.garbled head) => some (.garbled head)
  | _ =>
    if h : directory = [] then none
    else
      have : directory.dropLast.length < directory.length := by
        have := List.length_pos_iff.2 h
        simp only [List.length_dropLast]; omega
      nearest? files directory.dropLast
termination_by directory.length

def found? (s : Surroundings) : Option String :=
  match nearest? s.files s.files.workingDirectory with
  | some (.text text) | some (.garbled text) => some text
  | _ => none

/-- The surroundings with what an environment file adds, unless the program ends over it. -/
def apply (s : Surroundings) : Option Surroundings :=
  match found? s with
  | some text => (load s.bindings text).map fun bindings => { s with bindings := bindings }
  | none => some s

end BrowserActions.EnvFile
