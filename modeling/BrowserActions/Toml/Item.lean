import BrowserActions.Draft

/-!
# TOML items and tables

Tables keep their entries in the order in which they were written. How a table came about decides
what may still be added to it: a dotted key may open tables for further dotted keys, a header may
be given once to a table that so far only stood in the headers of others, and a literal is complete.
-/
namespace BrowserActions.Toml

open Number

inductive TableKind where
  /-- Written between braces. -/
  | literal
  /-- Opened by a dotted key. -/
  | dotted
  /-- Mentioned in the header of a table below it. -/
  | implied
  | headed
  deriving DecidableEq, Repr

inductive Item where
  | string (s : String)
  | integer (n : Int)
  | float (x : Extended)
  | boolean (b : Bool)
  | dateTime
  | array (items : List Item)
  | table (kind : TableKind) (entries : List (String × Item))
  /-- The tables of one name that were written as elements, the last one first. -/
  | elements (tables : List (List (String × Item)))
  deriving Repr, Inhabited

abbrev Table := List (String × Item)

structure Pair where
  path : List String
  key : String
  value : Item

structure Part where
  path : List String
  key : String
  isElement : Bool
  pairs : List Pair

structure Document where
  pairs : List Pair
  parts : List Part

namespace Table

def find? (t : Table) (key : String) : Option Item := (List.find? (·.1 = key) t).map (·.2)

def set (t : Table) (key : String) (item : Item) : Table :=
  t.map fun e => if e.1 = key then (key, item) else e

def erase (t : Table) (key : String) : Table := t.filter (·.1 ≠ key)

def addPair (t : Table) (key : String) (value : Item) : List String → Option Table
  | [] => if (t.find? key).isSome then none else some (t ++ [(key, value)])
  | name :: path =>
    match t.find? name with
    | none => do
      let inner ← addPair [] key value path
      some (t ++ [(name, .table .dotted inner)])
    | some (.table .dotted inner) => do
      some (t.set name (.table .dotted (← addPair inner key value path)))
    | some (.table .implied inner) =>
      if path = [] then none
      else do some (t.set name (.table .implied (← addPair inner key value path)))
    | some (.elements (last :: before)) =>
      if path = [] then none
      else do some (t.set name (.elements ((← addPair last key value path) :: before)))
    | some _ => none

def addPairs (t : Table) (pairs : List Pair) : Option Table :=
  pairs.foldlM (fun t p => addPair t p.key p.value p.path) t

/-- Adds what stands under a header. A table whose header comes after it was implied moves to the
end. -/
def addHeaded (t : Table) (part : Part) : List String → Option Table
  | [] =>
    match t.find? part.key, part.isElement with
    | none, false => do some (t ++ [(part.key, .table .headed (← addPairs [] part.pairs))])
    | some (.table .implied inner), false => do
      some (t.erase part.key ++ [(part.key, .table .headed (← addPairs inner part.pairs))])
    | none, true => do some (t ++ [(part.key, .elements [← addPairs [] part.pairs])])
    | some (.elements before), true => do
      some (t.set part.key (.elements ((← addPairs [] part.pairs) :: before)))
    | _, _ => none
  | name :: path =>
    match t.find? name with
    | none => do some (t ++ [(name, .table .implied (← addHeaded [] part path))])
    | some (.table .literal _) => none
    | some (.table kind inner) => do
      some (t.set name (.table kind (← addHeaded inner part path)))
    | some (.elements (last :: before)) => do
      some (t.set name (.elements ((← addHeaded last part path) :: before)))
    | some _ => none

end Table

/-- The table that a document describes, unless it defines something twice. -/
def Document.table? (d : Document) : Option Table := do
  let root ← Table.addPairs [] d.pairs
  d.parts.foldlM (fun t part => t.addHeaded part part.path) root

mutual

/-- A date and time reads like a table with one member that nothing asks for. -/
def Item.draft : Item → Draft
  | .string s => .string s
  | .integer n => .integer n
  | .float x => .real x
  | .boolean b => .bool b
  | .dateTime => .object [(some "date-time", .null)] true
  | .array items => .array (itemDrafts items) true
  | .table _ entries => .object (entryDrafts entries) true
  | .elements tables => .array (tableDrafts tables).reverse true

def itemDrafts : List Item → List Draft
  | [] => []
  | i :: is => i.draft :: itemDrafts is

def entryDrafts : List (String × Item) → List (Option String × Draft)
  | [] => []
  | e :: es => (some e.1, e.2.draft) :: entryDrafts es

def tableDrafts : List (List (String × Item)) → List Draft
  | [] => []
  | t :: ts => .object (entryDrafts t) true :: tableDrafts ts

end

end BrowserActions.Toml
