import BrowserActions.Text.Replace
import BrowserActions.Toml.Item

/-!
# TOML numbers and dates

Each reader takes what it can from the front of a text and gives the rest. Digits may be set
apart by single underscores. Integers fit 64 bits with a sign.
-/
namespace BrowserActions.Toml

open Number Text

abbrev Reader (α : Type) := List Char → Option (α × List Char)

def isHexDigit (c : Char) : Bool :=
  c.isDigit || (decide ('a' ≤ c) && decide (c ≤ 'f')) || (decide ('A' ≤ c) && decide (c ≤ 'F'))
def isOctalDigit (c : Char) : Bool := decide ('0' ≤ c) && decide (c ≤ '7')
def isBinaryDigit (c : Char) : Bool := c = '0' || c = '1'

/-- Digits and underscores that stand between digits. -/
def moreDigits (isDigit : Char → Bool) : List Char → List Char × List Char
  | [] => ([], [])
  | [c] => if isDigit c then ([c], []) else ([], [c])
  | c :: d :: cs =>
    if isDigit c then
      let (ds, rest) := moreDigits isDigit (d :: cs)
      (c :: ds, rest)
    else if c = '_' ∧ isDigit d then moreDigits isDigit (d :: cs)
    else ([], c :: d :: cs)

def digits (isDigit : Char → Bool) : Reader (List Char)
  | [] => none
  | c :: cs => if isDigit c then some (moreDigits isDigit (c :: cs)) else none

def sign : List Char → Bool × List Char
  | '-' :: cs => (true, cs)
  | '+' :: cs => (false, cs)
  | cs => (false, cs)

def wholeDigits : Reader (List Char)
  | '0' :: cs => some (['0'], cs)
  | cs => digits Char.isDigit cs

def digitValue (c : Char) : Nat :=
  if c.isDigit then c.toNat - '0'.toNat
  else if 'a' ≤ c ∧ c ≤ 'f' then c.toNat - 'a'.toNat + 10
  else c.toNat - 'A'.toNat + 10

def valueInBase (base : Nat) (ds : List Char) : Nat :=
  ds.foldl (fun n c => base * n + digitValue c) 0

def integerItem (n : Int) : Option Item :=
  if -(twoTo 63 : Int) ≤ n ∧ n < twoTo 63 then some (.integer n) else none

def based (isDigit : Char → Bool) (base : Nat) : Reader Item := fun cs => do
  let (ds, rest) ← digits isDigit cs
  some (← integerItem (valueInBase base ds), rest)

def integer : Reader Item
  | '0' :: 'x' :: cs => based isHexDigit 16 cs
  | '0' :: 'o' :: cs => based isOctalDigit 8 cs
  | '0' :: 'b' :: cs => based isBinaryDigit 2 cs
  | cs => do
    let (negative, cs) := sign cs
    let (ds, rest) ← wholeDigits cs
    let n : Int := valueInBase 10 ds
    some (← integerItem (if negative then -n else n), rest)

def fraction : Reader (List Char)
  | '.' :: cs => digits Char.isDigit cs
  | _ => none

def exponent : Reader Int
  | c :: cs =>
    if c = 'e' ∨ c = 'E' then do
      let (negative, cs) := sign cs
      let (ds, rest) ← digits Char.isDigit cs
      let n : Int := valueInBase 10 ds
      some (if negative then -n else n, rest)
    else none
  | [] => none

/-- A number too large for a double is infinite if it is negative, and refused otherwise. -/
def floatItem (negative : Bool) (ds : List Char) (exponent : Int) : Option Item :=
  match Binary64.ofDecimal? negative (valueInBase 10 ds) exponent with
  | some x => some (.float (.finite x))
  | none => if negative then some (.float (.infinity true)) else none

def special : Reader Item := fun cs =>
  let (negative, cs) := sign cs
  match strip ['i', 'n', 'f'] cs with
  | some rest => some (.float (.infinity negative), rest)
  | none => (strip ['n', 'a', 'n'] cs).map fun rest => (.float .notANumber, rest)

/-- A float has a fraction, an exponent, or both. -/
def float : Reader Item := fun cs => do
  let (negative, cs) := sign cs
  let (whole, cs) ← wholeDigits cs
  match fraction cs with
  | some (frac, cs) =>
    let (e, rest) := (exponent cs).getD (0, cs)
    some (← floatItem negative (whole ++ frac) (e - frac.length), rest)
  | none => do
    let (e, rest) ← exponent cs
    some (← floatItem negative whole e, rest)

def fixed (count : Nat) : Reader Nat := fun cs =>
  let ds := cs.take count
  if ds.length = count ∧ ds.all Char.isDigit then some (valueInBase 10 ds, cs.drop count) else none

def isLeap (year : Nat) : Bool := year % 4 == 0 && (year % 100 != 0 || year % 400 == 0)

def daysIn (year month : Nat) : Nat :=
  if month = 2 then (if isLeap year then 29 else 28)
  else if month ∈ [4, 6, 9, 11] then 30
  else 31

def date : Reader Unit := fun cs => do
  let (year, cs) ← fixed 4 cs
  let (month, cs) ← fixed 2 (← strip ['-'] cs)
  let (day, cs) ← fixed 2 (← strip ['-'] cs)
  if 1 ≤ month ∧ month ≤ 12 ∧ 1 ≤ day ∧ day ≤ daysIn year month then some ((), cs) else none

/-- A minute may have a leap second. -/
def time : Reader Unit := fun cs => do
  let (hour, cs) ← fixed 2 cs
  let (minute, cs) ← fixed 2 (← strip [':'] cs)
  let (second, cs) ← fixed 2 (← strip [':'] cs)
  if 23 < hour ∨ 59 < minute ∨ 60 < second then none
  else match cs with
    | '.' :: d :: more => if d.isDigit then some ((), more.dropWhile Char.isDigit) else none
    | '.' :: [] => none
    | _ => some ((), cs)

def offset : Reader Unit
  | 'Z' :: cs | 'z' :: cs => some ((), cs)
  | c :: cs =>
    if c = '+' ∨ c = '-' then do
      let (hour, cs) ← fixed 2 cs
      let (minute, cs) ← fixed 2 (← strip [':'] cs)
      if hour ≤ 23 ∧ minute ≤ 59 then some ((), cs) else none
    else none
  | [] => none

def dateTime : Reader Item := fun cs =>
  match date cs with
  | none => (time cs).map fun p => (.dateTime, p.2)
  | some (_, rest) =>
    match rest with
    | c :: more =>
      if c = 'T' ∨ c = 't' ∨ c = ' ' then
        match time more with
        | some (_, rest) => some (.dateTime, ((offset rest).map (·.2)).getD rest)
        | none => some (.dateTime, rest)
      else some (.dateTime, rest)
    | [] => some (.dateTime, [])

def number : Reader Item := fun cs =>
  dateTime cs <|> float cs <|> special cs <|> integer cs

end BrowserActions.Toml
