import BrowserActions.Number.Binary64

/-!
# Numerals

A number as JSON writes it, and the number it stands for. Without fraction and exponent it is an
integer if it fits 64 bits, signed or unsigned; minus zero is a double.

The digits of a double are gathered into 64 bits for as long as they fit. Whole digits that do
not fit only count for the exponent, fraction digits that do not fit end the number. What was
gathered is rounded to a double and then multiplied or divided by a power of ten, with one more
rounding. A number too large for a double stands for nothing.
-/
namespace BrowserActions.Json

open Number

structure Numeral where
  negative : Bool
  whole : List Char
  fraction : List Char
  exponentNegative : Bool
  exponent : List Char
  deriving DecidableEq, Repr

namespace Numeral

inductive Value where
  | integer (n : Int)
  | double (x : Binary64)
  deriving DecidableEq, Repr

def digitValue (c : Char) : Nat := c.toNat - '0'.toNat

/-- The number that was gathered, and how many digits did not fit. -/
def gatherWhole (gathered : Nat) : List Char → Nat × Nat
  | [] => (gathered, 0)
  | c :: cs =>
    if 10 * gathered + digitValue c < UInt64.size then gatherWhole (10 * gathered + digitValue c) cs
    else (gathered, cs.length + 1)

/-- The number that was gathered, and how many digits went into it. -/
def gatherFraction (gathered : Nat) : List Char → Nat × Nat
  | [] => (gathered, 0)
  | c :: cs =>
    if 10 * gathered + digitValue c < UInt64.size then
      let (g, taken) := gatherFraction (10 * gathered + digitValue c) cs
      (g, taken + 1)
    else (gathered, 0)

def powerRank (exponent : Nat) : Nat := rankOfRatio (tenTo exponent) 1

/-- Divides by a power of ten. No double is as large as `10 ^ 309`, so large powers are split. -/
def divPower (rank exponent : Nat) : Nat :=
  if exponent ≤ 308 then divRank rank (powerRank exponent)
  else if rank = 0 then 0
  else divPower (divRank rank (powerRank 308)) (exponent - 308)
termination_by exponent

def scaled? (negative : Bool) (gathered : Nat) (exponent : Int) : Option Binary64 :=
  let rank := rankOfRatio gathered 1
  match exponent with
  | .ofNat e =>
    if rank = 0 then Binary64.ofRank? negative 0
    else if e ≤ 308 then Binary64.ofRank? negative (mulRank rank (powerRank e))
    else none
  | .negSucc e => Binary64.ofRank? negative (divPower rank (e + 1))

def exponentValue (x : Numeral) : Int :=
  let e : Int := Nat.ofDigitChars 10 x.exponent 0
  if x.exponentNegative then -e else e

def value? (x : Numeral) : Option Value :=
  let (gathered, dropped) := gatherWhole 0 x.whole
  if x.fraction = [] ∧ x.exponent = [] then
    if dropped ≠ 0 then (scaled? x.negative gathered dropped).map .double
    else if x.negative then
      if gathered = 0 ∨ twoTo 63 < gathered then (scaled? true gathered 0).map .double
      else some (.integer (-gathered))
    else some (.integer gathered)
  else
    let (gathered, taken) := gatherFraction gathered x.fraction
    (scaled? x.negative gathered (dropped - taken + x.exponentValue)).map .double

end Numeral
end BrowserActions.Json
