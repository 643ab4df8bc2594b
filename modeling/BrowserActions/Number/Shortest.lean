import BrowserActions.Number.Binary64

/-!
# Shortest decimal digits

A double is written with the fewest digits that read back as the same double. The decimals that
round to a double fill an interval. The coarsest grid of powers of ten that meets the interval
decides the number of digits, and of the grid's points in it the nearest to the double is taken,
the even one of two that are equally near.

A `Layout` says how such digits are set out as text.
-/
namespace BrowserActions.Number

structure Decimal where
  digits : Nat
  exponent : Int
  deriving DecidableEq, Repr

/-- A grid of powers of ten against halves of the smallest double: the multiple `p` of the power
and the number of `v` halves are equal if `p * spacing = v * scale`. -/
structure Grid where
  scale : Nat
  spacing : Nat

def Grid.ofExponent : Int → Grid
  | .ofNat e => ⟨1, twoTo 1075 * tenTo e⟩
  | .negSucc e => ⟨tenTo (e + 1), twoTo 1075⟩

/-- Whether the grid point rounds to the number of this rank. The ends of the interval belong to it
exactly if the rank is even. -/
def Grid.hits (grid : Grid) (rank point : Nat) : Bool :=
  let place := point * grid.spacing
  let low := (magnitude rank + magnitude (rank - 1)) * grid.scale
  let high := (magnitude rank + magnitude (rank + 1)) * grid.scale
  if rank % 2 = 0 then decide (low ≤ place) && decide (place ≤ high)
  else decide (low < place) && decide (place < high)

def Grid.point? (grid : Grid) (rank : Nat) : Option Nat :=
  let value := 2 * magnitude rank * grid.scale
  let below := value / grid.spacing
  let above := below + 1
  match grid.hits rank below, grid.hits rank above with
  | true, true => some (roundDiv value grid.spacing)
  | true, false => some below
  | false, true => some above
  | false, false => none

/-- Goes from the exponent `308` down to finer grids. -/
def searchGrid (rank : Nat) : Nat → Decimal
  | 0 => ⟨rank, -1074⟩
  | steps + 1 =>
    let exponent : Int := (steps : Int) - 330
    match (Grid.ofExponent exponent).point? rank with
    | some point => ⟨point, exponent⟩
    | none => searchGrid rank steps

/-- The fewest digits that read back as the number of this rank. -/
def shortest (rank : Nat) : Decimal :=
  if rank = 0 then ⟨0, 0⟩ else searchGrid rank 639

/-- How digits are set out. A decimal exponent is that of the first digit. -/
structure Layout where
  /-- Smaller exponents are written with an exponent. -/
  positionalFrom : Int
  /-- Exponents from this one on are written with an exponent, if there is such a bound. -/
  positionalBelow : Option Int

/-- Positional from `0.00001` to below `1e16`. -/
def Layout.compact : Layout := ⟨-5, some 16⟩

def Layout.plain : Layout := ⟨-400, none⟩

/-- A positional number has at least one digit on either side of the point. An exponent always has
a sign. -/
def Decimal.render (layout : Layout) (d : Decimal) : List Char :=
  let digits := Nat.toDigits 10 d.digits
  let first : Int := (digits.length : Int) - 1 + d.exponent
  if decide (layout.positionalFrom ≤ first) && layout.positionalBelow.all (first < ·) then
    if d.exponent ≥ 0 then
      digits ++ List.replicate d.exponent.toNat '0' ++ ['.', '0']
    else if first ≥ 0 then
      digits.take (first.toNat + 1) ++ '.' :: digits.drop (first.toNat + 1)
    else
      '0' :: '.' :: List.replicate (-first - 1).toNat '0' ++ digits
  else
    let fraction := match digits.drop 1 with
      | [] => []
      | more => '.' :: more
    let sign := if first < 0 then '-' else '+'
    digits.take 1 ++ fraction ++ 'e' :: sign :: Nat.toDigits 10 first.natAbs

def Binary64.render (layout : Layout) (x : Binary64) : List Char :=
  (if x.negative then ['-'] else []) ++ (shortest x.rank).render layout

end BrowserActions.Number
