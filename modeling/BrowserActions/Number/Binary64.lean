/-!
# Double-precision numbers

The finite IEEE 754 binary64 numbers. The numbers of one sign are counted from zero upwards, and
`rank` is a number's place in that count, so neighbours differ by one and a number is even
exactly if its rank is. All arithmetic is exact on natural numbers and rounds once, to the
nearest, ties to even.
-/
namespace BrowserActions.Number

def twoTo (n : Nat) : Nat := Nat.pow 2 n
def tenTo (n : Nat) : Nat := Nat.pow 10 n

/-- The place that infinity would have. -/
def infinityRank : Nat := 2047 * twoTo 52

structure Binary64 where
  negative : Bool
  rank : Nat
  rank_lt : rank < infinityRank
  deriving DecidableEq, Repr

/-- The size of the number of this rank, in units of `2 ^ -1074`. -/
def magnitude (rank : Nat) : Nat :=
  if rank < twoTo 52 then rank
  else (rank % twoTo 52 + twoTo 52) * twoTo (rank / twoTo 52 - 1)

def roundDiv (num den : Nat) : Nat :=
  let q := num / den
  let twice := 2 * (num % den)
  if twice < den ∨ (twice = den ∧ q % 2 = 0) then q else q + 1

/-- The rank of the number nearest to `num / den` units. It reaches `infinityRank` exactly if
the quotient is too large. -/
def rankOfUnits (num den : Nat) : Nat :=
  let shift := (num / den).log2 - 52
  shift * twoTo 52 + roundDiv num (den * twoTo shift)

def rankOfRatio (num den : Nat) : Nat := rankOfUnits (num * twoTo 1074) den

def mulRank (a b : Nat) : Nat := rankOfUnits (magnitude a * magnitude b) (twoTo 1074)
def divRank (a b : Nat) : Nat := rankOfRatio (magnitude a) (magnitude b)

def Binary64.ofRank? (negative : Bool) (rank : Nat) : Option Binary64 :=
  if h : rank < infinityRank then some ⟨negative, rank, h⟩ else none

/-- The number nearest to `digits * 10 ^ exponent`, if there is one. -/
def Binary64.ofDecimal? (negative : Bool) (digits : Nat) (exponent : Int) : Option Binary64 :=
  let size := (digits.log2 : Int) * 3 / 10 + exponent
  if digits = 0 ∨ size < -400 then ofRank? negative 0
  else if 400 < size then none
  else match exponent with
    | .ofNat e => ofRank? negative (rankOfRatio (digits * tenTo e) 1)
    | .negSucc e => ofRank? negative (rankOfRatio digits (tenTo (e + 1)))

end BrowserActions.Number
