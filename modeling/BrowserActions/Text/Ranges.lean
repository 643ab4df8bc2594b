/-!
# Sets of characters

A set of characters written as inclusive ranges of code points.
-/
namespace BrowserActions.Text

abbrev Ranges := List (Nat × Nat)

def Ranges.contains (r : Ranges) (c : Char) : Bool :=
  r.any fun p => decide (p.1 ≤ c.toNat) && decide (c.toNat ≤ p.2)

end BrowserActions.Text
