import BrowserActions.Number.Shortest

/-!
# Numbers that need not be finite
-/
namespace BrowserActions.Number

inductive Extended where
  | finite (x : Binary64)
  | infinity (negative : Bool)
  | notANumber
  deriving DecidableEq, Repr

def Extended.render (layout : Layout) : Extended → List Char
  | .finite x => x.render layout
  | .infinity false => "inf".toList
  | .infinity true => "-inf".toList
  | .notANumber => "NaN".toList

end BrowserActions.Number
