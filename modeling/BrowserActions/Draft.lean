import BrowserActions.Number.Extended

/-!
# Drafts

What a structured text says, in the order in which it says it: repeated members are kept, and
the place where the text stops being well formed is part of the tree. Whoever reads a typed value
from a draft meets its faults in writing order.
-/
namespace BrowserActions

open Number

inductive Draft where
  | null
  | bool (b : Bool)
  | integer (n : Int)
  | real (x : Extended)
  | string (s : String)
  /-- An array that is not closed goes on in a way that cannot be read. -/
  | array (items : List Draft) (closed : Bool)
  /-- A name may be unusable, as a string may be. -/
  | object (members : List (Option String × Draft)) (closed : Bool)
  /-- A well-formed number or string that stands for nothing. -/
  | unusable
  /-- Here the text stops being well formed. -/
  | broken
  deriving Repr, Inhabited

namespace Draft

mutual

/-- Nothing in the draft is broken off, so a reader may pass over it. -/
def isWhole : Draft → Bool
  | .array items closed => closed && areWhole items
  | .object members closed => closed && membersWhole members
  | .broken => false
  | _ => true

def areWhole : List Draft → Bool
  | [] => true
  | d :: ds => isWhole d && areWhole ds

def membersWhole : List (Option String × Draft) → Bool
  | [] => true
  | m :: ms => isWhole m.2 && membersWhole ms

end

end Draft
end BrowserActions
