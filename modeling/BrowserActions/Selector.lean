import BrowserActions.Text.Blank
import BrowserActions.Text.DecimalDigit
import BrowserActions.Text.Replace

/-!
# From XPath to CSS selectors

A path expression is changed as text, stage by stage. Child and descendant steps, positions,
attribute tests, `contains()` and `name()` are understood; anything else passes through. Later
stages rely on what earlier ones did to slashes and brackets.
-/
namespace BrowserActions.Selector

open Text

def literal (what out : List Char) : Rule := fun cs =>
  (strip what cs).map fun _ => (out, what.length)

/-- The pieces of a bracket group, if `cs` starts with it: the text up to `stop`, and how long the
group is. -/
def group (lead stop : List Char) (out : List Char → List Char) : Rule := fun cs => do
  let inside ← strip lead cs
  let (body, rest) ← upTo stop inside
  pure (out body, cs.length - rest.length)

def descendantRule : Rule := literal ['/', '/'] [' ']

def childRule : Rule := literal ['/'] [' ', '>', ' ']

/-- A position, such as `[12]`. -/
def positionRule : Rule := fun cs => do
  let inside ← strip ['['] cs
  let digits := inside.takeWhile isDecimalDigit
  let rest ← strip [']'] (inside.drop digits.length)
  if digits.isEmpty then none
  else pure (":nth-of-type(".toList ++ digits ++ [')'], cs.length - rest.length)

def attributeRule : Rule := literal ['@'] []

/-- The quoted text behind a comma, and what follows it. -/
def quotedValue? (cs : List Char) : Option (List Char × List Char) := do
  upTo ['\'', ')', ']'] (← strip ['\''] (cs.dropWhile isBlank))

/-- The text before the first comma that a quoted value follows, that value, and the rest. -/
def containsParts? : List Char → Option (List Char × List Char × List Char)
  | [] => none
  | c :: cs =>
    let here := if c = ',' then quotedValue? cs else none
    match here with
    | some (value, rest) => some ([], value, rest)
    | none => if c = '\n' then none else (containsParts? cs).map fun p => (c :: p.1, p.2)

/-- A substring test, `[contains(a,'v')]`. -/
def containsRule : Rule := fun cs => do
  let inside ← strip "[contains(".toList cs
  let (subject, value, rest) ← containsParts? inside
  pure ('[' :: subject ++ ['*', '=', '\''] ++ value ++ ['\'', ']'], cs.length - rest.length)

def nameRule : Rule := group "[name()='".toList ['\'', ']'] id

/-- Any other bracket group loses its blank ends. -/
def predicateRule : Rule := group ['['] [']'] fun body => '[' :: trim body ++ [']']

/-- In the order in which they are applied. -/
def stages : List Rule :=
  [descendantRule, childRule, positionRule, attributeRule, containsRule, nameRule, predicateRule]

def translate (xpath : List Char) : List Char :=
  trim (stages.foldl (fun cs rule => replaceAll rule cs) xpath)

def ofXPath (xpath : String) : String := String.ofList (translate xpath.toList)

end BrowserActions.Selector
