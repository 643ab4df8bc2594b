import BrowserActions.Json.Writer

/-!
# Page scripts

Scripts that run inside a page. A selector is put into a script as a string literal, in the form
that JSON and page scripts share.
-/
namespace BrowserActions.Script

/-- A script text around a literal. -/
structure Template where
  before : String
  after : String

def Template.fill (t : Template) (selector : String) : String :=
  String.ofList (t.before.toList ++ Json.quote selector ++ t.after.toList)

def countTemplate : Template := ⟨"document.querySelectorAll(", ").length"⟩

def describeTemplate : Template where
  before := "(() => \x7b\n  const el = document.querySelector("
  after := ");\n" ++
    "  if (!el) return null;\n" ++
    "  const cs = window.getComputedStyle(el);\n" ++
    "  const attributes = \x7b\x7d;\n" ++
    "  for (const attr of el.attributes) attributes[attr.name] = attr.value;\n" ++
    "  return \x7b\n" ++
    "    element: \x7b tagName: el.tagName, attributes \x7d,\n" ++
    "    style: \x7b cursor: cs.cursor, opacity: cs.opacity, display: cs.display, visibility: cs.visibility \x7d,\n" ++
    "  \x7d;\n" ++
    "\x7d)()"

def count (selector : String) : String := countTemplate.fill selector

def describe (selector : String) : String := describeTemplate.fill selector

/-- Called on a node, brings it into the middle of the view. -/
def scrollIntoView : String :=
  "function() \x7b this.scrollIntoView(\x7b block: 'center', inline: 'center' \x7d); \x7d"

end BrowserActions.Script
