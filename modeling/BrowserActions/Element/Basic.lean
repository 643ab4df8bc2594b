import BrowserActions.Json.Basic
import BrowserActions.Keyed

/-!
# Elements

What is known of an element of a page: its tag, its attributes and its resolved style. From these
it is told whether a user could act on it.
-/
namespace BrowserActions

structure Style where
  cursor : String
  opacity : String
  display : String
  visibility : String
  deriving DecidableEq, Repr

/-- What a browser gives an element that nothing styles. -/
def Style.standard : Style := ⟨"auto", "1", "block", "visible"⟩

def Style.toJson (s : Style) : Json :=
  .object [("cursor", .string s.cursor), ("opacity", .string s.opacity),
    ("display", .string s.display), ("visibility", .string s.visibility)]

structure Attributes where
  entries : List (String × String)
  ascending : Keyed.Ascending entries
  deriving DecidableEq, Repr

namespace Attributes

def empty : Attributes := ⟨[], List.Pairwise.nil⟩

def ofList (entries : List (String × String)) : Attributes :=
  ⟨Keyed.ofList entries, Keyed.ascending_ofList entries⟩

def insert (a : Attributes) (name value : String) : Attributes :=
  ⟨Keyed.insert name value a.entries, a.ascending.insert name value⟩

def get? (a : Attributes) (name : String) : Option String := Keyed.lookup name a.entries

end Attributes

structure Element where
  tag : String
  attributes : Attributes
  deriving DecidableEq, Repr

namespace Element

def ofTag (tag : String) : Element := ⟨tag, .empty⟩

def toJson (e : Element) : Json :=
  .object [("tagName", .string e.tag),
    ("attributes", .object (e.attributes.entries.map fun a => (a.1, .string a.2)))]

def withAttribute (e : Element) (name value : String) : Element :=
  { e with attributes := e.attributes.insert name value }

def attribute? (e : Element) (name : String) : Option String := e.attributes.get? name
def hasAttribute (e : Element) (name : String) : Bool := (e.attribute? name).isSome

def nativeControls : List String := ["A", "INPUT", "BUTTON", "SELECT", "TEXTAREA"]
def inlineHandlers : List String := ["onclick", "onmousedown", "onmouseup", "onkeydown", "onkeyup"]

/-- Tags are compared without regard to the case of ASCII letters. -/
def sameTag (a b : String) : Bool := a.toList.map Char.toUpper == b.toList.map Char.toUpper

def isInteractive (e : Element) (s : Style) : Bool :=
  nativeControls.any (sameTag · e.tag) || inlineHandlers.any e.hasAttribute || s.cursor == "pointer"

def isVisible (e : Element) (s : Style) : Bool :=
  s.opacity != "" && s.opacity != "0" && s.display != "none" && s.visibility != "hidden"
    && e.attribute? "aria-hidden" != some "true"

def isActionable (e : Element) (s : Style) : Bool := e.isInteractive s && e.isVisible s

end Element

structure DescribedElement where
  element : Element
  style : Style
  deriving DecidableEq, Repr

def DescribedElement.isActionable (d : DescribedElement) : Bool := d.element.isActionable d.style

end BrowserActions
