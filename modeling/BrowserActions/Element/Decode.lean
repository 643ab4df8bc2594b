import BrowserActions.Decode
import BrowserActions.Element.Basic

/-!
# Reading elements

A style takes what it is not told from the standard style, and an element without attributes need
not mention them.
-/
namespace BrowserActions

open Decode

structure Style.Told where
  cursor : Option String := none
  opacity : Option String := none
  display : Option String := none
  visibility : Option String := none
  deriving DecidableEq, Repr

def Style.Told.complete (t : Style.Told) : Style where
  cursor := t.cursor.getD Style.standard.cursor
  opacity := t.opacity.getD Style.standard.opacity
  display := t.display.getD Style.standard.display
  visibility := t.visibility.getD Style.standard.visibility

def Style.record : Record Style.Told Style where
  title := "struct ComputedStyle"
  start := {}
  members := [
    ⟨"cursor", true, (·.cursor.isSome), fun t d => do pure { t with cursor := some (← string d) }⟩,
    ⟨"opacity", true, (·.opacity.isSome), fun t d => do pure { t with opacity := some (← string d) }⟩,
    ⟨"display", true, (·.display.isSome), fun t d => do pure { t with display := some (← string d) }⟩,
    ⟨"visibility", true, (·.visibility.isSome),
      fun t d => do pure { t with visibility := some (← string d) }⟩]
  finish t := pure t.complete

structure Element.Told where
  tag : Option String := none
  attributes : Option Attributes := none
  deriving DecidableEq, Repr

def Element.record : Record Element.Told Element where
  title := "struct ElementSnapshot"
  start := {}
  members := [
    ⟨"tagName", false, (·.tag.isSome), fun t d => do pure { t with tag := some (← string d) }⟩,
    ⟨"attributes", true, (·.attributes.isSome), fun t d => do
      pure { t with attributes := some (.ofList (← entries string d)) }⟩]
  finish t := do pure ⟨← wanted "tagName" t.tag, t.attributes.getD .empty⟩

structure DescribedElement.Told where
  element : Option Element := none
  style : Option Style := none
  deriving DecidableEq, Repr

def DescribedElement.record : Record DescribedElement.Told DescribedElement where
  title := "struct DescribedElement"
  start := {}
  members := [
    ⟨"element", false, (·.element.isSome), fun t d => do
      pure { t with element := some (← Element.record.decode true d) }⟩,
    ⟨"style", true, (·.style.isSome), fun t d => do
      pure { t with style := some (← Style.record.decode true d) }⟩]
  finish t := do pure ⟨← wanted "element" t.element, t.style.getD Style.standard⟩

end BrowserActions
