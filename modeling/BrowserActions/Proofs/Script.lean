import Mathlib
import BrowserActions.Script
import BrowserActions.Proofs.Json.Literal

/-!
# Selectors inside page scripts

A script is the same page code for every selector, around a literal that stands for the selector
and closes where the code goes on. No selector can add code of its own.
-/
namespace BrowserActions.Script

open Json

structure Embeds (t : Template) (script : String → String) : Prop where
  around : ∀ selector, ∃ literal, IsLiteral selector literal ∧
    (script selector).toList = t.before.toList ++ literal ++ t.after.toList
  /-- Read where the fixed text before it ends, the literal leaves the fixed text behind it. -/
  read : ∀ selector, literal? ((script selector).toList.drop t.before.toList.length) =
    some (selector, t.after.toList)
  injective : Function.Injective script

theorem toList_fill (t : Template) (selector : String) :
    (t.fill selector).toList = t.before.toList ++ quote selector ++ t.after.toList := by
  rw [Template.fill, String.toList_ofList]

theorem read_fill (t : Template) (selector : String) :
    literal? ((t.fill selector).toList.drop t.before.toList.length) =
      some (selector, t.after.toList) := by
  rw [toList_fill, List.append_assoc, List.drop_left]
  exact literal_quote selector t.after.toList

theorem embeds_fill (t : Template) : Embeds t t.fill where
  around selector := ⟨quote selector, isLiteral_quote selector, toList_fill t selector⟩
  read := read_fill t
  injective selector selector' h := by
    have hread := read_fill t selector
    rw [h, read_fill t selector'] at hread
    exact (Prod.mk.inj (Option.some.inj hread)).1.symm

/-- Whatever the selector is, both page scripts keep it inside the literal. -/
theorem selector_stays_in_literal :
    Embeds countTemplate count ∧ Embeds describeTemplate describe :=
  ⟨embeds_fill countTemplate, embeds_fill describeTemplate⟩

/-- A quote, a bracket and a line break do not end the literal. -/
example : count "a\"])\n" = "document.querySelectorAll(\"a\\\"])\\n\").length" := by decide +kernel

end BrowserActions.Script
