import BrowserActions.Wait.Basic

/-!
# Waiting until a page is stable

A measurement of the page, for instance a count of elements, is taken as often as the timeout
allows. The page is stable once a measurement other than zero has come four times in a row.
-/
namespace BrowserActions

/-- The last measurement, and how often it has been repeated since it first came. -/
structure Tracker where
  last : UInt64
  repeats : UInt32
  deriving DecidableEq, Repr

namespace Tracker

def initial : Tracker := ⟨0, 0⟩

def neededRepeats : UInt32 := 3

def observe (t : Tracker) (measured : UInt64) : Tracker × Bool :=
  let repeats := if t.last ≠ 0 ∧ measured = t.last then t.repeats + 1 else 0
  if neededRepeats ≤ repeats then (⟨t.last, repeats⟩, true) else (⟨measured, repeats⟩, false)

end Tracker

structure StabilityOptions where
  interval : Duration
  /-- Zero sets no limit. -/
  timeout : Duration
  rejectOnTimeout : Bool
  deriving DecidableEq, Repr

namespace StabilityOptions

def standard : StabilityOptions := ⟨.ofMillis 200, .ofMillis 5000, false⟩

def strict (o : StabilityOptions) : StabilityOptions := { o with rejectOnTimeout := true }

/-- The least number of intervals that cover the timeout, as far as 32 bits reach. -/
def maxChecks (o : StabilityOptions) : Except Failure UInt32 :=
  let interval := o.interval.inNanos
  if interval = 0 then .error (.config .zeroInterval)
  else
    let checks := (o.timeout.inNanos + (interval - 1)) / interval
    .ok (UInt32.ofNat (min checks (UInt32.size - 1)))

def pollOptions (o : StabilityOptions) : Except Failure PollOptions := do
  pure ⟨o.interval, ← o.maxChecks, o.rejectOnTimeout⟩

end StabilityOptions

def waitTillStable (o : StabilityOptions) (out : Wait.Outside)
    (samples : List (Wait.Sample UInt64)) : Wait.Run :=
  match o.pollOptions with
  | .ok poll => Wait.run poll out Tracker.observe Tracker.initial samples
  | .error e => ⟨[], .failed e, 0⟩

end BrowserActions
