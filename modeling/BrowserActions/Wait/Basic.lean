import BrowserActions.Failure
import BrowserActions.Wait.Duration

/-!
# Waiting

A wait sleeps for an interval, makes a check, and goes on so until a check holds, fails, or was
the last one allowed. Checks never overlap. The wait may be cancelled, and its caller may drop it;
both end it at once, also in the middle of a check.

A run is told on a clock that counts nanoseconds from the start of the wait. A check may take any
time. The timer that ends the sleep in front of it knows whole milliseconds only; the wait starts
at one of them, and stays in the timer's range of 2^64 of them. Nothing else takes time.

When an event from outside falls on the very instant at which a sleep or a check ends, either may
be seen first. The runs here see the end first, and then the event at the next thing that they
would have to wait for; of two events at one instant they see the cancellation. Nothing is said
about the other runs that such a tie allows.
-/
namespace BrowserActions

namespace Wait

/-- The nanoseconds of a millisecond. -/
def tick : Nat := 1000000

/-- When a sleep ends that is due at some time: at the first whole millisecond from then on. -/
def wake (due : Nat) : Nat := due + (tick - due % tick) % tick

end Wait

structure PollOptions where
  interval : Duration
  /-- How many checks may fail to hold; zero sets no limit. -/
  maxChecks : UInt32
  rejectOnTimeout : Bool
  deriving DecidableEq, Repr

def PollOptions.strict (interval : Duration) (maxChecks : UInt32) : PollOptions :=
  ⟨interval, maxChecks, true⟩

def PollOptions.bestEffort (o : PollOptions) : PollOptions := { o with rejectOnTimeout := false }

/-- When a wait that goes to sleep at `now` makes its next check. -/
def PollOptions.wakeFrom (o : PollOptions) (now : Nat) : Nat := Wait.wake (now + o.interval.inNanos)

namespace Wait

/-- What one check does: it may cancel the wait, take its time, and then hang, fail or give a
value. -/
structure Sample (α : Type) where
  cancels : Bool
  delay : Nat
  hangs : Bool
  result : Except Failure α

inductive Ending where
  | resolved
  | timedOut
  | failed (e : Failure)
  /-- A check failed. Its failure is passed on as it is, of whatever kind it may be. -/
  | checkFailed (e : Failure)
  | dropped
  | never

/-- When the checks started, and how and when the run ended. -/
structure Run where
  checks : List Nat
  ending : Ending
  endsAt : Nat

/-- What happens to a wait from outside, and when. -/
structure Outside where
  cancelAt : Option Nat
  dropAt : Option Nat
  deriving DecidableEq, Repr

def Outside.none : Outside := ⟨.none, .none⟩

def Outside.first? (out : Outside) : Option (Nat × Ending) :=
  match out.cancelAt, out.dropAt with
  | some c, some d => if d < c then some (d, .dropped) else some (c, .failed .cancelled)
  | some c, .none => some (c, .failed .cancelled)
  | .none, some d => some (d, .dropped)
  | .none, .none => .none

def Outside.during? (out : Outside) (now till : Nat) : Option (Nat × Ending) :=
  match out.first? with
  | some (t, ending) =>
    if t ≤ now then some (now, ending) else if t < till then some (t, ending) else .none
  | .none => .none

def Outside.after? (out : Outside) (now : Nat) : Option (Nat × Ending) :=
  match out.first? with
  | some (t, ending) => some (max t now, ending)
  | .none => .none

inductive Checked (α : Type) where
  | ends (time : Nat) (ending : Ending)
  | gives (time : Nat) (value : α)

def Sample.deliver {α : Type} (s : Sample α) (now : Nat) : Checked α :=
  match s.result with
  | .ok a => .gives now a
  | .error e => .ends now (.checkFailed e)

/-- A check that cancels its own wait is interrupted as soon as it takes time. -/
def Sample.check {α : Type} (out : Outside) (start : Nat) (s : Sample α) : Checked α :=
  if s.delay = 0 ∧ ¬ s.hangs then s.deliver start
  else if s.cancels then .ends start (.failed .cancelled)
  else
    match if s.delay = 0 then .none else out.during? start (start + s.delay) with
    | some (t, ending) => .ends t ending
    | .none =>
      if s.hangs then
        match out.after? (start + s.delay) with
        | some (t, ending) => .ends t ending
        | .none => .ends (start + s.delay) .never
      else s.deliver (start + s.delay)

def Run.withCheck (r : Run) (start : Nat) : Run := { r with checks := start :: r.checks }

/-- The number of checks that did not hold stays at its greatest value. -/
def countCheck (checks : Nat) : Nat := min (checks + 1) (UInt32.size - 1)

/-- What is left of a run at a time when no check is being made. `observe` judges the values that
the checks give. -/
def runFrom {σ α : Type} (o : PollOptions) (out : Outside) (observe : σ → α → σ × Bool)
    (state : σ) (cancelled : Bool) (checks now : Nat) (samples : List (Sample α)) : Run :=
  if cancelled then ⟨[], .failed .cancelled, now⟩
  else
    let start := o.wakeFrom now
    match out.during? now start with
    | some (t, ending) => ⟨[], ending, t⟩
    | .none =>
      match samples with
      | [] => ⟨[start], .checkFailed (.config (.check "samples exhausted")), start⟩
      | s :: rest =>
        match s.check out start with
        | .ends t ending => ⟨[start], ending, t⟩
        | .gives t value =>
          let (state, met) := observe state value
          if met then ⟨[start], .resolved, t⟩
          else
            let checks := countCheck checks
            if o.maxChecks ≠ 0 ∧ o.maxChecks.toNat ≤ checks then
              ⟨[start], if o.rejectOnTimeout then .failed (.timeout checks) else .timedOut, t⟩
            else (runFrom o out observe state s.cancels checks t rest).withCheck start

def run {σ α : Type} (o : PollOptions) (out : Outside) (observe : σ → α → σ × Bool) (state : σ)
    (samples : List (Sample α)) : Run :=
  runFrom o out observe state false 0 0 samples

end Wait

/-- Waits until a condition holds. -/
def waitFor (o : PollOptions) (out : Wait.Outside) (samples : List (Wait.Sample Bool)) : Wait.Run :=
  Wait.run o out (fun (_ : Unit) met => ((), met)) () samples

end BrowserActions
