import Mathlib
import BrowserActions.Proofs.Wait.Round

/-!
# The timeline of an undisturbed wait

Checks are counted from zero. Without cancellation, drop or hanging checks, each check starts when
the timer ends a sleep of one interval behind the check before it, and the first result that is not
false decides, unless the allowed checks are used up before.
-/
namespace BrowserActions.Wait

variable {α : Type}

def delayAt (samples : List (Sample α)) (n : Nat) : Nat :=
  match samples[n]? with
  | some s => s.delay
  | none => 0

/-- What a check gives. Past the end of the schedule it fails. -/
def resultAt (samples : List (Sample α)) (n : Nat) : Except Failure α :=
  match samples[n]? with
  | some s => s.result
  | none => .error (.config (.check "samples exhausted"))

/-- When the check `n` starts, if the wait goes to sleep for the first one at `now`. -/
def startFrom (interval : Nat) (samples : List (Sample α)) (now : Nat) : Nat → Nat
  | 0 => wake (now + interval)
  | n + 1 => wake (startFrom interval samples now n + delayAt samples n + interval)

def endFrom (interval : Nat) (samples : List (Sample α)) (now n : Nat) : Nat :=
  startFrom interval samples now n + delayAt samples n

def checksFrom (interval : Nat) (samples : List (Sample α)) (now n : Nat) : List Nat :=
  (List.range n).map (startFrom interval samples now)

def startAt (interval : Nat) (samples : List (Sample α)) : Nat → Nat :=
  startFrom interval samples 0

def endAt (interval : Nat) (samples : List (Sample α)) : Nat → Nat := endFrom interval samples 0

def timeoutEnding (o : PollOptions) : Ending :=
  if o.rejectOnTimeout then .failed (.timeout o.maxChecks.toNat) else .timedOut

theorem startFrom_cons (interval : Nat) (s : Sample α) (rest : List (Sample α)) (now n : Nat) :
    startFrom interval (s :: rest) now (n + 1) =
      startFrom interval rest (wake (now + interval) + s.delay) n := by
  induction n with
  | zero => rfl
  | succ n ih =>
    rw [startFrom, ih, startFrom]
    rfl

theorem endFrom_cons (interval : Nat) (s : Sample α) (rest : List (Sample α)) (now n : Nat) :
    endFrom interval (s :: rest) now (n + 1) =
      endFrom interval rest (wake (now + interval) + s.delay) n := by
  rw [endFrom, startFrom_cons]
  rfl

variable {o : PollOptions} {checks now : Nat} {samples : List (Sample Bool)}

theorem checksFrom_cons (interval : Nat) (s : Sample α) (rest : List (Sample α)) (now n : Nat) :
    checksFrom interval (s :: rest) now (n + 1) =
      wake (now + interval) :: checksFrom interval rest (wake (now + interval) + s.delay) n := by
  rw [checksFrom, List.range_succ_eq_map, List.map_cons, List.map_map, checksFrom]
  congr 1
  apply List.map_congr_left
  intro m _
  exact startFrom_cons interval s rest now m

theorem withCheck_timeline (interval : Nat) (s : Sample α) (rest : List (Sample α))
    (e : Ending) (now n m : Nat) :
    (Run.mk (checksFrom interval rest (wake (now + interval) + s.delay) n) e
      (endFrom interval rest (wake (now + interval) + s.delay) m)).withCheck
        (wake (now + interval)) =
      ⟨checksFrom interval (s :: rest) now (n + 1), e,
        endFrom interval (s :: rest) now (m + 1)⟩ := by
  rw [Run.withCheck, checksFrom_cons, endFrom_cons]

theorem verdict_open (h : o.maxChecks = 0 ∨ countCheck checks < o.maxChecks.toNat) :
    o.verdict checks false = none := by
  rw [PollOptions.verdict, if_neg Bool.false_ne_true, if_neg]
  rintro ⟨hne, hle⟩
  rcases h with hzero | hlt
  · exact hne hzero
  · exact Nat.not_lt.mpr hle hlt

end BrowserActions.Wait
