import Mathlib
import BrowserActions.Proofs.Wait.Timer
import BrowserActions.Wait.Stability

/-!
# One round of a wait

A round sleeps for an interval and makes a check. `verdict` says how the value of a check ends the
run, and each way in which a round can go has a lemma that says what the run is then.
-/
namespace BrowserActions

open Wait

/-- How a value ends a run that had made `checks` checks before, if it does. -/
def PollOptions.verdict (o : PollOptions) (checks : Nat) (met : Bool) : Option Ending :=
  if met then some .resolved
  else if o.maxChecks ≠ 0 ∧ o.maxChecks.toNat ≤ countCheck checks then
    some (if o.rejectOnTimeout then .failed (.timeout (countCheck checks)) else .timedOut)
  else none

namespace Wait

variable {σ α : Type} {o : PollOptions} {out : Outside} {observe : σ → α → σ × Bool} {state : σ}
  {checks now t : Nat} {e : Ending} {s : Sample α} {samples : List (Sample α)}

/-- What a check that was asked for past the end of the schedule fails with. -/
def exhausted : Ending := .checkFailed (.config (.check "samples exhausted"))

theorem runFrom_cancelled :
    runFrom o out observe state true checks now samples = ⟨[], .failed .cancelled, now⟩ := by
  rw [runFrom]
  rfl

theorem runFrom_asleep (h : out.during? now (o.wakeFrom now) = some (t, e)) :
    runFrom o out observe state false checks now samples = ⟨[], e, t⟩ := by
  rw [runFrom]
  simp [h]

theorem runFrom_nil (h : out.during? now (o.wakeFrom now) = none) :
    runFrom o out observe state false checks now [] =
      ⟨[o.wakeFrom now], exhausted, o.wakeFrom now⟩ := by
  rw [runFrom]
  simp [h, exhausted]

theorem runFrom_ends (h : out.during? now (o.wakeFrom now) = none)
    (hs : s.check out (o.wakeFrom now) = .ends t e) :
    runFrom o out observe state false checks now (s :: samples) =
      ⟨[o.wakeFrom now], e, t⟩ := by
  rw [runFrom]
  simp [h, hs]

theorem runFrom_gives {a : α} (h : out.during? now (o.wakeFrom now) = none)
    (hs : s.check out (o.wakeFrom now) = .gives t a) :
    runFrom o out observe state false checks now (s :: samples) =
      match o.verdict checks (observe state a).2 with
      | some e => ⟨[o.wakeFrom now], e, t⟩
      | none => (runFrom o out observe (observe state a).1 s.cancels (countCheck checks) t
          samples).withCheck (o.wakeFrom now) := by
  rw [runFrom]
  simp only [Bool.false_eq_true, if_false, h, hs, PollOptions.verdict]
  cases (observe state a).2 with
  | true => rfl
  | false =>
    simp only [Bool.false_eq_true, if_false]
    split <;> rfl

theorem during_none (now till : Nat) : Outside.none.during? now till = none := rfl

theorem waitTillStable_eq : waitTillStable = fun o out samples =>
    match o.pollOptions with
    | .ok poll => run poll out Tracker.observe .initial samples
    | .error e => ⟨[], .failed e, 0⟩ := rfl

/-- With an interval to sleep for, waiting for stability is a wait like any other. -/
theorem stable_run {o : StabilityOptions} (h : o.interval.inNanos ≠ 0) :
    ∃ checks, o.maxChecks = .ok checks ∧ ∀ out samples, waitTillStable o out samples =
      run ⟨o.interval, checks, o.rejectOnTimeout⟩ out Tracker.observe .initial samples := by
  obtain ⟨checks, hchecks⟩ : ∃ checks, o.maxChecks = .ok checks := by
    rw [StabilityOptions.maxChecks, if_neg h]
    exact ⟨_, rfl⟩
  have hpoll : o.pollOptions = .ok ⟨o.interval, checks, o.rejectOnTimeout⟩ := by
    rw [StabilityOptions.pollOptions, hchecks]
    rfl
  refine ⟨checks, hchecks, fun out samples => ?_⟩
  rw [waitTillStable_eq]
  dsimp only
  rw [hpoll]

end Wait
end BrowserActions
