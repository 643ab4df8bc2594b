import Mathlib
import BrowserActions.Proofs.Wait.Ceiling
import BrowserActions.Proofs.Wait.Course
import BrowserActions.Proofs.Wait.Tracker

/-!
# Waiting for four equal measurements

Waiting until a page is stable is waiting for a condition: that a measurement and the three before
it are the same and not zero. The tracker, which only knows the last measurement and a count, tells
just that for as long as the wait goes on.
-/
namespace BrowserActions.Wait

def measuredAt (samples : List (Sample UInt64)) (n : Nat) : Option UInt64 :=
  (resultAt samples n).toOption

/-- The check `n` and the three before it gave the same measurement, which is not zero. -/
def SettledAt (samples : List (Sample UInt64)) (n : Nat) : Prop :=
  3 ≤ n ∧ ∃ v ∈ measuredAt samples n, v ≠ 0 ∧ ∀ back ≤ 3, measuredAt samples (n - back) = some v

instance (samples : List (Sample UInt64)) (n : Nat) : Decidable (SettledAt samples n) :=
  inferInstanceAs (Decidable (_ ∧ _))

def Sample.map {α β : Type} (f : α → β) (s : Sample α) : Sample β :=
  ⟨s.cancels, s.delay, s.hangs, s.result.map f⟩

def windowed (samples : List (Sample UInt64)) : List (Sample Bool) :=
  samples.mapIdx fun n s => s.map fun _ => decide (SettledAt samples n)

variable {σ α β : Type} {o : PollOptions} {out : Outside} {checks now start n m : Nat}
  {samples rest : List (Sample UInt64)} {seen : List UInt64} {tracker : Tracker}

def Checked.map (f : α → β) : Checked α → Checked β
  | .ends t e => .ends t e
  | .gives t a => .gives t (f a)

/-- The first `n` checks gave those measurements, listed from the latest one back. -/
structure Seen (samples : List (Sample UInt64)) (n : Nat) (seen : List UInt64) : Prop where
  length : seen.length = n
  measured : ∀ back < n, measuredAt samples (n - 1 - back) = seen[back]?

theorem Seen.next (h : Seen samples n seen) {v : UInt64} (hv : measuredAt samples n = some v) :
    Seen samples (n + 1) (v :: seen) := by
  refine ⟨congrArg (· + 1) h.length, fun back hback => ?_⟩
  cases back with
  | zero => exact hv
  | succ back =>
    have hmeasured := h.measured back (Nat.lt_of_succ_lt_succ hback)
    rw [List.getElem?_cons_succ, ← hmeasured]
    congr 1
    omega

theorem startFrom_congr {a : List (Sample α)} {b : List (Sample β)} (interval now : Nat)
    (h : ∀ m < n, delayAt a m = delayAt b m) :
    startFrom interval a now n = startFrom interval b now n := by
  induction n with
  | zero => rfl
  | succ n ih =>
    rw [startFrom, startFrom, ih fun m hm => h m (Nat.lt_succ_of_lt hm), h n (Nat.lt_succ_self n)]

theorem endFrom_congr {a : List (Sample α)} {b : List (Sample β)} (interval now : Nat)
    (h : ∀ m ≤ n, delayAt a m = delayAt b m) :
    endFrom interval a now n = endFrom interval b now n := by
  rw [endFrom, endFrom, startFrom_congr interval now fun m hm => h m hm.le, h n le_rfl]

theorem getElem_windowed (samples : List (Sample UInt64)) (n : Nat) :
    (windowed samples)[n]? =
      samples[n]?.map fun s => s.map fun _ => decide (SettledAt samples n) := by
  rw [windowed, List.getElem?_mapIdx]

theorem delayAt_windowed (samples : List (Sample UInt64)) (n : Nat) :
    delayAt (windowed samples) n = delayAt samples n := by
  rw [delayAt, delayAt, getElem_windowed]
  cases samples[n]? <;> rfl

theorem DecidedAt.windowed {met : Bool} {r : Run}
    (h : DecidedAt o 0 0 (windowed samples) n met r) :
    r = ⟨(List.range (n + 1)).map (startAt o.interval.inNanos samples),
      if met then .resolved else timeoutEnding o, endAt o.interval.inNanos samples n⟩ := by
  have hstart : startFrom o.interval.inNanos (Wait.windowed samples) 0 =
      startAt o.interval.inNanos samples :=
    funext fun m => startFrom_congr _ _ fun k _ => delayAt_windowed samples k
  have hend : endFrom o.interval.inNanos (Wait.windowed samples) 0 n =
      endAt o.interval.inNanos samples n := endFrom_congr _ _ fun k _ => delayAt_windowed samples k
  rw [h.run, hend, checksFrom, hstart]

end BrowserActions.Wait
