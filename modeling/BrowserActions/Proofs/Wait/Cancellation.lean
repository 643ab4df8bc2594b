import Mathlib
import BrowserActions.Proofs.Wait.Course

/-!
# Checks that cancel their own wait

No check starts once the wait is cancelled. The check that cancels it is interrupted as soon as it
has to wait. One that does not have to wait still tells its result, and only a result of false that
leaves the wait open is followed by the cancellation.
-/
namespace BrowserActions.Wait

/-- How the check `n` ends the wait that it cancels. -/
def Sample.cancelledEnding (o : PollOptions) (n : Nat) (s : Sample Bool) : Ending :=
  if 0 < s.delay ∨ s.hangs then .failed .cancelled
  else
    match s.result with
    | .ok true => .resolved
    | .error e => .checkFailed e
    | .ok false => if o.maxChecks.toNat = n + 1 then timeoutEnding o else .failed .cancelled

/-- The check `n` starts and cancels the wait, which no check before it does. -/
structure CancelledAt (o : PollOptions) (out : Outside) (samples : List (Sample Bool)) (n : Nat)
    (s : Sample Bool) : Prop where
  sample : samples[n]? = some s
  cancels : s.cancels = true
  first : ∀ m < n, ∀ p, samples[m]? = some p → p.cancels = false
  started : n < (waitFor o out samples).checks.length

variable {o : PollOptions} {out : Outside} {checks now start n : Nat} {s : Sample Bool}
  {samples rest : List (Sample Bool)}

theorem check_waiting (hc : s.cancels = true) (hw : 0 < s.delay ∨ s.hangs = true) :
    s.check out start = .ends start (.failed .cancelled) := by
  have hlong : ¬ (s.delay = 0 ∧ ¬ s.hangs) := by
    rintro ⟨hd, hh⟩
    rcases hw with hpos | hhang
    · exact Nat.ne_of_gt hpos hd
    · exact hh hhang
  rw [Sample.check, if_neg hlong, if_pos hc]

theorem check_instant (hw : ¬ (0 < s.delay ∨ s.hangs = true)) :
    s.check out start = s.deliver start := by
  have hd : s.delay = 0 := Nat.eq_zero_of_not_pos fun hpos => hw (.inl hpos)
  rw [Sample.check, if_pos ⟨hd, fun hh => hw (.inr hh)⟩]

theorem awake_of_started (h : 0 < (waitFrom o out false checks now samples).checks.length) :
    out.during? now (o.wakeFrom now) = none := by
  cases hd : out.during? now (o.wakeFrom now) with
  | none => rfl
  | some event =>
    rw [waitFrom, runFrom_asleep hd] at h
    exact absurd h (Nat.lt_irrefl 0)

theorem verdict_cancelled (hroom : o.maxChecks = 0 ∨ checks < o.maxChecks.toNat) :
    o.verdict checks false =
      if o.maxChecks.toNat = checks + 1 then some (timeoutEnding o) else none := by
  by_cases hlast : o.maxChecks.toNat = checks + 1
  · have hne : o.maxChecks ≠ 0 := by
      intro hzero
      rw [hzero] at hlast
      exact absurd hlast.symm (Nat.succ_ne_zero _)
    have hcount := countCheck_allowed (hroom.resolve_left hne)
    rw [if_pos hlast, PollOptions.verdict, if_neg Bool.false_ne_true, hcount, hlast,
      if_pos ⟨hne, le_rfl⟩, timeoutEnding, hlast]
  · rw [if_neg hlast]
    apply verdict_open
    refine hroom.imp_right fun hlt => ?_
    rw [countCheck_allowed hlt]
    omega

theorem waitFrom_cancelling (hc : s.cancels = true)
    (hroom : o.maxChecks = 0 ∨ checks < o.maxChecks.toNat)
    (hawake : out.during? now (o.wakeFrom now) = none) :
    waitFrom o out false checks now (s :: rest) =
      ⟨[o.wakeFrom now], s.cancelledEnding o checks, o.wakeFrom now⟩ := by
  rw [waitFrom, Sample.cancelledEnding]
  by_cases hw : 0 < s.delay ∨ s.hangs = true
  · rw [runFrom_ends hawake (check_waiting hc hw), if_pos hw]
  · have hcheck : s.check out (o.wakeFrom now) =
        s.deliver (o.wakeFrom now) := check_instant hw
    rw [if_neg hw]
    rw [Sample.deliver] at hcheck
    cases hr : s.result with
    | error e =>
      rw [hr] at hcheck
      exact runFrom_ends hawake hcheck
    | ok met =>
      rw [hr] at hcheck
      rw [runFrom_gives hawake hcheck]
      cases met with
      | true => rfl
      | false =>
        dsimp only
        rw [verdict_cancelled hroom]
        by_cases hlast : o.maxChecks.toNat = checks + 1
        · rw [if_pos hlast, if_pos hlast]
        · rw [if_neg hlast, if_neg hlast, hc]
          dsimp only
          rw [runFrom_cancelled]
          rfl

theorem cancelledEnding_count (hopen : o.maxChecks = 0 ∨ countCheck checks < o.maxChecks.toNat) :
    s.cancelledEnding o (countCheck checks + n) = s.cancelledEnding o (checks + (n + 1)) := by
  have hlast : (o.maxChecks.toNat = countCheck checks + n + 1) =
      (o.maxChecks.toNat = checks + (n + 1) + 1) := by
    rcases countCheck_open hopen with hzero | hcount
    · rw [hzero]
      exact propext ⟨fun h => absurd h.symm (Nat.succ_ne_zero _),
        fun h => absurd h.symm (Nat.succ_ne_zero _)⟩
    · rw [hcount, Nat.add_assoc checks, Nat.add_comm 1]
  simp only [Sample.cancelledEnding, hlast]

theorem waitFrom_cancelledAt (hs : samples[n]? = some s) (hc : s.cancels = true)
    (hfirst : ∀ m < n, ∀ p, samples[m]? = some p → p.cancels = false)
    (hroom : o.maxChecks = 0 ∨ checks < o.maxChecks.toNat)
    (hstarted : n < (waitFrom o out false checks now samples).checks.length) :
    waitFrom o out false checks now samples =
      ⟨checksFrom o.interval.inNanos samples now (n + 1), s.cancelledEnding o (checks + n),
        startFrom o.interval.inNanos samples now n⟩ := by
  induction n generalizing samples checks now with
  | zero =>
    obtain ⟨rest, rfl⟩ : ∃ rest, samples = s :: rest := by
      cases samples with
      | nil => cases hs
      | cons p rest => exact ⟨rest, by rw [Option.some.inj hs]⟩
    rw [waitFrom_cancelling hc hroom (awake_of_started hstarted), checksFrom_cons]
    rfl
  | succ n ih =>
    have hmore : 1 < (waitFrom o out false checks now samples).checks.length := by omega
    obtain ⟨p, rest, met, rfl, _, hv, hrun⟩ := goes_on hmore
    obtain ⟨_, hopen⟩ := verdict_leaves_open hv
    rw [hfirst 0 (Nat.succ_pos n) p rfl] at hrun
    change waitFrom o out false checks now (p :: rest) =
      (waitFrom o out false (countCheck checks) (o.wakeFrom now + p.delay)
        rest).withCheck (o.wakeFrom now) at hrun
    rw [hrun] at hstarted
    have hbehind : ∀ m < n, ∀ q, rest[m]? = some q → q.cancels = false := fun m hm q hq =>
      hfirst (m + 1) (Nat.succ_lt_succ hm) q hq
    rw [hrun, ih hs hbehind hopen (Nat.lt_of_succ_lt_succ hstarted), Run.withCheck,
      checksFrom_cons, cancelledEnding_count hopen, startFrom_cons]
    rfl

theorem cancelled_by_check (h : CancelledAt o out samples n s) :
    waitFor o out samples =
      ⟨(List.range (n + 1)).map (startAt o.interval.inNanos samples), s.cancelledEnding o n,
        startAt o.interval.inNanos samples n⟩ := by
  have hrun := waitFrom_cancelledAt h.sample h.cancels h.first (room_at_start o) h.started
  simp only [checksFrom, Nat.zero_add] at hrun
  exact hrun

def cancelledLast : List (Sample Bool) :=
  [⟨false, 3000000, false, .ok false⟩, ⟨true, 0, false, .ok false⟩]

def cancelledHung : List (Sample Bool) :=
  [⟨false, 3000000, false, .ok false⟩, ⟨true, 0, true, .ok true⟩]

theorem cancelled_by_second_check :
    (CancelledAt (.strict (.ofMillis 5) 2) .none cancelledLast 1 ⟨true, 0, false, .ok false⟩ ∧
      waitFor (.strict (.ofMillis 5) 2) .none cancelledLast =
        ⟨[5000000, 13000000], .failed (.timeout 2), 13000000⟩) ∧
    CancelledAt (.strict (.ofMillis 5) 2) .none cancelledHung 1 ⟨true, 0, true, .ok true⟩ ∧
      waitFor (.strict (.ofMillis 5) 2) .none cancelledHung =
        ⟨[5000000, 13000000], .failed .cancelled, 13000000⟩ := by
  have hfirst : ∀ s : Sample Bool, ∀ m < 1, ∀ p,
      [⟨false, 3000000, false, .ok false⟩, s][m]? = some p → p.cancels = false := by
    intro s m hm p hp
    obtain rfl : m = 0 := by omega
    rw [← Option.some.inj hp]
  have hlast :
      CancelledAt (.strict (.ofMillis 5) 2) .none cancelledLast 1 ⟨true, 0, false, .ok false⟩ :=
    ⟨rfl, rfl, hfirst _, by decide⟩
  have hhung :
      CancelledAt (.strict (.ofMillis 5) 2) .none cancelledHung 1 ⟨true, 0, true, .ok true⟩ :=
    ⟨rfl, rfl, hfirst _, by decide⟩
  exact ⟨⟨hlast, cancelled_by_check hlast⟩, hhung, cancelled_by_check hhung⟩

end BrowserActions.Wait
