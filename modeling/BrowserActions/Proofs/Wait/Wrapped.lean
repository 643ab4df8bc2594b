import Mathlib
import BrowserActions.Proofs.Wait.History

/-!
# A count that runs out

A tracker takes measurements for as long as it is given any, and its count has 32 bits. A
measurement that is repeated often enough takes the count past its last value. Then it starts again
from zero, and what was stable is not told to be so until it has come three times more.
-/
namespace BrowserActions.Tracker

/-- The measurement is a repeat for which the count has no value left. -/
def Overflows (t : Tracker) (v : UInt64) : Prop :=
  t.last ≠ 0 ∧ v = t.last ∧ UInt32.size ≤ t.repeats.toNat + 1

/-- The measurement `n`, which is `v`, repeats the first of its run for this many times. The tracker
counts them modulo `2 ^ 32` and tells a stable measurement where that is three at least. It has no
value left for a repeat that takes it to a multiple of `2 ^ 32`. -/
structure CountedAs (samples : List UInt64) (n : Nat) (v : UInt64) (again : Nat) : Prop where
  answered : (initial.answers samples)[n]? =
    some (decide (3 ≤ again % 2 ^ 32), UInt32.ofNat (again % 2 ^ 32))
  overflows : (initial.after (samples.take n)).Overflows v ↔ 0 < again ∧ 2 ^ 32 ∣ again

variable {samples seen : List UInt64} {t : Tracker} {v : UInt64} {n count : Nat}

theorem overflows_iff (h : Follows seen t) :
    t.Overflows v ↔ 0 < streak (v :: seen) ∧ UInt32.size ∣ streak (v :: seen) := by
  rw [Overflows, h.last, h.repeats]
  by_cases hsame : seen.headD 0 ≠ 0 ∧ v = seen.headD 0
  · rw [streak_repeated hsame]
    -- the remainder is at its greatest right in front of a multiple
    have hlast : UInt32.size ≤ streak seen % UInt32.size + 1 ↔ UInt32.size ∣ streak seen + 1 := by
      simp only [UInt32.size]
      omega
    constructor
    · rintro ⟨-, -, hfull⟩
      exact ⟨Nat.succ_pos _, hlast.mp hfull⟩
    · rintro ⟨-, hdvd⟩
      exact ⟨hsame.1, hsame.2, hlast.mpr hdvd⟩
  · rw [streak_changed hsame]
    constructor
    · rintro ⟨hne, hv, -⟩
      exact absurd ⟨hne, hv⟩ hsame
    · rintro ⟨hpos, -⟩
      exact absurd hpos (Nat.lt_irrefl 0)

theorem countedAs_streak (hv : samples[n]? = some v) :
    CountedAs samples n v (streak (v :: (samples.take n).reverse)) := by
  have hfollows := follows_after (samples.take n)
  refine ⟨?_, overflows_iff hfollows⟩
  have hrepeats := (hfollows.observe v).repeats
  have hcount := UInt32.ofNat_toNat (x := ((initial.after (samples.take n)).observe v).1.repeats)
  rw [getElem_answers initial hv, hfollows.met v, ← hcount, hrepeats]
  rfl

/-- However many measurements there are, a zero is no repeat, and any other one is repeated as often
as the run of equal ones that ends there is long, less one. -/
theorem run_counted_modulo (samples : List UInt64) (n : Nat) (v : UInt64)
    (hv : samples[n]? = some v) :
    (v = 0 → CountedAs samples n v 0) ∧
      (v ≠ 0 → ∃ again, LongestRun samples n (again + 1) ∧ CountedAs samples n v again) := by
  have hcounted := countedAs_streak hv
  constructor
  · intro hzero
    rwa [streak, if_pos hzero] at hcounted
  · intro hne
    exact ⟨_, longestRun_streak hv hne, hcounted⟩

/-- A change, and the third repeat behind it. -/
theorem run_counted_modulo_stable :
    let samples : List UInt64 := [5, 0, 5, 5, 5, 5]
    CountedAs samples 1 0 0 ∧ LongestRun samples 5 4 ∧ CountedAs samples 5 5 3 := by
  intro samples
  have hzero := (run_counted_modulo samples 1 0 rfl).1 rfl
  obtain ⟨again, hrun, hcounted⟩ := (run_counted_modulo samples 5 5 rfl).2 (by decide)
  have hthree : again = 3 := by
    rcases Nat.lt_trichotomy again 3 with hlt | heq | hgt
    · have hne := hrun.maximal (by omega)
      interval_cases again <;> exact absurd rfl hne
    · exact heq
    · have hequal := (hrun.equal 4 (by omega)).2
      exact absurd hequal (by decide)
  subst hthree
  exact ⟨hzero, hrun, hcounted⟩

theorem streak_replicate (hv : v ≠ 0) (n : Nat) : streak (v :: List.replicate n v) = n := by
  rw [streak, if_neg hv, List.takeWhile_replicate]
  simp

theorem countedAs_replicate (hv : v ≠ 0) (hn : n < count) :
    CountedAs (List.replicate count v) n v n := by
  have hcounted := countedAs_streak (List.getElem?_replicate_of_lt (a := v) hn)
  rwa [List.take_replicate, Nat.min_eq_left hn.le, List.reverse_replicate,
    streak_replicate hv] at hcounted

/-- A measurement that has been stable for `2 ^ 32 - 3` times is not when it comes once more. -/
theorem stable_then_overflows :
    let samples := List.replicate (2 ^ 32 + 1) (1 : UInt64)
    (initial.answers samples)[2 ^ 32 - 1]? = some (true, 4294967295) ∧
      (initial.after (samples.take (2 ^ 32))).Overflows 1 ∧
      (initial.answers samples)[2 ^ 32]? = some (false, 0) := by
  intro samples
  have hlast : CountedAs samples (2 ^ 32 - 1) 1 (2 ^ 32 - 1) :=
    countedAs_replicate (by decide) (by decide)
  have hnext : CountedAs samples (2 ^ 32) 1 (2 ^ 32) :=
    countedAs_replicate (by decide) (Nat.lt_succ_self _)
  have hoverflows : (initial.after (samples.take (2 ^ 32))).Overflows 1 :=
    hnext.overflows.mpr ⟨by decide, dvd_rfl⟩
  exact ⟨hlast.answered, hoverflows, hnext.answered⟩

end BrowserActions.Tracker
