import Mathlib
import BrowserActions.Proofs.Wait.Tracker

/-!
# A tracker and its measurements

A new tracker is given measurements one after the other. It tells a stable one exactly where four
equal ones other than zero come in a row, and it counts the run of equal ones so far, less the first
of them. Neither depends on what it told before.
-/
namespace BrowserActions.Tracker

def after (t : Tracker) (samples : List UInt64) : Tracker :=
  samples.foldl (fun t v => (t.observe v).1) t

/-- What the tracker tells at each measurement, and its count behind it. -/
def answers (t : Tracker) : List UInt64 → List (Bool × UInt32)
  | [] => []
  | v :: rest => ((t.observe v).2, (t.observe v).1.repeats) :: (t.observe v).1.answers rest

/-- The measurement `n`, counted from zero, ends a run of equal ones of this length, and the one in
front of the run is another. -/
structure LongestRun (samples : List UInt64) (n length : Nat) : Prop where
  equal : ∀ back < length, back ≤ n ∧ samples[n - back]? = samples[n]?
  maximal : length ≤ n → samples[n - length]? ≠ samples[n]?

variable {samples seen : List UInt64} {t : Tracker} {v : UInt64} {n back : Nat}

theorem streak_le (seen : List UInt64) : streak seen ≤ seen.length - 1 := by
  cases seen with
  | nil => exact le_rfl
  | cons v earlier =>
    rw [streak]
    split
    · exact Nat.zero_le _
    · exact (List.takeWhile_sublist _).length_le

theorem streak_fits (h : seen.length < UInt32.size) : streak seen + 1 < UInt32.size := by
  have hle := streak_le seen
  simp only [UInt32.size] at h ⊢
  omega

theorem follows_after (samples : List UInt64) :
    Follows samples.reverse (initial.after samples) := by
  induction samples using List.reverseRecOn with
  | nil => exact follows_initial
  | append_singleton samples v ih =>
    rw [after, List.foldl_append, List.reverse_append]
    exact ih.observe v

theorem tracks_after (h : samples.length ≤ UInt32.size) :
    Tracks samples.reverse (initial.after samples) := by
  apply (follows_after samples).tracks
  have hle := streak_le samples.reverse
  rw [List.length_reverse] at hle
  simp only [UInt32.size] at h ⊢
  omega

theorem getElem_answers (t : Tracker) (hv : samples[n]? = some v) :
    (t.answers samples)[n]? =
      some (((t.after (samples.take n)).observe v).2,
        ((t.after (samples.take n)).observe v).1.repeats) := by
  induction samples generalizing t n with
  | nil => cases hv
  | cons w samples ih =>
    cases n with
    | zero =>
      obtain rfl := Option.some.inj hv
      rfl
    | succ n => exact ih (t.observe w).1 hv

theorem getElem_reverse_take (hn : n ≤ samples.length) (hback : back < n) :
    (samples.take n).reverse[back]? = samples[n - 1 - back]? := by
  have hlength : (samples.take n).length = n := List.length_take_of_le hn
  rw [List.getElem?_reverse (hlength.symm ▸ hback), hlength,
    List.getElem?_take_of_lt (by omega)]

theorem back_lt (hn : n ≤ samples.length) (h : (samples.take n).reverse[back]? = some v) :
    back < n := by
  have hlt := (List.getElem?_eq_some_iff.mp h).1
  rwa [List.length_reverse, List.length_take_of_le hn] at hlt

theorem three_le_streak_take (hv : samples[n]? = some v) :
    3 ≤ streak (v :: (samples.take n).reverse) ↔
      3 ≤ n ∧ v ≠ 0 ∧ ∀ back ≤ 3, samples[n - back]? = some v := by
  have hn : n ≤ samples.length := (List.getElem?_eq_some_iff.mp hv).1.le
  rw [three_le_streak]
  constructor
  · rintro ⟨hne, hequal⟩
    have h3 : 3 ≤ n := back_lt hn (hequal 2 (by decide))
    refine ⟨h3, hne, fun back hback => ?_⟩
    cases back with
    | zero => exact hv
    | succ back =>
      rw [← hequal back hback, getElem_reverse_take hn (by omega), Nat.sub_sub, Nat.add_comm 1]
  · rintro ⟨h3, hne, hequal⟩
    refine ⟨hne, fun back hback => ?_⟩
    rw [getElem_reverse_take hn (by omega), Nat.sub_sub, Nat.add_comm 1]
    exact hequal (back + 1) hback

theorem longestRun_streak (hv : samples[n]? = some v) (hne : v ≠ 0) :
    LongestRun samples n (streak (v :: (samples.take n).reverse) + 1) := by
  have hn : n ≤ samples.length := (List.getElem?_eq_some_iff.mp hv).1.le
  rw [streak, if_neg hne]
  have hcount := le_length_takeWhile (v := v) (samples.take n).reverse
  refine ⟨fun back hback => ?_, fun hle heq => ?_⟩
  · cases back with
    | zero => exact ⟨Nat.zero_le n, rfl⟩
    | succ back =>
      have hequal := (hcount _).mp le_rfl back (Nat.lt_of_succ_lt_succ hback)
      have hlt := back_lt hn hequal
      rw [getElem_reverse_take hn hlt, Nat.sub_sub, Nat.add_comm 1] at hequal
      exact ⟨hlt, hequal.trans hv.symm⟩
  · -- one more equal measurement in front would have been counted
    refine Nat.not_succ_le_self _ ((hcount _).mpr fun back hback => ?_)
    rcases Nat.lt_succ_iff_lt_or_eq.mp hback with hlt | rfl
    · exact (hcount _).mp le_rfl back hlt
    · rw [getElem_reverse_take hn hle, Nat.sub_sub, Nat.add_comm 1]
      exact heq.trans hv

/-- Of as many measurements as the count has values, each one is told to be stable if and only if it
and the three before it are equal and not zero. The count is zero at a zero, and otherwise it is the
length of the run that ends there, less one. -/
theorem answers_run_of_four (samples : List UInt64) (h : samples.length ≤ 2 ^ 32) (n : Nat)
    (v : UInt64) (hv : samples[n]? = some v) :
    ∃ stable repeats, (initial.answers samples)[n]? = some (stable, repeats) ∧
      (stable = true ↔ 3 ≤ n ∧ v ≠ 0 ∧ ∀ back ≤ 3, samples[n - back]? = some v) ∧
      (v = 0 → repeats = 0) ∧ (v ≠ 0 → LongestRun samples n (repeats.toNat + 1)) := by
  have hn : n < samples.length := (List.getElem?_eq_some_iff.mp hv).1
  have hlength : (samples.take n).length < UInt32.size := by
    rw [List.length_take_of_le hn.le]
    exact Nat.lt_of_lt_of_le hn h
  have hfits : streak (samples.take n).reverse + 1 < UInt32.size :=
    streak_fits (by rwa [List.length_reverse])
  have htracks := tracks_after hlength.le
  have hrepeats := (htracks.observe hfits v).repeats
  refine ⟨_, _, getElem_answers initial hv, ?_, fun hzero => ?_, fun hne => ?_⟩
  · rw [observe_met htracks hfits, decide_eq_true_iff]
    exact three_le_streak_take hv
  · rw [streak, if_pos hzero] at hrepeats
    exact UInt32.toNat_inj.mp hrepeats
  · rw [hrepeats]
    exact longestRun_streak hv hne

/-- The second stable measurement in a row, and the change behind it. -/
theorem answers_run_of_four_twice :
    let samples : List UInt64 := [7, 0, 5, 5, 5, 5, 5, 7]
    (initial.answers samples)[6]? = some (true, 4) ∧ LongestRun samples 6 5 ∧
      (initial.answers samples)[7]? = some (false, 0) ∧ LongestRun samples 7 1 := by
  intro samples
  obtain ⟨stable, repeats, hanswer, -, -, hrun⟩ :=
    answers_run_of_four samples (by decide) 6 5 rfl
  obtain ⟨changed, fresh, hchange, -, -, hnext⟩ :=
    answers_run_of_four samples (by decide) 7 7 rfl
  have hfive : (initial.answers samples)[6]? = some (true, 4) := by decide
  have hone : (initial.answers samples)[7]? = some (false, 0) := by decide
  obtain ⟨rfl, rfl⟩ := Prod.mk.inj (Option.some.inj (hanswer.symm.trans hfive))
  obtain ⟨rfl, rfl⟩ := Prod.mk.inj (Option.some.inj (hchange.symm.trans hone))
  exact ⟨hfive, hrun (by decide), hone, hnext (by decide)⟩

end BrowserActions.Tracker
