import Mathlib
import BrowserActions.Wait.Stability

/-!
# What the tracker knows

The tracker has the last measurement and counts how often it was repeated. Measurements are listed
from the latest one back, so the count is the length of the run of equal ones that heads the list,
less the first of them.
-/
namespace BrowserActions.Tracker

/-- How often the latest measurement was repeated without a change. Zero does not count. -/
def streak : List UInt64 → Nat
  | [] => 0
  | v :: earlier => if v = 0 then 0 else (earlier.takeWhile (· = v)).length

/-- The tracker after those measurements, if their count fits. -/
structure Tracks (seen : List UInt64) (t : Tracker) : Prop where
  last : t.last = seen.headD 0
  repeats : t.repeats.toNat = streak seen

/-- The tracker after any measurements. Behind its last value the count starts again. -/
structure Follows (seen : List UInt64) (t : Tracker) : Prop where
  last : t.last = seen.headD 0
  repeats : t.repeats.toNat = streak seen % UInt32.size

variable {seen : List UInt64} {t : Tracker} {v : UInt64}

theorem follows_initial : Follows [] initial := ⟨rfl, rfl⟩

theorem Tracks.follows (h : Tracks seen t) : Follows seen t := by
  refine ⟨h.last, ?_⟩
  rw [← h.repeats]
  exact (Nat.mod_eq_of_lt t.repeats.toNat_lt).symm

theorem Follows.tracks (h : Follows seen t) (hfits : streak seen < UInt32.size) :
    Tracks seen t :=
  ⟨h.last, h.repeats.trans (Nat.mod_eq_of_lt hfits)⟩

theorem streak_repeated (h : seen.headD 0 ≠ 0 ∧ v = seen.headD 0) :
    streak (v :: seen) = streak seen + 1 := by
  obtain ⟨hne, rfl⟩ := h
  cases seen with
  | nil => exact absurd rfl hne
  | cons w earlier =>
    have hw : w ≠ 0 := hne
    simp [streak, hw]

theorem streak_changed (h : ¬ (seen.headD 0 ≠ 0 ∧ v = seen.headD 0)) : streak (v :: seen) = 0 := by
  by_cases hv : v = 0
  · rw [streak, if_pos hv]
  · rw [streak, if_neg hv]
    cases seen with
    | nil => rfl
    | cons w earlier =>
      have hne : w ≠ v := by
        rintro rfl
        exact h ⟨hv, rfl⟩
      rw [List.takeWhile_cons_of_neg (by simpa using hne)]
      rfl

theorem streak_cons_le (v : UInt64) (seen : List UInt64) : streak (v :: seen) ≤ streak seen + 1 := by
  by_cases hsame : seen.headD 0 ≠ 0 ∧ v = seen.headD 0
  · exact (streak_repeated hsame).le
  · rw [streak_changed hsame]
    exact Nat.zero_le _

def nextRepeats (t : Tracker) (v : UInt64) : UInt32 :=
  if t.last ≠ 0 ∧ v = t.last then t.repeats + 1 else 0

theorem nextRepeats_toNat (h : Follows seen t) (v : UInt64) :
    (t.nextRepeats v).toNat = streak (v :: seen) % UInt32.size := by
  rw [nextRepeats, h.last]
  by_cases hsame : seen.headD 0 ≠ 0 ∧ v = seen.headD 0
  · rw [if_pos hsame, UInt32.toNat_add, h.repeats, streak_repeated hsame]
    exact Nat.mod_add_mod _ _ _
  · rw [if_neg hsame, streak_changed hsame]
    rfl

theorem observe_eq (t : Tracker) (v : UInt64) :
    t.observe v = (⟨v, t.nextRepeats v⟩, decide (neededRepeats ≤ t.nextRepeats v)) := by
  rw [observe]
  by_cases hmet : neededRepeats ≤ t.nextRepeats v
  · have hv : v = t.last := by
      by_contra hne
      have hzero : t.nextRepeats v = 0 := if_neg fun h => hne h.2
      rw [hzero] at hmet
      exact absurd hmet (by decide)
    rw [decide_eq_true hmet]
    subst hv
    exact if_pos hmet
  · rw [decide_eq_false hmet]
    exact if_neg hmet

theorem Follows.observe (h : Follows seen t) (v : UInt64) :
    Follows (v :: seen) (t.observe v).1 := by
  rw [observe_eq]
  exact ⟨rfl, nextRepeats_toNat h v⟩

theorem Follows.met (h : Follows seen t) (v : UInt64) :
    (t.observe v).2 = decide (3 ≤ streak (v :: seen) % UInt32.size) := by
  rw [observe_eq]
  have hneeded : neededRepeats ≤ t.nextRepeats v ↔ 3 ≤ streak (v :: seen) % UInt32.size := by
    rw [← nextRepeats_toNat h v]
    exact UInt32.le_iff_toNat_le
  exact decide_eq_decide.mpr hneeded

theorem Tracks.observe (h : Tracks seen t) (hfits : streak seen + 1 < UInt32.size) (v : UInt64) :
    Tracks (v :: seen) (t.observe v).1 :=
  (h.follows.observe v).tracks ((streak_cons_le v seen).trans_lt hfits)

theorem observe_met (h : Tracks seen t) (hfits : streak seen + 1 < UInt32.size) (v : UInt64) :
    (t.observe v).2 = decide (3 ≤ streak (v :: seen)) := by
  rw [h.follows.met v, Nat.mod_eq_of_lt ((streak_cons_le v seen).trans_lt hfits)]

theorem le_length_takeWhile (l : List UInt64) (n : Nat) :
    n ≤ (l.takeWhile (· = v)).length ↔ ∀ back < n, l[back]? = some v := by
  induction l generalizing n with
  | nil =>
    cases n with
    | zero => exact ⟨fun _ back hback => absurd hback (Nat.not_lt_zero back), fun _ => le_rfl⟩
    | succ n =>
      refine ⟨fun h => absurd h (Nat.not_succ_le_zero n), fun h => ?_⟩
      exact nomatch h 0 (Nat.succ_pos n)
  | cons w l ih =>
    cases n with
    | zero => exact ⟨fun _ back hback => absurd hback (Nat.not_lt_zero back), fun _ => Nat.zero_le _⟩
    | succ n =>
      by_cases hw : w = v
      · rw [List.takeWhile_cons_of_pos (by simpa using hw), List.length_cons,
          Nat.succ_le_succ_iff, ih]
        constructor
        · intro h back hback
          cases back with
          | zero => exact congrArg some hw
          | succ back => exact h back (Nat.lt_of_succ_lt_succ hback)
        · intro h back hback
          exact h (back + 1) (Nat.succ_lt_succ hback)
      · rw [List.takeWhile_cons_of_neg (by simpa using hw)]
        refine ⟨fun h => absurd h (Nat.not_succ_le_zero n), fun h => ?_⟩
        exact absurd (Option.some.inj (h 0 (Nat.succ_pos n))) hw

theorem three_le_streak :
    3 ≤ streak (v :: seen) ↔ v ≠ 0 ∧ ∀ back < 3, seen[back]? = some v := by
  by_cases hv : v = 0
  · rw [streak, if_pos hv]
    exact ⟨fun h => absurd h (by decide), fun h => absurd hv h.1⟩
  · rw [streak, if_neg hv, le_length_takeWhile]
    exact ⟨fun h => ⟨hv, h⟩, fun h => h.2⟩

end BrowserActions.Tracker
