import Mathlib
import BrowserActions.Proofs.Wait.Round

/-!
# Interrupted waits

A wait that is cancelled or dropped makes the checks it would have made until then and ends at
that instant, unless it is over before. The two runs are compared round by round: up to the event
they are in the same state at the same time.
-/
namespace BrowserActions.Wait

inductive Interruption where
  | cancel
  | drop
  deriving DecidableEq, Repr

namespace Interruption

def outside (t : Nat) : Interruption → Outside
  | cancel => ⟨some t, none⟩
  | drop => ⟨none, some t⟩

def ending : Interruption → Ending
  | cancel => .failed .cancelled
  | drop => .dropped

theorem first_outside (i : Interruption) (t : Nat) :
    (i.outside t).first? = some (t, i.ending) := by
  cases i <;> rfl

end Interruption

def Run.EndsBefore (r : Run) (t : Nat) : Prop := r.ending ≠ .never ∧ r.endsAt < t

/-- Neither does a check start at that instant nor does the run end. -/
def Run.Quiet (r : Run) (t : Nat) : Prop := t ∉ r.checks ∧ (r.ending ≠ .never → t ≠ r.endsAt)

def Run.NotBefore (r : Run) (t : Nat) : Prop := t ≤ r.endsAt ∧ ∀ start ∈ r.checks, t ≤ start

/-- The second run is what an event at `t` leaves of the first one. -/
structure Truncates (base : Run) (t : Nat) (e : Ending) (cut : Run) : Prop where
  ended : base.EndsBefore t → cut = base
  interrupted : ¬ base.EndsBefore t → cut = ⟨base.checks.filter (· < t), e, t⟩

variable {σ α : Type} {o : PollOptions} {out : Outside} {observe : σ → α → σ × Bool} {state : σ}
  {cancelled : Bool} {checks now start till t : Nat} {e : Ending} {s : Sample α}
  {samples : List (Sample α)} {base cut : Run}

theorem truncates_ended (h : base.EndsBefore t) : Truncates base t e base :=
  ⟨fun _ => rfl, fun hn => absurd h hn⟩

theorem ends_before {starts : List Nat} {time : Nat} (hq : Run.Quiet ⟨starts, e, time⟩ t)
    (hne : e ≠ .never) (hle : time ≤ t) : Run.EndsBefore ⟨starts, e, time⟩ t :=
  ⟨hne, Nat.lt_of_le_of_ne hle (hq.2 hne).symm⟩

theorem truncates_late (h : base.NotBefore now) (ht : t < now) :
    Truncates base t e ⟨[], e, t⟩ where
  ended hb := absurd (Nat.lt_trans hb.2 ht) (Nat.not_lt.mpr h.1)
  interrupted _ := by
    have hnone : base.checks.filter (· < t) = [] := by
      rw [List.filter_eq_nil_iff]
      intro c hc
      have hle := h.2 c hc
      simp only [decide_eq_true_eq]
      omega
    rw [hnone]

theorem truncates_pending {ending : Ending} {time : Nat} (hs : start < t)
    (hn : ¬ Run.EndsBefore ⟨[start], ending, time⟩ t) :
    Truncates ⟨[start], ending, time⟩ t e ⟨[start], e, t⟩ where
  ended hb := absurd hb hn
  interrupted _ := by simp [hs]

theorem Truncates.withCheck (h : Truncates base t e cut) (hs : start < t) :
    Truncates (base.withCheck start) t e (cut.withCheck start) where
  ended hb := by rw [h.ended hb]
  interrupted hn := by
    have hmade : (start :: base.checks).filter (· < t) = start :: base.checks.filter (· < t) :=
      List.filter_cons_of_pos (decide_eq_true hs)
    rw [h.interrupted hn, Run.withCheck, Run.withCheck, hmade]

theorem quiet_of_withCheck (h : (base.withCheck start).Quiet t) : base.Quiet t :=
  ⟨fun hm => h.1 (List.mem_cons_of_mem start hm), h.2⟩

def Checked.time : Checked α → Nat
  | .ends t _ => t
  | .gives t _ => t

theorem time_deliver (s : Sample α) (now : Nat) : (s.deliver now).time = now := by
  rw [Sample.deliver]
  cases s.result <;> rfl

theorem sleep_none (s : Sample α) (start : Nat) :
    (if s.delay = 0 then none else Outside.none.during? start (start + s.delay)) = none := by
  split <;> rfl

theorem check_not_before (s : Sample α) (start : Nat) : start ≤ (s.check .none start).time := by
  rw [Sample.check, sleep_none]
  split
  · exact (time_deliver s start).ge
  split
  · exact le_rfl
  dsimp only
  split
  · exact Nat.le_add_right _ _
  · rw [time_deliver]
    exact Nat.le_add_right _ _

theorem withCheck_notBefore (h : base.NotBefore now) (hs : till ≤ start) (hn : till ≤ now) :
    (base.withCheck start).NotBefore till := by
  refine ⟨Nat.le_trans hn h.1, fun c hc => ?_⟩
  rcases List.mem_cons.mp hc with rfl | hrest
  · exact hs
  · exact Nat.le_trans hn (h.2 c hrest)

theorem single_notBefore {time : Nat} (h : start ≤ time) :
    Run.NotBefore ⟨[start], e, time⟩ start :=
  ⟨h, fun _ hc => (List.mem_singleton.mp hc).ge⟩

theorem runFrom_notBefore (o : PollOptions) (observe : σ → α → σ × Bool)
    (samples : List (Sample α)) :
    ∀ (state : σ) (checks now : Nat),
      (runFrom o .none observe state true checks now samples).NotBefore now ∧
      (runFrom o .none observe state false checks now samples).NotBefore
        (o.wakeFrom now) := by
  induction samples with
  | nil =>
    intro state checks now
    rw [runFrom_cancelled, runFrom_nil (during_none _ _)]
    exact ⟨⟨le_rfl, by simp⟩, single_notBefore le_rfl⟩
  | cons s rest ih =>
    intro state checks now
    rw [runFrom_cancelled]
    refine ⟨⟨le_rfl, by simp⟩, ?_⟩
    have htime := check_not_before s (o.wakeFrom now)
    cases hs : s.check .none (o.wakeFrom now) with
    | ends time e =>
      rw [hs] at htime
      rw [runFrom_ends (during_none _ _) hs]
      exact single_notBefore htime
    | gives time value =>
      rw [hs] at htime
      rw [runFrom_gives (during_none _ _) hs]
      cases o.verdict checks (observe state value).2 with
      | some e => exact single_notBefore htime
      | none =>
        obtain ⟨hcancelled, hawake⟩ := ih (observe state value).1 (countCheck checks) time
        cases s.cancels with
        | true => exact withCheck_notBefore hcancelled le_rfl htime
        | false => exact withCheck_notBefore hawake le_rfl (Nat.le_trans htime (le_wakeFrom o time))

theorem rest_notBefore (cancelled : Bool) (samples : List (Sample α)) :
    (runFrom o .none observe state cancelled checks now samples).NotBefore now := by
  obtain ⟨hcancelled, hawake⟩ := runFrom_notBefore o observe samples state checks now
  cases cancelled with
  | true => exact hcancelled
  | false =>
    have hle := le_wakeFrom o now
    exact ⟨Nat.le_trans hle hawake.1, fun c hc => Nat.le_trans hle (hawake.2 c hc)⟩

theorem runFrom_checks (samples : List (Sample α)) :
    o.wakeFrom now ∈
      (runFrom o .none observe state false checks now samples).checks := by
  cases samples with
  | nil =>
    rw [runFrom_nil (during_none _ _)]
    exact List.mem_cons_self
  | cons s rest =>
    cases hs : s.check .none (o.wakeFrom now) with
    | ends time e =>
      rw [runFrom_ends (during_none _ _) hs]
      exact List.mem_cons_self
    | gives time value =>
      rw [runFrom_gives (during_none _ _) hs]
      cases o.verdict checks (observe state value).2 <;> exact List.mem_cons_self

theorem start_ne_quiet
    (hq : (runFrom o .none observe state false checks now samples).Quiet t) :
    t ≠ o.wakeFrom now := fun h => hq.1 (h ▸ runFrom_checks samples)

theorem verdict_ne_never {met : Bool} (h : o.verdict checks met = some e) : e ≠ .never := by
  rintro rfl
  simp only [PollOptions.verdict] at h
  split at h
  · cases h
  split at h
  · split at h <;> cases h
  · cases h

theorem truncates_cancelled (hn : now ≤ t)
    (hq : (runFrom o .none observe state true checks now samples).Quiet t) :
    Truncates (runFrom o .none observe state true checks now samples) t e
      (runFrom o out observe state true checks now samples) := by
  rw [runFrom_cancelled] at hq
  rw [runFrom_cancelled, runFrom_cancelled]
  exact truncates_ended (ends_before hq nofun hn)

section Event

variable (hout : out.first? = some (t, e))
include hout

theorem during_event (hn : now ≤ t) (ht : t < till) : out.during? now till = some (t, e) := by
  rw [Outside.during?, hout]
  dsimp only
  rw [if_pos ht]
  split
  · rw [Nat.le_antisymm ‹t ≤ now› hn]
  · rfl

theorem during_quiet (hn : now < t) (ht : till ≤ t) : out.during? now till = none := by
  rw [Outside.during?, hout]
  dsimp only
  rw [if_neg (Nat.not_le.mpr hn), if_neg (Nat.not_lt.mpr ht)]

theorem check_until (hs : start < t) :
    (s.check out start = s.check .none start ∧ (s.check .none start).time ≤ t ∧
      ∀ time, s.check .none start ≠ .ends time .never) ∨
    (s.check out start = .ends t e ∧
      (t < (s.check .none start).time ∨ ∃ time, s.check .none start = .ends time .never)) := by
  have hdeliver (now time : Nat) : s.deliver now ≠ .ends time .never := by
    rw [Sample.deliver]
    cases s.result <;> simp
  simp only [Sample.check]
  split
  · exact .inl ⟨rfl, by rw [time_deliver]; exact hs.le, hdeliver start⟩
  split
  · exact .inl ⟨rfl, hs.le, by simp⟩
  rw [sleep_none]
  dsimp only
  by_cases hlong : t < start + s.delay
  · have hcut : (if s.delay = 0 then none else out.during? start (start + s.delay)) =
        some (t, e) := by
      rw [if_neg (by omega), during_event hout hs.le hlong]
    rw [hcut]
    refine .inr ⟨rfl, ?_⟩
    by_cases hh : s.hangs
    · simp only [hh, if_true]
      exact .inr ⟨_, rfl⟩
    · simp only [hh]
      exact .inl (by rw [if_neg Bool.false_ne_true, time_deliver]; exact hlong)
  · have hle : start + s.delay ≤ t := Nat.not_lt.mp hlong
    have hcut : (if s.delay = 0 then none else out.during? start (start + s.delay)) = none := by
      rw [during_quiet hout hs hle, ite_self]
    rw [hcut]
    by_cases hh : s.hangs
    · simp only [hh, if_true, Outside.after?, hout, Nat.max_eq_left hle]
      exact .inr ⟨trivial, .inr ⟨_, rfl⟩⟩
    · simp only [hh]
      exact .inl ⟨rfl, by rw [if_neg Bool.false_ne_true, time_deliver]; exact hle,
        hdeliver _⟩

theorem truncates_asleep (hn : now ≤ t) (ht : t < o.wakeFrom now) :
    Truncates (runFrom o .none observe state false checks now samples) t e
      (runFrom o out observe state false checks now samples) := by
  rw [runFrom_asleep (during_event hout hn ht)]
  exact truncates_late (runFrom_notBefore o observe samples state checks now).2 ht

theorem truncates_exhausted (hs : o.wakeFrom now < t) :
    Truncates (runFrom o .none observe state false checks now []) t e
      (runFrom o out observe state false checks now []) := by
  have hquiet := during_quiet hout (Nat.lt_of_le_of_lt (le_wakeFrom o now) hs) hs.le
  rw [runFrom_nil (during_none _ _), runFrom_nil hquiet]
  exact truncates_ended ⟨nofun, hs⟩

/-- One round: if the rests of the runs compare, so do the runs. -/
theorem truncates_round (hs : o.wakeFrom now < t)
    (hq : (runFrom o .none observe state false checks now (s :: samples)).Quiet t)
    (hrest : ∀ (state : σ) (cancelled : Bool) (checks now : Nat), now ≤ t →
      (runFrom o .none observe state cancelled checks now samples).Quiet t →
      Truncates (runFrom o .none observe state cancelled checks now samples) t e
        (runFrom o out observe state cancelled checks now samples)) :
    Truncates (runFrom o .none observe state false checks now (s :: samples)) t e
      (runFrom o out observe state false checks now (s :: samples)) := by
  have hawake := during_quiet hout (Nat.lt_of_le_of_lt (le_wakeFrom o now) hs) hs.le
  rcases check_until (s := s) hout hs with ⟨hsame, htime, hends⟩ | ⟨hcut, hlate⟩
  · cases hbase : s.check .none (o.wakeFrom now) with
    | ends time ending =>
      rw [hbase] at hsame htime hends
      rw [runFrom_ends (during_none _ _) hbase] at hq
      rw [runFrom_ends (during_none _ _) hbase, runFrom_ends hawake hsame]
      have hne : ending ≠ .never := fun hnever => hends time (by rw [hnever])
      exact truncates_ended (ends_before hq hne htime)
    | gives time value =>
      rw [hbase] at hsame htime
      rw [runFrom_gives (during_none _ _) hbase] at hq
      rw [runFrom_gives (during_none _ _) hbase, runFrom_gives hawake hsame]
      cases hv : o.verdict checks (observe state value).2 with
      | some ending =>
        rw [hv] at hq
        exact truncates_ended (ends_before hq (verdict_ne_never hv) htime)
      | none =>
        rw [hv] at hq
        exact (hrest _ _ _ _ htime (quiet_of_withCheck hq)).withCheck hs
  · rw [runFrom_ends hawake hcut]
    cases hbase : s.check .none (o.wakeFrom now) with
    | ends time ending =>
      rw [hbase] at hlate
      rw [runFrom_ends (during_none _ _) hbase]
      refine truncates_pending hs fun hb => ?_
      rcases hlate with hlt | ⟨_, hnever⟩
      · exact Nat.lt_asymm hlt hb.2
      · cases hnever
        exact hb.1 rfl
    | gives time value =>
      rw [hbase] at hlate
      have hlt : t < time := hlate.resolve_right nofun
      rw [runFrom_gives (during_none _ _) hbase]
      cases o.verdict checks (observe state value).2 with
      | some ending => exact truncates_pending hs fun hb => Nat.lt_asymm hlt hb.2
      | none => exact (truncates_late (rest_notBefore s.cancels samples) hlt).withCheck hs

theorem truncates_runFrom (samples : List (Sample α)) :
    ∀ (state : σ) (cancelled : Bool) (checks now : Nat), now ≤ t →
      (runFrom o .none observe state cancelled checks now samples).Quiet t →
      Truncates (runFrom o .none observe state cancelled checks now samples) t e
        (runFrom o out observe state cancelled checks now samples) := by
  -- the runs agree on state, count and time as long as the time is not past the event
  induction samples with
  | nil =>
    intro state cancelled checks now hnow hquiet
    cases cancelled with
    | true => exact truncates_cancelled hnow hquiet
    | false =>
      rcases Nat.lt_or_gt_of_ne (start_ne_quiet hquiet) with hasleep | hawake
      · exact truncates_asleep hout hnow hasleep
      · exact truncates_exhausted hout hawake
  | cons s rest ih =>
    intro state cancelled checks now hnow hquiet
    cases cancelled with
    | true => exact truncates_cancelled hnow hquiet
    | false =>
      rcases Nat.lt_or_gt_of_ne (start_ne_quiet hquiet) with hasleep | hawake
      · exact truncates_asleep hout hnow hasleep
      · exact truncates_round hout hawake hquiet ih

end Event

theorem run_interrupted_first (i : Interruption) (o : PollOptions) (observe : σ → α → σ × Bool)
    (state : σ) (samples : List (Sample α)) :
    run o (i.outside 0) observe state samples = ⟨[], i.ending, 0⟩ :=
  runFrom_asleep (by rw [Outside.during?, i.first_outside]; rfl)

theorem truncates_run (i : Interruption)
    (hq : (run o .none observe state samples).Quiet t) :
    Truncates (run o .none observe state samples) t i.ending
      (run o (i.outside t) observe state samples) :=
  truncates_runFrom (i.first_outside t) samples state false 0 0 (Nat.zero_le t) hq

theorem interruption_truncates (i : Interruption) (t : Nat) :
    (∀ (o : PollOptions) (samples : List (Sample Bool)),
      ((waitFor o .none samples).Quiet t →
        Truncates (waitFor o .none samples) t i.ending (waitFor o (i.outside t) samples)) ∧
      waitFor o (i.outside 0) samples = ⟨[], i.ending, 0⟩) ∧
    ∀ (o : StabilityOptions) (samples : List (Sample UInt64)), o.interval.inNanos ≠ 0 →
      ((waitTillStable o .none samples).Quiet t →
        Truncates (waitTillStable o .none samples) t i.ending
          (waitTillStable o (i.outside t) samples)) ∧
      waitTillStable o (i.outside 0) samples = ⟨[], i.ending, 0⟩ := by
  refine ⟨fun o samples => ⟨truncates_run i, run_interrupted_first i o _ _ samples⟩, ?_⟩
  intro o samples hne
  obtain ⟨checks, _, hrun⟩ := stable_run hne
  rw [hrun, hrun, hrun]
  exact ⟨truncates_run i, run_interrupted_first i _ _ _ samples⟩

/-- A wait that is cancelled while its check hangs, and one that is dropped in its sleep. -/
theorem hung_check_cancelled :
    (waitFor (.strict (.ofMillis 5) 3) .none [⟨false, 0, true, .ok true⟩]).Quiet 7000000 ∧
      waitFor (.strict (.ofMillis 5) 3) (Interruption.cancel.outside 7000000)
        [⟨false, 0, true, .ok true⟩] = ⟨[5000000], .failed .cancelled, 7000000⟩ ∧
      (waitTillStable ⟨.ofMillis 5, .ofMillis 20, false⟩ .none []).Quiet 3000000 ∧
      waitTillStable ⟨.ofMillis 5, .ofMillis 20, false⟩ (Interruption.drop.outside 3000000) [] =
        ⟨[], .dropped, 3000000⟩ := by
  have hhung : waitFor (.strict (.ofMillis 5) 3) .none [⟨false, 0, true, .ok true⟩] =
      ⟨[5000000], .never, 5000000⟩ := by cbv
  have hcancel := ((interruption_truncates .cancel 7000000).1 (.strict (.ofMillis 5) 3)
    [⟨false, 0, true, .ok true⟩]).1
  rw [hhung] at hcancel ⊢
  have hquiet : Run.Quiet ⟨[5000000], .never, 5000000⟩ 7000000 :=
    ⟨by decide, fun hn => absurd rfl hn⟩
  have hne : (⟨.ofMillis 5, .ofMillis 20, false⟩ : StabilityOptions).interval.inNanos ≠ 0 := by
    decide
  have hstable : waitTillStable ⟨.ofMillis 5, .ofMillis 20, false⟩ .none [] =
      ⟨[5000000], exhausted, 5000000⟩ := by
    obtain ⟨checks, _, hrun⟩ := stable_run hne
    have hfive : wake (0 + (Duration.ofMillis 5).inNanos) = 5000000 := by decide
    rw [hrun, run, runFrom_nil (during_none _ _), PollOptions.wakeFrom, hfive]
  have hdrop := ((interruption_truncates .drop 3000000).2
    ⟨.ofMillis 5, .ofMillis 20, false⟩ [] hne).1
  rw [hstable] at hdrop ⊢
  have hasleep : Run.Quiet ⟨[5000000], exhausted, 5000000⟩ 3000000 :=
    ⟨by decide, fun _ => by decide⟩
  exact ⟨hquiet, (hcancel hquiet).interrupted fun hb => hb.1 rfl, hasleep,
    (hdrop hasleep).interrupted fun hb => absurd hb.2 (by decide)⟩

end BrowserActions.Wait
