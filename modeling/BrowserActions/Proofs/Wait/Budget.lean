import Mathlib
import BrowserActions.Proofs.Wait.Course

/-!
# What the limit of checks decides

How many checks are allowed, and whether running out of them is a failure, only shows in a wait that
runs out of them. Two waits that differ in nothing else are compared round by round: they are in the
same state at the same time until a value ends one of them.
-/
namespace BrowserActions.Wait

/-- The same interval, and more checks than a limited number of them. -/
structure Widens (o o' : PollOptions) : Prop where
  interval : o'.interval = o.interval
  limited : o.maxChecks ≠ 0
  more : o'.maxChecks = 0 ∨ o.maxChecks < o'.maxChecks

/-- Running out of checks is no failure any more. -/
def Ending.lenient : Ending → Ending
  | .failed (.timeout _) => .timedOut
  | e => e

def Run.lenient (r : Run) : Run := { r with ending := r.ending.lenient }

/-- The second run is the first one, or goes on where the first one has run out of checks. -/
structure Outlasts (r r' : Run) : Prop where
  same : ¬ r.ending.TimesOut → r' = r
  beyond : r.ending.TimesOut → r.checks <+: r'.checks

variable {σ α : Type} {o o' : PollOptions} {out : Outside} {observe : σ → α → σ × Bool}
  {checks start t : Nat} {e : Ending} {met : Bool} {r r' : Run}

/-- What a relation of runs needs, so that it holds of the runs of two waits. As long as neither has
ended, `Open` holds of the number of checks. -/
structure Compares (o o' : PollOptions) (Open : Nat → Prop) (Related : Run → Run → Prop) :
    Prop where
  interval : o'.interval = o.interval
  undecided : ∀ starts e t, ¬ e.Decided → Related ⟨starts, e, t⟩ ⟨starts, e, t⟩
  decided : ∀ checks met e start t, Open checks → o.verdict checks met = some e →
    (∃ e', o'.verdict checks met = some e' ∧ Related ⟨[start], e, t⟩ ⟨[start], e', t⟩) ∨
    (o'.verdict checks met = none ∧ ∀ rest : Run, Related ⟨[start], e, t⟩ (rest.withCheck start))
  leftOpen : ∀ checks met, Open checks → o.verdict checks met = none →
    o'.verdict checks met = none ∧ Open (countCheck checks)
  withCheck : ∀ start r r', Related r r' → Related (r.withCheck start) (r'.withCheck start)

theorem Compares.runFrom {Open : Nat → Prop} {Related : Run → Run → Prop}
    (h : Compares o o' Open Related) (out : Outside) (observe : σ → α → σ × Bool)
    (samples : List (Sample α)) :
    ∀ (state : σ) (cancelled : Bool) (checks now : Nat), Open checks →
      Related (runFrom o out observe state cancelled checks now samples)
        (runFrom o' out observe state cancelled checks now samples) := by
  have hwake (now : Nat) : o'.wakeFrom now = o.wakeFrom now := by
    rw [PollOptions.wakeFrom, h.interval, PollOptions.wakeFrom]
  -- both runs have the same state, count and time at the start of each round
  have hcancelled : ∀ (state : σ) (checks now : Nat) (samples : List (Sample α)),
      Related (Wait.runFrom o out observe state true checks now samples)
        (Wait.runFrom o' out observe state true checks now samples) := by
    intro state checks now samples
    rw [runFrom_cancelled, runFrom_cancelled]
    exact h.undecided _ _ _ id
  have hasleep : ∀ (state : σ) (checks now : Nat) (samples : List (Sample α))
      (event : Nat × Ending),
      out.during? now (o.wakeFrom now) = some event →
      Related (Wait.runFrom o out observe state false checks now samples)
        (Wait.runFrom o' out observe state false checks now samples) := by
    intro state checks now samples event hd
    have hd' : out.during? now (o'.wakeFrom now) = some event := by rwa [hwake]
    rw [runFrom_asleep hd, runFrom_asleep hd']
    exact h.undecided _ _ _ (during_undecided hd)
  induction samples with
  | nil =>
    intro state cancelled checks now _
    cases cancelled with
    | true => exact hcancelled state checks now []
    | false =>
      cases hd : out.during? now (o.wakeFrom now) with
      | some event => exact hasleep state checks now [] event hd
      | none =>
        have hd' : out.during? now (o'.wakeFrom now) = none := by rwa [hwake]
        rw [runFrom_nil hd, runFrom_nil hd', hwake]
        exact h.undecided _ _ _ id
  | cons s rest ih =>
    intro state cancelled checks now hopen
    cases cancelled with
    | true => exact hcancelled state checks now (s :: rest)
    | false =>
      cases hd : out.during? now (o.wakeFrom now) with
      | some event => exact hasleep state checks now (s :: rest) event hd
      | none =>
        have hd' : out.during? now (o'.wakeFrom now) = none := by rwa [hwake]
        cases hs : s.check out (o.wakeFrom now) with
        | ends t e =>
          have hs' : s.check out (o'.wakeFrom now) = .ends t e := by rwa [hwake]
          rw [runFrom_ends hd hs, runFrom_ends hd' hs', hwake]
          exact h.undecided _ _ _ (check_undecided hs)
        | gives t a =>
          have hs' : s.check out (o'.wakeFrom now) = .gives t a := by rwa [hwake]
          rw [runFrom_gives hd hs, runFrom_gives hd' hs', hwake]
          cases hv : o.verdict checks (observe state a).2 with
          | some e =>
            rcases h.decided _ _ e (o.wakeFrom now) t hopen hv with
              ⟨e', hv', hrelated⟩ | ⟨hv', hrelated⟩
            · rw [hv']
              exact hrelated
            · rw [hv']
              exact hrelated _
          | none =>
            obtain ⟨hv', hnext⟩ := h.leftOpen _ _ hopen hv
            rw [hv']
            exact h.withCheck _ _ _ (ih _ _ _ _ hnext)

theorem lenient_undecided (h : ¬ e.Decided) : e.lenient = e := by
  cases e with
  | failed f =>
    cases f with
    | timeout n => exact absurd trivial h
    | _ => rfl
  | _ => rfl

theorem verdict_bestEffort (o : PollOptions) (checks : Nat) (met : Bool) :
    o.bestEffort.verdict checks met = (o.verdict checks met).map Ending.lenient := by
  have hlimit : o.bestEffort.maxChecks = o.maxChecks := rfl
  have hlenient : o.bestEffort.rejectOnTimeout = false := rfl
  rw [PollOptions.verdict, PollOptions.verdict, hlimit, hlenient]
  cases met with
  | true => rfl
  | false =>
    rw [if_neg Bool.false_ne_true, if_neg Bool.false_ne_true, if_neg Bool.false_ne_true]
    split
    · cases o.rejectOnTimeout <;> rfl
    · rfl

theorem compares_bestEffort (o : PollOptions) :
    Compares o o.bestEffort (fun _ => True) fun r r' => r' = r.lenient where
  interval := rfl
  undecided starts e t he := by rw [Run.lenient, lenient_undecided he]
  decided checks met e start t _ hv := by
    refine .inl ⟨e.lenient, ?_, rfl⟩
    rw [verdict_bestEffort, hv]
    rfl
  leftOpen checks met _ hv := by
    rw [verdict_bestEffort, hv]
    exact ⟨rfl, trivial⟩
  withCheck start r r' h := by
    rw [h]
    rfl

theorem waitFor_bestEffort (o : PollOptions) (out : Outside) (samples : List (Sample Bool)) :
    waitFor o.bestEffort out samples = (waitFor o out samples).lenient :=
  (compares_bestEffort o).runFrom out _ samples () false 0 0 trivial

theorem outlasts_refl (r : Run) : Outlasts r r := ⟨fun _ => rfl, fun _ => List.prefix_rfl⟩

theorem Widens.leftOpen (h : Widens o o') (hchecks : countCheck checks < o.maxChecks.toNat) :
    o'.verdict checks false = none := by
  refine verdict_open (h.more.imp_right fun hmore => ?_)
  exact Nat.lt_trans hchecks (UInt32.lt_iff_toNat_lt.mp hmore)

theorem compares_wider (h : Widens o o') :
    Compares o o' (fun checks => checks < o.maxChecks.toNat) Outlasts where
  interval := h.interval
  undecided starts e t _ := outlasts_refl _
  decided checks met e start t _ hv := by
    rcases verdict_decides hv with ⟨rfl, rfl⟩ | ⟨rfl, -, -, rfl⟩
    · exact .inl ⟨.resolved, rfl, outlasts_refl _⟩
    · -- here the first wait has used up its checks, and the second one may have used up its own
      have hout : (if o.rejectOnTimeout then Ending.failed (.timeout (countCheck checks))
          else .timedOut).TimesOut := by
        cases o.rejectOnTimeout with
        | true => exact .inr ⟨_, rfl⟩
        | false => exact .inl rfl
      cases hv' : o'.verdict checks false with
      | some e' => exact .inl ⟨e', rfl, fun hin => absurd hout hin, fun _ => List.prefix_rfl⟩
      | none =>
        exact .inr ⟨rfl, fun rest => ⟨fun hin => absurd hout hin, fun _ => ⟨rest.checks, rfl⟩⟩⟩
  leftOpen checks met _ hv := by
    obtain ⟨rfl, hroom⟩ := verdict_leaves_open hv
    have hlt := hroom.resolve_left h.limited
    exact ⟨h.leftOpen hlt, hlt⟩
  withCheck start r r' hr := by
    refine ⟨fun hin => ?_, fun hout => ?_⟩
    · rw [hr.same hin]
    · exact (List.prefix_cons_inj start).mpr (hr.beyond hout)

theorem waitFor_wider (h : Widens o o') (out : Outside) (samples : List (Sample Bool)) :
    Outlasts (waitFor o out samples) (waitFor o' out samples) :=
  (compares_wider h).runFrom out _ samples () false 0 0 ((room_at_start o).resolve_left h.limited)

/-- The run of a wait that fails when its checks run out, and of one that does not. -/
structure Relaxed (limit : UInt32) (strict lenient : Run) : Prop where
  checks : lenient.checks = strict.checks
  endsAt : lenient.endsAt = strict.endsAt
  ending : (strict.ending = .failed (.timeout limit.toNat) ∧ lenient.ending = .timedOut) ∨
    (¬ strict.ending.TimesOut ∧ lenient.ending = strict.ending)

theorem relaxed_strict (interval : Duration) (limit : UInt32) (out : Outside)
    (samples : List (Sample Bool)) :
    Relaxed limit (waitFor (.strict interval limit) out samples)
      (waitFor (PollOptions.strict interval limit).bestEffort out samples) := by
  rw [waitFor_bestEffort]
  refine ⟨rfl, rfl, ?_⟩
  by_cases hout : (waitFor (.strict interval limit) out samples).ending.TimesOut
  · obtain ⟨n, hd⟩ := waitFor_timed_out hout
    left
    rw [hd.run]
    exact ⟨rfl, rfl⟩
  · refine .inr ⟨hout, ?_⟩
    rw [Run.lenient]
    cases he : (waitFor (.strict interval limit) out samples).ending with
    | failed f =>
      cases f with
      | timeout n => exact absurd (.inr ⟨n, he⟩) hout
      | _ => rfl
    | _ => rfl

/-- Strict or not, two waits with the same limit make the same checks and end at the same time, and
only running out of checks is told in two ways. A wait that does not run out of its checks is not
changed by more of them or by no limit, and one that does makes these checks first. -/
theorem limit_shows_at_exhaustion (out : Outside) (samples : List (Sample Bool)) :
    (∀ interval limit, Relaxed limit (waitFor (.strict interval limit) out samples)
      (waitFor (PollOptions.strict interval limit).bestEffort out samples)) ∧
    ∀ o o' : PollOptions, Widens o o' →
      (¬ (waitFor o out samples).ending.TimesOut →
        waitFor o' out samples = waitFor o out samples) ∧
      ((waitFor o out samples).ending.TimesOut →
        (waitFor o out samples).checks.length = o.maxChecks.toNat ∧
        (waitFor o' out samples).checks.take o.maxChecks.toNat = (waitFor o out samples).checks) := by
  refine ⟨fun interval limit => relaxed_strict interval limit out samples, fun o o' h => ?_⟩
  have houtlasts := waitFor_wider h out samples
  refine ⟨houtlasts.same, fun hout => ?_⟩
  have hlength : (waitFor o out samples).checks.length = o.maxChecks.toNat := by
    obtain ⟨n, hd⟩ := waitFor_timed_out hout
    rw [← hd.used rfl, hd.run, checksFrom, List.length_map, List.length_range, Nat.zero_add]
  exact ⟨hlength, by rw [← hlength, ← List.prefix_iff_eq_take.mp (houtlasts.beyond hout)]⟩

def thirdHolds : List (Sample Bool) :=
  [⟨false, 0, false, .ok false⟩, ⟨false, 3000000, false, .ok false⟩, ⟨false, 0, false, .ok true⟩]

/-- With a limit of two the wait runs out of checks, and with a limit of three it does not. -/
theorem limit_shows_at_exhaustion_third :
    Widens (.strict (.ofMillis 5) 2) (.strict (.ofMillis 5) 0) ∧
    (waitFor (.strict (.ofMillis 5) 2) ⟨none, some 40000000⟩ thirdHolds).ending.TimesOut ∧
    (waitFor (.strict (.ofMillis 5) 0) ⟨none, some 40000000⟩ thirdHolds).checks.take 2 =
      [5000000, 10000000] ∧
    Widens (.strict (.ofMillis 5) 3) (.strict (.ofMillis 5) 0) ∧
    ¬ (waitFor (.strict (.ofMillis 5) 3) ⟨none, some 40000000⟩ thirdHolds).ending.TimesOut ∧
    waitFor (.strict (.ofMillis 5) 0) ⟨none, some 40000000⟩ thirdHolds =
      ⟨[5000000, 10000000, 18000000], .resolved, 18000000⟩ := by
  have htwo : waitFor (.strict (.ofMillis 5) 2) ⟨none, some 40000000⟩ thirdHolds =
      ⟨[5000000, 10000000], .failed (.timeout 2), 13000000⟩ := by cbv
  have hthree : waitFor (.strict (.ofMillis 5) 3) ⟨none, some 40000000⟩ thirdHolds =
      ⟨[5000000, 10000000, 18000000], .resolved, 18000000⟩ := by cbv
  have hnarrow : Widens (.strict (.ofMillis 5) 2) (.strict (.ofMillis 5) 0) :=
    ⟨rfl, by decide, .inl rfl⟩
  have henough : Widens (.strict (.ofMillis 5) 3) (.strict (.ofMillis 5) 0) :=
    ⟨rfl, by decide, .inl rfl⟩
  have hout :
      (waitFor (.strict (.ofMillis 5) 2) ⟨none, some 40000000⟩ thirdHolds).ending.TimesOut := by
    rw [htwo]
    exact .inr ⟨2, rfl⟩
  have hin :
      ¬ (waitFor (.strict (.ofMillis 5) 3) ⟨none, some 40000000⟩ thirdHolds).ending.TimesOut := by
    rw [hthree]
    rintro (he | ⟨_, he⟩) <;> cases he
  obtain ⟨-, hlimits⟩ := limit_shows_at_exhaustion ⟨none, some 40000000⟩ thirdHolds
  have hfirst := ((hlimits _ _ hnarrow).2 hout).2
  have hsame := (hlimits _ _ henough).1 hin
  rw [htwo] at hfirst
  rw [hthree] at hsame
  exact ⟨hnarrow, hout, hfirst, henough, hin, hsame⟩

end BrowserActions.Wait
