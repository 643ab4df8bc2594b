import Mathlib
import BrowserActions.Proofs.Wait.Timeline

/-!
# The course of any wait

Whatever the checks do and whatever comes from outside, a round goes in one of five ways, and only
the last of them leads on to another round. So the checks of a wait stand on its timeline, and an
ending that a check's value decided tells the values before it.
-/
namespace BrowserActions.Wait

/-- A round that starts at `now`, and the run that it is the first one of. -/
inductive Round {σ α : Type} (o : PollOptions) (out : Outside) (observe : σ → α → σ × Bool)
    (state : σ) (checks now : Nat) : List (Sample α) → Run → Prop where
  | asleep {samples t e} : out.during? now (o.wakeFrom now) = some (t, e) →
      Round o out observe state checks now samples ⟨[], e, t⟩
  | exhausted : out.during? now (o.wakeFrom now) = none →
      Round o out observe state checks now []
        ⟨[o.wakeFrom now], exhausted, o.wakeFrom now⟩
  | broken {s rest t e} : s.check out (o.wakeFrom now) = .ends t e →
      Round o out observe state checks now (s :: rest) ⟨[o.wakeFrom now], e, t⟩
  | decided {s rest t a e} : s.check out (o.wakeFrom now) = .gives t a →
      o.verdict checks (observe state a).2 = some e →
      Round o out observe state checks now (s :: rest) ⟨[o.wakeFrom now], e, t⟩
  | goesOn {s rest t a} : s.check out (o.wakeFrom now) = .gives t a →
      o.verdict checks (observe state a).2 = none →
      Round o out observe state checks now (s :: rest)
        ((runFrom o out observe (observe state a).1 s.cancels (countCheck checks) t
          rest).withCheck (o.wakeFrom now))

variable {σ α : Type} {o : PollOptions} {out : Outside} {observe : σ → α → σ × Bool} {state : σ}
  {checks now start till t : Nat} {e : Ending} {s : Sample α} {samples : List (Sample α)}
  {a : α} {met : Bool}

theorem round_runFrom (o : PollOptions) (out : Outside) (observe : σ → α → σ × Bool) (state : σ)
    (checks now : Nat) (samples : List (Sample α)) :
    Round o out observe state checks now samples
      (runFrom o out observe state false checks now samples) := by
  cases hd : out.during? now (o.wakeFrom now) with
  | some event =>
    rw [runFrom_asleep hd]
    exact .asleep hd
  | none =>
    cases samples with
    | nil =>
      rw [runFrom_nil hd]
      exact .exhausted hd
    | cons s rest =>
      cases hs : s.check out (o.wakeFrom now) with
      | ends t e =>
        rw [runFrom_ends hd hs]
        exact .broken hs
      | gives t a =>
        rw [runFrom_gives hd hs]
        cases hv : o.verdict checks (observe state a).2 with
        | some e => exact .decided hs hv
        | none => exact .goesOn hs hv

theorem check_gives (h : s.check out start = .gives t a) :
    t = start + s.delay ∧ s.result = .ok a := by
  have hdeliver : ∀ now, s.deliver now = .gives t a → t = now ∧ s.result = .ok a := by
    intro now hnow
    rw [Sample.deliver] at hnow
    cases hr : s.result with
    | ok b =>
      rw [hr] at hnow
      cases hnow
      exact ⟨rfl, rfl⟩
    | error text =>
      rw [hr] at hnow
      cases hnow
  rw [Sample.check] at h
  split at h
  · obtain ⟨hd, _⟩ := ‹s.delay = 0 ∧ _›
    rw [hd]
    exact hdeliver start h
  split at h
  · cases h
  split at h
  · cases h
  split at h
  · split at h <;> cases h
  · exact hdeliver _ h

theorem verdict_decides (h : o.verdict checks met = some e) :
    (met = true ∧ e = .resolved) ∨
    (met = false ∧ o.maxChecks ≠ 0 ∧ o.maxChecks.toNat ≤ countCheck checks ∧
      e = if o.rejectOnTimeout then .failed (.timeout (countCheck checks)) else .timedOut) := by
  rw [PollOptions.verdict] at h
  cases met with
  | true => exact .inl ⟨rfl, (Option.some.inj h).symm⟩
  | false =>
    rw [if_neg Bool.false_ne_true] at h
    split at h
    next hused => exact .inr ⟨rfl, hused.1, hused.2, (Option.some.inj h).symm⟩
    next => cases h

theorem verdict_leaves_open (h : o.verdict checks met = none) :
    met = false ∧ (o.maxChecks = 0 ∨ countCheck checks < o.maxChecks.toNat) := by
  rw [PollOptions.verdict] at h
  cases met with
  | true => cases h
  | false =>
    rw [if_neg Bool.false_ne_true] at h
    split at h
    · cases h
    next hopen =>
      refine ⟨rfl, ?_⟩
      by_cases hzero : o.maxChecks = 0
      · exact .inl hzero
      · exact .inr (Nat.not_le.mp fun hle => hopen ⟨hzero, hle⟩)

theorem countCheck_allowed (h : checks < o.maxChecks.toNat) : countCheck checks = checks + 1 := by
  have hsize : o.maxChecks.toNat < UInt32.size := o.maxChecks.toNat_lt_size
  rw [countCheck]
  omega

theorem countCheck_open (h : o.maxChecks = 0 ∨ countCheck checks < o.maxChecks.toNat) :
    o.maxChecks = 0 ∨ countCheck checks = checks + 1 := by
  have hsize : o.maxChecks.toNat < UInt32.size := o.maxChecks.toNat_lt_size
  refine h.imp_right fun hlt => ?_
  rw [countCheck] at hlt ⊢
  omega

theorem goes_on (h : 1 < (runFrom o out observe state false checks now samples).checks.length) :
    ∃ s rest a, samples = s :: rest ∧ s.result = .ok a ∧
      o.verdict checks (observe state a).2 = none ∧
      runFrom o out observe state false checks now samples =
        (runFrom o out observe (observe state a).1 s.cancels (countCheck checks)
          (o.wakeFrom now + s.delay) rest).withCheck (o.wakeFrom now) := by
  have hround := round_runFrom o out observe state checks now samples
  generalize runFrom o out observe state false checks now samples = r at h hround ⊢
  cases hround with
  | asleep _ => exact absurd h (Nat.not_lt_zero 1)
  | exhausted _ => exact absurd h (Nat.lt_irrefl 1)
  | broken _ => exact absurd h (Nat.lt_irrefl 1)
  | decided _ _ => exact absurd h (Nat.lt_irrefl 1)
  | @goesOn s rest t a hs hv =>
    obtain ⟨rfl, hr⟩ := check_gives hs
    exact ⟨s, rest, a, rfl, hr, hv, rfl⟩

def Ending.Decided : Ending → Prop
  | .resolved | .timedOut | .failed (.timeout _) => True
  | _ => False

def Ending.TimesOut (e : Ending) : Prop := e = .timedOut ∨ ∃ n, e = .failed (.timeout n)

theorem decided_of_timesOut (h : e.TimesOut) : e.Decided := by
  rcases h with rfl | ⟨_, rfl⟩
  · trivial
  · trivial

theorem first_undecided (h : out.first? = some (t, e)) : ¬ e.Decided := by
  rw [Outside.first?] at h
  split at h
  · split at h <;> cases h <;> exact id
  · cases h; exact id
  · cases h; exact id
  · cases h

theorem during_undecided (h : out.during? now till = some (t, e)) : ¬ e.Decided := by
  rw [Outside.during?] at h
  split at h
  next u ending hf =>
    split at h
    · cases h; exact first_undecided hf
    split at h
    · cases h; exact first_undecided hf
    · cases h
  next => cases h

theorem after_undecided (h : out.after? now = some (t, e)) : ¬ e.Decided := by
  rw [Outside.after?] at h
  split at h
  next u ending hf => cases h; exact first_undecided hf
  next => cases h

theorem check_undecided (h : s.check out start = .ends t e) : ¬ e.Decided := by
  have hdeliver : ∀ now, s.deliver now = .ends t e → ¬ e.Decided := by
    intro now hnow
    rw [Sample.deliver] at hnow
    split at hnow
    · cases hnow
    · cases hnow; exact id
  rw [Sample.check] at h
  split at h
  · exact hdeliver start h
  split at h
  · cases h; exact id
  split at h
  next hslept =>
    split at hslept
    · cases hslept
    · cases h; exact during_undecided hslept
  next =>
    split at h
    · split at h
      next hhung => cases h; exact after_undecided hhung
      next => cases h; exact id
    · exact hdeliver _ h

def waitFrom (o : PollOptions) (out : Outside) (cancelled : Bool) (checks now : Nat)
    (samples : List (Sample Bool)) : Run :=
  runFrom o out (fun (_ : Unit) met => ((), met)) () cancelled checks now samples

/-- The check `n` is the last one, and its value is what ended the run. -/
structure DecidedAt (o : PollOptions) (checks now : Nat) (samples : List (Sample Bool)) (n : Nat)
    (met : Bool) (r : Run) : Prop where
  run : r = ⟨checksFrom o.interval.inNanos samples now (n + 1),
    if met then .resolved else timeoutEnding o, endFrom o.interval.inNanos samples now n⟩
  before : ∀ m < n, resultAt samples m = .ok false
  gave : resultAt samples n = .ok met
  room : o.maxChecks = 0 ∨ checks + n < o.maxChecks.toNat
  used : met = false → checks + n + 1 = o.maxChecks.toNat

variable {samples : List (Sample Bool)} {s : Sample Bool} {n : Nat} {r : Run}

theorem decidedAt_first {rest : List (Sample Bool)}
    (hroom : o.maxChecks = 0 ∨ checks < o.maxChecks.toNat)
    (hs : s.check out (o.wakeFrom now) = .gives t met)
    (hv : o.verdict checks met = some e) :
    DecidedAt o checks now (s :: rest) 0 met ⟨[o.wakeFrom now], e, t⟩ := by
  obtain ⟨rfl, hr⟩ := check_gives hs
  have htime : endFrom o.interval.inNanos (s :: rest) now 0 = o.wakeFrom now + s.delay := rfl
  have hused : met = false → checks + 1 = o.maxChecks.toNat := by
    intro hfalse
    rcases verdict_decides hv with ⟨htrue, _⟩ | ⟨_, hne, hle, _⟩
    · exact nomatch htrue.symm.trans hfalse
    · have hlt := hroom.resolve_left hne
      rw [countCheck_allowed hlt] at hle
      omega
  have he : e = if met then .resolved else timeoutEnding o := by
    rcases verdict_decides hv with ⟨rfl, rfl⟩ | ⟨rfl, hne, _, rfl⟩
    · rfl
    · rw [countCheck_allowed (hroom.resolve_left hne), hused rfl]
      rfl
  exact {
    run := by rw [checksFrom_cons, htime, he]; rfl
    before := fun m hm => absurd hm (Nat.not_lt_zero m)
    gave := hr
    room := hroom
    used := hused }

theorem DecidedAt.withCheck {rest : List (Sample Bool)}
    (hs : s.result = .ok false) (hopen : o.maxChecks = 0 ∨ countCheck checks < o.maxChecks.toNat)
    (h : DecidedAt o (countCheck checks) (o.wakeFrom now + s.delay) rest n met r) :
    DecidedAt o checks now (s :: rest) (n + 1) met (r.withCheck (o.wakeFrom now)) := by
  have hcount := countCheck_open hopen
  exact {
    run := by rw [h.run, PollOptions.wakeFrom, withCheck_timeline]
    before := by
      intro m hm
      cases m with
      | zero => exact hs
      | succ m => exact h.before m (Nat.lt_of_succ_lt_succ hm)
    gave := h.gave
    room := by
      rcases hcount with hzero | hcount
      · exact .inl hzero
      · refine h.room.imp_right fun hlt => ?_
        rw [hcount] at hlt
        omega
    used := by
      intro hfalse
      have hused := h.used hfalse
      rcases hcount with hzero | hcount
      · rw [hzero] at hused
        exact absurd hused (Nat.succ_ne_zero _)
      · rw [hcount] at hused
        omega }

theorem round_waitFrom (o : PollOptions) (out : Outside) (checks now : Nat)
    (samples : List (Sample Bool)) :
    Round o out (fun (_ : Unit) met => ((), met)) () checks now samples
      (waitFrom o out false checks now samples) :=
  round_runFrom o out _ () checks now samples

theorem decidedAt_of_decided (samples : List (Sample Bool)) :
    ∀ checks now : Nat, o.maxChecks = 0 ∨ checks < o.maxChecks.toNat →
      (waitFrom o out false checks now samples).ending.Decided →
      ∃ n met, DecidedAt o checks now samples n met (waitFrom o out false checks now samples) := by
  -- while the run goes on there is room for another check
  induction samples with
  | nil =>
    intro checks now _ hd
    have hround := round_waitFrom o out checks now []
    generalize waitFrom o out false checks now [] = r at hround hd
    cases hround with
    | asleep h => exact absurd hd (during_undecided h)
    | exhausted _ => exact hd.elim
  | cons s rest ih =>
    intro checks now hroom hd
    have hround := round_waitFrom o out checks now (s :: rest)
    generalize waitFrom o out false checks now (s :: rest) = r at hround hd ⊢
    cases hround with
    | asleep h => exact absurd hd (during_undecided h)
    | broken h => exact absurd hd (check_undecided h)
    | decided h hv => exact ⟨0, _, decidedAt_first hroom h hv⟩
    | goesOn h hv =>
      obtain ⟨rfl, hr⟩ := check_gives h
      obtain ⟨rfl, hopen⟩ := verdict_leaves_open hv
      cases hc : s.cancels with
      | true =>
        rw [hc, runFrom_cancelled] at hd
        exact hd.elim
      | false =>
        rw [hc] at hd
        obtain ⟨n, met, hrest⟩ := ih _ _ hopen hd
        exact ⟨n + 1, met, hrest.withCheck hr hopen⟩

theorem room_at_start (o : PollOptions) : o.maxChecks = 0 ∨ 0 < o.maxChecks.toNat := by
  by_cases hzero : o.maxChecks = 0
  · exact .inl hzero
  · exact .inr (Nat.pos_of_ne_zero fun h => hzero (UInt32.toNat_inj.mp h))

theorem waitFor_decided (h : (waitFor o out samples).ending.Decided) :
    ∃ n met, DecidedAt o 0 0 samples n met (waitFor o out samples) :=
  decidedAt_of_decided samples 0 0 (room_at_start o) h

theorem waitFor_timed_out (h : (waitFor o out samples).ending.TimesOut) :
    ∃ n, DecidedAt o 0 0 samples n false (waitFor o out samples) := by
  obtain ⟨n, met, hd⟩ := waitFor_decided (decided_of_timesOut h)
  cases met with
  | false => exact ⟨n, hd⟩
  | true =>
    rw [hd.run] at h
    rcases h with he | ⟨_, he⟩
    · cases he
    · cases he

end BrowserActions.Wait
