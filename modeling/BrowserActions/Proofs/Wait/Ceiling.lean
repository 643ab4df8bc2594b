import Mathlib
import BrowserActions.Wait.Stability

/-!
# How many checks a timeout allows

As many checks are allowed as intervals cover the timeout, as far as 32 bits reach. Zero checks set
no limit, and only a timeout of zero comes to that. All results on the way fit 128 bits.
-/
namespace BrowserActions

/-- A result in 128 bits, if it fits. -/
def fit128? (n : Nat) : Option Nat := if n < 2 ^ 128 then some n else none

def Duration.inNanos128? (d : Duration) : Option Nat := do
  let whole ← fit128? (d.seconds.toNat * 1000000000)
  fit128? (whole + d.nanos.val)

/-- The number of checks, computed with results in 128 bits only. -/
def StabilityOptions.maxChecks128? (o : StabilityOptions) : Option (Except Failure UInt32) := do
  let interval ← o.interval.inNanos128?
  if interval = 0 then some (.error (.config .zeroInterval))
  else
    let timeout ← o.timeout.inNanos128?
    let raised ← fit128? (timeout + (interval - 1))
    let checks ← fit128? (raised / interval)
    some (.ok (UInt32.ofNat (min checks (UInt32.size - 1))))

theorem fit128_of_lt {n : Nat} (h : n < 2 ^ 128) : fit128? n = some n := if_pos h

theorem Duration.inNanos_lt (d : Duration) : d.inNanos < 2 ^ 64 * 1000000000 := by
  have hseconds : d.seconds.toNat < 2 ^ 64 := d.seconds.toNat_lt
  have hnanos := d.nanos.isLt
  rw [Duration.inNanos]
  omega

theorem Duration.inNanos_eq_zero {d : Duration} : d.inNanos = 0 ↔ d = ⟨0, 0⟩ := by
  constructor
  · intro h
    obtain ⟨seconds, nanos⟩ := d
    simp only [Duration.inNanos] at h
    have hseconds : seconds = 0 := UInt64.toNat_inj.mp (show seconds.toNat = 0 by omega)
    have hnanos : nanos = 0 := by omega
    rw [hseconds, hnanos]
  · rintro rfl
    simp [Duration.inNanos]

theorem Duration.inNanos128_eq (d : Duration) : d.inNanos128? = some d.inNanos := by
  have hlt := d.inNanos_lt
  rw [Duration.inNanos] at hlt
  have hall : d.seconds.toNat * 1000000000 + d.nanos.val < 2 ^ 128 := by omega
  have hwhole := Nat.lt_of_le_of_lt (Nat.le_add_right _ d.nanos.val) hall
  rw [Duration.inNanos128?, fit128_of_lt hwhole, Option.bind_eq_bind, Option.bind_some,
    fit128_of_lt hall, Duration.inNanos]

theorem StabilityOptions.maxChecks128_eq (o : StabilityOptions) :
    o.maxChecks128? = some o.maxChecks := by
  rw [maxChecks128?, maxChecks, Duration.inNanos128_eq, Option.bind_eq_bind, Option.bind_some]
  by_cases hzero : o.interval.inNanos = 0
  · rw [if_pos hzero]
    exact congrArg some (if_pos hzero).symm
  · have htimeout := o.timeout.inNanos_lt
    have hinterval := o.interval.inNanos_lt
    have hraised : o.timeout.inNanos + (o.interval.inNanos - 1) < 2 ^ 128 := by omega
    have hchecks := Nat.lt_of_le_of_lt (Nat.div_le_self _ o.interval.inNanos) hraised
    rw [if_neg hzero, Duration.inNanos128_eq, Option.bind_some, fit128_of_lt hraised,
      Option.bind_some, fit128_of_lt hchecks, Option.bind_some]
    exact congrArg some (if_neg hzero).symm

namespace Wait

variable {o o' : StabilityOptions} {limit limit' : UInt32}

theorem limit_toNat {o : StabilityOptions} {limit : UInt32} (hI : o.interval.inNanos ≠ 0)
    (h : o.maxChecks = .ok limit) :
    limit.toNat = min (o.timeout.inNanos ⌈/⌉ o.interval.inNanos) (UInt32.size - 1) := by
  rw [StabilityOptions.maxChecks, if_neg hI] at h
  rw [← Except.ok.inj h, Nat.ceilDiv_eq_add_pred_div, ← Nat.add_sub_assoc (Nat.pos_of_ne_zero hI)]
  exact UInt32.toNat_ofNat_of_lt' (Nat.lt_of_le_of_lt (Nat.min_le_right _ _) (by decide))

theorem ceil_times_interval {interval : Nat} (h : 0 < interval) (timeout : Nat) :
    timeout ≤ (timeout ⌈/⌉ interval) * interval ∧
      (timeout ⌈/⌉ interval) * interval < timeout + interval := by
  rw [Nat.ceilDiv_eq_add_pred_div]
  have hle := Nat.div_mul_le_self (timeout + interval - 1) interval
  have hlt := Nat.lt_div_mul_add h (a := timeout + interval - 1)
  constructor <;> omega

theorem lt_ceil {interval : Nat} (h : 0 < interval) (timeout n : Nat) :
    n < timeout ⌈/⌉ interval ↔ n * interval < timeout := by
  rw [← Nat.not_le, ceilDiv_le_iff_le_mul h, Nat.not_le, Nat.mul_comm]

theorem ceil_le_ceil {interval interval' timeout timeout' : Nat} (h : 0 < interval')
    (hinterval : interval' ≤ interval) (htimeout : timeout ≤ timeout') :
    timeout ⌈/⌉ interval ≤ timeout' ⌈/⌉ interval' := by
  rw [ceilDiv_le_iff_le_mul (Nat.lt_of_lt_of_le h hinterval), Nat.mul_comm]
  calc timeout ≤ timeout' := htimeout
    _ ≤ (timeout' ⌈/⌉ interval') * interval' := (ceil_times_interval h timeout').1
    _ ≤ (timeout' ⌈/⌉ interval') * interval := Nat.mul_le_mul_left _ hinterval

theorem maxChecks_zero (h : o.interval.inNanos = 0) :
    o.maxChecks = .error (.config .zeroInterval) := by
  rw [StabilityOptions.maxChecks, if_pos h]

theorem interval_of_ok (h : o.maxChecks = .ok limit) : o.interval.inNanos ≠ 0 := by
  intro hzero
  rw [maxChecks_zero hzero] at h
  cases h

/-- The least number of intervals that covers the timeout, or the greatest number there is. -/
structure Covers (timeout interval : Nat) (limit : UInt32) : Prop where
  unlimited : limit = 0 ↔ timeout = 0
  least : limit ≠ 0 → limit.toNat < 2 ^ 32 - 1 →
    (limit.toNat - 1) * interval < timeout ∧ timeout ≤ limit.toNat * interval
  saturated : limit.toNat = 2 ^ 32 - 1 ↔ (2 ^ 32 - 2) * interval < timeout

theorem covers_of_min {timeout interval : Nat} (hI : 0 < interval)
    (hlimit : limit.toNat = min (timeout ⌈/⌉ interval) (UInt32.size - 1)) :
    Covers timeout interval limit := by
  have hsize : UInt32.size - 1 = 2 ^ 32 - 1 := rfl
  have hlt := lt_ceil hI timeout
  rw [hsize] at hlimit
  refine ⟨?_, fun hne hlow => ?_, ?_⟩
  · have hzero : limit = 0 ↔ limit.toNat = 0 := UInt32.toNat_inj.symm
    have hpos := hlt 0
    rw [hzero, hlimit]
    omega
  · have hpos : limit.toNat ≠ 0 := fun h => hne (UInt32.toNat_inj.mp h)
    have hall : limit.toNat = timeout ⌈/⌉ interval := by omega
    rw [hall]
    exact ⟨(hlt _).mp (by omega), (ceil_times_interval hI timeout).1⟩
  · have hmost := hlt (2 ^ 32 - 2)
    rw [← hmost, hlimit]
    omega

/-- A zero interval is refused, and any other allows as many checks as cover the timeout: no more
for a shorter timeout, and no fewer for a shorter interval. -/
theorem checks_cover_timeout (o : StabilityOptions) :
    (o.maxChecks = .error (.config .zeroInterval) ↔ o.interval = ⟨0, 0⟩) ∧
    (o.interval ≠ ⟨0, 0⟩ → ∃ limit, o.maxChecks = .ok limit ∧
      Covers o.timeout.inNanos o.interval.inNanos limit) ∧
    (∀ (o' : StabilityOptions) (limit limit' : UInt32),
      o.maxChecks = .ok limit → o'.maxChecks = .ok limit' →
      o.timeout.inNanos ≤ o'.timeout.inNanos → o'.interval.inNanos ≤ o.interval.inNanos →
      limit ≤ limit') ∧
    o.maxChecks128? = some o.maxChecks := by
  have hok : o.interval.inNanos ≠ 0 → ∃ limit, o.maxChecks = .ok limit := by
    intro hI
    rw [StabilityOptions.maxChecks, if_neg hI]
    exact ⟨_, rfl⟩
  rw [← Duration.inNanos_eq_zero, Ne, ← Duration.inNanos_eq_zero]
  refine ⟨⟨fun herror => ?_, maxChecks_zero⟩, fun hI => ?_, ?_, o.maxChecks128_eq⟩
  · by_contra hI
    obtain ⟨limit, hlimit⟩ := hok hI
    rw [hlimit] at herror
    cases herror
  · obtain ⟨limit, hlimit⟩ := hok hI
    exact ⟨limit, hlimit, covers_of_min (Nat.pos_of_ne_zero hI) (limit_toNat hI hlimit)⟩
  · intro o' limit limit' h h' htimeout hinterval
    have hI := interval_of_ok h
    have hI' := interval_of_ok h'
    rw [UInt32.le_iff_toNat_le, limit_toNat hI h, limit_toNat hI' h']
    exact min_le_min_right _ (ceil_le_ceil (Nat.pos_of_ne_zero hI') hinterval htimeout)

/-- A second holds four intervals of 300 ms, and all the time there is more intervals of 1 ns than
can be counted. -/
theorem checks_cover_timeout_counted :
    (∃ limit, StabilityOptions.maxChecks ⟨.ofMillis 300, .ofMillis 1000, false⟩ = .ok limit ∧
      Covers (Duration.ofMillis 1000).inNanos (Duration.ofMillis 300).inNanos limit) ∧
    (4 : UInt32) ≤ 4294967295 :=
  ⟨(checks_cover_timeout ⟨.ofMillis 300, .ofMillis 1000, false⟩).2.1 (by decide),
    (checks_cover_timeout ⟨.ofMillis 300, .ofMillis 1000, false⟩).2.2.1
      ⟨⟨0, 1⟩, ⟨18446744073709551615, 999999999⟩, false⟩ 4 4294967295 (by cbv) (by cbv)
      (by decide) (by decide)⟩

end Wait
end BrowserActions
