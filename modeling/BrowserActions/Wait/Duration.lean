/-!
# Durations

Whole seconds and the nanoseconds beyond them.
-/
namespace BrowserActions

structure Duration where
  seconds : UInt64
  nanos : Fin 1000000000
  deriving DecidableEq, Repr

namespace Duration

def inNanos (d : Duration) : Nat := d.seconds.toNat * 1000000000 + d.nanos.val

def ofMillis (ms : UInt64) : Duration where
  seconds := ms / 1000
  nanos := ⟨(ms.toNat % 1000) * 1000000, by omega⟩

/-- Nanoseconds beyond a second are carried over. -/
def ofParts (seconds : UInt64) (nanos : UInt32) : Duration where
  seconds := seconds + UInt64.ofNat (nanos.toNat / 1000000000)
  nanos := ⟨nanos.toNat % 1000000000, by omega⟩

end Duration
end BrowserActions
