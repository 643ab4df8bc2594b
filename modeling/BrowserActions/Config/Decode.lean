import BrowserActions.Config.Basic
import BrowserActions.Decode

/-!
# Reading configurations

Every setting and every section may be left out. What is told is laid over the defaults. A section
that is left out has the standard settings, and one that is there has a default for each setting
that it leaves out.
-/
namespace BrowserActions

open Config Decode

structure PollingConfig.Told where
  intervalMs : Option UInt64 := none
  maxChecks : Option UInt32 := none
  rejectOnTimeout : Option Bool := none
  deriving DecidableEq, Repr

def PollingConfig.Told.complete (t : PollingConfig.Told) : PollingConfig where
  intervalMs := t.intervalMs.getD defaultPollInterval
  maxChecks := t.maxChecks.getD defaultMaxChecks
  rejectOnTimeout := t.rejectOnTimeout.getD defaultTrue

def PollingConfig.record : Record PollingConfig.Told PollingConfig where
  title := "struct PollingConfig"
  start := {}
  members := [
    ⟨"interval_ms", true, (·.intervalMs.isSome), fun t d => do
      pure { t with intervalMs := some (← uint64 d) }⟩,
    ⟨"max_checks", true, (·.maxChecks.isSome), fun t d => do
      pure { t with maxChecks := some (← uint32 d) }⟩,
    ⟨"reject_on_timeout", true, (·.rejectOnTimeout.isSome), fun t d => do
      pure { t with rejectOnTimeout := some (← bool d) }⟩]
  finish t := pure t.complete

structure StabilityConfig.Told where
  intervalMs : Option UInt64 := none
  timeoutMs : Option UInt64 := none
  rejectOnTimeout : Option Bool := none
  deriving DecidableEq, Repr

def StabilityConfig.Told.complete (t : StabilityConfig.Told) : StabilityConfig where
  intervalMs := t.intervalMs.getD defaultStabilityInterval
  timeoutMs := t.timeoutMs.getD defaultStabilityTimeout
  rejectOnTimeout := t.rejectOnTimeout.getD default

def StabilityConfig.record : Record StabilityConfig.Told StabilityConfig where
  title := "struct StabilityConfig"
  start := {}
  members := [
    ⟨"interval_ms", true, (·.intervalMs.isSome), fun t d => do
      pure { t with intervalMs := some (← uint64 d) }⟩,
    ⟨"timeout_ms", true, (·.timeoutMs.isSome), fun t d => do
      pure { t with timeoutMs := some (← uint64 d) }⟩,
    ⟨"reject_on_timeout", true, (·.rejectOnTimeout.isSome), fun t d => do
      pure { t with rejectOnTimeout := some (← bool d) }⟩]
  finish t := pure t.complete

structure LoggingConfig.Told where
  filter : Option String := none
  deriving DecidableEq, Repr

def LoggingConfig.Told.complete (t : LoggingConfig.Told) : LoggingConfig :=
  ⟨t.filter.getD defaultFilter⟩

def LoggingConfig.record : Record LoggingConfig.Told LoggingConfig where
  title := "struct LoggingConfig"
  start := {}
  members := [
    ⟨"filter", true, (·.filter.isSome), fun t d => do pure { t with filter := some (← string d) }⟩]
  finish t := pure t.complete

structure Config.Told where
  polling : Option PollingConfig := none
  stability : Option StabilityConfig := none
  logging : Option LoggingConfig := none
  deriving DecidableEq, Repr

def Config.Told.complete (t : Config.Told) : Config :=
  ⟨t.polling.getD .standard, t.stability.getD .standard, t.logging.getD .standard⟩

/-- An exact reader refuses sections that are arrays with further items. -/
def Config.record (exact : Bool) : Record Config.Told Config where
  title := "struct AppConfig"
  start := {}
  members := [
    ⟨"polling", true, (·.polling.isSome), fun t d => do
      pure { t with polling := some (← PollingConfig.record.decode exact d) }⟩,
    ⟨"stability", true, (·.stability.isSome), fun t d => do
      pure { t with stability := some (← StabilityConfig.record.decode exact d) }⟩,
    ⟨"logging", true, (·.logging.isSome), fun t d => do
      pure { t with logging := some (← LoggingConfig.record.decode exact d) }⟩]
  finish t := pure t.complete

end BrowserActions
