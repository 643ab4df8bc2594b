import BrowserActions.Json.Basic
import BrowserActions.Wait.Stability

/-!
# Configuration

The settings of waits and of the log, with their defaults.
-/
namespace BrowserActions

structure PollingConfig where
  intervalMs : UInt64
  /-- Zero polls until the condition holds. -/
  maxChecks : UInt32
  rejectOnTimeout : Bool
  deriving DecidableEq, Repr

structure StabilityConfig where
  intervalMs : UInt64
  timeoutMs : UInt64
  /-- Off by default: a page that never settles counts as probably stable. -/
  rejectOnTimeout : Bool
  deriving DecidableEq, Repr

structure LoggingConfig where
  filter : String
  deriving DecidableEq, Repr

structure Config where
  polling : PollingConfig
  stability : StabilityConfig
  logging : LoggingConfig
  deriving DecidableEq, Repr

namespace Config

def defaultPollInterval : UInt64 := 100
def defaultMaxChecks : UInt32 := 50
def defaultStabilityInterval : UInt64 := 200
def defaultStabilityTimeout : UInt64 := 5000
def defaultFilter : String := "info"
def defaultTrue : Bool := true

end Config

open Config

def PollingConfig.standard : PollingConfig := ⟨defaultPollInterval, defaultMaxChecks, true⟩

def StabilityConfig.standard : StabilityConfig :=
  ⟨defaultStabilityInterval, defaultStabilityTimeout, false⟩

def LoggingConfig.standard : LoggingConfig := ⟨defaultFilter⟩

def Config.standard : Config := ⟨.standard, .standard, .standard⟩

def PollingConfig.options (c : PollingConfig) : PollOptions :=
  ⟨.ofMillis c.intervalMs, c.maxChecks, c.rejectOnTimeout⟩

def StabilityConfig.options (c : StabilityConfig) : StabilityOptions :=
  ⟨.ofMillis c.intervalMs, .ofMillis c.timeoutMs, c.rejectOnTimeout⟩

def PollingConfig.toJson (c : PollingConfig) : Json :=
  .object [("interval_ms", .integer c.intervalMs.toNat), ("max_checks", .integer c.maxChecks.toNat),
    ("reject_on_timeout", .bool c.rejectOnTimeout)]

def StabilityConfig.toJson (c : StabilityConfig) : Json :=
  .object [("interval_ms", .integer c.intervalMs.toNat), ("timeout_ms", .integer c.timeoutMs.toNat),
    ("reject_on_timeout", .bool c.rejectOnTimeout)]

def LoggingConfig.toJson (c : LoggingConfig) : Json := .object [("filter", .string c.filter)]

def Config.toJson (c : Config) : Json :=
  .object [("polling", c.polling.toJson), ("stability", c.stability.toJson),
    ("logging", c.logging.toJson)]

end BrowserActions
