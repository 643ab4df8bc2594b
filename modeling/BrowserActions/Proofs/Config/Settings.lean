import Mathlib
import BrowserActions.Config.Decode
import BrowserActions.Proofs.Defaulted

/-!
# The settings of a configuration

A configuration is a record of sections, and a section a record of settings. Both have a default for
each of their parts, and the defaults of the settings make up that of their section.
-/
namespace BrowserActions

open Config Decode

namespace PollingConfig

inductive Field where
  | intervalMs
  | maxChecks
  | rejectOnTimeout
  deriving DecidableEq

def slot : Field → Slot Told PollingConfig
  | .intervalMs => ⟨"interval_ms", UInt64, .uint64, (·.intervalMs),
      fun t n => { t with intervalMs := some n }, (·.intervalMs), defaultPollInterval⟩
  | .maxChecks => ⟨"max_checks", UInt32, .uint32, (·.maxChecks),
      fun t n => { t with maxChecks := some n }, (·.maxChecks), defaultMaxChecks⟩
  | .rejectOnTimeout => ⟨"reject_on_timeout", Bool, .bool, (·.rejectOnTimeout),
      fun t b => { t with rejectOnTimeout := some b }, (·.rejectOnTimeout), defaultTrue⟩

def fields : Defaulted Field Told PollingConfig where
  slot := slot
  record := record
  order := [.intervalMs, .maxChecks, .rejectOnTimeout]
  members_eq := rfl
  mem_order f := by cases f <;> decide
  nodup_order := by decide
  name_injective := by
    intro f g h
    revert h
    cases f <;> cases g <;> decide
  get_set f _ _ := by cases f <;> rfl
  get_set_ne f g _ _ h := by
    cases f <;> cases g <;> first | rfl | exact absurd rfl h
  set_comm f g _ _ _ h := by
    cases f <;> cases g <;> first | rfl | exact absurd rfl h
  get_start f := by cases f <;> rfl
  finish t := ⟨t.complete, rfl, fun f => by cases f <;> rfl⟩
  ext a b h := by
    obtain ⟨_, _, _⟩ := a
    obtain rfl := h .intervalMs
    obtain rfl := h .maxChecks
    obtain rfl := h .rejectOnTimeout
    rfl

end PollingConfig

namespace StabilityConfig

inductive Field where
  | intervalMs
  | timeoutMs
  | rejectOnTimeout
  deriving DecidableEq

def slot : Field → Slot Told StabilityConfig
  | .intervalMs => ⟨"interval_ms", UInt64, .uint64, (·.intervalMs),
      fun t n => { t with intervalMs := some n }, (·.intervalMs), defaultStabilityInterval⟩
  | .timeoutMs => ⟨"timeout_ms", UInt64, .uint64, (·.timeoutMs),
      fun t n => { t with timeoutMs := some n }, (·.timeoutMs), defaultStabilityTimeout⟩
  | .rejectOnTimeout => ⟨"reject_on_timeout", Bool, .bool, (·.rejectOnTimeout),
      fun t b => { t with rejectOnTimeout := some b }, (·.rejectOnTimeout), default⟩

def fields : Defaulted Field Told StabilityConfig where
  slot := slot
  record := record
  order := [.intervalMs, .timeoutMs, .rejectOnTimeout]
  members_eq := rfl
  mem_order f := by cases f <;> decide
  nodup_order := by decide
  name_injective := by
    intro f g h
    revert h
    cases f <;> cases g <;> decide
  get_set f _ _ := by cases f <;> rfl
  get_set_ne f g _ _ h := by
    cases f <;> cases g <;> first | rfl | exact absurd rfl h
  set_comm f g _ _ _ h := by
    cases f <;> cases g <;> first | rfl | exact absurd rfl h
  get_start f := by cases f <;> rfl
  finish t := ⟨t.complete, rfl, fun f => by cases f <;> rfl⟩
  ext a b h := by
    obtain ⟨_, _, _⟩ := a
    obtain rfl := h .intervalMs
    obtain rfl := h .timeoutMs
    obtain rfl := h .rejectOnTimeout
    rfl

end StabilityConfig

namespace LoggingConfig

def slot (_ : Unit) : Slot Told LoggingConfig :=
  ⟨"filter", String, .string, (·.filter), fun _ s => ⟨some s⟩, (·.filter), defaultFilter⟩

def fields : Defaulted Unit Told LoggingConfig where
  slot := slot
  record := record
  order := [()]
  members_eq := rfl
  mem_order _ := List.mem_singleton.mpr rfl
  nodup_order := List.nodup_singleton _
  name_injective _ _ _ := rfl
  get_set _ _ _ := rfl
  get_set_ne _ _ _ _ h := absurd rfl h
  set_comm _ _ _ _ _ h := absurd rfl h
  get_start _ := rfl
  finish t := ⟨t.complete, rfl, fun _ => rfl⟩
  ext a b h := by
    obtain ⟨_⟩ := a
    obtain rfl := h ()
    rfl

end LoggingConfig

namespace Config

inductive Group where
  | polling
  | stability
  | logging
  deriving DecidableEq

namespace Group

def name : Group → String
  | .polling => "polling"
  | .stability => "stability"
  | .logging => "logging"

theorem name_injective : Function.Injective name := by
  intro g h hname
  revert hname
  cases g <;> cases h <;> decide

def Content : Group → Type
  | .polling => PollingConfig
  | .stability => StabilityConfig
  | .logging => LoggingConfig

def Field : Group → Type
  | .polling => PollingConfig.Field
  | .stability => StabilityConfig.Field
  | .logging => Unit

def State : Group → Type
  | .polling => PollingConfig.Told
  | .stability => StabilityConfig.Told
  | .logging => LoggingConfig.Told

def fields : (g : Group) → Defaulted g.Field g.State g.Content
  | .polling => PollingConfig.fields
  | .stability => StabilityConfig.fields
  | .logging => LoggingConfig.fields

def standard : (g : Group) → g.Content
  | .polling => PollingConfig.standard
  | .stability => StabilityConfig.standard
  | .logging => LoggingConfig.standard

def get : (g : Group) → Told → Option g.Content
  | .polling, t => t.polling
  | .stability, t => t.stability
  | .logging, t => t.logging

def set : (g : Group) → Told → g.Content → Told
  | .polling, t, c => { t with polling := some c }
  | .stability, t, c => { t with stability := some c }
  | .logging, t, c => { t with logging := some c }

def part : (g : Group) → Config → g.Content
  | .polling, c => c.polling
  | .stability, c => c.stability
  | .logging, c => c.logging

theorem part_standard (g : Group) (f : g.Field) :
    (g.fields.slot f).part g.standard = (g.fields.slot f).standard := by
  cases g <;> cases f <;> rfl

def slot (exact : Bool) (g : Group) : Slot Told Config :=
  ⟨g.name, g.Content, g.fields.codec exact, g.get, g.set, g.part, g.standard⟩

end Group

def groups (exact : Bool) : Defaulted Group Told Config where
  slot := Group.slot exact
  record := record exact
  order := [.polling, .stability, .logging]
  members_eq := rfl
  mem_order g := by cases g <;> decide
  nodup_order := by decide
  name_injective := Group.name_injective
  get_set g _ _ := by cases g <;> rfl
  get_set_ne g h _ _ hne := by
    cases g <;> cases h <;> first | rfl | exact absurd rfl hne
  set_comm g h _ _ _ hne := by
    cases g <;> cases h <;> first | rfl | exact absurd rfl hne
  get_start g := by cases g <;> rfl
  finish t := ⟨t.complete, rfl, fun g => by cases g <;> rfl⟩
  ext a b h := by
    obtain ⟨_, _, _⟩ := a
    obtain rfl := h .polling
    obtain rfl := h .stability
    obtain rfl := h .logging
    rfl

end Config
end BrowserActions
