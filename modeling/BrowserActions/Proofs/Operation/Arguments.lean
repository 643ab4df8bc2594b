import Mathlib
import BrowserActions.Operation.Decode
import BrowserActions.Proofs.Decode
import BrowserActions.Proofs.Schema.Language

/-!
# Arguments read as typed values

Each argument has a slot, and the kinds of operations differ in which slots they read and in what
they make of them. Arguments with distinct names are read as an operation if and only if they agree
with it, however they are ordered and whatever else they list. This leaves out a wait whose duration
is not given and a direction that is an object: there the reader has its own rules.
-/
namespace BrowserActions.Operation

open Decode
open Draft (found? names single_of_nodup)
open Json (Entry)
open BrowserOperations (Agrees Omitted direction_ofName mem_names)

inductive Argument where
  | xpath
  | value
  | direction
  | amount
  | url
  | duration
  deriving DecidableEq

namespace Argument

abbrev Value : Argument → Type
  | .xpath | .value | .url => String
  | .direction => Direction
  | .amount => Option UInt64
  | .duration => UInt64

def name : Argument → String
  | .xpath => "xpath"
  | .value => "value"
  | .direction => "direction"
  | .amount => "amount"
  | .url => "url"
  | .duration => "duration_ms"

def get : (i : Argument) → Told → Option i.Value
  | .xpath, t => t.xpath
  | .value, t => t.value
  | .direction, t => t.direction
  | .amount, t => t.amount
  | .url, t => t.url
  | .duration, t => t.durationMs

def set : (i : Argument) → Told → i.Value → Told
  | .xpath, t, s => { t with xpath := some s }
  | .value, t, s => { t with value := some s }
  | .direction, t, d => { t with direction := some d }
  | .amount, t, n => { t with amount := some n }
  | .url, t, s => { t with url := some s }
  | .duration, t, n => { t with durationMs := some n }

def read (held : Bool) : (i : Argument) → Draft → Result i.Value
  | .xpath | .value | .url => string
  | .direction => readDirection held
  | .amount => optional uint64
  | .duration => uint64

def spelled : (i : Argument) → i.Value → Json
  | .xpath, s | .value, s | .url, s => .string s
  | .direction, d => .string d.name
  | .amount, none => .null
  | .amount, some n => .integer n.toNat
  | .duration, n => .integer n.toNat

end Argument

def slots (held : Bool) : Slots Argument Told where
  Value := Argument.Value
  name := Argument.name
  omissible _ := false
  get := Argument.get
  set := Argument.set
  read := Argument.read held
  name_injective := by
    intro i j h
    revert h
    cases i <;> cases j <;> decide
  get_set i _ _ := by cases i <;> rfl
  get_set_ne i j _ _ h := by
    cases i <;> cases j <;> first | rfl | exact absurd rfl h

def Kind.arguments : Kind → List Argument
  | .click | .hover => [.xpath]
  | .setValue | .setValueAndEnter => [.xpath, .value]
  | .scroll => [.direction, .amount]
  | .navigate => [.url]
  | .back | .forward => []
  | .wait => [.duration]

theorem members_eq (held : Bool) (k : Kind) :
    (k.record held).members = k.arguments.map (slots held).member := by
  cases k <;> rfl

variable {held : Bool} {d : Draft} {args : Json} {room : Nat} {ams : List Entry} {t : Told}
  {k : Kind} {op : Operation} {i : Argument}

theorem direction_eq_ok (hd : ∀ members closed, d ≠ .object members closed) (b : Direction) :
    readDirection held d = .ok b ↔ d = .string b.name := by
  have hvariant (s : String) : readVariant held Direction.names d = .ok s ↔
      d = .string s ∧ s ∈ Direction.names := by
    cases held with
    | false => exact variant_eq_ok hd
    | true => exact heldVariant_eq_ok hd
  rw [readDirection, bind_eq_ok]
  constructor
  · rintro ⟨s, hs, hb⟩
    rw [← (direction_ofName s b).mp (wanted_eq_ok.mp hb)]
    exact ((hvariant s).mp hs).1
  · intro h
    exact ⟨b.name, (hvariant _).mpr ⟨h, mem_names.mpr ⟨b, rfl⟩⟩,
      wanted_eq_ok.mpr ((direction_ofName _ b).mpr rfl)⟩

theorem Argument.read_eq_ok (hd : i = .direction → ∀ members closed, d ≠ .object members closed)
    (b : i.Value) : i.read held d = .ok b ↔ d = (i.spelled b).draft := by
  cases i with
  | xpath | value | url => exact string_eq_ok
  | direction => exact direction_eq_ok (hd rfl) b
  | amount =>
    cases b with
    | none => exact optional_eq_none
    | some n =>
      have hnull : uint64 .null ≠ .ok n := nofun
      exact (optional_eq_ok hnull).trans uint64_eq_ok
  | duration => exact uint64_eq_ok

theorem Argument.depth_spelled (b : i.Value) : (i.spelled b).depth = 0 := by
  cases i with
  | amount => cases b <;> rfl
  | _ => rfl

theorem Argument.spelled_injective : Function.Injective i.spelled := by
  intro a b h
  cases i with
  | xpath | value | url => exact Json.string.inj h
  | direction =>
    have hb := (direction_ofName _ b).mpr (Json.string.inj h)
    exact Option.some.inj (((direction_ofName _ a).mpr rfl).symm.trans hb)
  | amount =>
    cases a with
    | none =>
      cases b with
      | none => rfl
      | some n => cases h
    | some m =>
      cases b with
      | none => cases h
      | some n => exact congrArg some (UInt64.toNat_inj.mp (Int.ofNat.inj (Json.integer.inj h)))
  | duration => exact UInt64.toNat_inj.mp (Int.ofNat.inj (Json.integer.inj h))

/-- What is given as the direction is not an object. -/
def Flat (args : Json) : Prop := ∀ members, args.member? "direction" ≠ some (.object members)

structure Given (room : Nat) (ams : List Entry) (args : Json) : Prop where
  value : (Draft.object ams true).value? room = some args
  distinct : (names ams).Nodup
  flat : Flat args

/-- The slots hold what the arguments say. -/
def Holds (t : Told) (args : Json) (i : Argument) : Prop :=
  (i.get t).map i.spelled = args.member? i.name

namespace Given

theorem member (h : Given room ams args) (name : String) :
    args.member? name = (found? name ams).bind (Draft.value? (room - 1)) :=
  Draft.member_value h.value h.distinct name

theorem found (h : Given room ams args) {name : String} (hfound : found? name ams = some d) :
    ∃ v, d.value? (room - 1) = some v ∧ args.member? name = some v := by
  obtain ⟨-, values, hvalues, -⟩ := Draft.shows_of_value h.value
  obtain ⟨_, v, -, hv⟩ := Draft.member_of_values hvalues _ (Draft.mem_of_found hfound)
  exact ⟨v, hv, by rw [h.member, hfound, Option.bind_some, hv]⟩

theorem read_eq_ok (h : Given room ams args) (hfound : found? i.name ams = some d) (b : i.Value) :
    i.read held d = .ok b ↔ args.member? i.name = some (i.spelled b) := by
  obtain ⟨v, hv, hmember⟩ := h.found hfound
  have hd : i = .direction → ∀ members closed, d ≠ .object members closed := by
    rintro rfl members closed rfl
    obtain ⟨-, vs, -, rfl⟩ := Draft.shows_of_value hv
    exact h.flat _ hmember
  rw [Argument.read_eq_ok hd, Draft.eq_draft_iff hv (Argument.depth_spelled b), hmember,
    Option.some_inj]

theorem holds (h : Given room ams args)
    (hread : (k.record held).readMembers {} ams = .ok t) (hi : i ∈ k.arguments) :
    Holds t args i := by
  rw [Holds]
  cases hfound : found? i.name ams with
  | none =>
    have hget := Slots.get_of_absent (members_eq held k) hread hfound
    have hstart : i.get {} = none := by cases i <;> rfl
    rw [h.member, hfound, show i.get t = none from hget.trans hstart]
    rfl
  | some d =>
    obtain ⟨b, hb, hget⟩ :=
      Slots.get_of_found (members_eq held k) hi (single_of_nodup h.distinct _) hread hfound
    rw [(h.read_eq_ok hfound b).mp hb, show i.get t = some b from hget]
    rfl

/-- Arguments are read if all that a kind looks for can be. -/
theorem readable (h : Given room ams args) (hspelled : ∀ i ∈ k.arguments, ∀ v,
    args.member? i.name = some v → ∃ b, v = i.spelled b) :
    ∃ t, (k.record held).readMembers {} ams = .ok t := by
  have horderly := orderly_of_value h.value h.distinct
  refine Slots.readMembers_of_readable (members_eq held k) ⟨horderly.named, horderly.whole,
    fun i _ => single_of_nodup h.distinct i.name, fun i hi d hfound => ?_⟩
    fun i _ _ => by cases i <;> rfl
  obtain ⟨v, -, hv⟩ := h.found hfound
  obtain ⟨b, rfl⟩ := hspelled i hi v hv
  exact ⟨b, (h.read_eq_ok hfound b).mpr hv⟩

end Given

/-- Slots that are filled as an operation needs them. -/
def Filled (t : Told) : Operation → Prop
  | .click xpath | .hover xpath => t.xpath = some xpath
  | .setValue xpath value | .setValueAndEnter xpath value =>
    t.xpath = some xpath ∧ t.value = some value
  | .scroll d amount => t.direction = some d ∧ t.amount.getD none = amount
  | .navigate url => t.url = some url
  | .back | .forward => True
  | .wait ms => t.durationMs = some ms

theorem kind_of_finish (h : k.finish t = .ok op) : op.kind = k := by
  cases k with
  | click | hover | scroll | navigate | wait =>
    obtain ⟨_, -, hop⟩ := bind_eq_ok.mp h
    cases hop
    rfl
  | setValue | setValueAndEnter =>
    obtain ⟨_, -, hrest⟩ := bind_eq_ok.mp h
    obtain ⟨_, -, hop⟩ := bind_eq_ok.mp hrest
    cases hop
    rfl
  | back | forward =>
    cases h
    rfl

theorem finish_eq_ok : op.kind.finish t = .ok op ↔ Filled t op := by
  constructor
  · intro h
    cases op with
    | click | hover | navigate | wait =>
      obtain ⟨_, hwanted, hop⟩ := bind_eq_ok.mp h
      cases hop
      exact wanted_eq_ok.mp hwanted
    | setValue | setValueAndEnter =>
      obtain ⟨_, hxpath, hrest⟩ := bind_eq_ok.mp h
      obtain ⟨_, hvalue, hop⟩ := bind_eq_ok.mp hrest
      cases hop
      exact ⟨wanted_eq_ok.mp hxpath, wanted_eq_ok.mp hvalue⟩
    | scroll d amount =>
      obtain ⟨_, hdirection, hop⟩ := bind_eq_ok.mp h
      cases hop
      exact ⟨wanted_eq_ok.mp hdirection, rfl⟩
    | back | forward => trivial
  · intro h
    cases op with
    | click | hover | navigate | wait => exact bind_eq_ok.mpr ⟨_, wanted_eq_ok.mpr h, rfl⟩
    | setValue | setValueAndEnter =>
      exact bind_eq_ok.mpr ⟨_, wanted_eq_ok.mpr h.1,
        bind_eq_ok.mpr ⟨_, wanted_eq_ok.mpr h.2, rfl⟩⟩
    | scroll d amount =>
      obtain ⟨hdirection, rfl⟩ := h
      exact bind_eq_ok.mpr ⟨_, wanted_eq_ok.mpr hdirection, rfl⟩
    | back | forward => rfl

theorem Holds.get_eq_some (h : Holds t args i) (b : i.Value) :
    i.get t = some b ↔ args.member? i.name = some (i.spelled b) := by
  rw [← h, ← Option.map_some]
  exact (Option.map_injective Argument.spelled_injective).eq_iff.symm

theorem Holds.amount_omitted (h : Holds t args .amount) :
    t.amount.getD none = none ↔ Omitted (args.member? "amount") := by
  change t.amount.map (Argument.spelled .amount) = args.member? "amount" at h
  rw [Omitted, ← h]
  rcases t.amount with _ | _ | n
  · exact ⟨fun _ => .inl rfl, fun _ => rfl⟩
  · exact ⟨fun _ => .inr rfl, fun _ => rfl⟩
  · constructor
    · intro h
      cases h
    · rintro (h | h)
      · cases h
      · cases h

theorem Holds.amount_given (h : Holds t args .amount) (n : UInt64) :
    t.amount.getD none = some n ↔ args.member? "amount" = some (.integer n.toNat) := by
  refine Iff.trans ?_ (h.get_eq_some (some n))
  change t.amount.getD none = some n ↔ t.amount = some (some n)
  rcases t.amount with _ | m
  · exact ⟨nofun, nofun⟩
  · exact ⟨congrArg some, Option.some.inj⟩

def Timed (k : Kind) (args : Json) : Prop := k = .wait → ¬Omitted (args.member? "duration_ms")

theorem filled_iff_agrees (h : ∀ i ∈ op.kind.arguments, Holds t args i)
    (htimed : Timed op.kind args) : Filled t op ↔ Agrees args op := by
  cases op with
  | click s | hover s => exact (h .xpath List.mem_cons_self).get_eq_some s
  | setValue s value | setValueAndEnter s value =>
    have hvalue := h .value (List.mem_cons_of_mem _ List.mem_cons_self)
    exact and_congr ((h .xpath List.mem_cons_self).get_eq_some s) (hvalue.get_eq_some value)
  | scroll d amount =>
    have hdirection := h .direction List.mem_cons_self
    have hamount := h .amount (List.mem_cons_of_mem _ List.mem_cons_self)
    cases amount with
    | none => exact and_congr (hdirection.get_eq_some d) hamount.amount_omitted
    | some n => exact and_congr (hdirection.get_eq_some d) (hamount.amount_given n)
  | navigate s => exact (h .url List.mem_cons_self).get_eq_some s
  | back | forward => exact Iff.rfl
  | wait ms =>
    have hgiven := (h .duration List.mem_cons_self).get_eq_some ms
    exact hgiven.trans (or_iff_right fun homitted => htimed rfl homitted.1).symm

theorem says_of_agrees (h : Agrees args op) (htimed : Timed op.kind args) :
    ∀ i ∈ op.kind.arguments, ∀ v, args.member? i.name = some v → ∃ b, v = i.spelled b := by
  intro i hi v hv
  cases op with
  | click s | hover s | navigate s =>
    obtain rfl := List.mem_singleton.mp hi
    exact ⟨s, Option.some.inj (hv.symm.trans h)⟩
  | setValue s value | setValueAndEnter s value =>
    rcases List.mem_pair.mp hi with rfl | rfl
    · exact ⟨s, Option.some.inj (hv.symm.trans h.1)⟩
    · exact ⟨value, Option.some.inj (hv.symm.trans h.2)⟩
  | scroll d amount =>
    cases amount with
    | none =>
      rcases List.mem_pair.mp hi with rfl | rfl
      · exact ⟨d, Option.some.inj (hv.symm.trans h.1)⟩
      · rcases h.2 with hnone | hnull
        · cases hv.symm.trans hnone
        · exact ⟨none, Option.some.inj (hv.symm.trans hnull)⟩
    | some n =>
      rcases List.mem_pair.mp hi with rfl | rfl
      · exact ⟨d, Option.some.inj (hv.symm.trans h.1)⟩
      · exact ⟨some n, Option.some.inj (hv.symm.trans h.2)⟩
  | back | forward => cases hi
  | wait ms =>
    obtain rfl := List.mem_singleton.mp hi
    -- An omitted duration agrees with a wait of a second, but there is no number to read then.
    rcases h with ⟨homitted, -⟩ | hgiven
    · exact absurd homitted (htimed rfl)
    · exact ⟨ms, Option.some.inj (hv.symm.trans hgiven)⟩

/-- Arguments are read as the operation of the kind that they agree with. -/
theorem ofObject_eq_ok (h : Given room ams args) (htimed : Timed k args) :
    (k.record held).ofObject (.object ams true) = .ok op ↔ op.kind = k ∧ Agrees args op := by
  constructor
  · intro hread
    obtain ⟨t, ht, hop⟩ := bind_eq_ok.mp hread
    obtain rfl := kind_of_finish hop
    exact ⟨rfl, (filled_iff_agrees (fun i hi => h.holds ht hi) htimed).mp (finish_eq_ok.mp hop)⟩
  · rintro ⟨rfl, hagrees⟩
    obtain ⟨t, ht⟩ : ∃ t, (op.kind.record held).readMembers {} ams = .ok t :=
      h.readable (says_of_agrees hagrees htimed)
    have hfilled := (filled_iff_agrees (fun i hi => h.holds ht hi) htimed).mpr hagrees
    exact bind_eq_ok.mpr ⟨t, ht, finish_eq_ok.mpr hfilled⟩

end BrowserActions.Operation
