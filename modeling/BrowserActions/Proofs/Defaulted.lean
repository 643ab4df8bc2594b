import Mathlib
import BrowserActions.Proofs.Listing

/-!
# Records with defaults

A record every member of which may be left out. Each slot that is not filled has a default, so what
a draft tells is laid over the defaults. How it tells it makes no difference: as an object, whatever
its order and whatever else it says, or as an array, and with the defaults or without.
-/
namespace BrowserActions.Decode

open Draft (found? names found_eq_none Single)
open Json (Entry)

/-- Values with the drafts that are written for them and read back. -/
structure Codec (β : Type) where
  draft : β → Draft
  read : Draft → Result β
  read_draft : ∀ b, read (draft b) = .ok b
  whole_draft : ∀ b, (draft b).isWhole = true

namespace Codec

def uint64 : Codec UInt64 := ⟨fun n => .integer n.toNat, Decode.uint64, uint64_toNat, fun _ => rfl⟩

def uint32 : Codec UInt32 := ⟨fun n => .integer n.toNat, Decode.uint32, uint32_toNat, fun _ => rfl⟩

def bool : Codec Bool := ⟨.bool, Decode.bool, fun _ => rfl, fun _ => rfl⟩

def string : Codec String := ⟨.string, Decode.string, fun _ => rfl, fun _ => rfl⟩

end Codec

/-- A part of the record `α` that can be read into a state and has a default. -/
structure Slot (σ α : Type) where
  name : String
  Value : Type
  codec : Codec Value
  get : σ → Option Value
  set : σ → Value → σ
  part : α → Value
  standard : Value

def Slot.member {σ α : Type} (x : Slot σ α) : Member σ where
  name := x.name
  omissible := true
  isRead s := (x.get s).isSome
  read s d := do pure (x.set s (← x.codec.read d))

/-- A record of such slots, which have nothing to do with each other. -/
structure Defaulted (ι σ α : Type) where
  slot : ι → Slot σ α
  record : Record σ α
  order : List ι
  members_eq : record.members = order.map fun i => (slot i).member
  mem_order : ∀ i, i ∈ order
  nodup_order : order.Nodup
  name_injective : Function.Injective fun i => (slot i).name
  get_set : ∀ i s b, (slot i).get ((slot i).set s b) = some b
  get_set_ne : ∀ i j s b, i ≠ j → (slot i).get ((slot j).set s b) = (slot i).get s
  set_comm : ∀ i j s b c, i ≠ j →
    (slot i).set ((slot j).set s c) b = (slot j).set ((slot i).set s b) c
  get_start : ∀ i, (slot i).get record.start = none
  finish : ∀ s, ∃ a, record.finish s = .ok a ∧
    ∀ i, (slot i).part a = ((slot i).get s).getD (slot i).standard
  ext : ∀ a b, (∀ i, (slot i).part a = (slot i).part b) → a = b

namespace Defaulted

variable {ι σ α : Type} (x : Defaulted ι σ α) {s t : σ} {i : ι} {d e : Draft} {name : String}
  {members before after : List Entry} {items : List Draft} {exact : Bool}

def slots : Slots ι σ where
  Value i := (x.slot i).Value
  name i := (x.slot i).name
  omissible _ := true
  get i := (x.slot i).get
  set i := (x.slot i).set
  read i := (x.slot i).codec.read
  name_injective := x.name_injective
  get_set := x.get_set
  get_set_ne := x.get_set_ne

def listing : Listing ι := ⟨x.order, fun i => (x.slot i).name⟩

variable {x}

theorem members_slots : x.record.members = x.order.map x.slots.member := x.members_eq

theorem readMembers_slot (s : σ) (i : ι) (d : Draft) (members : List Entry) :
    x.record.readMembers s ((some (x.slot i).name, d) :: members) =
      if ((x.slot i).get s).isSome then .error (.duplicateField (x.slot i).name)
      else ((x.slot i).codec.read d).bind fun b =>
        x.record.readMembers ((x.slot i).set s b) members :=
  Slots.readMembers_slot members_slots (x.mem_order i) s d members

theorem readMembers_unknown (hno : ∀ i, (x.slot i).name ≠ name) (s : σ) (d : Draft)
    (members : List Entry) :
    x.record.readMembers s ((some name, d) :: members) =
      if d.isWhole then x.record.readMembers s members else .error .malformed :=
  Slots.readMembers_unknown members_slots (fun i _ => hno i) s d members

theorem get_of_absent (h : x.record.readMembers s members = .ok t)
    (habsent : some (x.slot i).name ∉ names members) : (x.slot i).get t = (x.slot i).get s :=
  Slots.get_of_absent (i := i) members_slots h (found_eq_none.mpr habsent)

theorem readMembers_set (b : (x.slot i).Value) (h : some (x.slot i).name ∉ names members) :
    x.record.readMembers ((x.slot i).set s b) members =
      (x.record.readMembers s members).map fun t => (x.slot i).set t b := by
  induction members generalizing s with
  | nil => rfl
  | cons m members ih =>
    obtain ⟨_ | name, d⟩ := m
    · rfl
    rw [names, List.map_cons, List.mem_cons, not_or] at h
    obtain ⟨hne, hmore⟩ := h
    by_cases hslot : ∃ j, (x.slot j).name = name
    · obtain ⟨j, rfl⟩ := hslot
      have hji : j ≠ i := fun hji => hne (hji ▸ rfl)
      rw [readMembers_slot, readMembers_slot, x.get_set_ne j i s b hji]
      split
      · rfl
      · cases (x.slot j).codec.read d with
        | error e => rfl
        | ok c =>
          change x.record.readMembers ((x.slot j).set ((x.slot i).set s b) c) members = _
          rw [x.set_comm j i s c b hji]
          exact ih hmore
    · have hno : ∀ j, (x.slot j).name ≠ name := fun j hj => hslot ⟨j, hj⟩
      rw [readMembers_unknown hno, readMembers_unknown hno]
      split
      · exact ih hmore
      · rfl

theorem finish_set (h : (x.slot i).get s = none) :
    x.record.finish ((x.slot i).set s (x.slot i).standard) = x.record.finish s := by
  obtain ⟨a, ha, hparts⟩ := x.finish s
  obtain ⟨b, hb, hparts'⟩ := x.finish ((x.slot i).set s (x.slot i).standard)
  rw [ha, hb]
  refine congrArg Except.ok (x.ext b a fun j => ?_)
  rw [hparts, hparts']
  by_cases hji : j = i
  · subst hji
    rw [x.get_set, h]
    rfl
  · rw [x.get_set_ne j i s _ hji]

theorem decode_added (hread : (x.slot i).codec.read e = .ok (x.slot i).standard)
    (hbefore : some (x.slot i).name ∉ names before) (hafter : some (x.slot i).name ∉ names after) :
    x.record.decode exact (.object (before ++ (some (x.slot i).name, e) :: after) true) =
      x.record.decode exact (.object (before ++ after) true) := by
  rw [decode_object, decode_object, readMembers_append, readMembers_append]
  cases hs : x.record.readMembers x.record.start before with
  | error e => rfl
  | ok s =>
    have hget : (x.slot i).get s = none := (get_of_absent hs hbefore).trans (x.get_start i)
    change (x.record.readMembers s ((some (x.slot i).name, e) :: after)).bind _ =
      (x.record.readMembers s after).bind _
    rw [readMembers_slot, hget, hread]
    change (x.record.readMembers ((x.slot i).set s (x.slot i).standard) after).bind _ = _
    rw [readMembers_set (x.slot i).standard hafter]
    cases ht : x.record.readMembers s after with
    | error e => rfl
    | ok t => exact finish_set ((get_of_absent ht hafter).trans hget)

theorem decode_inside {e' : Draft}
    (hread : (x.slot i).codec.read e = (x.slot i).codec.read e') :
    x.record.decode exact (.object (before ++ (some (x.slot i).name, e) :: after) true) =
      x.record.decode exact (.object (before ++ (some (x.slot i).name, e') :: after) true) := by
  rw [decode_object, decode_object, readMembers_append, readMembers_append]
  simp only [readMembers_slot, hread]

theorem readItems_eq {slots : List ι} {length : Nat} (hlength : items.length ≤ slots.length)
    (hslots : slots.Nodup) (hempty : ∀ i ∈ slots, (x.slot i).get s = none) :
    x.record.readItems exact true length s (slots.map fun i => (x.slot i).member) items =
      x.record.readMembers s ((slots.map fun i => some (x.slot i).name).zip items) := by
  induction slots generalizing s items length with
  | nil =>
    obtain rfl := List.length_eq_zero_iff.mp (Nat.le_zero.mp hlength)
    cases exact <;> rfl
  | cons i slots ih =>
    obtain ⟨hi, hmore⟩ := List.nodup_cons.mp hslots
    obtain ⟨hget, hrest⟩ := List.forall_mem_cons.mp hempty
    cases items with
    | nil =>
      have hitems : x.record.readItems exact true length s (slots.map fun i => (x.slot i).member)
          [] = x.record.readMembers s ((slots.map fun i => some (x.slot i).name).zip []) :=
        ih (Nat.zero_le _) hmore hrest
      rw [List.zip_nil_right] at hitems ⊢
      have homissible : (x.slot i).member.omissible = true := rfl
      rw [← hitems, List.map_cons, Record.readItems]
      simp only [Bool.not_true, Bool.false_eq_true, if_false, homissible, if_true]
    | cons d items =>
      rw [List.map_cons, List.map_cons, List.zip_cons_cons, readMembers_slot, hget,
        Record.readItems]
      change (((x.slot i).codec.read d).bind fun b => Except.ok ((x.slot i).set s b)).bind _ =
        ((x.slot i).codec.read d).bind _
      cases (x.slot i).codec.read d with
      | error e => rfl
      | ok b =>
        refine ih (Nat.le_of_succ_le_succ hlength) hmore fun j hj => ?_
        have hji : j ≠ i := fun hji => hi (hji ▸ hj)
        rw [x.get_set_ne j i s b hji]
        exact hrest j hj

theorem decode_array (h : items.length ≤ x.order.length) :
    x.record.decode exact (.array items true) =
      x.record.decode exact (.object (x.listing.entries items) true) := by
  have hitems : x.record.readItems exact true 0 x.record.start
      (x.order.map fun i => (x.slot i).member) items =
      x.record.readMembers x.record.start (x.listing.entries items) :=
    readItems_eq h x.nodup_order fun i _ => x.get_start i
  rw [decode_object, Record.decode, x.members_eq, hitems]
  rfl

theorem decode_restated {idle : ι → Draft → Prop} {inner : ι → Draft → Draft → Prop}
    (hidle : ∀ i e, idle i e → (x.slot i).codec.read e = .ok (x.slot i).standard)
    (hinner : ∀ i e e', inner i e e' → (x.slot i).codec.read e = (x.slot i).codec.read e')
    {d d' : Draft} (h : x.listing.Restated idle inner d d') :
    x.record.decode exact d = x.record.decode exact d' := by
  cases h with
  | added hbefore hafter he => exact (decode_added (hidle _ _ he) hbefore hafter).symm
  | inside he => exact decode_inside (hinner _ _ _ he)
  | named hlength => exact decode_array hlength

/-- The record has what is told, and the default where nothing is. -/
def LaidOver (x : Defaulted ι σ α) (told : ι → Option Draft) (a : α) : Prop :=
  ∀ i, (∀ e, told i = some e → (x.slot i).codec.read e = .ok ((x.slot i).part a)) ∧
    (told i = none → (x.slot i).part a = (x.slot i).standard)

theorem decode_told_object (exact : Bool) (hnamed : x.listing.Named (.object members true))
    (hwhole : ∀ m ∈ members, m.2.isWhole = true)
    (hread : ∀ i e, found? (x.slot i).name members = some e →
      ∃ b, (x.slot i).codec.read e = .ok b) :
    ∃ a, x.record.decode exact (.object members true) = .ok a ∧
      x.LaidOver (fun i => found? (x.slot i).name members) a := by
  have hreadable : x.slots.Readable x.order members :=
    ⟨hnamed.1, hwhole, fun i _ => hnamed.2 i, fun i _ => hread i⟩
  obtain ⟨t, ht, hslots⟩ := Slots.decode_readable members_slots exact hreadable
    fun i _ => x.get_start i
  obtain ⟨a, ha, hparts⟩ := x.finish t
  have hslot (i : ι) : (found? (x.slot i).name members).map (x.slot i).codec.read =
      ((x.slot i).get t).map .ok := hslots i (x.mem_order i)
  refine ⟨a, ht.trans ha, fun i => ⟨fun e he => ?_, fun hnone => ?_⟩⟩
  · have hread := hslot i
    rw [show found? (x.slot i).name members = some e from he] at hread
    obtain ⟨b, hb, hok⟩ := Option.map_eq_some_iff.mp hread.symm
    rw [hparts, hb]
    exact hok.symm
  · have hempty := hslot i
    rw [show found? (x.slot i).name members = none from hnone] at hempty
    rw [hparts, Option.map_eq_none_iff.mp hempty.symm]
    rfl

/-- A record all members of which can be read has them laid over the defaults. -/
theorem decode_told (exact : Bool) {good : ι → Draft → Prop}
    (hgood : ∀ i e, good i e → ∃ b, (x.slot i).codec.read e = .ok b)
    (hgives : x.listing.Gives good d) (hnamed : x.listing.Named d) (hwhole : d.isWhole = true) :
    ∃ a, x.record.decode exact d = .ok a ∧ x.LaidOver (fun i => x.listing.told? i d) a := by
  have hread : ∀ i e, x.listing.told? i d = some e → ∃ b, (x.slot i).codec.read e = .ok b :=
    fun i e he => hgood i e (hgives.good i e he)
  cases d with
  | array items closed =>
    obtain ⟨hlength, rfl⟩ := hgives.shaped
    rw [decode_array hlength]
    refine decode_told_object exact (Listing.named_entries x.name_injective x.nodup_order items)
      (fun m hm => ?_) hread
    exact hereditary_whole.items hwhole _ (Listing.mem_entries hm).2
  | object members closed =>
    obtain rfl : closed = true := hgives.shaped
    exact decode_told_object exact hnamed (hereditary_whole.members hwhole) hread
  | _ => exact hgives.shaped.elim

def spelledMembers (x : Defaulted ι σ α) (a : α) : List Entry :=
  x.order.map fun i => (some (x.slot i).name, (x.slot i).codec.draft ((x.slot i).part a))

def spelled (x : Defaulted ι σ α) (a : α) : Draft := .object (x.spelledMembers a) true

theorem whole_spelledMembers (a : α) : ∀ m ∈ x.spelledMembers a, m.2.isWhole = true := by
  intro m hm
  obtain ⟨i, -, rfl⟩ := List.mem_map.mp hm
  exact (x.slot i).codec.whole_draft _

theorem single_spelled (a : α) (i : ι) : Single (x.slot i).name (x.spelledMembers a) := by
  refine Draft.single_of_nodup ?_ _
  rw [names, spelledMembers, List.map_map]
  exact x.nodup_order.map ((Option.some_injective _).comp x.name_injective)

theorem named_spelled (a : α) : x.listing.Named (x.spelled a) := by
  refine ⟨fun m hm => ?_, single_spelled a⟩
  obtain ⟨i, -, rfl⟩ := List.mem_map.mp hm
  exact ⟨_, rfl⟩

theorem told_spelled (a : α) (i : ι) :
    x.listing.told? i (x.spelled a) = some ((x.slot i).codec.draft ((x.slot i).part a)) :=
  (single_spelled a i).found (List.mem_map_of_mem (x.mem_order i))

/-- A record that is spelled out is read back. -/
theorem decode_spelled (a : α) : x.record.decode exact (x.spelled a) = .ok a := by
  obtain ⟨b, hb, hparts⟩ := decode_told_object exact (named_spelled a) (whole_spelledMembers a)
    fun i e he => by
      cases (told_spelled a i).symm.trans he
      exact ⟨_, (x.slot i).codec.read_draft _⟩
  rw [spelled, hb]
  refine congrArg Except.ok (x.ext b a fun i => ?_)
  have hread := (hparts i).1 _ (told_spelled a i)
  rw [(x.slot i).codec.read_draft] at hread
  exact (Except.ok.inj hread).symm

def codec (x : Defaulted ι σ α) (exact : Bool) : Codec α where
  draft := x.spelled
  read := x.record.decode exact
  read_draft := decode_spelled
  whole_draft a := Draft.membersWhole_iff.mpr (whole_spelledMembers a)

end Defaulted
end BrowserActions.Decode
