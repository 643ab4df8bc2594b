import Mathlib
import BrowserActions.Json.Typed
import BrowserActions.Proofs.Json.Members

/-!
# Records member by member

The members of most records fill slots that have nothing to do with each other. Then it does not
matter in which order an object lists them, nor what else it lists: if no slot's name is repeated,
each slot holds what was read under its own name.
-/
namespace BrowserActions.Decode

open Draft (count_scattered found? found_cons found_cons_other found_eq_none found_scattered names
  Scattered Single single_of_nodup)
open Json (Entry)

theorem bind_eq_ok {α β : Type} {x : Result α} {f : α → Result β} {b : β} :
    (x >>= f) = .ok b ↔ ∃ a, x = .ok a ∧ f a = .ok b := by
  cases x with
  | error e => exact ⟨nofun, fun ⟨_, h, _⟩ => by cases h⟩
  | ok a => exact ⟨fun h => ⟨a, rfl, h⟩, fun ⟨_, h, hb⟩ => by cases h; exact hb⟩

theorem map_eq_ok {α β : Type} {x : Result α} {f : α → β} {b : β} :
    (x >>= fun a => pure (f a)) = .ok b ↔ ∃ a, x = .ok a ∧ f a = b := by
  cases x with
  | error e => exact ⟨nofun, fun ⟨_, h, _⟩ => by cases h⟩
  | ok a => exact ⟨fun h => ⟨a, rfl, Except.ok.inj h⟩, fun ⟨_, h, hb⟩ => by cases h; exact congrArg _ hb⟩

theorem readAs_of_whole {α : Type} {cs : List Char} (read : Draft → Result α)
    (h : (Json.reading cs).whole = true) :
    Json.readAs read cs = read (Json.reading cs).draft := by
  rw [Json.readAs]
  simp only [h, if_true]
  exact bind_pure _

section Values

variable {α : Type} {d : Draft} {s key : String} {n : UInt64} {options : List String} {a : α}
  {o : Option α} {read : Draft → Result α}

theorem string_eq_ok : string d = .ok s ↔ d = .string s := by
  constructor
  · intro h
    cases d with
    | string t =>
      cases h
      rfl
    | _ => cases h
  · rintro rfl
    rfl

theorem uint64_toNat (x : UInt64) : uint64 (.integer x.toNat) = .ok x := by
  have hlt : (x.toNat : Int) < UInt64.size := Int.ofNat_lt.mpr x.toNat_lt
  rw [uint64, if_pos ⟨Int.natCast_nonneg _, hlt⟩, Int.toNat_natCast, UInt64.ofNat_toNat]

theorem uint32_toNat (x : UInt32) : uint32 (.integer x.toNat) = .ok x := by
  have hlt : (x.toNat : Int) < UInt32.size := Int.ofNat_lt.mpr x.toNat_lt
  rw [uint32, if_pos ⟨Int.natCast_nonneg _, hlt⟩, Int.toNat_natCast, UInt32.ofNat_toNat]

theorem uint64_eq_ok : uint64 d = .ok n ↔ d = .integer n.toNat := by
  constructor
  · intro h
    cases d with
    | integer i =>
      rw [uint64] at h
      split at h
      next hi =>
        cases h
        have hlt : i.toNat < UInt64.size := by omega
        rw [UInt64.toNat_ofNat_of_lt' hlt, Int.toNat_of_nonneg hi.1]
      · cases h
    | _ => cases h
  · rintro rfl
    exact uint64_toNat n

theorem optional_eq_ok (hnull : read .null ≠ .ok a) :
    optional read d = .ok (some a) ↔ read d = .ok a := by
  have hmap : (read d).map some = .ok (some a) ↔ read d = .ok a := by
    cases read d <;> simp [Except.map]
  cases d with
  | null => exact ⟨nofun, fun h => absurd h hnull⟩
  | _ => exact hmap

theorem optional_eq_none : optional read d = .ok none ↔ d = .null := by
  have hmap : (read d).map some ≠ .ok none := by
    cases read d <;> simp [Except.map]
  cases d with
  | null => exact ⟨fun _ => rfl, fun _ => rfl⟩
  | _ => exact ⟨fun h => absurd h hmap, nofun⟩

theorem variant_eq_ok (hd : ∀ members closed, d ≠ .object members closed) :
    variant options d = .ok s ↔ d = .string s ∧ s ∈ options := by
  cases d with
  | string t =>
    rw [variant]
    by_cases ht : t ∈ options
    · rw [if_pos ht]
      constructor
      · intro h
        cases h
        exact ⟨rfl, ht⟩
      · rintro ⟨h, -⟩
        cases h
        rfl
    · rw [if_neg ht]
      constructor
      · intro h
        cases h
      · rintro ⟨h, hs⟩
        cases h
        exact absurd hs ht
  | object members closed => exact absurd rfl (hd members closed)
  | _ => exact ⟨nofun, nofun⟩

theorem heldVariant_eq_ok (hd : ∀ members closed, d ≠ .object members closed) :
    heldVariant options d = .ok s ↔ d = .string s ∧ s ∈ options := by
  cases d with
  | string t => exact variant_eq_ok (d := .string t) hd
  | object members closed => exact absurd rfl (hd members closed)
  | _ => exact ⟨nofun, nofun⟩

theorem wanted_eq_ok : wanted key o = .ok a ↔ o = some a := by
  cases o with
  | none => exact ⟨nofun, nofun⟩
  | some b => simp [wanted]

theorem entries_cons {name : String} {members : List Entry} {rest : List (String × α)}
    (hd : read d = .ok a) (hrest : entries read (.object members true) = .ok rest) :
    entries read (.object ((some name, d) :: members) true) = .ok ((name, a) :: rest) := by
  obtain ⟨values, hvalues, heq⟩ := bind_eq_ok.mp hrest
  obtain rfl : values = rest := Except.ok.inj heq
  rw [entries, List.mapM_cons, hvalues]
  simp only [hd]
  rfl

end Values

section Records

variable {σ α : Type} {r : Record σ α} {D : Draft → Prop} {Inv : σ → Prop} {s t : σ}
  {members : List Entry} {items : List Draft} {ms : List (Member σ)}

theorem decode_object (r : Record σ α) (exact : Bool) (members : List Entry) :
    r.decode exact (.object members true) = (r.readMembers r.start members).bind r.finish := rfl

theorem readMembers_append (r : Record σ α) (s : σ) (members more : List Entry) :
    r.readMembers s (members ++ more) =
      (r.readMembers s members).bind fun t => r.readMembers t more := by
  induction members generalizing s with
  | nil => rfl
  | cons m members ih =>
    obtain ⟨_ | name, d⟩ := m
    · rfl
    rw [List.cons_append, Record.readMembers, Record.readMembers]
    split
    next m hfind =>
      split
      · rfl
      · cases m.read s d with
        | error e => rfl
        | ok u => exact ih u
    next =>
      split
      · exact ih s
      · rfl

/-- What all parts of a draft have. -/
structure Hereditary (D : Draft → Prop) : Prop where
  items : ∀ {items closed}, D (.array items closed) → ∀ d ∈ items, D d
  members : ∀ {members closed}, D (.object members closed) → ∀ m ∈ members, D m.2

theorem hereditary_whole : Hereditary fun d => d.isWhole = true where
  items h := Draft.areWhole_iff.mp ((Bool.and_eq_true _ _).mp h).2
  members h := Draft.membersWhole_iff.mp ((Bool.and_eq_true _ _).mp h).2

/-- No member takes a state of this kind to one of another kind. -/
def Keeps (D : Draft → Prop) (Inv : σ → Prop) (ms : List (Member σ)) : Prop :=
  ∀ m ∈ ms, ∀ s d t, Inv s → D d → m.read s d = .ok t → Inv t

theorem readMembers_keeps (hr : Keeps D Inv r.members) (hs : Inv s)
    (hmembers : ∀ m ∈ members, D m.2) (h : r.readMembers s members = .ok t) : Inv t := by
  induction members generalizing s with
  | nil =>
    cases h
    exact hs
  | cons m members ih =>
    obtain ⟨hm, hmore⟩ := List.forall_mem_cons.mp hmembers
    obtain ⟨_ | name, d⟩ := m
    · cases h
    rw [Record.readMembers] at h
    split at h
    next m hfind =>
      split at h
      · cases h
      · obtain ⟨u, hu, hrest⟩ := bind_eq_ok.mp h
        exact ih (hr m (List.mem_of_find?_eq_some hfind) s d u hs hm hu) hmore hrest
    · split at h
      · exact ih hs hmore h
      · cases h

theorem readItems_keeps {exact closed : Bool} {length : Nat} (hr : Keeps D Inv ms) (hs : Inv s)
    (hitems : ∀ d ∈ items, D d) (h : r.readItems exact closed length s ms items = .ok t) :
    Inv t := by
  induction ms generalizing s items length with
  | nil =>
    rw [Record.readItems] at h
    split at h
    · cases h
    · cases h
      exact hs
  | cons m ms ih =>
    obtain ⟨hm, hmore⟩ := List.forall_mem_cons.mp hr
    cases items with
    | nil =>
      rw [Record.readItems] at h
      split at h
      · cases h
      · split at h
        · exact ih hmore hs hitems h
        · cases h
    | cons d items =>
      obtain ⟨hd, hitems⟩ := List.forall_mem_cons.mp hitems
      obtain ⟨u, hu, hrest⟩ := bind_eq_ok.mp h
      exact ih hmore (hm s d u hs hd hu) hitems hrest

theorem decode_keeps {exact : Bool} {d : Draft} {a : α} (hD : Hereditary D)
    (hr : Keeps D Inv r.members) (hs : Inv r.start) (hd : D d) (h : r.decode exact d = .ok a) :
    ∃ s, Inv s ∧ r.finish s = .ok a := by
  cases d with
  | array items closed =>
    obtain ⟨s, hread, hfinish⟩ := bind_eq_ok.mp h
    exact ⟨s, readItems_keeps hr hs (hD.items hd) hread, hfinish⟩
  | object members closed =>
    obtain ⟨s, hread, hfinish⟩ := bind_eq_ok.mp h
    split at hfinish
    · exact ⟨s, readMembers_keeps hr hs (hD.members hd) hread, hfinish⟩
    · cases hfinish
  | _ => cases h

end Records

def Record.names {σ α : Type} (r : Record σ α) : List String := r.members.map (·.name)

/-- Members with distinct names, none of them broken off. -/
structure Orderly (members : List Entry) : Prop where
  named : ∀ m ∈ members, ∃ name, m.1 = some name
  whole : ∀ m ∈ members, m.2.isWhole = true
  distinct : (names members).Nodup

theorem Orderly.tail {m : Entry} {members : List Entry} (h : Orderly (m :: members)) :
    Orderly members :=
  ⟨(List.forall_mem_cons.mp h.named).2, (List.forall_mem_cons.mp h.whole).2,
    (List.nodup_cons.mp h.distinct).2⟩

theorem Orderly.first {m : Entry} {members : List Entry} (h : Orderly (m :: members)) :
    ∃ name d, m = (some name, d) ∧ d.isWhole = true ∧ some name ∉ names members := by
  obtain ⟨name, hname⟩ := h.named m List.mem_cons_self
  have hfresh := (List.nodup_cons.mp h.distinct).1
  exact ⟨name, m.2, Prod.ext hname rfl, h.whole m List.mem_cons_self, hname ▸ hfresh⟩

theorem orderly_of_value {members : List Entry} {room : Nat} {v : Json}
    (h : (Draft.object members true).value? room = some v) (hdistinct : (names members).Nodup) :
    Orderly members := by
  obtain ⟨-, values, hvalues, -⟩ := Draft.shows_of_value h
  refine ⟨fun m hm => ?_, fun m hm => ?_, hdistinct⟩
  · obtain ⟨name, -, hname, -⟩ := Draft.member_of_values hvalues m hm
    exact ⟨name, congrArg Prod.fst hname⟩
  · obtain ⟨-, v, -, hv⟩ := Draft.member_of_values hvalues m hm
    exact Draft.isWhole_of_value m.2 _ v hv

/-- Slots of a state, each with its name and the reader of what goes into it. -/
structure Slots (ι σ : Type) where
  Value : ι → Type
  name : ι → String
  omissible : ι → Bool
  get : (i : ι) → σ → Option (Value i)
  set : (i : ι) → σ → Value i → σ
  read : (i : ι) → Draft → Result (Value i)
  name_injective : Function.Injective name
  get_set : ∀ i s b, get i (set i s b) = some b
  get_set_ne : ∀ i j s b, i ≠ j → get i (set j s b) = get i s

namespace Slots

variable {ι σ α : Type} (x : Slots ι σ)

def member (i : ι) : Member σ where
  name := x.name i
  omissible := x.omissible i
  isRead s := (x.get i s).isSome
  read s d := do pure (x.set i s (← x.read i d))

/-- Members all of which a reader of these slots can read or pass over. -/
structure Readable (slots : List ι) (members : List Entry) : Prop where
  named : ∀ m ∈ members, ∃ name, m.1 = some name
  whole : ∀ m ∈ members, m.2.isWhole = true
  single : ∀ i ∈ slots, Single (x.name i) members
  reads : ∀ i ∈ slots, ∀ d, found? (x.name i) members = some d → ∃ b, x.read i d = .ok b

variable {x} {r : Record σ α} {slots : List ι} {members : List Entry} {s t : σ} {i j : ι}
  {d : Draft} {name : String}

theorem find_member (hr : r.members = slots.map x.member) (name : String) :
    (∃ i ∈ slots, x.name i = name ∧ r.members.find? (·.name = name) = some (x.member i)) ∨
      (∀ i ∈ slots, x.name i ≠ name) ∧ r.members.find? (·.name = name) = none := by
  cases hfind : r.members.find? (·.name = name) with
  | some m =>
    have hm := List.mem_of_find?_eq_some hfind
    rw [hr] at hm
    obtain ⟨i, hi, rfl⟩ := List.mem_map.mp hm
    have hname := List.find?_some hfind
    exact .inl ⟨i, hi, of_decide_eq_true hname, rfl⟩
  | none =>
    refine .inr ⟨fun i hi hname => ?_, rfl⟩
    have hmem : x.member i ∈ r.members := hr ▸ List.mem_map_of_mem hi
    have hno := List.find?_eq_none.mp hfind _ hmem
    exact hno (decide_eq_true hname)

theorem readMembers_slot (hr : r.members = slots.map x.member) (hi : i ∈ slots) (s : σ) (d : Draft)
    (members : List Entry) :
    r.readMembers s ((some (x.name i), d) :: members) =
      if (x.get i s).isSome then .error (.duplicateField (x.name i))
      else (x.read i d).bind fun b => r.readMembers (x.set i s b) members := by
  rcases x.find_member hr (x.name i) with ⟨j, -, hname, hfind⟩ | ⟨hno, -⟩
  · obtain rfl := x.name_injective hname
    rw [Record.readMembers, hfind]
    change (if (x.get j s).isSome = true then _ else
      ((x.read j d).bind fun b => Except.ok (x.set j s b)).bind _) = _
    cases x.read j d <;> rfl
  · exact absurd rfl (hno i hi)

theorem readMembers_unknown (hr : r.members = slots.map x.member)
    (hno : ∀ i ∈ slots, x.name i ≠ name) (s : σ) (d : Draft) (members : List Entry) :
    r.readMembers s ((some name, d) :: members) =
      if d.isWhole then r.readMembers s members else .error .malformed := by
  rcases x.find_member hr name with ⟨i, hi, hname, -⟩ | ⟨-, hfind⟩
  · exact absurd hname (hno i hi)
  · rw [Record.readMembers, hfind]

theorem readMembers_cons (hr : r.members = slots.map x.member)
    (h : r.readMembers s ((some name, d) :: members) = .ok t) :
    (∃ i ∈ slots, x.name i = name ∧ ∃ b, x.read i d = .ok b ∧
        r.readMembers (x.set i s b) members = .ok t) ∨
      (∀ i ∈ slots, x.name i ≠ name) ∧ r.readMembers s members = .ok t := by
  by_cases hslot : ∃ i ∈ slots, x.name i = name
  · obtain ⟨i, hi, rfl⟩ := hslot
    rw [readMembers_slot hr hi] at h
    split at h
    · cases h
    · obtain ⟨b, hb, hrest⟩ := bind_eq_ok.mp h
      exact .inl ⟨i, hi, rfl, b, hb, hrest⟩
  · have hno : ∀ i ∈ slots, x.name i ≠ name := fun i hi hname => hslot ⟨i, hi, hname⟩
    rw [readMembers_unknown hr hno] at h
    split at h
    · exact .inr ⟨hno, h⟩
    · cases h

theorem get_of_absent (hr : r.members = slots.map x.member)
    (h : r.readMembers s members = .ok t) (habsent : found? (x.name i) members = none) :
    x.get i t = x.get i s := by
  induction members generalizing s with
  | nil =>
    cases h
    rfl
  | cons m members ih =>
    obtain ⟨_ | name, d⟩ := m
    · cases h
    rw [found_cons] at habsent
    split at habsent
    · cases habsent
    next hne =>
      rcases readMembers_cons hr h with ⟨j, hj, rfl, b, -, hrest⟩ | ⟨-, hrest⟩
      · have hij : i ≠ j := fun hij => hne (congrArg (fun k => some (x.name k)) hij).symm
        rw [ih hrest habsent, x.get_set_ne i j s b hij]
      · exact ih hrest habsent

theorem get_of_found (hr : r.members = slots.map x.member) (hi : i ∈ slots)
    (hsingle : Single (x.name i) members) (h : r.readMembers s members = .ok t)
    (hfound : found? (x.name i) members = some d) :
    ∃ b, x.read i d = .ok b ∧ x.get i t = some b := by
  induction members generalizing s with
  | nil => cases hfound
  | cons m members ih =>
    obtain ⟨_ | name, e⟩ := m
    · cases h
    rw [found_cons] at hfound
    split at hfound
    next heq =>
      cases hfound
      obtain rfl := Option.some.inj heq
      rcases readMembers_cons hr h with ⟨j, hj, hname, b, hb, hrest⟩ | ⟨hno, -⟩
      · obtain rfl := x.name_injective hname
        have hget := get_of_absent hr hrest (found_eq_none.mpr hsingle.fresh)
        exact ⟨b, hb, hget.trans (x.get_set j s b)⟩
      · exact absurd rfl (hno i hi)
    next hne =>
      rcases readMembers_cons hr h with ⟨j, hj, hname, b, hb, hrest⟩ | ⟨-, hrest⟩
      · exact ih hsingle.tail hrest hfound
      · exact ih hsingle.tail hrest hfound

theorem Readable.first {m : Entry} (h : x.Readable slots (m :: members)) :
    ∃ name d, m = (some name, d) ∧ d.isWhole = true := by
  obtain ⟨name, hname⟩ := h.named m List.mem_cons_self
  exact ⟨name, m.2, Prod.ext hname rfl, h.whole m List.mem_cons_self⟩

theorem Readable.tail {m : Entry} (h : x.Readable slots (m :: members)) :
    x.Readable slots members := by
  refine ⟨(List.forall_mem_cons.mp h.named).2, (List.forall_mem_cons.mp h.whole).2,
    fun i hi => (h.single i hi).tail, fun i hi d hfound => h.reads i hi d ?_⟩
  rw [found_cons_other, hfound]
  intro hname
  obtain ⟨key, e⟩ := m
  obtain rfl : key = some (x.name i) := hname
  rw [found_eq_none.mpr (h.single i hi).fresh] at hfound
  cases hfound

theorem readMembers_of_readable (hr : r.members = slots.map x.member)
    (h : x.Readable slots members)
    (hempty : ∀ i ∈ slots, some (x.name i) ∈ names members → x.get i s = none) :
    ∃ t, r.readMembers s members = .ok t := by
  induction members generalizing s with
  | nil => exact ⟨s, rfl⟩
  | cons m members ih =>
    obtain ⟨name, d, rfl, hd⟩ := h.first
    have hlater : ∀ i ∈ slots, some (x.name i) ∈ names members → x.get i s = none :=
      fun i hi hmem => hempty i hi (List.mem_cons_of_mem _ hmem)
    by_cases hslot : ∃ i ∈ slots, x.name i = name
    · obtain ⟨i, hi, rfl⟩ := hslot
      have hget := hempty i hi List.mem_cons_self
      obtain ⟨b, hb⟩ := h.reads i hi d (by rw [found_cons, if_pos rfl])
      -- The slot is filled now, but its name does not come again.
      obtain ⟨t, ht⟩ := ih (s := x.set i s b) h.tail fun j hj hmem => by
        have hji : j ≠ i := by
          rintro rfl
          exact (h.single j hj).fresh hmem
        rw [x.get_set_ne j i s b hji]
        exact hlater j hj hmem
      refine ⟨t, ?_⟩
      rw [readMembers_slot hr hi, hget, hb]
      exact ht
    · have hno : ∀ i ∈ slots, x.name i ≠ name := fun i hi hname => hslot ⟨i, hi, hname⟩
      obtain ⟨t, ht⟩ := ih h.tail hlater
      refine ⟨t, ?_⟩
      rw [readMembers_unknown hr hno, if_pos hd]
      exact ht

theorem decode_readable (hr : r.members = slots.map x.member) (exact : Bool)
    (h : x.Readable slots members) (hempty : ∀ i ∈ slots, x.get i r.start = none) :
    ∃ t, r.decode exact (.object members true) = r.finish t ∧
      ∀ i ∈ slots, (found? (x.name i) members).map (x.read i) = (x.get i t).map .ok := by
  obtain ⟨t, ht⟩ := readMembers_of_readable hr h fun i hi _ => hempty i hi
  refine ⟨t, ?_, fun i hi => ?_⟩
  · rw [decode_object, ht]
    rfl
  · cases hfound : found? (x.name i) members with
    | none =>
      have hget := (get_of_absent hr ht hfound).trans (hempty i hi)
      simp [hget]
    | some d =>
      obtain ⟨b, hb, hget⟩ := get_of_found hr hi (h.single i hi) ht hfound
      simp [hb, hget]

/-- An object fills the slots with all that is known of them, in whatever order and among whatever
other members it stands. -/
theorem decode_scattered {known : List Entry} (hr : r.members = slots.map x.member) (exact : Bool)
    (h : Scattered r.names known members) (hnamed : ∀ m ∈ known, ∃ name, m.1 = some name)
    (hdistinct : (names known).Nodup) (hwhole : ∀ m ∈ members, m.2.isWhole = true)
    (told : (i : ι) → Option (x.Value i))
    (htold : ∀ i ∈ slots, (found? (x.name i) known).map (x.read i) = (told i).map .ok)
    (hempty : ∀ i ∈ slots, x.get i r.start = none) :
    ∃ t, r.decode exact (.object members true) = r.finish t ∧ ∀ i ∈ slots, x.get i t = told i := by
  have hreserved : ∀ i ∈ slots, x.name i ∈ r.names := by
    intro i hi
    rw [Record.names, hr, List.map_map]
    exact List.mem_map.mpr ⟨i, hi, rfl⟩
  have hfound : ∀ i ∈ slots, (found? (x.name i) members).map (x.read i) = (told i).map .ok := by
    intro i hi
    rw [found_scattered h (hreserved i hi) (single_of_nodup hdistinct _)]
    exact htold i hi
  have hreadable : x.Readable slots members := by
    refine ⟨h.named hnamed, hwhole, fun i hi => ?_, fun i hi d hd => ?_⟩
    · rw [Single, count_scattered h (hreserved i hi)]
      exact single_of_nodup hdistinct _
    · have hread := hfound i hi
      rw [hd] at hread
      obtain ⟨b, -, hb⟩ := Option.map_eq_some_iff.mp hread.symm
      exact ⟨b, hb.symm⟩
  obtain ⟨t, ht, hslots⟩ := decode_readable hr exact hreadable hempty
  refine ⟨t, ht, fun i hi => ?_⟩
  have hsame := (hslots i hi).symm.trans (hfound i hi)
  exact Option.map_injective (fun _ _ => Except.ok.inj) hsame

end Slots
end BrowserActions.Decode
