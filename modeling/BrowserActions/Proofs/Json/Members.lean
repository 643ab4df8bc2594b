import Mathlib
import BrowserActions.Proofs.Json.RoundTrip

/-!
# Values and their drafts

What the draft of a JSON value can be, kind by kind. In an object without repeated names the draft
and the value have the same members.
-/
namespace BrowserActions.Draft

open Json (Entry)

variable {d : Draft} {v w : Json} {room : Nat} {members : List Entry}
  {values : List (String × Json)} {name key : String}

/-- What a draft shows of the value that it is the draft of. -/
def Shows (room : Nat) (v : Json) : Draft → Prop
  | .null => v = .null
  | .bool b => v = .bool b
  | .integer n => v = .integer n
  | .real x => ∃ y, x = .finite y ∧ v = .double y
  | .string s => v = .string s
  | .array items closed => closed = true ∧ ∃ vs, values? (room - 1) items = some vs ∧ v = .array vs
  | .object members closed =>
    closed = true ∧ ∃ vs, memberValues? (room - 1) members = some vs ∧ v = .object (Keyed.ofList vs)
  | .unusable | .broken => False

theorem shows_of_value (h : d.value? room = some v) : d.Shows room v := by
  cases d with
  | null | bool b | integer n | string s => exact (Option.some.inj h).symm
  | real x =>
    cases x with
    | finite y => exact ⟨y, rfl, (Option.some.inj h).symm⟩
    | infinity negative => cases h
    | notANumber => cases h
  | array items closed =>
    rw [value?] at h
    split at h
    next hclosed =>
      obtain ⟨vs, hvs, rfl⟩ := Option.map_eq_some_iff.mp h
      exact ⟨((Bool.and_eq_true _ _).mp hclosed).1, vs, hvs, rfl⟩
    · cases h
  | object members closed =>
    rw [value?] at h
    split at h
    next hclosed =>
      obtain ⟨vs, hvs, rfl⟩ := Option.map_eq_some_iff.mp h
      exact ⟨((Bool.and_eq_true _ _).mp hclosed).1, vs, hvs, rfl⟩
    · cases h
  | unusable | broken => cases h

theorem draft_of_value (h : d.value? room = some v) (hv : v.depth = 0) : d = v.draft := by
  have hshows := shows_of_value h
  cases d with
  | null | bool b | integer n | string s =>
    rw [hshows]
    rfl
  | real x =>
    obtain ⟨y, rfl, rfl⟩ := hshows
    rfl
  | array items closed =>
    obtain ⟨-, vs, -, rfl⟩ := hshows
    cases hv
  | object members closed =>
    obtain ⟨-, vs, -, rfl⟩ := hshows
    cases hv
  | unusable | broken => cases hshows

theorem eq_draft_iff (h : d.value? room = some v) (hw : w.depth = 0) : d = w.draft ↔ v = w := by
  constructor
  · rintro rfl
    have hordered : w.ordered = w := by
      cases w with
      | array items => cases hw
      | object members => cases hw
      | _ => rfl
    rw [Json.value_draft w room (by omega), hordered] at h
    exact (Option.some.inj h).symm
  · rintro rfl
    exact draft_of_value h hw

theorem object_of_value (h : d.value? room = some (.object values)) :
    ∃ members, d = .object members true := by
  have hshows := shows_of_value h
  cases d with
  | object members closed =>
    obtain ⟨rfl, -⟩ := hshows
    exact ⟨members, rfl⟩
  | array items closed =>
    obtain ⟨-, vs, -, hv⟩ := hshows
    cases hv
  | real x =>
    obtain ⟨y, -, hv⟩ := hshows
    cases hv
  | unusable | broken => cases hshows
  | _ => cases hshows

theorem values_cons {ds : List Draft} {vs : List Json} (h : values? room (d :: ds) = some vs) :
    ∃ v rest, d.value? room = some v ∧ values? room ds = some rest ∧ vs = v :: rest := by
  simp only [values?, Option.bind_eq_bind, Option.bind_eq_some_iff] at h
  obtain ⟨v, hv, rest, hrest, hvs⟩ := h
  exact ⟨v, rest, hv, hrest, (Option.some.inj hvs).symm⟩

theorem memberValues_cons {m : Entry} {ms : List Entry}
    (h : memberValues? room (m :: ms) = some values) :
    ∃ name v rest, m = (some name, m.2) ∧ m.2.value? room = some v ∧
      memberValues? room ms = some rest ∧ values = (name, v) :: rest := by
  simp only [memberValues?, Option.bind_eq_bind, Option.bind_eq_some_iff] at h
  obtain ⟨name, hname, v, hv, rest, hrest, hvalues⟩ := h
  exact ⟨name, v, rest, Prod.ext hname rfl, hv, hrest, (Option.some.inj hvalues).symm⟩

theorem areWhole_iff {ds : List Draft} : areWhole ds = true ↔ ∀ d ∈ ds, d.isWhole = true := by
  induction ds with
  | nil => exact ⟨fun _ => List.forall_mem_nil _, fun _ => rfl⟩
  | cons d ds ih => rw [areWhole, Bool.and_eq_true, ih, List.forall_mem_cons]

theorem membersWhole_iff : membersWhole members = true ↔ ∀ m ∈ members, m.2.isWhole = true := by
  induction members with
  | nil => exact ⟨fun _ => List.forall_mem_nil _, fun _ => rfl⟩
  | cons m members ih => rw [membersWhole, Bool.and_eq_true, ih, List.forall_mem_cons]

mutual

theorem isWhole_of_value : ∀ (d : Draft) (room : Nat) (v : Json), d.value? room = some v →
    d.isWhole = true
  | .null, _, _, _ | .bool _, _, _, _ | .integer _, _, _, _ | .real _, _, _, _
  | .string _, _, _, _ | .unusable, _, _, _ => rfl
  | .array items _, room, v, h => by
    obtain ⟨rfl, vs, hvs, -⟩ := shows_of_value h
    exact areWhole_of_values items (room - 1) vs hvs
  | .object members _, room, v, h => by
    obtain ⟨rfl, vs, hvs, -⟩ := shows_of_value h
    exact membersWhole_of_values members (room - 1) vs hvs
  | .broken, _, _, h => by cases h

theorem areWhole_of_values : ∀ (ds : List Draft) (room : Nat) (vs : List Json),
    values? room ds = some vs → areWhole ds = true
  | [], _, _, _ => rfl
  | d :: ds, room, _, h => by
    obtain ⟨v, rest, hv, hrest, -⟩ := values_cons h
    rw [areWhole, isWhole_of_value d room v hv, areWhole_of_values ds room rest hrest]
    rfl

theorem membersWhole_of_values : ∀ (ms : List Entry) (room : Nat) (vs : List (String × Json)),
    memberValues? room ms = some vs → membersWhole ms = true
  | [], _, _, _ => rfl
  | m :: ms, room, _, h => by
    obtain ⟨name, v, rest, -, hv, hrest, -⟩ := memberValues_cons h
    rw [membersWhole, isWhole_of_value m.2 room v hv, membersWhole_of_values ms room rest hrest]
    rfl

end

theorem member_of_values (h : memberValues? room members = some values) :
    ∀ m ∈ members, ∃ name v, m = (some name, m.2) ∧ m.2.value? room = some v := by
  induction members generalizing values with
  | nil => exact List.forall_mem_nil _
  | cons m members ih =>
    obtain ⟨name, v, rest, hname, hv, hrest, -⟩ := memberValues_cons h
    exact List.forall_mem_cons.mpr ⟨⟨name, v, hname, hv⟩, ih hrest⟩

def found? (name : String) (members : List Entry) : Option Draft :=
  (members.find? (·.1 = some name)).map (·.2)

theorem found_cons (name : String) (m : Entry) (members : List Entry) :
    found? name (m :: members) = if m.1 = some name then some m.2 else found? name members := by
  rw [found?, List.find?_cons]
  by_cases h : m.1 = some name
  · simp [h]
  · simp [h, found?]

theorem mem_of_found (h : found? name members = some d) : (some name, d) ∈ members := by
  obtain ⟨m, hm, rfl⟩ := Option.map_eq_some_iff.mp h
  have hname := List.find?_some hm
  rw [← of_decide_eq_true hname]
  exact List.mem_of_find?_eq_some hm

def names (members : List Entry) : List (Option String) := members.map (·.1)

theorem found_eq_none : found? name members = none ↔ some name ∉ names members := by
  induction members with
  | nil => simp [found?, names]
  | cons m members ih =>
    rw [found_cons, names, List.map_cons, List.mem_cons, not_or, ← names]
    by_cases h : m.1 = some name
    · simp [h]
    · rw [if_neg h, ih]
      exact ⟨fun hno => ⟨Ne.symm h, hno⟩, And.right⟩

theorem found_cons_other {m : Entry} (h : m.1 ≠ some name) :
    found? name (m :: members) = found? name members := by
  rw [found_cons, if_neg h]

/-- Not more than one member has the name. -/
def Single (name : String) (members : List Entry) : Prop := (names members).count (some name) ≤ 1

instance (name : String) (members : List Entry) : Decidable (Single name members) :=
  inferInstanceAs (Decidable (_ ≤ _))

theorem single_of_nodup (h : (names members).Nodup) (name : String) : Single name members :=
  List.nodup_iff_count_le_one.mp h (some name)

theorem Single.tail {m : Entry} (h : Single name (m :: members)) : Single name members :=
  (List.count_le_count_cons).trans h

theorem Single.fresh (h : Single name ((some name, d) :: members)) :
    some name ∉ names members := by
  rw [Single, names, List.map_cons, List.count_cons_self] at h
  exact List.count_eq_zero.mp (Nat.le_zero.mp (Nat.le_of_succ_le_succ h))

theorem Single.found (h : Single name members) (hmem : (some name, d) ∈ members) :
    found? name members = some d := by
  induction members with
  | nil => cases hmem
  | cons m members ih =>
    by_cases hname : m.1 = some name
    · obtain ⟨key, e⟩ := m
      obtain rfl : key = some name := hname
      rw [found_cons, if_pos rfl]
      rcases List.mem_cons.mp hmem with heq | hmem
      · cases heq
        rfl
      · exact absurd (List.mem_map_of_mem hmem) h.fresh
    · rw [found_cons_other hname]
      rcases List.mem_cons.mp hmem with rfl | hmem
      · exact absurd rfl hname
      · exact ih h.tail hmem

/-- The known members in any order, among others with names that are not reserved. -/
def Scattered (reserved : List String) (known members : List Entry) : Prop :=
  ∃ others, members.Perm (known ++ others) ∧
    ∀ m ∈ others, ∃ name, m.1 = some name ∧ name ∉ reserved

variable {reserved : List String} {known : List Entry}

theorem scattered_self (reserved : List String) (known : List Entry) :
    Scattered reserved known known := by
  refine ⟨[], ?_, List.forall_mem_nil _⟩
  rw [List.append_nil]

theorem Scattered.mem {m : Entry} (h : Scattered reserved known members) (hm : m ∈ known) :
    m ∈ members := by
  obtain ⟨others, hperm, -⟩ := h
  exact hperm.mem_iff.mpr (List.mem_append_left others hm)

theorem Scattered.named (h : Scattered reserved known members)
    (hknown : ∀ m ∈ known, ∃ name, m.1 = some name) : ∀ m ∈ members, ∃ name, m.1 = some name := by
  obtain ⟨others, hperm, hothers⟩ := h
  intro m hm
  rcases List.mem_append.mp (hperm.mem_iff.mp hm) with hm | hm
  · exact hknown m hm
  · obtain ⟨name, hname, -⟩ := hothers m hm
    exact ⟨name, hname⟩

theorem count_scattered (h : Scattered reserved known members) (hname : name ∈ reserved) :
    (names members).count (some name) = (names known).count (some name) := by
  obtain ⟨others, hperm, hothers⟩ := h
  have hfresh : some name ∉ names others := by
    intro hmem
    obtain ⟨m, hm, heq⟩ := List.mem_map.mp hmem
    obtain ⟨other, hother, hfree⟩ := hothers m hm
    rw [hother] at heq
    exact hfree (Option.some.inj heq ▸ hname)
  have hnames : (names members).Perm (names known ++ names others) := by
    simpa [names] using hperm.map (·.1)
  rw [hnames.count_eq, List.count_append, List.count_eq_zero_of_not_mem hfresh, Nat.add_zero]

theorem found_scattered (h : Scattered reserved known members) (hname : name ∈ reserved)
    (hsingle : Single name known) : found? name members = found? name known := by
  have hcount := count_scattered h hname
  cases hfound : found? name known with
  | some d =>
    have hsingle' : Single name members := hcount.trans_le hsingle
    exact hsingle'.found (h.mem (mem_of_found hfound))
  | none =>
    rw [found_eq_none, ← List.count_eq_zero] at hfound ⊢
    rw [hcount, hfound]

theorem lookup_values (h : memberValues? room members = some values) (name : String) :
    Keyed.lookup name values = (found? name members).bind (value? room) := by
  induction members generalizing values with
  | nil =>
    cases h
    rfl
  | cons m members ih =>
    obtain ⟨key, v, rest, hkey, hv, hrest, rfl⟩ := memberValues_cons h
    rw [hkey, Keyed.lookup, found_cons, ih hrest]
    by_cases heq : key = name
    · rw [if_pos heq, if_pos (congrArg some heq), Option.bind_some, hv]
    · rw [if_neg heq, if_neg fun h => heq (Option.some.inj h)]

theorem names_values (h : memberValues? room members = some values) :
    names members = (values.map (·.1)).map some := by
  induction members generalizing values with
  | nil =>
    cases h
    rfl
  | cons m members ih =>
    obtain ⟨key, v, rest, hkey, -, hrest, rfl⟩ := memberValues_cons h
    rw [names, List.map_cons, ← names, ih hrest, hkey]
    rfl

theorem member_value (h : (Draft.object members true).value? room = some v)
    (hdistinct : (names members).Nodup) (name : String) :
    v.member? name = (found? name members).bind (value? (room - 1)) := by
  obtain ⟨-, values, hvalues, rfl⟩ := shows_of_value h
  rw [names_values hvalues] at hdistinct
  rw [Json.member?, Keyed.lookup_ofList, Keyed.lookup_reverse hdistinct.of_map,
    lookup_values hvalues]

theorem found_of_member (h : (Draft.object members true).value? room = some v)
    (hdistinct : (names members).Nodup) (hmember : v.member? name = some w) :
    ∃ d, found? name members = some d ∧ d.value? (room - 1) = some w := by
  rw [member_value h hdistinct] at hmember
  exact Option.bind_eq_some_iff.mp hmember

end BrowserActions.Draft
