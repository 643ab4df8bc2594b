import Mathlib
import BrowserActions.Proofs.Json.Written
import BrowserActions.Proofs.Keyed

/-!
# Reading written JSON

A written value is read back with the members of its objects in order, the last of one name
counting. Its tokens are put together into the draft that lists its parts as they were written.
-/
namespace BrowserActions.Json

mutual

def draft : Json → Draft
  | .null => .null
  | .bool b => .bool b
  | .integer n => .integer n
  | .double x => .real (.finite x)
  | .string s => .string s
  | .array items => .array (itemDrafts items) true
  | .object members => .object (memberDrafts members) true

def itemDrafts : List Json → List Draft
  | [] => []
  | v :: vs => draft v :: itemDrafts vs

def memberDrafts : List (String × Json) → List Entry
  | [] => []
  | m :: ms => (some m.1, draft m.2) :: memberDrafts ms

end

mutual

/-- The value with the members of each object in order of their names. -/
def ordered : Json → Json
  | .array items => .array (orderedItems items)
  | .object members => .object (Keyed.ofList (orderedMembers members))
  | v => v

def orderedItems : List Json → List Json
  | [] => []
  | v :: vs => ordered v :: orderedItems vs

def orderedMembers : List (String × Json) → List (String × Json)
  | [] => []
  | m :: ms => (m.1, ordered m.2) :: orderedMembers ms

end

mutual

def depth : Json → Nat
  | .array items => itemsDepth items + 1
  | .object members => membersDepth members + 1
  | _ => 0

def itemsDepth : List Json → Nat
  | [] => 0
  | v :: vs => max (depth v) (itemsDepth vs)

def membersDepth : List (String × Json) → Nat
  | [] => 0
  | m :: ms => max (depth m.2) (membersDepth ms)

end

theorem itemsDepth_le {vs : List Json} {room : Nat} (h : ∀ v ∈ vs, v.depth ≤ room) :
    itemsDepth vs ≤ room := by
  induction vs with
  | nil => exact Nat.zero_le _
  | cons v vs ih =>
    obtain ⟨hfirst, hrest⟩ := List.forall_mem_cons.mp h
    exact max_le hfirst (ih hrest)

theorem membersDepth_le {ms : List (String × Json)} {room : Nat}
    (h : ∀ m ∈ ms, m.2.depth ≤ room) : membersDepth ms ≤ room := by
  induction ms with
  | nil => exact Nat.zero_le _
  | cons m ms ih =>
    obtain ⟨hfirst, hrest⟩ := List.forall_mem_cons.mp h
    exact max_le hfirst (ih hrest)

theorem orderedItems_eq_map (vs : List Json) : orderedItems vs = vs.map ordered := by
  induction vs with
  | nil => rfl
  | cons v vs ih => rw [orderedItems, ih, List.map_cons]

theorem orderedMembers_eq_map (ms : List (String × Json)) :
    orderedMembers ms = ms.map fun m => (m.1, ordered m.2) := by
  induction ms with
  | nil => rfl
  | cons m ms ih => rw [orderedMembers, ih, List.map_cons]

theorem memberDrafts_eq_map (ms : List (String × Json)) :
    memberDrafts ms = ms.map fun m => (some m.1, draft m.2) := by
  induction ms with
  | nil => rfl
  | cons m ms ih => rw [memberDrafts, ih, List.map_cons]

theorem named_memberDrafts (ms : List (String × Json)) :
    ∀ m ∈ memberDrafts ms, ∃ name, m.1 = some name := by
  intro m hm
  rw [memberDrafts_eq_map] at hm
  obtain ⟨given, -, rfl⟩ := List.mem_map.mp hm
  exact ⟨given.1, rfl⟩

theorem member_ordered (key : String) (members : List (String × Json)) :
    (ordered (.object members)).member? key =
      (Keyed.lookup key members.reverse).map ordered := by
  rw [ordered, orderedMembers_eq_map]
  change Keyed.lookup key (Keyed.ofList _) = _
  rw [Keyed.lookup_ofList, ← List.map_reverse, Keyed.lookup_map]

theorem given_ordered_some {key : String} {members : List (String × Json)} {v w : Json}
    (h : Keyed.lookup key members.reverse = some v) (hw : v.ordered = w) (hne : w ≠ .null) :
    (ordered (.object members)).given? key = some w := by
  rw [given?, member_ordered, h, Option.map_some, hw]
  split
  next heq => exact absurd (Option.some.inj heq) hne
  next => rfl

theorem given_ordered_null {key : String} {members : List (String × Json)}
    (h : Keyed.lookup key members.reverse = some .null) :
    (ordered (.object members)).given? key = none := by
  rw [given?, member_ordered, h]
  rfl

theorem given_ordered_none {key : String} {members : List (String × Json)}
    (h : Keyed.lookup key members.reverse = none) :
    (ordered (.object members)).given? key = none := by
  rw [given?, member_ordered, h]
  rfl

theorem run_cons {b next : Building} {t : Token} (h : b.step t = some next) (ts : List Token) :
    b.run (t :: ts) = next.run ts := by
  rw [Building.run, h]

theorem spelling_cons (v : Json) (frames : List Frame) :
    ∃ t ts next, v.spelling = t :: ts ∧ t ≠ .closeArray ∧ Building.put frames t = some next := by
  match v with
  | .array [] | .array (_ :: _) | .object [] | .object (_ :: _) =>
    exact ⟨_, _, _, rfl, by simp, rfl⟩
  | .null | .bool _ | .integer _ | .double _ | .string _ => exact ⟨_, _, _, rfl, by simp, rfl⟩

theorem run_item (v : Json) (frames : List Frame) (ts : List Token) :
    Building.run ⟨frames, .item⟩ (v.spelling ++ ts) =
      Building.run ⟨.array [] :: frames, .value⟩ (v.spelling ++ ts) := by
  obtain ⟨t, rest, next, hs, hne, hput⟩ := spelling_cons v (.array [] :: frames)
  have hitem : Building.step ⟨frames, .item⟩ t = some next := by
    simpa [Building.step, hne] using hput
  have hvalue : Building.step ⟨.array [] :: frames, .value⟩ t = some next := hput
  rw [hs, List.cons_append, run_cons hitem, run_cons hvalue]

mutual

theorem run_spelling : ∀ (v : Json) (frames : List Frame) (ts : List Token),
    Building.run ⟨frames, .value⟩ (v.spelling ++ ts) =
      Building.run ⟨frames, .behind v.draft⟩ ts
  | .null, _, _ => rfl
  | .bool _, _, _ => rfl
  | .integer _, _, _ => rfl
  | .double _, _, _ => rfl
  | .string _, _, _ => rfl
  | .array [], _, _ => rfl
  | .array (v :: vs), frames, ts => by
    rw [spelling, draft, itemDrafts]
    simp only [List.cons_append, List.append_assoc, List.nil_append]
    rw [run_cons rfl, run_item, run_spelling v, run_itemSpelling vs]
    rfl
  | .object [], _, _ => rfl
  | .object (m :: ms), frames, ts => by
    rw [spelling, draft, memberDrafts]
    simp only [List.cons_append, List.append_assoc, List.nil_append]
    rw [run_cons rfl, run_cons rfl, run_cons rfl, run_spelling m.2, run_memberSpelling ms]
    rfl

theorem run_itemSpelling : ∀ (vs : List Json) (before : List Draft) (d : Draft)
    (frames : List Frame) (ts : List Token),
    Building.run ⟨.array before :: frames, .behind d⟩ (itemSpelling vs ++ .closeArray :: ts) =
      Building.run ⟨frames, .behind (.array ((d :: before).reverse ++ itemDrafts vs) true)⟩ ts
  | [], before, d, frames, ts => by
    rw [itemSpelling, itemDrafts, List.append_nil]
    rfl
  | v :: vs, before, d, frames, ts => by
    rw [itemSpelling, itemDrafts]
    simp only [List.cons_append, List.append_assoc]
    rw [run_cons rfl, run_spelling v, run_itemSpelling vs, List.reverse_cons, List.append_assoc]
    rfl

theorem run_memberSpelling : ∀ (ms : List (String × Json)) (before : List Entry)
    (name : Option String) (d : Draft) (frames : List Frame) (ts : List Token),
    Building.run ⟨.object before name :: frames, .behind d⟩
        (memberSpelling ms ++ .closeObject :: ts) =
      Building.run
        ⟨frames, .behind (.object (((name, d) :: before).reverse ++ memberDrafts ms) true)⟩ ts
  | [], before, name, d, frames, ts => by
    rw [memberSpelling, memberDrafts, List.append_nil]
    rfl
  | m :: ms, before, name, d, frames, ts => by
    rw [memberSpelling, memberDrafts]
    simp only [List.cons_append, List.append_assoc]
    rw [run_cons rfl, run_cons rfl, run_cons rfl, run_spelling m.2, run_memberSpelling ms,
      List.reverse_cons, List.append_assoc]
    rfl

end

theorem reading_compact {v : Json} (h : v.Exact) : reading v.compact = ⟨v.draft, true⟩ := by
  rw [reading, tokens_compact h]
  simpa [Building.run] using run_spelling v [] []

mutual

theorem value_draft : ∀ (v : Json) (room : Nat), v.depth ≤ room →
    v.draft.value? room = some v.ordered
  | .null, _, _ => rfl
  | .bool _, _, _ => rfl
  | .integer _, _, _ => rfl
  | .double _, _, _ => rfl
  | .string _, _, _ => rfl
  | .array items, room, h => by
    rw [depth] at h
    have hroom : (room != 0) = true := by simp; omega
    rw [draft, Draft.value?, hroom, values_itemDrafts items (room - 1) (by omega), ordered]
    rfl
  | .object members, room, h => by
    rw [depth] at h
    have hroom : (room != 0) = true := by simp; omega
    rw [draft, Draft.value?, hroom, values_memberDrafts members (room - 1) (by omega), ordered]
    rfl

theorem values_itemDrafts : ∀ (vs : List Json) (room : Nat), itemsDepth vs ≤ room →
    Draft.values? room (itemDrafts vs) = some (orderedItems vs)
  | [], _, _ => rfl
  | v :: vs, room, h => by
    rw [itemsDepth] at h
    rw [itemDrafts, Draft.values?, value_draft v room (by omega),
      values_itemDrafts vs room (by omega), orderedItems]
    rfl

theorem values_memberDrafts : ∀ (ms : List (String × Json)) (room : Nat), membersDepth ms ≤ room →
    Draft.memberValues? room (memberDrafts ms) = some (orderedMembers ms)
  | [], _, _ => rfl
  | m :: ms, room, h => by
    rw [membersDepth] at h
    rw [memberDrafts, Draft.memberValues?, value_draft m.2 room (by omega),
      values_memberDrafts ms room (by omega), orderedMembers]
    rfl

end

/-- A written value is read back with its members in order. -/
theorem read_compact {v : Json} (h : v.Exact) (hd : v.depth ≤ deepest) :
    read? v.compact = some v.ordered := by
  rw [read?, reading_compact h]
  exact value_draft v deepest hd

end BrowserActions.Json
