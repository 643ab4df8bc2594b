import Mathlib
import BrowserActions.Proofs.Decode
import BrowserActions.Proofs.Toml.Document

/-!
# What a document can say

However the tables of a document were put together, what is read from it is whole, gives each name
in a table once and has no integer that is larger than a signed one of 64 bits can be.
-/
namespace BrowserActions

open Draft (names)

/-- Nothing of the draft is broken off, no name in it stands twice in its object, and no integer of
it is too large to be signed. -/
inductive Draft.Tidy : Draft → Prop where
  | null : Tidy .null
  | bool (b) : Tidy (.bool b)
  | integer {n : Int} (h : n < 2 ^ 63) : Tidy (.integer n)
  | real (x) : Tidy (.real x)
  | string (s) : Tidy (.string s)
  | array {items} (h : ∀ d ∈ items, Tidy d) : Tidy (.array items true)
  | object {members} (hnamed : ∀ m ∈ members, ∃ name, m.1 = some name)
    (hdistinct : (names members).Nodup) (h : ∀ m ∈ members, Tidy m.2) : Tidy (.object members true)
  | unusable : Tidy .unusable

theorem Draft.Tidy.isWhole {d : Draft} (h : d.Tidy) : d.isWhole = true := by
  induction h with
  | array _ ih => exact areWhole_iff.mpr ih
  | object _ _ _ ih => exact membersWhole_iff.mpr ih
  | _ => rfl

theorem Decode.hereditary_tidy : Decode.Hereditary Draft.Tidy where
  items h := by
    cases h with
    | array h => exact h
  members h := by
    cases h with
    | object _ _ h => exact h

namespace Toml

open Text

def Item.Tidy (i : Item) : Prop := i.draft.Tidy

structure Table.Tidy (t : Table) : Prop where
  distinct : Distinct t
  items : ∀ e ∈ t, e.2.Tidy

variable {α : Type} {n : Int} {i : Item} {items : List Item} {t inner before : Table}
  {tables : List Table} {kind : TableKind} {key name : String} {path : List String}
  {pairs : List Pair} {part : Part} {cs rest : List Char} {value : Reader Item}

theorem itemDrafts_eq_map (items : List Item) : itemDrafts items = items.map Item.draft := by
  induction items with
  | nil => rfl
  | cons i items ih => rw [itemDrafts, ih, List.map_cons]

theorem entryDrafts_eq_map (t : Table) :
    entryDrafts t = t.map fun e => (some e.1, e.2.draft) := by
  induction t with
  | nil => rfl
  | cons e t ih => rw [entryDrafts, ih, List.map_cons]

theorem tableDrafts_eq_map (tables : List Table) :
    tableDrafts tables = tables.map fun t => .object (entryDrafts t) true := by
  induction tables with
  | nil => rfl
  | cons t tables ih => rw [tableDrafts, ih, List.map_cons]

theorem tidy_array : (Item.array items).Tidy ↔ ∀ i ∈ items, i.Tidy := by
  rw [Item.Tidy, Item.draft, itemDrafts_eq_map]
  constructor
  · rintro (h : Draft.Tidy (.array _ _)) i hi
    cases h with
    | array h => exact h _ (List.mem_map_of_mem hi)
  · intro h
    refine .array fun d hd => ?_
    obtain ⟨i, hi, rfl⟩ := List.mem_map.mp hd
    exact h i hi

theorem names_entries (t : Table) : names (entryDrafts t) = (t.map (·.1)).map some := by
  rw [entryDrafts_eq_map, names, List.map_map, List.map_map]
  rfl

theorem tidy_entries (t : Table) :
    (Draft.object (entryDrafts t) true).Tidy ↔ Table.Tidy t := by
  constructor
  · intro h
    cases h with
    | object _ hdistinct h =>
      rw [names_entries] at hdistinct
      refine ⟨hdistinct.of_map, fun e he => h (some e.1, e.2.draft) ?_⟩
      rw [entryDrafts_eq_map]
      exact List.mem_map_of_mem he
  · intro h
    refine .object (fun m hm => ?_) ?_ fun m hm => ?_
    · rw [entryDrafts_eq_map] at hm
      obtain ⟨e, -, rfl⟩ := List.mem_map.mp hm
      exact ⟨e.1, rfl⟩
    · rw [names_entries]
      exact h.distinct.map (Option.some_injective _)
    · rw [entryDrafts_eq_map] at hm
      obtain ⟨e, he, rfl⟩ := List.mem_map.mp hm
      exact h.items e he

theorem tidy_table : (Item.table kind t).Tidy ↔ t.Tidy := by
  rw [Item.Tidy, Item.draft]
  exact tidy_entries t

theorem tidy_elements : (Item.elements tables).Tidy ↔ ∀ t ∈ tables, Table.Tidy t := by
  rw [Item.Tidy, Item.draft, tableDrafts_eq_map]
  constructor
  · intro h t ht
    cases h with
    | array h => exact (tidy_entries t).mp (h _ (List.mem_reverse.mpr (List.mem_map_of_mem ht)))
  · intro h
    refine .array fun d hd => ?_
    obtain ⟨t, ht, rfl⟩ := List.mem_map.mp (List.mem_reverse.mp hd)
    exact (tidy_entries t).mpr (h t ht)

theorem tidy_nil : Table.Tidy [] := ⟨List.nodup_nil, List.forall_mem_nil _⟩

theorem find_eq_none : t.find? name = none ↔ name ∉ t.map (·.1) := by
  refine ⟨fun h hmem => ?_, find_none⟩
  obtain ⟨e, he, rfl⟩ := List.mem_map.mp hmem
  have hno := List.find?_eq_none.mp (Option.map_eq_none_iff.mp h) e he
  exact hno (decide_eq_true rfl)

theorem Table.Tidy.append (h : t.Tidy) (hfind : t.find? name = none) (hi : i.Tidy) :
    Table.Tidy (t ++ [(name, i)]) := by
  constructor
  · rw [Distinct, List.map_append, List.map_singleton, ← List.concat_eq_append]
    exact h.distinct.concat (find_eq_none.mp hfind)
  · intro e he
    rcases List.mem_append.mp he with he | he
    · exact h.items e he
    · rw [List.mem_singleton.mp he]
      exact hi

theorem keys_set (t : Table) (name : String) (i : Item) :
    (t.set name i).map (·.1) = t.map (·.1) := by
  rw [Table.set, List.map_map]
  refine List.map_congr_left fun e _ => ?_
  by_cases h : e.1 = name
  · simp [h]
  · simp [h]

theorem Table.Tidy.set (h : t.Tidy) (hi : i.Tidy) : (t.set name i).Tidy := by
  constructor
  · rw [Distinct, keys_set]
    exact h.distinct
  · intro e he
    obtain ⟨f, hf, rfl⟩ := List.mem_map.mp he
    split
    · exact hi
    · exact h.items f hf

theorem Table.Tidy.erase (h : t.Tidy) : (t.erase name).Tidy :=
  ⟨h.distinct.sublist (List.filter_sublist.map _),
    fun e he => h.items e (List.mem_filter.mp he).1⟩

theorem find_erase (t : Table) (name : String) : (t.erase name).find? name = none := by
  refine find_none fun hmem => ?_
  obtain ⟨e, he, hname⟩ := List.mem_map.mp hmem
  exact of_decide_eq_true (List.mem_filter.mp he).2 hname

theorem Table.Tidy.find (h : t.Tidy) (hfind : t.find? name = some i) : i.Tidy := by
  obtain ⟨e, he, rfl⟩ := Option.map_eq_some_iff.mp hfind
  exact h.items e (List.mem_of_find?_eq_some he)

theorem addPair_tidy (ht : t.Tidy) (hi : i.Tidy)
    (h : t.addPair key i path = some inner) : inner.Tidy := by
  induction path generalizing t inner with
  | nil =>
    rw [Table.addPair] at h
    split at h
    · cases h
    next hfind =>
      cases h
      exact ht.append (Option.not_isSome_iff_eq_none.mp hfind) hi
  | cons name path ih =>
    rw [Table.addPair] at h
    split at h
    next hfind =>
      obtain ⟨added, hadded, h⟩ := Option.bind_eq_some_iff.mp h
      cases h
      exact ht.append hfind (tidy_table.mpr (ih tidy_nil hadded))
    next hfind =>
      obtain ⟨added, hadded, h⟩ := Option.bind_eq_some_iff.mp h
      cases h
      exact ht.set (tidy_table.mpr (ih (tidy_table.mp (ht.find hfind)) hadded))
    next hfind =>
      split at h
      · cases h
      · obtain ⟨added, hadded, h⟩ := Option.bind_eq_some_iff.mp h
        cases h
        exact ht.set (tidy_table.mpr (ih (tidy_table.mp (ht.find hfind)) hadded))
    next hfind =>
      split at h
      · cases h
      · obtain ⟨added, hadded, h⟩ := Option.bind_eq_some_iff.mp h
        cases h
        have hall := List.forall_mem_cons.mp (tidy_elements.mp (ht.find hfind))
        exact ht.set (tidy_elements.mpr (List.forall_mem_cons.mpr ⟨ih hall.1 hadded, hall.2⟩))
    · cases h

theorem addPairs_tidy (ht : t.Tidy) (hpairs : ∀ p ∈ pairs, p.value.Tidy)
    (h : t.addPairs pairs = some inner) : inner.Tidy := by
  induction pairs generalizing t with
  | nil =>
    cases h
    exact ht
  | cons p pairs ih =>
    obtain ⟨hp, hmore⟩ := List.forall_mem_cons.mp hpairs
    rw [Table.addPairs, List.foldlM_cons] at h
    obtain ⟨added, hadded, h⟩ := Option.bind_eq_some_iff.mp h
    exact ih (addPair_tidy ht hp hadded) hmore h

theorem addHeaded_tidy (ht : t.Tidy) (hpart : ∀ p ∈ part.pairs, p.value.Tidy)
    (h : t.addHeaded part path = some inner) : inner.Tidy := by
  induction path generalizing t inner with
  | nil =>
    rw [Table.addHeaded] at h
    split at h
    next hfind _ =>
      obtain ⟨added, hadded, h⟩ := Option.bind_eq_some_iff.mp h
      cases h
      exact ht.append hfind (tidy_table.mpr (addPairs_tidy tidy_nil hpart hadded))
    next hfind _ =>
      obtain ⟨added, hadded, h⟩ := Option.bind_eq_some_iff.mp h
      cases h
      have hinner := tidy_table.mp (ht.find hfind)
      have hadded := addPairs_tidy hinner hpart hadded
      exact ht.erase.append (find_erase t part.key) (tidy_table.mpr hadded)
    next hfind _ =>
      obtain ⟨added, hadded, h⟩ := Option.bind_eq_some_iff.mp h
      cases h
      have hadded := addPairs_tidy tidy_nil hpart hadded
      exact ht.append hfind (tidy_elements.mpr (List.forall_mem_singleton.mpr hadded))
    next hfind _ =>
      obtain ⟨added, hadded, h⟩ := Option.bind_eq_some_iff.mp h
      cases h
      have hadded := addPairs_tidy tidy_nil hpart hadded
      have hbefore := tidy_elements.mp (ht.find hfind)
      exact ht.set (tidy_elements.mpr (List.forall_mem_cons.mpr ⟨hadded, hbefore⟩))
    · cases h
  | cons name path ih =>
    rw [Table.addHeaded] at h
    split at h
    next hfind =>
      obtain ⟨added, hadded, h⟩ := Option.bind_eq_some_iff.mp h
      cases h
      exact ht.append hfind (tidy_table.mpr (ih tidy_nil hadded))
    · cases h
    next hfind =>
      obtain ⟨added, hadded, h⟩ := Option.bind_eq_some_iff.mp h
      cases h
      exact ht.set (tidy_table.mpr (ih (tidy_table.mp (ht.find hfind)) hadded))
    next hfind =>
      obtain ⟨added, hadded, h⟩ := Option.bind_eq_some_iff.mp h
      cases h
      have hall := List.forall_mem_cons.mp (tidy_elements.mp (ht.find hfind))
      exact ht.set (tidy_elements.mpr (List.forall_mem_cons.mpr ⟨ih hall.1 hadded, hall.2⟩))
    · cases h

def Yields (P : α → Prop) (read : Reader α) : Prop :=
  ∀ cs a rest, read cs = some (a, rest) → P a

theorem Yields.orElse {P : α → Prop} {first second : Reader α} (h : Yields P first)
    (h' : Yields P second) : Yields P fun cs => first cs <|> second cs := by
  intro cs a rest hread
  cases hfirst : first cs with
  | some p =>
    dsimp only at hread
    rw [hfirst] at hread
    cases hread
    exact h _ _ _ hfirst
  | none =>
    dsimp only at hread
    rw [hfirst] at hread
    exact h' _ _ _ hread

theorem integerItem_tidy (h : integerItem n = some i) : i.Tidy := by
  rw [integerItem] at h
  split at h
  next hfits =>
    cases h
    exact .integer hfits.2
  · cases h

theorem based_tidy (isDigit : Char → Bool) (base : Nat) :
    Yields Item.Tidy (based isDigit base) := by
  intro cs i rest h
  obtain ⟨_, _, h⟩ := Option.bind_eq_some_iff.mp h
  obtain ⟨_, hitem, h⟩ := Option.bind_eq_some_iff.mp h
  cases h
  exact integerItem_tidy hitem

theorem integer_tidy : Yields Item.Tidy integer := by
  intro cs i rest h
  rw [integer.eq_def] at h
  split at h
  · exact based_tidy _ _ _ _ _ h
  · exact based_tidy _ _ _ _ _ h
  · exact based_tidy _ _ _ _ _ h
  · obtain ⟨_, _, h⟩ := Option.bind_eq_some_iff.mp h
    obtain ⟨_, hitem, h⟩ := Option.bind_eq_some_iff.mp h
    cases h
    exact integerItem_tidy hitem

theorem special_tidy : Yields Item.Tidy special := by
  intro cs i rest h
  rw [special] at h
  dsimp only at h
  split at h
  · cases h
    exact .real _
  · obtain ⟨_, _, h⟩ := Option.map_eq_some_iff.mp h
    cases h
    exact .real _

theorem floatItem_tidy {negative : Bool} {ds : List Char} {e : Int}
    (h : floatItem negative ds e = some i) : i.Tidy := by
  rw [floatItem] at h
  split at h
  · cases h
    exact .real _
  · split at h
    · cases h
      exact .real _
    · cases h

theorem float_tidy : Yields Item.Tidy float := by
  intro cs i rest h
  obtain ⟨⟨whole, more⟩, _, h⟩ := Option.bind_eq_some_iff.mp h
  dsimp only at h
  split at h
  · obtain ⟨_, hitem, h⟩ := Option.bind_eq_some_iff.mp h
    cases h
    exact floatItem_tidy hitem
  · obtain ⟨_, _, h⟩ := Option.bind_eq_some_iff.mp h
    obtain ⟨_, hitem, h⟩ := Option.bind_eq_some_iff.mp h
    cases h
    exact floatItem_tidy hitem

theorem dateTime_tidy : Yields Item.Tidy dateTime := by
  have hdate : Item.Tidy .dateTime := by
    refine .object (List.forall_mem_singleton.mpr ⟨_, rfl⟩) (List.nodup_singleton _) fun m hm => ?_
    rw [List.mem_singleton.mp hm]
    exact .null
  intro cs i rest h
  have heq : i = .dateTime := by
    rw [dateTime] at h
    split at h
    · obtain ⟨_, _, h⟩ := Option.map_eq_some_iff.mp h
      exact (congrArg Prod.fst h).symm
    · split at h
      · split at h
        · split at h
          · exact (congrArg Prod.fst (Option.some.inj h)).symm
          · exact (congrArg Prod.fst (Option.some.inj h)).symm
        · exact (congrArg Prod.fst (Option.some.inj h)).symm
      · exact (congrArg Prod.fst (Option.some.inj h)).symm
  exact heq ▸ hdate

theorem number_tidy : Yields Item.Tidy number :=
  dateTime_tidy.orElse (float_tidy.orElse (special_tidy.orElse integer_tidy))

theorem pair_tidy (hvalue : Yields Item.Tidy value) :
    Yields (fun p => p.value.Tidy) (pair value) := by
  intro cs p rest h
  obtain ⟨_, _, h⟩ := Option.bind_eq_some_iff.mp h
  obtain ⟨_, _, h⟩ := Option.bind_eq_some_iff.mp h
  obtain ⟨⟨item, more⟩, hitem, h⟩ := Option.bind_eq_some_iff.mp h
  cases h
  exact hvalue _ _ _ hitem

theorem arrayItems_tidy (hvalue : Yields Item.Tidy value) (bound : Nat) :
    Yields (fun items => ∀ i ∈ items, i.Tidy) (arrayItems value bound) := by
  induction bound with
  | zero =>
    intro cs items rest h
    cases h
  | succ bound ih =>
    intro cs items rest h
    rw [arrayItems] at h
    split at h
    · cases h
      exact List.forall_mem_nil _
    · obtain ⟨⟨item, more⟩, hitem, h⟩ := Option.bind_eq_some_iff.mp h
      have hfirst := hvalue _ _ _ hitem
      dsimp only at h
      split at h
      · obtain ⟨⟨later, behind⟩, hlater, h⟩ := Option.bind_eq_some_iff.mp h
        cases h
        exact List.forall_mem_cons.mpr ⟨hfirst, ih _ _ _ hlater⟩
      · cases h
        exact List.forall_mem_singleton.mpr hfirst
      · cases h

theorem literalPairs_tidy (hvalue : Yields Item.Tidy value) (bound : Nat) :
    Yields (fun pairs => ∀ p ∈ pairs, p.value.Tidy) (literalPairs value bound) := by
  induction bound with
  | zero =>
    intro cs pairs rest h
    cases h
  | succ bound ih =>
    intro cs pairs rest h
    rw [literalPairs] at h
    obtain ⟨⟨p, more⟩, hp, h⟩ := Option.bind_eq_some_iff.mp h
    have hfirst := pair_tidy hvalue _ _ _ hp
    dsimp only at h
    split at h
    · obtain ⟨⟨later, behind⟩, hlater, h⟩ := Option.bind_eq_some_iff.mp h
      cases h
      exact List.forall_mem_cons.mpr ⟨hfirst, ih _ _ _ hlater⟩
    · cases h
      exact List.forall_mem_singleton.mpr hfirst
    · cases h

theorem literalTable_tidy (hvalue : Yields Item.Tidy value) :
    Yields Item.Tidy (literalTable value) := by
  intro cs i rest h
  rw [literalTable] at h
  split at h
  · cases h
    exact tidy_table.mpr tidy_nil
  · obtain ⟨⟨pairs, behind⟩, hpairs, h⟩ := Option.bind_eq_some_iff.mp h
    obtain ⟨table, htable, h⟩ := Option.bind_eq_some_iff.mp h
    cases h
    have htidy := literalPairs_tidy hvalue _ _ _ _ hpairs
    exact tidy_table.mpr (addPairs_tidy tidy_nil htidy htable)

theorem valueAround_tidy {nested : Option (Reader Item)}
    (hnested : ∀ value ∈ nested, Yields Item.Tidy value) :
    Yields Item.Tidy (valueAround nested) := by
  intro cs i rest h
  rw [valueAround.eq_def] at h
  split at h
  · cases h
  split at h
  · obtain ⟨_, _, h⟩ := Option.map_eq_some_iff.mp h
    cases h
    exact .string _
  split at h
  · obtain ⟨value, hvalue, h⟩ := Option.bind_eq_some_iff.mp h
    obtain ⟨⟨items, behind⟩, hitems, h⟩ := Option.bind_eq_some_iff.mp h
    cases h
    exact tidy_array.mpr (arrayItems_tidy (hnested value hvalue) _ _ _ _ hitems)
  split at h
  · obtain ⟨value, hvalue, h⟩ := Option.bind_eq_some_iff.mp h
    exact literalTable_tidy (hnested value hvalue) _ _ _ h
  split at h
  · obtain ⟨_, _, h⟩ := Option.map_eq_some_iff.mp h
    cases h
    exact .bool _
  split at h
  · obtain ⟨_, _, h⟩ := Option.map_eq_some_iff.mp h
    cases h
    exact .bool _
  · exact number_tidy _ _ _ h

theorem value_tidy (room : Nat) : Yields Item.Tidy (Toml.value room) := by
  induction room with
  | zero => exact valueAround_tidy nofun
  | succ room ih =>
    refine valueAround_tidy fun value hvalue => ?_
    cases hvalue
    exact ih

def Line.Tidy : Line → Prop
  | .pair p => p.value.Tidy
  | _ => True

theorem headerLine_tidy : Yields Line.Tidy headerLine := by
  intro cs l rest h
  rw [headerLine] at h
  split at h
  · obtain ⟨_, _, h⟩ := Option.bind_eq_some_iff.mp h
    obtain ⟨_, _, h⟩ := Option.bind_eq_some_iff.mp h
    obtain ⟨_, _, h⟩ := Option.bind_eq_some_iff.mp h
    cases h
    trivial
  · obtain ⟨_, _, h⟩ := Option.bind_eq_some_iff.mp h
    obtain ⟨_, _, h⟩ := Option.bind_eq_some_iff.mp h
    obtain ⟨_, _, h⟩ := Option.bind_eq_some_iff.mp h
    obtain ⟨_, _, h⟩ := Option.bind_eq_some_iff.mp h
    cases h
    trivial

theorem line_tidy : Yields Line.Tidy line := by
  intro cs l rest h
  rw [line] at h
  split at h
  · cases h
    trivial
  · exact headerLine_tidy _ _ _ h
  · split at h
    · obtain ⟨_, _, h⟩ := Option.map_eq_some_iff.mp h
      cases h
      trivial
    · obtain ⟨⟨p, more⟩, hp, h⟩ := Option.bind_eq_some_iff.mp h
      obtain ⟨_, _, h⟩ := Option.bind_eq_some_iff.mp h
      cases h
      exact pair_tidy (value_tidy _) _ _ _ hp

theorem lines_tidy {bound : Nat} {ls : List Line} (h : lines bound cs = some ls) :
    ∀ l ∈ ls, l.Tidy := by
  induction bound generalizing cs ls with
  | zero =>
    cases cs with
    | nil =>
      cases h
      exact List.forall_mem_nil _
    | cons c cs => cases h
  | succ bound ih =>
    cases cs with
    | nil =>
      cases h
      exact List.forall_mem_nil _
    | cons c cs =>
      obtain ⟨⟨l, rest⟩, hl, h⟩ := Option.bind_eq_some_iff.mp h
      obtain ⟨more, hmore, h⟩ := Option.bind_eq_some_iff.mp h
      cases h
      exact List.forall_mem_cons.mpr ⟨line_tidy _ _ _ hl, ih hmore⟩

structure Document.Tidy (d : Document) : Prop where
  pairs : ∀ p ∈ d.pairs, p.value.Tidy
  parts : ∀ part ∈ d.parts, ∀ p ∈ part.pairs, p.value.Tidy

theorem ofLines_tidy {ls : List Line} (h : ∀ l ∈ ls, l.Tidy) :
    (Document.ofLines ls).Tidy := by
  induction ls with
  | nil => exact ⟨List.forall_mem_nil _, List.forall_mem_nil _⟩
  | cons l ls ih =>
    obtain ⟨hl, hmore⟩ := List.forall_mem_cons.mp h
    have hd := ih hmore
    cases l with
    | blank => exact hd
    | pair p => exact ⟨List.forall_mem_cons.mpr ⟨hl, hd.pairs⟩, hd.parts⟩
    | header path key isElement =>
      exact ⟨List.forall_mem_nil _, List.forall_mem_cons.mpr ⟨hd.pairs, hd.parts⟩⟩

theorem addParts_tidy {parts : List Part} (ht : t.Tidy)
    (hparts : ∀ part ∈ parts, ∀ p ∈ part.pairs, p.value.Tidy)
    (h : parts.foldlM (fun t part => t.addHeaded part part.path) t = some inner) :
    inner.Tidy := by
  induction parts generalizing t with
  | nil =>
    cases h
    exact ht
  | cons part parts ih =>
    obtain ⟨hpart, hmore⟩ := List.forall_mem_cons.mp hparts
    rw [List.foldlM_cons] at h
    obtain ⟨next, hnext, h⟩ := Option.bind_eq_some_iff.mp h
    exact ih (addHeaded_tidy ht hpart hnext) hmore h

theorem Document.Tidy.table {d : Document} (hd : d.Tidy) (h : d.table? = some t) :
    t.Tidy := by
  obtain ⟨root, hroot, h⟩ := Option.bind_eq_some_iff.mp h
  exact addParts_tidy (addPairs_tidy tidy_nil hd.pairs hroot) hd.parts h

/-- Whatever a document says, the table that it is read as is tidy. -/
theorem read_tidy (h : read? cs = some t) : t.Tidy := by
  obtain ⟨ls, hls, h⟩ := Option.bind_eq_some_iff.mp h
  exact (ofLines_tidy (lines_tidy hls)).table h

end Toml
end BrowserActions
