import Mathlib
import BrowserActions.Proofs.Decode

/-!
# How a record is laid out

A record is written as an object, which gives members by name and may say more, or as an array,
which gives the first members in their order. What is told of a member is the same in both.
-/
namespace BrowserActions

open Draft (found? names Single)
open Json (Entry)

/-- The names of a record's members, in the order in which an array gives them. -/
structure Listing (ι : Type) where
  order : List ι
  name : ι → String

namespace Listing

variable {ι : Type} (l : Listing ι) {d : Draft} {i : ι} {items : List Draft} {members : List Entry}
  {good : ι → Draft → Prop}

def entries (items : List Draft) : List Entry := (l.order.map fun i => some (l.name i)).zip items

def told? (i : ι) : Draft → Option Draft
  | .array items _ => found? (l.name i) (l.entries items)
  | .object members _ => found? (l.name i) members
  | _ => none

/-- An array with no more items than there are members, or an object. -/
def Shaped : Draft → Prop
  | .array items closed => items.length ≤ l.order.length ∧ closed = true
  | .object _ closed => closed = true
  | _ => False

/-- A record in which all that stands for members is good. -/
structure Gives (good : ι → Draft → Prop) (d : Draft) : Prop where
  shaped : l.Shaped d
  good : ∀ i e, l.told? i d = some e → good i e

/-- In an object all names can be read, and those of members do not come twice. -/
def Named : Draft → Prop
  | .object members _ => (∀ m ∈ members, ∃ name, m.1 = some name) ∧ ∀ i, Single (l.name i) members
  | _ => True

/-- One step from a way to write a record to another: what is `idle` for a member is added, what
stands for a member is written in another way, or an array becomes an object. -/
inductive Restated (idle : ι → Draft → Prop) (inner : ι → Draft → Draft → Prop) :
    Draft → Draft → Prop
  | added {i : ι} {e : Draft} {before after : List Entry} (hbefore : some (l.name i) ∉ names before)
    (hafter : some (l.name i) ∉ names after) (h : idle i e) :
    Restated idle inner (.object (before ++ after) true)
      (.object (before ++ (some (l.name i), e) :: after) true)
  | inside {i : ι} {e e' : Draft} {before after : List Entry} (h : inner i e e') :
    Restated idle inner (.object (before ++ (some (l.name i), e) :: after) true)
      (.object (before ++ (some (l.name i), e') :: after) true)
  | named {items : List Draft} (h : items.length ≤ l.order.length) :
    Restated idle inner (.array items true) (.object (l.entries items) true)

variable {l}

theorem mem_entries {m : Entry} (h : m ∈ l.entries items) :
    (∃ name, m.1 = some name) ∧ m.2 ∈ items := by
  obtain ⟨hname, hitem⟩ := List.of_mem_zip (a := m.1) (b := m.2) h
  obtain ⟨i, -, hi⟩ := List.mem_map.mp hname
  exact ⟨⟨l.name i, hi.symm⟩, hitem⟩

theorem names_zip (ns : List (Option String)) (items : List Draft) :
    names (ns.zip items) = ns.take items.length := by
  induction ns generalizing items with
  | nil => rw [List.zip_nil_left, List.take_nil, names, List.map_nil]
  | cons n ns ih =>
    cases items with
    | nil => rfl
    | cons d items => exact congrArg (n :: ·) (ih items)

theorem nodup_entries (hname : Function.Injective l.name) (horder : l.order.Nodup)
    (items : List Draft) : (names (l.entries items)).Nodup := by
  rw [entries, names_zip]
  exact (horder.map ((Option.some_injective _).comp hname)).sublist (List.take_sublist _ _)

theorem named_entries (hname : Function.Injective l.name) (horder : l.order.Nodup)
    (items : List Draft) : l.Named (.object (l.entries items) true) :=
  ⟨fun _ hm => (mem_entries hm).1,
    fun i => Draft.single_of_nodup (nodup_entries hname horder items) (l.name i)⟩

theorem told_of_hereditary {D : Draft → Prop} {e : Draft} (hD : Decode.Hereditary D) (hd : D d)
    (h : l.told? i d = some e) : D e := by
  cases d with
  | array items closed => exact hD.items hd e (mem_entries (Draft.mem_of_found h)).2
  | object members closed => exact hD.members hd _ (Draft.mem_of_found h)
  | _ => cases h

end Listing
end BrowserActions
