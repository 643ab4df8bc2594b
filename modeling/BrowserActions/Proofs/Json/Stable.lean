import Mathlib
import BrowserActions.Proofs.Json.Members
import BrowserActions.Proofs.Json.Steps

/-!
# Values that were read

What reading gives has integers that fit 64 bits, members in order of their names and a bounded
depth. Such a value, if it has no doubles, is what its own text is read as.
-/
namespace BrowserActions.Json

open Number

theorem gatherWhole_lt {g : Nat} (h : g < UInt64.size) (ds : List Char) :
    (Numeral.gatherWhole g ds).1 < UInt64.size := by
  induction ds generalizing g with
  | nil => exact h
  | cons d ds ih =>
    rw [Numeral.gatherWhole]
    split
    next hfit => exact ih hfit
    next => exact h

theorem isWord_of_value {x : Numeral} {n : Int} (h : x.value? = some (.integer n)) : IsWord n := by
  have hlt := gatherWhole_lt (show 0 < UInt64.size by decide) x.whole
  rw [Numeral.value?] at h
  generalize Numeral.gatherWhole 0 x.whole = gathered at h hlt
  obtain ⟨g, dropped⟩ := gathered
  dsimp only at h hlt
  split at h
  · split at h
    · simp at h
    · split at h
      · split at h
        · simp at h
        next hnot =>
          have hle : g ≤ twoTo 63 := by
            by_contra hgt
            exact hnot (.inr (not_le.mp hgt))
          cases h
          constructor <;> omega
      · cases h
        constructor
        · simp only [twoTo]
          omega
        · exact_mod_cast hlt
  · simp at h

def Token.Fits : Token → Prop
  | .number (.integer n) => IsWord n
  | _ => True

theorem fits_ofNumeral (x : Numeral) : (Token.ofNumeral x).Fits := by
  rw [Token.ofNumeral]
  split
  next n hn =>
    cases n with
    | integer n => exact isWord_of_value hn
    | double y => trivial
  next => trivial

theorem fits_ofPieces (pieces : List Piece) : (Token.ofPieces pieces).Fits := by
  rw [Token.ofPieces]
  split <;> trivial

def Mode.Fits : Mode → Prop
  | .word _ token => token.Fits
  | _ => True

theorem fits_start (c : Char) : (∀ t ∈ (Mode.start c).1, t.Fits) ∧ (Mode.start c).2.Fits := by
  unfold Mode.start
  grind [Token.Fits, Mode.Fits]

theorem Mode.Fits.step {mode : Mode} (h : mode.Fits) (c : Char) :
    (∀ t ∈ (mode.step c).1, t.Fits) ∧ (mode.step c).2.Fits := by
  cases mode with
  | between => exact fits_start c
  | word rest token =>
    cases rest <;> simp only [Mode.step] <;> grind [Token.Fits, Mode.Fits]
  | numeral part x =>
    simp only [Mode.step]
    grind [Token.Fits, Mode.Fits, fits_start, fits_ofNumeral]
  | string pieces =>
    simp only [Mode.step]
    grind [Token.Fits, Mode.Fits, fits_ofPieces]
  | escape pieces =>
    simp only [Mode.step]
    grind [Token.Fits, Mode.Fits]
  | unit pieces missing value =>
    simp only [Mode.step]
    grind [Token.Fits, Mode.Fits]
  | stopped => exact ⟨List.forall_mem_nil _, trivial⟩

theorem fits_finish (mode : Mode) : ∀ t ∈ mode.finish, t.Fits := by
  cases mode <;> simp only [Mode.finish] <;> grind [Token.Fits, fits_ofNumeral]

theorem Mode.Fits.scan {mode : Mode} (h : mode.Fits) (cs : List Char) :
    ∀ t ∈ mode.scan cs, t.Fits := by
  induction cs generalizing mode with
  | nil => exact fits_finish mode
  | cons c cs ih =>
    obtain ⟨htokens, hmode⟩ := h.step c
    rw [scan_cons]
    exact List.forall_mem_append.mpr ⟨htokens, ih hmode⟩

theorem fits_tokens (cs : List Char) : ∀ t ∈ tokens cs, t.Fits := by
  have hbetween : Mode.between.Fits := trivial
  exact hbetween.scan cs

end BrowserActions.Json

namespace BrowserActions.Draft

/-- All integers in the draft fit 64 bits, and nothing is broken off. -/
inductive Fits : Draft → Prop
  | null : Fits .null
  | bool (b : Bool) : Fits (.bool b)
  | integer {n : Int} (h : Json.IsWord n) : Fits (.integer n)
  | real (x : Number.Extended) : Fits (.real x)
  | string (s : String) : Fits (.string s)
  | array {items : List Draft} (h : ∀ d ∈ items, Fits d) : Fits (.array items true)
  | object {members : List Json.Entry} (h : ∀ m ∈ members, Fits m.2) : Fits (.object members true)
  | unusable : Fits .unusable

theorem Fits.isWhole {d : Draft} (h : d.Fits) : d.isWhole = true := by
  induction h with
  | array _ ih => exact areWhole_iff.mpr ih
  | object _ ih => exact membersWhole_iff.mpr ih
  | _ => rfl

end BrowserActions.Draft

namespace BrowserActions.Json

def Frame.Fits : Frame → Prop
  | .array before => ∀ d ∈ before, d.Fits
  | .object before _ => ∀ m ∈ before, m.2.Fits

def Place.Fits : Place → Prop
  | .value | .item => True
  | .key _ before | .colon before _ => ∀ m ∈ before, m.2.Fits
  | .behind v => v.Fits

structure Building.Fits (b : Building) : Prop where
  frames : ∀ f ∈ b.frames, f.Fits
  place : b.place.Fits

variable {b next : Building} {frames : List Frame} {t : Token} {ts : List Token}

theorem fits_put (hf : ∀ f ∈ frames, f.Fits) (ht : t.Fits)
    (h : Building.put frames t = some next) : next.Fits := by
  cases t with
  | openArray =>
    cases h
    exact ⟨hf, trivial⟩
  | openObject =>
    cases h
    exact ⟨hf, List.forall_mem_nil _⟩
  | null | bool | string =>
    cases h
    exact ⟨hf, by constructor⟩
  | oversized | unpaired =>
    cases h
    exact ⟨hf, .unusable⟩
  | number n =>
    cases n with
    | integer n =>
      cases h
      exact ⟨hf, .integer ht⟩
    | double x =>
      cases h
      exact ⟨hf, .real _⟩
  | closeArray | closeObject | comma | colon | broken => cases h

theorem Building.Fits.step (hb : b.Fits) (ht : t.Fits) (h : Building.Step b t next) :
    next.Fits := by
  obtain ⟨hframes, hplace⟩ := hb
  cases h with
  | value h => exact fits_put hframes ht h
  | emptyArray => exact ⟨hframes, .array (List.forall_mem_nil _)⟩
  | item h =>
    have hempty : Frame.Fits (.array []) := List.forall_mem_nil _
    exact fits_put (List.forall_mem_cons.mpr ⟨hempty, hframes⟩) ht h
  | name | unusableName => exact ⟨hframes, hplace⟩
  | emptyObject => exact ⟨hframes, .object fun m hm => hplace m (List.mem_reverse.mp hm)⟩
  | colon => exact ⟨List.forall_mem_cons.mpr ⟨hplace, hframes⟩, trivial⟩
  | @nextItem frames items v =>
    obtain ⟨hframe, hrest⟩ := List.forall_mem_cons.mp hframes
    have hall : Frame.Fits (.array (v :: items)) := List.forall_mem_cons.mpr ⟨hplace, hframe⟩
    exact ⟨List.forall_mem_cons.mpr ⟨hall, hrest⟩, trivial⟩
  | @closeArray frames items v =>
    obtain ⟨hframe, hrest⟩ := List.forall_mem_cons.mp hframes
    have hall : Frame.Fits (.array (v :: items)) := List.forall_mem_cons.mpr ⟨hplace, hframe⟩
    exact ⟨hrest, .array fun d hd => hall d (List.mem_reverse.mp hd)⟩
  | nextMember =>
    obtain ⟨hframe, hrest⟩ := List.forall_mem_cons.mp hframes
    exact ⟨hrest, List.forall_mem_cons.mpr ⟨hplace, hframe⟩⟩
  | @closeObject frames before name v =>
    obtain ⟨hframe, hrest⟩ := List.forall_mem_cons.mp hframes
    have hall : ∀ m ∈ (name, v) :: before, m.2.Fits := List.forall_mem_cons.mpr ⟨hplace, hframe⟩
    exact ⟨hrest, .object fun m hm => hall m (List.mem_reverse.mp hm)⟩

theorem fits_reading {cs : List Char} (h : (reading cs).whole = true) :
    (reading cs).draft.Fits := by
  have hb : Building.Fits ⟨[], .value⟩ := ⟨List.forall_mem_nil _, trivial⟩
  exact (Building.run_keeps (fun _ _ _ => Building.Fits.step) hb (fits_tokens cs) h).place

/-- What a value is that was read with this much room for nesting. -/
inductive Kept : Nat → Json → Prop
  | null (room : Nat) : Kept room .null
  | bool (room : Nat) (b : Bool) : Kept room (.bool b)
  | integer (room : Nat) {n : Int} (h : IsWord n) : Kept room (.integer n)
  | double (room : Nat) (x : Number.Binary64) : Kept room (.double x)
  | string (room : Nat) (s : String) : Kept room (.string s)
  | array {room : Nat} {items : List Json} (h : ∀ v ∈ items, Kept room v) :
    Kept (room + 1) (.array items)
  | object {room : Nat} {members : List (String × Json)} (ha : Keyed.Ascending members)
    (h : ∀ m ∈ members, Kept room m.2) : Kept (room + 1) (.object members)

variable {room : Nat} {v w : Json} {d : Draft}

theorem mem_values {ds : List Draft} {vs : List Json} (h : Draft.values? room ds = some vs)
    (hv : v ∈ vs) : ∃ d ∈ ds, d.value? room = some v := by
  induction ds generalizing vs with
  | nil =>
    cases h
    cases hv
  | cons d ds ih =>
    obtain ⟨first, rest, hfirst, hrest, rfl⟩ := Draft.values_cons h
    rcases List.mem_cons.mp hv with rfl | hv
    · exact ⟨d, List.mem_cons_self, hfirst⟩
    · obtain ⟨e, he, hvalue⟩ := ih hrest hv
      exact ⟨e, List.mem_cons_of_mem _ he, hvalue⟩

theorem mem_memberValues {ms : List Entry} {vs : List (String × Json)} {m : String × Json}
    (h : Draft.memberValues? room ms = some vs) (hm : m ∈ vs) :
    ∃ e ∈ ms, e.2.value? room = some m.2 := by
  induction ms generalizing vs with
  | nil =>
    cases h
    cases hm
  | cons e ms ih =>
    obtain ⟨name, first, rest, -, hfirst, hrest, rfl⟩ := Draft.memberValues_cons h
    rcases List.mem_cons.mp hm with rfl | hm
    · exact ⟨e, List.mem_cons_self, hfirst⟩
    · obtain ⟨f, hf, hvalue⟩ := ih hrest hm
      exact ⟨f, List.mem_cons_of_mem _ hf, hvalue⟩

theorem kept_of_value (hd : d.Fits) (h : d.value? room = some v) : v.Kept room := by
  induction hd generalizing room v with
  | null =>
    cases h
    exact .null room
  | bool b =>
    cases h
    exact .bool room b
  | integer hn =>
    cases h
    exact .integer room hn
  | real x =>
    obtain ⟨y, rfl, rfl⟩ := Draft.shows_of_value h
    exact .double room y
  | string s =>
    cases h
    exact .string room s
  | array _ ih =>
    obtain ⟨-, vs, hvs, rfl⟩ := Draft.shows_of_value h
    cases room with
    | zero => simp [Draft.value?] at h
    | succ room =>
      refine .array fun v hv => ?_
      obtain ⟨e, he, hvalue⟩ := mem_values hvs hv
      exact ih e he hvalue
  | object _ ih =>
    obtain ⟨-, vs, hvs, rfl⟩ := Draft.shows_of_value h
    cases room with
    | zero => simp [Draft.value?] at h
    | succ room =>
      refine .object (Keyed.ascending_ofList vs) fun m hm => ?_
      obtain ⟨e, he, hvalue⟩ := mem_memberValues hvs (Keyed.mem_ofList hm)
      exact ih e he hvalue
  | unusable => cases h

theorem kept_of_read {cs : List Char} (h : read? cs = some v) : v.Kept deepest := by
  rw [read?] at h
  split at h
  next hw => exact kept_of_value (fits_reading hw) h
  next => cases h

mutual

def hasDouble : Json → Bool
  | .double _ => true
  | .array items => itemsHaveDouble items
  | .object members => membersHaveDouble members
  | .null | .bool _ | .integer _ | .string _ => false

def itemsHaveDouble : List Json → Bool
  | [] => false
  | v :: vs => hasDouble v || itemsHaveDouble vs

def membersHaveDouble : List (String × Json) → Bool
  | [] => false
  | m :: ms => hasDouble m.2 || membersHaveDouble ms

end

theorem itemsHaveDouble_eq_false {vs : List Json} (h : itemsHaveDouble vs = false) :
    ∀ v ∈ vs, v.hasDouble = false := by
  induction vs with
  | nil => exact List.forall_mem_nil _
  | cons v vs ih =>
    obtain ⟨hfirst, hrest⟩ := Bool.or_eq_false_iff.mp h
    exact List.forall_mem_cons.mpr ⟨hfirst, ih hrest⟩

theorem membersHaveDouble_eq_false {ms : List (String × Json)} (h : membersHaveDouble ms = false) :
    ∀ m ∈ ms, m.2.hasDouble = false := by
  induction ms with
  | nil => exact List.forall_mem_nil _
  | cons m ms ih =>
    obtain ⟨hfirst, hrest⟩ := Bool.or_eq_false_iff.mp h
    exact List.forall_mem_cons.mpr ⟨hfirst, ih hrest⟩

theorem Kept.exact (h : Kept room v) (hd : v.hasDouble = false) : v.Exact := by
  induction h with
  | null | bool | string => trivial
  | integer room hn => exact hn
  | double room x => cases hd
  | array _ ih =>
    have hitems := itemsHaveDouble_eq_false hd
    exact itemsExact_of_forall fun v hv => ih v hv (hitems v hv)
  | object _ _ ih =>
    have hmembers := membersHaveDouble_eq_false hd
    exact membersExact_of_forall fun m hm => ih m hm (hmembers m hm)

theorem Kept.depth_le (h : Kept room v) : v.depth ≤ room := by
  induction h with
  | null | bool | integer | double | string => exact Nat.zero_le _
  | array _ ih => exact Nat.succ_le_succ (itemsDepth_le ih)
  | object _ _ ih => exact Nat.succ_le_succ (membersDepth_le ih)

theorem Kept.ordered_eq (h : Kept room v) : v.ordered = v := by
  induction h with
  | null | bool | integer | double | string => rfl
  | array _ ih =>
    rw [ordered, orderedItems_eq_map, List.map_congr_left ih, List.map_id']
  | @object room members ha _ ih =>
    have hmap : members.map (fun m => (m.1, m.2.ordered)) = members.map id :=
      List.map_congr_left fun m hm => Prod.ext rfl (ih m hm)
    rw [ordered, orderedMembers_eq_map, hmap, List.map_id, Keyed.ofList_of_ascending ha]

/-- A value without doubles is what its text says, unless it nests too deep. -/
theorem Kept.read_compact_iff (h : Kept room v) (hd : v.hasDouble = false) :
    read? v.compact = some v ↔ v.depth ≤ deepest := by
  refine ⟨fun hread => (kept_of_read hread).depth_le, fun hdepth => ?_⟩
  rw [Json.read_compact (h.exact hd) hdepth, h.ordered_eq]

theorem Kept.read_compact (h : Kept room v) (hroom : room ≤ deepest) (hd : v.hasDouble = false) :
    read? v.compact = some v :=
  (h.read_compact_iff hd).mpr (h.depth_le.trans hroom)

/-- Integers fit 64 bits and members are in order, however deep the value nests. -/
def Regular (v : Json) : Prop := ∃ room, Kept room v

end BrowserActions.Json
