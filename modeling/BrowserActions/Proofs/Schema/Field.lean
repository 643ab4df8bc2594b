import Mathlib
import BrowserActions.Proofs.Schema.Written

/-!
# The fields of operations

A field has a key and a shape that says what may be stored under it. The reader of a field gives
what is stored there, or one issue with the path of the field.
-/
namespace BrowserActions

def Checked.issues {α : Type} : Checked α → List Issue
  | .ok _ => []
  | .error issues => issues

namespace BrowserOperations

/-- Nothing is stored there, or null. -/
def Omitted (stored : Option Json) : Prop := stored = none ∨ stored = some .null

inductive Shape where
  | text
  | direction
  | natural (default : Option UInt64)
  deriving DecidableEq

structure Field where
  key : String
  shape : Shape
  deriving DecidableEq

def fields : Operation.Kind → List Field
  | .click | .hover => [⟨"xpath", .text⟩]
  | .setValue | .setValueAndEnter => [⟨"xpath", .text⟩, ⟨"value", .text⟩]
  | .scroll => [⟨"direction", .direction⟩, ⟨"amount", .natural none⟩]
  | .navigate => [⟨"url", .text⟩]
  | .back | .forward => []
  | .wait => [⟨"duration_ms", .natural (some defaultWaitMs)⟩]

/-- What may be stored under a field. -/
def Shape.Accepts : Shape → Option Json → Prop
  | .text, stored => ∃ s, stored = some (.string s)
  | .direction, stored => ∃ d : Direction, stored = some (.string d.name)
  | .natural _, stored => Omitted stored ∨ ∃ n : UInt64, stored = some (.integer n.toNat)

def textFault? : Option Json → Option Issue.Kind
  | none | some .null => some .required
  | some (.string _) => none
  | some v => some (.invalidType "string" v.typeName)

def directionFault? : Option Json → Option Issue.Kind
  | some (.string s) =>
    if s ∈ Direction.names then none else some (.invalidEnum Direction.names s)
  | stored => textFault? stored

def naturalFault? : Option Json → Option Issue.Kind
  | none | some .null => none
  | some (.integer n) =>
    if 0 ≤ n ∧ n < UInt64.size then none else some (.invalidType "non-negative integer" "number")
  | some v => some (.invalidType "non-negative integer" v.typeName)

def Shape.fault? : Shape → Option Json → Option Issue.Kind
  | .text => textFault?
  | .direction => directionFault?
  | .natural _ => naturalFault?

namespace Field

def Accepts (f : Field) (args : Json) : Prop := f.shape.Accepts (args.member? f.key)

def issue? (args : Json) (f : Field) : Option Issue :=
  (f.shape.fault? (args.member? f.key)).map fun kind => ⟨fieldPath f.key, kind⟩

end Field

variable {α β γ : Type} {key : String} {args v : Json} {s : String} {d : Direction} {n : UInt64}
  {stored : Option Json}

theorem given_none : args.given? key = none ↔ Omitted (args.member? key) := by
  rw [Json.given?, Omitted]
  cases hm : args.member? key with
  | none => simp
  | some v => cases v <;> simp

theorem given_some : args.given? key = some v ↔ args.member? key = some v ∧ v ≠ .null := by
  rw [Json.given?]
  cases hm : args.member? key with
  | none => simp
  | some w =>
    cases w with
    | null =>
      constructor
      · intro h
        cases h
      · rintro ⟨h, hne⟩
        exact absurd (Option.some.inj h).symm hne
    | _ =>
      constructor
      · intro h
        exact ⟨h, by rintro rfl; cases h⟩
      · exact And.left

theorem given_string (h : args.member? key = some (.string s)) :
    args.given? key = some (.string s) := by
  rw [Json.given?, h]

theorem given_integer {i : Int} (h : args.member? key = some (.integer i)) :
    args.given? key = some (.integer i) := by
  rw [Json.given?, h]

theorem direction_ofName (s : String) (d : Direction) :
    Direction.ofName? s = some d ↔ s = d.name := by
  constructor
  · intro h
    have hname := List.find?_some h
    exact (of_decide_eq_true hname).symm
  · rintro rfl
    cases d <;> decide

theorem mem_names : s ∈ Direction.names ↔ ∃ d : Direction, s = d.name := by
  constructor
  · intro h
    obtain ⟨d, _, rfl⟩ := List.mem_map.mp h
    exact ⟨d, rfl⟩
  · rintro ⟨d, rfl⟩
    cases d <;> decide

theorem kind_ofName (s : String) (k : Operation.Kind) :
    Operation.Kind.ofName? s = some k ↔ s = k.name := by
  constructor
  · intro h
    have hname := List.find?_some h
    exact (of_decide_eq_true hname).symm
  · rintro rfl
    exact kind_ofName_name k

theorem natural_integer {i : Int} (h : 0 ≤ i ∧ i < UInt64.size) :
    natural? (.integer i) = some (UInt64.ofNat i.toNat) ∧
      ((UInt64.ofNat i.toNat).toNat : Int) = i := by
  have hlt : i.toNat < UInt64.size := by omega
  refine ⟨if_pos h, ?_⟩
  rw [UInt64.toNat_ofNat_of_lt' hlt, Int.toNat_of_nonneg h.1]

theorem natural_eq_some : natural? v = some n ↔ v = .integer n.toNat := by
  constructor
  · intro h
    cases v with
    | integer i =>
      by_cases hi : 0 ≤ i ∧ i < UInt64.size
      · obtain ⟨hread, hvalue⟩ := natural_integer hi
        rw [hread] at h
        rw [← Option.some.inj h, hvalue]
      · have hnone : natural? (.integer i) = none := if_neg hi
        rw [hnone] at h
        cases h
    | _ => cases h
  · rintro rfl
    exact natural_toNat n

theorem text_eq_ok : text key args = .ok s ↔ args.member? key = some (.string s) := by
  constructor
  · intro h
    rw [text] at h
    split at h
    next hg =>
      cases h
      exact (given_some.mp hg).1
    next => cases h
    next => cases h
  · intro h
    exact text_of_string (given_string h)

theorem direction_eq_ok :
    direction key args = .ok d ↔ args.member? key = some (.string d.name) := by
  constructor
  · intro h
    rw [direction] at h
    cases ht : text key args with
    | error issues =>
      rw [ht] at h
      cases h
    | ok s =>
      rw [ht] at h
      simp only [bind, Except.bind] at h
      split at h
      next hd =>
        cases h
        rw [← (direction_ofName s d).mp hd]
        exact text_eq_ok.mp ht
      next => cases h
  · intro h
    exact direction_of_name (given_string h)

theorem optionalNatural_eq_ok {m : Option UInt64} : optionalNatural key args = .ok m ↔
    (m = none ∧ Omitted (args.member? key)) ∨
      ∃ n, m = some n ∧ args.member? key = some (.integer n.toNat) := by
  constructor
  · intro h
    rw [optionalNatural] at h
    split at h
    next hg =>
      cases h
      exact .inl ⟨rfl, given_none.mp hg⟩
    next w hg =>
      split at h
      next n hn =>
        cases h
        obtain rfl := natural_eq_some.mp hn
        exact .inr ⟨n, rfl, (given_some.mp hg).1⟩
      next => cases h
  · rintro (⟨rfl, h⟩ | ⟨n, rfl, h⟩)
    · exact optionalNatural_of_none (given_none.mpr h)
    · exact optionalNatural_of_some (given_integer h) (natural_toNat n)

theorem issues_text (key : String) (args : Json) :
    (text key args).issues = ((⟨key, .text⟩ : Field).issue? args).toList := by
  simp only [text, Json.given?, Field.issue?]
  cases hm : args.member? key with
  | none => rfl
  | some v => cases v <;> rfl

theorem issues_direction (key : String) (args : Json) :
    (direction key args).issues = ((⟨key, .direction⟩ : Field).issue? args).toList := by
  simp only [direction, text, Json.given?, Field.issue?]
  cases hm : args.member? key with
  | none => rfl
  | some v =>
    cases v with
    | string s =>
      simp only [Shape.fault?, directionFault?, bind, Except.bind]
      cases hd : Direction.ofName? s with
      | some d =>
        rw [if_pos (mem_names.mpr ⟨d, (direction_ofName s d).mp hd⟩)]
        rfl
      | none =>
        have hnot : s ∉ Direction.names := by
          intro hs
          obtain ⟨d, rfl⟩ := mem_names.mp hs
          rw [(direction_ofName d.name d).mpr rfl] at hd
          cases hd
        rw [if_neg hnot]
        rfl
    | _ => rfl

theorem issues_optionalNatural (key : String) (default : Option UInt64) (args : Json) :
    (optionalNatural key args).issues = ((⟨key, .natural default⟩ : Field).issue? args).toList := by
  simp only [optionalNatural, Json.given?, Field.issue?]
  cases hm : args.member? key with
  | none => rfl
  | some v =>
    cases v with
    | integer i =>
      simp only [Shape.fault?, naturalFault?]
      by_cases hi : 0 ≤ i ∧ i < UInt64.size
      · rw [if_pos hi, (natural_integer hi).1]
        rfl
      · have hnone : natural? (.integer i) = none := if_neg hi
        rw [if_neg hi, hnone]
        rfl
    | _ => rfl

theorem text_fault_eq_none : textFault? stored = none ↔ Shape.text.Accepts stored := by
  cases stored with
  | none => exact ⟨nofun, nofun⟩
  | some v =>
    cases v with
    | string s => exact ⟨fun _ => ⟨s, rfl⟩, fun _ => rfl⟩
    | _ => exact ⟨nofun, nofun⟩

theorem direction_fault_eq_none :
    directionFault? stored = none ↔ Shape.direction.Accepts stored := by
  cases stored with
  | none => exact ⟨nofun, nofun⟩
  | some v =>
    cases v with
    | string s =>
      simp only [directionFault?, Shape.Accepts]
      constructor
      · intro h
        by_cases hs : s ∈ Direction.names
        · obtain ⟨d, rfl⟩ := mem_names.mp hs
          exact ⟨d, rfl⟩
        · rw [if_neg hs] at h
          cases h
      · rintro ⟨d, hd⟩
        cases hd
        exact if_pos (mem_names.mpr ⟨d, rfl⟩)
    | _ => exact ⟨nofun, nofun⟩

theorem integer_of_accepts {default : Option UInt64}
    (h : (Shape.natural default).Accepts (some v)) (hv : v ≠ .null) :
    ∃ n : UInt64, v = .integer n.toNat := by
  rcases h with (h | h) | ⟨n, h⟩
  · cases h
  · exact absurd (Option.some.inj h) hv
  · exact ⟨n, Option.some.inj h⟩

theorem natural_fault_eq_none {default : Option UInt64} :
    naturalFault? stored = none ↔ (Shape.natural default).Accepts stored := by
  cases stored with
  | none => exact ⟨fun _ => .inl (.inl rfl), fun _ => rfl⟩
  | some v =>
    cases v with
    | null => exact ⟨fun _ => .inl (.inr rfl), fun _ => rfl⟩
    | integer i =>
      rw [naturalFault?]
      constructor
      · intro h
        by_cases hi : 0 ≤ i ∧ i < UInt64.size
        · exact .inr ⟨_, by rw [(natural_integer hi).2]⟩
        · rw [if_neg hi] at h
          cases h
      · intro h
        obtain ⟨n, hn⟩ := integer_of_accepts h nofun
        cases hn
        exact if_pos ⟨Int.natCast_nonneg _, Int.ofNat_lt.mpr n.toNat_lt_size⟩
    | _ =>
      refine ⟨nofun, fun h => ?_⟩
      obtain ⟨n, hn⟩ := integer_of_accepts h nofun
      cases hn

theorem fault_eq_none (shape : Shape) (stored : Option Json) :
    shape.fault? stored = none ↔ shape.Accepts stored := by
  cases shape with
  | text => exact text_fault_eq_none
  | direction => exact direction_fault_eq_none
  | natural default => exact natural_fault_eq_none

instance (shape : Shape) (stored : Option Json) : Decidable (shape.Accepts stored) :=
  decidable_of_iff _ (fault_eq_none shape stored)

instance (f : Field) (args : Json) : Decidable (f.Accepts args) :=
  inferInstanceAs (Decidable (f.shape.Accepts _))

theorem issue_eq_none {f : Field} : f.issue? args = none ↔ f.Accepts args := by
  rw [Field.issue?, Option.map_eq_none_iff, fault_eq_none]
  rfl

/-- Every issue names the field that it is about. -/
theorem issue_path {f : Field} {i : Issue} (h : f.issue? args = some i) :
    i.path = fieldPath f.key := by
  obtain ⟨kind, _, rfl⟩ := Option.map_eq_some_iff.mp h
  rfl

theorem issues_map (g : α → β) (x : Checked α) : Checked.issues (x.map g) = x.issues := by
  cases x <;> rfl

theorem issues_both (g : α → β → γ) (x : Checked α) (y : Checked β) :
    (Checked.both g x y).issues = x.issues ++ y.issues := by
  cases x <;> cases y <;> simp [Checked.both, Checked.issues]

theorem issues_ofArguments (args : Json) (k : Operation.Kind) :
    (ofArguments args k).issues = (fields k).filterMap (Field.issue? args) := by
  have hone : ∀ f : Field, [f].filterMap (Field.issue? args) = (f.issue? args).toList := by
    intro f
    rw [List.filterMap_cons, List.filterMap_nil]
    cases f.issue? args <;> rfl
  have htwo : ∀ f g : Field, [f, g].filterMap (Field.issue? args) =
      (f.issue? args).toList ++ (g.issue? args).toList := by
    intro f g
    rw [← hone f, ← hone g, ← List.filterMap_append]
    rfl
  cases k with
  | click | hover | navigate =>
    rw [ofArguments, fields, issues_map, issues_text, hone]
  | setValue | setValueAndEnter =>
    rw [ofArguments, fields, issues_both, issues_text, issues_text, htwo]
  | scroll =>
    rw [ofArguments, fields, issues_both, issues_direction, issues_optionalNatural, htwo]
  | back | forward => rfl
  | wait =>
    rw [ofArguments, fields, issues_map, issues_optionalNatural, hone]

/-- A reader that reports nothing gives a value. -/
def Proper (x : Checked α) : Prop := x.issues = [] → ∃ a, x = .ok a

theorem proper_text (key : String) (args : Json) : Proper (text key args) := by
  intro h
  rw [issues_text, Option.toList_eq_nil_iff, issue_eq_none] at h
  obtain ⟨s, hs⟩ := h
  exact ⟨s, text_eq_ok.mpr hs⟩

theorem proper_direction (key : String) (args : Json) : Proper (direction key args) := by
  intro h
  rw [issues_direction, Option.toList_eq_nil_iff, issue_eq_none] at h
  obtain ⟨d, hd⟩ := h
  exact ⟨d, direction_eq_ok.mpr hd⟩

theorem proper_optionalNatural (key : String) (args : Json) :
    Proper (optionalNatural key args) := by
  intro h
  rw [issues_optionalNatural key none, Option.toList_eq_nil_iff, issue_eq_none] at h
  rcases h with homitted | ⟨n, hn⟩
  · exact ⟨none, optionalNatural_eq_ok.mpr (.inl ⟨rfl, homitted⟩)⟩
  · exact ⟨some n, optionalNatural_eq_ok.mpr (.inr ⟨n, rfl, hn⟩)⟩

theorem Proper.map {x : Checked α} (h : Proper x) (g : α → β) : Proper (Except.map g x) := by
  intro hi
  rw [issues_map] at hi
  obtain ⟨a, rfl⟩ := h hi
  exact ⟨g a, rfl⟩

theorem Proper.both {x : Checked α} {y : Checked β} (hx : Proper x) (hy : Proper y)
    (g : α → β → γ) : Proper (Checked.both g x y) := by
  intro hi
  rw [issues_both, List.append_eq_nil_iff] at hi
  obtain ⟨a, rfl⟩ := hx hi.1
  obtain ⟨b, rfl⟩ := hy hi.2
  exact ⟨g a b, rfl⟩

theorem proper_ofArguments (args : Json) (k : Operation.Kind) : Proper (ofArguments args k) := by
  cases k with
  | click | hover | navigate => exact (proper_text _ _).map _
  | setValue | setValueAndEnter => exact (proper_text _ _).both (proper_text _ _) _
  | scroll => exact (proper_direction _ _).both (proper_optionalNatural _ _) _
  | back | forward => exact fun _ => ⟨_, rfl⟩
  | wait => exact (proper_optionalNatural _ _).map _

end BrowserOperations
end BrowserActions
