import Mathlib
import BrowserActions.Action.Basic
import BrowserActions.Schema.Browser

/-!
# Assembling records

Records become actions one by one and in order, or the first of them that is rejected decides alone,
whatever stands behind it. What becomes of a record is decided by its action and its thought.
-/
namespace BrowserActions

/-- The same failure, told about another record. -/
def Failure.about (record : Json) : Failure → Failure
  | .rejected reason _ => .rejected reason record
  | e => e

namespace Action

variable {Op : Type} {schema other : OperationSchema Op} {records first second : List Json}
  {actions : List (Action Op)} {record copy : Json} {e : Failure}

theorem assemble_cons_ok {action : Action Op} (h : ofRecord schema record = .ok action)
    (records : List Json) :
    assemble schema (record :: records) = (assemble schema records).map (action :: ·) := by
  rw [assemble, List.mapM_cons, h, ← assemble]
  cases assemble schema records <;> rfl

theorem assemble_cons_error (h : ofRecord schema record = .error e) (records : List Json) :
    assemble schema (record :: records) = .error e := by
  rw [assemble, List.mapM_cons, h]
  rfl

theorem assemble_cons_eq_ok (h : assemble schema (record :: records) = .ok actions) :
    ∃ action rest, ofRecord schema record = .ok action ∧ assemble schema records = .ok rest ∧
      actions = action :: rest := by
  cases hrecord : ofRecord schema record with
  | error e =>
    rw [assemble_cons_error hrecord] at h
    cases h
  | ok action =>
    rw [assemble_cons_ok hrecord] at h
    cases hrest : assemble schema records with
    | error e =>
      rw [hrest] at h
      cases h
    | ok rest =>
      rw [hrest] at h
      cases h
      exact ⟨action, rest, rfl, rfl, rfl⟩

theorem assemble_cons_eq_error (h : assemble schema (record :: records) = .error e) :
    ofRecord schema record = .error e ∨
      ∃ action, ofRecord schema record = .ok action ∧ assemble schema records = .error e := by
  cases hrecord : ofRecord schema record with
  | error fault =>
    rw [assemble_cons_error hrecord] at h
    cases h
    exact .inl rfl
  | ok action =>
    rw [assemble_cons_ok hrecord] at h
    cases hrest : assemble schema records with
    | error fault =>
      rw [hrest] at h
      cases h
      exact .inr ⟨action, rfl, rfl⟩
    | ok rest =>
      rw [hrest] at h
      cases h

theorem each_of_ok (h : assemble schema records = .ok actions) :
    List.Forall₂ (fun record action => ofRecord schema record = .ok action) records actions := by
  induction records generalizing actions with
  | nil =>
    cases h
    exact .nil
  | cons record records ih =>
    obtain ⟨action, rest, hrecord, hrest, rfl⟩ := assemble_cons_eq_ok h
    exact .cons hrecord (ih hrest)

/-- This is the failure of the first record that is rejected. -/
def FirstRejected (schema : OperationSchema Op) (records : List Json) (e : Failure) : Prop :=
  ∃ before record after, records = before ++ record :: after ∧
    (∀ accepted ∈ before, ∃ action, ofRecord schema accepted = .ok action) ∧
    ofRecord schema record = .error e

theorem FirstRejected.cons {action : Action Op} (hrecord : ofRecord schema record = .ok action)
    (h : FirstRejected schema records e) : FirstRejected schema (record :: records) e := by
  obtain ⟨before, rejected, after, rfl, hbefore, herror⟩ := h
  refine ⟨record :: before, rejected, after, rfl, ?_, herror⟩
  exact List.forall_mem_cons.mpr ⟨⟨action, hrecord⟩, hbefore⟩

theorem firstRejected_of_error (h : assemble schema records = .error e) :
    FirstRejected schema records e := by
  induction records with
  | nil => cases h
  | cons record records ih =>
    rcases assemble_cons_eq_error h with hrecord | ⟨action, hrecord, hrest⟩
    · exact ⟨[], record, records, rfl, List.forall_mem_nil _, hrecord⟩
    · exact (ih hrest).cons hrecord

theorem assemble_append (schema : OperationSchema Op) (first second : List Json) :
    assemble schema (first ++ second) = (do
      let actions ← assemble schema first
      let more ← assemble schema second
      pure (actions ++ more)) := List.mapM_append

theorem assemble_append_ok (h : assemble schema first = .ok actions) (second : List Json) :
    assemble schema (first ++ second) = (assemble schema second).map (actions ++ ·) := by
  rw [assemble_append, h]
  cases assemble schema second <;> rfl

theorem assemble_append_error (h : assemble schema first = .error e) (second : List Json) :
    assemble schema (first ++ second) = .error e := by
  rw [assemble_append, h]
  rfl

theorem ofRecord_without_action (h : record.given? "action" = none) :
    ofRecord schema record = .error (.rejected .actionRequired record) := by
  rw [ofRecord, h]

theorem given_action_eq_none (h : (∀ members, record ≠ .object members) ∨
    record.member? "action" = none ∨ record.member? "action" = some .null) :
    record.given? "action" = none := by
  have hnone : record.member? "action" = none → record.given? "action" = none := by
    intro hm
    rw [Json.given?, hm]
  rcases h with hobject | hm | hm
  · apply hnone
    cases record with
    | object members => exact absurd rfl (hobject members)
    | _ => rfl
  · exact hnone hm
  · rw [Json.given?, hm]

theorem ofRecord_congr (haction : copy.given? "action" = record.given? "action")
    (hthought : copy.given? "thought" = record.given? "thought")
    (hschema : ∀ raw, record.given? "action" = some raw →
      other.validate raw = schema.validate raw) :
    ofRecord other copy = (ofRecord schema record).mapError (Failure.about copy) := by
  rw [ofRecord, ofRecord, haction]
  cases hraw : record.given? "action" with
  | none => rfl
  | some raw =>
    dsimp only
    rw [hschema raw hraw]
    cases schema.validate raw with
    | error issues => rfl
    | ok operation =>
      have hsame : thoughtOf copy = thoughtOf record := by
        rw [thoughtOf, thoughtOf, hthought]
      dsimp only
      rw [hsame]
      rfl

/-- Assembling says of each record what is said of it alone, in order and up to the first that is
rejected, and more records behind others change nothing about these. -/
theorem assemble_record_by_record (schema : OperationSchema Op) :
    (∀ first actions, assemble schema first = .ok actions →
      actions.length = first.length ∧
      (∀ i (hr : i < first.length) (ha : i < actions.length),
        ofRecord schema first[i] = .ok actions[i]) ∧
      ∀ second,
        (∀ more, assemble schema second = .ok more →
          assemble schema (first ++ second) = .ok (actions ++ more)) ∧
        (∀ e, assemble schema second = .error e →
          assemble schema (first ++ second) = .error e)) ∧
    (∀ first e, assemble schema first = .error e →
      FirstRejected schema first e ∧ ∀ second, assemble schema (first ++ second) = .error e) ∧
    (∀ record : Json, ((∀ members, record ≠ .object members) ∨
        record.member? "action" = none ∨ record.member? "action" = some .null) →
      ofRecord schema record = .error (.rejected .actionRequired record) ∧
      Rejection.actionRequired.message = "Action is required") ∧
    (∀ (other : OperationSchema Op) (record copy : Json),
      copy.given? "action" = record.given? "action" →
      copy.given? "thought" = record.given? "thought" →
      (∀ raw, record.given? "action" = some raw → other.validate raw = schema.validate raw) →
      ofRecord other copy = (ofRecord schema record).mapError (Failure.about copy)) := by
  refine ⟨?_, ?_, ?_, ?_⟩
  · intro first actions h
    obtain ⟨hlength, hitems⟩ := List.forall₂_iff_get.mp (each_of_ok h)
    refine ⟨hlength.symm, hitems, ?_⟩
    intro second
    constructor
    · intro more hmore
      rw [assemble_append_ok h, hmore]
      rfl
    · intro e he
      rw [assemble_append_ok h, he]
      rfl
  · intro first e h
    exact ⟨firstRejected_of_error h, assemble_append_error h⟩
  · intro record h
    exact ⟨ofRecord_without_action (given_action_eq_none h), rfl⟩
  · intro other record copy haction hthought hschema
    exact ofRecord_congr haction hthought hschema

def backRecord : Json :=
  .object [("action", .object [("name", .string "back")]), ("thought", .string "wrong page")]

def clickRecord (others : List (String × Json)) : Json :=
  .object (others ++ [("action", .object [("name", .string "click")])])

def clickFault (record : Json) : Failure := .rejected (.invalid [⟨"args", .required⟩]) record

theorem assemble_record_by_record_click :
    let schema := BrowserOperations.schema
    let back : Action Operation := ⟨some "wrong page", .back⟩
    let numbered := clickRecord [("step", .integer 2)]
    assemble schema ([backRecord] ++ [backRecord]) = .ok ([back] ++ [back]) ∧
    assemble schema ([backRecord] ++ [clickRecord []]) = .error (clickFault (clickRecord [])) ∧
    assemble schema ([clickRecord []] ++ [backRecord]) = .error (clickFault (clickRecord [])) ∧
    ofRecord schema (.string "back") = .error (.rejected .actionRequired (.string "back")) ∧
    ofRecord schema numbered = .error (clickFault numbered) := by
  intro schema back numbered
  obtain ⟨hok, herror, hwithout, hsame⟩ := assemble_record_by_record schema
  have hback : assemble schema [backRecord] = .ok [back] := rfl
  have hclick : assemble schema [clickRecord []] = .error (clickFault (clickRecord [])) := rfl
  obtain ⟨-, -, happend⟩ := hok _ _ hback
  refine ⟨(happend _).1 _ hback, (happend _).2 _ hclick, (herror _ _ hclick).2 _, ?_, ?_⟩
  · exact (hwithout (.string "back") (.inl fun _ h => by cases h)).1
  · exact hsame schema (clickRecord []) numbered rfl rfl fun _ _ => rfl

end Action
end BrowserActions
