import Mathlib
import BrowserActions.Action.Decode
import BrowserActions.Proofs.Json.Pretty
import BrowserActions.Proofs.Operation.Agreement

/-!
# Handing actions on

A list of actions is written for whoever carries it out, on one line or indented, and read from
either text as the same list.
-/
namespace BrowserActions

open Decode
open Json (itemDrafts)
open BrowserOperations (exact_arguments)

variable {room : Nat}

namespace Operation

theorem optional_toNat (n : UInt64) : optional uint64 (.integer n.toNat) = .ok (some n) := by
  have hnull : uint64 .null ≠ .ok n := nofun
  exact (optional_eq_ok hnull).mpr (uint64_toNat n)

theorem ofObject_arguments (op : Operation) :
    (op.kind.record false).ofObject (Json.object op.arguments).draft = .ok op := by
  cases op with
  | click xpath | hover xpath | navigate url => rfl
  | setValue xpath value | setValueAndEnter xpath value => rfl
  | scroll d amount =>
    cases amount with
    | none => cases d <;> rfl
    | some n =>
      have hamount : amountMember.read { direction := some d } (.integer n.toNat) =
          .ok { direction := some d, amount := some (some n) } :=
        bind_eq_ok.mpr ⟨some n, optional_toNat n, rfl⟩
      have hdirection : (directionMember false).read {} (.string d.name) =
          .ok { direction := some d } := by cases d <;> rfl
      refine bind_eq_ok.mpr ⟨{ direction := some d, amount := some (some n) }, ?_, rfl⟩
      refine bind_eq_ok.mpr ⟨_, hdirection, ?_⟩
      exact bind_eq_ok.mpr ⟨_, hamount, rfl⟩
  | back | forward => rfl
  | wait n =>
    have hduration : durationMember.read {} (.integer n.toNat) = .ok { durationMs := some n } :=
      bind_eq_ok.mpr ⟨n, uint64_toNat n, rfl⟩
    refine bind_eq_ok.mpr ⟨{ durationMs := some n }, ?_, rfl⟩
    exact bind_eq_ok.mpr ⟨_, hduration, rfl⟩

theorem decode_named (room : Nat) (dn da : Draft) :
    decode room (.object [(some "name", dn), (some "args", da)] true) =
      decodeKind (variant Kind.names dn) >>= fun k => (k.record false).ofObject da := by
  have hdecode : decode room (.object [(some "name", dn), (some "args", da)] true) =
      List.foldlM (Progress.step room) .nothing [(some "name", dn), (some "args", da)] >>=
        Progress.finish := rfl
  have hname : Progress.step room .nothing (some "name", dn) =
      (do pure (.named (← decodeKind (variant Kind.names dn)))) := rfl
  rw [hdecode, List.foldlM_cons, hname]
  cases decodeKind (variant Kind.names dn) with
  | error e => rfl
  | ok k =>
    have hargs : Progress.step room (.named k) (some "args", da) =
        (do pure (.done (← (k.record false).ofObject da))) := rfl
    change (Progress.step room (.named k) (some "args", da) >>= pure) >>= Progress.finish = _
    rw [bind_pure, hargs]
    exact finish_done _

theorem decode_toJson (room : Nat) (op : Operation) : decode room op.toJson.draft = .ok op := by
  have hdraft : op.toJson.draft = .object [(some "name", .string op.kind.name),
      (some "args", (Json.object op.arguments).draft)] true := rfl
  rw [hdraft, decode_named, decodeKind_eq_ok.mpr rfl]
  exact ofObject_arguments op

end Operation

namespace Action

theorem decode_action (room : Nat) (action : Action Operation) :
    decode room action.toJson.draft = .ok action := by
  obtain ⟨thought, operation⟩ := action
  have hoperation := Operation.decode_toJson (room - 1) operation
  have hread (t : Told) : (do
      pure { t with operation := some (← Operation.decode (room - 1) operation.toJson.draft) } :
        Result Told) = .ok { t with operation := some operation } :=
    bind_eq_ok.mpr ⟨operation, hoperation, rfl⟩
  cases thought with
  | none =>
    refine bind_eq_ok.mpr ⟨{ thought := some none, operation := some operation }, ?_, rfl⟩
    refine bind_eq_ok.mpr ⟨{ thought := some none }, rfl, ?_⟩
    exact bind_eq_ok.mpr ⟨_, hread { thought := some none }, rfl⟩
  | some s =>
    refine bind_eq_ok.mpr ⟨{ thought := some (some s), operation := some operation }, ?_, rfl⟩
    refine bind_eq_ok.mpr ⟨{ thought := some (some s) }, rfl, ?_⟩
    exact bind_eq_ok.mpr ⟨_, hread { thought := some (some s) }, rfl⟩

theorem mapM_drafts (room : Nat) (actions : List (Action Operation)) :
    (itemDrafts (actions.map toJson)).mapM (decode room) = .ok actions := by
  induction actions with
  | nil => rfl
  | cons action actions ih =>
    rw [List.map_cons, itemDrafts, List.mapM_cons, decode_action, ih]
    rfl

theorem decodeList_draft (room : Nat) (actions : List (Action Operation)) :
    decodeList room (listToJson actions).draft = .ok actions :=
  bind_eq_ok.mpr ⟨actions, mapM_drafts (room - 1) actions, rfl⟩

theorem exact_toJson (action : Action Operation) : action.toJson.Exact := by
  obtain ⟨_ | thought, operation⟩ := action <;>
    exact ⟨trivial, ⟨trivial, exact_arguments operation, trivial⟩, trivial⟩

theorem exact_listToJson (actions : List (Action Operation)) : (listToJson actions).Exact := by
  apply Json.itemsExact_of_forall
  intro v hv
  obtain ⟨action, -, rfl⟩ := List.mem_map.mp hv
  exact exact_toJson action

theorem readAs_list {cs : List Char} {actions : List (Action Operation)}
    (h : Json.reading cs = ⟨(listToJson actions).draft, true⟩) :
    Json.readAs (decodeList room) cs = .ok actions := by
  have hwhole : (Json.reading cs).whole = true := by rw [h]
  rw [readAs_of_whole _ hwhole, h]
  exact decodeList_draft room actions

theorem read_compact_list (room : Nat) (actions : List (Action Operation)) :
    Json.readAs (decodeList room) (listToJson actions).compact = .ok actions :=
  readAs_list (Json.reading_compact (exact_listToJson actions))

theorem read_pretty_list (room : Nat) (actions : List (Action Operation)) {ws : List Char}
    (h : ∀ c ∈ ws, Json.isSpace c = true) :
    Json.readAs (decodeList room) ((listToJson actions).pretty ++ ws) = .ok actions :=
  readAs_list (Json.reading_pretty (exact_listToJson actions) h)

/-- The text is one of the two written forms of the list. -/
def Writes (cs : List Char) (actions : List (Action Operation)) : Prop :=
  cs = (listToJson actions).compact ∨ cs = (listToJson actions).pretty

theorem Writes.read {cs : List Char} {actions : List (Action Operation)} (h : Writes cs actions) :
    Json.readAs (decodeList Json.deepest) cs = .ok actions := by
  rcases h with rfl | rfl
  · exact read_compact_list _ actions
  · simpa using read_pretty_list Json.deepest actions (List.forall_mem_nil _)

/-- A list is read from what it was written as, on one line or indented, and no text is what two
lists are written as. -/
theorem hand_off_lossless :
    (∀ actions : List (Action Operation),
      Json.readAs (decodeList Json.deepest) (listToJson actions).text.toList = .ok actions ∧
      Json.readAs (decodeList Json.deepest) (listToJson actions).prettyText.toList = .ok actions) ∧
    ∀ (cs : List Char) (first second : List (Action Operation)),
      Writes cs first → Writes cs second → first = second := by
  constructor
  · intro actions
    rw [Json.text, Json.prettyText, String.toList_ofList, String.toList_ofList]
    exact ⟨Writes.read (.inl rfl), Writes.read (.inr rfl)⟩
  · intro cs first second hfirst hsecond
    have hread := hfirst.read
    rw [hsecond.read] at hread
    exact (Except.ok.inj hread).symm

def sparse : List (Action Operation) := [⟨none, .scroll .up none⟩, ⟨some "\x01", .back⟩]

theorem hand_off_lossless_sparse :
    (listToJson sparse).text =
      "[\x7b\"thought\":null,\"operation\":" ++
        "\x7b\"name\":\"scroll\",\"args\":\x7b\"direction\":\"up\"\x7d\x7d\x7d," ++
      "\x7b\"thought\":\"\\u0001\",\"operation\":" ++
        "\x7b\"name\":\"back\",\"args\":\x7b\x7d\x7d\x7d]" ∧
    Json.readAs (decodeList Json.deepest) (listToJson sparse).text.toList = .ok sparse ∧
    ∀ other, Writes (listToJson sparse).compact other → sparse = other := by
  obtain ⟨hread, hunique⟩ := hand_off_lossless
  refine ⟨by decide +kernel, (hread sparse).1, ?_⟩
  intro other hother
  exact hunique _ sparse other (.inl rfl) hother

end Action
end BrowserActions
