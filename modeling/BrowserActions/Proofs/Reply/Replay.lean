import Mathlib
import BrowserActions.Proofs.Action.Assembly
import BrowserActions.Proofs.Json.Stable
import BrowserActions.Proofs.Reply.Tagged

/-!
# Replaying a rejection

A rejection quotes the record that was rejected. Unless this has doubles, the quotation is read as
that very record, and a reply of nothing but the quoted record is rejected in the same words. A
thought that is no string is kept as a text, which is read as that very thought unless it nests
deeper than reading goes. In a reply no thought does.
-/
namespace BrowserActions.Reply

open BrowserActions.Action (firstRejected_of_error ofRecord thoughtOf)

variable {Op : Type} {schema : OperationSchema Op} {cs : List Char} {items : List Json}
  {record other v thought : Json} {reason : Rejection} {action : Action Op}

theorem kept_of_value (h : value cs = .ok v) : v.Kept Json.deepest := by
  rw [value] at h
  split at h
  next w hw =>
    cases h
    exact Json.kept_of_read hw
  next =>
    split at h
    · cases h
    next block _ _ =>
      split at h
      next w hw =>
        cases h
        exact Json.kept_of_read hw
      next => cases h

theorem records_eq_ok : records cs = .ok items ↔ value cs = .ok (.array items) := by
  constructor
  · intro h
    rw [records] at h
    cases hv : value cs with
    | error e =>
      rw [hv] at h
      cases h
    | ok v =>
      rw [hv] at h
      cases v with
      | array vs =>
        cases h
        rfl
      | _ => cases h
  · intro h
    rw [records, h]
    rfl

theorem kept_of_records (h : records cs = .ok items) (hr : record ∈ items) :
    record.Kept (Json.deepest - 1) := by
  have hkept := kept_of_value (records_eq_ok.mp h)
  cases hkept with
  | array hitems => exact hitems record hr

theorem records_rejects_none : records cs ≠ .error (.rejected reason record) := by
  intro h
  rw [records] at h
  cases hv : value cs with
  | error e =>
    rw [hv] at h
    cases h
    rw [value] at hv
    split at hv
    · cases hv
    · split at hv
      · cases hv
      · split at hv <;> cases hv
  | ok v =>
    rw [hv] at h
    cases v <;> cases h

theorem quoted_record (h : ofRecord schema other = .error (.rejected reason record)) :
    record = other := by
  rw [ofRecord] at h
  split at h
  · cases h
    rfl
  · split at h
    · cases h
    · cases h
      rfl

theorem parse_of_records (h : records cs = .ok items) :
    parse schema cs = Action.assemble schema items := by
  rw [parse, h]
  rfl

theorem rejected_record (h : parse schema cs = .error (.rejected reason record)) :
    ∃ items, records cs = .ok items ∧ record ∈ items ∧
      ofRecord schema record = .error (.rejected reason record) := by
  cases hitems : records cs with
  | error e =>
    rw [parse, hitems] at h
    cases h
    exact absurd hitems records_rejects_none
  | ok items =>
    rw [parse_of_records hitems] at h
    obtain ⟨before, found, after, rfl, -, hfound⟩ := firstRejected_of_error h
    obtain rfl := quoted_record hfound
    exact ⟨_, rfl, List.mem_append_right _ List.mem_cons_self, hfound⟩

theorem toList_alone (record : Json) :
    ("[" ++ record.text ++ "]").toList = (Json.array [record]).compact := by
  simp [Json.text, Json.compact, Json.compactItems]

theorem records_alone (h : record.Kept (Json.deepest - 1)) (hd : record.hasDouble = false) :
    records (Json.array [record]).compact = .ok [record] := by
  have hkept : (Json.array [record]).Kept Json.deepest := .array (List.forall_mem_singleton.mpr h)
  have hnone : (Json.array [record]).hasDouble = false := Bool.or_eq_false_iff.mpr ⟨hd, rfl⟩
  apply records_eq_ok.mpr
  rw [value, hkept.read_compact le_rfl hnone]

theorem parse_alone (h : record.Kept (Json.deepest - 1)) (hd : record.hasDouble = false)
    (hrejected : ofRecord schema record = .error (.rejected reason record)) :
    parse schema (Json.array [record]).compact = .error (.rejected reason record) := by
  rw [parse_of_records (records_alone h hd)]
  exact Action.assemble_cons_error hrejected []

theorem read_text {room : Nat} (h : v.Kept room) (hroom : room ≤ Json.deepest)
    (hd : v.hasDouble = false) : Json.read? v.text.toList = some v := by
  rw [Json.text, String.toList_ofList]
  exact h.read_compact hroom hd

theorem thought_of_accepted (h : ofRecord schema record = .ok action) :
    action.thought = thoughtOf record := by
  rw [ofRecord] at h
  split at h
  · cases h
  · split at h
    · cases h
      rfl
    · cases h

theorem thoughtOf_unspoken (h : record.member? "thought" = some thought) (hnull : thought ≠ .null)
    (hstring : ∀ s, thought ≠ .string s) : thoughtOf record = some thought.text := by
  have hgiven : record.given? "thought" = some thought := by
    rw [Json.given?, h]
    cases thought with
    | null => exact absurd rfl hnull
    | _ => rfl
  rw [thoughtOf, hgiven]
  cases thought with
  | string s => exact absurd rfl (hstring s)
  | _ => rfl

theorem member_kept {room : Nat} (h : record.Kept room) {name : String}
    (hm : record.member? name = some v) : v.Kept (room - 1) := by
  cases h with
  | object _ hmembers => exact hmembers _ (Keyed.mem_of_lookup hm)
  | _ => cases hm

theorem member_hasDouble (hd : record.hasDouble = false) {name : String}
    (hm : record.member? name = some v) : v.hasDouble = false := by
  cases record with
  | object members => exact Json.membersHaveDouble_eq_false hd _ (Keyed.mem_of_lookup hm)
  | _ => cases hm

/-- A quoted record is read back and rejected again, in the same words and with the same quotation.
A thought that had to be put into words is read back exactly if it nests no deeper than reading
goes, as every thought in a reply does. -/
theorem rejection_replays :
    (∀ (reply : String) (reason : Rejection) (record : Json),
      Reply.actions reply = .error (.rejected reason record) → record.hasDouble = false →
      Json.read? record.text.toList = some record ∧
      Reply.actions ("[" ++ record.text ++ "]") = .error (.rejected reason record)) ∧
    (∀ (Op : Type) (schema : OperationSchema Op) (record thought : Json) (action : Action Op),
      record.Regular → record.hasDouble = false → ofRecord schema record = .ok action →
      record.member? "thought" = some thought → thought ≠ .null → (∀ s, thought ≠ .string s) →
      ∃ text, action.thought = some text ∧
        (Json.read? text.toList = some thought ↔ thought.depth ≤ Json.deepest)) ∧
    (∀ (reply : List Char) (items : List Json) (record thought : Json),
      records reply = .ok items → record ∈ items → record.member? "thought" = some thought →
      thought.depth ≤ Json.deepest) := by
  refine ⟨?_, ?_, ?_⟩
  · intro reply reason record h hd
    obtain ⟨items, hitems, hr, hrejected⟩ := rejected_record h
    have hkept := kept_of_records hitems hr
    refine ⟨read_text hkept (by decide) hd, ?_⟩
    rw [Reply.actions, toList_alone]
    exact parse_alone hkept hd hrejected
  · intro Op schema record thought action hregular hd haction hm hnull hstring
    obtain ⟨room, hkept⟩ := hregular
    refine ⟨thought.text, ?_, ?_⟩
    · rw [thought_of_accepted haction]
      exact thoughtOf_unspoken hm hnull hstring
    · rw [Json.text, String.toList_ofList]
      exact (member_kept hkept hm).read_compact_iff (member_hasDouble hd hm)
  · intro reply items record thought hitems hr hm
    have hdepth := (member_kept (kept_of_records hitems hr) hm).depth_le
    exact hdepth.trans (by decide)

def muddled : Json := .object [("b", .string "\"\n"), ("c", .bool true)]

def muddledRecord : Json :=
  .object [("action", .object [("name", .string "back")]), ("thought", muddled)]

def flyRecord : Json :=
  .object [("action", .object [("name", .string "fly"), ("to", .array [.integer (-3), .null])])]

def flyFault : Rejection :=
  .invalid [⟨"name", .invalidDiscriminator Operation.Kind.names⟩]

def asWritten : Json :=
  .array [
    .object [("thought", .object [("c", .null), ("b", .string "\"\n"), ("c", .bool true)]),
      ("action", .object [("name", .string "back")])],
    .object [("action", .object [("to", .array [.integer (-3), .null]), ("name", .string "fly")])]]

theorem value_asWritten :
    value (tagged ['O', 'k'] (['\n'] ++ asWritten.compact ++ ['\u00a0']) ['.']) =
      .ok (.array [muddledRecord, flyRecord]) := by
  have hclosed : ¬ fence <:+: ['\n'] ++ asWritten.compact ++ ['\u00a0'] := by decide +kernel
  have htrim : Text.trim (['\n'] ++ asWritten.compact ++ ['\u00a0']) = asWritten.compact := by
    decide +kernel
  have hexact : asWritten.Exact := by
    have hword : Json.IsWord (-3) := by decide
    exact ⟨⟨⟨trivial, trivial, trivial, trivial⟩, ⟨trivial, trivial⟩, trivial⟩,
      ⟨⟨⟨hword, trivial, trivial⟩, trivial, trivial⟩, trivial⟩, trivial⟩
  have hread : Json.read? asWritten.compact = some (.array [muddledRecord, flyRecord]) :=
    Json.read_compact hexact (by decide)
  rw [value_tagged (by simp) (splitFence_closed ⟨hclosed, by decide⟩ _), htrim, valueOf, hread]

theorem rejection_replays_fly :
    let reply := String.ofList
      (tagged ['O', 'k'] (['\n'] ++ asWritten.compact ++ ['\u00a0']) ['.'])
    (Reply.actions reply = .error (.rejected flyFault flyRecord) ∧
      Json.read? flyRecord.text.toList = some flyRecord ∧
      Reply.actions ("[" ++ flyRecord.text ++ "]") = .error (.rejected flyFault flyRecord)) ∧
    (ofRecord BrowserOperations.schema muddledRecord = .ok ⟨some muddled.text, .back⟩ ∧
      ∃ text, some muddled.text = some text ∧ Json.read? text.toList = some muddled) := by
  intro reply
  have hrecords := records_eq_ok.mpr value_asWritten
  have hreply : Reply.actions reply = .error (.rejected flyFault flyRecord) := by
    rw [Reply.actions, String.toList_ofList, parse_of_records hrecords]
    rfl
  have hregular : muddledRecord.Regular := ⟨_, kept_of_records hrecords List.mem_cons_self⟩
  have haction : ofRecord BrowserOperations.schema muddledRecord =
      .ok ⟨some muddled.text, .back⟩ := rfl
  obtain ⟨hreplay, hthought, hdepth⟩ := rejection_replays
  refine ⟨⟨hreply, hreplay reply flyFault flyRecord hreply rfl⟩, haction, ?_⟩
  obtain ⟨text, htext, hread⟩ :=
    hthought _ _ _ muddled _ hregular rfl haction rfl nofun nofun
  exact ⟨text, htext, hread.mpr (hdepth _ _ _ _ hrecords List.mem_cons_self rfl)⟩

def nested : Nat → Json
  | 0 => .array []
  | n + 1 => .array [nested n]

theorem kept_nested (n : Nat) : (nested n).Kept (n + 1) := by
  induction n with
  | zero => exact .array (List.forall_mem_nil _)
  | succ n ih => exact .array (List.forall_mem_singleton.mpr ih)

theorem hasDouble_nested (n : Nat) : (nested n).hasDouble = false := by
  induction n with
  | zero => rfl
  | succ n ih => exact Bool.or_eq_false_iff.mpr ⟨ih, rfl⟩

theorem depth_nested (n : Nat) : (nested n).depth = n + 1 := by
  induction n with
  | zero => rfl
  | succ n ih => rw [nested, Json.depth, Json.itemsDepth, ih, Json.itemsDepth, Nat.max_zero]

def deepRecord (n : Nat) : Json :=
  .object [("action", .object [("name", .string "back")]), ("thought", nested n)]

theorem regular_deepRecord (n : Nat) : (deepRecord n).Regular := by
  have hback : (Json.object [("name", .string "back")]).Kept (n + 1) :=
    .object (List.pairwise_singleton _ _) (List.forall_mem_singleton.mpr (.string _ _))
  have hordered : Keyed.Ascending [("action", Json.object [("name", .string "back")]),
      ("thought", nested n)] :=
    List.pairwise_pair.mpr (show "action" < "thought" by decide)
  exact ⟨n + 2, .object hordered (List.forall_mem_cons.mpr
    ⟨hback, List.forall_mem_singleton.mpr (kept_nested n)⟩)⟩

theorem hasDouble_deepRecord (n : Nat) : (deepRecord n).hasDouble = false := by
  simp [deepRecord, Json.hasDouble, Json.membersHaveDouble, hasDouble_nested]

theorem accepted_deepRecord (n : Nat) :
    ofRecord BrowserOperations.schema (deepRecord n) = .ok ⟨some (nested n).text, .back⟩ := by
  cases n <;> rfl

/-- A thought of 128 arrays is accepted, and its text cannot be read back. -/
theorem deep_thought_not_read_back :
    (deepRecord 127).Regular ∧ (deepRecord 127).hasDouble = false ∧
      (deepRecord 127).member? "thought" = some (nested 127) ∧
      ofRecord BrowserOperations.schema (deepRecord 127) = .ok ⟨some (nested 127).text, .back⟩ ∧
      Json.read? (nested 127).text.toList ≠ some (nested 127) := by
  refine ⟨regular_deepRecord 127, hasDouble_deepRecord 127, rfl, accepted_deepRecord 127,
    fun hread => ?_⟩
  rw [Json.text, String.toList_ofList] at hread
  have hdepth := ((kept_nested 127).read_compact_iff (hasDouble_nested 127)).mp hread
  rw [depth_nested] at hdepth
  exact absurd hdepth (by decide)

end BrowserActions.Reply
