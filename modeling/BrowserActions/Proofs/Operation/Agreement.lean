import Mathlib
import BrowserActions.Proofs.Operation.Arguments

/-!
# Two readers of operations

An operation can be checked as a value, with all its faults reported, or read from its text as a
typed value. On the objects that both are made for they agree: these name the operation and give its
arguments, in either order, and a wait gives its duration. The typed reader wants a duration where
the other supplies one, and takes an object for a direction that the other refuses.
-/
namespace BrowserActions.Operation

open Decode
open Draft (found? names found_cons)
open Json (Entry)
open BrowserOperations (Agrees Documented Omitted documented_of_ok kind_ofName object_of_member
  ok_of_documented validate)

variable {members : List Entry} {room : Nat} {v : Json} {d dn da : Draft} {p : Progress}
  {k : Kind} {op : Operation} {s key first second : String}

inductive Members : String → String → Prop where
  | nameFirst : Members "name" "args"
  | argsFirst : Members "args" "name"

theorem step_other (hkeys : Members first second) (hfirst : key ≠ first) (hsecond : key ≠ second)
    (hd : d.isWhole = true) : Progress.step room p (some key, d) = .ok p := by
  have hunknown : key ≠ "name" ∧ key ≠ "args" := by
    cases hkeys with
    | nameFirst => exact ⟨hfirst, hsecond⟩
    | argsFirst => exact ⟨hsecond, hfirst⟩
  rw [Progress.step, if_pos hd]
  · rfl
  · exact hunknown.1
  · exact hunknown.2

theorem foldlM_others (hkeys : Members first second) (h : Orderly members)
    (hfirst : some first ∉ names members) (hsecond : some second ∉ names members) :
    members.foldlM (Progress.step room) p = .ok p := by
  induction members with
  | nil => rfl
  | cons m members ih =>
    obtain ⟨key, e, rfl, he, -⟩ := h.first
    rw [names, List.map_cons, List.mem_cons, not_or] at hfirst hsecond
    rw [List.foldlM_cons, step_other hkeys (fun h => hfirst.1 (h ▸ rfl))
      (fun h => hsecond.1 (h ▸ rfl)) he]
    exact ih h.tail hfirst.2 hsecond.2

theorem foldlM_one (hkeys : Members first second) (h : Orderly members)
    (hfound : found? first members = some d) (hsecond : some second ∉ names members) :
    members.foldlM (Progress.step room) p = Progress.step room p (some first, d) := by
  induction members with
  | nil => cases hfound
  | cons m members ih =>
    obtain ⟨key, e, rfl, he, hfresh⟩ := h.first
    rw [names, List.map_cons, List.mem_cons, not_or] at hsecond
    rw [found_cons] at hfound
    rw [List.foldlM_cons]
    split at hfound
    next heq =>
      obtain rfl := Option.some.inj heq
      obtain rfl : e = d := Option.some.inj hfound
      have hrest (q : Progress) : members.foldlM (Progress.step room) q = pure q :=
        foldlM_others hkeys h.tail hfresh hsecond.2
      exact (bind_congr hrest).trans (bind_pure _)
    next hne =>
      rw [step_other hkeys (fun h => hne (h ▸ rfl)) (fun h => hsecond.1 (h ▸ rfl)) he]
      exact ih h.tail hfound hsecond.2

theorem foldlM_two (room : Nat) (p : Progress) (h : Orderly members)
    (hname : found? "name" members = some dn) (hargs : found? "args" members = some da) :
    members.foldlM (Progress.step room) p =
        (do Progress.step room (← Progress.step room p (some "name", dn)) (some "args", da)) ∨
      members.foldlM (Progress.step room) p =
        (do Progress.step room (← Progress.step room p (some "args", da)) (some "name", dn)) := by
  induction members with
  | nil => cases hname
  | cons m members ih =>
    obtain ⟨key, e, rfl, he, hfresh⟩ := h.first
    rw [found_cons] at hname hargs
    rw [List.foldlM_cons]
    -- If this is one of the two, the other is all that counts in the rest.
    by_cases hn : key = "name"
    · subst hn
      rw [if_pos rfl] at hname
      have hne : some "name" ≠ some "args" := by decide
      rw [if_neg hne] at hargs
      obtain rfl : e = dn := Option.some.inj hname
      left
      congr 1
      funext q
      exact foldlM_one .argsFirst h.tail hargs hfresh
    · rw [if_neg fun h => hn (Option.some.inj h)] at hname
      by_cases ha : key = "args"
      · subst ha
        rw [if_pos rfl] at hargs
        obtain rfl : e = da := Option.some.inj hargs
        right
        congr 1
        funext q
        exact foldlM_one .nameFirst h.tail hname hfresh
      · rw [if_neg fun h => ha (Option.some.inj h)] at hargs
        rw [step_other .nameFirst hn ha he]
        exact ih h.tail hname hargs

theorem finish_done (x : Result Operation) :
    ((do pure (Progress.done (← x))) >>= Progress.finish) = x := by
  cases x <;> rfl

theorem decode_object (h : Orderly members) (hname : found? "name" members = some dn)
    (hargs : found? "args" members = some da) (hvalue : (da.value? (room - 1)).isSome = true) :
    ∃ held, decode room (.object members true) =
      decodeKind (variant Kind.names dn) >>= fun k => (k.record held).ofObject da := by
  have hdecode : decode room (.object members true) =
      members.foldlM (Progress.step room) .nothing >>= Progress.finish := rfl
  rcases foldlM_two room .nothing h hname hargs with hfold | hfold
  -- The name comes first: the arguments are read when they are met.
  · refine ⟨false, ?_⟩
    rw [hdecode, hfold]
    have hstep : Progress.step room .nothing (some "name", dn) =
        (do pure (.named (← decodeKind (variant Kind.names dn)))) := rfl
    rw [hstep]
    cases decodeKind (variant Kind.names dn) with
    | error e => rfl
    | ok k => exact finish_done ((k.record false).ofObject da)
  -- The arguments come first: they are held, which needs a value, and read after the name.
  · refine ⟨true, ?_⟩
    have hheld : Progress.step room .nothing (some "args", da) = .ok (.held da) := if_pos hvalue
    have hstep : Progress.step room (.held da) (some "name", dn) = (do
        let k ← decodeKind (variant Kind.names dn)
        pure (.done (← (k.record true).ofObject da))) := rfl
    rw [hdecode, hfold, hheld]
    change Progress.step room (.held da) (some "name", dn) >>= Progress.finish = _
    rw [hstep]
    cases decodeKind (variant Kind.names dn) with
    | error e => rfl
    | ok k => exact finish_done ((k.record true).ofObject da)

theorem decodeKind_eq_ok : decodeKind (variant Kind.names (.string s)) = .ok k ↔ s = k.name := by
  have hstring : ∀ members closed, Draft.string s ≠ .object members closed := nofun
  rw [decodeKind, bind_eq_ok]
  constructor
  · rintro ⟨t, ht, hk⟩
    obtain ⟨h, -⟩ := (variant_eq_ok hstring).mp ht
    cases h
    exact (kind_ofName s k).mp (wanted_eq_ok.mp hk)
  · rintro rfl
    have hmem : k.name ∈ Kind.names := by cases k <;> decide
    exact ⟨k.name, (variant_eq_ok hstring).mpr ⟨rfl, hmem⟩,
      wanted_eq_ok.mpr ((kind_ofName _ k).mpr rfl)⟩

/-- No name stands twice in an object or in its arguments. -/
def Distinct : Draft → Prop
  | .object members _ => (names members).Nodup ∧
    ∀ ams closed, found? "args" members = some (.object ams closed) → (names ams).Nodup
  | _ => True

/-- Texts of the values that both readers are made for. -/
structure Comparable (cs : List Char) (v : Json) : Prop where
  read : Json.read? cs = some v
  distinct : Distinct (Json.reading cs).draft
  name : ∃ s, v.member? "name" = some (.string s)
  args : ∃ given, v.member? "args" = some (.object given)
  flat : ∀ args, v.member? "args" = some args → Flat args
  timed : v.member? "name" = some (.string "wait") →
    ∀ args, v.member? "args" = some args → ¬Omitted (args.member? "duration_ms")

variable {cs : List Char} {given : List (String × Json)}

theorem decode_eq_ok (hvalue : (Draft.object members true).value? room = some v)
    (hdistinct : Distinct (.object members true)) (hname : v.member? "name" = some (.string s))
    (hargs : v.member? "args" = some (.object given)) (hflat : Flat (.object given))
    (htimed : ∀ k : Kind, s = k.name → Timed k (.object given)) :
    decode room (.object members true) = .ok op ↔
      s = op.kind.name ∧ Agrees (.object given) op := by
  obtain ⟨dn, hdn, hs⟩ := Draft.found_of_member hvalue hdistinct.1 hname
  obtain ⟨da, hda, hgiven⟩ := Draft.found_of_member hvalue hdistinct.1 hargs
  obtain rfl : dn = .string s := Draft.draft_of_value hs rfl
  obtain ⟨ams, rfl⟩ := Draft.object_of_value hgiven
  have hg : Given (room - 1) ams (.object given) := ⟨hgiven, hdistinct.2 ams true hda, hflat⟩
  have hsome : ((Draft.object ams true).value? (room - 1)).isSome = true := by
    rw [hgiven]
    rfl
  obtain ⟨held, hdecode⟩ := decode_object (orderly_of_value hvalue hdistinct.1) hdn hda hsome
  rw [hdecode, bind_eq_ok]
  constructor
  · rintro ⟨k, hk, hop⟩
    have hsk := decodeKind_eq_ok.mp hk
    obtain ⟨rfl, hagrees⟩ := (ofObject_eq_ok hg (htimed k hsk)).mp hop
    exact ⟨hsk, hagrees⟩
  · rintro ⟨hs, hagrees⟩
    exact ⟨op.kind, decodeKind_eq_ok.mpr hs,
      (ofObject_eq_ok hg (htimed _ hs)).mpr ⟨rfl, hagrees⟩⟩

theorem documented_iff (hname : v.member? "name" = some (.string s))
    (hargs : v.member? "args" = some (.object given)) :
    Documented v op ↔ s = op.kind.name ∧ Agrees (.object given) op := by
  constructor
  · intro h
    refine ⟨Json.string.inj (Option.some.inj (hname.symm.trans h.name)), ?_⟩
    rcases h.arguments with ⟨other, hother, hagrees⟩ | ⟨hnone | hnull, -⟩
    · obtain rfl := Json.object.inj (Option.some.inj (hargs.symm.trans hother))
      exact hagrees
    · cases hargs.symm.trans hnone
    · cases hargs.symm.trans hnull
  · rintro ⟨rfl, hagrees⟩
    exact ⟨object_of_member hname, hname, .inl ⟨given, hargs, hagrees⟩⟩

theorem Comparable.read_iff_documented (h : Comparable cs v) :
    Json.readAs (decode Json.deepest) cs = .ok op ↔ Documented v op := by
  obtain ⟨s, hname⟩ := h.name
  obtain ⟨given, hargs⟩ := h.args
  have hread := h.read
  have hdistinct := h.distinct
  rw [Json.read?] at hread
  split at hread
  next hwhole =>
    rw [readAs_of_whole _ hwhole, documented_iff hname hargs]
    obtain ⟨values, rfl⟩ := object_of_member hname
    obtain ⟨members, hmembers⟩ := Draft.object_of_value hread
    rw [hmembers] at hread hdistinct ⊢
    refine decode_eq_ok hread hdistinct hname hargs (h.flat _ hargs) ?_
    rintro k rfl rfl
    exact h.timed hname _ hargs
  next => cases hread

/-- On the values that both are made for, whatever else these say and in whatever order, the two
readers accept the same operations and refuse the same values. -/
theorem readers_agree (cs : List Char) (v : Json) (h : Comparable cs v) :
    (∀ op, validate v = .ok op ↔ Json.readAs (decode Json.deepest) cs = .ok op) ∧
    ((∃ issues, validate v = .error issues) ↔
      ∃ e, Json.readAs (decode Json.deepest) cs = .error e) := by
  have hok (op : Operation) :
      validate v = .ok op ↔ Json.readAs (decode Json.deepest) cs = .ok op :=
    ⟨fun hv => h.read_iff_documented.mpr (documented_of_ok hv),
      fun hr => ok_of_documented (h.read_iff_documented.mp hr)⟩
  refine ⟨hok, ⟨?_, ?_⟩⟩
  · rintro ⟨issues, hv⟩
    cases hr : Json.readAs (decode Json.deepest) cs with
    | error e => exact ⟨e, rfl⟩
    | ok op =>
      rw [(hok op).mpr hr] at hv
      cases hv
  · rintro ⟨e, hr⟩
    cases hv : validate v with
    | error issues => exact ⟨issues, rfl⟩
    | ok op =>
      rw [(hok op).mp hv] at hr
      cases hr

def waitUntimed : Json := .object [("args", .object []), ("name", .string "wait")]

def scrollNested : Json :=
  .object [("args", .object [("direction", .object [("up", .null)])]), ("name", .string "scroll")]

-- What is left out are the two values on which the readers differ, one way and the other.
example : validate waitUntimed = .ok (.wait 1000) ∧
    Json.readAs (decode Json.deepest) waitUntimed.compact =
      .error (.missingField "duration_ms") := by
  decide +kernel

example : validate scrollNested =
      .error [⟨"args.direction", .invalidType "string" "object"⟩] ∧
    Json.readAs (decode Json.deepest) scrollNested.compact = .ok (.scroll .up none) := by
  decide +kernel

def backwards (amount : Json) : Json :=
  .object [("args", .object [("x", .array [.object []]), ("direction", .string "up"),
    ("amount", amount)]), ("note", .null), ("name", .string "scroll")]

theorem comparable_backwards (amount : Json) (hexact : amount.Exact) (hdepth : amount.depth = 0) :
    Comparable (backwards amount).compact (backwards amount).ordered := by
  have hv : (backwards amount).Exact := ⟨⟨⟨trivial, trivial⟩, trivial, hexact, trivial⟩, trivial,
    trivial, trivial⟩
  have hargs : (backwards amount).ordered.member? "args" = some (Json.ordered (.object
      [("x", .array [.object []]), ("direction", .string "up"), ("amount", amount)])) := by
    rw [backwards, Json.member_ordered]
    rfl
  have hname : (backwards amount).ordered.member? "name" = some (.string "scroll") := by
    rw [backwards, Json.member_ordered]
    rfl
  refine ⟨Json.read_compact hv ?_, ?_, ⟨_, hname⟩, ⟨_, hargs⟩, ?_, ?_⟩
  · simp [backwards, Json.depth, Json.membersDepth, Json.itemsDepth, hdepth, Json.deepest]
  · rw [Json.reading_compact hv]
    have hnames : [some "args", some "note", some "name"].Nodup := by decide
    have hargsNames : [some "x", some "direction", some "amount"].Nodup := by decide
    refine ⟨hnames, fun ams closed hfound => ?_⟩
    cases hfound
    exact hargsNames
  · intro args h members hdirection
    obtain rfl := Option.some.inj (hargs.symm.trans h)
    rw [Json.member_ordered] at hdirection
    cases hdirection
  · intro h
    exact absurd (Json.string.inj (Option.some.inj (hname.symm.trans h))) (by decide)

/-- An amount that is a number is read by both, and one that is a string by neither. -/
theorem readers_agree_backwards :
    (Comparable (backwards (.integer 5)).compact (backwards (.integer 5)).ordered ∧
      Json.readAs (decode Json.deepest) (backwards (.integer 5)).compact =
        .ok (.scroll .up (some 5)) ∧
      validate (backwards (.integer 5)).ordered = .ok (.scroll .up (some 5))) ∧
    Comparable (backwards (.string "5")).compact (backwards (.string "5")).ordered ∧
      Json.readAs (decode Json.deepest) (backwards (.string "5")).compact =
        .error (.invalidType (.string "5") "u64") ∧
      ∃ issues, validate (backwards (.string "5")).ordered = .error issues := by
  have hword := comparable_backwards (.integer 5) (show Json.IsWord 5 by decide) rfl
  have htext := comparable_backwards (.string "5") trivial rfl
  have hread : Json.readAs (decode Json.deepest) (backwards (.integer 5)).compact =
      .ok (.scroll .up (some 5)) := by decide +kernel
  have herror : Json.readAs (decode Json.deepest) (backwards (.string "5")).compact =
      .error (.invalidType (.string "5") "u64") := by decide +kernel
  exact ⟨⟨hword, hread, ((readers_agree _ _ hword).1 _).mpr hread⟩, htext, herror,
    (readers_agree _ _ htext).2.mpr ⟨_, herror⟩⟩

end BrowserActions.Operation
