import Mathlib
import BrowserActions.Proofs.Schema.Language

/-!
# The report of a rejection

A rejected value is reported completely and without repetition. One fault hides the others only
where they cannot be seen: without an object there is no name, without a known name there are no
fields, and without an object of arguments there is nothing stored in them. Otherwise each declared
field whose own value is unacceptable has one issue, in the order of declaration, and no field has
an issue on account of another.
-/
namespace BrowserActions.BrowserOperations

open Operation (Kind)

/-- The name is a text that names nothing. -/
def UnknownName (v : Json) : Prop :=
  ∃ s, v.member? "name" = some (.string s) ∧ s ∉ schema.variants

structure Gives (v : Json) (k : Kind) (given : List (String × Json)) : Prop where
  name : v.member? "name" = some (.string k.name)
  args : v.member? "args" = some (.object given)

/-- A field that may not be omitted. -/
def Field.Required (f : Field) : Prop := ¬ f.shape.Accepts none

def Reported (issues : List Issue) (f : Field) : Prop := ∃ i ∈ issues, i.path = fieldPath f.key

/-- Arguments in which the reported fields became acceptable, apart from those that are left as they
were. Fields that are not reported are as they were, too. -/
structure Mended (k : Kind) (issues : List Issue) (left : List String) (before after : Json) :
    Prop where
  mended : ∀ f ∈ fields k, Reported issues f → f.key ∉ left → f.Accepts after
  kept : ∀ f ∈ fields k, ¬ Reported issues f ∨ f.key ∈ left →
    after.member? f.key = before.member? f.key

def Shape.default? : Shape → Option Json
  | .natural default => default.map fun n => .integer n.toNat
  | _ => none

/-- The value that acceptable arguments give a field. -/
def Field.reading (args : Json) (f : Field) : Option Json :=
  (args.given? f.key).or f.shape.default?

def said (op : Operation) (f : Field) : Option Json := Keyed.lookup f.key op.arguments

structure Report (v : Json) (issues : List Issue) : Prop where
  nonempty : issues ≠ []
  paths : (issues.map Issue.path).Nodup
  object : (∀ members, v ≠ .object members) → issues = [⟨"", .invalidType "object" v.typeName⟩]
  name : (∃ members, v = .object members) →
    (∀ s ∈ schema.variants, v.member? "name" ≠ some (.string s)) →
    ∃ kind, issues = [⟨"name", kind⟩]
  unknown : UnknownName v → issues = [⟨"name", .invalidDiscriminator schema.variants⟩]
  discriminator : ∀ i ∈ issues, ∀ options, i.kind = .invalidDiscriminator options → UnknownName v
  mistyped : ∀ k : Kind, v.member? "name" = some (.string k.name) →
    ∀ args, v.member? "args" = some args → args ≠ .null → (∀ given, args ≠ .object given) →
    issues = [⟨"args", .invalidType "object" args.typeName⟩]
  omitted : ∀ k : Kind, v.member? "name" = some (.string k.name) → Omitted (v.member? "args") →
    issues = [⟨"args", .required⟩] ∧ ∃ f ∈ fields k, f.Required
  faults : ∀ k given, Gives v k given → issues.map Issue.path =
    ((fields k).filter fun f => ¬ f.Accepts (.object given)).map fun f => fieldPath f.key
  repaired : ∀ k given, Gives v k given → ∀ w after, Gives w k after →
    Mended k issues [] (.object given) (.object after) →
    ∃ op, validate w = .ok op ∧ op.kind = k ∧
      ∀ f ∈ fields k, ¬ Reported issues f → said op f = f.reading (.object given)
  left : ∀ k given, Gives v k given → ∀ w after, Gives w k after → ∀ left,
    Mended k issues left (.object given) (.object after) →
    ∀ f, Reported issues f → f.key ∈ left →
    validate w = .error (issues.filter fun i => i.path ∈ left.map fieldPath)
  leftAlone : ∀ k given, Gives v k given → ∀ w after, Gives w k after → ∀ f, Reported issues f →
    Mended k issues [f.key] (.object given) (.object after) →
    ∃ i ∈ issues, i.path = fieldPath f.key ∧ validate w = .error [i]

variable {α : Type} {v w args before after : Json} {k : Kind} {op : Operation} {key : String}
  {issues : List Issue} {given : List (String × Json)} {f : Field} {left : List String}

theorem issues_unique {x : Checked α} {others : List Issue} (h : x = .error issues)
    (hx : x = .error others) : issues = others :=
  Except.error.inj (h.symm.trans hx)

theorem validate_not_object (hv : ∀ members, v ≠ .object members) :
    validate v = .error [⟨"", .invalidType "object" v.typeName⟩] := by
  cases v with
  | object members => exact absurd rfl (hv members)
  | _ => rfl

theorem mem_variants {s : String} : s ∈ schema.variants ↔ ∃ k : Kind, s = k.name := by
  constructor
  · intro h
    obtain ⟨k, _, rfl⟩ := List.mem_map.mp h
    exact ⟨k, rfl⟩
  · rintro ⟨k, rfl⟩
    cases k <;> decide

theorem kind_unknown (h : UnknownName v) :
    kind v = .error [⟨"name", .invalidDiscriminator schema.variants⟩] := by
  obtain ⟨s, hs, hunknown⟩ := h
  have hnone : Kind.ofName? s = none := by
    cases hk : Kind.ofName? s with
    | none => rfl
    | some k => exact absurd (mem_variants.mpr ⟨k, (kind_ofName s k).mp hk⟩) hunknown
  rw [kind, given_string hs]
  simp only [hnone]
  rfl

theorem kind_unnamed (h : ∀ s, v.member? "name" ≠ some (.string s)) :
    ∃ fault, kind v = .error [⟨"name", fault⟩] ∧
      ∀ options, fault ≠ .invalidDiscriminator options := by
  rw [kind]
  split
  next s hs => exact absurd (given_some.mp hs).1 (h s)
  next =>
    refine ⟨_, rfl, fun options h => ?_⟩
    cases h
  next =>
    refine ⟨_, rfl, fun options h => ?_⟩
    cases h

theorem validate_unnamed (hv : ∃ members, v = .object members)
    (hname : ∀ s ∈ schema.variants, v.member? "name" ≠ some (.string s)) :
    ∃ fault, validate v = .error [⟨"name", fault⟩] ∧
      ∀ options, fault = .invalidDiscriminator options → UnknownName v := by
  by_cases hunknown : UnknownName v
  · exact ⟨_, validate_error_of_kind hv (kind_unknown hunknown), fun _ _ => hunknown⟩
  · have hno : ∀ s, v.member? "name" ≠ some (.string s) := by
      intro s hs
      exact hunknown ⟨s, hs, fun hmem => hname s hmem hs⟩
    obtain ⟨fault, hkind, hother⟩ := kind_unnamed hno
    exact ⟨fault, validate_error_of_kind hv hkind, fun options h => absurd h (hother options)⟩

theorem validate_mistyped (hname : v.member? "name" = some (.string k.name))
    (hargs : v.member? "args" = some args) (hnull : args ≠ .null)
    (hother : ∀ given, args ≠ .object given) :
    validate v = .error [⟨"args", .invalidType "object" args.typeName⟩] := by
  obtain ⟨members, hv⟩ := object_of_member hname
  rw [validate_named hv hname, given_some.mpr ⟨hargs, hnull⟩]
  cases args with
  | object given => exact absurd rfl (hother given)
  | _ => rfl

theorem withoutArguments_eq_error (h : withoutArguments k = .error issues) :
    issues = [⟨"args", .required⟩] ∧ ∃ f ∈ fields k, f.Required := by
  have htext : ∀ key, (⟨key, .text⟩ : Field).Required := fun key h => by
    obtain ⟨s, hs⟩ := h
    cases hs
  cases k with
  | click | hover | setValue | setValueAndEnter | navigate =>
    cases h
    exact ⟨rfl, _, List.mem_cons_self, htext _⟩
  | scroll =>
    cases h
    refine ⟨rfl, _, List.mem_cons_self, ?_⟩
    rintro ⟨d, hd⟩
    cases hd
  | back | forward | wait => cases h

theorem Gives.object (h : Gives v k given) : ∃ members, v = .object members :=
  object_of_member h.name

theorem validate_given (h : Gives v k given) : validate v = ofArguments (.object given) k :=
  validate_with h.object h.name h.args

theorem issues_given (h : Gives v k given) (hv : validate v = .error issues) :
    issues = (fields k).filterMap (Field.issue? (.object given)) := by
  rw [← issues_ofArguments, ← validate_given h, hv]
  rfl

theorem fieldPath_injective : Function.Injective fieldPath := by
  intro a b h
  have hchars := congrArg String.toList h
  simp only [fieldPath, String.toList_append] at hchars
  exact String.toList_inj.mp (List.append_cancel_left hchars)

theorem paths_nodup (k : Kind) : ((fields k).map fun f => fieldPath f.key).Nodup := by
  have hkeys : ((fields k).map Field.key).Nodup := by cases k <;> decide
  have hpaths := hkeys.map fieldPath_injective
  rwa [List.map_map] at hpaths

theorem map_path (args : Json) (declared : List Field) :
    (declared.filterMap (Field.issue? args)).map Issue.path =
      (declared.filter fun f => ¬ f.Accepts args).map fun f => fieldPath f.key := by
  induction declared with
  | nil => rfl
  | cons f rest ih =>
    rw [List.filterMap_cons]
    cases hi : f.issue? args with
    | none =>
      rw [List.filter_cons_of_neg (by simpa using issue_eq_none.mp hi)]
      exact ih
    | some i =>
      have hf : ¬ f.Accepts args := by
        intro h
        rw [issue_eq_none.mpr h] at hi
        cases hi
      rw [List.filter_cons_of_pos (by simpa using hf), List.map_cons, List.map_cons,
        issue_path hi, ih]

theorem reported_iff (hf : f ∈ fields k) :
    Reported ((fields k).filterMap (Field.issue? args)) f ↔ ¬ f.Accepts args := by
  constructor
  · rintro ⟨i, hi, hpath⟩ haccepts
    obtain ⟨g, hg, hissue⟩ := List.mem_filterMap.mp hi
    have hpaths : fieldPath g.key = fieldPath f.key := (issue_path hissue).symm.trans hpath
    -- no two fields share a path, so the issue is about this field
    obtain rfl := List.inj_on_of_nodup_map (paths_nodup k) hg hf hpaths
    rw [issue_eq_none.mpr haccepts] at hissue
    cases hissue
  · intro h
    cases hi : f.issue? args with
    | none => exact absurd (issue_eq_none.mp hi) h
    | some i => exact ⟨i, List.mem_filterMap.mpr ⟨f, hf, hi⟩, issue_path hi⟩

theorem fault_not_discriminator (shape : Shape) (stored : Option Json) (options : List String) :
    shape.fault? stored ≠ some (.invalidDiscriminator options) := by
  have htext : textFault? stored ≠ some (.invalidDiscriminator options) := by
    fun_cases textFault? stored <;> simp
  cases shape with
  | text => exact htext
  | direction =>
    rw [Shape.fault?]
    fun_cases directionFault? stored with
    | case1 => simp
    | case2 => simp
    | case3 => exact htext
  | natural default =>
    rw [Shape.fault?]
    fun_cases naturalFault? stored <;> simp

theorem issue_mended (hm : Mended k ((fields k).filterMap (Field.issue? before)) left before after)
    (hf : f ∈ fields k) :
    f.issue? after = (f.issue? before).filter fun i => i.path ∈ left.map fieldPath := by
  have hmem : fieldPath f.key ∈ left.map fieldPath ↔ f.key ∈ left :=
    List.mem_map_of_injective fieldPath_injective
  -- an accepted field was not touched, and one at fault was either left or mended
  cases hi : f.issue? before with
  | none =>
    have hnot : ¬ Reported ((fields k).filterMap (Field.issue? before)) f := by
      rw [reported_iff hf, not_not]
      exact issue_eq_none.mp hi
    have hsame := hm.kept f hf (.inl hnot)
    rw [Field.issue?, hsame]
    exact hi
  | some i =>
    by_cases hleft : f.key ∈ left
    · have hsame := hm.kept f hf (.inr hleft)
      rw [Option.filter_some, issue_path hi, if_pos (decide_eq_true (hmem.mpr hleft)),
        Field.issue?, hsame]
      exact hi
    · have hreported : Reported ((fields k).filterMap (Field.issue? before)) f :=
        ⟨i, List.mem_filterMap.mpr ⟨f, hf, hi⟩, issue_path hi⟩
      have haccepts := hm.mended f hf hreported hleft
      rw [issue_eq_none.mpr haccepts, Option.filter_some, issue_path hi, if_neg]
      exact fun h => hleft (hmem.mp (of_decide_eq_true h))

theorem issues_mended
    (hm : Mended k ((fields k).filterMap (Field.issue? before)) left before after) :
    (ofArguments after k).issues = ((fields k).filterMap (Field.issue? before)).filter
      fun i => i.path ∈ left.map fieldPath := by
  rw [issues_ofArguments, List.filter_filterMap]
  exact List.filterMap_congr fun f hf => issue_mended hm hf

theorem reading_stored (shape : Shape) (h : args.member? key = some v) (hv : v ≠ .null) :
    Field.reading args ⟨key, shape⟩ = some v := by
  rw [Field.reading, given_some.mpr ⟨h, hv⟩]
  rfl

theorem reading_omitted (shape : Shape) (h : Omitted (args.member? key)) :
    Field.reading args ⟨key, shape⟩ = shape.default? := by
  rw [Field.reading, given_none.mpr h]
  rfl

theorem reading_congr (h : after.member? f.key = before.member? f.key) :
    f.reading after = f.reading before := by
  rw [Field.reading, Field.reading, Json.given?, Json.given?, h]

theorem said_of_agrees (h : Agrees args op) : ∀ f ∈ fields op.kind, said op f = f.reading args := by
  cases op with
  | click | hover | navigate =>
    exact List.forall_mem_singleton.mpr (reading_stored _ h nofun).symm
  | setValue | setValueAndEnter =>
    refine List.forall_mem_cons.mpr ⟨(reading_stored _ h.1 nofun).symm, ?_⟩
    exact List.forall_mem_singleton.mpr (reading_stored _ h.2 nofun).symm
  | scroll d amount =>
    cases amount with
    | none =>
      refine List.forall_mem_cons.mpr ⟨(reading_stored _ h.1 nofun).symm, ?_⟩
      exact List.forall_mem_singleton.mpr (reading_omitted (.natural none) h.2).symm
    | some n =>
      refine List.forall_mem_cons.mpr ⟨(reading_stored _ h.1 nofun).symm, ?_⟩
      exact List.forall_mem_singleton.mpr (reading_stored _ h.2 nofun).symm
  | back | forward => exact fun f hf => absurd hf List.not_mem_nil
  | wait ms =>
    refine List.forall_mem_singleton.mpr ?_
    rcases h with ⟨homitted, rfl⟩ | hn
    · exact (reading_omitted (.natural (some _)) homitted).symm
    · exact (reading_stored _ hn nofun).symm

theorem repaired_given (hv : Gives v k given) (hrejected : validate v = .error issues)
    {other : List (String × Json)} (hw : Gives w k other)
    (hm : Mended k issues [] (.object given) (.object other)) :
    ∃ op, validate w = .ok op ∧ op.kind = k ∧
      ∀ f ∈ fields k, ¬ Reported issues f → said op f = f.reading (.object given) := by
  obtain rfl := issues_given hv hrejected
  have hnone : (ofArguments (.object other) k).issues = [] := by
    rw [issues_mended hm]
    exact List.filter_eq_nil_iff.mpr fun i _ => by simp
  obtain ⟨op, hop⟩ := proper_ofArguments (.object other) k hnone
  obtain rfl := kind_of_ofArguments hop
  refine ⟨op, (validate_given hw).trans hop, rfl, fun f hf hnot => ?_⟩
  have hkept := hm.kept f hf (.inl hnot)
  exact (said_of_agrees (ofArguments_eq_ok.mp hop) f hf).trans (reading_congr hkept)

theorem left_given (hv : Gives v k given) (hrejected : validate v = .error issues)
    {other : List (String × Json)} (hw : Gives w k other)
    (hm : Mended k issues left (.object given) (.object other))
    (hreported : Reported issues f) (hleft : f.key ∈ left) :
    validate w = .error (issues.filter fun i => i.path ∈ left.map fieldPath) := by
  obtain rfl := issues_given hv hrejected
  have hissues := issues_mended hm
  rw [validate_given hw]
  cases hx : ofArguments (.object other) k with
  | error others =>
    rw [hx] at hissues
    exact congrArg Except.error hissues
  | ok op =>
    rw [hx] at hissues
    obtain ⟨i, hi, hpath⟩ := hreported
    have hmem : i ∈ ((fields k).filterMap (Field.issue? (.object given))).filter
        fun i => i.path ∈ left.map fieldPath := by
      rw [List.mem_filter, hpath, decide_eq_true_eq]
      exact ⟨hi, List.mem_map_of_mem hleft⟩
    rw [← hissues] at hmem
    cases hmem

theorem alone_or_gives_of_name (hname : v.member? "name" = some (.string k.name))
    (h : validate v = .error issues) :
    (∃ i, issues = [i] ∧ ∀ options, i.kind ≠ .invalidDiscriminator options) ∨
      ∃ given, Gives v k given := by
  cases hargs : v.given? "args" with
  | none =>
    rw [validate_without (object_of_member hname) hname (given_none.mp hargs)] at h
    exact .inl ⟨_, (withoutArguments_eq_error h).1, nofun⟩
  | some args =>
    obtain ⟨hmember, hnull⟩ := given_some.mp hargs
    by_cases hobject : ∃ given, args = .object given
    · obtain ⟨given, rfl⟩ := hobject
      exact .inr ⟨given, hname, hmember⟩
    · have hother := validate_mistyped hname hmember hnull (not_exists.mp hobject)
      exact .inl ⟨_, issues_unique h hother, nofun⟩

theorem alone_or_gives (h : validate v = .error issues) :
    (∃ i, issues = [i] ∧
      ∀ options, i.kind = .invalidDiscriminator options → UnknownName v) ∨
    ∃ k given, Gives v k given := by
  by_cases hv : ∃ members, v = .object members
  · by_cases hname : ∀ s ∈ schema.variants, v.member? "name" ≠ some (.string s)
    · obtain ⟨fault, herror, hunknown⟩ := validate_unnamed hv hname
      exact .inl ⟨_, issues_unique h herror, hunknown⟩
    · push Not at hname
      obtain ⟨s, hs, hname⟩ := hname
      obtain ⟨k, rfl⟩ := mem_variants.mp hs
      rcases alone_or_gives_of_name hname h with ⟨i, hi, hother⟩ | ⟨given, hgives⟩
      · exact .inl ⟨i, hi, fun options hkind => absurd hkind (hother options)⟩
      · exact .inr ⟨k, given, hgives⟩
  · have herror := validate_not_object (not_exists.mp hv)
    exact .inl ⟨_, issues_unique h herror, nofun⟩

theorem paths_given (hv : Gives v k given) (h : validate v = .error issues) :
    issues.map Issue.path =
      ((fields k).filter fun f => ¬ f.Accepts (.object given)).map fun f => fieldPath f.key := by
  rw [issues_given hv h]
  exact map_path _ _

theorem rejected_nonempty (h : validate v = .error issues) : issues ≠ [] := by
  rcases alone_or_gives h with ⟨i, rfl, _⟩ | ⟨k, given, hv⟩
  · exact List.cons_ne_nil _ _
  · rintro rfl
    rw [validate_given hv] at h
    obtain ⟨op, hop⟩ := proper_ofArguments (.object given) k (by rw [h]; rfl)
    rw [hop] at h
    cases h

theorem rejected_paths (h : validate v = .error issues) : (issues.map Issue.path).Nodup := by
  rcases alone_or_gives h with ⟨i, rfl, _⟩ | ⟨k, given, hv⟩
  · exact List.nodup_singleton _
  · rw [paths_given hv h]
    exact (paths_nodup k).sublist (List.filter_sublist.map _)

/-- An issue is found by its path. -/
theorem filter_path {i : Issue} (hpaths : (issues.map Issue.path).Nodup) (hi : i ∈ issues) :
    issues.filter (fun j => j.path ∈ [i.path]) = [i] := by
  have hsame : ∀ j ∈ issues, decide (j.path ∈ [i.path]) = (j == i) := by
    intro j hj
    rw [Bool.eq_iff_iff, decide_eq_true_eq, beq_iff_eq, List.mem_singleton]
    exact ⟨List.inj_on_of_nodup_map hpaths hj hi, congrArg Issue.path⟩
  rw [List.filter_congr hsame, List.filter_beq, List.count_eq_one_of_mem hpaths.of_map hi]
  rfl

theorem rejected_discriminator (h : validate v = .error issues) {i : Issue} (hi : i ∈ issues)
    {options : List String} (hkind : i.kind = .invalidDiscriminator options) : UnknownName v := by
  rcases alone_or_gives h with ⟨j, rfl, hunknown⟩ | ⟨k, given, hv⟩
  · obtain rfl := List.mem_singleton.mp hi
    exact hunknown options hkind
  · rw [issues_given hv h] at hi
    obtain ⟨f, _, hissue⟩ := List.mem_filterMap.mp hi
    obtain ⟨fault, hfault, rfl⟩ := Option.map_eq_some_iff.mp hissue
    obtain rfl : fault = .invalidDiscriminator options := hkind
    exact absurd hfault (fault_not_discriminator _ _ options)

theorem rejection_reports_every_fault (v : Json) (issues : List Issue)
    (h : validate v = .error issues) : Report v issues where
  nonempty := rejected_nonempty h
  paths := rejected_paths h
  object hv := issues_unique h (validate_not_object hv)
  name hv hname := by
    obtain ⟨fault, herror, _⟩ := validate_unnamed hv hname
    exact ⟨fault, issues_unique h herror⟩
  unknown hunknown := by
    obtain ⟨s, hs, _⟩ := id hunknown
    exact issues_unique h (validate_error_of_kind (object_of_member hs) (kind_unknown hunknown))
  discriminator i hi options hkind := rejected_discriminator h hi hkind
  mistyped k hname args hargs hnull hother :=
    issues_unique h (validate_mistyped hname hargs hnull hother)
  omitted k hname homitted := by
    rw [validate_without (object_of_member hname) hname homitted] at h
    exact withoutArguments_eq_error h
  faults k given hv := paths_given hv h
  repaired k given hv w other hw hm := repaired_given hv h hw hm
  left k given hv w other hw left hm f hreported hleft := left_given hv h hw hm hreported hleft
  leftAlone k given hv w other hw f hreported hm := by
    obtain ⟨i, hi, hpath⟩ := id hreported
    refine ⟨i, hi, hpath, ?_⟩
    rw [left_given hv h hw hm hreported List.mem_cons_self, List.map_singleton, ← hpath,
      filter_path (rejected_paths h) hi]

def scrollArgs (amount : Int) (direction : String) : List (String × Json) :=
  [("amount", .integer amount), ("direction", .string direction)]

def scrollOf (amount : Int) (direction : String) : Json :=
  .object [("name", .string "scroll"), ("args", .object (scrollArgs amount direction))]

theorem gives_scrollOf (amount : Int) (direction : String) :
    Gives (scrollOf amount direction) .scroll (scrollArgs amount direction) := ⟨rfl, rfl⟩

def scrollFaults : List Issue :=
  [⟨"args.direction", .invalidEnum ["up", "down"] "left"⟩,
    ⟨"args.amount", .invalidType "non-negative integer" "number"⟩]

theorem rejection_reports_every_fault_scroll :
    validate (scrollOf (-1) "left") = .error scrollFaults ∧
    (scrollFaults.map Issue.path).Nodup ∧
    (∃ i ∈ scrollFaults, i.path = "args.direction" ∧ validate (scrollOf 5 "left") = .error [i]) ∧
    ∃ op, validate (scrollOf 5 "up") = .ok op ∧ op.kind = .scroll := by
  have hfaulty : validate (scrollOf (-1) "left") = .error scrollFaults := rfl
  have hreport := rejection_reports_every_fault (scrollOf (-1) "left") scrollFaults hfaulty
  have hgiven := gives_scrollOf (-1) "left"
  have hdirection : Reported scrollFaults ⟨"direction", .direction⟩ :=
    ⟨_, List.mem_cons_self, rfl⟩
  have hamount : Reported scrollFaults ⟨"amount", .natural none⟩ :=
    ⟨_, List.mem_cons_of_mem _ List.mem_cons_self, rfl⟩
  have hone : Mended .scroll scrollFaults ["direction"] (.object (scrollArgs (-1) "left"))
      (.object (scrollArgs 5 "left")) := by
    constructor
    · refine List.forall_mem_cons.mpr ⟨fun _ h => absurd List.mem_cons_self h, ?_⟩
      exact List.forall_mem_singleton.mpr fun _ _ => by decide
    · refine List.forall_mem_cons.mpr ⟨fun _ => rfl, List.forall_mem_singleton.mpr ?_⟩
      rintro (hnot | hleft)
      · exact absurd hamount hnot
      · exact absurd hleft (by decide)
  have hboth : Mended .scroll scrollFaults [] (.object (scrollArgs (-1) "left"))
      (.object (scrollArgs 5 "up")) := by
    constructor
    · refine List.forall_mem_cons.mpr ⟨fun _ _ => by decide, ?_⟩
      exact List.forall_mem_singleton.mpr fun _ _ => by decide
    · refine List.forall_mem_cons.mpr ⟨?_, List.forall_mem_singleton.mpr ?_⟩
      · rintro (hnot | hleft)
        · exact absurd hdirection hnot
        · cases hleft
      · rintro (hnot | hleft)
        · exact absurd hamount hnot
        · cases hleft
  have hleft := hreport.leftAlone _ _ hgiven _ _ (gives_scrollOf 5 "left") _ hdirection hone
  obtain ⟨op, hop, hkind, _⟩ := hreport.repaired _ _ hgiven _ _ (gives_scrollOf 5 "up") hboth
  exact ⟨hfaulty, hreport.paths, hleft, op, hop, hkind⟩

end BrowserActions.BrowserOperations
