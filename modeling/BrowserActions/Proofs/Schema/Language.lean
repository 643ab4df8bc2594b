import Mathlib
import BrowserActions.Proofs.Schema.Field

/-!
# The language of operations

An operation is accepted from exactly the objects that say it: its name, and arguments in which
each of its fields stands under its own key. An amount may be omitted, and so may the duration of
a wait, which is a second then. Nothing else in the object counts.
-/
namespace BrowserActions.BrowserOperations

/-- Arguments that say the fields of an operation. -/
def Agrees (args : Json) : Operation → Prop
  | .click xpath | .hover xpath => args.member? "xpath" = some (.string xpath)
  | .setValue xpath value | .setValueAndEnter xpath value =>
    args.member? "xpath" = some (.string xpath) ∧ args.member? "value" = some (.string value)
  | .scroll d none =>
    args.member? "direction" = some (.string d.name) ∧ Omitted (args.member? "amount")
  | .scroll d (some n) =>
    args.member? "direction" = some (.string d.name) ∧
      args.member? "amount" = some (.integer n.toNat)
  | .navigate url => args.member? "url" = some (.string url)
  | .back | .forward => True
  | .wait ms =>
    (Omitted (args.member? "duration_ms") ∧ ms = 1000) ∨
      args.member? "duration_ms" = some (.integer ms.toNat)

/-- Values that say an operation. Only three operations are said without arguments. -/
structure Documented (v : Json) (op : Operation) : Prop where
  object : ∃ members, v = .object members
  name : v.member? "name" = some (.string op.kind.name)
  arguments : (∃ given, v.member? "args" = some (.object given) ∧ Agrees (.object given) op) ∨
    (Omitted (v.member? "args") ∧ (op = .back ∨ op = .forward ∨ op = .wait 1000))

/-- Objects that differ in members only that a kind of operation does not know. -/
structure SameMembers (k : Operation.Kind) (v w : Json) : Prop where
  objects : (∃ members, v = .object members) ∧ ∃ members, w = .object members
  name : v.member? "name" = w.member? "name"
  args : v.member? "args" = w.member? "args" ∨
    ∃ a b, v.member? "args" = some (.object a) ∧ w.member? "args" = some (.object b) ∧
      ∀ f ∈ fields k, (Json.object a).member? f.key = (Json.object b).member? f.key

/-- A number with a fraction or an exponent, or beneath zero. -/
def NotNatural (number : Json) : Prop :=
  (∃ x, number = .double x) ∨ ∃ i < 0, number = .integer i

variable {α β γ : Type} {v w args number : Json} {op : Operation} {k : Operation.Kind}

theorem map_eq_ok {x : Checked α} {g : α → β} {b : β} :
    (x.map g : Checked β) = .ok b ↔ ∃ a, x = .ok a ∧ g a = b := by
  cases x with
  | ok a => simp [Except.map]
  | error issues => simp [Except.map]

theorem both_eq_ok {x : Checked α} {y : Checked β} {g : α → β → γ} {c : γ} :
    Checked.both g x y = .ok c ↔ ∃ a b, x = .ok a ∧ y = .ok b ∧ g a b = c := by
  cases x with
  | ok a => cases y <;> simp [Checked.both]
  | error issues => cases y <;> simp [Checked.both]

theorem kind_of_ofArguments (h : ofArguments args k = .ok op) : op.kind = k := by
  cases k with
  | click | hover | navigate | wait =>
    obtain ⟨_, _, rfl⟩ := map_eq_ok.mp h
    rfl
  | setValue | setValueAndEnter | scroll =>
    obtain ⟨_, _, _, _, rfl⟩ := both_eq_ok.mp h
    rfl
  | back | forward =>
    cases h
    rfl

theorem ofArguments_eq_ok : ofArguments args op.kind = .ok op ↔ Agrees args op := by
  cases op with
  | click xpath | hover xpath | navigate url =>
    constructor
    · intro h
      obtain ⟨s, hs, hop⟩ := map_eq_ok.mp h
      cases hop
      exact text_eq_ok.mp hs
    · intro h
      exact map_eq_ok.mpr ⟨_, text_eq_ok.mpr h, rfl⟩
  | setValue xpath value | setValueAndEnter xpath value =>
    constructor
    · intro h
      obtain ⟨s, t, hs, ht, hop⟩ := both_eq_ok.mp h
      cases hop
      exact ⟨text_eq_ok.mp hs, text_eq_ok.mp ht⟩
    · intro h
      exact both_eq_ok.mpr ⟨_, _, text_eq_ok.mpr h.1, text_eq_ok.mpr h.2, rfl⟩
  | scroll d amount =>
    constructor
    · intro h
      obtain ⟨d', m, hd, hm, hop⟩ := both_eq_ok.mp h
      cases hop
      rcases optionalNatural_eq_ok.mp hm with ⟨rfl, homitted⟩ | ⟨n, rfl, hn⟩
      · exact ⟨direction_eq_ok.mp hd, homitted⟩
      · exact ⟨direction_eq_ok.mp hd, hn⟩
    · intro h
      cases amount with
      | none =>
        have hm := optionalNatural_eq_ok.mpr (.inl ⟨rfl, h.2⟩)
        exact both_eq_ok.mpr ⟨_, _, direction_eq_ok.mpr h.1, hm, rfl⟩
      | some n =>
        have hm := optionalNatural_eq_ok.mpr (.inr ⟨n, rfl, h.2⟩)
        exact both_eq_ok.mpr ⟨_, _, direction_eq_ok.mpr h.1, hm, rfl⟩
  | back | forward => exact ⟨fun _ => trivial, fun _ => rfl⟩
  | wait ms =>
    constructor
    · intro h
      obtain ⟨m, hm, hop⟩ := map_eq_ok.mp h
      cases hop
      rcases optionalNatural_eq_ok.mp hm with ⟨rfl, homitted⟩ | ⟨n, rfl, hn⟩
      · exact .inl ⟨homitted, rfl⟩
      · exact .inr hn
    · rintro (⟨homitted, rfl⟩ | hn)
      · exact map_eq_ok.mpr ⟨none, optionalNatural_eq_ok.mpr (.inl ⟨rfl, homitted⟩), rfl⟩
      · exact map_eq_ok.mpr ⟨some ms, optionalNatural_eq_ok.mpr (.inr ⟨ms, rfl, hn⟩), rfl⟩

theorem withoutArguments_eq_ok :
    withoutArguments k = .ok op ↔ op.kind = k ∧ (op = .back ∨ op = .forward ∨ op = .wait 1000) := by
  constructor
  · intro h
    cases k with
    | back => cases h; exact ⟨rfl, .inl rfl⟩
    | forward => cases h; exact ⟨rfl, .inr (.inl rfl)⟩
    | wait => cases h; exact ⟨rfl, .inr (.inr rfl)⟩
    | _ => cases h
  · rintro ⟨rfl, rfl | rfl | rfl⟩
    · rfl
    · rfl
    · rfl

theorem kind_eq_ok : kind v = .ok k ↔ v.member? "name" = some (.string k.name) := by
  constructor
  · intro h
    rw [kind] at h
    split at h
    next s hs =>
      split at h
      next hk =>
        cases h
        rw [← (kind_ofName s k).mp hk]
        exact (given_some.mp hs).1
      next => cases h
    next => cases h
    next => cases h
  · intro h
    rw [kind, given_string h]
    simp only [kind_ofName_name]

theorem validate_named {members : List (String × Json)} (hv : v = .object members)
    (hname : v.member? "name" = some (.string k.name)) :
    validate v =
      match v.given? "args" with
      | none => withoutArguments k
      | some (.object given) => ofArguments (.object given) k
      | some other => .error [⟨"args", .invalidType "object" other.typeName⟩] := by
  have hkind := kind_eq_ok.mpr hname
  subst hv
  rw [validate, hkind]
  rfl

theorem validate_without (hv : ∃ members, v = .object members)
    (hname : v.member? "name" = some (.string k.name)) (hargs : Omitted (v.member? "args")) :
    validate v = withoutArguments k := by
  obtain ⟨members, hv⟩ := hv
  rw [validate_named hv hname, given_none.mpr hargs]

theorem validate_with {given : List (String × Json)} (hv : ∃ members, v = .object members)
    (hname : v.member? "name" = some (.string k.name))
    (hargs : v.member? "args" = some (.object given)) :
    validate v = ofArguments (.object given) k := by
  obtain ⟨members, hv⟩ := hv
  rw [validate_named hv hname, given_some.mpr ⟨hargs, nofun⟩]

theorem validate_error_of_kind {issues : List Issue} (hv : ∃ members, v = .object members)
    (h : kind v = .error issues) : validate v = .error issues := by
  obtain ⟨members, rfl⟩ := hv
  rw [validate, h]
  rfl

theorem object_of_member {key : String} (h : v.member? key = some w) :
    ∃ members, v = .object members := by
  cases v with
  | object members => exact ⟨members, rfl⟩
  | _ => cases h

theorem object_of_ok (h : validate v = .ok op) : ∃ members, v = .object members := by
  cases v with
  | object members => exact ⟨members, rfl⟩
  | _ => cases h

theorem documented_of_ok (h : validate v = .ok op) : Documented v op := by
  obtain ⟨members, hv⟩ := object_of_ok h
  cases hk : kind v with
  | error issues =>
    rw [validate_error_of_kind ⟨members, hv⟩ hk] at h
    cases h
  | ok k =>
    have hname := kind_eq_ok.mp hk
    rw [validate_named hv hname] at h
    split at h
    next hargs =>
      obtain ⟨rfl, hop⟩ := withoutArguments_eq_ok.mp h
      exact ⟨⟨members, hv⟩, hname, .inr ⟨given_none.mp hargs, hop⟩⟩
    next given hargs =>
      obtain rfl := kind_of_ofArguments h
      exact ⟨⟨members, hv⟩, hname, .inl ⟨given, (given_some.mp hargs).1, ofArguments_eq_ok.mp h⟩⟩
    next => cases h

theorem ok_of_documented (h : Documented v op) : validate v = .ok op := by
  rcases h.arguments with ⟨given, hargs, hagrees⟩ | ⟨homitted, hop⟩
  · rw [validate_with h.object h.name hargs]
    exact ofArguments_eq_ok.mpr hagrees
  · rw [validate_without h.object h.name homitted]
    exact withoutArguments_eq_ok.mpr ⟨rfl, hop⟩

theorem agrees_congr {a b : Json}
    (h : ∀ f ∈ fields op.kind, a.member? f.key = b.member? f.key) (ha : Agrees a op) :
    Agrees b op := by
  have hfirst := fun f rest (hf : fields op.kind = f :: rest) =>
    h f (by rw [hf]; exact List.mem_cons_self)
  have hsecond := fun f g (hf : fields op.kind = [f, g]) =>
    h g (by rw [hf]; exact List.mem_cons_of_mem _ List.mem_cons_self)
  cases op with
  | click | hover | navigate => exact (hfirst _ _ rfl).symm.trans ha
  | setValue | setValueAndEnter =>
    exact ⟨(hfirst _ _ rfl).symm.trans ha.1, (hsecond _ _ rfl).symm.trans ha.2⟩
  | scroll d amount =>
    have hamount : a.member? "amount" = b.member? "amount" := hsecond _ _ rfl
    cases amount with
    | none => exact ⟨(hfirst _ _ rfl).symm.trans ha.1, hamount ▸ ha.2⟩
    | some n => exact ⟨(hfirst _ _ rfl).symm.trans ha.1, hamount ▸ ha.2⟩
  | back | forward => trivial
  | wait ms =>
    have hduration : a.member? "duration_ms" = b.member? "duration_ms" := hfirst _ _ rfl
    rcases ha with ⟨homitted, hms⟩ | hn
    · exact .inl ⟨hduration ▸ homitted, hms⟩
    · exact .inr (hduration ▸ hn)

theorem SameMembers.symm (h : SameMembers k v w) : SameMembers k w v := by
  refine ⟨⟨h.objects.2, h.objects.1⟩, h.name.symm, ?_⟩
  rcases h.args with heq | ⟨a, b, ha, hb, hfields⟩
  · exact .inl heq.symm
  · exact .inr ⟨b, a, hb, ha, fun f hf => (hfields f hf).symm⟩

theorem Documented.same (hd : Documented v op) (h : SameMembers op.kind v w) :
    Documented w op := by
  refine ⟨h.objects.2, h.name ▸ hd.name, ?_⟩
  rcases h.args with heq | ⟨a, b, ha, hb, hfields⟩
  · rw [← heq]
    exact hd.arguments
  · rcases hd.arguments with ⟨given, hargs, hagrees⟩ | ⟨homitted, _⟩
    · obtain rfl : given = a := by
        rw [hargs] at ha
        cases ha
        rfl
      exact .inl ⟨b, hb, agrees_congr hfields hagrees⟩
    · rw [ha] at homitted
      rcases homitted with h | h <;> cases h

theorem not_omitted_of_notNatural (h : NotNatural number) : ¬ Omitted (some number) := by
  rintro (hnone | hnull)
  · cases hnone
  · obtain rfl := Option.some.inj hnull
    rcases h with ⟨x, hx⟩ | ⟨i, _, hi⟩
    · cases hx
    · cases hi

theorem not_word_of_notNatural (h : NotNatural number) (n : UInt64) :
    number ≠ .integer n.toNat := by
  rintro rfl
  rcases h with ⟨x, hx⟩ | ⟨i, hneg, hi⟩
  · cases hx
  · cases hi
    exact absurd hneg (Int.not_lt.mpr (Int.natCast_nonneg _))

theorem documented_number (hd : Documented v op) (hargs : v.member? "args" = some args)
    (h : NotNatural number) :
    (op.kind = .scroll → args.member? "amount" ≠ some number) ∧
      (op.kind = .wait → args.member? "duration_ms" ≠ some number) := by
  have hagrees : args ≠ .null → Agrees args op := by
    intro hnull
    rcases hd.arguments with ⟨given, hgiven, hagrees⟩ | ⟨homitted, _⟩
    · rw [hargs] at hgiven
      cases hgiven
      exact hagrees
    · rw [hargs] at homitted
      rcases homitted with h | h
      · cases h
      · exact absurd (Option.some.inj h) hnull
  have hnull : ∀ key, args.member? key = some number → args ≠ .null := by
    rintro key hkey rfl
    cases hkey
  constructor
  · intro hk hnumber
    have ha := hagrees (hnull _ hnumber)
    cases op with
    | scroll d amount =>
      cases amount with
      | none => exact not_omitted_of_notNatural h (hnumber ▸ ha.2)
      | some n => exact not_word_of_notNatural h n (Option.some.inj (hnumber.symm.trans ha.2))
    | _ => cases hk
  · intro hk hnumber
    have ha := hagrees (hnull _ hnumber)
    cases op with
    | wait ms =>
      rcases ha with ⟨homitted, _⟩ | hn
      · exact not_omitted_of_notNatural h (hnumber ▸ homitted)
      · exact not_word_of_notNatural h ms (Option.some.inj (hnumber.symm.trans hn))
    | _ => cases hk

theorem validate_accepts_documented (v : Json) (op : Operation) :
    (validate v = .ok op ↔ Documented v op) ∧
    (∀ w, SameMembers op.kind v w → (validate v = .ok op ↔ validate w = .ok op)) ∧
    ∀ args number, v.member? "args" = some args → NotNatural number → validate v = .ok op →
      (op.kind = .scroll → args.member? "amount" ≠ some number) ∧
      (op.kind = .wait → args.member? "duration_ms" ≠ some number) := by
  refine ⟨⟨documented_of_ok, ok_of_documented⟩, fun w hsame => ⟨fun h => ?_, fun h => ?_⟩, ?_⟩
  · exact ok_of_documented ((documented_of_ok h).same hsame)
  · exact ok_of_documented ((documented_of_ok h).same hsame.symm)
  · intro args number hargs hnumber h
    exact documented_number (documented_of_ok h) hargs hnumber

def scrollSaid : Json :=
  .object [("name", .string "scroll"), ("note", .null),
    ("args", .object [("amount", .integer 5), ("direction", .string "up"), ("x", .bool true)])]

def scrollBare : Json :=
  .object [("name", .string "scroll"),
    ("args", .object [("amount", .integer 5), ("direction", .string "up")])]

def minusZero : Json := .double ⟨true, 0, by decide⟩

def waitMinusZero : Json :=
  .object [("name", .string "wait"), ("args", .object [("duration_ms", minusZero)])]

theorem validate_accepts_documented_scroll :
    (Documented scrollSaid (.scroll .up (some 5)) ∧
      validate scrollSaid = .ok (.scroll .up (some 5))) ∧
    (SameMembers .scroll scrollSaid scrollBare ∧
      validate scrollBare = .ok (.scroll .up (some 5))) ∧
    NotNatural minusZero ∧ validate waitMinusZero ≠ .ok (.wait 0) := by
  have hsaid : Documented scrollSaid (.scroll .up (some 5)) :=
    ⟨⟨_, rfl⟩, rfl, .inl ⟨_, rfl, rfl, rfl⟩⟩
  have hsame : SameMembers .scroll scrollSaid scrollBare := by
    refine ⟨⟨⟨_, rfl⟩, _, rfl⟩, rfl, .inr ⟨_, _, rfl, rfl, ?_⟩⟩
    intro f hf
    rcases List.mem_cons.mp hf with rfl | hf
    · rfl
    · rw [List.mem_singleton.mp hf]
      rfl
  have hscroll := validate_accepts_documented scrollSaid (.scroll .up (some 5))
  have hwait := validate_accepts_documented waitMinusZero (.wait 0)
  have hnumber : NotNatural minusZero := .inl ⟨_, rfl⟩
  have hok := hscroll.1.mpr hsaid
  refine ⟨⟨hsaid, hok⟩, ⟨hsame, (hscroll.2.1 scrollBare hsame).mp hok⟩, hnumber, fun h => ?_⟩
  exact (hwait.2.2 _ minusZero rfl hnumber h).2 rfl rfl

end BrowserActions.BrowserOperations
