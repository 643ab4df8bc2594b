import Mathlib
import BrowserActions.Schema.Browser
import BrowserActions.Proofs.Json.RoundTrip

/-!
# Written operations validate

An operation that was written and read back is accepted as the same operation. Each reader of a
field has a lemma that says what it makes of the member it finds.
-/
namespace BrowserActions.BrowserOperations

open Json (IsWord MembersExact membersDepth ordered given_ordered_some given_ordered_none)

theorem isWord_toNat (n : UInt64) : IsWord n.toNat := by
  have hlt := n.toNat_lt_size
  constructor
  · simp only [Number.twoTo]
    omega
  · exact_mod_cast hlt

theorem exact_arguments : ∀ op : Operation, MembersExact op.arguments
  | .click _ | .hover _ | .navigate _ | .scroll _ none => ⟨trivial, trivial⟩
  | .setValue _ _ | .setValueAndEnter _ _ => ⟨trivial, trivial, trivial⟩
  | .scroll _ (some n) => ⟨trivial, isWord_toNat n, trivial⟩
  | .back | .forward => trivial
  | .wait n => ⟨isWord_toNat n, trivial⟩

theorem depth_arguments : ∀ op : Operation, membersDepth op.arguments = 0
  | .click _ | .hover _ | .navigate _ | .scroll _ none => rfl
  | .setValue _ _ | .setValueAndEnter _ _ | .scroll _ (some _) => rfl
  | .back | .forward | .wait _ => rfl

variable {key : String} {args : Json}

theorem text_of_string {s : String} (h : args.given? key = some (.string s)) :
    text key args = .ok s := by
  rw [text, h]

theorem direction_of_name {d : Direction} (h : args.given? key = some (.string d.name)) :
    direction key args = .ok d := by
  have hd : Direction.ofName? d.name = some d := by cases d <;> decide
  rw [direction, text_of_string h]
  simp only [bind, Except.bind, hd]

theorem natural_toNat (n : UInt64) : natural? (.integer n.toNat) = some n := by
  have hlt := n.toNat_lt_size
  simp only [natural?]
  rw [if_pos ⟨Int.natCast_nonneg _, Int.ofNat_lt.mpr hlt⟩, Int.toNat_natCast, UInt64.ofNat_toNat]

theorem optionalNatural_of_some {v : Json} {n : UInt64} (h : args.given? key = some v)
    (hn : natural? v = some n) : optionalNatural key args = .ok (some n) := by
  rw [optionalNatural, h]
  simp only [hn]

theorem optionalNatural_of_none (h : args.given? key = none) :
    optionalNatural key args = .ok none := by
  rw [optionalNatural, h]

theorem kind_ofName_name (k : Operation.Kind) : Operation.Kind.ofName? k.name = some k := by
  cases k <;> decide

theorem validate_object {members arguments : List (String × Json)} {k : Operation.Kind} {v : Json}
    (hv : v = .object members) (hname : v.given? "name" = some (.string k.name))
    (hargs : v.given? "args" = some (.object arguments)) :
    validate v = ofArguments (.object arguments) k := by
  have hkind : kind v = .ok k := by
    rw [kind, hname]
    simp only [kind_ofName_name]
  subst hv
  rw [validate, hkind, hargs]
  rfl

theorem ofArguments_ordered (op : Operation) :
    ofArguments (ordered (.object op.arguments)) op.kind = .ok op := by
  cases op with
  | click xpath | hover xpath | navigate url =>
    rw [Operation.kind, ofArguments, text_of_string (given_ordered_some rfl rfl nofun)]
    rfl
  | setValue xpath value | setValueAndEnter xpath value =>
    rw [Operation.kind, ofArguments, text_of_string (given_ordered_some rfl rfl nofun),
      text_of_string (given_ordered_some rfl rfl nofun)]
    rfl
  | scroll d amount =>
    cases amount with
    | none =>
      rw [Operation.kind, ofArguments, direction_of_name (given_ordered_some rfl rfl nofun),
        optionalNatural_of_none (given_ordered_none rfl)]
      rfl
    | some n =>
      have hn : (ordered (.object (Operation.scroll d (some n)).arguments)).given? "amount" =
          some (.integer n.toNat) := given_ordered_some rfl rfl nofun
      rw [Operation.kind, ofArguments, direction_of_name (given_ordered_some rfl rfl nofun),
        optionalNatural_of_some hn (natural_toNat n)]
      rfl
  | back | forward => rfl
  | wait n =>
    have hn : (ordered (.object (Operation.wait n).arguments)).given? "duration_ms" =
        some (.integer n.toNat) := given_ordered_some rfl rfl nofun
    rw [Operation.kind, ofArguments, optionalNatural_of_some hn (natural_toNat n)]
    rfl

theorem validate_ordered (op : Operation) : validate op.toJson.ordered = .ok op := by
  rw [← ofArguments_ordered op]
  exact validate_object rfl (given_ordered_some rfl rfl nofun) (given_ordered_some rfl rfl nofun)

end BrowserActions.BrowserOperations
