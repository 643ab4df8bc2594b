import Mathlib
import BrowserActions.Element.Decode
import BrowserActions.Proofs.Decode
import BrowserActions.Proofs.Json.Stable

/-!
# Described elements

A page script describes an element and, in part or not at all, its style. The element is read back
as it was, and what is not said of the style is taken from the standard one. Neither the order of
the members nor members that nobody asked for make a difference.
-/
namespace BrowserActions

open Decode
open Draft (Scattered found? found_scattered scattered_self)
open Json (Entry)

namespace Style

inductive Field where
  | cursor
  | opacity
  | display
  | visibility
  deriving DecidableEq

namespace Field

def all : List Field := [.cursor, .opacity, .display, .visibility]

def name : Field → String
  | .cursor => "cursor"
  | .opacity => "opacity"
  | .display => "display"
  | .visibility => "visibility"

def get : Field → Told → Option String
  | .cursor, t => t.cursor
  | .opacity, t => t.opacity
  | .display, t => t.display
  | .visibility, t => t.visibility

def set : Field → Told → String → Told
  | .cursor, t, v => { t with cursor := some v }
  | .opacity, t, v => { t with opacity := some v }
  | .display, t, v => { t with display := some v }
  | .visibility, t, v => { t with visibility := some v }

theorem mem_all (f : Field) : f ∈ all := by cases f <;> decide

theorem name_injective : Function.Injective name := by
  intro f g h
  revert h
  cases f <;> cases g <;> decide

end Field

def slots : Slots Field Told where
  Value _ := String
  name := Field.name
  omissible _ := true
  get := Field.get
  set := Field.set
  read _ := string
  name_injective := Field.name_injective
  get_set f _ _ := by cases f <;> rfl
  get_set_ne f g _ _ h := by
    cases f <;> cases g <;> first | rfl | exact absurd rfl h

theorem members_eq : record.members = Field.all.map slots.member := rfl

def overlaid (given : Field → Option String) : Style where
  cursor := (given .cursor).getD standard.cursor
  opacity := (given .opacity).getD standard.opacity
  display := (given .display).getD standard.display
  visibility := (given .visibility).getD standard.visibility

def written (given : Field → Option String) : List (String × Json) :=
  Field.all.filterMap fun f => (given f).map fun v => (f.name, .string v)

/-- An object that gives these members, in any order and among others. -/
def ToldBy (given : Field → Option String) (d : Draft) : Prop :=
  ∃ members, d = .object members true ∧
    Scattered record.names (Json.memberDrafts (written given)) members

variable {given : Field → Option String} {f : Field} {d : Draft} {v : String}

theorem mem_written :
    (some f.name, .string v) ∈ Json.memberDrafts (written given) ↔ given f = some v := by
  simp only [Json.memberDrafts_eq_map, written, List.mem_map, List.mem_filterMap,
    Option.map_eq_some_iff]
  constructor
  · rintro ⟨_, ⟨g, -, w, hw, rfl⟩, heq⟩
    obtain ⟨hname, hvalue⟩ := Prod.mk.inj heq
    obtain rfl := Field.name_injective (Option.some.inj hname)
    rwa [← Draft.string.inj hvalue]
  · intro h
    exact ⟨_, ⟨f, f.mem_all, v, h, rfl⟩, rfl⟩

theorem names_written (given : Field → Option String) :
    Draft.names (Json.memberDrafts (written given)) =
      Field.all.filterMap fun f => (given f).map fun _ => some f.name := by
  simp only [Draft.names, Json.memberDrafts_eq_map, written, List.map_filterMap,
    Option.map_map]
  rfl

theorem nodup_written (given : Field → Option String) :
    (Draft.names (Json.memberDrafts (written given))).Nodup := by
  rw [names_written]
  apply List.Nodup.filterMap _ (by decide)
  intro f g name hf hg
  obtain ⟨_, -, hfname⟩ := Option.map_eq_some_iff.mp hf
  obtain ⟨_, -, hgname⟩ := Option.map_eq_some_iff.mp hg
  exact Field.name_injective (Option.some.inj (hfname.trans hgname.symm))

theorem exact_written (given : Field → Option String) : (Json.object (written given)).Exact := by
  apply Json.membersExact_of_forall
  intro m hm
  obtain ⟨f, -, hf⟩ := List.mem_filterMap.mp hm
  obtain ⟨v, -, rfl⟩ := Option.map_eq_some_iff.mp hf
  trivial

theorem found_written (given : Field → Option String) (f : Field) :
    found? f.name (Json.memberDrafts (written given)) = (given f).map .string := by
  cases hgiven : given f with
  | some v => exact (Draft.single_of_nodup (nodup_written given) _).found (mem_written.mpr hgiven)
  | none =>
    rw [Option.map_none, Draft.found_eq_none, names_written]
    intro hmem
    obtain ⟨g, -, hg⟩ := List.mem_filterMap.mp hmem
    obtain ⟨v, hv, hname⟩ := Option.map_eq_some_iff.mp hg
    obtain rfl := Field.name_injective (Option.some.inj hname)
    rw [hgiven] at hv
    cases hv

theorem decode_toldBy (h : ToldBy given d) (hwhole : d.isWhole = true) :
    record.decode true d = .ok (overlaid given) := by
  obtain ⟨members, rfl, hscattered⟩ := h
  have htold : ∀ f ∈ Field.all, (found? f.name (Json.memberDrafts (written given))).map string =
      (given f).map .ok := by
    intro f _
    rw [found_written, Option.map_map]
    rfl
  obtain ⟨t, ht, hslots⟩ := Slots.decode_scattered members_eq true hscattered
    (Json.named_memberDrafts _) (nodup_written given) (hereditary_whole.members hwhole) given htold
    fun f _ => by cases f <;> rfl
  have hget (f : Field) : f.get t = given f := hslots f f.mem_all
  rw [ht]
  refine congrArg Except.ok ?_
  simp only [Told.complete, overlaid, ← hget, Field.get]

end Style

namespace Element

inductive Part where
  | tag
  | attributes
  deriving DecidableEq

namespace Part

def name : Part → String
  | .tag => "tagName"
  | .attributes => "attributes"

def Value : Part → Type
  | .tag => String
  | .attributes => Attributes

def get : (p : Part) → Told → Option p.Value
  | .tag, t => t.tag
  | .attributes, t => t.attributes

def set : (p : Part) → Told → p.Value → Told
  | .tag, t, v => { t with tag := some v }
  | .attributes, t, v => { t with attributes := some v }

def read : (p : Part) → Draft → Result p.Value
  | .tag => string
  | .attributes => fun d => do pure (.ofList (← entries string d))

end Part

def slots : Slots Part Told where
  Value := Part.Value
  name := Part.name
  omissible
    | .tag => false
    | .attributes => true
  get := Part.get
  set := Part.set
  read := Part.read
  name_injective := by
    intro p q h
    revert h
    cases p <;> cases q <;> decide
  get_set p _ _ := by cases p <;> rfl
  get_set_ne p q _ _ h := by
    cases p <;> cases q <;> first | rfl | exact absurd rfl h

theorem members_eq : record.members = [Part.tag, .attributes].map slots.member := by
  have hread : ∀ (t : Told) (d : Draft),
      (do pure { t with attributes := some (.ofList (← entries string d)) } : Result Told) =
        (slots.member .attributes).read t d := by
    intro t d
    change _ = ((entries string d).bind _).bind _
    cases entries string d <;> rfl
  simp only [record, hread]
  rfl

def written (e : Element) (attributes : List (String × String)) : List (String × Json) :=
  [("tagName", .string e.tag), ("attributes", .object (attributes.map fun a => (a.1, .string a.2)))]

/-- An object that gives the parts of an element, each in any order, and other members that are no
parts of it. -/
def ToldBy (e : Element) (d : Draft) : Prop :=
  ∃ attributes members, attributes.Perm e.attributes.entries ∧ d = .object members true ∧
    Scattered record.names (Json.memberDrafts (e.written attributes)) members

variable {e : Element} {d : Draft} {attributes : List (String × String)}

theorem toldBy_toJson (e : Element) : e.ToldBy e.toJson.draft :=
  ⟨e.attributes.entries, _, List.Perm.refl _, rfl, scattered_self _ _⟩

theorem exact_toJson (e : Element) : e.toJson.Exact := by
  have hattributes : Json.MembersExact (e.attributes.entries.map fun a => (a.1, .string a.2)) := by
    apply Json.membersExact_of_forall
    intro m hm
    obtain ⟨a, -, rfl⟩ := List.mem_map.mp hm
    trivial
  exact ⟨trivial, hattributes, trivial⟩

theorem entries_strings (attributes : List (String × String)) :
    entries string (Json.object (attributes.map fun a => (a.1, .string a.2))).draft =
      .ok attributes := by
  induction attributes with
  | nil => rfl
  | cons a attributes ih => exact entries_cons rfl ih

theorem read_attributes (h : attributes.Perm e.attributes.entries) :
    Part.attributes.read (Json.object (attributes.map fun a => (a.1, .string a.2))).draft =
      .ok e.attributes := by
  -- reading puts them in order again
  have hsame : Attributes.ofList attributes = e.attributes := by
    obtain ⟨tag, entries, hascending⟩ := e
    simp only [Attributes.ofList, Keyed.ofList_of_perm hascending h]
  change (entries string _).bind _ = _
  rw [entries_strings]
  exact congrArg Except.ok hsame

theorem decode_toldBy (h : e.ToldBy d) (hwhole : d.isWhole = true) :
    record.decode true d = .ok e := by
  obtain ⟨attributes, members, hperm, rfl, hscattered⟩ := h
  let told : (p : Part) → Option p.Value
    | .tag => some e.tag
    | .attributes => some e.attributes
  have htold : ∀ p ∈ [Part.tag, .attributes],
      (found? p.name (Json.memberDrafts (e.written attributes))).map p.read =
        (told p).map .ok := by
    intro p _
    cases p with
    | tag => rfl
    | attributes => exact congrArg some (read_attributes hperm)
  have hnames : Draft.names (Json.memberDrafts (e.written attributes)) =
      [some "tagName", some "attributes"] := rfl
  obtain ⟨t, ht, hslots⟩ := Slots.decode_scattered members_eq true hscattered
    (Json.named_memberDrafts _) (by rw [hnames]; decide) (hereditary_whole.members hwhole) told
    htold fun p _ => by cases p <;> rfl
  have htag : t.tag = some e.tag := hslots .tag (by decide)
  have hattributes : t.attributes = some e.attributes := hslots .attributes (by decide)
  rw [ht]
  simp only [record, htag, hattributes]
  rfl

end Element

namespace DescribedElement

inductive Part where
  | element
  | style
  deriving DecidableEq

namespace Part

def name : Part → String
  | .element => "element"
  | .style => "style"

def Value : Part → Type
  | .element => Element
  | .style => Style

def get : (p : Part) → Told → Option p.Value
  | .element, t => t.element
  | .style, t => t.style

def set : (p : Part) → Told → p.Value → Told
  | .element, t, v => { t with element := some v }
  | .style, t, v => { t with style := some v }

def read : (p : Part) → Draft → Result p.Value
  | .element => Element.record.decode true
  | .style => Style.record.decode true

end Part

def slots : Slots Part Told where
  Value := Part.Value
  name := Part.name
  omissible
    | .element => false
    | .style => true
  get := Part.get
  set := Part.set
  read := Part.read
  name_injective := by
    intro p q h
    revert h
    cases p <;> cases q <;> decide
  get_set p _ _ := by cases p <;> rfl
  get_set_ne p q _ _ h := by
    cases p <;> cases q <;> first | rfl | exact absurd rfl h

theorem members_eq : record.members = [Part.element, .style].map slots.member := rfl

/-- An object that describes the element, with these members of its style or with no style at all,
and with anything under other names. -/
inductive Describes (e : Element) (given : Style.Field → Option String) : Draft → Prop
  | styled {element style : Draft} {members : List Entry} (he : e.ToldBy element)
      (hstyle : Style.ToldBy given style)
      (h : Scattered record.names [(some "element", element), (some "style", style)] members) :
      Describes e given (.object members true)
  | unstyled {element : Draft} {members : List Entry} (he : e.ToldBy element)
      (hnone : ∀ f, given f = none)
      (h : Scattered record.names [(some "element", element)] members) :
      Describes e given (.object members true)

variable {e : Element} {given : Style.Field → Option String} {d : Draft}

theorem decode_parts {known members : List Entry} (style : Option Style)
    (h : Scattered record.names known members) (hnamed : ∀ m ∈ known, ∃ name, m.1 = some name)
    (hdistinct : (Draft.names known).Nodup) (hwhole : ∀ m ∈ members, m.2.isWhole = true)
    (helement : (found? "element" known).map (Element.record.decode true) = some (.ok e))
    (hstyle : (found? "style" known).map (Style.record.decode true) = style.map .ok) :
    record.decode true (.object members true) = .ok ⟨e, style.getD Style.standard⟩ := by
  let told : (p : Part) → Option p.Value
    | .element => some e
    | .style => style
  have htold : ∀ p ∈ [Part.element, .style],
      (found? p.name known).map p.read = (told p).map .ok := by
    intro p _
    cases p with
    | element => exact helement
    | style => exact hstyle
  obtain ⟨t, ht, hslots⟩ := Slots.decode_scattered members_eq true h hnamed hdistinct hwhole told
    htold fun p _ => by cases p <;> rfl
  have hfirst : t.element = some e := hslots .element (by decide)
  have hsecond : t.style = style := hslots .style (by decide)
  rw [ht]
  simp only [record, hfirst, hsecond]
  rfl

theorem overlaid_none (h : ∀ f, given f = none) : Style.overlaid given = Style.standard := by
  simp only [Style.overlaid, h, Option.getD_none]

theorem decode_describes (h : Describes e given d) (hwhole : d.isWhole = true) :
    record.decode true d = .ok ⟨e, Style.overlaid given⟩ := by
  cases h with
  | styled he hstyle h =>
    -- the drafts of both parts are among the members, and so they are whole
    have hmembers := hereditary_whole.members hwhole
    have helement := Element.decode_toldBy he (hmembers _ (h.mem List.mem_cons_self))
    have hoverlaid := Style.decode_toldBy hstyle
      (hmembers _ (h.mem (List.mem_cons_of_mem _ List.mem_cons_self)))
    apply decode_parts (some (Style.overlaid given)) h (by simp) (by simp [Draft.names]) hmembers
    · exact congrArg some helement
    · exact congrArg some hoverlaid
  | unstyled he hnone h =>
    have hmembers := hereditary_whole.members hwhole
    have helement := Element.decode_toldBy he (hmembers _ (h.mem List.mem_cons_self))
    rw [overlaid_none hnone]
    apply decode_parts none h (by simp) (by simp [Draft.names]) hmembers
    · exact congrArg some helement
    · rfl

/-- A description is read back as the element it describes, with the standard style where it says
nothing of the style, and the verdict is the one on that element under that style. The element as it
is written, with or without a style, is described. -/
theorem described_restored (e : Element) (given : Style.Field → Option String) :
    (∀ text d, Json.reading text = ⟨d, true⟩ → Describes e given d →
      ∃ r, Json.readAs (record.decode true) text = .ok r ∧
        r.element = e ∧ r.style = Style.overlaid given ∧
        r.isActionable = e.isActionable (Style.overlaid given)) ∧
    (let styled := Json.object [("element", e.toJson), ("style", .object (Style.written given))]
     Json.reading styled.compact = ⟨styled.draft, true⟩ ∧ Describes e given styled.draft) ∧
    let unstyled := Json.object [("element", e.toJson)]
    Json.reading unstyled.compact = ⟨unstyled.draft, true⟩ ∧
      Describes e (fun _ => none) unstyled.draft := by
  refine ⟨fun text d hreading h => ?_, ⟨?_, ?_⟩, ?_, ?_⟩
  · have hreads : (Json.reading text).whole = true := by rw [hreading]
    have hwhole : d.isWhole = true := by
      have hfits := (Json.fits_reading hreads).isWhole
      rwa [hreading] at hfits
    refine ⟨⟨e, Style.overlaid given⟩, ?_, rfl, rfl, rfl⟩
    rw [readAs_of_whole _ hreads, hreading]
    exact decode_describes h hwhole
  · apply Json.reading_compact
    exact ⟨e.exact_toJson, Style.exact_written given, trivial⟩
  · exact .styled e.toldBy_toJson ⟨_, rfl, scattered_self _ _⟩ (scattered_self _ _)
  · apply Json.reading_compact
    exact ⟨e.exact_toJson, trivial⟩
  · exact .unstyled e.toldBy_toJson (fun _ => rfl) (scattered_self _ _)

/-- Members in reverse, among others that have their names further inside. One of the attributes is
called like a member. The second description says nothing of the style. -/
theorem described_restored_reversed :
    let e : Element := ⟨"div", .ofList [("onclick", ""), ("tagName", "A")]⟩
    let text := "\x7b\"note\":[\x7b\"style\":null\x7d]," ++
      "\"style\":\x7b\"id\":7,\"opacity\":\"0\"\x7d," ++
      "\"element\":\x7b\"id\":7,\"attributes\":\x7b\"tagName\":\"A\",\"onclick\":\"\"\x7d," ++
      "\"tagName\":\"div\"\x7d\x7d"
    let short := "\x7b\"element\":\x7b\"tagName\":\"div\"," ++
      "\"attributes\":\x7b\"onclick\":\"\",\"tagName\":\"A\"\x7d\x7d\x7d"
    (∃ r, Json.readAs (record.decode true) text.toList = .ok r ∧ r.element = e ∧
        r.style = ⟨"auto", "0", "block", "visible"⟩ ∧ r.isActionable = false) ∧
      ∃ r, Json.readAs (record.decode true) short.toList = .ok r ∧
        r.element = e ∧ r.style = Style.standard ∧ r.isActionable = true := by
  intro e text short
  constructor
  · let given : Style.Field → Option String
      | .opacity => some "0"
      | _ => none
    let id : String × Json := ("id", .integer 7)
    let note : String × Json := ("note", .array [.object [("style", .null)]])
    let style : Json := .object [id, ("opacity", .string "0")]
    let element : Json := .object [id,
      ("attributes", .object [("tagName", .string "A"), ("onclick", .string "")]),
      ("tagName", .string "div")]
    let v : Json := .object [note, ("style", style), ("element", element)]
    have htext : text.toList = v.compact := by decide +kernel
    have hexact : v.Exact := by
      simp [v, note, style, element, id, Json.Exact, Json.ItemsExact, Json.MembersExact,
        Json.IsWord]
    -- in reverse, what belongs to no part comes first
    have helement : e.ToldBy element.draft :=
      ⟨[("tagName", "A"), ("onclick", "")], _, by decide +kernel, rfl,
        [(some "id", .integer 7)], List.reverse_perm [_, _, _], by decide⟩
    have hstyle : Style.ToldBy given style.draft :=
      ⟨_, rfl, [(some "id", .integer 7)], List.reverse_perm [_, _], by decide⟩
    have hdescribes : Describes e given v.draft :=
      .styled helement hstyle
        ⟨[(some "note", note.2.draft)], List.reverse_perm [_, _, _], by decide⟩
    have hverdict : e.isActionable (Style.overlaid given) = false := by decide +kernel
    obtain ⟨r, hr, helement, hstyle, hactionable⟩ :=
      (described_restored e given).1 v.compact v.draft (Json.reading_compact hexact) hdescribes
    rw [htext]
    exact ⟨r, hr, helement, hstyle, hactionable.trans hverdict⟩
  · have hshort : short.toList = (Json.object [("element", e.toJson)]).compact := by decide +kernel
    have hverdict : e.isActionable (Style.overlaid fun _ => none) = true := by decide +kernel
    obtain ⟨hrestored, -, hreading, hdescribes⟩ := described_restored e fun _ => none
    obtain ⟨r, hr, helement, hstyle, hactionable⟩ := hrestored _ _ hreading hdescribes
    rw [hshort]
    exact ⟨r, hr, helement, hstyle, hactionable.trans hverdict⟩

end DescribedElement
end BrowserActions
