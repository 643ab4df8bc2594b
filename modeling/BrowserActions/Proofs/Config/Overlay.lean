import Mathlib
import BrowserActions.Proofs.Config.RoundTrip
import BrowserActions.Proofs.Json.Stable
import BrowserActions.Proofs.Toml.Tidy

/-!
# Partial configurations

A document gives some of the settings, in either format and either layout. What it gives is laid
over one set of defaults, so it makes no difference whether a default is given, nor on which level
it is left out.
-/
namespace BrowserActions

open Decode

theorem Listing.named_of_tidy {ι : Type} (l : Listing ι) {d : Draft} (h : d.Tidy) : l.Named d := by
  cases h with
  | object hnamed hdistinct => exact ⟨hnamed, fun i => Draft.single_of_nodup hdistinct _⟩
  | _ => trivial

namespace Config

inductive Format where
  | toml
  | json
  deriving DecidableEq

namespace Format

def draft? : Format → String → Option Draft
  | .toml, text => (Toml.read? text.toList).map fun t => (Toml.Item.table .headed t).draft
  | .json, text =>
    let r := Json.reading text.toList
    if r.whole then some r.draft else none

def load : Format → String → Except Failure Config
  | .toml, text => ofToml text
  | .json, text => (Json.readAs ((record true).decode true) text.toList).mapError .json

/-- A JSON text with an array ends where the array has to. -/
def exact : Format → Bool
  | .toml => false
  | .json => true

def failure : Format → Error → Failure
  | .toml => .toml
  | .json => .json

variable {format : Format} {text : String} {d : Draft}

theorem draft_toml {table : Toml.Table} (h : Toml.read? text.toList = some table) :
    toml.draft? text = some (Toml.Item.table .headed table).draft := by
  rw [draft?, h]
  rfl

theorem draft_json (h : Json.reading text.toList = ⟨d, true⟩) : json.draft? text = some d := by
  rw [draft?, h]
  rfl

theorem load_eq (h : format.draft? text = some d) :
    format.load text = ((record format.exact).decode format.exact d).mapError format.failure := by
  cases format with
  | toml =>
    obtain ⟨table, htable, rfl⟩ := Option.map_eq_some_iff.mp h
    rw [load, ofToml, htable]
    dsimp only
    change _ = ((record false).decode false _).mapError Failure.toml
    cases (record false).decode false (Toml.Item.table .headed table).draft <;> rfl
  | json =>
    obtain ⟨hwhole, hdraft⟩ := Option.ite_none_right_eq_some.mp h
    cases hdraft
    rw [load, readAs_of_whole _ hwhole]
    rfl

theorem tidy_of_draft (h : toml.draft? text = some d) : d.Tidy := by
  obtain ⟨table, htable, rfl⟩ := Option.map_eq_some_iff.mp h
  exact Toml.tidy_table.mpr (Toml.read_tidy htable)

theorem isWhole_of_draft (h : format.draft? text = some d) : d.isWhole = true := by
  cases format with
  | toml => exact (tidy_of_draft h).isWhole
  | json =>
    obtain ⟨hwhole, hdraft⟩ := Option.ite_none_right_eq_some.mp h
    cases hdraft
    exact (Json.fits_reading hwhole).isWhole

end Format

def Group.listing : Listing Group := ⟨[.polling, .stability, .logging], Group.name⟩

structure Key where
  group : Group
  field : group.Field

namespace Key

variable (k : Key)

def Value : Type := (k.group.fields.slot k.field).Value

def of (c : Config) : k.Value := (k.group.fields.slot k.field).part (k.group.part c)

/-- What a document says to give a value. -/
def draft (v : k.Value) : Draft := (k.group.fields.slot k.field).codec.draft v

/-- What a document says under the name of the setting in its section. -/
def told? (d : Draft) : Option Draft :=
  (Group.listing.told? k.group d).bind (k.group.fields.listing.told? k.field)

end Key

/-- A section that gives some of its settings. -/
def Group.Partial (g : Group) : Draft → Prop :=
  g.fields.listing.Gives fun f e => ∃ v, e = (g.fields.slot f).codec.draft v

/-- A document that gives some of the sections, and in them some of the settings. -/
def Partial : Draft → Prop := Group.listing.Gives Group.Partial

/-- No section comes twice, and no setting in it. -/
structure Named (d : Draft) : Prop where
  groups : Group.listing.Named d
  fields : ∀ g e, Group.listing.told? g d = some e → g.fields.listing.Named e

theorem named_of_tidy {d : Draft} (h : d.Tidy) : Named d where
  groups := Group.listing.named_of_tidy h
  fields g _ he := g.fields.listing.named_of_tidy (Listing.told_of_hereditary hereditary_tidy h he)

def Group.IsDefault (g : Group) (f : g.Field) (e : Draft) : Prop :=
  e = (g.fields.slot f).codec.draft ((g.fields.slot f).part g.standard)

/-- A section that gives nothing but defaults. -/
structure Group.Idle (g : Group) (e : Draft) : Prop where
  gives : g.fields.listing.Gives g.IsDefault e
  named : g.fields.listing.Named e
  whole : e.isWhole = true

theorem Group.idle_empty (g : Group) : g.Idle (.object [] true) :=
  ⟨⟨rfl, nofun⟩, ⟨nofun, fun _ => Nat.zero_le _⟩, rfl⟩

theorem Group.idle_spelled (g : Group) : g.Idle (g.fields.spelled g.standard) where
  gives := ⟨rfl, fun f _ he => Option.some.inj (he.symm.trans (Defaulted.told_spelled _ f))⟩
  named := Defaulted.named_spelled _
  whole := (g.fields.codec true).whole_draft _

/-- A default is added to a section, or its items get their names. -/
def Group.Restated (g : Group) : Draft → Draft → Prop :=
  g.fields.listing.Restated g.IsDefault fun _ _ _ => False

/-- A section with nothing but defaults is added to a document, a section in it is restated, or the
sections get their names. -/
def Restated : Draft → Draft → Prop := Group.listing.Restated Group.Idle Group.Restated

variable (exact : Bool) {g : Group} {d d' e e' : Draft}

theorem read_default {f : g.Field} (h : g.IsDefault f e) :
    (g.fields.slot f).codec.read e = .ok (g.fields.slot f).standard := by
  rw [h, Codec.read_draft, Group.part_standard]

theorem Group.Idle.decode (h : g.Idle e) : g.fields.record.decode exact e = .ok g.standard := by
  obtain ⟨c, hc, hparts⟩ := Defaulted.decode_told exact
    (fun f e he => ⟨_, read_default he⟩) h.gives h.named h.whole
  rw [hc]
  refine congrArg Except.ok (g.fields.ext c g.standard fun f => ?_)
  rw [g.part_standard]
  cases htold : g.fields.listing.told? f e with
  | none => exact (hparts f).2 htold
  | some e' =>
    have hread := (hparts f).1 e' htold
    rw [read_default (h.gives.good f e' htold)] at hread
    exact (Except.ok.inj hread).symm

theorem Group.decode_restated (h : g.Restated e e') :
    g.fields.record.decode exact e = g.fields.record.decode exact e' :=
  Defaulted.decode_restated (fun _ _ he => read_default he) (fun _ _ _ he => he.elim) h

/-- Whatever is said in other words is read as the same, and so is what has a fault elsewhere. -/
theorem decode_restated (h : Relation.EqvGen Restated d d') :
    (record exact).decode exact d = (record exact).decode exact d' := by
  induction h with
  | rel d d' h =>
    have hidle (g : Group) (e : Draft) (he : g.Idle e) := he.decode exact
    have hinner (g : Group) (e e' : Draft) (he : g.Restated e e') := Group.decode_restated exact he
    exact Defaulted.decode_restated (x := groups exact) hidle hinner h
  | refl d => rfl
  | symm d d' _ ih => exact ih.symm
  | trans d d' d'' _ _ ih ih' => exact ih.trans ih'

theorem Group.decode_partial (h : g.Partial e) (hnamed : g.fields.listing.Named e)
    (hwhole : e.isWhole = true) : ∃ c, g.fields.record.decode exact e = .ok c ∧ ∀ f,
      (∀ v, g.fields.listing.told? f e = some ((g.fields.slot f).codec.draft v) →
        (g.fields.slot f).part c = v) ∧
      (g.fields.listing.told? f e = none →
        (g.fields.slot f).part c = (g.fields.slot f).part g.standard) := by
  obtain ⟨c, hc, hparts⟩ := Defaulted.decode_told exact
    (fun f e ⟨v, he⟩ => ⟨v, he ▸ Codec.read_draft _ v⟩) h hnamed hwhole
  refine ⟨c, hc, fun f => ⟨fun v hv => ?_, fun hnone => ?_⟩⟩
  · have hread := (hparts f).1 _ hv
    rw [Codec.read_draft] at hread
    exact (Except.ok.inj hread).symm
  · rw [(hparts f).2 hnone, g.part_standard]

/-- The configuration has what a document gives, and the default of all that it does not give. -/
def Overlays (c : Config) (d : Draft) : Prop :=
  ∀ k : Key, (∀ v, k.told? d = some (k.draft v) → k.of c = v) ∧
    (k.told? d = none → k.of c = k.of standard)

theorem part_standard (g : Group) : g.part standard = g.standard := by cases g <;> rfl

theorem decode_partial (h : Partial d) (hnamed : Named d) (hwhole : d.isWhole = true) :
    ∃ c, (record exact).decode exact d = .ok c ∧ Overlays c d := by
  have hsection (g : Group) (e : Draft) (he : Group.listing.told? g d = some e) :=
    Group.decode_partial exact (h.good g e he) (hnamed.fields g e he)
      (Listing.told_of_hereditary hereditary_whole hwhole he)
  have hgives : Group.listing.Gives (fun g e => ∃ c, g.fields.record.decode exact e = .ok c) d :=
    ⟨h.shaped, fun g e he => (hsection g e he).imp fun _ hc => hc.1⟩
  obtain ⟨c, hc, hparts⟩ :=
    (groups exact).decode_told exact (fun _ _ he => he) hgives hnamed.groups hwhole
  refine ⟨c, hc, fun k => ?_⟩
  rw [Key.told?]
  cases htold : Group.listing.told? k.group d with
  | none =>
    have hpart : k.group.part c = k.group.standard := (hparts k.group).2 htold
    refine ⟨nofun, fun _ => ?_⟩
    rw [Key.of, Key.of, hpart, part_standard]
  | some e =>
    have hread : k.group.fields.record.decode exact e = .ok (k.group.part c) :=
      (hparts k.group).1 e htold
    obtain ⟨section', hdecode, hfields⟩ := hsection k.group e htold
    obtain rfl : k.group.part c = section' := Except.ok.inj (hread.symm.trans hdecode)
    rw [Option.bind_some, Key.of, Key.of, part_standard]
    exact hfields k.field

/-- In either format, a document that gives some of the settings is loaded as the defaults with
these settings laid over them. Adding or removing a default, on either level, and giving a section
as an array or as an object never make a difference to what is loaded. -/
theorem partial_overlays_defaults (format : Format) (text : String) (d : Draft)
    (hd : format.draft? text = some d) :
    (Partial d → (format = .json → Named d) →
      ∃ c, format.load text = .ok c ∧ Overlays c d) ∧
    ∀ text' d', format.draft? text' = some d' → Relation.EqvGen Restated d d' →
      format.load text = format.load text' := by
  constructor
  · intro hpartial hjson
    have hnamed : Named d := by
      cases format with
      | toml => exact named_of_tidy (Format.tidy_of_draft hd)
      | json => exact hjson rfl
    obtain ⟨c, hc, hoverlays⟩ := decode_partial format.exact hpartial hnamed
      (Format.isWhole_of_draft hd)
    refine ⟨c, ?_, hoverlays⟩
    rw [Format.load_eq hd, hc]
    rfl
  · intro text' d' hd' hrestated
    rw [Format.load_eq hd, Format.load_eq hd', decode_restated _ hrestated]

theorem eq_of_keys {c c' : Config} (h : ∀ k : Key, k.of c = k.of c') : c = c' :=
  (groups true).ext c c' fun g => g.fields.ext _ _ fun f => h ⟨g, f⟩

/-- One setting beside a section that is not known. In the other format, a section as an array
behind an empty one, and as an object in front of one that is spelled out. -/
theorem partial_overlays_defaults_stability :
    let short := "[stability]\ntimeout_ms = 900\n\n[other]\nfilter = 1\n"
    let listed := "\x7b\"polling\": \x7b\x7d, \"stability\": [200, 900]\x7d"
    let named := "\x7b\"stability\": \x7b\"interval_ms\": 200, \"timeout_ms\": 900\x7d, " ++
      "\"logging\": \x7b\"filter\": \"info\"\x7d\x7d"
    Format.load .toml short = .ok ⟨.standard, ⟨200, 900, false⟩, .standard⟩ ∧
      Format.load .json listed = Format.load .json named := by
  intro short listed named
  constructor
  · let ss : List Section :=
      [⟨"stability", [("timeout_ms", .integer 900)]⟩, ⟨"other", [("filter", .integer 1)]⟩]
    have hplain : ∀ s ∈ ss, s.Plain := by
      intro s hs
      simp only [ss, List.mem_cons, List.not_mem_nil, or_false] at hs
      rcases hs with rfl | rfl
      · exact ⟨by decide +kernel, by decide⟩
      · exact ⟨by decide +kernel, by decide⟩
    have htext : short.toList = renderSections ss := by decide +kernel
    have hread := read_renderSections hplain (by decide)
    rw [← htext] at hread
    let tables := (ss.map (·.table)).map Toml.headed
    have hpartial : Partial (Toml.Item.table .headed tables).draft := by
      refine ⟨rfl, fun g e he => ?_⟩
      cases g with
      | polling | logging => cases he
      | stability =>
        cases he
        refine ⟨rfl, fun f e he => ?_⟩
        cases f with
        | timeoutMs =>
          cases he
          exact ⟨(900 : UInt64), rfl⟩
        | intervalMs | rejectOnTimeout => cases he
    obtain ⟨c, hc, hoverlays⟩ :=
      (partial_overlays_defaults .toml short _ (Format.draft_toml hread)).1 hpartial nofun
    rw [hc]
    refine congrArg Except.ok (eq_of_keys fun k => ?_)
    obtain ⟨g, f⟩ := k
    cases g with
    | polling => cases f <;> exact (hoverlays ⟨.polling, _⟩).2 rfl
    | stability =>
      cases f with
      | timeoutMs => exact (hoverlays ⟨.stability, .timeoutMs⟩).1 (900 : UInt64) rfl
      | intervalMs => exact (hoverlays ⟨.stability, .intervalMs⟩).2 rfl
      | rejectOnTimeout => exact (hoverlays ⟨.stability, .rejectOnTimeout⟩).2 rfl
    | logging => exact (hoverlays ⟨.logging, ()⟩).2 rfl
  · let polling : Json.Entry := (some "polling", .object [] true)
    let items : List Draft := [.integer 200, .integer 900]
    let array : Json.Entry := (some "stability", .array items true)
    let stability : Json.Entry :=
      (some "stability", .object [(some "interval_ms", .integer 200),
        (some "timeout_ms", .integer 900)] true)
    let logging : Json.Entry := (some "logging", .object [(some "filter", .string "info")] true)
    have hlisted : Format.draft? .json listed = some (.object [polling, array] true) :=
      Format.draft_json (by dsimp only [listed]; rfl)
    have hnamed : Format.draft? .json named = some (.object [stability, logging] true) :=
      Format.draft_json (by dsimp only [named]; rfl)
    have hempty : Restated (.object [array] true) (.object [polling, array] true) :=
      @Listing.Restated.added _ Group.listing Group.Idle Group.Restated .polling _ [] [array]
        (by decide) (by decide) (Group.idle_empty .polling)
    have hinside : Restated (.object [array] true) (.object [stability] true) :=
      @Listing.Restated.inside _ Group.listing Group.Idle Group.Restated .stability _ _ [] []
        (.named (by decide))
    have hspelled : Restated (.object [stability] true) (.object [stability, logging] true) :=
      @Listing.Restated.added _ Group.listing Group.Idle Group.Restated .logging _ [stability] []
        (by decide) (by decide) (Group.idle_spelled .logging)
    exact (partial_overlays_defaults .json listed _ hlisted).2 named _ hnamed
      (.trans _ _ _ (.symm _ _ (.rel _ _ hempty))
        (.trans _ _ _ (.rel _ _ hinside) (.rel _ _ hspelled)))

end Config
end BrowserActions
