import Mathlib
import BrowserActions.Config.Lookup
import BrowserActions.Proofs.Config.Settings
import BrowserActions.Proofs.Files
import BrowserActions.Proofs.Toml.Document

/-!
# Saved configurations

What is written for sections with plain names and values that fit is read back as these sections,
whichever settings there are. So a configuration that fits survives saving and loading, and one that
does not is refused before any file is touched.
-/
namespace BrowserActions.Config

open Toml Number

def Setting.item : Setting → Item
  | .integer n => .integer n
  | .boolean b => .boolean b
  | .string s => .string s

theorem denotes_setting {s : Setting} (h : s.fits = true) : Denotes s.render s.item := by
  cases s with
  | integer n => exact denotes_integer (of_decide_eq_true h)
  | boolean b =>
    have hdenotes := denotes_boolean b
    cases b <;> exact hdenotes
  | string s => exact denotes_string s

namespace Section

def table (s : Section) : String × Table := (s.name, s.settings.map fun e => (e.1, e.2.item))

def spelled (s : Section) : List (List Char × Line) :=
  ('[' :: (s.name.toList ++ [']', '\n']), .header [] s.name false) ::
    s.settings.map fun e =>
      (e.1.toList ++ ([' ', '=', ' '] ++ (e.2.render ++ ['\n'])), .pair (pairOf (e.1, e.2.item)))

def Named (name : String) (keys : List String) : Prop :=
  Bare name ∧ (∀ k ∈ keys, Bare k) ∧ keys.Nodup

instance (name : String) (keys : List String) : Decidable (Named name keys) :=
  inferInstanceAs (Decidable (_ ∧ _ ∧ _))

structure Plain (s : Section) : Prop where
  named : Named s.name (s.settings.map (·.1))
  fits : s.fits = true

theorem Plain.spells {s : Section} (h : s.Plain) : ∀ e ∈ s.spelled, Spells e.1 e.2 := by
  rw [spelled, List.forall_mem_cons]
  obtain ⟨hname, hkeys, -⟩ := h.named
  refine ⟨spells_header hname, fun e he => ?_⟩
  obtain ⟨setting, hsetting, rfl⟩ := List.mem_map.mp he
  exact spells_pair (hkeys _ (List.mem_map_of_mem hsetting))
    (denotes_setting (List.all_eq_true.mp h.fits _ hsetting))

theorem render_eq (s : Section) : s.render = s.spelled.flatMap (·.1) := by
  rw [render, spelled, List.flatMap_cons, List.flatMap_map]
  simp only [List.append_assoc, List.cons_append]

theorem lines_eq (s : Section) : s.spelled.map (·.2) = tableLines s.table := by
  simp only [spelled, tableLines, table, List.map_cons, List.map_map]
  rfl

theorem Plain.distinct_table {s : Section} (h : s.Plain) : Distinct s.table.2 := by
  have hkeys : (s.settings.map fun e => (e.1, e.2.item)).map (·.1) = s.settings.map (·.1) := by
    rw [List.map_map]
    rfl
  rw [Distinct, table, hkeys]
  exact h.named.2.2

end Section

def spelledSections : List Section → List (List Char × Line)
  | [] => []
  | [s] => s.spelled
  | s :: t :: rest => s.spelled ++ (['\n'], .blank) :: spelledSections (t :: rest)

theorem renderSections_eq (ss : List Section) :
    renderSections ss = (spelledSections ss).flatMap (·.1) := by
  induction ss using renderSections.induct with
  | case1 => rfl
  | case2 s => exact s.render_eq
  | case3 s t rest ih =>
    rw [renderSections, spelledSections, List.flatMap_append, List.flatMap_cons, ← ih, s.render_eq]
    rfl

theorem spells_sections {ss : List Section} (h : ∀ s ∈ ss, s.Plain) :
    ∀ e ∈ spelledSections ss, Spells e.1 e.2 := by
  induction ss using renderSections.induct with
  | case1 => exact List.forall_mem_nil _
  | case2 s => exact (h s List.mem_cons_self).spells
  | case3 s t rest ih =>
    obtain ⟨hs, hmore⟩ := List.forall_mem_cons.mp h
    rw [spelledSections, List.forall_mem_append, List.forall_mem_cons]
    exact ⟨hs.spells, spells_blank, ih hmore⟩

theorem ofLines_sections (ss : List Section) :
    Document.ofLines ((spelledSections ss).map (·.2)) = ⟨[], (ss.map (·.table)).map partOf⟩ := by
  induction ss using renderSections.induct with
  | case1 => rfl
  | case2 s =>
    rw [spelledSections, s.lines_eq, ← List.append_nil (tableLines s.table)]
    exact ofLines_table s.table rfl
  | case3 s t rest ih =>
    rw [spelledSections, List.map_append, List.map_cons, s.lines_eq]
    exact ofLines_table s.table ih

theorem head_sections (ss : List Section) : (renderSections ss).head? ≠ some '\ufeff' := by
  have hsection : ∀ (s : Section) rest, (s.render ++ rest).head? = some '[' := fun _ _ => rfl
  intro hmark
  cases ss with
  | nil => cases hmark
  | cons s rest =>
    cases rest with
    | nil => exact absurd (Option.some.inj hmark) (by decide)
    | cons t rest =>
      rw [renderSections, hsection] at hmark
      exact absurd (Option.some.inj hmark) (by decide)

theorem read_renderSections {ss : List Section} (h : ∀ s ∈ ss, s.Plain)
    (hnames : (ss.map (·.name)).Nodup) :
    Toml.read? (renderSections ss) = some ((ss.map (·.table)).map headed) := by
  have hhead := head_sections ss
  rw [renderSections_eq] at hhead ⊢
  refine read_tables (spells_sections h) (ofLines_sections ss) hhead ?_ ?_
  · have hsame : ((ss.map (·.table)).map headed).map (·.1) = ss.map (·.name) := by
      rw [List.map_map, List.map_map]
      rfl
    rw [Distinct, hsame]
    exact hnames
  · intro t ht
    obtain ⟨s, hs, rfl⟩ := List.mem_map.mp ht
    exact (h s hs).distinct_table

/-- The durations are no larger than a signed integer can be. -/
def Fits (c : Config) : Prop :=
  c.polling.intervalMs.toNat < 2 ^ 63 ∧ c.stability.intervalMs.toNat < 2 ^ 63 ∧
    c.stability.timeoutMs.toNat < 2 ^ 63

instance (c : Config) : Decidable c.Fits := inferInstanceAs (Decidable (_ ∧ _ ∧ _))

theorem fits_integer (n : Nat) : (Setting.integer n).fits = true ↔ n < 2 ^ 63 :=
  decide_eq_true_iff

theorem sections_fit (c : Config) : c.sections.all Section.fits = true ↔ c.Fits := by
  have hchecks : c.polling.maxChecks.toNat < 2 ^ 63 :=
    c.polling.maxChecks.toNat_lt.trans (by decide)
  have hboolean : ∀ b, (Setting.boolean b).fits = true := fun _ => rfl
  have hstring : ∀ s, (Setting.string s).fits = true := fun _ => rfl
  simp only [sections, Section.fits, List.all_cons, List.all_nil, Bool.and_eq_true, fits_integer,
    hboolean, hstring, hchecks, Fits, and_true]

theorem plain_sections {c : Config} (h : c.Fits) : ∀ s ∈ c.sections, s.Plain := by
  have hnamed : ∀ n ∈ c.sections.map fun s => (s.name, s.settings.map (·.1)),
      Section.Named n.1 n.2 := by
    change ∀ n ∈ [("polling", ["interval_ms", "max_checks", "reject_on_timeout"]),
      ("stability", ["interval_ms", "timeout_ms", "reject_on_timeout"]), ("logging", ["filter"])],
      Section.Named n.1 n.2
    decide +kernel
  exact fun s hs => ⟨hnamed _ (List.mem_map_of_mem hs),
    List.all_eq_true.mp ((sections_fit c).mpr h) s hs⟩

theorem decode_sections (c : Config) :
    (record false).decode false
      (Item.table .headed ((c.sections.map (·.table)).map headed)).draft = .ok c :=
  (groups false).decode_spelled c

theorem ofToml_of_read {text : String} {table : Table} {c : Config}
    (hread : Toml.read? text.toList = some table)
    (hdecode : (record false).decode false (Item.table .headed table).draft = .ok c) :
    ofToml text = .ok c := by
  rw [ofToml, hread]
  dsimp only
  rw [hdecode]

theorem ofToml_text {c : Config} (h : c.Fits) :
    ofToml (String.ofList (renderSections c.sections)) = .ok c := by
  have hnames : c.sections.map (·.name) = ["polling", "stability", "logging"] := rfl
  refine ofToml_of_read ?_ (decode_sections c)
  rw [String.toList_ofList]
  exact read_renderSections (plain_sections h) (hnames ▸ by decide)

variable {c : Config} {files after : Files} {path : String}

def text (c : Config) : String := String.ofList (renderSections c.sections)

theorem toToml_of_fits (h : c.Fits) : c.toToml = .ok c.text := if_pos ((sections_fit c).mpr h)

theorem toToml_too_large (h : ¬c.Fits) : c.toToml = .error .integerTooLarge :=
  if_neg fun hfit => h ((sections_fit c).mp hfit)

theorem saving_of_write (h : c.Fits) (hwrite : files.write path c.text = .ok after) :
    (c.saving path).run files = (.ok (), after) := by
  rw [saving, toToml_of_fits h]
  change (do set (← MonadExcept.ofExcept ((files.write path c.text).mapError Failure.file)) :
    ExceptT Failure (StateM Files) Unit).run files = _
  rw [hwrite]
  rfl

theorem saving_too_large (h : ¬c.Fits) (files : Files) (path : String) :
    (c.saving path).run files = (.error .integerTooLarge, files) := by
  rw [saving, toToml_too_large h]
  rfl

theorem loadFrom_of_read {s : Surroundings} (h : c.Fits) (hread : s.files.read path = .ok c.text) :
    loadFrom s path = .ok c := by
  rw [loadFrom, hread]
  exact ofToml_text h

/-- A configuration that fits is loaded as it was saved, and saving what was loaded writes the same
text. One that does not fit is refused, and the files stay as they were. -/
theorem saved_survives (c : Config) (s : Surroundings) (path : String) :
    (c.Fits → s.files.Writable path → ∃ text after again,
      (c.saving path).run s.files = (.ok (), after) ∧ after.read path = .ok text ∧
      loadFrom { s with files := after } path = .ok c ∧
      (c.saving path).run after = (.ok (), again) ∧ again.read path = .ok text) ∧
    (¬c.Fits → (c.saving path).run s.files = (.error .integerTooLarge, s.files)) := by
  refine ⟨fun hfits hwritable => ?_, fun h => saving_too_large h _ _⟩
  obtain ⟨after, hwrite, hread, hwritable'⟩ := hwritable.write c.text
  obtain ⟨again, hwrite', hread', -⟩ := hwritable'.write c.text
  exact ⟨c.text, after, again, saving_of_write hfits hwrite, hread, loadFrom_of_read hfits hread,
    saving_of_write hfits hwrite', hread'⟩

/-- A filter with quotes of both kinds and a line feed, and a duration that is too large. -/
theorem saved_survives_quotes :
    let c : Config := { Config.standard with logging := ⟨"a='b'\n\"\\\"\"\"\x7f"⟩ }
    let big : Config := { Config.standard with polling := ⟨9223372036854775808, 0, true⟩ }
    let s : Surroundings := ⟨[], ⟨[], ["work"]⟩, none, none, .text ""⟩
    (∃ text after again, (c.saving "config.toml").run s.files = (.ok (), after) ∧
      after.read "config.toml" = .ok text ∧
      loadFrom { s with files := after } "config.toml" = .ok c ∧
      (c.saving "config.toml").run after = (.ok (), again) ∧
      again.read "config.toml" = .ok text) ∧
    (big.saving "config.toml").run s.files = (.error .integerTooLarge, s.files) := by
  intro c big s
  have hwritable : s.files.Writable "config.toml" :=
    ⟨"", ⟨[(["work", "config.toml"], .text "")], ["work"]⟩, by decide +kernel⟩
  exact ⟨(saved_survives c s "config.toml").1 (by decide) hwritable,
    (saved_survives big s "config.toml").2 (by decide)⟩

end BrowserActions.Config
