import Mathlib
import BrowserActions.Config.Lookup

/-!
# The place that decides

A configuration comes from one place. The places are looked at in a fixed order, and the first one
that counts decides, whatever stands at those behind it. If no configuration can be read there,
loading fails: neither another place nor the defaults are taken instead. A variable counts if it is
set to a text; one that is set to something else might as well not be set.
-/
namespace BrowserActions.Config

inductive Place where
  | named
  | program
  | working
  | settings
  deriving DecidableEq, Repr

namespace Place

def rank : Place → Nat
  | .named => 0
  | .program => 1
  | .working => 2
  | .settings => 3

def path? (s : Surroundings) : Place → Option String
  | .named => s.valueOf? variableName
  | .program => s.programDirectory.map (join · fileName)
  | .working => some (workingPath s)
  | .settings => s.settingsDirectory.map fun d => join (join d settingsName) fileName

/-- A path that a variable names counts in any case, any other if something stands there. -/
def Counts (s : Surroundings) (place : Place) (path : String) : Prop :=
  place.path? s = some path ∧ (place ≠ .named → ∃ content, s.files.locate path = .ok content)

end Place

structure Decides (s : Surroundings) (place : Place) (path : String) : Prop where
  counts : place.Counts s path
  first : ∀ other : Place, other.rank < place.rank → ∀ path, ¬other.Counts s path

/-- Why no configuration can be read under a path. -/
inductive Faulty (s : Surroundings) (path : String) : Failure → Prop where
  | missing {reason} : s.files.locate path = .error reason →
      Faulty s path (.config (.unreadable path reason))
  | directory : s.files.locate path = .ok .directory →
      Faulty s path (.config (.unreadable path .isADirectory))
  | garbled {head} : s.files.locate path = .ok (.garbled head) →
      Faulty s path (.config (.unreadable path .invalidText))
  | malformed {text} : s.files.locate path = .ok (.text text) → Toml.read? text.toList = none →
      Faulty s path (.toml .malformed)
  | mistyped {text table e} : s.files.locate path = .ok (.text text) →
      Toml.read? text.toList = some table →
      (record false).decode false (Toml.Item.table .headed table).draft = .error e →
      Faulty s path (.toml e)

variable {s s' : Surroundings} {place place' : Place} {path path' : String} {e : Failure}

theorem Decides.unique (h : Decides s place path) (h' : Decides s place' path') :
    place = place' ∧ path = path' := by
  have hplace : place = place' := by
    rcases lt_trichotomy place.rank place'.rank with hlt | heq | hgt
    · exact absurd h.counts (h'.first place hlt path)
    · revert heq
      cases place <;> cases place' <;> decide
    · exact absurd h'.counts (h.first place' hgt path')
  subst hplace
  exact ⟨rfl, Option.some.inj (h.counts.1.symm.trans h'.counts.1)⟩

/-- The path of a place, if it counts. -/
def Place.found? (s : Surroundings) (place : Place) : Option String :=
  (place.path? s).filter fun path => place = .named || s.files.hasPath path

theorem hasPath_iff (files : Files) (path : String) :
    files.hasPath path = true ↔ ∃ content, files.locate path = .ok content := by
  rw [Files.hasPath]
  cases files.locate path with
  | ok content => simp [Except.isOk, Except.toBool]
  | error reason => simp [Except.isOk, Except.toBool]

theorem found_eq_some : place.found? s = some path ↔ place.Counts s path := by
  rw [Place.found?, Option.filter_eq_some_iff, Place.Counts, Bool.or_eq_true, decide_eq_true_iff,
    hasPath_iff, or_iff_not_imp_left]

def inOrder : List Place := [.named, .program, .working, .settings]

theorem find_places {places : List Place} (h : .named ∉ places) :
    (places.filterMap (Place.path? s)).find? s.files.hasPath =
      places.findSome? (Place.found? s) := by
  induction places with
  | nil => rfl
  | cons place places ih =>
    rw [List.mem_cons, not_or] at h
    rw [List.findSome?_cons, Place.found?]
    cases hpath : place.path? s with
    | none => simp [hpath, ih h.2]
    | some path =>
      have hne : place ≠ .named := Ne.symm h.1
      rw [List.filterMap_cons_some hpath, List.find?_cons, ih h.2]
      cases hthere : s.files.hasPath path <;> simp [Option.filter, hne, hthere]

theorem path_eq (s : Surroundings) : path? s = inOrder.findSome? (Place.found? s) := by
  rw [Config.path?]
  cases hnamed : s.valueOf? variableName with
  | some path => simp [inOrder, Place.found?, Place.path?, hnamed, Option.filter]
  | none =>
    have hcandidates :
        candidates s = [.program, .working, .settings].filterMap (Place.path? s) := by
      cases hprogram : s.programDirectory <;> cases hsettings : s.settingsDirectory <;>
        simp [candidates, Place.path?, hprogram, hsettings]
    have hunset : Place.found? s .named = none := by simp [Place.found?, Place.path?, hnamed]
    have hbehind : inOrder.findSome? (Place.found? s) =
        [.program, .working, .settings].findSome? (Place.found? s) := by
      rw [inOrder, List.findSome?_cons, hunset]
    rw [hbehind, ← find_places (by decide), ← hcandidates]

theorem decides_of_path (h : path? s = some path) : ∃ place, Decides s place path := by
  rw [path_eq] at h
  obtain ⟨above, place, below, hsplit, hfound, hnone⟩ := List.findSome?_eq_some_iff.mp h
  refine ⟨place, found_eq_some.mp hfound, ?_⟩
  intro other hlt path hcounts
  have hascending : (above ++ place :: below).Pairwise fun a b => a.rank < b.rank := by
    rw [← hsplit]
    decide
  have hmem : other ∈ above ++ place :: below := by
    rw [← hsplit]
    cases other <;> decide
  obtain ⟨-, hbehind, -⟩ := List.pairwise_append.mp hascending
  rcases List.mem_append.mp hmem with habove | hbelow
  · have hfound := found_eq_some.mpr hcounts
    rw [hnone other habove] at hfound
    cases hfound
  · rcases List.mem_cons.mp hbelow with rfl | hbelow
    · exact absurd hlt (lt_irrefl _)
    · exact absurd hlt (lt_asymm ((List.pairwise_cons.mp hbehind).1 other hbelow))

theorem not_counts_of_path (h : path? s = none) (place : Place) (path : String) :
    ¬place.Counts s path := by
  intro hcounts
  rw [path_eq, List.findSome?_eq_none_iff] at h
  have hfound := found_eq_some.mpr hcounts
  rw [h place (by cases place <;> decide)] at hfound
  cases hfound

theorem Decides.path_eq (h : Decides s place path) : path? s = some path := by
  cases hpath : path? s with
  | none => exact absurd h.counts (not_counts_of_path hpath place path)
  | some other =>
    obtain ⟨place', hdecides⟩ := decides_of_path hpath
    rw [(h.unique hdecides).2]

theorem ofToml_eq_error {text : String} :
    ofToml text = .error e ↔ (Toml.read? text.toList = none ∧ e = .toml .malformed) ∨
      ∃ table fault, Toml.read? text.toList = some table ∧
        (record false).decode false (Toml.Item.table .headed table).draft = .error fault ∧
        e = .toml fault := by
  rw [ofToml]
  cases Toml.read? text.toList with
  | none => simp [eq_comm]
  | some table =>
    cases hdecode : (record false).decode false (Toml.Item.table .headed table).draft with
    | ok c => simp [hdecode]
    | error fault => simp [hdecode, eq_comm]

theorem ofToml_of_toOption {text : String} {c : Config} (h : (ofToml text).toOption = some c) :
    ofToml text = .ok c := by
  cases hloaded : ofToml text with
  | ok loaded =>
    rw [hloaded] at h
    exact congrArg Except.ok (Option.some.inj h)
  | error e =>
    rw [hloaded] at h
    cases h

theorem loadFrom_eq_ok {c : Config} :
    loadFrom s path = .ok c ↔
      ∃ text, s.files.locate path = .ok (.text text) ∧ ofToml text = .ok c := by
  rw [loadFrom, Files.read]
  cases hlocate : s.files.locate path with
  | error reason => simp [bind, Except.bind]
  | ok content => cases content <;> simp [bind, Except.bind, FileContent.read]

theorem loadFrom_eq_error : loadFrom s path = .error e ↔ Faulty s path e := by
  rw [loadFrom, Files.read]
  constructor
  · intro h
    cases hlocate : s.files.locate path with
    | error reason =>
      rw [hlocate] at h
      cases h
      exact .missing hlocate
    | ok content =>
      rw [hlocate] at h
      cases content with
      | text text =>
        rcases ofToml_eq_error.mp h with ⟨hread, rfl⟩ | ⟨table, fault, hread, hdecode, rfl⟩
        · exact .malformed hlocate hread
        · exact .mistyped hlocate hread hdecode
      | garbled head =>
        cases h
        exact .garbled hlocate
      | directory =>
        cases h
        exact .directory hlocate
  · intro h
    cases h with
    | missing hlocate | directory hlocate | garbled hlocate =>
      rw [hlocate]
      rfl
    | malformed hlocate hread =>
      rw [hlocate]
      exact ofToml_eq_error.mpr (.inl ⟨hread, rfl⟩)
    | mistyped hlocate hread hdecode =>
      rw [hlocate]
      exact ofToml_eq_error.mpr (.inr ⟨_, _, hread, hdecode, rfl⟩)

theorem Decides.load_eq (h : Decides s place path) : load s = loadFrom s path := by
  rw [load, h.path_eq]

theorem load_of_bytes {raw : List UInt8} (h : s.bindings.value? variableName = some (.bytes raw)) :
    load s = load { s with bindings := [] } := by
  have hnone : s.valueOf? variableName = none := by
    rw [Surroundings.valueOf?, Bindings.text?, h]
  rw [load, path?, hnone]
  rfl

/-- The first place that counts decides, and without one the defaults hold. Where a place decides,
a configuration is loaded from the text that stands there or not at all, so surroundings with the
same text there load the same, whatever else they hold. A variable that is set to bytes that are no
text decides nothing. -/
theorem load_place_by_place (s : Surroundings) :
    ((∃ place path, Decides s place path) ∨
      (∀ place path, ¬Place.Counts s place path) ∧ load s = .ok standard) ∧
    (∀ place path, Decides s place path →
      load s = loadFrom s path ∧
      (∀ c, load s = .ok c ↔ ∃ text, s.files.locate path = .ok (.text text) ∧ ofToml text = .ok c) ∧
      (∀ e, load s = .error e ↔ Faulty s path e)) ∧
    (∀ s' place place' path, Decides s place path → Decides s' place' path →
      s'.files.read path = s.files.read path → load s' = load s) ∧
    ∀ raw, s.bindings.value? variableName = some (.bytes raw) →
      load s = load { s with bindings := [] } := by
  refine ⟨?_, ?_, ?_, fun raw => load_of_bytes⟩
  · cases hpath : path? s with
    | some path =>
      obtain ⟨place, hdecides⟩ := decides_of_path hpath
      exact .inl ⟨place, path, hdecides⟩
    | none =>
      refine .inr ⟨not_counts_of_path hpath, ?_⟩
      rw [load, hpath]
  · intro place path h
    rw [h.load_eq]
    exact ⟨rfl, fun c => loadFrom_eq_ok, fun e => loadFrom_eq_error⟩
  · intro s' place place' path h h' hread
    rw [h.load_eq, h'.load_eq, loadFrom, loadFrom, hread]

/-- A directory beside the program, and something else in the working directory. -/
def shadowed (content : FileContent) : Surroundings where
  bindings := []
  files := ⟨[(["opt", "config.toml"], .directory), (["work", "config.toml"], content)], ["work"]⟩
  programDirectory := some "/opt"
  settingsDirectory := none
  input := .text ""

/-- The directory decides whatever stands behind it, until a variable names a path. -/
theorem load_place_by_place_shadowed :
    load (shadowed (.text "")) = .error (.config (.unreadable "/opt/config.toml" .isADirectory)) ∧
    load (shadowed (.garbled "")) = load (shadowed (.text "")) ∧
    load { shadowed (.text "") with bindings := [("PAGEPILOT_CONFIG", .text "none.toml")] } =
      .error (.config (.unreadable "none.toml" .notFound)) := by
  have hfirst : ∀ content (other : Place), other.rank < Place.program.rank →
      ∀ path, ¬other.Counts (shadowed content) path := by
    rintro content other hlt path ⟨hpath, -⟩
    cases other with
    | named => cases hpath
    | program | working | settings => exact absurd hlt (by decide)
  have hthere : (shadowed (.text "")).files.locate "/opt/config.toml" = .ok .directory := by
    decide +kernel
  have hthere' : (shadowed (.garbled "")).files.locate "/opt/config.toml" = .ok .directory := by
    decide +kernel
  have htext : Decides (shadowed (.text "")) .program "/opt/config.toml" :=
    ⟨⟨by decide +kernel, fun _ => ⟨_, hthere⟩⟩, hfirst _⟩
  have hgarbled : Decides (shadowed (.garbled "")) .program "/opt/config.toml" :=
    ⟨⟨by decide +kernel, fun _ => ⟨_, hthere'⟩⟩, hfirst _⟩
  have hnamed : Decides { shadowed (.text "") with
      bindings := [("PAGEPILOT_CONFIG", .text "none.toml")] } .named "none.toml" :=
    ⟨⟨by decide +kernel, fun h => absurd rfl h⟩, fun other hlt => absurd hlt (Nat.not_lt_zero _)⟩
  obtain ⟨-, hplace, hsame, -⟩ := load_place_by_place (shadowed (.text ""))
  obtain ⟨-, hother, -⟩ := load_place_by_place
    { shadowed (.text "") with bindings := [("PAGEPILOT_CONFIG", .text "none.toml")] }
  refine ⟨((hplace _ _ htext).2.2 _).mpr (.directory hthere), ?_, ?_⟩
  · exact hsame _ _ _ _ htext hgarbled (by decide +kernel)
  · exact ((hother _ _ hnamed).2.2 _).mpr (.missing (by decide +kernel))

/-- The path of a café's settings in a one-byte encoding. -/
def cafePath : ByteArray := ⟨#[47, 101, 116, 99, 47, 99, 97, 102, 233, 46, 116, 111, 109, 108]⟩

def misnamed (text : String) : Surroundings where
  bindings := [("PAGEPILOT_CONFIG", .ofBytes cafePath)]
  files := ⟨[(["work", "config.toml"], .text text)], ["work"]⟩
  programDirectory := none
  settingsDirectory := none
  input := .text ""

theorem load_misnamed {text : String} {c : Config}
    (hpath : path? (misnamed text) = some "/work/config.toml")
    (hread : (misnamed text).files.read "/work/config.toml" = .ok text)
    (hloaded : (ofToml text).toOption = some c) : load (misnamed text) = .ok c := by
  rw [load, hpath]
  dsimp only
  rw [loadFrom, hread]
  exact ofToml_of_toOption hloaded

/-- The variable is set, and yet it is the file in the working directory that is loaded. -/
theorem misnamed_passed_over :
    (∀ text, (misnamed text).bindings.value? variableName = some (.bytes cafePath.data.toList)) ∧
    load (misnamed "") = .ok standard ∧
    load (misnamed "[polling]\nmax_checks = 7\n") =
      .ok { standard with polling := { PollingConfig.standard with maxChecks := 7 } } := by
  have hbytes : VariableValue.ofBytes cafePath = .bytes cafePath.data.toList := by decide +kernel
  refine ⟨fun text => ?_, ?_, ?_⟩
  · exact congrArg some hbytes
  · exact load_misnamed (by decide +kernel) (by decide +kernel) (by decide +kernel)
  · exact load_misnamed (by decide +kernel) (by decide +kernel) (by decide +kernel)

end BrowserActions.Config
