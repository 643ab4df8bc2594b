import Mathlib
import BrowserActions.Files

/-!
# Writing and reading back

Where a text can be put does not depend on the text. What was put there is what is read from the
same path, since the way to it leads through the same directories as before.
-/
namespace BrowserActions.Files

variable {files : Files} {path text last : String} {names other there directory : List String}

/-- Under this path a text can be written. -/
def Writable (files : Files) (path : String) : Prop :=
  ∃ text after, files.write path text = .ok after

/-- The files with a text in place of what had these names. -/
def put (files : Files) (names : List String) (text : String) : Files :=
  { files with entries := (names, .text text) :: files.entries.filter (·.1 ≠ names) }

/-- The way of a path to a name in a directory, where no directory stands in the way of a file. -/
structure Spot (files : Files) (path : String) (directory : List String) (last : String) :
    Prop where
  faultless : pathFault? path = none
  parts_eq : parts path = (parts path).dropLast ++ [last]
  walk : files.walk (files.base path) (parts path).dropLast = .ok directory
  isDirectory : files.at? directory = some .directory
  proper : ¬(last = "" ∨ last = "." ∨ last = "..")
  short : ¬255 < last.utf8ByteSize
  free : files.at? (directory ++ [last]) ≠ some .directory

theorem parts_concat (h : ¬((parts path).getLast?.getD "" = "" ∨
    (parts path).getLast?.getD "" = "." ∨ (parts path).getLast?.getD "" = "..")) :
    parts path = (parts path).dropLast ++ [(parts path).getLast?.getD ""] := by
  cases hlast : (parts path).getLast? with
  | none => simp [hlast] at h
  | some last => exact (List.dropLast_append_getLast? last hlast).symm

theorem Spot.last_eq (h : Spot files path directory last) :
    (parts path).getLast?.getD "" = last := by
  rw [h.parts_eq, List.getLast?_concat]
  rfl

theorem spot_of_write {after : Files} (h : files.write path text = .ok after) :
    ∃ directory last, Spot files path directory last := by
  rw [write] at h
  split at h
  · cases h
  next hfault =>
  cases hwalk : files.walk (files.base path) (parts path).dropLast with
  | error e =>
    rw [hwalk] at h
    cases h
  | ok directory =>
    simp only [hwalk, bind, Except.bind] at h
    split at h
    · cases h
    next hdir =>
      split at h
      · cases h
      next hproper =>
      split at h
      · cases h
      next hshort =>
      split at h
      · cases h
      next hfree =>
        exact ⟨directory, _, hfault, parts_concat hproper, hwalk, hdir, hproper, hshort, hfree⟩
    · cases h

theorem Spot.write (h : Spot files path directory last) (text : String) :
    files.write path text = .ok (files.put (directory ++ [last]) text) := by
  simp only [Files.write, h.faultless, h.last_eq, h.walk, bind, Except.bind, h.isDirectory,
    if_neg h.proper, if_neg h.short, if_neg h.free]
  rfl

def turn (names : List String) (part : String) : Except FileError (List String) :=
  if part = "" ∨ part = "." then .ok names
  else if part = ".." then .ok names.dropLast
  else if 255 < part.utf8ByteSize then .error .nameTooLong
  else .ok (names ++ [part])

theorem walk_cons_ok {part : String} {rest : List String} :
    files.walk names (part :: rest) = .ok there ↔
      files.at? names = some .directory ∧
        ∃ next, turn names part = .ok next ∧ files.walk next rest = .ok there := by
  rw [walk]
  cases files.at? names with
  | none => simp
  | some content =>
    cases content with
    | text s => simp
    | garbled head => simp
    | directory =>
      rw [turn]
      split_ifs <;> simp

theorem walk_append_ok {front back : List String} :
    files.walk names (front ++ back) = .ok there ↔
      ∃ middle, files.walk names front = .ok middle ∧ files.walk middle back = .ok there := by
  induction front generalizing names with
  | nil => simp [walk]
  | cons part front ih =>
    rw [List.cons_append, walk_cons_ok]
    constructor
    · rintro ⟨hdir, next, hturn, hrest⟩
      obtain ⟨middle, hfront, hback⟩ := ih.mp hrest
      exact ⟨middle, walk_cons_ok.mpr ⟨hdir, next, hturn, hfront⟩, hback⟩
    · rintro ⟨middle, hfront, hback⟩
      obtain ⟨hdir, next, hturn, hrest⟩ := walk_cons_ok.mp hfront
      exact ⟨hdir, next, hturn, ih.mpr ⟨middle, hrest, hback⟩⟩

theorem at_put_self : (files.put names text).at? names = some (.text text) := by
  simp [at?, put]

theorem find_put (hne : names ≠ other) :
    (files.put names text).entries.find? (·.1 = other) = files.entries.find? (·.1 = other) := by
  rw [put, List.find?_cons_of_neg (by simpa using hne), List.find?_filter]
  congr 1
  funext e
  by_cases he : e.1 = other <;> simp [he, hne.symm]

theorem any_put (other : List String) (h : files.entries.any fun e => other.isPrefixOf e.1) :
    (files.put names text).entries.any fun e => other.isPrefixOf e.1 := by
  obtain ⟨e, he, hbelow⟩ := List.any_eq_true.mp h
  rw [put, List.any_cons, Bool.or_eq_true]
  by_cases hname : e.1 = names
  · exact .inl (hname ▸ hbelow)
  · refine .inr (List.any_eq_true.mpr ⟨e, List.mem_filter.mpr ⟨he, ?_⟩, hbelow⟩)
    exact decide_eq_true hname

theorem at_put_directory (hfree : files.at? names ≠ some .directory)
    (h : files.at? other = some .directory) :
    (files.put names text).at? other = some .directory := by
  have hne : names ≠ other := by
    rintro rfl
    exact hfree h
  rw [at?, find_put hne]
  rw [at?] at h
  cases hfind : files.entries.find? (·.1 = other) with
  | some e => rwa [hfind] at h
  | none =>
    rw [hfind] at h
    dsimp only at h ⊢
    split at h
    next hbelow =>
      refine if_pos ?_
      rw [Bool.or_eq_true] at hbelow ⊢
      exact hbelow.imp_right (any_put other)
    · cases h

theorem walk_put (hfree : files.at? names ≠ some .directory) {way : List String}
    (h : files.walk other way = .ok there) : (files.put names text).walk other way = .ok there := by
  induction way generalizing other with
  | nil => exact h
  | cons part rest ih =>
    obtain ⟨hdir, next, hturn, hrest⟩ := walk_cons_ok.mp h
    exact walk_cons_ok.mpr ⟨at_put_directory hfree hdir, next, hturn, ih hrest⟩

theorem Spot.put (h : Spot files path directory last) (text : String) :
    Spot (files.put (directory ++ [last]) text) path directory last where
  faultless := h.faultless
  parts_eq := h.parts_eq
  walk := walk_put h.free h.walk
  isDirectory := at_put_directory h.free h.isDirectory
  proper := h.proper
  short := h.short
  free := by simp [at_put_self]

theorem Spot.turn (h : Spot files path directory last) :
    turn directory last = .ok (directory ++ [last]) := by
  have hproper := h.proper
  rw [← or_assoc, not_or] at hproper
  rw [Files.turn, if_neg hproper.1, if_neg hproper.2, if_neg h.short]

theorem Spot.read (h : Spot files path directory last) (text : String) :
    (files.put (directory ++ [last]) text).read path = .ok text := by
  have hspot := h.put text
  have hlast := walk_cons_ok.mpr ⟨hspot.isDirectory, _, hspot.turn, walk.eq_1 ..⟩
  have hwalk := walk_append_ok.mpr ⟨directory, hspot.walk, hlast⟩
  rw [← hspot.parts_eq] at hwalk
  simp only [Files.read, locate, hspot.faultless, hwalk, at_put_self, bind, Except.bind]
  rfl

/-- Under a path that can be written to, any text can be, it is what is read there, and the path can
be written to again. -/
theorem Writable.write (h : Writable files path) (text : String) :
    ∃ after, files.write path text = .ok after ∧ after.read path = .ok text ∧
      Writable after path := by
  obtain ⟨_, _, hwrite⟩ := h
  obtain ⟨directory, last, hspot⟩ := spot_of_write hwrite
  exact ⟨_, hspot.write text, hspot.read text, text, _, (hspot.put text).write text⟩

end BrowserActions.Files
