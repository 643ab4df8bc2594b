import Mathlib
import BrowserActions.Environment.EnvFile

/-!
# Loading an environment file

Only a NUL ends the program. A value has the characters of its line, the line feeds that stand
escaped in it, and what variables hold. So a file without a NUL can be loaded, whatever else stands
in it.
-/
namespace BrowserActions.EnvFile

open Text

def Clean (cs : List Char) : Prop := '\x00' ∉ cs

variable {a b cs line before text rest value : List Char} {c : Char} {name : String}
  {lookup : String → String} {s s' : ValueState} {l l' : Loaded}

theorem clean_nil : Clean [] := List.not_mem_nil

theorem Clean.subset (h : Clean b) (hab : a ⊆ b) : Clean a := fun ha => h (hab ha)

theorem Clean.append (ha : Clean a) (hb : Clean b) : Clean (a ++ b) := by
  rw [Clean, List.mem_append, not_or]
  exact ⟨ha, hb⟩

theorem clean_cons : Clean (c :: cs) ↔ c ≠ '\x00' ∧ Clean cs := by
  rw [Clean, List.mem_cons, not_or, ne_comm]
  rfl

theorem Clean.concat (h : Clean cs) (hc : c ≠ '\x00') : Clean (cs ++ [c]) :=
  h.append (clean_cons.mpr ⟨hc, clean_nil⟩)

theorem Clean.trimStart (h : Clean cs) : Clean (trimStart cs) :=
  h.subset (List.dropWhile_sublist _).subset

theorem Clean.trimEnd (h : Clean cs) : Clean (trimEnd cs) := by
  intro hmem
  rw [Text.trimEnd, List.mem_reverse] at hmem
  exact h (List.mem_reverse.mp ((List.dropWhile_sublist _).subset hmem))

theorem clean_physicalLines (hline : Clean line) (hcs : Clean cs) :
    ∀ l ∈ physicalLines line cs, Clean l := by
  induction cs generalizing line with
  | nil =>
    intro l hl
    rw [physicalLines] at hl
    split at hl
    · cases hl
    · rwa [List.mem_singleton.mp hl]
  | cons c cs ih =>
    obtain ⟨hc, hcs⟩ := clean_cons.mp hcs
    intro l hl
    rw [physicalLines] at hl
    split at hl
    · rcases List.mem_cons.mp hl with rfl | hl
      · exact hline.concat hc
      · exact ih clean_nil hcs l hl
    · exact ih (hline.concat hc) hcs l hl

theorem Clean.dropLineEnd (h : Clean line) : Clean (dropLineEnd line) := by
  have hreverse : Clean line.reverse := fun hmem => h (List.mem_reverse.mp hmem)
  rw [EnvFile.dropLineEnd]
  split
  next cs hsplit =>
    rw [hsplit] at hreverse
    exact fun hmem => (clean_cons.mp (clean_cons.mp hreverse).2).2 (List.mem_reverse.mp hmem)
  next cs hsplit =>
    rw [hsplit] at hreverse
    exact fun hmem => (clean_cons.mp hreverse).2 (List.mem_reverse.mp hmem)
  next => exact h

theorem clean_through {state : LineState} (hbefore : Clean before) (hcs : Clean cs)
    (h : state.through before cs = .inr text) : Clean text := by
  induction cs generalizing state before with
  | nil => cases h
  | cons c cs ih =>
    obtain ⟨hc, hcs⟩ := clean_cons.mp hcs
    rw [LineState.through] at h
    split at h
    · exact ih (hbefore.concat hc) hcs h
    · cases h
      exact hbefore

theorem clean_logicalLines {lines : List (List Char)} (hlines : ∀ l ∈ lines, Clean l) :
    ∀ (state : LineState) (before : List Char), Clean before →
      ∀ l, some l ∈ logicalLines state before lines → Clean l := by
  induction lines with
  | nil =>
    intro state before _ l hl
    rw [logicalLines] at hl
    split at hl
    · cases hl
    · cases List.mem_singleton.mp hl
  | cons line rest ih =>
    obtain ⟨hline, hrest⟩ := List.forall_mem_cons.mp hlines
    intro state before hbefore l hl
    have hjoined : Clean (before ++ line) := hbefore.append hline
    have hbehind : ∀ first, Clean first →
        some l ∈ some first :: logicalLines .complete [] rest → Clean l := by
      intro first hfirst hmem
      rcases List.mem_cons.mp hmem with heq | hmem
      · cases heq
        exact hfirst
      · exact ih hrest .complete [] clean_nil l hmem
    rw [logicalLines] at hl
    split at hl
    · exact hbehind [] clean_nil hl
    split at hl
    next text htext => exact hbehind text (clean_through hbefore hline htext) hl
    next => exact hbehind _ hjoined.dropLineEnd hl
    next => exact ih hrest _ _ hjoined l hl

theorem clean_key (h : key? cs = some (name, rest)) (hcs : Clean cs) : Clean rest := by
  rw [key?] at h
  split at h
  · cases h
    exact (hcs.subset (List.drop_subset _ _)).trimStart
  · cases h

theorem clean_equals (h : equals? cs = some rest) (hcs : Clean cs) : Clean rest := by
  cases cs with
  | nil => cases h
  | cons c cs =>
    by_cases hc : c = '='
    · subst hc
      cases h
      exact (clean_cons.mp hcs).2.trimStart
    · rw [equals?] at h
      · cases h
      · rintro _ ⟨⟩
        exact hc rfl

theorem clean_binding (h : binding? cs = some (name, rest)) (hcs : Clean cs) : Clean rest := by
  rw [binding?, Option.bind_eq_bind, Option.bind_eq_some_iff] at h
  obtain ⟨⟨first, behind⟩, hkey, h⟩ := h
  have hbehind := clean_key hkey hcs
  dsimp only at h
  split at h
  next value hvalue =>
    cases h
    exact clean_equals hvalue hbehind
  next =>
    split at h
    · obtain ⟨⟨second, last⟩, hsecond, h⟩ := Option.bind_eq_some_iff.mp h
      obtain ⟨value, hvalue, h⟩ := Option.bind_eq_some_iff.mp h
      cases h
      exact clean_equals hvalue (clean_key hsecond hbehind)
    · cases h

theorem clean_substitute (hlookup : ∀ name, Clean (lookup name).toList) (h : Clean s.value) :
    Clean (s.substitute lookup).value := h.append (hlookup _)

theorem clean_escapeStep (hc : c ≠ '\x00') (h : Clean s.value)
    (hstep : ValueState.escapeStep c s = some s') : Clean s'.value := by
  rw [ValueState.escapeStep] at hstep
  split at hstep
  · cases hstep
    exact h.concat hc
  split at hstep
  · cases hstep
    exact h.concat (by decide)
  · cases hstep

theorem clean_namingStep (hlookup : ∀ name, Clean (lookup name).toList) (hc : c ≠ '\x00')
    (h : Clean s.value) : Clean (ValueState.namingStep lookup c s).value := by
  have hnamed : Clean (s.substitute lookup).value := clean_substitute hlookup h
  rw [ValueState.namingStep]
  split
  · exact h
  split
  · split
    · exact hnamed
    · exact h
  split
  · exact h
  dsimp only
  split
  · exact hnamed
  · exact hnamed.concat hc

theorem clean_plainStep (hc : c ≠ '\x00') (h : Clean s.value) :
    Clean (ValueState.plainStep c s).value := by
  have hpushed : Clean (s.push c).value := h.concat hc
  rw [ValueState.plainStep]
  repeat' split
  all_goals first | exact h | exact hpushed

theorem clean_finish (hlookup : ∀ name, Clean (lookup name).toList) (h : Clean s.value)
    (hfinish : s.finish lookup = some value) : Clean value := by
  rw [ValueState.finish] at hfinish
  split at hfinish
  · cases hfinish
  · cases hfinish
    exact clean_substitute hlookup h

theorem clean_run (hlookup : ∀ name, Clean (lookup name).toList) (hcs : Clean cs) :
    ∀ s : ValueState, Clean s.value → s.run lookup cs = some value → Clean value := by
  induction cs with
  | nil =>
    intro s hs hrun
    exact clean_finish hlookup hs hrun
  | cons c cs ih =>
    obtain ⟨hc, hcs⟩ := clean_cons.mp hcs
    intro s hs hrun
    rw [ValueState.run] at hrun
    split at hrun
    · split at hrun
      · exact ih hcs s hs hrun
      split at hrun
      · exact clean_finish hlookup hs hrun
      · cases hrun
    split at hrun
    · split at hrun
      next next hstep => exact ih hcs next (clean_escapeStep hc hs hstep) hrun
      next => cases hrun
    split at hrun
    · split at hrun
      · exact ih hcs { s with strong := false } hs hrun
      · exact ih hcs _ (hs.concat hc) hrun
    split at hrun
    · exact ih hcs _ (clean_namingStep hlookup hc hs) hrun
    · exact ih hcs _ (clean_plainStep hc hs) hrun

structure Loaded.Clean (l : Loaded) : Prop where
  bindings : ∀ name value, l.bindings.text? name = some value → EnvFile.Clean value.toList
  said : ∀ e ∈ l.said, EnvFile.Clean e.2.toList

theorem Loaded.Clean.of_lookup (h : l.Clean) (name : String) :
    EnvFile.Clean (l.lookup name).toList := by
  rw [Loaded.lookup]
  split
  next value hvalue => exact h.bindings name value hvalue
  next =>
    cases hsaid : l.said.find? (·.1 = name) with
    | none => exact clean_nil
    | some e => exact h.said e (List.mem_of_find?_eq_some hsaid)

theorem Loaded.Clean.of_line (h : l.Clean) (hline : EnvFile.Clean line)
    (htold : l.line? line = some (some (name, value))) : EnvFile.Clean value := by
  rw [Loaded.line?] at htold
  dsimp only at htold
  split at htold
  · cases htold
  · obtain ⟨⟨first, rest⟩, hbinding, htold⟩ := Option.bind_eq_some_iff.mp htold
    have hrest : EnvFile.Clean rest := clean_binding hbinding hline.trimEnd.trimStart
    split at htold
    · cases htold
      exact clean_nil
    · obtain ⟨read, hread, htold⟩ := Option.bind_eq_some_iff.mp htold
      cases htold
      exact clean_run h.of_lookup hrest .start clean_nil hread

theorem text_cons (bindings : Bindings) (name other value : String) :
    Bindings.text? ((name, .text value) :: bindings) other =
      if name = other then some value else bindings.text? other := by
  rw [Bindings.text?, Bindings.value?, List.find?_cons]
  by_cases h : name = other <;> simp [h, Bindings.text?, Bindings.value?]

theorem Loaded.Clean.add (h : l.Clean) (name : String) (hvalue : EnvFile.Clean value) :
    ∃ l', l.add name value = some l' ∧ l'.Clean := by
  have htext : EnvFile.Clean (String.ofList value).toList := by rwa [String.toList_ofList]
  have hsaid : ∀ e ∈ (name, String.ofList value) :: l.said, EnvFile.Clean e.2.toList := by
    intro e he
    rcases List.mem_cons.mp he with rfl | he
    · exact htext
    · exact h.said e he
  rw [Loaded.add]
  by_cases hset : (l.bindings.text? name).isSome = true
  · rw [if_pos hset]
    exact ⟨_, rfl, h.bindings, hsaid⟩
  · have hfree : value.contains '\x00' = false := by
      rw [List.contains_eq_mem, decide_eq_false_iff_not]
      exact hvalue
    rw [if_neg hset, if_neg (by rw [hfree]; exact Bool.false_ne_true)]
    refine ⟨_, rfl, fun other found hfound => ?_, hsaid⟩
    rw [text_cons] at hfound
    split at hfound
    · cases hfound
      exact htext
    · exact h.bindings other found hfound

theorem Loaded.Clean.lines {lines : List (Option (List Char))}
    (hlines : ∀ line, some line ∈ lines → EnvFile.Clean line) :
    ∀ l : Loaded, l.Clean → ∃ l', l.lines lines = some l' := by
  -- as long as the lines are read, what has been set has no NUL
  induction lines with
  | nil => exact fun l _ => ⟨l, rfl⟩
  | cons line rest ih =>
    intro l hl
    have hrest : ∀ line, some line ∈ rest → EnvFile.Clean line := fun line hmem =>
      hlines line (List.mem_cons_of_mem _ hmem)
    rw [Loaded.lines]
    cases htold : line.bind l.line? with
    | none => exact ⟨l, rfl⟩
    | some effect =>
      cases effect with
      | none => exact ih hrest l hl
      | some binding =>
        obtain ⟨name, value⟩ := binding
        obtain ⟨told, rfl, htold⟩ := Option.bind_eq_some_iff.mp htold
        have hvalue := hl.of_line (hlines told List.mem_cons_self) htold
        obtain ⟨l', hadd, hl'⟩ := hl.add name hvalue
        dsimp only
        rw [hadd]
        exact ih hrest l' hl'

theorem load_of_clean {bindings : Bindings} {text : String}
    (hbindings : ∀ name value, bindings.text? name = some value → Clean value.toList)
    (htext : Clean text.toList) : ∃ bindings', load bindings text = some bindings' := by
  rw [load]
  have hstart : ∀ cs, Clean cs → ∃ l',
      Loaded.lines ⟨bindings, []⟩ (logicalLines .complete [] (physicalLines [] cs)) = some l' := by
    intro cs hcs
    have hlines := clean_logicalLines (clean_physicalLines clean_nil hcs) .complete [] clean_nil
    exact Loaded.Clean.lines hlines _ ⟨hbindings, nofun⟩
  split
  next cs hmark =>
    rw [hmark] at htext
    obtain ⟨l', hl'⟩ := hstart cs (clean_cons.mp htext).2
    exact ⟨l'.bindings, by rw [hl']; rfl⟩
  next =>
    obtain ⟨l', hl'⟩ := hstart _ htext
    exact ⟨l'.bindings, by rw [hl']; rfl⟩

/-- What is there to be loaded, the variables and the environment file, has no NUL. -/
structure Unspoilt (s : Surroundings) : Prop where
  bindings : ∀ name value, s.bindings.text? name = some value → Clean value.toList
  file : ∀ text, found? s = some text → Clean text.toList

theorem apply_of_unspoilt {s : Surroundings} (h : Unspoilt s) : ∃ s', apply s = some s' := by
  rw [apply]
  cases hfound : found? s with
  | none => exact ⟨s, rfl⟩
  | some text =>
    obtain ⟨bindings, hload⟩ := load_of_clean h.bindings (h.file text hfound)
    exact ⟨_, by dsimp only; rw [hload]; rfl⟩

theorem apply_input {s s' : Surroundings} (h : apply s = some s') (input : FileContent) :
    apply { s with input := input } = some { s' with input := input } := by
  rw [apply] at h ⊢
  have hfound : found? { s with input := input } = found? s := rfl
  rw [hfound]
  cases hf : found? s with
  | none =>
    rw [hf] at h
    cases h
    rfl
  | some text =>
    rw [hf] at h
    obtain ⟨bindings, hload, rfl⟩ := Option.map_eq_some_iff.mp h
    dsimp only
    rw [hload]
    rfl

end BrowserActions.EnvFile
