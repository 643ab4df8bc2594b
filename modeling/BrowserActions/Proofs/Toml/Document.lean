import Mathlib
import BrowserActions.Proofs.Toml.Scalar

/-!
# Documents read back

A document of headers and pairs, one a line, with bare keys. Line by line the reader gives back what
was written, and names that do not repeat go into tables in the order of the lines.
-/
namespace BrowserActions.Toml

open Text

variable {name : String} {item : Item} {text rest : List Char} {c : Char}

def Bare (name : String) : Prop := name.toList ≠ [] ∧ name.toList.all isBareKeyChar = true

instance (name : String) : Decidable (Bare name) := inferInstanceAs (Decidable (_ ∧ _))

theorem Bare.cons (h : Bare name) : ∃ d ds, name.toList = d :: ds ∧ isBareKeyChar d = true := by
  obtain ⟨d, ds, hds⟩ := List.exists_cons_of_ne_nil h.1
  exact ⟨d, ds, hds, List.all_eq_true.mp h.2 d (hds ▸ List.mem_cons_self)⟩

theorem bare_ne {x : Char} (h : isBareKeyChar c = true) (hx : isBareKeyChar x = false) : c ≠ x := by
  rintro rfl
  rw [h] at hx
  cases hx

theorem simpleKey_bare (h : Bare name) (hc : isBareKeyChar c = false) (rest : List Char) :
    simpleKey (name.toList ++ c :: rest) = some (name, c :: rest) := by
  obtain ⟨d, ds, hds, hd⟩ := h.cons
  have htake : (name.toList ++ c :: rest).takeWhile isBareKeyChar = name.toList := by
    rw [List.takeWhile_append_of_pos (List.all_eq_true.mp h.2),
      List.takeWhile_cons_of_neg (by simp [hc]), List.append_nil]
  have hempty : ¬name.toList.isEmpty = true := by simpa using h.1
  have hquote : ∀ x, isBareKeyChar x = false → ∀ more, name.toList ++ c :: rest ≠ x :: more := by
    intro x hx more heq
    rw [hds] at heq
    exact bare_ne hd hx (List.head_eq_of_cons_eq heq)
  rw [simpleKey]
  · rw [htake, if_neg hempty, List.drop_left, String.ofList_toList]
  · exact hquote '"' (by decide)
  · exact hquote '\'' (by decide)

theorem skipGap_of_head (h : ∀ c ∈ text.head?, isGap c = false) : skipGap text = text := by
  cases text with
  | nil => rfl
  | cons c text => exact List.dropWhile_cons_of_neg (by simp [h c rfl])

theorem gap_of_bare (h : isBareKeyChar c = true) : isGap c = false := by
  have hblank := bare_ne h (x := ' ') (by decide)
  have htab := bare_ne h (x := '\t') (by decide)
  simp [isGap, hblank, htab]

theorem keyParts_one {limit : Nat} {cs more : List Char}
    (hname : simpleKey (skipGap cs) = some (name, more)) (hpoint : skipGap more = c :: rest)
    (hc : c ≠ '.') : keyParts (limit + 1) cs = some ([name], c :: rest) := by
  rw [keyParts, hname, Option.bind_eq_bind, Option.bind_some]
  dsimp only
  rw [hpoint]
  split
  next heq =>
    cases heq
    exact absurd rfl hc
  · rfl

theorem key_bare (h : Bare name) (gap : List Char) (hgap : gap = [] ∨ gap = [' '])
    (hmark : isBareKeyChar c = false) (hc : isGap c = false) (hpoint : c ≠ '.') (rest : List Char) :
    key (name.toList ++ (gap ++ c :: rest)) = some (([], name), c :: rest) := by
  obtain ⟨d, ds, hds, hd⟩ := h.cons
  have hskip : skipGap (name.toList ++ (gap ++ c :: rest)) = name.toList ++ (gap ++ c :: rest) := by
    refine skipGap_of_head fun e he => ?_
    rw [hds] at he
    cases he
    exact gap_of_bare hd
  have hname : simpleKey (name.toList ++ (gap ++ c :: rest)) = some (name, gap ++ c :: rest) := by
    rcases hgap with rfl | rfl
    · exact simpleKey_bare h hmark rest
    · exact simpleKey_bare h (by decide) (c :: rest)
  have hbehind : skipGap (gap ++ c :: rest) = c :: rest := by
    have hrest : skipGap (c :: rest) = c :: rest :=
      skipGap_of_head fun e he => by cases he; exact hc
    rcases hgap with rfl | rfl
    · exact hrest
    · exact hrest
  have hparts : keyParts (depthLimit - 1) (name.toList ++ (gap ++ c :: rest)) =
      some ([name], c :: rest) := keyParts_one (hskip.symm ▸ hname) hbehind hpoint
  rw [key, hparts]
  rfl

/-- On its own the text is read as this line, whatever follows. -/
structure Spells (text : List Char) (l : Line) : Prop where
  ne_nil : text ≠ []
  read : ∀ rest, line (text ++ rest) = some (l, rest)

theorem spells_blank : Spells ['\n'] .blank := ⟨List.cons_ne_nil _ _, fun _ => rfl⟩

theorem spells_header (h : Bare name) :
    Spells ('[' :: (name.toList ++ [']', '\n'])) (.header [] name false) := by
  refine ⟨List.cons_ne_nil _ _, fun rest => ?_⟩
  obtain ⟨d, ds, hds, hd⟩ := h.cons
  have hne := bare_ne hd (x := '[') (by decide)
  have hkey := key_bare (c := ']') h [] (.inl rfl) (by decide) (by decide) (by decide)
    ('\n' :: rest)
  have hsingle : strip ['[', '['] ('[' :: (name.toList ++ ']' :: '\n' :: rest)) = none := by
    rw [hds]
    simp [strip, hne.symm]
  have hread : headerLine ('[' :: (name.toList ++ ']' :: '\n' :: rest)) =
      some (.header [] name false, rest) := by
    rw [headerLine, hsingle, strip, if_pos rfl, strip]
    simp only [Option.bind_eq_bind, Option.bind_some, List.nil_append] at hkey ⊢
    rw [hkey]
    rfl
  rw [List.cons_append, List.append_assoc]
  exact hread

theorem line_pair (hc : isBareKeyChar c = true) (rest : List Char) :
    line (c :: rest) = (pair (value (depthLimit - 1)) (c :: rest)).bind fun p =>
      (restOfLine p.2).bind fun behind => some (.pair p.1, behind) := by
  have hskip : skipGap (c :: rest) = c :: rest :=
    skipGap_of_head fun d hd => by cases hd; exact gap_of_bare hc
  have hbracket := bare_ne hc (x := '[') (by decide)
  have hblank : ¬(c = '#' ∨ c = '\n' ∨ c = '\r') := by
    rintro (rfl | rfl | rfl) <;> cases hc
  rw [line, hskip]
  split
  next heq => cases heq
  next heq =>
    cases heq
    exact absurd rfl hbracket
  next heq =>
    cases heq
    rw [if_neg hblank]
    rfl

theorem spells_pair (h : Bare name) (hitem : Denotes text item) :
    Spells (name.toList ++ ([' ', '=', ' '] ++ (text ++ ['\n']))) (.pair ⟨[], name, item⟩) := by
  obtain ⟨d, ds, hds, hd⟩ := h.cons
  refine ⟨?_, fun rest => ?_⟩
  · rw [hds]
    exact List.cons_ne_nil _ _
  have hkey := key_bare (c := '=') h [' '] (.inr rfl) (by decide) (by decide) (by decide)
    (' ' :: (text ++ '\n' :: rest))
  have hskip : skipGap (' ' :: (text ++ '\n' :: rest)) = text ++ '\n' :: rest := by
    change skipGap (text ++ '\n' :: rest) = _
    refine skipGap_of_head fun c hc => ?_
    cases htext : text with
    | nil =>
      rw [htext] at hc
      cases hc
      rfl
    | cons e text =>
      rw [htext] at hc
      cases hc
      exact hitem.head _ (htext ▸ rfl)
  have hpair : pair (value (depthLimit - 1))
      (name.toList ++ ([' '] ++ '=' :: ' ' :: (text ++ '\n' :: rest))) =
        some (⟨[], name, item⟩, '\n' :: rest) := by
    rw [pair, hkey]
    simp only [Option.bind_eq_bind, Option.bind_some, strip, if_pos, hskip, hitem.read]
  have hline := line_pair hd (ds ++ ([' '] ++ '=' :: ' ' :: (text ++ '\n' :: rest)))
  rw [← List.cons_append, ← hds, hpair] at hline
  have hread := hline.trans (show _ = some (Line.pair ⟨[], name, item⟩, rest) from rfl)
  simpa only [List.append_assoc, List.cons_append, List.nil_append] using hread

theorem lines_flatMap {spelled : List (List Char × Line)} (h : ∀ e ∈ spelled, Spells e.1 e.2)
    {bound : Nat} (hbound : spelled.length ≤ bound) :
    lines bound (spelled.flatMap (·.1)) = some (spelled.map (·.2)) := by
  induction spelled generalizing bound with
  | nil => cases bound <;> rfl
  | cons e spelled ih =>
    obtain ⟨he, hmore⟩ := List.forall_mem_cons.mp h
    obtain ⟨bound, rfl⟩ : ∃ b, bound = b + 1 := ⟨bound - 1, by simp at hbound; omega⟩
    have hrest := ih hmore (Nat.le_of_succ_le_succ hbound)
    have hread := he.read (spelled.flatMap (·.1))
    obtain ⟨c, cs, hcs⟩ := List.exists_cons_of_ne_nil he.ne_nil
    rw [hcs, List.cons_append] at hread
    rw [List.flatMap_cons, hcs, List.cons_append, lines, hread, Option.bind_eq_bind,
      Option.bind_some]
    dsimp only
    rw [hrest]
    rfl

theorem length_le_flatMap {spelled : List (List Char × Line)}
    (h : ∀ e ∈ spelled, Spells e.1 e.2) :
    spelled.length ≤ (spelled.flatMap (·.1)).length := by
  induction spelled with
  | nil => exact Nat.zero_le _
  | cons e spelled ih =>
    obtain ⟨he, hmore⟩ := List.forall_mem_cons.mp h
    have hpos := List.length_pos_iff.mpr he.ne_nil
    have hrest := ih hmore
    rw [List.flatMap_cons, List.length_append, List.length_cons]
    omega

def pairOf (e : String × Item) : Pair := ⟨[], e.1, e.2⟩

def partOf (t : String × Table) : Part := ⟨[], t.1, false, t.2.map pairOf⟩

def tableLines (t : String × Table) : List Line :=
  .header [] t.1 false :: t.2.map fun e => .pair (pairOf e)

theorem ofLines_pairs (t : Table) (ls : List Line) :
    Document.ofLines (t.map (fun e => .pair (pairOf e)) ++ ls) =
      { Document.ofLines ls with pairs := t.map pairOf ++ (Document.ofLines ls).pairs } := by
  induction t with
  | nil => rfl
  | cons e t ih => rw [List.map_cons, List.cons_append, Document.ofLines, ih]; rfl

theorem ofLines_table (t : String × Table) {ls : List Line} {parts : List Part}
    (h : Document.ofLines ls = ⟨[], parts⟩) :
    Document.ofLines (tableLines t ++ ls) = ⟨[], partOf t :: parts⟩ := by
  rw [tableLines, List.cons_append, Document.ofLines, ofLines_pairs, h]
  simp only [List.append_nil]
  rfl

def Distinct {α : Type} (entries : List (String × α)) : Prop := (entries.map (·.1)).Nodup

theorem find_none {t : Table} (h : name ∉ t.map (·.1)) : t.find? name = none := by
  rw [Table.find?, Option.map_eq_none_iff, List.find?_eq_none]
  intro e he heq
  exact h (of_decide_eq_true heq ▸ List.mem_map_of_mem he)

theorem Distinct.fresh {α : Type} {before more : List (String × α)} {e : String × α}
    (h : Distinct (before ++ e :: more)) :
    e.1 ∉ before.map (·.1) ∧ Distinct (before ++ [e] ++ more) := by
  refine ⟨?_, by rwa [List.append_assoc]⟩
  rw [Distinct, List.map_append, List.map_cons, List.nodup_append] at h
  exact fun hmem => h.2.2 _ hmem _ List.mem_cons_self rfl

theorem addPairs_append (t more : Table) (h : Distinct (t ++ more)) :
    Table.addPairs t (more.map pairOf) = some (t ++ more) := by
  induction more generalizing t with
  | nil => exact congrArg some (List.append_nil t).symm
  | cons e more ih =>
    obtain ⟨hfresh, hdistinct⟩ := h.fresh
    have hadd : Table.addPair t e.1 e.2 [] = some (t ++ [e]) := by
      rw [Table.addPair, find_none hfresh]
      rfl
    have hrest := ih (t ++ [e]) hdistinct
    rw [Table.addPairs] at hrest ⊢
    rw [List.map_cons, List.foldlM_cons, pairOf, hadd, Option.bind_eq_bind, Option.bind_some, hrest,
      List.append_assoc, List.singleton_append]

def headed (t : String × Table) : String × Item := (t.1, .table .headed t.2)

theorem addHeaded_append {t : Table} {part : String × Table} (hname : part.1 ∉ t.map (·.1))
    (h : Distinct part.2) :
    Table.addHeaded t (partOf part) [] = some (t ++ [headed part]) := by
  have hpairs : Table.addPairs [] (partOf part).pairs = some part.2 := addPairs_append [] part.2 h
  have hfind : t.find? (partOf part).key = none := find_none hname
  rw [Table.addHeaded, hfind]
  simp only [partOf] at hpairs ⊢
  rw [hpairs]
  rfl

theorem addParts_append {tables : List (String × Table)} (hkeys : ∀ t ∈ tables, Distinct t.2)
    (t : Table) (h : Distinct (t ++ tables.map headed)) :
    (tables.map partOf).foldlM (fun t part => Table.addHeaded t part part.path) t =
      some (t ++ tables.map headed) := by
  induction tables generalizing t with
  | nil => exact congrArg some (List.append_nil t).symm
  | cons part tables ih =>
    obtain ⟨hpart, hmore⟩ := List.forall_mem_cons.mp hkeys
    obtain ⟨hfresh, hdistinct⟩ := h.fresh
    have hadd : Table.addHeaded t (partOf part) (partOf part).path = some (t ++ [headed part]) :=
      addHeaded_append hfresh hpart
    rw [List.map_cons, List.foldlM_cons, hadd, Option.bind_eq_bind, Option.bind_some,
      ih hmore _ hdistinct, List.append_assoc, List.singleton_append, List.map_cons]

theorem table_parts {tables : List (String × Table)} (hnames : Distinct (tables.map headed))
    (hkeys : ∀ t ∈ tables, Distinct t.2) :
    Document.table? ⟨[], tables.map partOf⟩ = some (tables.map headed) :=
  addParts_append hkeys [] hnames

/-- A document whose lines are those of tables is read as these tables. -/
theorem read_tables {spelled : List (List Char × Line)} (h : ∀ e ∈ spelled, Spells e.1 e.2)
    {tables : List (String × Table)}
    (hlines : Document.ofLines (spelled.map (·.2)) = ⟨[], tables.map partOf⟩)
    (hmark : (spelled.flatMap (·.1)).head? ≠ some '\ufeff')
    (hnames : Distinct (tables.map headed)) (hkeys : ∀ t ∈ tables, Distinct t.2) :
    read? (spelled.flatMap (·.1)) = some (tables.map headed) := by
  have hbound : spelled.length ≤ (spelled.flatMap (·.1)).length + 1 :=
    (length_le_flatMap h).trans (Nat.le_succ _)
  have hread := lines_flatMap h hbound
  rw [read?]
  · rw [hread, Option.bind_eq_bind, Option.bind_some, hlines]
    exact table_parts hnames hkeys
  · exact fun cs heq => hmark (congrArg List.head? heq)

end BrowserActions.Toml
