import Mathlib
import BrowserActions.Toml.Quoted

/-!
# Strings read back

A written string is read back as it was, whichever of the forms it took. Between three quotes the
reader keeps back the quotes it has just seen until it knows that they do not end the string, so the
states in which a character of the text is read are those with at most two quotes kept back.
-/
namespace BrowserActions.Toml.Quoted

variable {q : Quoting} {mode mode' mode'' : Mode} {piece piece' out out' s rest : List Char}
  {a c x : Char} {k : Nat}

def prepend (out : List Char) (p : List Char × List Char) : List Char × List Char :=
  (out ++ p.1, p.2)

/-- Whatever follows it, the piece is read as `out`. -/
def Reads (q : Quoting) (mode : Mode) (piece out : List Char) (mode' : Mode) : Prop :=
  ∀ rest, scan q mode (piece ++ rest) = (scan q mode' rest).map (prepend out)

theorem reads_step (h : step q c mode = some (.go out mode')) : Reads q mode [c] out mode' := by
  intro rest
  rw [List.singleton_append, scan, h]
  rfl

theorem Reads.append (h : Reads q mode piece out mode') (h' : Reads q mode' piece' out' mode'') :
    Reads q mode (piece ++ piece') (out ++ out') mode'' := by
  intro rest
  rw [List.append_assoc, h, h', Option.map_map]
  congr 1
  funext p
  exact congrArg (·, p.2) (List.append_assoc ..).symm

theorem control_lt (h : isTextChar c = false) : c.toNat < 256 := by
  simp only [isTextChar, Bool.or_eq_false_iff, Bool.and_eq_false_iff, decide_eq_false_iff_not] at h
  omega

theorem plain_text (hquote : c ≠ q.quote) (hescape : c ≠ '\\' ∨ q.escapes = false)
    (htext : isTextChar c = true) : plainStep q c = some (.go [c] .plain) := by
  have hslash : ¬(c = '\\' ∧ q.escapes = true) := by
    rintro ⟨rfl, h⟩
    simp [h] at hescape
  have hfeed : ¬(q.multiline = true ∧ c = '\n') := by
    rintro ⟨-, rfl⟩
    cases htext
  have hreturn : ¬(q.multiline = true ∧ c = '\r') := by
    rintro ⟨-, rfl⟩
    cases htext
  rw [plainStep, if_neg hquote, if_neg hslash, if_neg hfeed, if_neg hreturn, if_pos htext]

theorem reads_backslash (m : Bool) : Reads ⟨'"', m⟩ .plain ['\\'] [] .escape :=
  reads_step (by cases m <;> rfl)

theorem reads_escape (m : Bool) (h : simpleEscape? a = some c) :
    Reads ⟨'"', m⟩ .plain ['\\', a] [c] .plain := by
  have hletter : step ⟨'"', m⟩ a .escape = some (.go [c] .plain) := by
    rw [step, h]
  exact (reads_backslash m).append (reads_step hletter)

theorem hexValue_upperHex {n : Nat} (h : n < 16) : Json.hexValue? (upperHex n) = some n := by
  interval_cases n <;> decide

theorem reads_hex {missing value n : Nat} (h : n < 16) :
    Reads q (.code (missing + 1) value) [upperHex n] [] (.code missing (16 * value + n)) := by
  refine reads_step ?_
  unfold step
  rw [hexValue_upperHex h]

theorem reads_last_hex {value n : Nat} (h : n < 16) (hc : 16 * value + n = c.toNat) :
    Reads q (.code 0 value) [upperHex n] [c] .plain := by
  have hvalid : c.toNat.isValidChar := c.valid
  refine reads_step ?_
  unfold step
  rw [hexValue_upperHex h]
  simp only [hc, if_pos hvalid, Char.ofNat_toNat]

theorem reads_code (m : Bool) (hc : c.toNat < 256) :
    Reads ⟨'"', m⟩ .plain ['\\', 'u', '0', '0', upperHex (c.toNat / 16), upperHex (c.toNat % 16)]
      [c] .plain := by
  have hu : Reads ⟨'"', m⟩ .escape ['u'] [] (.code 3 0) := reads_step rfl
  have hzero : Reads ⟨'"', m⟩ (.code 3 0) ['0'] [] (.code 2 0) := reads_hex (n := 0) (by decide)
  have hzero' : Reads ⟨'"', m⟩ (.code 2 0) ['0'] [] (.code 1 0) := reads_hex (n := 0) (by decide)
  have hhigh : Reads ⟨'"', m⟩ (.code 1 0) [upperHex (c.toNat / 16)] []
      (.code 0 (16 * 0 + c.toNat / 16)) := reads_hex (by omega)
  have hlow : Reads ⟨'"', m⟩ (.code 0 (16 * 0 + c.toNat / 16)) [upperHex (c.toNat % 16)] [c]
      .plain := reads_last_hex (by omega) (by omega)
  exact (reads_backslash m).append
    (hu.append (hzero.append (hzero'.append (hhigh.append hlow))))

theorem reads_spelled (m : Bool) (hc : c ≠ '"') :
    Reads ⟨'"', m⟩ .plain (spelled m c) [c] .plain := by
  unfold spelled
  split
  · exact reads_escape m rfl
  · exact reads_escape m rfl
  · cases m
    · exact reads_escape false rfl
    · exact reads_step rfl
  · exact reads_escape m rfl
  · exact reads_escape m rfl
  · exact reads_escape m rfl
  next hslash =>
    by_cases htext : isTextChar c = true
    · rw [if_pos htext]
      exact reads_step (plain_text hc (.inl hslash) htext)
    · rw [if_neg htext]
      exact reads_code m (control_lt (Bool.eq_false_iff.mpr htext))

theorem spelled_cons (m : Bool) (c : Char) :
    ∃ d ds, spelled m c = d :: ds ∧ (c ≠ '"' → d ≠ '"') ∧ (c ≠ '\n' → d ≠ '\n' ∧ d ≠ '\r') := by
  unfold spelled
  split
  · exact ⟨_, _, rfl, by decide, by decide⟩
  · exact ⟨_, _, rfl, by decide, by decide⟩
  · cases m
    · exact ⟨_, _, rfl, by decide, by decide⟩
    · exact ⟨_, _, rfl, by decide, by decide⟩
  · exact ⟨_, _, rfl, by decide, by decide⟩
  · exact ⟨_, _, rfl, by decide, by decide⟩
  · exact ⟨_, _, rfl, by decide, by decide⟩
  next hreturn _ =>
    split_ifs
    · exact ⟨c, [], rfl, id, fun h => ⟨h, hreturn⟩⟩
    · exact ⟨_, _, rfl, fun _ => by decide, fun _ => by decide⟩

theorem scan_end (h : q.multiline = false) (rest : List Char) :
    scan q .plain (q.quote :: rest) = some ([], rest) := by
  rw [scan, step, plainStep, if_pos rfl, h]
  rfl

theorem Reads.all (h : Reads q .plain piece out .plain) (hq : q.multiline = false)
    (rest : List Char) : scan q .plain (piece ++ q.quote :: rest) = some (out, rest) := by
  rw [h, scan_end hq]
  exact congrArg some (Prod.ext (List.append_nil out) rfl)

theorem reads_escaped (k : Nat) (s : List Char) :
    Reads ⟨'"', false⟩ .plain (escaped false k s) s .plain := by
  induction s generalizing k with
  | nil => exact fun rest => (Option.map_id_apply ..).symm
  | cons c s ih =>
    rw [escaped]
    split_ifs with hc hk
    · cases hk.1
    · subst hc
      exact (reads_escape false rfl).append (ih 0)
    · exact (reads_spelled false hc).append (ih 0)

theorem reads_literal {s : List Char} (hquote : '\'' ∉ s) (htext : ∀ c ∈ s, isTextChar c = true) :
    Reads ⟨'\'', false⟩ .plain s s .plain := by
  induction s with
  | nil => exact fun rest => (Option.map_id_apply ..).symm
  | cons c s ih =>
    rw [List.mem_cons, not_or] at hquote
    have hc : step ⟨'\'', false⟩ c .plain = some (.go [c] .plain) :=
      plain_text (Ne.symm hquote.1) (.inr rfl) (htext c List.mem_cons_self)
    exact (reads_step hc).append
      (ih hquote.2 fun d hd => htext d (List.mem_cons_of_mem _ hd))

def pending : Nat → Mode
  | 0 => .plain
  | k + 1 => .quotes (k + 1)

theorem scan_quote (hq : q.multiline = true) (hk : k < 4) (rest : List Char) :
    scan q (pending k) (q.quote :: rest) = scan q (pending (k + 1)) rest := by
  have hstep : step q q.quote (pending k) = some (.go [] (pending (k + 1))) := by
    cases k with
    | zero => rw [pending, step, plainStep, if_pos rfl, hq, if_pos rfl, pending]
    | succ k => rw [pending, step, if_pos rfl, if_neg (by omega), pending]
  exact reads_step hstep rest |>.trans (Option.map_id_apply ..)

theorem scan_pending (hc : c ≠ q.quote) (hk : k ≤ 2) (rest : List Char) :
    scan q (pending k) (c :: rest) =
      (scan q .plain (c :: rest)).map (prepend (List.replicate k q.quote)) := by
  cases k with
  | zero => exact (Option.map_id_apply ..).symm
  | succ k =>
    have hstep : step q c (pending (k + 1)) =
        (plainStep q c).map (Move.after (List.replicate (k + 1) q.quote)) := by
      rw [pending, step, if_neg hc, if_neg (by omega)]
    rw [scan, hstep, scan, step]
    cases plainStep q c with
    | none => rfl
    | some move =>
      cases move with
      | go out mode =>
        simp only [Option.map_some, Move.after, Option.map_map]
        congr 1
        funext p
        exact Prod.ext (List.append_assoc ..) rfl
      | close out taken => rfl

theorem scan_char (h : Reads q .plain (c :: piece) [x] .plain) (hc : c ≠ q.quote) (hk : k ≤ 2)
    {more : List Char} {p : List Char × List Char} (hmore : scan q .plain more = some p) :
    scan q (pending k) (c :: piece ++ more) = some (List.replicate k q.quote ++ x :: p.1, p.2) := by
  rw [List.cons_append, scan_pending hc hk, ← List.cons_append, h, hmore]
  rfl

theorem scan_close (hq : q.multiline = true) (hc : c ≠ q.quote) (hk : k ≤ 2) (rest : List Char) :
    scan q (Quoted.pending k) (q.quote :: q.quote :: q.quote :: c :: rest) =
      some (List.replicate k q.quote, c :: rest) := by
  have hshown : ∀ count, 3 ≤ count → scan q (.quotes count) (c :: rest) =
      some (List.replicate (count - 3) q.quote, c :: rest) := by
    intro count hcount
    rw [scan, step, if_neg hc, if_pos hcount]
    rfl
  rw [scan_quote hq (by omega), scan_quote hq (by omega)]
  rcases Nat.lt_or_ge k 2 with hlt | hge
  · rw [scan_quote hq (by omega)]
    exact hshown (k + 1 + 1 + 1) (by omega)
  · obtain rfl : k = 2 := by omega
    rw [Quoted.pending, scan, step, if_pos rfl, if_pos rfl]
    rfl

theorem scan_escaped (hc : c ≠ '"') (hk : k ≤ 2) (s rest : List Char) :
    scan ⟨'"', true⟩ (pending k) (escaped true k s ++ '"' :: '"' :: '"' :: c :: rest) =
      some (List.replicate k '"' ++ s, c :: rest) := by
  induction s generalizing k with
  | nil =>
    rw [List.append_nil]
    exact scan_close rfl hc hk rest
  | cons d s ih =>
    have hrest := ih (k := 0) (by decide)
    rw [escaped]
    split_ifs with hd hlt
    · subst hd
      rw [List.cons_append, scan_quote (q := ⟨'"', true⟩) rfl (by omega), ih (by omega),
        List.replicate_succ', List.append_assoc]
      rfl
    · subst hd
      exact scan_char (reads_escape true rfl) (by decide) hk hrest
    · have hread := reads_spelled true hd
      obtain ⟨e, es, hspelled, hne, -⟩ := spelled_cons true d
      rw [hspelled] at hread ⊢
      rw [List.append_assoc]
      exact scan_char hread (hne hd) hk hrest

theorem le_longestRun (x : Char) (run longest : Nat) (s : List Char) :
    run ≤ longestRun x run longest s ∧ longest ≤ longestRun x run longest s := by
  induction s generalizing run longest with
  | nil => exact ⟨le_max_left .., le_max_right ..⟩
  | cons c s ih =>
    rw [longestRun]
    split_ifs
    · have hmore := ih (run + 1) longest
      omega
    · have hmore := ih 0 (max run longest)
      omega

theorem not_mem_of_longestRun {longest : Nat} (h : longestRun x k longest s = 0) : x ∉ s := by
  induction s generalizing k longest with
  | nil => exact List.not_mem_nil
  | cons c s ih =>
    rw [longestRun] at h
    split_ifs at h with hc
    · have hrun := (le_longestRun x (k + 1) longest s).1
      omega
    · exact List.not_mem_cons_of_ne_of_not_mem (Ne.symm hc) (ih h)

theorem scan_literal (hc : c ≠ '\'') {longest : Nat} {s : List Char}
    (hrun : longestRun '\'' k longest s ≤ 2) (htext : ∀ d ∈ s, isTextChar d = true ∨ d = '\n')
    (rest : List Char) :
    scan ⟨'\'', true⟩ (pending k) (s ++ '\'' :: '\'' :: '\'' :: c :: rest) =
      some (List.replicate k '\'' ++ s, c :: rest) := by
  induction s generalizing k longest with
  | nil =>
    have hk := (le_longestRun '\'' k longest []).1.trans hrun
    rw [List.append_nil]
    exact scan_close rfl hc hk rest
  | cons d s ih =>
    have hk := (le_longestRun '\'' k longest (d :: s)).1.trans hrun
    have hmore : ∀ e ∈ s, isTextChar e = true ∨ e = '\n' :=
      fun e he => htext e (List.mem_cons_of_mem _ he)
    rw [longestRun] at hrun
    split_ifs at hrun with hd
    · subst hd
      rw [List.cons_append, scan_quote (q := ⟨'\'', true⟩) rfl (by omega), ih hrun hmore,
        List.replicate_succ', List.append_assoc]
      rfl
    · have hstep : step ⟨'\'', true⟩ d .plain = some (.go [d] .plain) := by
        rcases htext d List.mem_cons_self with htext | rfl
        · exact plain_text hd (.inr rfl) htext
        · rfl
      exact scan_char (reads_step hstep) hd hk (ih (k := 0) hrun hmore)

theorem skipNewline_of_head (h : ∀ d ∈ s.head?, d ≠ '\n' ∧ d ≠ '\r') : skipNewline s = s := by
  cases s with
  | nil => rfl
  | cons d s =>
    obtain ⟨hfeed, hreturn⟩ := h d rfl
    rw [skipNewline]
    · rintro cs ⟨⟩
      exact hfeed rfl
    · rintro cs ⟨⟩
      exact hreturn rfl

theorem readLine_quote (ha : a = '"' ∨ a = '\'') (cs : List Char) :
    readLine (a :: cs) = scan ⟨a, false⟩ .plain cs := if_pos ha

theorem read_line (ha : a = '"' ∨ a = '\'') {body : List Char} (hbody : body.head? ≠ some a)
    (hc : c ≠ a) (rest : List Char) :
    read (a :: (body ++ a :: c :: rest)) = scan ⟨a, false⟩ .plain (body ++ a :: c :: rest) := by
  rw [← readLine_quote ha]
  cases body with
  | nil => exact if_neg fun h => hc h.2.1.symm
  | cons b body =>
    have hb : b ≠ a := fun h => hbody (congrArg some h)
    cases body with
    | nil => exact if_neg fun h => hb h.1.symm
    | cons d body => exact if_neg fun h => hb h.1.symm

theorem read_block (ha : a = '"' ∨ a = '\'') {body : List Char}
    (hbody : s.any (· == '\n') = false → ∀ d ∈ body.head?, d ≠ '\n' ∧ d ≠ '\r') :
    read (a :: a :: a :: (lead s ++ body)) = scan ⟨a, true⟩ .plain body := by
  rw [read, if_pos ⟨rfl, rfl, ha⟩, lead]
  split_ifs with hfeed
  · rfl
  · rw [List.nil_append, skipNewline_of_head (hbody (Bool.eq_false_iff.mpr hfeed))]

theorem read_basic (hc : c ≠ '"') (s rest : List Char) :
    read ('"' :: (escaped false 0 s ++ '"' :: c :: rest)) = some (s, c :: rest) := by
  have hhead : (escaped false 0 s).head? ≠ some '"' := by
    cases s with
    | nil => exact nofun
    | cons d s =>
      rw [escaped]
      split_ifs with hd hk
      · cases hk.1
      · exact fun h => absurd (Option.some.inj h) (by decide)
      · obtain ⟨e, es, hspelled, hne, -⟩ := spelled_cons false d
        rw [hspelled]
        exact fun h => hne hd (Option.some.inj h)
  rw [read_line (.inl rfl) hhead hc]
  exact (reads_escaped 0 s).all rfl _

theorem read_literal (hc : c ≠ '\'') (hquote : '\'' ∉ s) (htext : ∀ d ∈ s, isTextChar d = true)
    (rest : List Char) : read ('\'' :: (s ++ '\'' :: c :: rest)) = some (s, c :: rest) := by
  rw [read_line (.inr rfl) (fun h => hquote (List.mem_of_mem_head? h)) hc]
  exact (reads_literal hquote htext).all rfl _

theorem read_escaped_block (hc : c ≠ '"') (s rest : List Char) :
    read ('"' :: '"' :: '"' :: (lead s ++ (escaped true 0 s ++ '"' :: '"' :: '"' :: c :: rest))) =
      some (s, c :: rest) := by
  rw [read_block (.inl rfl)]
  · exact scan_escaped hc (k := 0) (by decide) s rest
  · intro hfeed d hd
    cases s with
    | nil =>
      cases hd
      decide
    | cons e s =>
      rw [escaped] at hd
      split_ifs at hd with he
      · cases hd
        exact he ▸ by decide
      · cases hd
        decide
      · obtain ⟨f, fs, hspelled, -, hend⟩ := spelled_cons true e
        rw [hspelled] at hd
        cases hd
        exact hend (by simpa using (List.any_eq_false.mp hfeed) e List.mem_cons_self)

theorem read_literal_block (hc : c ≠ '\'') (hrun : longestRun '\'' 0 0 s ≤ 2)
    (htext : ∀ d ∈ s, isTextChar d = true ∨ d = '\n') (rest : List Char) :
    read ('\'' :: '\'' :: '\'' :: (lead s ++ (s ++ '\'' :: '\'' :: '\'' :: c :: rest))) =
      some (s, c :: rest) := by
  rw [read_block (.inr rfl)]
  · exact scan_literal hc (k := 0) hrun htext rest
  · intro hfeed d hd
    cases s with
    | nil =>
      cases hd
      decide
    | cons e s =>
      cases hd
      have hne : d ≠ '\n' := by simpa using (List.any_eq_false.mp hfeed) d List.mem_cons_self
      refine ⟨hne, ?_⟩
      rintro rfl
      rcases htext '\r' List.mem_cons_self with h | h <;> cases h

theorem text_of_no_control (h : s.any isControl = false) :
    ∀ d ∈ s, isTextChar d = true ∨ d = '\n' := by
  intro d hd
  have hcontrol := List.any_eq_false.mp h d hd
  by_cases htext : isTextChar d = true
  · exact .inl htext
  · simpa [isControl, htext] using hcontrol

/-- A written string is read back, up to whatever stands behind it unless that is a quote. -/
theorem read_write (hdouble : c ≠ '"') (hsingle : c ≠ '\'') (s rest : List Char) :
    read (write s ++ c :: rest) = some (s, c :: rest) := by
  have hbasic := read_basic hdouble s rest
  have hblock := read_escaped_block hdouble s rest
  rw [write]
  split_ifs with _ hquote _ hrun
  · simpa using hbasic
  · simp only [Bool.and_eq_true, Bool.not_eq_true', beq_iff_eq] at hquote
    obtain ⟨⟨hcontrol, hfeed⟩, hsingles⟩ := hquote
    have htext : ∀ d ∈ s, isTextChar d = true := by
      intro d hd
      refine (text_of_no_control hcontrol d hd).resolve_right ?_
      simpa using List.any_eq_false.mp hfeed d hd
    simpa using read_literal hsingle (not_mem_of_longestRun hsingles) htext rest
  · simpa using hblock
  · simp only [Bool.and_eq_true, Bool.not_eq_true', decide_eq_true_eq] at hrun
    simpa using read_literal_block hsingle hrun.2 (text_of_no_control hrun.1) rest
  · simpa using hblock
  · simpa using hbasic

theorem write_cons (s : List Char) : ∃ a cs, write s = a :: cs ∧ (a = '"' ∨ a = '\'') := by
  rw [write]
  split_ifs
  · exact ⟨_, _, rfl, .inl rfl⟩
  · exact ⟨_, _, rfl, .inr rfl⟩
  · exact ⟨_, _, rfl, .inl rfl⟩
  · exact ⟨_, _, rfl, .inr rfl⟩
  · exact ⟨_, _, rfl, .inl rfl⟩
  · exact ⟨_, _, rfl, .inl rfl⟩

end BrowserActions.Toml.Quoted
