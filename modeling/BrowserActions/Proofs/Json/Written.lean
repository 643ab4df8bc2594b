import Mathlib
import BrowserActions.Json.Writer
import BrowserActions.Proofs.Json.Scan

/-!
# The tokens of written JSON

Scanning the compact text of a value gives the tokens that the value consists of, whatever comes
behind it, provided its numbers are integers that fit 64 bits. Each kind of literal has a lemma of
the form: scanned in front of some rest, it gives its token and then the tokens of the rest.
-/
namespace BrowserActions.Json

open Number

/-- No numeral can go on with the first character of the text. -/
def Delimited (rest : List Char) : Prop :=
  ∀ c ∈ rest.head?, c.isDigit = false ∧ c ≠ '.' ∧ c ≠ 'e' ∧ c ≠ 'E'

theorem delimited_nil : Delimited [] := by simp [Delimited]

theorem delimited_cons {c : Char} (h : c.isDigit = false ∧ c ≠ '.' ∧ c ≠ 'e' ∧ c ≠ 'E')
    (cs : List Char) : Delimited (c :: cs) := by
  simpa [Delimited] using h

theorem isDigit_toDigits {n : Nat} {c : Char} (h : c ∈ Nat.toDigits 10 n) : c.isDigit = true :=
  Nat.isDigit_of_mem_toDigits (by decide) (by decide) h

theorem toDigits_cons {n : Nat} (hn : 0 < n) :
    ∃ k ds, Nat.toDigits 10 n = k.digitChar :: ds ∧ 0 < k ∧ k < 10 := by
  induction n using Nat.strong_induction_on with
  | _ n ih =>
    by_cases hlt : n < 10
    · exact ⟨n, [], Nat.toDigits_of_lt_base hlt, hn, hlt⟩
    · obtain ⟨k, ds, hd, hk⟩ := ih (n / 10) (by omega) (by omega)
      refine ⟨k, ds ++ [(n % 10).digitChar], ?_, hk⟩
      rw [Nat.toDigits_of_base_le (by decide) (by omega), hd, List.cons_append]

theorem le_ofDigitChars (ds : List Char) (g : Nat) : g ≤ Nat.ofDigitChars 10 ds g := by
  induction ds generalizing g with
  | nil => simp
  | cons d ds ih =>
    rw [Nat.ofDigitChars_cons]
    exact le_trans (by omega) (ih _)

theorem gatherWhole_fit {ds : List Char} {g : Nat}
    (h : Nat.ofDigitChars 10 ds g < UInt64.size) :
    Numeral.gatherWhole g ds = (Nat.ofDigitChars 10 ds g, 0) := by
  induction ds generalizing g with
  | nil => simp [Numeral.gatherWhole]
  | cons d ds ih =>
    rw [Nat.ofDigitChars_cons] at h ⊢
    have hfit : 10 * g + Numeral.digitValue d < UInt64.size :=
      lt_of_le_of_lt (le_ofDigitChars ds _) h
    rw [Numeral.gatherWhole, if_pos hfit]
    exact ih h

theorem value_natural {n : Nat} (h : n < UInt64.size) :
    Numeral.value? ⟨false, Nat.toDigits 10 n, [], false, []⟩ = some (.integer n) := by
  have hg : Numeral.gatherWhole 0 (Nat.toDigits 10 n) = (n, 0) := by
    rw [gatherWhole_fit] <;> simp [h]
  simp [Numeral.value?, hg]

theorem value_negative {n : Nat} (hn : 0 < n) (h : n ≤ twoTo 63) :
    Numeral.value? ⟨true, Nat.toDigits 10 n, [], false, []⟩ = some (.integer (-n)) := by
  have hlt : n < UInt64.size := lt_of_le_of_lt h (by decide)
  have hg : Numeral.gatherWhole 0 (Nat.toDigits 10 n) = (n, 0) := by
    rw [gatherWhole_fit] <;> simp [hlt]
  simp [Numeral.value?, hg, hn.ne', h]

theorem feed_whole {ds : List Char} (h : ∀ c ∈ ds, c.isDigit = true) (x : Numeral) :
    (Mode.numeral .whole x).feed ds = ([], .numeral .whole { x with whole := x.whole ++ ds }) := by
  induction ds generalizing x with
  | nil => simp [Mode.feed]
  | cons d ds ih =>
    have hd := h d List.mem_cons_self
    have hstep : (Mode.numeral .whole x).step d =
        ([], .numeral .whole { x with whole := x.whole ++ [d] }) := by
      simp [Mode.step, Numeral.extend?, hd]
    rw [Mode.feed, hstep, ih fun c hc => h c (List.mem_cons_of_mem _ hc)]
    simp

theorem scan_numeral_end {part : Numeral.Part} (hp : part = .zero ∨ part = .whole) (x : Numeral)
    {rest : List Char} (hr : Delimited rest) :
    (Mode.numeral part x).scan rest = .ofNumeral x :: Mode.between.scan rest := by
  cases rest with
  | nil => rcases hp with rfl | rfl <;> rfl
  | cons c rest =>
    obtain ⟨hd, hpoint, he, hE⟩ := hr c rfl
    have hnone : x.extend? c part = none := by
      rcases hp with rfl | rfl <;> simp [Numeral.extend?, hd, hpoint, he, hE]
    have hmay : part.mayEndBefore c = true := by
      rcases hp with rfl | rfl <;> simp [Numeral.Part.mayEndBefore, Numeral.Part.isEnd, hd]
    rw [scan_cons, scan_cons]
    simp only [Mode.step, hnone, hmay, if_true, List.cons_append]

theorem scan_digits (negative : Bool) (mode : Mode)
    (hzero : mode.step '0' = ([], .numeral .zero ⟨negative, ['0'], [], false, []⟩))
    (hdigit : ∀ k : Nat, 0 < k → k < 10 → mode.step k.digitChar =
      ([], .numeral .whole ⟨negative, [k.digitChar], [], false, []⟩))
    (n : Nat) {rest : List Char} (hr : Delimited rest) :
    mode.scan (Nat.toDigits 10 n ++ rest) =
      .ofNumeral ⟨negative, Nat.toDigits 10 n, [], false, []⟩ :: Mode.between.scan rest := by
  rcases Nat.eq_zero_or_pos n with rfl | hn
  · rw [Nat.toDigits_zero, List.singleton_append, scan_cons, hzero]
    exact scan_numeral_end (Or.inl rfl) _ hr
  · obtain ⟨k, ds, hd, h0, hk⟩ := toDigits_cons hn
    have hall : ∀ c ∈ ds, c.isDigit = true := fun c hc =>
      isDigit_toDigits (hd ▸ List.mem_cons_of_mem _ hc)
    rw [hd, List.cons_append, scan_cons, hdigit k h0 hk, scan_append, feed_whole hall]
    exact scan_numeral_end (Or.inr rfl) _ hr

/-- The integers that JSON keeps as integers: those that fit 64 bits, signed or unsigned. -/
def IsWord (n : Int) : Prop := -(twoTo 63 : Int) ≤ n ∧ n < (UInt64.size : Int)

instance (n : Int) : Decidable (IsWord n) := inferInstanceAs (Decidable (_ ∧ _))

theorem start_digit {k : Nat} (h : 0 < k) (hk : k < 10) :
    Mode.start k.digitChar = ([], .numeral .whole ⟨false, [k.digitChar], [], false, []⟩) := by
  interval_cases k <;> rfl

theorem minus_digit {k : Nat} (h : 0 < k) (hk : k < 10) :
    (Mode.numeral .minus ⟨true, [], [], false, []⟩).step k.digitChar =
      ([], .numeral .whole ⟨true, [k.digitChar], [], false, []⟩) := by
  interval_cases k <;> rfl

theorem scan_integer {n : Int} (h : IsWord n) {rest : List Char} (hr : Delimited rest) :
    Mode.between.scan (renderInteger n ++ rest) =
      .number (.integer n) :: Mode.between.scan rest := by
  cases n with
  | ofNat n =>
    have hn : n < UInt64.size := by simpa using h.2
    rw [renderInteger, scan_digits false .between rfl (fun _ => start_digit) n hr,
      Token.ofNumeral, value_natural hn]
    rfl
  | negSucc n =>
    have hn : n + 1 ≤ twoTo 63 := by
      have := h.1
      omega
    rw [renderInteger, List.cons_append, scan_cons]
    change (Mode.numeral .minus ⟨true, [], [], false, []⟩).scan (Nat.toDigits 10 (n + 1) ++ rest) = _
    rw [scan_digits true _ rfl (fun _ => minus_digit) (n + 1) hr, Token.ofNumeral,
      value_negative (Nat.succ_pos n) hn]
    rfl

def Piece.Is (p : Piece) (c : Char) : Prop :=
  p = .char c ∨ p = .unit c.toNat ∧ c.toNat < 0xD800

theorem join_cons {p : Piece} {c : Char} (h : p.Is c) (ps : List Piece) :
    Piece.join? (p :: ps) = (Piece.join? ps).map (c :: ·) := by
  rcases h with rfl | ⟨rfl, hlt⟩
  · rw [Piece.join?]
  · rw [Piece.join?.eq_def]
    simp only [if_pos (Or.inl hlt), Char.ofNat_toNat]

theorem hexValue_digitChar {k : Nat} (h : k < 16) : hexValue? k.digitChar = some k := by
  interval_cases k <;> rfl

theorem feed_control {c : Char} (h : c.toNat < 0x20) (ps : List Piece) :
    (Mode.string ps).feed
      ['\\', 'u', '0', '0', Nat.digitChar (c.toNat / 16), Nat.digitChar (c.toNat % 16)] =
      ([], .string (.unit c.toNat :: ps)) := by
  have h₁ := hexValue_digitChar (k := c.toNat / 16) (by omega)
  have h₂ := hexValue_digitChar (k := c.toNat % 16) (by omega)
  have h₀ : hexValue? '0' = some 0 := rfl
  simp [Mode.feed, Mode.step, h₀, h₁, h₂]
  omega

theorem feed_escapeChar (c : Char) (ps : List Piece) :
    ∃ p : Piece, p.Is c ∧ (Mode.string ps).feed (escapeChar c) = ([], .string (p :: ps)) := by
  unfold escapeChar
  split
  case h_8 hquote hbackslash _ _ _ _ _ =>
    split
    next hlt => exact ⟨.unit c.toNat, Or.inr ⟨rfl, by omega⟩, feed_control hlt ps⟩
    next hge =>
      refine ⟨.char c, Or.inl rfl, ?_⟩
      have hq : c ≠ '"' := fun h => hquote h
      have hb : c ≠ '\\' := fun h => hbackslash h
      simp [Mode.feed, Mode.step, hq, hb, hge]
  all_goals exact ⟨_, Or.inl rfl, rfl⟩

theorem feed_body (cs : List Char) (ps : List Piece) :
    ∃ qs, Piece.join? qs = some cs ∧
      (Mode.string ps).feed (cs.flatMap escapeChar) = ([], .string (qs.reverse ++ ps)) := by
  induction cs generalizing ps with
  | nil => exact ⟨[], rfl, rfl⟩
  | cons c cs ih =>
    obtain ⟨p, hp, hfeed⟩ := feed_escapeChar c ps
    obtain ⟨qs, hjoin, hrest⟩ := ih (p :: ps)
    refine ⟨p :: qs, by rw [join_cons hp, hjoin]; rfl, ?_⟩
    rw [List.flatMap_cons, feed_append, hfeed, hrest, List.reverse_cons, List.append_assoc]
    rfl

theorem close_string {s : String} {qs : List Piece} (h : Piece.join? qs = some s.toList) :
    (Mode.string qs.reverse).step '"' = ([.string s], .between) := by
  simp [Mode.step, Token.ofPieces, h]

/-- A written string is read back whatever its characters are. -/
theorem scan_quote (s : String) (rest : List Char) :
    Mode.between.scan (quote s ++ rest) = .string s :: Mode.between.scan rest := by
  obtain ⟨qs, hjoin, hfeed⟩ := feed_body s.toList []
  rw [List.append_nil] at hfeed
  rw [quote, List.cons_append, List.append_assoc, List.singleton_append, scan_cons]
  change (Mode.string []).scan (s.toList.flatMap escapeChar ++ '"' :: rest) = _
  rw [scan_append, hfeed, scan_cons, close_string hjoin]
  rfl

mutual

/-- All numbers in the value are integers that JSON keeps. -/
def Exact : Json → Prop
  | .integer n => IsWord n
  | .double _ => False
  | .array items => ItemsExact items
  | .object members => MembersExact members
  | .null | .bool _ | .string _ => True

def ItemsExact : List Json → Prop
  | [] => True
  | v :: vs => Exact v ∧ ItemsExact vs

def MembersExact : List (String × Json) → Prop
  | [] => True
  | m :: ms => Exact m.2 ∧ MembersExact ms

end

theorem itemsExact_of_forall {vs : List Json} (h : ∀ v ∈ vs, v.Exact) : ItemsExact vs := by
  induction vs with
  | nil => trivial
  | cons v vs ih =>
    obtain ⟨hfirst, hrest⟩ := List.forall_mem_cons.mp h
    exact ⟨hfirst, ih hrest⟩

theorem membersExact_of_forall {ms : List (String × Json)} (h : ∀ m ∈ ms, m.2.Exact) :
    MembersExact ms := by
  induction ms with
  | nil => trivial
  | cons m ms ih =>
    obtain ⟨hfirst, hrest⟩ := List.forall_mem_cons.mp h
    exact ⟨hfirst, ih hrest⟩

mutual

def spelling : Json → List Token
  | .null => [.null]
  | .bool b => [.bool b]
  | .integer n => [.number (.integer n)]
  | .double x => [.number (.double x)]
  | .string s => [.string s]
  | .array [] => [.openArray, .closeArray]
  | .array (v :: vs) => .openArray :: (spelling v ++ (itemSpelling vs ++ [.closeArray]))
  | .object [] => [.openObject, .closeObject]
  | .object (m :: ms) =>
    .openObject :: .string m.1 :: .colon :: (spelling m.2 ++ (memberSpelling ms ++ [.closeObject]))

def itemSpelling : List Json → List Token
  | [] => []
  | v :: vs => .comma :: (spelling v ++ itemSpelling vs)

def memberSpelling : List (String × Json) → List Token
  | [] => []
  | m :: ms => .comma :: .string m.1 :: .colon :: (spelling m.2 ++ memberSpelling ms)

end

theorem scan_mark {c : Char} {t : Token} (h : Mode.start c = ([t], .between)) (cs : List Char) :
    Mode.between.scan (c :: cs) = t :: Mode.between.scan cs := by
  rw [scan_cons, Mode.step, h]
  rfl

theorem delimited_items (vs : List Json) (rest : List Char) :
    Delimited (compactItems vs ++ ']' :: rest) := by
  cases vs with
  | nil => exact delimited_cons (by decide) _
  | cons v vs => rw [compactItems]; exact delimited_cons (by decide) _

theorem delimited_members (ms : List (String × Json)) (rest : List Char) :
    Delimited (compactMembers ms ++ '\x7d' :: rest) := by
  cases ms with
  | nil => exact delimited_cons (by decide) _
  | cons m ms => rw [compactMembers]; exact delimited_cons (by decide) _

mutual

theorem scan_compact : ∀ (v : Json), v.Exact → ∀ rest, Delimited rest →
    Mode.between.scan (v.compact ++ rest) = v.spelling ++ Mode.between.scan rest
  | .null, _, rest, _ => by rw [compact, spelling]; rfl
  | .bool true, _, rest, _ => by rw [compact, spelling]; rfl
  | .bool false, _, rest, _ => by rw [compact, spelling]; rfl
  | .integer n, h, rest, hr => by
    rw [compact, spelling, scan_integer (by simpa [Exact] using h) hr]
    rfl
  | .double x, h, _, _ => by simp [Exact] at h
  | .string s, _, rest, _ => by
    rw [compact, spelling, scan_quote]
    rfl
  | .array [], _, rest, _ => by rw [compact, spelling]; rfl
  | .array (v :: vs), h, rest, hr => by
    simp only [Exact, ItemsExact] at h
    rw [compact, spelling]
    simp only [List.cons_append, List.append_assoc, List.nil_append]
    rw [scan_mark rfl, scan_compact v h.1 _ (delimited_items vs rest),
      scan_compactItems vs h.2, scan_mark rfl]
  | .object [], _, rest, _ => by rw [compact, spelling]; rfl
  | .object (m :: ms), h, rest, hr => by
    simp only [Exact, MembersExact] at h
    rw [compact, spelling]
    simp only [List.cons_append, List.append_assoc, List.nil_append]
    rw [scan_mark rfl, scan_quote, scan_mark rfl,
      scan_compact m.2 h.1 _ (delimited_members ms rest), scan_compactMembers ms h.2,
      scan_mark rfl]

theorem scan_compactItems : ∀ (vs : List Json), ItemsExact vs → ∀ rest,
    Mode.between.scan (compactItems vs ++ ']' :: rest) =
      itemSpelling vs ++ Mode.between.scan (']' :: rest)
  | [], _, rest => rfl
  | v :: vs, h, rest => by
    simp only [ItemsExact] at h
    rw [compactItems, itemSpelling]
    simp only [List.cons_append, List.append_assoc]
    rw [scan_mark rfl, scan_compact v h.1 _ (delimited_items vs rest), scan_compactItems vs h.2]

theorem scan_compactMembers : ∀ (ms : List (String × Json)), MembersExact ms → ∀ rest,
    Mode.between.scan (compactMembers ms ++ '\x7d' :: rest) =
      memberSpelling ms ++ Mode.between.scan ('\x7d' :: rest)
  | [], _, rest => rfl
  | m :: ms, h, rest => by
    simp only [MembersExact] at h
    rw [compactMembers, memberSpelling]
    simp only [List.cons_append, List.append_assoc]
    rw [scan_mark rfl, scan_quote, scan_mark rfl,
      scan_compact m.2 h.1 _ (delimited_members ms rest), scan_compactMembers ms h.2]

end

theorem tokens_compact {v : Json} (h : v.Exact) : tokens v.compact = v.spelling := by
  simpa [tokens, Mode.scan, Mode.finish] using scan_compact v h [] delimited_nil

end BrowserActions.Json
