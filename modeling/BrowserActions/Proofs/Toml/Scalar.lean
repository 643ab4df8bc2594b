import Mathlib
import BrowserActions.Proofs.Json.Written
import BrowserActions.Proofs.Toml.Quoted
import BrowserActions.Toml.Reader

/-!
# Values read back

Written integers, truth values and strings, each read in front of a line feed. Digits could also be
the beginning of a date, a time or a float; what tells them apart is that no mark follows them.
-/
namespace BrowserActions.Toml

open Number Text

variable {ds rest : List Char} {c : Char} {n : Nat}

def Digits (ds : List Char) : Prop := ∀ c ∈ ds, c.isDigit = true

theorem digits_toDigits (n : Nat) : Digits (Nat.toDigits 10 n) := fun _ => Json.isDigit_toDigits

theorem moreDigits_append (h : Digits ds) (rest : List Char) :
    moreDigits Char.isDigit (ds ++ '\n' :: rest) = (ds, '\n' :: rest) := by
  induction ds with
  | nil => cases rest <;> rfl
  | cons c ds ih =>
    obtain ⟨hc, hds⟩ := List.forall_mem_cons.mp h
    obtain ⟨d, more, hmore⟩ : ∃ d more, ds ++ '\n' :: rest = d :: more :=
      List.exists_cons_of_ne_nil (by simp)
    have htail := ih hds
    rw [List.cons_append, hmore, moreDigits, if_pos hc, ← hmore, htail]

theorem toDigits_head (hn : 0 < n) : ∃ d ds, Nat.toDigits 10 n = d :: ds ∧ d ≠ '0' := by
  obtain ⟨k, ds, hds, hpos, hlt⟩ := Json.toDigits_cons hn
  exact ⟨_, ds, hds, by interval_cases k <;> decide⟩

theorem wholeDigits_toDigits (n : Nat) (rest : List Char) :
    wholeDigits (Nat.toDigits 10 n ++ '\n' :: rest) = some (Nat.toDigits 10 n, '\n' :: rest) := by
  rcases Nat.eq_zero_or_pos n with rfl | hn
  · rfl
  · obtain ⟨d, ds, hds, hne⟩ := toDigits_head hn
    have hall := digits_toDigits n
    rw [hds] at hall ⊢
    rw [List.cons_append, wholeDigits]
    · rw [digits, if_pos (hall _ List.mem_cons_self), ← List.cons_append, moreDigits_append hall]
    · rintro cs ⟨⟩
      exact hne rfl

theorem valueInBase_toDigits (n : Nat) : valueInBase 10 (Nat.toDigits 10 n) = n := by
  have hdigits : ∀ c ∈ Nat.toDigits 10 n, digitValue c = c.toNat - '0'.toNat :=
    fun c hc => if_pos (digits_toDigits n c hc)
  calc valueInBase 10 (Nat.toDigits 10 n) = Nat.ofDigitChars 10 (Nat.toDigits 10 n) 0 :=
        List.foldl_ext _ _ 0 fun m c hc => by rw [hdigits c hc]
    _ = n := Nat.ofDigitChars_ten_toDigits

theorem sign_digits (hne : ds ≠ []) (h : Digits ds) (rest : List Char) :
    sign (ds ++ rest) = (false, ds ++ rest) := by
  obtain ⟨d, ds, rfl⟩ := List.exists_cons_of_ne_nil hne
  have hd := h d List.mem_cons_self
  rw [List.cons_append, sign]
  · rintro cs ⟨⟩
    cases hd
  · rintro cs ⟨⟩
    cases hd

theorem strip_fixed (h : Digits ds) (hc : c.isDigit = false) (hline : c ≠ '\n') {count : Nat}
    {p : Nat × List Char} (hp : fixed count (ds ++ '\n' :: rest) = some p) :
    strip [c] p.2 = none := by
  rw [fixed] at hp
  split at hp
  next hcount =>
    obtain rfl := Option.some.inj hp
    have hle : count ≤ ds.length := by
      by_contra hlt
      have hfeed : '\n' ∈ (ds ++ '\n' :: rest).take count := by
        rw [List.take_append, List.mem_append]
        refine .inr ?_
        obtain ⟨k, hk⟩ : ∃ k, count - ds.length = k + 1 := ⟨count - ds.length - 1, by omega⟩
        rw [hk]
        exact List.mem_cons_self
      have hdigit := List.all_eq_true.mp hcount.2 '\n' hfeed
      cases hdigit
    rw [List.drop_append_of_le_length hle]
    cases hdrop : ds.drop count with
    | nil => exact if_neg hline
    | cons d more =>
      have hd := h d (List.mem_of_mem_drop (hdrop ▸ List.mem_cons_self))
      refine if_neg ?_
      rintro rfl
      rw [hd] at hc
      cases hc
  · cases hp

theorem date_digits (h : Digits ds) (rest : List Char) : date (ds ++ '\n' :: rest) = none := by
  rw [date]
  cases hp : fixed 4 (ds ++ '\n' :: rest) with
  | none => rfl
  | some p =>
    have hmark := strip_fixed (c := '-') h (by decide) (by decide) hp
    simp only [Option.bind_eq_bind, Option.bind_some, hmark, Option.bind_none]

theorem time_digits (h : Digits ds) (rest : List Char) : time (ds ++ '\n' :: rest) = none := by
  rw [time]
  cases hp : fixed 2 (ds ++ '\n' :: rest) with
  | none => rfl
  | some p =>
    have hmark := strip_fixed (c := ':') h (by decide) (by decide) hp
    simp only [Option.bind_eq_bind, Option.bind_some, hmark, Option.bind_none]

theorem dateTime_digits (h : Digits ds) (rest : List Char) :
    dateTime (ds ++ '\n' :: rest) = none := by
  rw [dateTime, date_digits h, time_digits h]
  rfl

theorem float_toDigits (n : Nat) (rest : List Char) :
    float (Nat.toDigits 10 n ++ '\n' :: rest) = none := by
  rw [float, sign_digits Nat.toDigits_ne_nil (digits_toDigits n)]
  simp only [wholeDigits_toDigits, Option.bind_eq_bind, Option.bind_some]
  rfl

theorem special_digits (hne : ds ≠ []) (h : Digits ds) (rest : List Char) :
    special (ds ++ rest) = none := by
  obtain ⟨d, ds, rfl⟩ := List.exists_cons_of_ne_nil hne
  have hd := h d List.mem_cons_self
  have hi : 'i' ≠ d := by
    rintro rfl
    cases hd
  have hn : 'n' ≠ d := by
    rintro rfl
    cases hd
  rw [special, sign_digits hne h]
  simp only [List.cons_append, strip, if_neg hi, if_neg hn, Option.map_none]

theorem toDigits_ne_based {x : Char} (hx : x ≠ '\n') (n : Nat) (rest cs : List Char) :
    Nat.toDigits 10 n ++ '\n' :: rest ≠ '0' :: x :: cs := by
  rcases Nat.eq_zero_or_pos n with rfl | hn
  · exact fun h => hx (List.head_eq_of_cons_eq (List.tail_eq_of_cons_eq h)).symm
  · obtain ⟨d, ds, hds, hne⟩ := toDigits_head hn
    rw [hds]
    exact fun h => hne (List.head_eq_of_cons_eq h)

theorem integerItem_fits (h : n < twoTo 63) : integerItem n = some (.integer n) := by
  have hlow : -(twoTo 63 : Int) ≤ n :=
    (Int.neg_nonpos_of_nonneg (Int.natCast_nonneg _)).trans (Int.natCast_nonneg _)
  rw [integerItem, if_pos ⟨hlow, Int.ofNat_lt.mpr h⟩]

theorem integer_whole {cs : List Char} (hmark : ∀ x ≠ '\n', ∀ more, cs ≠ '0' :: x :: more)
    (hsign : sign cs = (false, cs)) (hwhole : wholeDigits cs = some (ds, rest)) :
    integer cs = (integerItem (valueInBase 10 ds)).bind fun i => some (i, rest) := by
  rw [integer]
  · rw [hsign]
    dsimp only
    rw [hwhole, Option.bind_eq_bind, Option.bind_some, if_neg (by decide)]
    rfl
  · exact hmark 'x' (by decide)
  · exact hmark 'o' (by decide)
  · exact hmark 'b' (by decide)

theorem integer_toDigits (h : n < twoTo 63) (rest : List Char) :
    integer (Nat.toDigits 10 n ++ '\n' :: rest) = some (.integer n, '\n' :: rest) := by
  have hsign := sign_digits Nat.toDigits_ne_nil (digits_toDigits n) ('\n' :: rest)
  rw [integer_whole (fun x hx => toDigits_ne_based hx n rest) hsign (wholeDigits_toDigits n rest),
    valueInBase_toDigits, integerItem_fits h]
  rfl

theorem number_toDigits (h : n < twoTo 63) (rest : List Char) :
    number (Nat.toDigits 10 n ++ '\n' :: rest) = some (.integer n, '\n' :: rest) := by
  have hdigits := digits_toDigits n
  rw [number, dateTime_digits hdigits, float_toDigits, special_digits Nat.toDigits_ne_nil hdigits,
    integer_toDigits h]
  rfl

/-- The text stands for the item on any line of its own. It does not begin with a gap. -/
structure Denotes (text : List Char) (item : Item) : Prop where
  head : ∀ c ∈ text.head?, isGap c = false
  read : ∀ room rest, value room (text ++ '\n' :: rest) = some (item, '\n' :: rest)

theorem value_eq (room : Nat) : ∃ nested, value room = valueAround nested := by
  cases room with
  | zero => exact ⟨_, rfl⟩
  | succ room => exact ⟨_, rfl⟩

theorem valueAround_digit (hc : c.isDigit = true) (nested : Option (Reader Item))
    (rest : List Char) : valueAround nested (c :: rest) = number (c :: rest) := by
  have hne : ∀ x : Char, x.isDigit = false → c ≠ x := by
    rintro x hx rfl
    rw [hc] at hx
    cases hx
  rw [valueAround, if_neg (by simp [hne]), if_neg (hne _ rfl), if_neg (hne _ rfl),
    if_neg (hne _ rfl), if_neg (hne _ rfl)]

theorem denotes_integer (h : n < twoTo 63) : Denotes (Nat.toDigits 10 n) (.integer n) := by
  obtain ⟨d, ds, hds⟩ := List.exists_cons_of_ne_nil (Nat.toDigits_ne_nil (b := 10) (n := n))
  have hd : d.isDigit = true := digits_toDigits n d (hds ▸ List.mem_cons_self)
  refine ⟨fun c hc => ?_, fun room rest => ?_⟩
  · rw [hds] at hc
    cases hc
    refine Bool.eq_false_iff.mpr fun hgap => ?_
    rcases (Bool.or_eq_true _ _).mp hgap with h | h <;>
    · rw [of_decide_eq_true h] at hd
      cases hd
  · obtain ⟨nested, hvalue⟩ := value_eq room
    have hread := number_toDigits h rest
    rw [hds, List.cons_append] at hread ⊢
    rw [hvalue, valueAround_digit hd, hread]

theorem denotes_boolean (b : Bool) :
    Denotes (if b then ['t', 'r', 'u', 'e'] else ['f', 'a', 'l', 's', 'e']) (.boolean b) := by
  refine ⟨fun c hc => ?_, fun room rest => ?_⟩
  · cases b <;>
    · cases hc
      rfl
  · obtain ⟨nested, hvalue⟩ := value_eq room
    rw [hvalue]
    cases b <;> rfl

theorem denotes_string (s : String) : Denotes (Quoted.write s.toList) (.string s) := by
  obtain ⟨q, cs, hwrite, hq⟩ := Quoted.write_cons s.toList
  refine ⟨fun c hc => ?_, fun room rest => ?_⟩
  · rw [hwrite] at hc
    cases hc
    rcases hq with rfl | rfl <;> rfl
  · obtain ⟨nested, hvalue⟩ := value_eq room
    have hread := Quoted.read_write (c := '\n') (by decide) (by decide) s.toList rest
    rw [hwrite, List.cons_append] at hread ⊢
    rw [hvalue, valueAround, if_pos hq, hread, Option.map_some, String.ofList_toList]

end BrowserActions.Toml
