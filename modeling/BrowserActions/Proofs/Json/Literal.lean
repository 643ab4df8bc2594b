import Mathlib
import BrowserActions.Proofs.Json.Written

/-!
# String literals inside other texts

A string literal is read off the front of a text up to the quote that closes it. A written string
is read so from the front of any text, since none of its quotes but the last can close it.
-/
namespace BrowserActions.Json

/-- The string that the scan is in, and the text behind the quote that closes it. -/
def Mode.close? (mode : Mode) : List Char → Option (String × List Char)
  | [] => none
  | c :: cs =>
    match mode.step c with
    | ([], mode) => mode.close? cs
    | ([.string s], _) => some (s, cs)
    | _ => none

/-- The string whose literal the text starts with, and the text behind the literal. -/
def literal? : List Char → Option (String × List Char)
  | '"' :: cs => (Mode.string []).close? cs
  | _ => none

theorem close_feed {mode mode' : Mode} {cs : List Char} (h : mode.feed cs = ([], mode'))
    (ds : List Char) : mode.close? (cs ++ ds) = mode'.close? ds := by
  induction cs generalizing mode with
  | nil => rw [(Prod.mk.inj h).2, List.nil_append]
  | cons c cs ih =>
    obtain ⟨htokens, hmode⟩ := Prod.mk.inj h
    obtain ⟨hnone, hrest⟩ := List.append_eq_nil_iff.mp htokens
    have hstep : mode.step c = ([], (mode.step c).2) := Prod.ext hnone rfl
    rw [List.cons_append, Mode.close?, hstep]
    exact ih (Prod.ext hrest hmode)

theorem literal_quote (s : String) (rest : List Char) :
    literal? (quote s ++ rest) = some (s, rest) := by
  obtain ⟨qs, hjoin, hfeed⟩ := feed_body s.toList []
  rw [List.append_nil] at hfeed
  rw [quote, List.cons_append, List.append_assoc, literal?, close_feed hfeed, List.singleton_append,
    Mode.close?, close_string hjoin]

/-- Whether a character escapes the next one, if it may be escaped itself. -/
def escapeStep (escaped : Bool) (c : Char) : Bool := c == '\\' && !escaped

def escapes (cs : List Char) : Bool := cs.foldl escapeStep false

theorem escapes_append {a : List Char} (h : escapes a = false) (b : List Char) :
    escapes (a ++ b) = escapes b := by
  rw [escapes, List.foldl_append, ← escapes, h, escapes]

theorem escapes_plain {c : Char} (h : c ≠ '\\') : escapes [c] = false := by
  simp [escapes, escapeStep, h]

theorem digitChar_plain {k : Nat} (h : k < 16) :
    0x20 ≤ k.digitChar.toNat ∧ k.digitChar ≠ '"' ∧ k.digitChar ≠ '\\' := by
  interval_cases k <;> decide

/-- What a written character is like: an escape ends in it, only a quote is written with one, and
that behind a backslash. -/
structure Sealed (cs : List Char) : Prop where
  closed : escapes cs = false
  quotes : ∀ a b, cs = a ++ '"' :: b → escapes a = true
  visible : ∀ c ∈ cs, 0x20 ≤ c.toNat

theorem sealed_nil : Sealed [] where
  closed := rfl
  quotes a b h := by simp at h
  visible := by simp

theorem Sealed.append {cs ds : List Char} (h : Sealed cs) (h' : Sealed ds) : Sealed (cs ++ ds) where
  closed := by rw [escapes_append h.closed, h'.closed]
  quotes a b heq := by
    rcases List.append_eq_append_iff.mp heq with ⟨a', rfl, hds⟩ | ⟨b', hcs, hb⟩
    · rw [escapes_append h.closed]
      exact h'.quotes a' b hds
    · cases b' with
      | nil =>
        rw [List.append_nil] at hcs
        subst hcs
        have := h'.quotes [] b hb.symm
        cases this
      | cons d b' =>
        obtain ⟨rfl, rfl⟩ := List.cons.inj hb
        exact h.quotes a b' hcs
  visible c hc := by
    rcases List.mem_append.mp hc with hc | hc
    · exact h.visible c hc
    · exact h'.visible c hc

theorem sealed_char {c : Char} (hlow : 0x20 ≤ c.toNat) (hquote : c ≠ '"') (hback : c ≠ '\\') :
    Sealed [c] where
  closed := escapes_plain hback
  quotes a b h := by
    have hmem : '"' ∈ [c] := h ▸ List.mem_append_right _ List.mem_cons_self
    exact absurd (List.mem_singleton.mp hmem).symm hquote
  visible := by simpa using hlow

theorem sealed_escape {c : Char} (hlow : 0x20 ≤ c.toNat) : Sealed ['\\', c] where
  closed := by simp [escapes, escapeStep]
  quotes a b h := by
    rcases a with _ | ⟨d, _ | ⟨e, a⟩⟩
    · have hfirst := (List.cons.inj h).1
      cases hfirst
    · rw [← (List.cons.inj h).1]
      rfl
    · simp at h
  visible := by simpa using hlow

theorem sealed_escapeChar (c : Char) : Sealed (escapeChar c) := by
  unfold escapeChar
  split
  case h_8 hquote hback _ _ _ _ _ =>
    split
    next hlt =>
      obtain ⟨hlow₁, hquote₁, hback₁⟩ := digitChar_plain (k := c.toNat / 16) (by omega)
      obtain ⟨hlow₂, hquote₂, hback₂⟩ := digitChar_plain (k := c.toNat % 16) (by omega)
      have hzero : Sealed ['0'] := sealed_char (by decide) (by decide) (by decide)
      have hdigits := (sealed_char hlow₁ hquote₁ hback₁).append (sealed_char hlow₂ hquote₂ hback₂)
      exact (sealed_escape (c := 'u') (by decide)).append (hzero.append (hzero.append hdigits))
    next hge => exact sealed_char (Nat.le_of_not_lt hge) hquote hback
  all_goals exact sealed_escape (by decide)

theorem sealed_body (cs : List Char) : Sealed (cs.flatMap escapeChar) := by
  induction cs with
  | nil => exact sealed_nil
  | cons c cs ih =>
    rw [List.flatMap_cons]
    exact (sealed_escapeChar c).append ih

/-- A literal of a string: it is read in front of any text, and of its quotes only the first and the
last are not escaped. -/
structure IsLiteral (s : String) (cs : List Char) : Prop where
  read : ∀ rest, literal? (cs ++ rest) = some (s, rest)
  enclosed : ∃ body, cs = '"' :: (body ++ ['"'])
  quotes : ∀ a b, cs = a ++ '"' :: b → (escapes a = false ↔ a = [] ∨ b = [])
  visible : ∀ c ∈ cs, 0x20 ≤ c.toNat

theorem isLiteral_quote (s : String) : IsLiteral s (quote s) where
  read := literal_quote s
  enclosed := ⟨_, rfl⟩
  quotes a b h := by
    have hopen : escapes ['"'] = false := rfl
    have hbody := sealed_body s.toList
    rcases a with _ | ⟨c, a⟩
    · exact iff_of_true rfl (Or.inl rfl)
    obtain ⟨rfl, hrest⟩ : '"' = c ∧ s.toList.flatMap escapeChar ++ ['"'] = a ++ '"' :: b :=
      List.cons.inj h
    rw [← List.singleton_append, escapes_append hopen]
    rcases List.eq_nil_or_concat b with rfl | ⟨b, d, rfl⟩
    · have ha : s.toList.flatMap escapeChar = a := List.append_cancel_right hrest
      rw [← ha, hbody.closed]
      simp
    · have hb : s.toList.flatMap escapeChar = a ++ '"' :: b := by
        rw [List.concat_eq_append, ← List.cons_append, ← List.append_assoc] at hrest
        exact (List.append_inj' hrest rfl).1
      rw [hbody.quotes a b hb]
      simp
  visible c hc := by
    rcases List.mem_cons.mp hc with rfl | hc
    · decide
    rcases List.mem_append.mp hc with hc | hc
    · exact (sealed_body s.toList).visible c hc
    · rw [List.mem_singleton.mp hc]
      decide

end BrowserActions.Json
