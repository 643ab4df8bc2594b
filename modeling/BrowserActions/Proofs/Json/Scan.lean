import Mathlib
import BrowserActions.Json.Reader
import BrowserActions.Proofs.Text.Trim

/-!
# Scanning in pieces

A scan of two pieces of text is a scan of the first and then, from where that stands, of the
second. A backtick is no JSON outside a string, and a text that stops inside a string is no JSON,
so a text cut before a backtick never reads as a value if the whole text does.
-/
namespace BrowserActions.Json

open Text

/-- The tokens that a piece of text completes, and where the scan stands behind it. -/
def Mode.feed (mode : Mode) : List Char → List Token × Mode
  | [] => ([], mode)
  | c :: cs => ((mode.step c).1 ++ ((mode.step c).2.feed cs).1, ((mode.step c).2.feed cs).2)

theorem scan_cons (mode : Mode) (c : Char) (cs : List Char) :
    mode.scan (c :: cs) = (mode.step c).1 ++ (mode.step c).2.scan cs := rfl

theorem scan_append (mode : Mode) (cs ds : List Char) :
    mode.scan (cs ++ ds) = (mode.feed cs).1 ++ (mode.feed cs).2.scan ds := by
  induction cs generalizing mode with
  | nil => rfl
  | cons c cs ih => simp only [List.cons_append, scan_cons, ih, Mode.feed, List.append_assoc]

theorem scan_eq_feed (mode : Mode) (cs : List Char) :
    mode.scan cs = (mode.feed cs).1 ++ (mode.feed cs).2.finish := by
  simpa [Mode.scan] using scan_append mode cs []

theorem feed_append (mode : Mode) (cs ds : List Char) :
    mode.feed (cs ++ ds) =
      ((mode.feed cs).1 ++ ((mode.feed cs).2.feed ds).1, ((mode.feed cs).2.feed ds).2) := by
  induction cs generalizing mode with
  | nil => rfl
  | cons c cs ih => simp only [List.cons_append, Mode.feed, ih, List.append_assoc]

theorem feed_induction {P : Mode → Prop} {Q : Char → Prop}
    (hstep : ∀ mode c, P mode → Q c → P (mode.step c).2) {mode : Mode} (hm : P mode)
    {cs : List Char} (hc : ∀ c ∈ cs, Q c) : P (mode.feed cs).2 := by
  induction cs generalizing mode with
  | nil => exact hm
  | cons c cs ih =>
    exact ih (hstep mode c hm (hc c List.mem_cons_self)) fun d hd => hc d (List.mem_cons_of_mem _ hd)

theorem step_broken (b : Building) : b.step .broken = none := by
  obtain ⟨frames, place⟩ := b
  cases place with
  | behind v => rcases frames with _ | ⟨⟨⟩ | ⟨⟩, frames⟩ <;> rfl
  | value => rfl
  | item => rfl
  | key => rfl
  | colon => rfl

theorem run_broken {ts : List Token} (h : .broken ∈ ts) (b : Building) :
    (b.run ts).whole = false := by
  induction ts generalizing b with
  | nil => simp at h
  | cons t ts ih =>
    rw [Building.run]
    rcases List.mem_cons.mp h with rfl | h
    · rw [step_broken]
    · cases b.step t with
      | none => rfl
      | some b => exact ih h b

theorem read_broken {cs : List Char} (h : .broken ∈ tokens cs) : read? cs = none := by
  have hw : (reading cs).whole = false := run_broken h _
  simp [read?, hw]

theorem not_broken_of_read {cs : List Char} {v : Json} (h : read? cs = some v) :
    .broken ∉ tokens cs := by
  intro hb
  rw [read_broken hb] at h
  cases h

def Mode.inString : Mode → Bool
  | .string _ | .escape _ | .unit _ _ _ => true
  | .between | .word _ _ | .numeral _ _ | .stopped => false

/-- What is missing of a word holds no backtick. -/
def Mode.Proper : Mode → Prop
  | .word rest _ => '\x60' ∉ rest
  | _ => True

theorem start_proper (c : Char) : (Mode.start c).2.Proper := by
  unfold Mode.start
  grind [Mode.Proper]

theorem step_proper (mode : Mode) (c : Char) (hm : mode.Proper) : (mode.step c).2.Proper := by
  cases mode with
  | between => exact start_proper c
  | word rest token => cases rest <;> simp only [Mode.step] <;> grind [Mode.Proper]
  | numeral part x => simp only [Mode.step]; grind [Mode.Proper, start_proper]
  | string pieces => simp only [Mode.step]; grind [Mode.Proper]
  | escape pieces => simp only [Mode.step]; grind [Mode.Proper]
  | unit pieces missing value => simp only [Mode.step]; grind [Mode.Proper]
  | stopped => trivial

theorem feed_proper (cs : List Char) : (Mode.between.feed cs).2.Proper :=
  feed_induction (Q := fun _ => True) (fun mode c h _ => step_proper mode c h)
    (show Mode.between.Proper from trivial) fun _ _ => trivial

theorem start_outside {c : Char} (hc : c ≠ '"') : (Mode.start c).2.inString = false := by
  unfold Mode.start
  grind [Mode.inString]

theorem step_outside {mode : Mode} {c : Char} (hm : mode.inString = false) (hc : c ≠ '"') :
    (mode.step c).2.inString = false := by
  cases mode with
  | between => exact start_outside hc
  | word rest token => cases rest <;> simp only [Mode.step] <;> grind [Mode.inString]
  | numeral part x => simp only [Mode.step]; grind [Mode.inString, start_outside]
  | stopped => rfl
  | string | escape | unit => simp [Mode.inString] at hm

theorem feed_outside {mode : Mode} (hm : mode.inString = false) {cs : List Char}
    (hc : ∀ c ∈ cs, c ≠ '"') : (mode.feed cs).2.inString = false :=
  feed_induction (P := fun mode => mode.inString = false) (fun _ _ => step_outside) hm hc

theorem start_stopped {c : Char} (h : (Mode.start c).2 = .stopped) :
    .broken ∈ (Mode.start c).1 := by
  unfold Mode.start at h ⊢
  grind

theorem step_stopped {mode : Mode} {c : Char} (h : (mode.step c).2 = .stopped)
    (hm : mode ≠ .stopped) : .broken ∈ (mode.step c).1 := by
  cases mode with
  | between => exact start_stopped h
  | word rest token => cases rest <;> simp only [Mode.step] at h ⊢ <;> grind
  | numeral part x => simp only [Mode.step] at h ⊢; grind [start_stopped]
  | string pieces => simp only [Mode.step] at h ⊢; grind
  | escape pieces => simp only [Mode.step] at h ⊢; grind
  | unit pieces missing value => simp only [Mode.step] at h ⊢; grind
  | stopped => exact absurd rfl hm

theorem feed_stopped {mode : Mode} {cs : List Char} (h : (mode.feed cs).2 = .stopped)
    (hm : mode ≠ .stopped) : .broken ∈ (mode.feed cs).1 := by
  induction cs generalizing mode with
  | nil => exact absurd h hm
  | cons c cs ih =>
    by_cases hs : (mode.step c).2 = .stopped
    · exact List.mem_append_left _ (step_stopped hs hm)
    · exact List.mem_append_right _ (ih h hs)

theorem extend_backtick (x : Numeral) (part : Numeral.Part) : x.extend? '\x60' part = none := by
  cases part <;> simp [Numeral.extend?]

theorem step_backtick {mode : Mode} (hm : mode.inString = false) (hp : mode.Proper)
    (hs : mode ≠ .stopped) : .broken ∈ (mode.step '\x60').1 := by
  have hstart : .broken ∈ (Mode.start '\x60').1 := by decide
  cases mode with
  | between => exact hstart
  | word rest token => cases rest <;> simp only [Mode.step] <;> grind [Mode.Proper]
  | numeral part x => simp only [Mode.step, extend_backtick]; grind
  | stopped => exact absurd rfl hs
  | string | escape | unit => simp [Mode.inString] at hm

theorem tokens_backtick {a b : List Char} (h : (Mode.between.feed a).2.inString = false) :
    .broken ∈ tokens (a ++ '\x60' :: b) := by
  rw [tokens, scan_append]
  by_cases hs : (Mode.between.feed a).2 = .stopped
  · exact List.mem_append_left _ (feed_stopped hs (by simp))
  · exact List.mem_append_right _
      (List.mem_append_left _ (step_backtick h (feed_proper a) hs))

theorem read_in_string {cs : List Char} (h : (Mode.between.feed cs).2.inString = true) :
    read? cs = none := by
  apply read_broken
  rw [tokens, scan_eq_feed]
  refine List.mem_append_right _ ?_
  cases hm : (Mode.between.feed cs).2 <;> simp_all [Mode.inString, Mode.finish]

theorem read_backtick_outside {a : List Char} (h : ∀ c ∈ a, c ≠ '"') (b : List Char) :
    read? (a ++ '\x60' :: b) = none :=
  read_broken (tokens_backtick (feed_outside rfl h))

/-- Cutting a JSON text before a backtick cuts a string in two, and blank characters at the cut do
not lead out of it. -/
theorem read_cut {a b : List Char} {v : Json} (h : read? (a ++ '\x60' :: b) = some v) :
    read? (trimEnd a) = none := by
  apply read_in_string
  obtain ⟨ws, hws, ha⟩ := trimEnd_split a
  by_contra hout
  have hquote : ∀ c ∈ ws, c ≠ '"' := by
    rintro c hc rfl
    exact absurd (hws _ hc) (by decide)
  have hfeed : (Mode.between.feed a).2.inString = false := by
    rw [ha, feed_append]
    exact feed_outside (Bool.eq_false_iff.mpr hout) hquote
  exact not_broken_of_read h (tokens_backtick hfeed)

end BrowserActions.Json
