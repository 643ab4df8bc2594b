import Mathlib
import BrowserActions.Proofs.Json.RoundTrip

/-!
# The tokens of indented JSON

Between two tokens blank characters count for nothing, so a value has the same tokens in both of its
written forms, and blank characters behind it change nothing.
-/
namespace BrowserActions.Json

theorem scan_space {c : Char} (h : isSpace c = true) (cs : List Char) :
    Mode.between.scan (c :: cs) = Mode.between.scan cs := by
  have hstart : Mode.start c = ([], .between) := by
    unfold Mode.start
    rw [if_pos h]
  rw [scan_cons, Mode.step, hstart]
  rfl

theorem scan_spaces {ws : List Char} (h : ∀ c ∈ ws, isSpace c = true) (rest : List Char) :
    Mode.between.scan (ws ++ rest) = Mode.between.scan rest := by
  induction ws with
  | nil => rfl
  | cons c ws ih =>
    obtain ⟨hc, hws⟩ := List.forall_mem_cons.mp h
    rw [List.cons_append, scan_space hc, ih hws]

theorem scan_newline (depth : Nat) (rest : List Char) :
    Mode.between.scan (newline depth ++ rest) = Mode.between.scan rest := by
  apply scan_spaces
  intro c hc
  rcases List.mem_cons.mp hc with rfl | hc
  · rfl
  · rw [(List.mem_replicate.mp hc).2]
    rfl

theorem delimited_newline (depth : Nat) (rest : List Char) : Delimited (newline depth ++ rest) :=
  delimited_cons (by decide) _

theorem delimited_spaces {ws : List Char} (h : ∀ c ∈ ws, isSpace c = true) : Delimited ws := by
  intro c hc
  have hspace := h c (List.mem_of_mem_head? hc)
  simp only [isSpace, Bool.or_eq_true, decide_eq_true_eq] at hspace
  rcases hspace with ((rfl | rfl) | rfl) | rfl <;> decide

theorem delimited_prettyItems (depth : Nat) (vs : List Json) (rest : List Char) :
    Delimited (prettyItems (depth + 1) vs ++ (newline depth ++ ']' :: rest)) := by
  cases vs with
  | nil => exact delimited_newline depth _
  | cons v vs =>
    rw [prettyItems]
    exact delimited_cons (by decide) _

theorem delimited_prettyMembers (depth : Nat) (ms : List (String × Json)) (rest : List Char) :
    Delimited (prettyMembers (depth + 1) ms ++ (newline depth ++ '\x7d' :: rest)) := by
  cases ms with
  | nil => exact delimited_newline depth _
  | cons m ms =>
    rw [prettyMembers]
    exact delimited_cons (by decide) _

mutual

theorem scan_pretty : ∀ (v : Json) (depth : Nat), v.Exact → ∀ rest, Delimited rest →
    Mode.between.scan (prettyAt depth v ++ rest) = v.spelling ++ Mode.between.scan rest
  | .null, _, _, rest, _ => by rw [prettyAt, spelling]; rfl
  | .bool true, _, _, rest, _ => by rw [prettyAt, spelling]; rfl
  | .bool false, _, _, rest, _ => by rw [prettyAt, spelling]; rfl
  | .integer n, _, h, rest, hr => by
    rw [prettyAt, spelling, scan_integer (by simpa [Exact] using h) hr]
    rfl
  | .double x, _, h, _, _ => by simp [Exact] at h
  | .string s, _, _, rest, _ => by
    rw [prettyAt, spelling, scan_quote]
    rfl
  | .array [], _, _, rest, _ => by rw [prettyAt, spelling]; rfl
  | .array (v :: vs), depth, h, rest, hr => by
    simp only [Exact, ItemsExact] at h
    rw [prettyAt, spelling]
    simp only [List.cons_append, List.append_assoc, List.nil_append]
    rw [scan_mark rfl, scan_newline,
      scan_pretty v (depth + 1) h.1 _ (delimited_prettyItems depth vs rest),
      scan_prettyItems vs depth h.2, scan_mark rfl]
  | .object [], _, _, rest, _ => by rw [prettyAt, spelling]; rfl
  | .object (m :: ms), depth, h, rest, hr => by
    simp only [Exact, MembersExact] at h
    rw [prettyAt, spelling]
    simp only [List.cons_append, List.append_assoc, List.nil_append]
    rw [scan_mark rfl, scan_newline, scan_quote, scan_mark rfl, scan_space rfl,
      scan_pretty m.2 (depth + 1) h.1 _ (delimited_prettyMembers depth ms rest),
      scan_prettyMembers ms depth h.2, scan_mark rfl]

theorem scan_prettyItems : ∀ (vs : List Json) (depth : Nat), ItemsExact vs → ∀ rest,
    Mode.between.scan (prettyItems (depth + 1) vs ++ (newline depth ++ ']' :: rest)) =
      itemSpelling vs ++ Mode.between.scan (']' :: rest)
  | [], depth, _, rest => scan_newline depth _
  | v :: vs, depth, h, rest => by
    simp only [ItemsExact] at h
    rw [prettyItems, itemSpelling]
    simp only [List.cons_append, List.append_assoc]
    rw [scan_mark rfl, scan_newline,
      scan_pretty v (depth + 1) h.1 _ (delimited_prettyItems depth vs rest),
      scan_prettyItems vs depth h.2]

theorem scan_prettyMembers : ∀ (ms : List (String × Json)) (depth : Nat), MembersExact ms → ∀ rest,
    Mode.between.scan (prettyMembers (depth + 1) ms ++ (newline depth ++ '\x7d' :: rest)) =
      memberSpelling ms ++ Mode.between.scan ('\x7d' :: rest)
  | [], depth, _, rest => scan_newline depth _
  | m :: ms, depth, h, rest => by
    simp only [MembersExact] at h
    rw [prettyMembers, memberSpelling]
    simp only [List.cons_append, List.append_assoc]
    rw [scan_mark rfl, scan_newline, scan_quote, scan_mark rfl, scan_space rfl,
      scan_pretty m.2 (depth + 1) h.1 _ (delimited_prettyMembers depth ms rest),
      scan_prettyMembers ms depth h.2]

end

theorem reading_pretty {v : Json} (h : v.Exact) {ws : List Char}
    (hws : ∀ c ∈ ws, isSpace c = true) : reading (v.pretty ++ ws) = ⟨v.draft, true⟩ := by
  have hrest : Mode.between.scan ws = [] := by
    simpa [Mode.scan, Mode.finish] using scan_spaces hws []
  rw [reading, tokens, pretty, scan_pretty v 0 h ws (delimited_spaces hws), hrest]
  simpa [Building.run] using run_spelling v [] []

end BrowserActions.Json
