import Mathlib
import BrowserActions.Text.Replace

/-!
# Backtracking patterns

A pattern may match the front of a text in several ways, and it prefers some to others: a greedy
repetition would rather go on, a lazy one would rather stop. The ways are listed from the most
preferred one on. A search takes the most preferred way at the leftmost place that has one, and
goes on behind it.
-/
namespace BrowserActions.Text

inductive Pattern where
  | text (cs : List Char)
  | many (greedy : Bool) (among : Char → Bool)
  /-- Once or not at all, but rather once. -/
  | optional (p : Pattern)
  | group (p : Pattern)
  | seq (p q : Pattern)

namespace Pattern

structure Way where
  groups : List (Option (List Char))
  rest : List Char

def groupCount : Pattern → Nat
  | .text _ | .many _ _ => 0
  | .optional p => p.groupCount
  | .group p => p.groupCount + 1
  | .seq p q => p.groupCount + q.groupCount

def stops (greedy : Bool) (among : Char → Bool) : List Char → List (List Char)
  | [] => [[]]
  | c :: cs =>
    if among c then
      if greedy then stops greedy among cs ++ [c :: cs] else (c :: cs) :: stops greedy among cs
    else [c :: cs]

def ways : Pattern → List Char → List Way
  | .text lead, cs => (strip lead cs).toList.map fun rest => ⟨[], rest⟩
  | .many greedy among, cs => (stops greedy among cs).map fun rest => ⟨[], rest⟩
  | .optional p, cs => p.ways cs ++ [⟨List.replicate p.groupCount none, cs⟩]
  | .group p, cs =>
    (p.ways cs).map fun w => ⟨some (cs.take (cs.length - w.rest.length)) :: w.groups, w.rest⟩
  | .seq p q, cs =>
    (p.ways cs).flatMap fun w => (q.ways w.rest).map fun v => ⟨w.groups ++ v.groups, v.rest⟩

def best? (p : Pattern) (cs : List Char) : Option Way := (p.ways cs).head?

/-- The most preferred way at the leftmost place that has one. -/
def find? (p : Pattern) : List Char → Option Way
  | [] => p.best? []
  | c :: cs =>
    match p.best? (c :: cs) with
    | some w => some w
    | none => find? p cs

/-- What the groups took in each match. A match that takes nothing ends the search. -/
def findAll (p : Pattern) (cs : List Char) : List (List (Option (List Char))) :=
  match p.find? cs with
  | none => []
  | some w => if w.rest.length < cs.length then w.groups :: p.findAll w.rest else [w.groups]
termination_by cs.length

variable {q : Pattern} {among : Char → Bool}

def Way.behind (groups : List (Option (List Char))) (w : Way) : Way := ⟨groups ++ w.groups, w.rest⟩

theorem best_text (lead cs : List Char) :
    (text lead).best? cs = (strip lead cs).map fun rest => ⟨[], rest⟩ := by
  rw [best?, ways]
  cases strip lead cs <;> rfl

theorem best_seq (p q : Pattern) (cs : List Char) :
    (seq p q).best? cs = (p.ways cs).findSome? fun w => (q.best? w.rest).map (.behind w.groups) := by
  rw [best?, ways, List.head?_flatMap]
  simp only [List.head?_map]
  rfl

theorem best_text_seq (lead : List Char) (q : Pattern) (cs : List Char) :
    (seq (text lead) q).best? cs = (strip lead cs).bind q.best? := by
  rw [best_seq, ways]
  cases strip lead cs with
  | none => rfl
  | some rest => cases hq : q.best? rest <;> simp [Way.behind, hq]

theorem best_greedy_seq (h : ∀ cs, q.best? (cs.dropWhile among) = none → q.best? cs = none)
    (cs : List Char) : (seq (many true among) q).best? cs = q.best? (cs.dropWhile among) := by
  have hbehind : ∀ rest, (q.best? rest).map (Way.behind []) = q.best? rest := by
    intro rest
    cases q.best? rest <;> rfl
  rw [best_seq, ways, List.findSome?_map]
  simp only [Function.comp_def, hbehind]
  induction cs with
  | nil => cases hq : q.best? [] <;> simp [stops, hq]
  | cons c cs ih =>
    rw [stops]
    by_cases hc : among c = true
    · rw [if_pos hc, if_pos rfl, List.findSome?_append, ih, List.dropWhile_cons_of_pos hc]
      cases hq : q.best? (cs.dropWhile among) with
      | some w => rfl
      | none =>
        have hback : q.best? (c :: cs) = none :=
          h _ (by rw [List.dropWhile_cons_of_pos hc, hq])
        simp [hback]
    · rw [if_neg hc, List.dropWhile_cons_of_neg hc]
      cases hq : q.best? (c :: cs) <;> simp [hq]

/-- The shortest text before a match, and that match. -/
def reach (q : Pattern) : List Char → Option (List Char × Way)
  | [] => (q.best? []).map fun w => ([], w)
  | c :: cs =>
    match q.best? (c :: cs) with
    | some w => some ([], w)
    | none => (reach q cs).map fun r => (c :: r.1, r.2)

theorem findSome_lazy (q : Pattern) (front cs : List Char) :
    (stops false (fun _ => true) cs).findSome? (fun rest => (q.best? rest).map
        (.behind [some ((front ++ cs).take ((front ++ cs).length - rest.length))])) =
      (reach q cs).map fun r => r.2.behind [some (front ++ r.1)] := by
  induction cs generalizing front with
  | nil => cases hq : q.best? [] <;> simp [stops, reach, hq]
  | cons c cs ih =>
    rw [stops, if_pos rfl, if_neg (by decide), List.findSome?_cons, reach]
    cases hq : q.best? (c :: cs) with
    | some w => simp
    | none =>
      have hnext := ih (front ++ [c])
      simp only [List.append_assoc, List.singleton_append] at hnext
      rw [Option.map_none, hnext, Option.map_map]
      rfl

/-- A lazy repetition that a pattern follows takes the shortest text before a match. -/
theorem best_lazy_seq (q : Pattern) (cs : List Char) :
    (seq (group (many false fun _ => true)) q).best? cs =
      (reach q cs).map fun r => r.2.behind [some r.1] := by
  rw [best_seq, ways, ways, List.map_map, List.findSome?_map]
  exact findSome_lazy q [] cs

theorem best_optional_seq (p q : Pattern) (cs : List Char) :
    (seq (optional p) q).best? cs = ((seq p q).best? cs).or
      ((q.best? cs).map (.behind (List.replicate p.groupCount none))) := by
  rw [best_seq, best_seq, ways, List.findSome?_append, List.findSome?_singleton]

theorem best_group_text_seq (lead : List Char) (q : Pattern) (cs : List Char) :
    (seq (group (text lead)) q).best? cs =
      (strip lead cs).bind fun rest => (q.best? rest).map
        (.behind [some (cs.take (cs.length - rest.length))]) := by
  rw [best_seq, ways, ways]
  cases strip lead cs with
  | none => rfl
  | some rest => cases hq : q.best? rest <;> simp [hq]

end Pattern
end BrowserActions.Text
