import Mathlib
import BrowserActions.Proofs.Selector.Confined

/-!
# Step by step

A path whose steps hold any predicates. Its translation is the join of the translations of its
steps if the predicates in front of the last step are confined. A call left open in one step may
be closed by a predicate of another, and then neither is translated on its own.
-/
namespace BrowserActions.Selector

open Text

/-- A step with any texts between its brackets. -/
structure Segment where
  name : Word isNameChar
  insides : List (Run isInsideChar)

structure Route where
  first : Segment
  more : List (Axis × Segment)

namespace Segment

def text (s : Segment) : List Char := s.name.chars ++ s.insides.flatMap fun x => bracketed x.chars

def Confined (s : Segment) : Prop := ∀ x ∈ s.insides, Selector.Confined (unmarked x.chars)

end Segment

namespace Route

def joined (axis : Axis → List Char) (segment : Segment → List Char) (r : Route) : List Char :=
  segment r.first ++ r.more.flatMap fun s => axis s.1 ++ segment s.2

def text (r : Route) : List Char := r.joined Axis.text Segment.text

def stepwise (r : Route) : List Char :=
  r.joined Axis.css fun s => (ofXPath (String.ofList s.text)).toList

/-- The steps that another one follows. -/
def passed (r : Route) : List Segment := (r.first :: r.more.map Prod.snd).dropLast

def Composes (r : Route) : Prop :=
  ofXPath (String.ofList r.text) = String.ofList (trim r.stepwise)

end Route

def staged (cs : List Char) : List Char := stages.foldl (fun cs rule => replaceAll rule cs) cs

theorem staged_append {a b : List Char} (h : Passes stages a b) (rest : List Char) :
    staged (a ++ rest) = b ++ staged rest := h.foldl rest

theorem name_passes (name : Word isNameChar) : Passes stages name.chars name.chars := by
  have hmarking : Passes marking name.chars name.chars :=
    keeps_marking fun x hx => name.without (by fin_cases hx <;> decide)
  exact hmarking.trans (keeps_calling (name.without (by decide)))

theorem axis_passes (a : Axis) (name : Word isNameChar) :
    Passes stages (a.text ++ name.chars) (a.css ++ name.chars) := by
  have haxis : Without '[' a.css := by cases a <;> decide
  exact (axis_marked a name).trans (keeps_calling (haxis.append (name.without (by decide))))

theorem blank_of_name {c : Char} (h : isNameChar c = true) : isBlank c = false := by
  simpa using ((Bool.and_eq_true _ _).mp h).1

theorem begins_name (name : Word isNameChar) : Begins name.chars := by
  obtain ⟨c, cs, hcs⟩ := List.exists_cons_of_ne_nil name.ne_nil
  exact ⟨c, by rw [hcs]; rfl, blank_of_name (name.among_all c (hcs ▸ List.mem_cons_self))⟩

theorem firm_name (name : Word isNameChar) : Firm name.chars :=
  fun c hc => blank_of_name (name.among_all c (List.mem_of_mem_getLast? hc))

theorem confined_insides {insides : List (Run isInsideChar)}
    (h : ∀ x ∈ insides, Confined (unmarked x.chars)) :
    ∃ css, Passes stages (insides.flatMap fun x => bracketed x.chars) css ∧ Firm css := by
  induction insides with
  | nil => exact ⟨[], passes_nil stages, firm_nil⟩
  | cons x insides ih =>
    obtain ⟨front, hfront, hfirm⟩ := confined_passes x (h x List.mem_cons_self)
    obtain ⟨back, hback, hfirm'⟩ := ih fun y hy => h y (List.mem_cons_of_mem _ hy)
    exact ⟨front ++ back, hfront.append hback, hfirm.append hfirm'⟩

namespace Segment

variable {s : Segment}

theorem staged_begins (s : Segment) (rest : List Char) : Begins (staged (s.text ++ rest)) := by
  rw [text, List.append_assoc, staged_append (name_passes s.name)]
  exact (begins_name s.name).append _

theorem translate_text (s : Segment) : translate s.text = trimEnd (staged s.text) := by
  have hbegins := s.staged_begins []
  rw [List.append_nil] at hbegins
  exact hbegins.trim_eq

theorem translate_begins (s : Segment) : Begins (translate s.text) := by
  have hbegins := s.staged_begins []
  rw [List.append_nil] at hbegins
  rw [translate_text]
  exact hbegins.trimEnd

theorem Confined.passes (h : s.Confined) : Passes stages s.text (translate s.text) := by
  obtain ⟨css, hcss, hfirm⟩ := confined_insides h
  have hpasses : Passes stages s.text (s.name.chars ++ css) := (name_passes s.name).append hcss
  have hstaged : staged s.text = s.name.chars ++ css := hpasses.all
  rw [translate_text, hstaged, trimEnd_of_last ((firm_name s.name).append hfirm)]
  exact hpasses

theorem staged_axis (a : Axis) (s : Segment) (rest : List Char) :
    staged (a.text ++ (s.text ++ rest)) = a.css ++ staged (s.text ++ rest) := by
  rw [text, List.append_assoc, ← List.append_assoc, staged_append (axis_passes a s.name),
    staged_append (name_passes s.name), List.append_assoc]

end Segment

namespace Route

theorem text_cons (first : Segment) (a : Axis) (s : Segment) (more : List (Axis × Segment)) :
    (Route.mk first ((a, s) :: more)).text = first.text ++ (a.text ++ (Route.mk s more).text) := by
  simp [text, joined]

theorem stepwise_cons (first : Segment) (a : Axis) (s : Segment) (more : List (Axis × Segment)) :
    (Route.mk first ((a, s) :: more)).stepwise =
      translate first.text ++ (a.css ++ (Route.mk s more).stepwise) := by
  simp [stepwise, joined, ofXPath]

theorem composes_iff (r : Route) : r.Composes ↔ trim (staged r.text) = trim r.stepwise := by
  rw [Composes, ofXPath, String.toList_ofList]
  exact ⟨fun h => String.ofList_injective h, fun h => congrArg String.ofList h⟩

theorem stepwise_begins (r : Route) : Begins r.stepwise := by
  have hfirst := r.first.translate_begins
  simpa [stepwise, joined, ofXPath] using hfirst.append _

theorem staged_begins (r : Route) : Begins (staged r.text) := r.first.staged_begins _

theorem staged_axis (a : Axis) (r : Route) : staged (a.text ++ r.text) = a.css ++ staged r.text :=
  r.first.staged_axis a _

/-- Up to the end of the last step, the steps may be translated one by one. -/
theorem staged_text (first : Segment) (more : List (Axis × Segment))
    (h : ∀ s ∈ (Route.mk first more).passed, s.Confined) :
    trimEnd (staged (Route.mk first more).text) = trimEnd (Route.mk first more).stepwise := by
  induction more generalizing first with
  | nil =>
    have hfirm : Firm (translate first.text) := by
      rw [Segment.translate_text]
      exact fun c hc => last_trimEnd hc
    have hstepwise : (Route.mk first []).stepwise = translate first.text := by
      simp [stepwise, joined, ofXPath]
    rw [hstepwise, trimEnd_of_last hfirm, Segment.translate_text]
    simp [text, joined]
  | cons s more ih =>
    obtain ⟨a, s⟩ := s
    have hfirst : first.Confined := h first List.mem_cons_self
    have hrest := ih s fun t ht => h t (List.mem_cons_of_mem _ ht)
    rw [text_cons, stepwise_cons, staged_append hfirst.passes, staged_axis, ← List.append_assoc,
      ← List.append_assoc, trimEnd_append _ (staged_begins _).exists,
      trimEnd_append _ (stepwise_begins _).exists, hrest]

end Route

/-- A path is translated step by step if the predicates in front of the last step are confined. -/
theorem translated_step_by_step (r : Route) (h : ∀ s ∈ r.passed, s.Confined) : r.Composes := by
  rw [Route.composes_iff, r.staged_begins.trim_eq, r.stepwise_begins.trim_eq]
  exact Route.staged_text r.first r.more h

def firstName : Word isNameChar := ⟨⟨['a'], List.all_eq_true.mp rfl⟩, List.cons_ne_nil _ _⟩

def nextName : Word isNameChar := ⟨⟨['b'], List.all_eq_true.mp rfl⟩, List.cons_ne_nil _ _⟩

def leftOpen : Run isInsideChar :=
  ⟨"contains(., \"x\")".toList, List.all_eq_true.mp (by decide +kernel)⟩

def readable : Run isInsideChar :=
  ⟨"contains(@c,'v')".toList, List.all_eq_true.mp (by decide +kernel)⟩

def secondPlace : Run isInsideChar := ⟨['2'], List.all_eq_true.mp (by decide +kernel)⟩

def trailing : Route :=
  ⟨⟨firstName, [secondPlace, readable]⟩, [(.descendant, ⟨nextName, [leftOpen]⟩)]⟩

theorem trailing_step_by_step :
    (∀ s ∈ trailing.passed, s.Confined) ∧ trailing.Composes ∧
      ofXPath (String.ofList trailing.text) = "a:nth-of-type(2)[c*='v'] b[contains(., \"x\")]" := by
  have hconfined : ∀ s ∈ trailing.passed, s.Confined := by
    intro s hs
    have hfirst : s = ⟨firstName, [secondPlace, readable]⟩ := by
      simpa [trailing, Route.passed] using hs
    subst hfirst
    intro x hx
    rcases List.mem_pair.mp hx with rfl | rfl
    · exact .plain (by decide) (by decide)
    · have hreadable : unmarked readable.chars =
          containsCall ++ (arguments ['c'] (Run.empty _) ['v'] ++ ['\'', ')']) := by decide +kernel
      rw [hreadable]
      exact .containment _ _ _ fun htag => absurd htag (by decide)
  exact ⟨hconfined, translated_step_by_step trailing hconfined, by decide +kernel⟩

def crossing : Route :=
  ⟨⟨firstName, [leftOpen]⟩, [(.child, ⟨nextName, [readable]⟩)]⟩

theorem crossing_not_composed :
    ofXPath (String.ofList crossing.text) = "a[., \"x\")] > b[contains(c*='v']" ∧
      String.ofList (trim crossing.stepwise) = "a[contains(., \"x\")] > b[c*='v']" ∧
      ¬ crossing.Composes := by
  have htext : ofXPath (String.ofList crossing.text) =
      "a[., \"x\")] > b[contains(c*='v']" := by decide +kernel
  have hsteps : String.ofList (trim crossing.stepwise) =
      "a[contains(., \"x\")] > b[c*='v']" := by decide +kernel
  refine ⟨htext, hsteps, ?_⟩
  rw [Route.Composes, htext, hsteps]
  decide

end BrowserActions.Selector
