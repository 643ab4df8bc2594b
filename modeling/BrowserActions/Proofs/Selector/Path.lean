import Mathlib
import BrowserActions.Proofs.Text.Replace
import BrowserActions.Proofs.Text.Trim
import BrowserActions.Selector
import BrowserActions.Text.Alphanumeric

/-!
# Paths

The path expressions that are understood, as trees: steps along an axis, each with a name and
predicates. A path has its text and the selector that it stands for. Both are rendered alike from
the texts of its axes and predicates.
-/
namespace BrowserActions.Selector

open Text

def isNameChar (c : Char) : Bool := !isBlank c && decide (c ∉ ['/', '@', '[', ']'])

def isWordChar (c : Char) : Bool := isAlphanumeric c || decide (c ∈ ['-', '_', '.', ':'])

def isValueChar (c : Char) : Bool := decide (c ∉ ['/', '@', '[', ']', '\'', '\n'])

def isGapChar (c : Char) : Bool := isBlank c && c != '\n'

structure Run (among : Char → Bool) where
  chars : List Char
  among_all : ∀ c ∈ chars, among c = true

def Run.empty (among : Char → Bool) : Run among := ⟨[], List.forall_mem_nil _⟩

structure Word (among : Char → Bool) extends Run among where
  ne_nil : chars ≠ []

inductive Axis where
  | child
  | descendant
  deriving DecidableEq

inductive Predicate where
  | position (number : Word isDecimalDigit)
  | presence (before : Run isGapChar) (name : Word isWordChar) (after : Run isGapChar)
  | equality (before : Run isGapChar) (name : Word isWordChar) (value : Run isValueChar)
    (after : Run isGapChar)
  | containment (name : Word isWordChar) (gap : Run isBlank) (value : Run isValueChar)
  | tag (name : Word isWordChar)

structure Step where
  name : Word isNameChar
  predicates : List Predicate

structure Path where
  leading : Option Axis
  first : Step
  more : List (Axis × Step)

def Axis.text : Axis → List Char
  | .child => ['/']
  | .descendant => ['/', '/']

def Axis.css : Axis → List Char
  | .child => [' ', '>', ' ']
  | .descendant => [' ']

def containsCall : List Char := "contains(".toList
def nameCall : List Char := "name()='".toList
def positionCall : List Char := ":nth-of-type(".toList

def bracketed (inside : List Char) : List Char := '[' :: (inside ++ [']'])

namespace Predicate

/-- What stands between the brackets, with `mark` in front of attributes. -/
def inside (mark : List Char) : Predicate → List Char
  | .position number => number.chars
  | .presence before name after => before.chars ++ (mark ++ (name.chars ++ after.chars))
  | .equality before name value after =>
    before.chars ++ (mark ++ (name.chars ++ '=' :: '\'' :: (value.chars ++ '\'' :: after.chars)))
  | .containment name gap value =>
    containsCall ++ (mark ++ (name.chars ++ ',' :: (gap.chars ++ '\'' :: (value.chars ++
      ['\'', ')']))))
  | .tag name => nameCall ++ (name.chars ++ ['\''])

def text (p : Predicate) : List Char := bracketed (p.inside ['@'])

def css : Predicate → List Char
  | .position number => positionCall ++ (number.chars ++ [')'])
  | .presence _ name _ => bracketed name.chars
  | .equality _ name value _ => bracketed (name.chars ++ '=' :: '\'' :: (value.chars ++ ['\'']))
  | .containment name _ value =>
    bracketed (name.chars ++ '*' :: '=' :: '\'' :: (value.chars ++ ['\'']))
  | .tag name => name.chars

end Predicate

def Step.render (predicate : Predicate → List Char) (s : Step) : List Char :=
  s.name.chars ++ s.predicates.flatMap predicate

namespace Path

def render (axis : Axis → List Char) (predicate : Predicate → List Char) (p : Path) : List Char :=
  p.leading.elim [] axis ++ (p.first.render predicate ++
    p.more.flatMap fun s => axis s.1 ++ s.2.render predicate)

def text (p : Path) : List Char := p.render Axis.text Predicate.text
def css (p : Path) : List Char := p.render Axis.css Predicate.css

end Path

variable {among : Char → Bool} {c x : Char}

theorem Run.without (r : Run among) (hx : among x = false) : Without x r.chars := by
  rintro c hc rfl
  rw [r.among_all c hc] at hx
  cases hx

/-- Sets of characters no range of which meets a range of the other. -/
def apart (r s : Ranges) : Bool := r.all fun p => s.all fun q => decide (p.2 < q.1 ∨ q.2 < p.1)

theorem not_contains_of_apart {r s : Ranges} (h : apart r s = true) (hc : r.contains c = true) :
    s.contains c = false := by
  obtain ⟨p, hp, hin⟩ := List.any_eq_true.mp hc
  rw [Bool.and_eq_true, decide_eq_true_eq, decide_eq_true_eq] at hin
  rw [Ranges.contains, List.any_eq_false]
  intro q hq
  have hpq := of_decide_eq_true (List.all_eq_true.mp (List.all_eq_true.mp h p hp) q hq)
  rw [Bool.and_eq_true, decide_eq_true_eq, decide_eq_true_eq]
  omega

theorem digit_of_blank (h : isBlank c = true) : isDecimalDigit c = false :=
  not_contains_of_apart (by decide +kernel) h

theorem blank_of_word (h : isWordChar c = true) : isBlank c = false := by
  rcases (Bool.or_eq_true _ _).mp h with h | h
  · exact not_contains_of_apart (by decide +kernel) h
  · have hmem : c ∈ ['-', '_', '.', ':'] := of_decide_eq_true h
    fin_cases hmem <;> decide

/-- What stands in predicates beside words, numbers and gaps. -/
def marks : List Char := ['/', '@', '[', ']', '(', ')', ',', '\'', '*', '=', '\n']

theorem among_of_mark (h : (marks.all fun m => !among m) = true) (hx : x ∈ marks) :
    among x = false := by
  have hmark := List.all_eq_true.mp h x hx
  rwa [Bool.not_eq_true'] at hmark

theorem digit_of_mark (hx : x ∈ marks) : isDecimalDigit x = false :=
  among_of_mark (by decide +kernel) hx

theorem word_of_mark (hx : x ∈ marks) : isWordChar x = false := among_of_mark (by decide +kernel) hx

theorem gap_of_mark (hx : x ∈ marks) : isGapChar x = false := among_of_mark (by decide +kernel) hx

end BrowserActions.Selector
