/-!
# Leftmost replacement

A rule looks at the front of a text. Where it applies it gives what to write and how many
characters that stands for. `replaceAll` walks a text from the left, applies the rule at the
first place where it can, and goes on behind the characters it replaced.
-/
namespace BrowserActions.Text

abbrev Rule := List Char → Option (List Char × Nat)

/-- The number counts characters that a replacement has already covered. -/
def replaceFrom (rule : Rule) : Nat → List Char → List Char
  | _, [] => []
  | skip + 1, _ :: cs => replaceFrom rule skip cs
  | 0, c :: cs =>
    match rule (c :: cs) with
    | some (out, length) => out ++ replaceFrom rule (length - 1) cs
    | none => c :: replaceFrom rule 0 cs

def replaceAll (rule : Rule) (cs : List Char) : List Char := replaceFrom rule 0 cs

def strip (lead : List Char) (cs : List Char) : Option (List Char) :=
  match lead, cs with
  | [], cs => some cs
  | _ :: _, [] => none
  | l :: ls, c :: cs => if l = c then strip ls cs else none

/-- The text before the first `stop` that stands on the same line, and the text behind it. -/
def upTo (stop : List Char) : List Char → Option (List Char × List Char)
  | [] => none
  | c :: cs =>
    match strip stop (c :: cs) with
    | some rest => some ([], rest)
    | none => if c = '\n' then none else (upTo stop cs).map fun p => (c :: p.1, p.2)

end BrowserActions.Text
