import BrowserActions.Text.Blank
import BrowserActions.Text.Replace

/-!
# Fenced blocks

A fence is three backticks. The fences of a text are paired from the left, an opening one with
the next closing one, and the text between two paired fences is a block. A block is tagged if
`json` stands directly behind its opening fence.
-/
namespace BrowserActions.Reply

open Text

def fence : List Char := ['\x60', '\x60', '\x60']
def tag : List Char := ['j', 's', 'o', 'n']

def splitFence : List Char → Option (List Char × List Char)
  | [] => none
  | c :: cs =>
    match strip fence (c :: cs) with
    | some rest => some ([], rest)
    | none => (splitFence cs).map fun p => (c :: p.1, p.2)

theorem length_strip {lead cs rest : List Char} (h : strip lead cs = some rest) :
    cs.length = lead.length + rest.length := by
  induction lead generalizing cs with
  | nil => simp_all [strip]
  | cons l ls ih =>
    cases cs with
    | nil => simp [strip] at h
    | cons c cs =>
      simp only [strip] at h
      split at h
      · simp only [List.length_cons, ih h]; omega
      · simp at h

theorem length_splitFence {cs before rest : List Char} (h : splitFence cs = some (before, rest)) :
    cs.length = before.length + 3 + rest.length := by
  induction cs generalizing before with
  | nil => simp [splitFence] at h
  | cons c cs ih =>
    rw [splitFence] at h
    split at h
    · rename_i r hr
      simp only [Option.some.injEq, Prod.mk.injEq] at h
      obtain ⟨rfl, rfl⟩ := h
      simpa [fence] using length_strip hr
    · obtain ⟨⟨b, r⟩, hp, hq⟩ := Option.map_eq_some_iff.1 h
      simp only [Prod.mk.injEq] at hq
      obtain ⟨rfl, rfl⟩ := hq
      have := ih hp
      simp only [List.length_cons]; omega

structure Block where
  tagged : Bool
  body : List Char
  deriving DecidableEq, Repr

/-- The tag is not part of the body, and blank ends are not either. -/
def Block.ofInside (inside : List Char) : Block :=
  match strip tag inside with
  | some body => ⟨true, trim body⟩
  | none => ⟨false, trim inside⟩

/-- Whether the block may hold actions: an untagged one has to look like an object. -/
def Block.isCandidate (b : Block) : Bool := b.tagged || b.body.head? == some '\x7b'

def blocks (cs : List Char) : List Block :=
  match hopen : splitFence cs with
  | none => []
  | some (_, inside) =>
    match hclose : splitFence inside with
    | none => []
    | some (body, rest) =>
      have : rest.length < cs.length := by
        have := length_splitFence hopen
        have := length_splitFence hclose
        omega
      Block.ofInside body :: blocks rest
termination_by cs.length

def candidates (cs : List Char) : List Block := (blocks cs).filter (·.isCandidate)

end BrowserActions.Reply
