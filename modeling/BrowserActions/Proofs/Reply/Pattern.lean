import Mathlib
import BrowserActions.Proofs.Reply.Fence
import BrowserActions.Proofs.Text.Pattern
import BrowserActions.Proofs.Text.Trim

/-!
# Blocks as matches

The blocks of a text are the matches of one pattern: a fence, perhaps the tag, blank characters,
the shortest body that goes, blank characters, and a fence. That the blank characters are taken
greedily and the body lazily makes the body end at the first fence and have no blank ends.
-/
namespace BrowserActions.Reply

open Text

def closingPattern : Pattern := .seq (.many true isBlank) (.text fence)

def bodyPattern : Pattern :=
  .seq (.many true isBlank) (.seq (.group (.many false fun _ => true)) closingPattern)

def blockPattern : Pattern :=
  .seq (.text fence) (.seq (.optional (.group (.text tag))) bodyPattern)

/-- What the two groups of the pattern take for a block. -/
def Block.groups (b : Block) : List (Option (List Char)) :=
  [if b.tagged then some tag else none, some b.body]

def yielded? : List (Option (List Char)) → Option (List Char)
  | [marked, some body] =>
    if marked.isSome || (trimStart body).head? == some '\x7b' then some body else none
  | _ => none

variable {cs : List Char}

theorem strip_fence_trimStart {r : List Char} (h : strip fence cs = some r) :
    trimStart cs = cs := by
  rw [strip_eq_some.mp h]
  rfl

theorem best_closing (cs : List Char) :
    closingPattern.best? cs = (strip fence (trimStart cs)).map fun rest => ⟨[], rest⟩ := by
  rw [closingPattern, Pattern.best_greedy_seq, Pattern.best_text, trimStart]
  intro s hs
  rw [Pattern.best_text, Option.map_eq_none_iff] at hs ⊢
  rw [Option.eq_none_iff_forall_ne_some]
  intro r hr
  have hnone : strip fence (trimStart s) = none := hs
  rw [strip_fence_trimStart hr, hr] at hnone
  cases hnone

theorem splitFence_of_strip {r : List Char} (h : strip fence cs = some r) :
    splitFence cs = some ([], r) := by
  rw [strip_eq_some.mp h]
  exact splitFence_fence r

theorem splitFence_cons_of_strip_none {c : Char} (h : strip fence (c :: cs) = none) :
    splitFence (c :: cs) = (splitFence cs).map fun p => (c :: p.1, p.2) := by
  rw [splitFence, h]

theorem reach_closing (cs : List Char) :
    closingPattern.reach cs = (splitFence cs).map fun p => (trimEnd p.1, ⟨[], p.2⟩) := by
  induction cs with
  | nil => rfl
  | cons c cs ih =>
    rw [Pattern.reach, best_closing]
    cases hclose : strip fence (trimStart (c :: cs)) with
    | some r =>
      obtain ⟨ws, hws, hsplit⟩ := trimStart_split (c :: cs)
      rw [strip_eq_some.mp hclose] at hsplit
      rw [hsplit, splitFence_closed (closed_of_blank hws)]
      simp [trimEnd_blank hws]
    | none =>
      have hhere : strip fence (c :: cs) = none := by
        rw [Option.eq_none_iff_forall_ne_some]
        intro r hr
        rw [strip_fence_trimStart hr, hr] at hclose
        cases hclose
      rw [splitFence_cons_of_strip_none hhere, ih, Option.map_none]
      cases hs : splitFence cs with
      | none => rfl
      | some p =>
        have hkept : ∃ d ∈ c :: p.1, isBlank d = false := by
          by_contra hblank
          simp only [not_exists, not_and, Bool.not_eq_false] at hblank
          have hcs : c :: cs = (c :: p.1) ++ (fence ++ p.2) := by
            rw [splitFence_eq_some (a := p.1) (b := p.2) hs, List.cons_append]
          rw [hcs, trimStart_blank_append hblank] at hclose
          rw [show trimStart (fence ++ p.2) = fence ++ p.2 from rfl, strip_append] at hclose
          cases hclose
        simp [trimEnd_cons hkept]

theorem splitFence_trimStart (cs : List Char) :
    splitFence (trimStart cs) = (splitFence cs).map fun p => (trimStart p.1, p.2) := by
  obtain ⟨ws, hws, hsplit⟩ := trimStart_split cs
  have hcs : splitFence cs = (splitFence (trimStart cs)).map fun p => (ws ++ p.1, p.2) := by
    rw [← splitFence_append (closed_of_blank hws), ← hsplit]
  rw [hcs, Option.map_map]
  cases hs : splitFence (trimStart cs) with
  | none => rfl
  | some p =>
    have hhead : trimStart p.1 = p.1 := by
      refine trimStart_of_head fun c hc => @head_trimStart cs c ?_
      rw [splitFence_eq_some (a := p.1) (b := p.2) hs, List.head?_append]
      exact Option.mem_def.mpr (by rw [Option.mem_def.mp hc]; rfl)
    simp [trimStart_blank_append hws, hhead]

theorem best_body (cs : List Char) :
    bodyPattern.best? cs = (splitFence cs).map fun p => ⟨[some (trim p.1)], p.2⟩ := by
  have hlazy : ∀ s, (Pattern.seq (.group (.many false fun _ => true)) closingPattern).best? s =
      (splitFence s).map fun p => ⟨[some (trimEnd p.1)], p.2⟩ := by
    intro s
    rw [Pattern.best_lazy_seq, reach_closing, Option.map_map]
    rfl
  rw [bodyPattern, Pattern.best_greedy_seq]
  · rw [hlazy, ← trimStart, splitFence_trimStart, Option.map_map]
    rfl
  · intro s hs
    rw [hlazy, ← trimStart, splitFence_trimStart, Option.map_map, Option.map_eq_none_iff] at hs
    rw [hlazy, hs, Option.map_none]

theorem closed_tag : Closed tag := closed_of_no_backtick (by simp [tag])

theorem best_inside (cs : List Char) :
    (Pattern.seq (.optional (.group (.text tag))) bodyPattern).best? cs =
      (splitFence cs).map fun p => ⟨(Block.ofInside p.1).groups, p.2⟩ := by
  rw [Pattern.best_optional_seq, Pattern.best_group_text_seq, best_body]
  cases htag : strip tag cs with
  | some rest =>
    have hcs := strip_eq_some.mp htag
    have hsplit : splitFence cs = (splitFence rest).map fun p => (tag ++ p.1, p.2) := by
      rw [hcs, splitFence_append closed_tag]
    have htook : cs.take (cs.length - rest.length) = tag := by simp [hcs]
    rw [Option.bind_some, best_body, hsplit, htook]
    cases splitFence rest with
    | none => rfl
    | some p => simp [Pattern.Way.behind, Block.ofInside, strip_append, Block.groups]
  | none =>
    rw [Option.bind_none, Option.none_or]
    cases hs : splitFence cs with
    | none => rfl
    | some p =>
      have huntagged : strip tag p.1 = none := by
        rw [Option.eq_none_iff_forall_ne_some]
        intro r hr
        rw [splitFence_eq_some (a := p.1) (b := p.2) hs, strip_eq_some.mp hr, List.append_assoc,
          strip_append] at htag
        cases htag
      simp [Pattern.Way.behind, Block.ofInside, huntagged, Block.groups, Pattern.groupCount]

theorem best_block (cs : List Char) :
    blockPattern.best? cs = (strip fence cs).bind fun inside =>
      (splitFence inside).map fun p => ⟨(Block.ofInside p.1).groups, p.2⟩ := by
  rw [blockPattern, Pattern.best_text_seq]
  simp only [best_inside]

theorem find_block (cs : List Char) :
    blockPattern.find? cs = (splitFence cs).bind fun o =>
      (splitFence o.2).map fun p => ⟨(Block.ofInside p.1).groups, p.2⟩ := by
  induction cs with
  | nil => rfl
  | cons c cs ih =>
    rw [Pattern.find?, best_block]
    cases hopen : strip fence (c :: cs) with
    | none =>
      rw [splitFence_cons_of_strip_none hopen, Option.bind_none, ih]
      cases splitFence cs <;> rfl
    | some inside =>
      rw [splitFence_of_strip hopen, Option.bind_some, Option.bind_some]
      cases hclose : splitFence inside with
      | some p => rfl
      | none =>
        have hno := splitFence_eq_none.mp hclose
        rw [Option.map_none, ih]
        cases hlate : splitFence cs with
        | none => rfl
        | some o =>
          have hcs : c :: cs = c :: o.1 ++ (fence ++ o.2) := by
            rw [splitFence_eq_some (a := o.1) (b := o.2) hlate, List.cons_append]
          have hinside : o.2 <:+ inside := by
            have hlater : o.2 <:+ c :: cs := by
              rw [hcs]
              exact (List.suffix_append _ _).trans (List.suffix_append _ _)
            have hopened : inside <:+ c :: cs := by
              rw [strip_eq_some.mp hopen]
              exact List.suffix_append _ _
            have hlength := congrArg List.length (hcs.symm.trans (strip_eq_some.mp hopen))
            simp only [fence, List.length_append, List.length_cons, List.length_nil] at hlength
            exact List.suffix_of_suffix_length_le hlater hopened (by omega)
          have hnone : splitFence o.2 = none :=
            splitFence_eq_none.mpr fun h => hno (h.trans hinside.isInfix)
          simp [hnone]

/-- The matches are the blocks, from the left. -/
theorem findAll_blocks (cs : List Char) :
    blockPattern.findAll cs = (blocks cs).map Block.groups := by
  induction cs using blocks.induct with
  | case1 cs hopen =>
    rw [Pattern.findAll, find_block, blocks_nil hopen, hopen]
    rfl
  | case2 cs before inside hopen hclose =>
    rw [Pattern.findAll, find_block, blocks_unclosed hopen hclose, hopen, Option.bind_some, hclose]
    rfl
  | case3 cs before inside hopen body rest hclose hlength ih =>
    rw [Pattern.findAll, find_block, blocks_cons hopen hclose, hopen, Option.bind_some, hclose,
      List.map_cons, ← ih]
    simp only [Option.map_some, if_pos hlength]

end BrowserActions.Reply
