import Mathlib
import BrowserActions.Proofs.Reply.Pattern

/-!
# Pairs of fences

The fences of a text, from the left, are paired one with the next. The candidate blocks are what
stands between the paired ones if it is tagged or looks like an object. They are also what the
block pattern finds, and they stand apart in the text.
-/
namespace BrowserActions.Reply

open Text

/-- Where fences begin, counted from `place`. They do not overlap. -/
def fencePlaces (place : Nat) : List Char → List Nat
  | '\x60' :: '\x60' :: '\x60' :: cs => place :: fencePlaces (place + 3) cs
  | _ :: cs => fencePlaces (place + 1) cs
  | [] => []

/-- A last one without a partner is left out. -/
def pairUp : List Nat → List (Nat × Nat)
  | opening :: closing :: rest => (opening, closing) :: pairUp rest
  | _ => []

def between (cs : List Char) (start stop : Nat) : List Char := (cs.drop start).take (stop - start)

def Marked (cs : List Char) (opening : Nat) : Prop := tag <+: cs.drop (opening + 3)

instance (cs : List Char) (opening : Nat) : Decidable (Marked cs opening) :=
  inferInstanceAs (Decidable (_ <+: _))

def pairBody (cs : List Char) (pair : Nat × Nat) : List Char :=
  trim (between cs (if Marked cs pair.1 then pair.1 + 7 else pair.1 + 3) pair.2)

/-- A pair counts if it is tagged or its body begins like an object. -/
def Counts (cs : List Char) (pair : Nat × Nat) : Prop :=
  Marked cs pair.1 ∨ (pairBody cs pair).head? = some '\x7b'

instance (cs : List Char) (pair : Nat × Nat) : Decidable (Counts cs pair) :=
  inferInstanceAs (Decidable (_ ∨ _))

def pairedBodies (cs : List Char) : List (List Char) :=
  ((pairUp (fencePlaces 0 cs)).filter (Counts cs)).map (pairBody cs)

/-- The pieces stand in the text one behind the other. -/
inductive Apart : List (List Char) → List Char → Prop where
  | nothing (cs : List Char) : Apart [] cs
  | piece (gap body : List Char) {more : List (List Char)} {rest : List Char}
    (h : Apart more rest) : Apart (body :: more) (gap ++ (body ++ rest))

variable {cs front before inside body rest : List Char} {place : Nat}

theorem fencePlaces_cons {c : Char} (h : strip fence (c :: cs) = none) (place : Nat) :
    fencePlaces place (c :: cs) = fencePlaces (place + 1) cs := by
  rw [fencePlaces]
  rintro rest rfl rfl
  have hfence : strip fence (fence ++ rest) = none := h
  rw [strip_append] at hfence
  cases hfence

theorem fencePlaces_none (h : splitFence cs = none) (place : Nat) : fencePlaces place cs = [] := by
  induction cs generalizing place with
  | nil => rfl
  | cons c cs ih =>
    cases hs : strip fence (c :: cs) with
    | some rest =>
      rw [splitFence_of_strip hs] at h
      cases h
    | none =>
      rw [splitFence_cons_of_strip_none hs, Option.map_eq_none_iff] at h
      rw [fencePlaces_cons hs, ih h]

theorem fencePlaces_some (h : splitFence cs = some (before, rest)) (place : Nat) :
    fencePlaces place cs =
      (place + before.length) :: fencePlaces (place + before.length + 3) rest := by
  induction cs generalizing before place with
  | nil => cases h
  | cons c cs ih =>
    cases hs : strip fence (c :: cs) with
    | some inside =>
      rw [splitFence_of_strip hs] at h
      cases h
      rw [strip_eq_some.mp hs]
      rfl
    | none =>
      rw [splitFence_cons_of_strip_none hs] at h
      obtain ⟨⟨before, rest⟩, hlater, heq⟩ := Option.map_eq_some_iff.mp h
      cases heq
      rw [fencePlaces_cons hs, ih hlater, List.length_cons, Nat.add_comm before.length,
        ← Nat.add_assoc]

theorem tag_before_fence (body rest : List Char) :
    tag <+: body ++ (fence ++ rest) ↔ tag <+: body := by
  rcases body with _ | ⟨a, _ | ⟨b, _ | ⟨c, _ | ⟨d, body⟩⟩⟩⟩ <;> simp [tag, fence]

theorem ofInside_marked (h : tag <+: body) : Block.ofInside body = ⟨true, trim (body.drop 4)⟩ := by
  obtain ⟨inside, rfl⟩ := h
  rw [Block.ofInside, strip_append]
  rfl

theorem ofInside_unmarked (h : ¬ tag <+: body) : Block.ofInside body = ⟨false, trim body⟩ := by
  have hnone : strip tag body = none := by
    rw [Option.eq_none_iff_forall_ne_some]
    intro inside hs
    exact h ⟨inside, (strip_eq_some.mp hs).symm⟩
  rw [Block.ofInside, hnone]

theorem between_append {start stop : Nat} (hstart : start = front.length)
    (hstop : stop = front.length + body.length) (rest : List Char) :
    between (front ++ (body ++ rest)) start stop = body := by
  subst hstart hstop
  simp [between]

theorem pair_ofInside (front body rest : List Char) :
    (Marked (front ++ (fence ++ (body ++ (fence ++ rest)))) front.length ↔
        (Block.ofInside body).tagged = true) ∧
      pairBody (front ++ (fence ++ (body ++ (fence ++ rest))))
        (front.length, front.length + 3 + body.length) = (Block.ofInside body).body := by
  have hbehind : (front ++ (fence ++ (body ++ (fence ++ rest)))).drop (front.length + 3) =
      body ++ (fence ++ rest) := by
    simp [fence]
  have hmarked : Marked (front ++ (fence ++ (body ++ (fence ++ rest)))) front.length ↔
      tag <+: body := by
    rw [Marked, hbehind, tag_before_fence]
  by_cases htag : tag <+: body
  · rw [pairBody, if_pos (hmarked.mpr htag), ofInside_marked htag]
    obtain ⟨inside, rfl⟩ := htag
    refine ⟨iff_of_true (hmarked.mpr ⟨inside, rfl⟩) rfl, ?_⟩
    have htext : front ++ (fence ++ (tag ++ inside ++ (fence ++ rest))) =
        (front ++ (fence ++ tag)) ++ (inside ++ (fence ++ rest)) := by
      simp only [List.append_assoc]
    rw [htext, between_append]
    · rfl
    · simp [fence, tag]
    · simp [fence, tag]
      omega
  · rw [pairBody, if_neg (mt hmarked.mp htag), ofInside_unmarked htag]
    refine ⟨iff_of_false (mt hmarked.mp htag) (by simp), ?_⟩
    rw [← List.append_assoc, between_append]
    · simp [fence]
    · simp [fence]

theorem isCandidate_iff (b : Block) :
    b.isCandidate = true ↔ b.tagged = true ∨ b.body.head? = some '\x7b' := by
  rw [Block.isCandidate, Bool.or_eq_true, beq_iff_eq]

theorem pairs_from (front cs : List Char) :
    ((pairUp (fencePlaces front.length cs)).filter (Counts (front ++ cs))).map
        (pairBody (front ++ cs)) =
      (candidates cs).map (·.body) := by
  induction cs using blocks.induct generalizing front with
  | case1 cs hopen =>
    rw [fencePlaces_none hopen, candidates, blocks_nil hopen]
    rfl
  | case2 cs before inside hopen hclose =>
    rw [fencePlaces_some hopen, fencePlaces_none hclose, candidates,
      blocks_unclosed hopen hclose]
    rfl
  | case3 cs before inside hopen body rest hclose hlength ih =>
    have hcs : front ++ cs = (front ++ before) ++ (fence ++ (body ++ (fence ++ rest))) := by
      rw [splitFence_eq_some hopen, splitFence_eq_some hclose, List.append_assoc]
    obtain ⟨hmarked, hbody⟩ := pair_ofInside (front ++ before) body rest
    have hcounts : Counts (front ++ cs)
        ((front ++ before).length, (front ++ before).length + 3 + body.length) ↔
          (Block.ofInside body).isCandidate = true := by
      rw [hcs, Counts, hmarked, hbody, isCandidate_iff]
    have hrest := ih (front ++ before ++ (fence ++ (body ++ fence)))
    have hplace : (front ++ before ++ (fence ++ (body ++ fence))).length =
        (front ++ before).length + 3 + body.length + 3 := by
      simp [fence]
      omega
    have htext : front ++ before ++ (fence ++ (body ++ fence)) ++ rest = front ++ cs := by
      rw [hcs]
      simp only [List.append_assoc]
    rw [hplace, htext] at hrest
    rw [fencePlaces_some hopen, fencePlaces_some hclose, ← List.length_append, pairUp,
      candidates, blocks_cons hopen hclose]
    by_cases hcandidate : (Block.ofInside body).isCandidate = true
    · rw [List.filter_cons_of_pos (by simpa using hcounts.mpr hcandidate),
        List.filter_cons_of_pos hcandidate, List.map_cons, List.map_cons, hrest, hcs, hbody,
        candidates]
    · rw [List.filter_cons_of_neg (by simpa using mt hcounts.mp hcandidate),
        List.filter_cons_of_neg hcandidate, hrest, candidates]

theorem pairs_candidates (cs : List Char) : (candidates cs).map (·.body) = pairedBodies cs :=
  (pairs_from [] cs).symm

theorem tight_ofInside (inside : List Char) : Tight (Block.ofInside inside).body := by
  rw [Block.ofInside]
  split <;> exact tight_trim _

theorem ofInside_within (inside : List Char) : (Block.ofInside inside).body <:+: inside := by
  rw [Block.ofInside]
  split
  next body hs =>
    rw [strip_eq_some.mp hs]
    exact (trim_within body).trans (List.suffix_append tag body).isInfix
  next => exact trim_within inside

theorem yielded_ofInside (inside : List Char) :
    yielded? (Block.ofInside inside).groups =
      if (Block.ofInside inside).isCandidate then some (Block.ofInside inside).body else none := by
  have hstart := trimStart_of_head (tight_ofInside inside).1
  have hsome : ∀ marked : Bool, (if marked = true then some tag else none).isSome = marked := by
    intro marked
    cases marked <;> rfl
  simp only [Block.groups, yielded?, Block.isCandidate, hstart, hsome]
  rfl

theorem matches_candidates (cs : List Char) :
    (candidates cs).map (·.body) = (blockPattern.findAll cs).filterMap yielded? := by
  rw [findAll_blocks, candidates]
  induction cs using blocks.induct with
  | case1 cs hopen => rw [blocks_nil hopen]; rfl
  | case2 cs before inside hopen hclose => rw [blocks_unclosed hopen hclose]; rfl
  | case3 cs before inside hopen body rest hclose hlength ih =>
    rw [blocks_cons hopen hclose, List.map_cons, List.filterMap_cons, yielded_ofInside, ← ih,
      List.filter_cons]
    cases (Block.ofInside body).isCandidate <;> rfl

theorem Apart.behind {pieces : List (List Char)} (h : Apart pieces cs) (front : List Char) :
    Apart pieces (front ++ cs) := by
  cases h with
  | nothing => exact .nothing _
  | piece gap body h =>
    rw [← List.append_assoc]
    exact .piece (front ++ gap) body h

theorem apart_blocks (wanted : Block → Bool) (cs : List Char) :
    Apart (((blocks cs).filter wanted).map (·.body)) cs := by
  induction cs using blocks.induct with
  | case1 cs hopen => rw [blocks_nil hopen]; exact .nothing cs
  | case2 cs before inside hopen hclose => rw [blocks_unclosed hopen hclose]; exact .nothing cs
  | case3 cs before inside hopen body rest hclose hlength ih =>
    obtain ⟨front, back, hbody⟩ := ofInside_within body
    have hcs : cs = before ++ (fence ++ (front ++ ((Block.ofInside body).body ++
        (back ++ (fence ++ rest))))) := by
      rw [splitFence_eq_some hopen, splitFence_eq_some hclose, ← List.append_assoc front,
        ← List.append_assoc (front ++ _), hbody]
    rw [blocks_cons hopen hclose, hcs, List.filter_cons]
    split
    · have hpiece := Apart.piece (before ++ (fence ++ front)) (Block.ofInside body).body
        (ih.behind (back ++ fence))
      simpa only [List.append_assoc, List.map_cons] using hpiece
    · have hrest := ih.behind
        (before ++ (fence ++ (front ++ ((Block.ofInside body).body ++ (back ++ fence)))))
      simpa only [List.append_assoc] using hrest

theorem within_block {b : Block} (h : b ∈ blocks cs) :
    b.body <:+: cs ∧ ¬ fence <:+: b.body ∧ Tight b.body := by
  induction cs using blocks.induct with
  | case1 cs hopen => rw [blocks_nil hopen] at h; cases h
  | case2 cs before inside hopen hclose => rw [blocks_unclosed hopen hclose] at h; cases h
  | case3 cs before inside hopen body rest hclose hlength ih =>
    have hcs : cs = before ++ (fence ++ (body ++ (fence ++ rest))) := by
      rw [splitFence_eq_some hopen, splitFence_eq_some hclose]
    rw [blocks_cons hopen hclose] at h
    rcases List.mem_cons.mp h with rfl | h
    · have hin := ofInside_within body
      refine ⟨hin.trans ⟨before ++ fence, fence ++ rest, by simp [hcs]⟩, fun hf => ?_,
        tight_ofInside body⟩
      exact (closed_before_fence hclose).no_fence (hf.trans hin)
    · obtain ⟨hrest, hkept⟩ := ih h
      exact ⟨hrest.trans ⟨before ++ (fence ++ (body ++ fence)), [], by simp [hcs]⟩, hkept⟩

/-- What is yielded are the bodies of paired fences, tagged ones and those that begin like an
object, in order and with repetitions. The block pattern finds the same. -/
theorem candidates_pair_fences (cs : List Char) :
    (candidates cs).map (·.body) = pairedBodies cs ∧
    (candidates cs).map (·.body) = (blockPattern.findAll cs).filterMap yielded? ∧
    Apart ((candidates cs).map (·.body)) cs ∧
    ∀ b ∈ candidates cs, b.body <:+: cs ∧ ¬ fence <:+: b.body ∧ Tight b.body :=
  ⟨pairs_candidates cs, matches_candidates cs, apart_blocks _ cs,
    fun _ hb => within_block (List.mem_filter.mp hb).1⟩

/-- Of seven backticks the first six are two fences with nothing between them. -/
example : pairedBodies "\x60\x60\x60\x60\x60\x60\x60json \x7b\x7d\x60\x60\x60json[1]\x60\x60\x60".toList =
    ["[1]".toList] := by decide

end BrowserActions.Reply
