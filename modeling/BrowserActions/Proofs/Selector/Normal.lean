import Mathlib
import BrowserActions.Proofs.Selector.Composition
import BrowserActions.Proofs.Selector.Groups
import BrowserActions.Proofs.Selector.Marking

/-!
# Normal selectors

Whatever the path says, its translation has no slash, no mark of an attribute and no blank ends,
neither of its own nor in a bracket group. The first stages take slashes and marks out and no later
one writes any. The last stage trims the groups it finds, and the trimmed text has these groups and
no others, so a second pass would find nothing to do.
-/
namespace BrowserActions.Selector

open Text

variable {cs ws body rest : List Char} {x : Char}

theorem frugal_contains (hstar : x ≠ '*') (hequals : x ≠ '=') : Frugal x containsRule := by
  intro cs out n h
  obtain ⟨subject, gap, value, rest, -, rfl, htake⟩ := contains_eq_some h
  rw [htake]
  simp only [arguments, List.cons_append, List.append_assoc, List.count_append, List.count_cons,
    List.count_nil, beq_iff_eq, hstar.symm, hequals.symm, if_false]
  omega

theorem frugal_name (x : Char) : Frugal x nameRule := by
  intro cs out n h
  obtain ⟨body, rest, -, rfl, htake⟩ := group_eq_some h
  rw [htake]
  simp only [List.count_append]
  omega

theorem staged_calling (cs : List Char) :
    staged cs = calling.foldl (fun cs rule => replaceAll rule cs) (reduced cs) := by
  rw [staged, stages_split, List.foldl_append]
  rfl

theorem staged_unmarked (hx : x ∈ ['/', '@']) (cs : List Char) : Without x (staged cs) := by
  have hfrugal : ∀ rule ∈ calling, Frugal x rule := by
    simp only [calling, List.forall_mem_cons]
    fin_cases hx <;>
      exact ⟨frugal_contains (by decide) (by decide), frugal_name _, frugal_predicate (by decide),
        List.forall_mem_nil _⟩
  have hnone := List.count_eq_zero.mpr (without_iff.mpr (reduced_unmarked hx cs))
  have hcount := frugal_foldl hfrugal (reduced cs)
  rw [hnone, ← staged_calling] at hcount
  exact without_iff.mp (List.count_eq_zero.mp (Nat.le_zero.mp hcount))

theorem upTo_cons (x c : Char) (cs : List Char) :
    upTo [x] (c :: cs) =
      if x = c then some ([], cs)
      else if c = '\n' then none else (upTo [x] cs).map fun p => (c :: p.1, p.2) := by
  by_cases h : x = c <;> simp [upTo, strip, h]

theorem upTo_within (h : upTo [x] cs = some (body, rest)) :
    Without x body ∧ Without '\n' body := by
  induction cs generalizing body with
  | nil => cases h
  | cons c cs ih =>
    rw [upTo_cons] at h
    split at h
    · cases h
      exact ⟨without_nil _, without_nil _⟩
    next hx =>
      split at h
      · cases h
      next hline =>
        obtain ⟨⟨front, behind⟩, hfront, heq⟩ := Option.map_eq_some_iff.mp h
        cases heq
        obtain ⟨hbody, hbodyLine⟩ := ih hfront
        exact ⟨hbody.cons (Ne.symm hx), hbodyLine.cons hline⟩

theorem upTo_extend (h : upTo [x] cs = some (body, rest)) (ws : List Char) :
    upTo [x] (cs ++ ws) = some (body, rest ++ ws) := by
  obtain ⟨hbody, hline⟩ := upTo_within h
  rw [upTo_eq_some h, List.append_assoc]
  exact upTo_append [] hbody hline (rest ++ ws)

theorem upTo_none_append (h : upTo [x] cs = none) (hws : Without x ws) :
    upTo [x] (cs ++ ws) = none := by
  induction cs with
  | nil =>
    rw [Option.eq_none_iff_forall_ne_some]
    rintro ⟨body, rest⟩ hread
    rw [List.nil_append] at hread
    exact hws x (by simp [upTo_eq_some hread]) rfl
  | cons c cs ih =>
    rw [List.cons_append, upTo_cons]
    rw [upTo_cons] at h
    split at h
    · cases h
    · split at h
      next hx hline => rw [if_neg hx, if_pos hline]
      next hx hline => rw [if_neg hx, if_neg hline, ih (Option.map_eq_none_iff.mp h)]; rfl

theorem upTo_none_replaced (h : upTo [']'] cs = none) :
    upTo [']'] (replaceAll predicateRule cs) = none := by
  induction cs with
  | nil => rfl
  | cons c cs ih =>
    rw [upTo_cons] at h
    split at h
    · cases h
    next hclose =>
      split at h
      next hline =>
        rw [predicate_skip (if_neg (hline ▸ by decide)), upTo_cons, if_neg hclose, if_pos hline]
      next hline =>
        have hrest := Option.map_eq_none_iff.mp h
        rw [predicate_skip (opened_eq_none.mpr fun _ => hrest), upTo_cons, if_neg hclose,
          if_neg hline, ih hrest]
        rfl

theorem opened_none_replaced {c : Char} (h : opened? c cs = none) :
    opened? c (replaceAll predicateRule cs) = none :=
  opened_eq_none.mpr fun hc => upTo_none_replaced (opened_eq_none.mp h hc)

/-- Trimming groups makes no new ones. -/
theorem groups_replaced (cs : List Char) :
    groups (replaceAll predicateRule cs) = (groups cs).map trim := by
  induction cs using groups_induction with
  | nil =>
    change groups [] = (groups []).map trim
    rw [groups]
    rfl
  | group cs body rest h ih =>
    obtain ⟨hbody, hline⟩ := upTo_within h
    have hin := (trim_within body).subset
    have hread : upTo [']'] (trim body ++ ']' :: replaceAll predicateRule rest) =
        some (trim body, replaceAll predicateRule rest) :=
      upTo_append [] (fun c hc => hbody c (hin hc)) (fun c hc => hline c (hin hc)) _
    rw [predicate_group h, bracketed_append, groups_opened (c := '[') hread,
      groups_opened (c := '[') h, ih, List.map_cons]
  | skip c cs h ih =>
    rw [predicate_skip h, groups_skipped h, groups_skipped (opened_none_replaced h), ih]

theorem without_of_blank (hx : isBlank x = false) (hws : ∀ c ∈ ws, isBlank c = true) :
    Without x ws := by
  rintro c hc rfl
  rw [hws c hc] at hx
  cases hx

theorem groups_without (h : Without '[' cs) (rest : List Char) :
    groups (cs ++ rest) = groups rest := by
  induction cs with
  | nil => rfl
  | cons c cs ih =>
    rw [List.cons_append, groups_skipped (if_neg (h c List.mem_cons_self)), ih h.tail]

theorem groups_behind (hopen : Without '[' ws) (hclose : Without ']' ws) (cs : List Char) :
    groups (cs ++ ws) = groups cs := by
  induction cs using groups_induction with
  | nil =>
    have hnone := groups_without hopen []
    rwa [List.append_nil] at hnone
  | group cs body rest h ih =>
    have hread := upTo_extend h ws
    rw [List.cons_append, groups_opened (c := '[') hread, groups_opened (c := '[') h, ih]
  | skip c cs h ih =>
    have hskip : opened? c (cs ++ ws) = none :=
      opened_eq_none.mpr fun hc => upTo_none_append (opened_eq_none.mp h hc) hclose
    rw [List.cons_append, groups_skipped hskip, groups_skipped h, ih]

theorem groups_trim (cs : List Char) : groups (trim cs) = groups cs := by
  obtain ⟨front, hfront, hstart⟩ := trimStart_split cs
  obtain ⟨back, hback, hend⟩ := trimEnd_split (trimStart cs)
  have hopen := without_of_blank (x := '[') (by decide) hback
  have hclose := without_of_blank (x := ']') (by decide) hback
  calc groups (trim cs) = groups (trim cs ++ back) := (groups_behind hopen hclose _).symm
    _ = groups (trimStart cs) := by rw [trim, ← hend]
    _ = groups (front ++ trimStart cs) :=
      (groups_without (without_of_blank (by decide) hfront) _).symm
    _ = groups cs := by rw [← hstart]

/-- A text without slashes and marks that is trimmed, as every bracket group in it is. -/
structure Normal (css : List Char) : Prop where
  slash : '/' ∉ css
  mark : '@' ∉ css
  tight : Tight css
  groups : ∀ body ∈ groups css, Tight body

theorem tight_staged (cs : List Char) : ∀ body ∈ groups (staged cs), Tight body := by
  have hlast : staged cs = replaceAll predicateRule
      (replaceAll nameRule (replaceAll containsRule (reduced cs))) := staged_calling cs
  rw [hlast, groups_replaced]
  intro body hbody
  obtain ⟨inside, -, rfl⟩ := List.mem_map.mp hbody
  exact tight_trim inside

theorem normal_translate (cs : List Char) : Normal (translate cs) := by
  have hwithin := (trim_within (staged cs)).subset
  have hunmarked : ∀ x ∈ ['/', '@'], x ∉ translate cs := fun x hx hmem =>
    staged_unmarked hx cs x (hwithin hmem) rfl
  refine ⟨hunmarked '/' (by decide), hunmarked '@' (by decide), tight_trim _, ?_⟩
  have hgroups : groups (translate cs) = groups (staged cs) := groups_trim (staged cs)
  rw [hgroups]
  exact tight_staged cs

/-- Every translation is normal, and the last stage has nothing more to do in it. -/
theorem ofXPath_normal (xpath : String) :
    Normal (ofXPath xpath).toList ∧
      replaceAll predicateRule (ofXPath xpath).toList = (ofXPath xpath).toList := by
  rw [ofXPath, String.toList_ofList]
  have hnormal := normal_translate xpath.toList
  exact ⟨hnormal, (predicate_eq_iff _).mpr hnormal.groups⟩

end BrowserActions.Selector
