import Mathlib
import BrowserActions.Keyed

/-!
# Looking up what was inserted

The last value that was given a name is the one found under it.
-/
namespace BrowserActions.Keyed

variable {α β : Type}

theorem lookup_insert (name key : String) (value : α) (known : List (String × α)) :
    lookup key (insert name value known) = if name = key then some value else lookup key known := by
  induction known with
  | nil => simp [insert, lookup]
  | cons entry rest ih =>
    rw [insert]
    by_cases heq : name = entry.1
    · subst heq
      rw [if_pos rfl]
      by_cases hk : entry.1 = key <;> simp [lookup, hk]
    · rw [if_neg heq]
      split
      next => rfl
      next =>
        rw [lookup, ih, lookup]
        by_cases hk : entry.1 = key
        · have hne : name ≠ key := fun h => heq (h.trans hk.symm)
          simp [hk, hne]
        · simp [hk]

theorem ofList_concat (entries : List (String × α)) (entry : String × α) :
    ofList (entries ++ [entry]) = insert entry.1 entry.2 (ofList entries) := by
  simp [ofList]

theorem mem_ofList {entry : String × α} {entries : List (String × α)}
    (h : entry ∈ ofList entries) : entry ∈ entries := by
  induction entries using List.reverseRecOn with
  | nil => exact h
  | append_singleton entries last ih =>
    rw [ofList_concat] at h
    rcases mem_insert h with rfl | h
    · exact List.mem_concat_self
    · exact List.mem_append_left _ (ih h)

theorem lookup_ofList (key : String) (entries : List (String × α)) :
    lookup key (ofList entries) = lookup key entries.reverse := by
  induction entries using List.reverseRecOn with
  | nil => rfl
  | append_singleton entries entry ih =>
    rw [ofList_concat, lookup_insert, ih, List.reverse_concat, lookup]

theorem mem_of_lookup {name : String} {value : α} {entries : List (String × α)}
    (h : lookup name entries = some value) : (name, value) ∈ entries := by
  induction entries with
  | nil => cases h
  | cons entry rest ih =>
    rw [lookup] at h
    split at h
    next heq =>
      cases h
      rw [← heq]
      exact List.mem_cons_self
    next => exact List.mem_cons_of_mem _ (ih h)

theorem lookup_map (f : α → β) (key : String) (entries : List (String × α)) :
    lookup key (entries.map fun e => (e.1, f e.2)) = (lookup key entries).map f := by
  induction entries with
  | nil => rfl
  | cons entry rest ih =>
    rw [List.map_cons, lookup, lookup, ih]
    split <;> rfl

theorem lookup_append (key : String) (first second : List (String × α)) :
    lookup key (first ++ second) = (lookup key first).or (lookup key second) := by
  induction first with
  | nil => rfl
  | cons entry rest ih =>
    rw [List.cons_append, lookup, lookup, ih]
    split <;> rfl

theorem isSome_lookup (key : String) (entries : List (String × α)) :
    (lookup key entries).isSome = true ↔ key ∈ entries.map (·.1) := by
  induction entries with
  | nil => simp [lookup]
  | cons entry rest ih =>
    by_cases hname : entry.1 = key
    · simp [lookup, hname]
    · rw [lookup, if_neg hname, ih, List.map_cons, List.mem_cons]
      exact ⟨.inr, fun h => h.resolve_left (Ne.symm hname)⟩

theorem lookup_eq_none {key : String} {entries : List (String × α)}
    (h : key ∉ entries.map (·.1)) : lookup key entries = none := by
  apply Option.not_isSome_iff_eq_none.mp
  rwa [isSome_lookup]

theorem lookup_of_mem {name : String} {value : α} {entries : List (String × α)}
    (h : (entries.map (·.1)).Nodup) (hmem : (name, value) ∈ entries) :
    lookup name entries = some value := by
  induction entries with
  | nil => cases hmem
  | cons entry rest ih =>
    obtain ⟨hfresh, hrest⟩ := List.nodup_cons.mp h
    rcases List.mem_cons.mp hmem with rfl | hlater
    · simp [lookup]
    · have hne : entry.1 ≠ name := by
        intro heq
        exact hfresh (List.mem_map.mpr ⟨_, hlater, heq.symm⟩)
      simpa [lookup, hne] using ih hrest hlater

theorem lookup_eq_some {name : String} {value : α} {entries : List (String × α)}
    (h : (entries.map (·.1)).Nodup) : lookup name entries = some value ↔ (name, value) ∈ entries :=
  ⟨mem_of_lookup, lookup_of_mem h⟩

theorem lookup_of_perm {entries known : List (String × α)} (h : (known.map (·.1)).Nodup)
    (hperm : entries.Perm known) (key : String) : lookup key entries = lookup key known := by
  have hentries : (entries.map (·.1)).Nodup := (hperm.map (·.1)).nodup_iff.mpr h
  apply Option.ext
  intro value
  rw [lookup_eq_some hentries, lookup_eq_some h, hperm.mem_iff]

theorem lookup_reverse {entries : List (String × α)} (h : (entries.map (·.1)).Nodup)
    (key : String) : lookup key entries.reverse = lookup key entries :=
  lookup_of_perm h (List.reverse_perm entries) key

theorem Ascending.nodup {known : List (String × α)} (h : Ascending known) :
    (known.map (·.1)).Nodup := by
  have hlt : (known.map (·.1)).Pairwise (· < ·) := List.pairwise_map.mpr h
  apply hlt.imp
  intro a b hab
  exact String.ne_of_lt hab

theorem Ascending.ext {known known' : List (String × α)} (h : Ascending known)
    (h' : Ascending known') (hlookup : ∀ key, lookup key known = lookup key known') :
    known = known' := by
  have hmem : ∀ entry, entry ∈ known ↔ entry ∈ known' := by
    rintro ⟨name, value⟩
    rw [← lookup_eq_some h.nodup, ← lookup_eq_some h'.nodup, hlookup name]
  have hperm : known.Perm known' :=
    (List.perm_ext_iff_of_nodup (h.nodup.of_map _) (h'.nodup.of_map _)).mpr hmem
  -- no two entries stand on both sides of each other
  apply List.Perm.eq_of_pairwise _ h h' hperm
  intro a b _ _ hlt hgt
  exact absurd hgt (String.lt_asymm hlt)

theorem ofList_of_perm {entries known : List (String × α)} (h : Ascending known)
    (hperm : entries.Perm known) : ofList entries = known := by
  apply (ascending_ofList entries).ext h
  intro key
  rw [lookup_ofList]
  exact lookup_of_perm h.nodup ((List.reverse_perm entries).trans hperm) key

theorem ofList_of_ascending {entries : List (String × α)} (h : Ascending entries) :
    ofList entries = entries :=
  ofList_of_perm h (List.Perm.refl _)

end BrowserActions.Keyed
