/-!
# Values under names

Lists of named values in which the names ascend, so that each name stands once and equal
contents are equal lists. Names are compared by code points, which is also the order of their
UTF-8 bytes.
-/
namespace BrowserActions.Keyed

variable {α : Type}

def Ascending (entries : List (String × α)) : Prop := entries.Pairwise (·.1 < ·.1)

def insert (name : String) (value : α) : List (String × α) → List (String × α)
  | [] => [(name, value)]
  | entry :: rest =>
    if name = entry.1 then (name, value) :: rest
    else if name < entry.1 then (name, value) :: entry :: rest
    else entry :: insert name value rest

def lookup (name : String) : List (String × α) → Option α
  | [] => none
  | entry :: rest => if entry.1 = name then some entry.2 else lookup name rest

/-- Later values win. -/
def ofList (entries : List (String × α)) : List (String × α) :=
  entries.foldl (fun known entry => insert entry.1 entry.2 known) []

theorem mem_insert {name : String} {value : α} {entry : String × α} {known : List (String × α)}
    (h : entry ∈ insert name value known) : entry = (name, value) ∨ entry ∈ known := by
  induction known with
  | nil => simpa [insert] using h
  | cons first rest ih =>
    rw [insert] at h
    split at h
    · grind
    · split at h <;> grind

theorem Ascending.insert {known : List (String × α)} (h : Ascending known) (name : String)
    (value : α) : Ascending (Keyed.insert name value known) := by
  induction known with
  | nil => exact List.pairwise_singleton _ _
  | cons first rest ih =>
    obtain ⟨hfirst, hrest⟩ := List.pairwise_cons.1 h
    rw [Keyed.insert]
    split
    next heq => exact List.pairwise_cons.2 ⟨fun e he => heq ▸ hfirst e he, hrest⟩
    next hne =>
      split
      next hlt =>
        refine List.pairwise_cons.2 ⟨fun e he => ?_, h⟩
        rcases List.mem_cons.1 he with rfl | he
        · exact hlt
        · exact String.lt_trans hlt (hfirst e he)
      next hge =>
        refine List.pairwise_cons.2 ⟨fun e he => ?_, ih hrest⟩
        rcases mem_insert he with rfl | he
        · exact Std.lt_of_le_of_ne (String.not_lt.1 hge) (Ne.symm hne)
        · exact hfirst e he

theorem ascending_foldl_insert (entries : List (String × α)) {known : List (String × α)}
    (h : Ascending known) :
    Ascending (entries.foldl (fun known entry => insert entry.1 entry.2 known) known) := by
  induction entries generalizing known with
  | nil => exact h
  | cons entry rest ih => exact ih (h.insert entry.1 entry.2)

theorem ascending_ofList (entries : List (String × α)) : Ascending (ofList entries) :=
  ascending_foldl_insert entries List.Pairwise.nil

end BrowserActions.Keyed
