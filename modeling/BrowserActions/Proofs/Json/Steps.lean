import Mathlib
import BrowserActions.Json.Reader

/-!
# Steps of the reader

All that a token can do to a draft in the making. What every step keeps is true of the draft in the
end, if the text was whole.
-/
namespace BrowserActions.Json.Building

/-- A token that is read where it may stand. -/
inductive Step : Building → Token → Building → Prop
  | value {frames t next} (h : put frames t = some next) : Step ⟨frames, .value⟩ t next
  | emptyArray {frames} : Step ⟨frames, .item⟩ .closeArray ⟨frames, .behind (.array [] true)⟩
  | item {frames t next} (h : put (.array [] :: frames) t = some next) :
    Step ⟨frames, .item⟩ t next
  | name {frames opened before} (s : String) :
    Step ⟨frames, .key opened before⟩ (.string s) ⟨frames, .colon before (some s)⟩
  | unusableName {frames opened before} :
    Step ⟨frames, .key opened before⟩ .unpaired ⟨frames, .colon before none⟩
  | emptyObject {frames before} :
    Step ⟨frames, .key true before⟩ .closeObject ⟨frames, .behind (.object before.reverse true)⟩
  | colon {frames before name} :
    Step ⟨frames, .colon before name⟩ .colon ⟨.object before name :: frames, .value⟩
  | nextItem {frames items v} :
    Step ⟨.array items :: frames, .behind v⟩ .comma ⟨.array (v :: items) :: frames, .value⟩
  | closeArray {frames items v} :
    Step ⟨.array items :: frames, .behind v⟩ .closeArray
      ⟨frames, .behind (.array (v :: items).reverse true)⟩
  | nextMember {frames before name v} :
    Step ⟨.object before name :: frames, .behind v⟩ .comma
      ⟨frames, .key false ((name, v) :: before)⟩
  | closeObject {frames before name v} :
    Step ⟨.object before name :: frames, .behind v⟩ .closeObject
      ⟨frames, .behind (.object ((name, v) :: before).reverse true)⟩

variable {b next : Building} {t : Token} {ts : List Token}

theorem step_cases (h : b.step t = some next) : Step b t next := by
  obtain ⟨frames, place⟩ := b
  cases place with
  | value => exact .value h
  | item =>
    rw [step] at h
    dsimp only at h
    split at h
    next hclose =>
      cases h
      exact hclose ▸ .emptyArray
    · exact .item h
  | key opened before =>
    cases t with
    | string s =>
      cases h
      exact .name s
    | unpaired =>
      cases h
      exact .unusableName
    | closeObject =>
      cases opened with
      | true =>
        cases h
        exact .emptyObject
      | false => cases h
    | _ => cases h
  | colon before name =>
    cases t with
    | colon =>
      cases h
      exact .colon
    | _ => cases h
  | behind v =>
    cases frames with
    | nil => cases t <;> cases h
    | cons frame frames =>
      cases frame with
      | array items =>
        cases t with
        | comma =>
          cases h
          exact .nextItem
        | closeArray =>
          cases h
          exact .closeArray
        | _ => cases h
      | object before name =>
        cases t with
        | comma =>
          cases h
          exact .nextMember
        | closeObject =>
          cases h
          exact .closeObject
        | _ => cases h

theorem run_keeps {P : Token → Prop} {Inv : Building → Prop}
    (hkeeps : ∀ b t next, Inv b → P t → Step b t next → Inv next) (hb : Inv b)
    (ht : ∀ t ∈ ts, P t) (hw : (b.run ts).whole = true) : Inv ⟨[], .behind (b.run ts).draft⟩ := by
  induction ts generalizing b with
  | nil =>
    obtain ⟨frames, place⟩ := b
    cases frames with
    | nil =>
      cases place with
      | behind v => exact hb
      | _ => cases hw
    | cons frame frames => cases hw
  | cons t ts ih =>
    obtain ⟨hfirst, hrest⟩ := List.forall_mem_cons.mp ht
    rw [run] at hw ⊢
    cases hstep : b.step t with
    | none =>
      rw [hstep] at hw
      cases hw
    | some next =>
      rw [hstep] at hw
      exact ih (hkeeps _ _ _ hb hfirst (step_cases hstep)) hrest hw

end BrowserActions.Json.Building
