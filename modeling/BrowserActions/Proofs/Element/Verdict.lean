import Mathlib
import BrowserActions.Element.Basic
import BrowserActions.Proofs.Keyed

/-!
# Verdicts on elements

Attributes are added to an element one after the other, and the last value of each name counts. So
the verdicts do not depend on how the attributes came to be there. Added attributes can only make an
element interactive, and of all names only `aria-hidden` bears on whether it is visible.
-/
namespace BrowserActions

theorem Attributes.ext_get? {a b : Attributes} (h : ∀ name, a.get? name = b.get? name) : a = b := by
  obtain ⟨entries, ha⟩ := a
  obtain ⟨entries', hb⟩ := b
  obtain rfl : entries = entries' := ha.ext hb h
  rfl

structure Style.Shows (s : Style) : Prop where
  opacity : s.opacity ≠ "" ∧ s.opacity ≠ "0"
  display : s.display ≠ "none"
  visibility : s.visibility ≠ "hidden"

namespace Element

variable {e e' : Element} {calls calls' : List (String × String)} {name : String} {s : Style}

def withAttributes (e : Element) (calls : List (String × String)) : Element :=
  calls.foldl (fun e call => e.withAttribute call.1 call.2) e

/-- What stands under a name behind all calls: the last value given, or else what stood there
before them. -/
def left? (e : Element) (calls : List (String × String)) (name : String) : Option String :=
  (Keyed.lookup name calls.reverse).or (e.attribute? name)

theorem attribute_withAttribute (e : Element) (name value key : String) :
    (e.withAttribute name value).attribute? key =
      if name = key then some value else e.attribute? key :=
  Keyed.lookup_insert name key value e.attributes.entries

@[simp]
theorem tag_withAttributes (e : Element) (calls : List (String × String)) :
    (e.withAttributes calls).tag = e.tag := by
  induction calls generalizing e with
  | nil => rfl
  | cons call calls ih => exact ih (e.withAttribute call.1 call.2)

theorem attribute_withAttributes (e : Element) (calls : List (String × String)) (name : String) :
    (e.withAttributes calls).attribute? name = e.left? calls name := by
  induction calls generalizing e with
  | nil => rfl
  | cons call calls ih =>
    calc (e.withAttributes (call :: calls)).attribute? name
      _ = (e.withAttribute call.1 call.2).left? calls name := ih (e.withAttribute call.1 call.2)
      _ = e.left? (call :: calls) name := by
        rw [left?, left?, attribute_withAttribute, List.reverse_cons, Keyed.lookup_append,
          Option.or_assoc]
        by_cases hname : call.1 = name <;> simp [Keyed.lookup, hname]

theorem withAttributes_congr (h : ∀ name, e.left? calls name = e.left? calls' name) :
    e.withAttributes calls = e.withAttributes calls' := by
  have hattributes : (e.withAttributes calls).attributes = (e.withAttributes calls').attributes := by
    apply Attributes.ext_get?
    intro name
    change (e.withAttributes calls).attribute? name = (e.withAttributes calls').attribute? name
    rw [attribute_withAttributes, attribute_withAttributes, h]
  have htag : (e.withAttributes calls).tag = (e.withAttributes calls').tag := by simp
  exact congrArg₂ Element.mk htag hattributes

theorem hasAttribute_withAttributes :
    (e.withAttributes calls).hasAttribute name = true ↔
      name ∈ calls.map (·.1) ∨ e.hasAttribute name = true := by
  rw [hasAttribute, attribute_withAttributes, left?, Option.isSome_or, Bool.or_eq_true,
    Keyed.isSome_lookup, List.map_reverse, List.mem_reverse, hasAttribute]

theorem isInteractive_iff : e.isInteractive s = true ↔
    (∃ tag ∈ nativeControls, sameTag tag e.tag = true) ∨
      (∃ handler ∈ inlineHandlers, e.hasAttribute handler = true) ∨ s.cursor = "pointer" := by
  simp [isInteractive, or_assoc]

theorem isVisible_iff :
    e.isVisible s = true ↔ s.Shows ∧ e.attribute? "aria-hidden" ≠ some "true" := by
  simp only [isVisible, Bool.and_eq_true, bne_iff_ne]
  constructor
  · rintro ⟨⟨⟨⟨hempty, hzero⟩, hdisplay⟩, hvisibility⟩, haria⟩
    exact ⟨⟨⟨hempty, hzero⟩, hdisplay, hvisibility⟩, haria⟩
  · rintro ⟨⟨⟨hempty, hzero⟩, hdisplay, hvisibility⟩, haria⟩
    exact ⟨⟨⟨⟨hempty, hzero⟩, hdisplay⟩, hvisibility⟩, haria⟩

theorem isVisible_congr (h : e'.attribute? "aria-hidden" = some "true" ↔
    e.attribute? "aria-hidden" = some "true") : e'.isVisible s = e.isVisible s := by
  apply Bool.eq_iff_iff.mpr
  simp only [isVisible_iff, Ne, h]

/-- What added attributes do to the verdicts under a style. -/
structure Adds (e : Element) (calls : List (String × String)) (s : Style) : Prop where
  interactive : e.isInteractive s = true → (e.withAttributes calls).isInteractive s = true
  handled : (∃ handler ∈ inlineHandlers, handler ∈ calls.map (·.1)) →
    (e.withAttributes calls).isInteractive s = true
  /-- Nothing is shown or hidden, unless it starts or ceases to be declared hidden. -/
  visible : (e.withAttributes calls).isVisible s ≠ e.isVisible s →
    ¬((e.withAttributes calls).attribute? "aria-hidden" = some "true" ↔
      e.attribute? "aria-hidden" = some "true")
  actionable : "aria-hidden" ∉ calls.map (·.1) → e.isActionable s = true →
    (e.withAttributes calls).isActionable s = true

theorem adds (e : Element) (calls : List (String × String)) (s : Style) : e.Adds calls s := by
  have hinteractive : e.isInteractive s = true →
      (e.withAttributes calls).isInteractive s = true := by
    rw [isInteractive_iff, isInteractive_iff, tag_withAttributes]
    rintro (hnative | ⟨handler, hmem, hhas⟩ | hcursor)
    · exact .inl hnative
    · exact .inr (.inl ⟨handler, hmem, hasAttribute_withAttributes.mpr (.inr hhas)⟩)
    · exact .inr (.inr hcursor)
  refine ⟨hinteractive, ?_, fun hne hiff => hne (isVisible_congr hiff), ?_⟩
  · rintro ⟨handler, hmem, hset⟩
    exact isInteractive_iff.mpr
      (.inr (.inl ⟨handler, hmem, hasAttribute_withAttributes.mpr (.inl hset)⟩))
  · intro hunset hactionable
    obtain ⟨hbefore, hvisible⟩ := (Bool.and_eq_true _ _).mp hactionable
    have hsame : (e.withAttributes calls).attribute? "aria-hidden" =
        e.attribute? "aria-hidden" := by
      have hnone : Keyed.lookup "aria-hidden" calls.reverse = none :=
        Keyed.lookup_eq_none (by simpa using hunset)
      rw [attribute_withAttributes, left?, hnone, Option.none_or]
    apply (Bool.and_eq_true _ _).mpr
    exact ⟨hinteractive hbefore, (isVisible_congr (by rw [hsame])).trans hvisible⟩

/-- No style makes a difference between the two. -/
structure JudgedAlike (e e' : Element) : Prop where
  interactive : ∀ s, e.isInteractive s = e'.isInteractive s
  visible : ∀ s, e.isVisible s = e'.isVisible s
  actionable : ∀ s, e.isActionable s = e'.isActionable s

/-- The same character, or an ASCII letter in another case. -/
def SameLetter (c d : Char) : Prop := d = c ∨ d = c.toUpper ∨ d = c.toLower

/-- The same tag but for the case of ASCII letters. -/
def Recased (tag tag' : String) : Prop := List.Forall₂ SameLetter tag.toList tag'.toList

theorem SameLetter.toUpper_eq {c d : Char} (h : SameLetter c d) : c.toUpper = d.toUpper := by
  rcases h with rfl | rfl | rfl
  · rfl
  · exact (Char.toUpper_toUpper_eq_toUpper c).symm
  · exact (Char.toUpper_toLower_eq_toUpper c).symm

theorem map_toUpper_eq {cs ds : List Char} (h : List.Forall₂ SameLetter cs ds) :
    cs.map Char.toUpper = ds.map Char.toUpper := by
  induction h with
  | nil => rfl
  | cons hfirst _ ih => simp [hfirst.toUpper_eq, ih]

theorem Recased.sameTag_eq {tag tag' : String} (h : Recased tag tag') (control : String) :
    sameTag control tag = sameTag control tag' := by
  rw [sameTag, sameTag, map_toUpper_eq h]

theorem Recased.judgedAlike {tag : String} (h : Recased e.tag tag) :
    JudgedAlike e { e with tag := tag } := by
  have hinteractive (s : Style) : e.isInteractive s = isInteractive { e with tag := tag } s := by
    apply Bool.eq_iff_iff.mpr
    simp only [isInteractive_iff, h.sameTag_eq]
    rfl
  refine ⟨hinteractive, fun s => rfl, fun s => ?_⟩
  simp only [isActionable, hinteractive s]
  rfl

/-- The last value of each name is what an element has, once, and so calls that leave the same
values leave the same verdicts. Calls can take no verdict back but by declaring the element hidden, and an
inline handler of any value makes it interactive. The case of the tag does not matter. -/
theorem verdicts_follow_attributes (e : Element) :
    (∀ calls calls', (∀ name, e.left? calls name = e.left? calls' name) →
      (e.withAttributes calls).attributes = (e.withAttributes calls').attributes ∧
        JudgedAlike (e.withAttributes calls) (e.withAttributes calls')) ∧
    (∀ calls, ((e.withAttributes calls).attributes.entries.map (·.1)).Nodup ∧
      (∀ name, (e.withAttributes calls).attribute? name = e.left? calls name) ∧
      ∀ s, e.Adds calls s) ∧
    ∀ tag, Recased e.tag tag → JudgedAlike e { e with tag := tag } := by
  refine ⟨fun calls calls' h => ?_, fun calls => ?_, fun tag h => h.judgedAlike⟩
  · rw [withAttributes_congr h]
    exact ⟨rfl, fun _ => rfl, fun _ => rfl, fun _ => rfl⟩
  · exact ⟨(e.withAttributes calls).attributes.ascending.nodup, attribute_withAttributes e calls,
      adds e calls⟩

def hinted : Element := ⟨"div", .ofList [("id", "a"), ("aria-hidden", "false")]⟩

def pointing : Style := { Style.standard with cursor := "pointer" }

/-- A handler that is overwritten, and a name that is set in one of the two ways only, to the value
that it has. Then the element is declared hidden. -/
theorem verdicts_follow_attributes_overwritten :
    let once := [("onclick", "go()")]
    let twice := [("onclick", ""), ("id", "b"), ("onclick", "go()"), ("id", "a")]
    let covering := [("aria-hidden", "no"), ("aria-hidden", "true")]
    ((hinted.withAttributes once).attributes = (hinted.withAttributes twice).attributes ∧
        JudgedAlike (hinted.withAttributes once) (hinted.withAttributes twice)) ∧
      (hinted.isInteractive .standard = false ∧
        (hinted.withAttributes once).isInteractive .standard = true) ∧
      (hinted.isActionable pointing = true ∧
        (hinted.withAttributes once).isInteractive pointing = true ∧
        (hinted.withAttributes once).isActionable pointing = true) ∧
      ((hinted.withAttributes covering).isVisible .standard = false ∧
        ¬((hinted.withAttributes covering).attribute? "aria-hidden" = some "true" ↔
          hinted.attribute? "aria-hidden" = some "true")) ∧
      JudgedAlike hinted { hinted with tag := "DiV" } := by
  intro once twice covering
  obtain ⟨hsame, hcalls, hcase⟩ := verdicts_follow_attributes hinted
  have hleft : ∀ name, hinted.left? once name = hinted.left? twice name := by
    intro name
    by_cases hclick : "onclick" = name
    · subst hclick
      rfl
    · by_cases hid : "id" = name
      · subst hid
        decide +kernel
      · simp [left?, once, twice, Keyed.lookup, hclick, hid]
  have hrecased : Recased hinted.tag "DiV" := by simp [Recased, hinted, SameLetter]
  have hstandard := (hcalls once).2.2 .standard
  have hpointing := (hcalls once).2.2 pointing
  have hcovering := (hcalls covering).2.2 .standard
  have hbefore : hinted.isActionable pointing = true := by decide +kernel
  have hhidden : (hinted.withAttributes covering).isVisible .standard = false := by decide +kernel
  refine ⟨hsame once twice hleft, ⟨by decide +kernel, ?_⟩, ⟨hbefore, ?_, ?_⟩, ⟨hhidden, ?_⟩,
    hcase "DiV" hrecased⟩
  · exact hstandard.handled ⟨"onclick", by decide, by decide⟩
  · exact hpointing.interactive (by decide +kernel)
  · exact hpointing.actionable (by decide) hbefore
  · apply hcovering.visible
    rw [hhidden]
    decide +kernel

end Element
end BrowserActions
