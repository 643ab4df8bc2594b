import Mathlib
import BrowserActions.Proofs.Json.Members
import BrowserActions.Proofs.Json.Steps

/-!
# Kinds of values

The first character of a JSON text that is no space decides whether its value is an array, an
object or neither. The token that it begins opens the outermost frame, and no step of the reader
turns a frame into one of another kind.
-/
namespace BrowserActions

inductive Json.Kind where
  | array
  | object
  /-- Anything that holds no other values. -/
  | plain
  deriving DecidableEq, Repr

def Json.kind : Json → Json.Kind
  | .array _ => .array
  | .object _ => .object
  | _ => .plain

def Draft.kind : Draft → Json.Kind
  | .array _ _ => .array
  | .object _ _ => .object
  | _ => .plain

namespace Json

variable {v : Json} {t : Token} {ts : List Token} {b next : Building} {frames : List Frame}
  {k : Kind} {c : Char} {cs : List Char} {mode : Mode}

theorem kind_of_value {d : Draft} {room : Nat} (h : d.value? room = some v) : v.kind = d.kind := by
  have hshows := Draft.shows_of_value h
  cases d with
  | real x =>
    obtain ⟨y, rfl, rfl⟩ := hshows
    rfl
  | array items closed =>
    obtain ⟨-, vs, -, rfl⟩ := hshows
    rfl
  | object members closed =>
    obtain ⟨-, vs, -, rfl⟩ := hshows
    rfl
  | unusable | broken => cases hshows
  | _ =>
    rw [hshows]
    rfl

def Token.kind : Token → Kind
  | .openArray => .array
  | .openObject => .object
  | _ => .plain

def Frame.kind : Frame → Kind
  | .array _ => .array
  | .object _ _ => .object

def Place.kind? : Place → Option Kind
  | .value => none
  | .item => some .array
  | .key _ _ | .colon _ _ => some .object
  | .behind v => some v.kind

def outermost : List Frame → Option Kind → Option Kind
  | [], inner => inner
  | f :: frames, _ => outermost frames (some f.kind)

def Building.kind? (b : Building) : Option Kind := outermost b.frames b.place.kind?

theorem put_kind (h : Building.put frames t = some b) :
    b.kind? = outermost frames (some t.kind) := by
  cases t with
  | number n =>
    cases n with
    | integer n =>
      cases h
      rfl
    | double x =>
      cases h
      rfl
  | closeArray | closeObject | comma | colon | broken => cases h
  | _ =>
    cases h
    rfl

theorem Building.Step.kind (h : Building.Step b t next) (hk : b.kind? = some k) :
    next.kind? = some k := by
  cases h with
  | @value frames _ _ h =>
    cases frames with
    | nil => cases hk
    | cons f frames => exact (put_kind h).trans hk
  | item h => exact (put_kind h).trans hk
  | _ => exact hk

theorem kind_of_tokens (htokens : tokens cs = t :: ts) (hw : (reading cs).whole = true) :
    (reading cs).draft.kind = t.kind := by
  rw [reading, htokens, Building.run] at hw ⊢
  cases hstep : (Building.mk [] .value).step t with
  | none =>
    rw [hstep] at hw
    cases hw
  | some next =>
    rw [hstep] at hw
    have hkeeps (b : Building) (u : Token) (next : Building) (hk : b.kind? = some t.kind) (_ : True)
        (h : Building.Step b u next) : next.kind? = some t.kind := h.kind hk
    exact Option.some.inj (Building.run_keeps hkeeps (put_kind hstep) (fun _ _ => trivial) hw)

def Kind.ofFirst (c : Char) : Kind :=
  if c = '[' then .array else if c = '\x7b' then .object else .plain

def Led (k : Kind) (ts : List Token) : Prop := ∀ t ∈ ts.head?, t.kind = k

theorem led_nil : Led k [] := by simp [Led]

theorem led_cons : Led k (t :: ts) ↔ t.kind = k := by simp [Led]

theorem Led.append {front : List Token} (hfront : Led k front) (hts : front = [] → Led k ts) :
    Led k (front ++ ts) := by
  cases front with
  | nil => exact hts rfl
  | cons t front => exact hfront

theorem kind_ofNumeral (x : Numeral) : (Token.ofNumeral x).kind = .plain := by
  rw [Token.ofNumeral]
  split <;> rfl

theorem kind_ofPieces (pieces : List Piece) : (Token.ofPieces pieces).kind = .plain := by
  rw [Token.ofPieces]
  split <;> rfl

/-- The scan stands inside a token that is neither bracket nor brace. -/
def Mode.InsidePlain : Mode → Prop
  | .between => False
  | .word _ t => t.kind = .plain
  | _ => True

/-- What a step gives inside such a token: nothing yet, or first the token itself. -/
def EndsPlain (r : List Token × Mode) : Prop := Led .plain r.1 ∧ (r.1 = [] → r.2.InsidePlain)

theorem endsPlain_inside (h : mode.InsidePlain) : EndsPlain ([], mode) := ⟨led_nil, fun _ => h⟩

theorem endsPlain_token (h : t.kind = .plain) : EndsPlain (t :: ts, mode) :=
  ⟨led_cons.mpr h, fun hnone => absurd hnone (List.cons_ne_nil _ _)⟩

theorem Mode.InsidePlain.step (h : mode.InsidePlain) (c : Char) : EndsPlain (mode.step c) := by
  cases mode with
  | between => exact h.elim
  | word rest token =>
    cases rest with
    | nil => exact endsPlain_token rfl
    | cons r rest =>
      rw [Mode.step.eq_def]
      dsimp only
      split
      · cases rest with
        | nil => exact endsPlain_token h
        | cons r' rest => exact endsPlain_inside h
      · exact endsPlain_token rfl
  | numeral part x =>
    rw [Mode.step]
    split
    · exact endsPlain_inside trivial
    · split
      · exact endsPlain_token (kind_ofNumeral x)
      · exact endsPlain_token rfl
  | string pieces =>
    rw [Mode.step]
    split
    · exact endsPlain_token (kind_ofPieces _)
    split
    · exact endsPlain_inside trivial
    split
    · exact endsPlain_token rfl
    · exact endsPlain_inside trivial
  | escape pieces =>
    rw [Mode.step.eq_def]
    dsimp only
    split <;> first | exact endsPlain_inside trivial | exact endsPlain_token rfl
  | unit pieces missing value =>
    rw [Mode.step.eq_def]
    dsimp only
    split
    · exact endsPlain_token rfl
    · exact endsPlain_inside trivial
    · exact endsPlain_inside trivial
  | stopped => exact endsPlain_inside h

theorem led_finish (mode : Mode) : Led .plain mode.finish := by
  cases mode with
  | numeral part x =>
    rw [Mode.finish]
    split
    · exact led_cons.mpr (kind_ofNumeral x)
    · exact led_cons.mpr rfl
  | between | stopped => exact led_nil
  | word | string | escape | unit => exact led_cons.mpr rfl

theorem Mode.InsidePlain.scan (h : mode.InsidePlain) (cs : List Char) :
    Led .plain (mode.scan cs) := by
  induction cs generalizing mode with
  | nil => exact led_finish mode
  | cons c cs ih =>
    obtain ⟨hled, hstep⟩ := h.step c
    rw [scan_cons]
    exact hled.append fun hnone => ih (hstep hnone)

theorem start_kind (hc : isSpace c = false) :
    Led (Kind.ofFirst c) (Mode.start c).1 ∧
      ((Mode.start c).1 = [] → (Mode.start c).2.InsidePlain ∧ Kind.ofFirst c = .plain) := by
  unfold Mode.start
  grind [Led, Mode.InsidePlain, Token.kind, Kind.ofFirst]

theorem led_tokens (hc : isSpace c = false) (cs : List Char) :
    Led (Kind.ofFirst c) (tokens (c :: cs)) := by
  obtain ⟨hled, hstart⟩ := start_kind hc
  refine hled.append fun hnone => ?_
  obtain ⟨hinside, hkind⟩ := hstart hnone
  rw [hkind]
  exact hinside.scan cs

/-- The first character says of which kind the value is. -/
theorem kind_of_read (hc : isSpace c = false) (h : read? (c :: cs) = some v) :
    v.kind = Kind.ofFirst c := by
  rw [read?] at h
  split at h
  next hw =>
    cases htokens : tokens (c :: cs) with
    | nil =>
      rw [reading, htokens] at hw
      cases hw
    | cons t ts =>
      rw [kind_of_value h, kind_of_tokens htokens hw]
      exact led_tokens hc cs t (by rw [htokens]; rfl)
  · cases h

end Json
end BrowserActions
