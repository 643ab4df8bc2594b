import BrowserActions.Json.Numeral

/-!
# JSON tokens

A text is scanned character by character. Where it stops being JSON the scan ends with the token
`broken`. Two tokens are well formed and stand for nothing: a numeral beyond the doubles, and a
string with half of a surrogate pair.
-/
namespace BrowserActions.Json

inductive Token where
  | openArray
  | closeArray
  | openObject
  | closeObject
  | comma
  | colon
  | null
  | bool (b : Bool)
  | number (n : Numeral.Value)
  | oversized
  | string (s : String)
  | unpaired
  | broken
  deriving DecidableEq, Repr

/-- What a string literal is made of: characters, and UTF-16 units written as `\u` escapes. -/
inductive Piece where
  | char (c : Char)
  | unit (u : Nat)
  deriving DecidableEq, Repr

/-- Units outside the surrogates are characters; two surrogates make one if they pair up. -/
def Piece.join? : List Piece → Option (List Char)
  | [] => some []
  | .char c :: rest => (join? rest).map (c :: ·)
  | .unit u :: rest =>
    if u < 0xD800 ∨ 0xDFFF < u then (join? rest).map (Char.ofNat u :: ·)
    else if u < 0xDC00 then
      match rest with
      | .unit v :: rest =>
        if 0xDC00 ≤ v ∧ v ≤ 0xDFFF then
          (join? rest).map (Char.ofNat (0x10000 + (u - 0xD800) * 0x400 + (v - 0xDC00)) :: ·)
        else none
      | _ => none
    else none

def Token.ofPieces (pieces : List Piece) : Token :=
  match Piece.join? pieces with
  | some cs => .string (String.ofList cs)
  | none => .unpaired

def Token.ofNumeral (x : Numeral) : Token :=
  match x.value? with
  | some n => .number n
  | none => .oversized

inductive Numeral.Part where
  | minus
  | zero
  | whole
  | point
  | fraction
  | mark
  | markSign
  | exponent
  deriving DecidableEq, Repr

def Numeral.Part.isEnd : Numeral.Part → Bool
  | .zero | .whole | .fraction | .exponent => true
  | .minus | .point | .mark | .markSign => false

/-- Where the scan stands. Pieces of a string are kept last one first. -/
inductive Mode where
  | between
  | word (rest : List Char) (token : Token)
  | numeral (part : Numeral.Part) (x : Numeral)
  | string (pieces : List Piece)
  | escape (pieces : List Piece)
  | unit (pieces : List Piece) (missing : Nat) (value : Nat)
  | stopped
  deriving DecidableEq, Repr

def isSpace (c : Char) : Bool := c = ' ' || c = '\t' || c = '\n' || c = '\r'

def hexValue? (c : Char) : Option Nat :=
  if '0' ≤ c ∧ c ≤ '9' then some (c.toNat - '0'.toNat)
  else if 'a' ≤ c ∧ c ≤ 'f' then some (c.toNat - 'a'.toNat + 10)
  else if 'A' ≤ c ∧ c ≤ 'F' then some (c.toNat - 'A'.toNat + 10)
  else none

def Mode.start (c : Char) : List Token × Mode :=
  if isSpace c then ([], .between)
  else match c with
    | '[' => ([.openArray], .between)
    | ']' => ([.closeArray], .between)
    | '\x7b' => ([.openObject], .between)
    | '\x7d' => ([.closeObject], .between)
    | ',' => ([.comma], .between)
    | ':' => ([.colon], .between)
    | '"' => ([], .string [])
    | 'n' => ([], .word ['u', 'l', 'l'] .null)
    | 't' => ([], .word ['r', 'u', 'e'] (.bool true))
    | 'f' => ([], .word ['a', 'l', 's', 'e'] (.bool false))
    | '-' => ([], .numeral .minus ⟨true, [], [], false, []⟩)
    | '0' => ([], .numeral .zero ⟨false, ['0'], [], false, []⟩)
    | c =>
      if c.isDigit then ([], .numeral .whole ⟨false, [c], [], false, []⟩) else ([.broken], .stopped)

def Numeral.extend? (x : Numeral) (c : Char) : Numeral.Part → Option (Numeral.Part × Numeral)
  | .minus =>
    if c = '0' then some (.zero, { x with whole := [c] })
    else if c.isDigit then some (.whole, { x with whole := [c] })
    else none
  | .zero =>
    if c = '.' then some (.point, x)
    else if c = 'e' ∨ c = 'E' then some (.mark, x)
    else none
  | .whole =>
    if c.isDigit then some (.whole, { x with whole := x.whole ++ [c] })
    else if c = '.' then some (.point, x)
    else if c = 'e' ∨ c = 'E' then some (.mark, x)
    else none
  | .point | .fraction =>
    if c.isDigit then some (.fraction, { x with fraction := x.fraction ++ [c] })
    else if (c = 'e' ∨ c = 'E') ∧ x.fraction ≠ [] then some (.mark, x)
    else none
  | .mark =>
    if c.isDigit then some (.exponent, { x with exponent := [c] })
    else if c = '+' then some (.markSign, x)
    else if c = '-' then some (.markSign, { x with exponentNegative := true })
    else none
  | .markSign | .exponent =>
    if c.isDigit then some (.exponent, { x with exponent := x.exponent ++ [c] }) else none

/-- A digit may not follow a leading zero. -/
def Numeral.Part.mayEndBefore (part : Numeral.Part) (c : Char) : Bool :=
  part.isEnd && !(part == .zero && c.isDigit)

def Mode.step (c : Char) : Mode → List Token × Mode
  | .between => Mode.start c
  | .word [] _ => ([.broken], .stopped)
  | .word (r :: rest) token =>
    if c = r then
      match rest with
      | [] => ([token], .between)
      | _ :: _ => ([], .word rest token)
    else ([.broken], .stopped)
  | .numeral part x =>
    match x.extend? c part with
    | some (part, x) => ([], .numeral part x)
    | none =>
      if part.mayEndBefore c then
        let (tokens, mode) := Mode.start c
        (.ofNumeral x :: tokens, mode)
      else ([.broken], .stopped)
  | .string pieces =>
    if c = '"' then ([.ofPieces pieces.reverse], .between)
    else if c = '\\' then ([], .escape pieces)
    else if c.toNat < 0x20 then ([.broken], .stopped)
    else ([], .string (.char c :: pieces))
  | .escape pieces =>
    match c with
    | '"' | '\\' | '/' => ([], .string (.char c :: pieces))
    | 'b' => ([], .string (.char '\x08' :: pieces))
    | 'f' => ([], .string (.char '\x0c' :: pieces))
    | 'n' => ([], .string (.char '\n' :: pieces))
    | 'r' => ([], .string (.char '\r' :: pieces))
    | 't' => ([], .string (.char '\t' :: pieces))
    | 'u' => ([], .unit pieces 3 0)
    | _ => ([.broken], .stopped)
  | .unit pieces missing value =>
    match hexValue? c, missing with
    | none, _ => ([.broken], .stopped)
    | some h, 0 => ([], .string (.unit (16 * value + h) :: pieces))
    | some h, missing + 1 => ([], .unit pieces missing (16 * value + h))
  | .stopped => ([], .stopped)

def Mode.finish : Mode → List Token
  | .between | .stopped => []
  | .numeral part x => if part.isEnd then [.ofNumeral x] else [.broken]
  | .word _ _ | .string _ | .escape _ | .unit _ _ _ => [.broken]

def Mode.scan (mode : Mode) : List Char → List Token
  | [] => mode.finish
  | c :: cs =>
    let (tokens, mode) := mode.step c
    tokens ++ mode.scan cs

def tokens (cs : List Char) : List Token := Mode.between.scan cs

end BrowserActions.Json
