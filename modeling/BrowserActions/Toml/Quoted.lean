import BrowserActions.Json.Token

/-!
# TOML strings

A string stands between quotes of one kind, single or double, and between three of them it may
have several lines. Between double quotes a backslash starts an escape.

Written strings take the first form that needs no escapes: one line in double quotes, one line in
single quotes, several lines in double quotes, several lines in single quotes. If none will do,
double quotes with escapes.
-/
namespace BrowserActions.Toml

structure Quoting where
  quote : Char
  multiline : Bool
  deriving DecidableEq, Repr

def Quoting.escapes (q : Quoting) : Bool := q.quote == '"'

/-- Tab, and every character from the space on but the delete character. -/
def isTextChar (c : Char) : Bool := c = '\t' || (decide (0x20 ≤ c.toNat) && decide (c.toNat ≠ 0x7F))

namespace Quoted

inductive Mode where
  | plain
  /-- Behind so many quotes that may or may not end a text of several lines. -/
  | quotes (count : Nat)
  | escape
  | code (missing value : Nat)
  /-- Behind a carriage return, where a line feed has to come. -/
  | carriage
  /-- Behind an escaped line end, or before it while there is none yet. -/
  | gap (ended : Bool)
  | gapReturn
  deriving DecidableEq, Repr

/-- What a character does: it adds to the text, or the string is over. The character that shows
this may already stand behind the string. -/
inductive Move where
  | go (out : List Char) (mode : Mode)
  | close (out : List Char) (taken : Bool)
  deriving DecidableEq, Repr

def simpleEscape? (c : Char) : Option Char :=
  match c with
  | 'b' => some '\x08'
  | 't' => some '\t'
  | 'n' => some '\n'
  | 'f' => some '\x0c'
  | 'r' => some '\r'
  | '"' => some '"'
  | '\\' => some '\\'
  | _ => none

def plainStep (q : Quoting) (c : Char) : Option Move :=
  if c = q.quote then some (if q.multiline then .go [] (.quotes 1) else .close [] true)
  else if c = '\\' ∧ q.escapes then some (.go [] .escape)
  else if q.multiline ∧ c = '\n' then some (.go ['\n'] .plain)
  else if q.multiline ∧ c = '\r' then some (.go [] .carriage)
  else if isTextChar c then some (.go [c] .plain)
  else none

def Move.after (out : List Char) : Move → Move
  | .go more mode => .go (out ++ more) mode
  | .close more taken => .close (out ++ more) taken

def step (q : Quoting) (c : Char) : Mode → Option Move
  | .plain => plainStep q c
  | .quotes count =>
    if c = q.quote then
      some (if count = 4 then .close [c, c] true else .go [] (.quotes (count + 1)))
    else if 3 ≤ count then some (.close (List.replicate (count - 3) q.quote) false)
    else (plainStep q c).map (Move.after (List.replicate count q.quote))
  | .escape =>
    match simpleEscape? c with
    | some e => some (.go [e] .plain)
    | none =>
      if c = 'u' then some (.go [] (.code 3 0))
      else if c = 'U' then some (.go [] (.code 7 0))
      else if !q.multiline then none
      else if c = ' ' ∨ c = '\t' then some (.go [] (.gap false))
      else if c = '\n' then some (.go [] (.gap true))
      else if c = '\r' then some (.go [] .gapReturn)
      else none
  | .code missing value =>
    match Json.hexValue? c, missing with
    | none, _ => none
    | some h, 0 =>
      let code := 16 * value + h
      if code.isValidChar then some (.go [Char.ofNat code] .plain) else none
    | some h, missing + 1 => some (.go [] (.code missing (16 * value + h)))
  | .carriage => if c = '\n' then some (.go ['\n'] .plain) else none
  | .gap ended =>
    if c = ' ' ∨ c = '\t' then some (.go [] (.gap ended))
    else if c = '\n' then some (.go [] (.gap true))
    else if c = '\r' then some (.go [] .gapReturn)
    else if ended then plainStep q c
    else none
  | .gapReturn => if c = '\n' then some (.go [] (.gap true)) else none

def scan (q : Quoting) (mode : Mode) : List Char → Option (List Char × List Char)
  | [] =>
    match mode with
    | .quotes count => if 3 ≤ count then some (List.replicate (count - 3) q.quote, []) else none
    | _ => none
  | c :: cs =>
    match step q c mode with
    | none => none
    | some (.go out mode) => (scan q mode cs).map fun p => (out ++ p.1, p.2)
    | some (.close out taken) => some (out, if taken then cs else c :: cs)

/-- A line end directly behind the opening quotes does not count. -/
def skipNewline : List Char → List Char
  | '\n' :: cs => cs
  | '\r' :: '\n' :: cs => cs
  | cs => cs

def readLine : List Char → Option (List Char × List Char)
  | [] => none
  | c :: cs => if c = '"' ∨ c = '\'' then scan ⟨c, false⟩ .plain cs else none

def read : List Char → Option (List Char × List Char)
  | a :: b :: c :: cs =>
    if a = b ∧ b = c ∧ (a = '"' ∨ a = '\'') then scan ⟨a, true⟩ .plain (skipNewline cs)
    else readLine (a :: b :: c :: cs)
  | cs => readLine cs

def longestRun (x : Char) (run longest : Nat) : List Char → Nat
  | [] => max run longest
  | c :: cs =>
    if c = x then longestRun x (run + 1) longest cs else longestRun x 0 (max run longest) cs

def isControl (c : Char) : Bool := !isTextChar c && c != '\n'

def upperHex (n : Nat) : Char := (Nat.digitChar n).toUpper

/-- How a character other than the quote is written. Between three quotes a line feed stands for
itself. -/
def spelled (multiline : Bool) (c : Char) : List Char :=
  match c with
  | '\x08' => ['\\', 'b']
  | '\t' => ['\\', 't']
  | '\n' => if multiline then ['\n'] else ['\\', 'n']
  | '\x0c' => ['\\', 'f']
  | '\r' => ['\\', 'r']
  | '\\' => ['\\', '\\']
  | c =>
    if isTextChar c then [c]
    else ['\\', 'u', '0', '0', upperHex (c.toNat / 16), upperHex (c.toNat % 16)]

/-- Between three quotes, of the quotes in a row only every third one is escaped. `quotes` counts
those just written. -/
def escaped (multiline : Bool) (quotes : Nat) : List Char → List Char
  | [] => []
  | c :: cs =>
    if c = '"' then
      if multiline ∧ quotes < 2 then c :: escaped multiline (quotes + 1) cs
      else '\\' :: c :: escaped multiline 0 cs
    else spelled multiline c ++ escaped multiline 0 cs

/-- A text of several lines begins on a line of its own. -/
def lead (s : List Char) : List Char := if s.any (· == '\n') then ['\n'] else []

def write (s : List Char) : List Char :=
  let controls := s.any isControl
  let backslash := s.any (· == '\\')
  let newline := s.any (· == '\n')
  let doubles := longestRun '"' 0 0 s
  let singles := longestRun '\'' 0 0 s
  if !controls && !backslash && !newline && doubles == 0 then
    '"' :: (escaped false 0 s ++ ['"'])
  else if !controls && !newline && singles == 0 then
    '\'' :: (s ++ ['\''])
  else if !controls && !backslash && decide (doubles ≤ 2) then
    ['"', '"', '"'] ++ lead s ++ escaped true 0 s ++ ['"', '"', '"']
  else if !controls && decide (singles ≤ 2) then
    ['\'', '\'', '\''] ++ lead s ++ s ++ ['\'', '\'', '\'']
  else if newline then
    ['"', '"', '"'] ++ lead s ++ escaped true 0 s ++ ['"', '"', '"']
  else '"' :: (escaped false 0 s ++ ['"'])

end Quoted
end BrowserActions.Toml
