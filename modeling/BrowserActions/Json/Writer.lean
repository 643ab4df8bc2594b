import BrowserActions.Json.Basic
import BrowserActions.Number.Shortest

/-!
# Written JSON

Two written forms: `compact` has no spaces, `pretty` puts every item and member on a line of its
own. Strings escape the quote, the backslash and the characters below U+0020, nothing else.
-/
namespace BrowserActions.Json

open Number

def escapeChar (c : Char) : List Char :=
  match c with
  | '"' => ['\\', '"']
  | '\\' => ['\\', '\\']
  | '\x08' => ['\\', 'b']
  | '\t' => ['\\', 't']
  | '\n' => ['\\', 'n']
  | '\x0c' => ['\\', 'f']
  | '\r' => ['\\', 'r']
  | c =>
    if c.toNat < 0x20 then
      ['\\', 'u', '0', '0', Nat.digitChar (c.toNat / 16), Nat.digitChar (c.toNat % 16)]
    else [c]

def quote (s : String) : List Char := '"' :: (s.toList.flatMap escapeChar ++ ['"'])

def renderInteger : Int → List Char
  | .ofNat n => Nat.toDigits 10 n
  | .negSucc n => '-' :: Nat.toDigits 10 (n + 1)

mutual

def compact : Json → List Char
  | .null => ['n', 'u', 'l', 'l']
  | .bool true => ['t', 'r', 'u', 'e']
  | .bool false => ['f', 'a', 'l', 's', 'e']
  | .integer n => renderInteger n
  | .double x => x.render .compact
  | .string s => quote s
  | .array [] => ['[', ']']
  | .array (v :: vs) => '[' :: (compact v ++ compactItems vs ++ [']'])
  | .object [] => ['\x7b', '\x7d']
  | .object (m :: ms) => '\x7b' :: (quote m.1 ++ ':' :: compact m.2 ++ compactMembers ms ++ ['\x7d'])

def compactItems : List Json → List Char
  | [] => []
  | v :: vs => ',' :: (compact v ++ compactItems vs)

def compactMembers : List (String × Json) → List Char
  | [] => []
  | m :: ms => ',' :: (quote m.1 ++ ':' :: compact m.2 ++ compactMembers ms)

end

def newline (depth : Nat) : List Char := '\n' :: List.replicate (2 * depth) ' '

mutual

/-- What stands between brackets is one step deeper than the brackets. -/
def prettyAt (depth : Nat) : Json → List Char
  | .null => ['n', 'u', 'l', 'l']
  | .bool true => ['t', 'r', 'u', 'e']
  | .bool false => ['f', 'a', 'l', 's', 'e']
  | .integer n => renderInteger n
  | .double x => x.render .compact
  | .string s => quote s
  | .array [] => ['[', ']']
  | .array (v :: vs) =>
    '[' :: (newline (depth + 1) ++ prettyAt (depth + 1) v ++ prettyItems (depth + 1) vs
      ++ newline depth ++ [']'])
  | .object [] => ['\x7b', '\x7d']
  | .object (m :: ms) =>
    '\x7b' :: (newline (depth + 1) ++ quote m.1 ++ ':' :: ' ' :: prettyAt (depth + 1) m.2
      ++ prettyMembers (depth + 1) ms ++ newline depth ++ ['\x7d'])

def prettyItems (depth : Nat) : List Json → List Char
  | [] => []
  | v :: vs => ',' :: (newline depth ++ prettyAt depth v ++ prettyItems depth vs)

def prettyMembers (depth : Nat) : List (String × Json) → List Char
  | [] => []
  | m :: ms =>
    ',' :: (newline depth ++ quote m.1 ++ ':' :: ' ' :: prettyAt depth m.2 ++ prettyMembers depth ms)

end

def pretty (v : Json) : List Char := prettyAt 0 v

def text (v : Json) : String := String.ofList v.compact
def prettyText (v : Json) : String := String.ofList v.pretty

end BrowserActions.Json
