import DeliveryCharts.Json.Basic
import DeliveryCharts.Decimal.Shortest

/-!
The text of a JSON tree, on one line or indented by two spaces.
-/

namespace DeliveryCharts.Json

open Decimal (Binary64)

/-- The quote, the backslash and the characters below U+0020 are escaped. -/
def escapeChar (c : Char) : List Char :=
  if c = '"' then ['\\', '"']
  else if c = '\\' then ['\\', '\\']
  else if c = '\n' then ['\\', 'n']
  else if c = '\r' then ['\\', 'r']
  else if c = '\t' then ['\\', 't']
  else if c = '\x08' then ['\\', 'b']
  else if c = '\x0c' then ['\\', 'f']
  else if c.toNat < 32 then ['\\', 'u', '0', '0'] ++ Text.padded 2 (Text.digits 16 c.toNat)
  else [c]

def quoted (s : String) : List Char := '"' :: s.toList.flatMap escapeChar ++ ['"']

/-- Numbers that are not finite have no text of their own. -/
def numberText : Number → List Char
  | .int z => Text.decimalInt z
  | .float x => if x.isFinite then Decimal.render .json x else ['n', 'u', 'l', 'l']

def boolText (b : Bool) : List Char := if b then ['t', 'r', 'u', 'e'] else ['f', 'a', 'l', 's', 'e']

mutual

def compactChars : Json → List Char
  | null => ['n', 'u', 'l', 'l']
  | bool b => boolText b
  | num n => numberText n
  | str s => quoted s
  | arr [] => ['[', ']']
  | arr (v :: vs) => '[' :: compactChars v ++ compactItems vs
  | obj [] => ['{', '}']
  | obj ((k, v) :: ms) => '{' :: quoted k ++ ':' :: compactChars v ++ compactMembers ms

def compactItems : List Json → List Char
  | [] => [']']
  | v :: vs => ',' :: compactChars v ++ compactItems vs

def compactMembers : List (String × Json) → List Char
  | [] => ['}']
  | (k, v) :: ms => ',' :: quoted k ++ ':' :: compactChars v ++ compactMembers ms

end

/-- A line feed and the indentation of a level. -/
def newline (level : Nat) : List Char := '\n' :: List.replicate (2 * level) ' '

mutual

def prettyChars (level : Nat) : Json → List Char
  | null => ['n', 'u', 'l', 'l']
  | bool b => boolText b
  | num n => numberText n
  | str s => quoted s
  | arr [] => ['[', ']']
  | arr (v :: vs) => '[' :: newline (level + 1) ++ prettyChars (level + 1) v ++ prettyItems level vs
  | obj [] => ['{', '}']
  | obj ((k, v) :: ms) =>
    '{' :: newline (level + 1) ++ quoted k ++ ':' :: ' ' :: prettyChars (level + 1) v ++
      prettyMembers level ms

def prettyItems (level : Nat) : List Json → List Char
  | [] => newline level ++ [']']
  | v :: vs => ',' :: newline (level + 1) ++ prettyChars (level + 1) v ++ prettyItems level vs

def prettyMembers (level : Nat) : List (String × Json) → List Char
  | [] => newline level ++ ['}']
  | (k, v) :: ms =>
    ',' :: newline (level + 1) ++ quoted k ++ ':' :: ' ' :: prettyChars (level + 1) v ++
      prettyMembers level ms

end

def compact (v : Json) : String := .ofList (compactChars v)

def pretty (v : Json) : String := .ofList (prettyChars 0 v)

/-- The text by which two trees are compared: sorted, indented, and with a final line feed. -/
def canonicalText (v : Json) : String := .ofList (prettyChars 0 v.canonical ++ ['\n'])

end DeliveryCharts.Json
