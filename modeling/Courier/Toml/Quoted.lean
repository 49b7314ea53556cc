import Courier.Toml.Lexical

/-!
Strings: basic ones with escapes, literal ones without, each on one line or on many. On many lines a
line end right after the opening quotes is dropped, every line end counts as a line feed, and the
closing three quotes may have one or two more before them.
-/

namespace Courier.Toml

open Courier.Toml.Parser

def hexValue? (c : Char) : Option Nat :=
  if isDigit c then some (c.toNat - 48)
  else if 'a' ≤ c && c ≤ 'f' then some (c.toNat - 87)
  else if 'A' ≤ c && c ≤ 'F' then some (c.toNat - 55)
  else none

/-- Exactly `n` hexadecimal digits. -/
def hexDigits : Nat → Nat → Parser Nat
  | 0, value => pure value
  | n + 1, value => do
    let c ← satisfy fun c => (hexValue? c).isSome
    hexDigits n (value * 16 + (hexValue? c).getD 0)

/-- The character with a code point, if the code point is one of a character. -/
def scalar (n : Nat) : Parser Char :=
  if n.isValidChar then pure (Char.ofNat n) else failure

/-- What follows a backslash. -/
def escape : Parser Char := do
  match ← satisfy fun _ => true with
  | 'b' => return '\x08'
  | 't' => return '\t'
  | 'n' => return '\n'
  | 'f' => return '\x0c'
  | 'r' => return '\r'
  | '"' => return '"'
  | '\\' => return '\\'
  | 'u' => scalar (← hexDigits 4 0)
  | 'U' => scalar (← hexDigits 8 0)
  | _ => failure

def escaped : Parser Char := do
  char '\\'
  escape

def basic : Parser String := do
  char '"'
  let cs ← many (escaped <|> satisfy fun c => isText c && c != '"' && c != '\\')
  char '"'
  return String.ofList cs

def plain : Parser String := do
  char '\''
  let cs ← takeWhile fun c => isText c && c != '\''
  char '\''
  return String.ofList cs

/-- A backslash at the end of a line takes away all blanks up to the next character. -/
def lineFold : Parser (List Char) := do
  char '\\'
  spaces
  newline
  let _ ← many (spaces *> newline)
  spaces
  return []

/-- One or two quotes that no third one follows. -/
def innerQuotes (q : Char) : Parser (List Char) := do
  let qs ← takeWhile (· == q)
  if 0 < qs.length && qs.length < 3 then return qs else failure

/-- The closing quotes, and those before them that belong to the text. -/
def closingQuotes (q : Char) : Parser (List Char) := do
  let qs ← takeWhile (· == q)
  if 3 ≤ qs.length && qs.length < 6 then return qs.drop 3 else failure

def feed : Parser (List Char) := do
  newline
  return ['\n']

/-- Text on many lines between three quotes each. -/
def block (q : Char) (piece : Parser (List Char)) : Parser String := do
  literal (String.ofList [q, q, q])
  let _ ← maybe newline
  let pieces ← many (piece <|> feed <|> innerQuotes q)
  let last ← closingQuotes q
  return String.ofList (pieces.flatten ++ last)

def basicBlock : Parser String :=
  block '"' (lineFold <|> (escaped >>= fun c => pure [c])
    <|> (satisfy fun c => isText c && c != '"' && c != '\\') >>= fun c => pure [c])

def plainBlock : Parser String :=
  block '\'' ((satisfy fun c => isText c && c != '\'') >>= fun c => pure [c])

end Courier.Toml
