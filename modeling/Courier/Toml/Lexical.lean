import Courier.Toml.Parser

namespace Courier.Toml

open Courier.Toml.Parser

/-- What may stand in text and comments: a tab, and everything that is no control character. -/
def isText (c : Char) : Bool :=
  c == '\t' || (' ' ≤ c && c != '\x7f')

def isSpace (c : Char) : Bool :=
  c == ' ' || c == '\t'

def isDigit (c : Char) : Bool :=
  '0' ≤ c && c ≤ '9'

def isBare (c : Char) : Bool :=
  ('a' ≤ c && c ≤ 'z') || ('A' ≤ c && c ≤ 'Z') || isDigit c || c == '_' || c == '-'

def spaces : Parser Unit := do
  let _ ← takeWhile isSpace

/-- A line feed, with or without a carriage return before it. -/
def newline : Parser Unit := do
  let _ ← maybe (char '\r')
  char '\n'

def comment : Parser Unit := do
  char '#'
  let _ ← takeWhile isText

/-- The end of a line or of the document. -/
def lineEnd : Parser Unit := do
  match ← peek with
  | none => return
  | some _ => newline

/-- What may follow on the line of a header or an entry. -/
def trailing : Parser Unit := do
  spaces
  let _ ← maybe comment
  lineEnd

/-- A line without content. -/
def blankLine : Parser Unit := do
  spaces
  let _ ← maybe comment
  newline

/-- Blanks, comments and line ends, as between the items of a list. -/
def filler : Parser Unit := do
  let _ ← many blankLine
  spaces

end Courier.Toml
