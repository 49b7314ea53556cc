namespace Courier.Toml

abbrev Parser (α : Type) := StateT (List Char) Option α

namespace Parser

variable {α β : Type}

/-- The next character that satisfies `p`. -/
def satisfy (p : Char → Bool) : Parser Char
  | [] => none
  | c :: cs => if p c then some (c, cs) else none

def char (c : Char) : Parser Unit := do
  let _ ← satisfy (· == c)

/-- Exactly these characters. -/
def literal (s : String) : Parser Unit :=
  s.toList.forM char

/-- All next characters that satisfy `p`. -/
def takeWhile (p : Char → Bool) : Parser (List Char) :=
  fun cs => some (cs.takeWhile p, cs.dropWhile p)

/-- The next character, which is not taken. -/
def peek : Parser (Option Char) :=
  fun cs => some (cs.head?, cs)

def maybe (p : Parser α) : Parser (Option α) :=
  fun cs =>
    match p cs with
    | some (a, rest) => some (some a, rest)
    | none => some (none, cs)

/-- At most `n` times `p`, as long as it succeeds. -/
def atMost (p : Parser α) : Nat → Parser (List α)
  | 0 => pure []
  | n + 1 => fun cs =>
    match p cs with
    | none => some ([], cs)
    | some (a, rest) => (atMost p n rest).map fun r => (a :: r.1, r.2)

/-- `p` as long as it succeeds. It takes a character each time, so the rest of the input bounds
the count. -/
def many (p : Parser α) : Parser (List α) :=
  fun cs => atMost p cs.length cs

/-- One or more times `p`, with `sep` between. -/
def sepBy1 (p : Parser α) (sep : Parser β) : Parser (List α) := do
  let a ← p
  let as ← many (do let _ ← sep; p)
  return a :: as

/-- Succeeds at the end of the input only. -/
def atEnd : Parser Unit
  | [] => some ((), [])
  | _ :: _ => none

end Parser

end Courier.Toml
