import Courier.Toml.Node
import Courier.Toml.Number

namespace Courier.Toml

open Courier.Toml.Parser

/-- The deepest nesting of lists and inline tables, and the most parts of a dotted key. -/
def depthLimit : Nat := 79

def simpleKey : Parser String := do
  match ← peek with
  | some '"' => basic
  | some '\'' => plain
  | _ =>
    let cs ← takeWhile isBare
    if cs.isEmpty then failure else return String.ofList cs

/-- A dotted key, as its path and its last part. -/
def key : Parser (List String × String) := do
  let parts ← sepBy1 (spaces *> simpleKey <* spaces) (char '.')
  if parts.length > depthLimit then failure
  return (parts.dropLast, parts.getLastD "")

/-- A list; a comma may follow the last item. -/
def list (item : Parser Value) : Parser Value := do
  char '['
  let items ← maybe (sepBy1 (filler *> item <* filler) (char ','))
  if items.isSome then
    let _ ← maybe (char ',')
  filler
  char ']'
  return .list (items.getD [])

/-- A table on one line; no comma may follow the last entry. -/
def inlineTable (item : Parser Value) : Parser Value := do
  char '{'
  let entries ← maybe (sepBy1 (do
    let k ← key
    char '='
    spaces
    let v ← item
    spaces
    return (k, v)) (char ','))
  spaces
  char '}'
  let node ← StateT.lift ((entries.getD []).foldlM
    (fun node e => Node.insert e.1.1 e.1.2 e.2 node) Node.root)
  return node.toValue

/-- A value in which lists and inline tables nest at most `depth` deep. -/
def value : Nat → Parser Value
  | 0 => scalarValue failure
  | depth + 1 => scalarValue (list (value depth) <|> inlineTable (value depth))
where
  scalarValue (nested : Parser Value) : Parser Value := do
    match ← peek with
    | some '"' => return .text (← basicBlock <|> basic)
    | some '\'' => return .text (← plainBlock <|> plain)
    | some '[' | some '{' => nested
    | some 't' => literal "true"; return .boolean true
    | some 'f' => literal "false"; return .boolean false
    | _ => number

/-- The tables read so far, and the path of the one that is open. -/
structure Progress where
  tables : Node
  current : List String

def header (p : Progress) : Parser Progress := do
  char '['
  let (path, last) ← key
  char ']'
  trailing
  return ⟨← StateT.lift (p.tables.openTable path last), path ++ [last]⟩

def itemHeader (p : Progress) : Parser Progress := do
  literal "[["
  let (path, last) ← key
  literal "]]"
  trailing
  return ⟨← StateT.lift (p.tables.openItem path last), path ++ [last]⟩

def entry (p : Progress) : Parser Progress := do
  let (path, last) ← key
  char '='
  spaces
  let v ← value depthLimit
  trailing
  return { p with
    tables := ← StateT.lift (Node.update false (Node.insert path last v) p.current p.tables) }

/-- One line: empty, a header, or an entry. -/
def line (p : Progress) : Parser Progress := do
  spaces
  match ← peek with
  | none => failure
  | some '#' => trailing; return p
  | some '\n' | some '\r' => newline; return p
  | some '[' => itemHeader p <|> header p
  | some _ => entry p

/-- At most `n` lines, up to the end of the document. -/
def lines : Nat → Progress → Parser Progress
  | 0, p => do
    atEnd
    return p
  | n + 1, p => do
    match ← maybe (do spaces; atEnd) with
    | some _ => return p
    | none => lines n (← line p)

/-- A document; a byte order mark may come first. Every line has a character, so the length of the
text bounds their number. -/
def document : Parser Node := do
  let _ ← maybe (char '\uFEFF')
  let p ← fun cs => lines (cs.length + 1) ⟨Node.root, []⟩ cs
  return p.tables

/-- The value of a document, if it is well-formed. -/
def parse? (text : String) : Option Value :=
  (document text.toList).map fun r => r.1.toValue

end Courier.Toml
