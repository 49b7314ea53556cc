import Courier.Value

/-!
A document's tables while it is read. A table remembers how it came to be, because that decides
what may still be added to it: a table that stands for a part of a header can be opened by a header
of its own, a table made by a dotted key only be extended by dotted keys.
-/

namespace Courier.Toml

inductive Node where
  | leaf (value : Value)
  | table (implied dotted : Bool) (entries : List (String × Node))
  /-- The tables of one list, in order. -/
  | tables (items : List Node)

namespace Node

def root : Node := .table false false []

/-- Puts a node in the place of the one under `key`. -/
def replace (key : String) (node : Node) (entries : List (String × Node)) :
    List (String × Node) :=
  entries.map fun e => if e.1 = key then (key, node) else e

/-- Changes the table at the end of a path. Tables that are missing on the way are made; a list of
tables stands for its last one. -/
def update (dotted : Bool) (change : Node → Option Node) : List String → Node → Option Node
  | [], node => change node
  | key :: keys, .table implied wasDotted entries =>
    match entries.lookup key with
    | none => do
      let made ← update dotted change keys (.table true dotted [])
      return .table implied wasDotted (entries ++ [(key, made)])
    | some (.leaf _) => none
    | some (.tables items) => do
      let last ← update dotted change keys (← items.getLast?)
      return .table implied wasDotted (replace key (.tables (items.dropLast ++ [last])) entries)
    | some (.table childImplied childDotted childEntries) => do
      if dotted && !childImplied then failure
      let child ← update dotted change keys (.table childImplied childDotted childEntries)
      return .table implied wasDotted (replace key child entries)
  | _ :: _, _ => none

/-- Adds an entry under a dotted key, given as its path and its last part. A table is extended
either by plain keys or by dotted ones. -/
def insert (path : List String) (key : String) (value : Value) : Node → Option Node :=
  update true (fun node =>
    match node with
    | .table implied dotted entries =>
      if dotted == path.isEmpty then none
      else if (entries.lookup key).isSome then none
      else some (.table implied dotted (entries ++ [(key, .leaf value)]))
    | _ => none) path

/-- Opens the table of a header, which must not be there unless a longer header implied it. -/
def openTable (path : List String) (key : String) : Node → Option Node :=
  update false (fun node =>
    match node with
    | .table implied dotted entries =>
      match entries.lookup key with
      | none => some (.table implied dotted (entries ++ [(key, .table false false [])]))
      | some (.table true false inner) =>
        some (.table implied dotted
          ((entries.filter fun e => e.1 != key) ++ [(key, .table false false inner)]))
      | some _ => none
    | _ => none) path

/-- Opens the next table of a list. -/
def openItem (path : List String) (key : String) : Node → Option Node :=
  update false (fun node =>
    match node with
    | .table implied dotted entries =>
      match entries.lookup key with
      | none => some (.table implied dotted (entries ++ [(key, .tables [.table false false []])]))
      | some (.tables items) =>
        some (.table implied dotted
          (replace key (.tables (items ++ [.table false false []])) entries))
      | some _ => none
    | _ => none) path

/-- What has been read, as a plain value. -/
def toValue : Node → Value
  | .leaf value => value
  | .table _ _ entries => .table (entries.attach.map fun ⟨e, _⟩ => (e.1, e.2.toValue))
  | .tables items => .list (items.attach.map fun ⟨n, _⟩ => n.toValue)
termination_by n => sizeOf n
decreasing_by
  · have h := List.sizeOf_lt_of_mem ‹_ ∈ entries›
    obtain ⟨k, n⟩ := e
    simp only [Prod.mk.sizeOf_spec, Node.table.sizeOf_spec] at h ⊢
    omega
  · have h := List.sizeOf_lt_of_mem ‹_ ∈ items›
    simp only [Node.tables.sizeOf_spec] at h ⊢
    omega

end Node

end Courier.Toml
