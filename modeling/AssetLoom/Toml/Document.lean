import AssetLoom.Toml.Value
/-!
# Building a TOML document

The tables of a document are written in pieces: under headers, and with dotted keys. What has been
read so far is a tree in which a table remembers how it came to be, since that decides who may
still add to it:

* a table that only a longer header has named may still get a header of its own, once;
* a table made by dotted keys may be extended by dotted keys next to them, but not by a header;
* a value is complete where it stands.
-/

namespace AssetLoom.Toml

/-- A part of a document that is being read. -/
inductive Node
  /-- A complete value. -/
  | leaf (value : Value)
  /-- A table; `implied` if it has no header of its own, `dotted` if dotted keys made it. -/
  | table (implied dotted : Bool) (entries : List (String × Node))
  /-- The tables under headers in double brackets, in order. -/
  | tables (elements : List (List (String × Node)))

/-- The entries of a table, in order. -/
abbrev Entries := List (String × Node)

/-- The entries with one of them set; a new one comes last. -/
def Entries.put (key : String) (node : Node) : Entries → Entries
  | [] => [(key, node)]
  | (k, old) :: rest => if k = key then (k, node) :: rest else (k, old) :: Entries.put key node rest

/-- The entries without one of them. -/
def Entries.remove (key : String) (entries : Entries) : Entries :=
  entries.filter (·.1 ≠ key)

/-- A table with the flags of `Node.table`. -/
structure Section where
  implied : Bool := false
  dotted : Bool := false
  entries : Entries := []

/-- Changes the table that a path leads to, and makes the tables on the way. With `dotted` the
path is that of a dotted key, which does not lead into a table with a header. -/
def Section.within {α : Type} (dotted : Bool) (change : Section → Option (Section × α)) :
    List String → Section → Option (Section × α)
  | [], here => change here
  | key :: path, here =>
    let goOn (inner : Section) : Option (Section × α) := do
      let (inner, found) ← Section.within dotted change path inner
      let node := .table inner.implied inner.dotted inner.entries
      return ({ here with entries := Entries.put key node here.entries }, found)
    match here.entries.lookup key with
    | none => goOn { implied := true, dotted }
    | some (.leaf _) => none
    | some (.table implied isDotted entries) =>
      if dotted && !implied then none else goOn { implied, dotted := isDotted, entries }
    | some (.tables elements) =>
      match elements.reverse with
      | [] => none
      | last :: before => do
        let (inner, found) ← Section.within dotted change path { entries := last }
        let node := .tables (before.reverse ++ [inner.entries])
        return ({ here with entries := Entries.put key node here.entries }, found)

/-- Adds an entry under a dotted key. -/
def Section.addEntry (path : List String) (key : String) (value : Value) (here : Section) :
    Option Section :=
  (here.within true
    (fun s =>
      if s.dotted == path.isEmpty || (s.entries.lookup key).isSome then none
      else some ({ s with entries := s.entries ++ [(key, .leaf value)] }, ()))
    path).map (·.1)

/-- A document that is being read: the tables that are complete, and the one that lines are being
added to. -/
structure Draft where
  root : Section := {}
  current : Section := {}
  /-- The header of the current table; there is none at the start of a document. -/
  header : Option (List String × String) := none
  /-- Whether that header is in double brackets. -/
  isElement : Bool := false

namespace Draft

/-- Puts the current table in its place. -/
def finish (draft : Draft) : Option Section :=
  let place (key : String) (parent : Section) : Option (Section × Unit) :=
    let put (node : Node) : Section :=
      { parent with entries := Entries.put key node parent.entries }
    let whole := Node.table false draft.current.dotted draft.current.entries
    match parent.entries.lookup key, draft.isElement with
    | some (.tables elements), true =>
      some (put (.tables (elements ++ [draft.current.entries])), ())
    | none, false | some (.table true _ _), false => some (put whole, ())
    | _, _ => none
  match draft.header with
  | none => some draft.current
  | some (path, key) => (draft.root.within false (place key) path).map (·.1)

/-- Starts a table. What longer headers have put into it already is taken along. -/
def startTable (path : List String) (key : String) (draft : Draft) : Option Draft := do
  let root ← draft.finish
  let take (parent : Section) : Option (Section × Entries) :=
    match parent.entries.lookup key with
    | none => some (parent, [])
    | some (.table true false entries) =>
      some ({ parent with entries := Entries.remove key parent.entries }, entries)
    | some _ => none
  let (root, entries) ← root.within false take path
  return { root, current := { entries }, header := some (path, key) }

/-- Starts another table of an array of tables. -/
def startElement (path : List String) (key : String) (draft : Draft) : Option Draft := do
  let root ← draft.finish
  let reserve (parent : Section) : Option (Section × Unit) :=
    match parent.entries.lookup key with
    | none => some ({ parent with entries := parent.entries ++ [(key, .tables [])] }, ())
    | some (.tables _) => some (parent, ())
    | some _ => none
  let (root, _) ← root.within false reserve path
  return { root, header := some (path, key), isElement := true }

/-- Adds a line with a value to the current table. -/
def addEntry (path : List String) (key : String) (value : Value) (draft : Draft) : Option Draft :=
  (draft.current.addEntry path key value).map fun current => { draft with current }

end Draft

mutual

/-- The value of a part of a document. -/
def Node.toValue : Node → Value
  | .leaf value => value
  | .table _ _ entries => .table (valuesOfEntries entries)
  | .tables elements => .array (valuesOfTables elements)

/-- The values of the entries of a table. -/
def valuesOfEntries : List (String × Node) → List (String × Value)
  | [] => []
  | (key, node) :: rest => (key, node.toValue) :: valuesOfEntries rest

/-- The values of the tables of an array. -/
def valuesOfTables : List (List (String × Node)) → List Value
  | [] => []
  | entries :: rest => .table (valuesOfEntries entries) :: valuesOfTables rest

end

end AssetLoom.Toml
