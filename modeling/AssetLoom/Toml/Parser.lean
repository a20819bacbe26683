import AssetLoom.Toml.Document
import AssetLoom.Toml.Lexeme
/-!
# Reading TOML documents

A document is read line by line: a header starts a table, any other line adds a value to it.

* `value?`: the value at the front of a text.
* `parse?`: the entries of a document.
-/

namespace AssetLoom.Toml

/-- How many arrays and inline tables may be open at a time. -/
def nestingLimit : Nat := 79

/-- How many parts a dotted key may have. -/
def keyLimit : Nat := 79

/-! ## Keys -/

/-- A character of a key without quotes. -/
def isBareKeyChar (c : Char) : Bool :=
  c.isAlphanum || c == '_' || c == '-'

/-- Reads one part of a key. -/
def simpleKey? (t : Text) : Option (String × Text) :=
  match t with
  | '"' :: rest => (basicString? rest).map fun (word, left) => (.ofList word, left)
  | '\'' :: rest => (literalString? rest).map fun (word, left) => (.ofList word, left)
  | _ =>
    match t.takeWhile isBareKeyChar with
    | [] => none
    | word => some (.ofList word, t.dropWhile isBareKeyChar)

/-- Reads a key with blanks around its parts: the parts but the last one, and the last one. -/
def key? (t : Text) : Option ((List String × String) × Text) := do
  let (part, rest) ← simpleKey? (skipSpaces t)
  match skipSpaces rest with
  | '.' :: more =>
    if more.length < t.length then
      let ((path, last), left) ← key? more
      return ((part :: path, last), left)
    else none
  | left => return (([], part), left)
termination_by t.length

/-- Reads a key that does not have too many parts. -/
def shortKey? (t : Text) : Option ((List String × String) × Text) := do
  let ((path, last), rest) ← key? t
  if path.length + 1 ≤ keyLimit then some ((path, last), rest) else none

/-! ## Values -/

/-- Reads the items of an array behind its bracket. -/
def arrayItems? (item? : Text → Option (Value × Text)) (t : Text) :
    Option (List Value × Text) := do
  match skipBlankLines t with
  | ']' :: rest => return ([], rest)
  | start =>
    let (item, rest) ← item? start
    match skipBlankLines rest with
    | ']' :: left => return ([item], left)
    | ',' :: more =>
      if more.length < t.length then
        let (items, left) ← arrayItems? item? more
        return (item :: items, left)
      else none
    | _ => none
termination_by t.length

/-- Reads the entries of an inline table from its first key on. -/
def inlineEntries? (item? : Text → Option (Value × Text)) (here : Section) (t : Text) :
    Option (Section × Text) := do
  let ((path, key), rest) ← shortKey? t
  let rest ← char? '=' rest
  let (item, rest) ← item? (skipSpaces rest)
  let here ← here.addEntry path key item
  match skipSpaces rest with
  | '}' :: left => return (here, left)
  | ',' :: more => if more.length < t.length then inlineEntries? item? here more else none
  | _ => none
termination_by t.length

/-- Reads a value that starts with a sign or a digit. -/
def number? (t : Text) : Option (Value × Text) :=
  match datetime? t with
  | some (written, rest) => some (.datetime written, rest)
  | none =>
    match float? t with
    | some (written, rest) => some (.float written, rest)
    | none => (integer? t).map fun (n, rest) => (.integer n, rest)

/-- Reads a value in which at most `depth` arrays and inline tables are open at a time. -/
def value? : (depth : Nat) → Text → Option (Value × Text)
  | depth, t =>
    match t with
    | [] => none
    | '"' :: _ | '\'' :: _ => (string? t).map fun (text, rest) => (.string text, rest)
    | 't' :: 'r' :: 'u' :: 'e' :: rest => some (.boolean true, rest)
    | 'f' :: 'a' :: 'l' :: 's' :: 'e' :: rest => some (.boolean false, rest)
    | '[' :: rest =>
      match depth with
      | 0 => none
      | depth + 1 =>
        (arrayItems? (value? depth) rest).map fun (items, left) => (.array items, left)
    | '{' :: rest =>
      match depth with
      | 0 => none
      | depth + 1 =>
        match skipSpaces rest with
        | '}' :: left => some (.table [], left)
        | _ =>
          (inlineEntries? (value? depth) {} rest).map fun (here, left) =>
            (.table (valuesOfEntries here.entries), left)
    | _ => number? t

/-! ## Lines -/

/-- Reads a line that is not blank: the draft with it, and the text behind the line. -/
def line? (draft : Draft) (t : Text) : Option (Draft × Text) :=
  match t with
  | '[' :: '[' :: rest => do
    let ((path, key), rest) ← shortKey? rest
    let rest ← char? ']' rest
    let rest ← char? ']' rest
    return (← draft.startElement path key, ← skipLineEnd? rest)
  | '[' :: rest => do
    let ((path, key), rest) ← shortKey? rest
    let rest ← char? ']' rest
    return (← draft.startTable path key, ← skipLineEnd? rest)
  | _ => do
    let ((path, key), rest) ← shortKey? t
    let rest ← char? '=' rest
    let (value, rest) ← value? nestingLimit (skipSpaces rest)
    return (← draft.addEntry path key value, ← skipLineEnd? rest)

/-- Reads all lines. -/
def lines? (draft : Draft) (t : Text) : Option Draft :=
  match skipBlankLines t with
  | [] => some draft
  | start => do
    let (draft, rest) ← line? draft start
    if rest.length < t.length then lines? draft rest else none
termination_by t.length

/-- The entries of a document. A byte order mark at its front is skipped. -/
def parse? (t : Text) : Option (List (String × Value)) := do
  let t := match t with
    | '\uFEFF' :: rest => rest
    | _ => t
  let draft ← lines? {} t
  let root ← draft.finish
  return valuesOfEntries root.entries

end AssetLoom.Toml
