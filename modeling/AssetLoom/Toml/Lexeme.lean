import AssetLoom.Text.FormQuery
/-!
# The words of a TOML document

Each reader takes a word from the front of a text and gives what it stands for and the rest;
`none` means that there is no such word.

* `skipLineEnd?`, `skipBlankLines?`: what may stand at the end of a line and between lines.
* `string?`: the four kinds of strings.
* `datetime?`, `float?`, `integer?`: what starts with a sign or a digit.
-/

namespace AssetLoom.Toml

/-! ## Blanks and comments -/

/-- A blank within a line. -/
def isSpace (c : Char) : Bool :=
  c == ' ' || c == '\t'

/-- A character that may stand in strings and comments: no control character but the tab. -/
def isPrintable (c : Char) : Bool :=
  c == '\t' || c ≥ ' ' && c != '\x7F'

/-- The text behind the blanks at its front. -/
def skipSpaces (t : Text) : Text :=
  t.dropWhile isSpace

/-- The text behind a line break. -/
def skipNewline? : Text → Option Text
  | '\n' :: rest => some rest
  | '\r' :: '\n' :: rest => some rest
  | _ => none

/-- The text behind a comment, if one stands at its front. -/
def skipComment (t : Text) : Text :=
  match t with
  | '#' :: rest => rest.dropWhile isPrintable
  | _ => t

/-- The text behind the rest of a line, which holds nothing but blanks and a comment. -/
def skipLineEnd? (t : Text) : Option Text :=
  match skipComment (skipSpaces t) with
  | [] => some []
  | rest => skipNewline? rest

/-- The text behind blanks, comments and line breaks. -/
def skipBlankLines (t : Text) : Text :=
  let rest := skipComment (skipSpaces t)
  match skipNewline? rest with
  | some left => if left.length < t.length then skipBlankLines left else left
  | none => rest
termination_by t.length

/-! ## Strings -/

/-- The character with the number that some hexadecimal digits write. -/
def charOfDigits? (digits : Text) : Option Char := do
  let values ← digits.mapM Text.hexDigit?
  let n := values.foldl (fun n d => 16 * n + d) 0
  if n.isValidChar then some (Char.ofNat n) else none

/-- Reads an escape behind its backslash. -/
def escape? : Text → Option (Char × Text)
  | 'b' :: rest => some ('\x08', rest)
  | 't' :: rest => some ('\t', rest)
  | 'n' :: rest => some ('\n', rest)
  | 'f' :: rest => some ('\x0C', rest)
  | 'r' :: rest => some ('\r', rest)
  | '"' :: rest => some ('"', rest)
  | '\\' :: rest => some ('\\', rest)
  | 'u' :: rest =>
    if rest.length < 4 then none else (charOfDigits? (rest.take 4)).map (·, rest.drop 4)
  | 'U' :: rest =>
    if rest.length < 8 then none else (charOfDigits? (rest.take 8)).map (·, rest.drop 8)
  | _ => none

/-- Puts a character in front of a word. -/
def prependChar (c : Char) : Text × Text → Text × Text
  | (word, rest) => (c :: word, rest)

/-- Reads a string behind its double quote. -/
def basicString? (t : Text) : Option (Text × Text) :=
  match t with
  | [] => none
  | '"' :: rest => some ([], rest)
  | '\\' :: rest =>
    match escape? rest with
    | some (c, left) =>
      if left.length < rest.length + 1 then (basicString? left).map (prependChar c) else none
    | none => none
  | c :: rest => if isPrintable c then (basicString? rest).map (prependChar c) else none
termination_by t.length

/-- Reads a string behind its single quote. -/
def literalString? : Text → Option (Text × Text)
  | [] => none
  | '\'' :: rest => some ([], rest)
  | c :: rest => if isPrintable c then (literalString? rest).map (prependChar c) else none

/-- The quotes that end a string of several lines, from the first one on: three of them end it,
and up to two before those belong to it. -/
def closingQuotes? (quote : Char) (t : Text) : Option (Text × Text) :=
  let count := (t.takeWhile (· == quote)).length
  if 3 ≤ count ∧ count ≤ 5 then some (List.replicate (count - 3) quote, t.drop count) else none

/-- The text behind blanks and line breaks. -/
def skipBreaks : Text → Text
  | [] => []
  | '\n' :: rest => skipBreaks rest
  | '\r' :: '\n' :: rest => skipBreaks rest
  | c :: rest => if isSpace c then skipBreaks rest else c :: rest

/-- The text behind the line break that a backslash hides, and behind the blanks after it. -/
def skipHiddenBreak? (t : Text) : Option Text :=
  (skipNewline? (skipSpaces t)).map skipBreaks

/-- Reads a string of several lines behind its quotes; with `escapes` a backslash starts an
escape. -/
def multilineString? (quote : Char) (escapes : Bool) (t : Text) : Option (Text × Text) :=
  let goOn (c : Char) (left : Text) : Option (Text × Text) :=
    if left.length < t.length then
      (multilineString? quote escapes left).map (prependChar c)
    else none
  match skipNewline? t with
  | some left => goOn '\n' left
  | none =>
    match t with
    | [] => none
    | c :: rest =>
      if c = quote then
        match closingQuotes? quote t with
        | some closed => some closed
        | none => if 3 ≤ (t.takeWhile (· == quote)).length then none else goOn c rest
      else if c = '\\' ∧ escapes then
        match skipHiddenBreak? rest with
        | some left =>
          if left.length < rest.length + 1 then multilineString? quote escapes left else none
        | none =>
          match escape? rest with
          | some (e, left) => goOn e left
          | none => none
      else if isPrintable c then goOn c rest
      else none
termination_by t.length

/-- The text behind a line break, if it starts with one. -/
def skipFirstBreak (t : Text) : Text :=
  (skipNewline? t).getD t

/-- Reads a string of any kind. -/
def string? : Text → Option (String × Text)
  | '"' :: '"' :: '"' :: rest =>
    (multilineString? '"' true (skipFirstBreak rest)).map fun (word, left) => (.ofList word, left)
  | '\'' :: '\'' :: '\'' :: rest =>
    (multilineString? '\'' false (skipFirstBreak rest)).map fun (word, left) =>
      (.ofList word, left)
  | '"' :: rest => (basicString? rest).map fun (word, left) => (.ofList word, left)
  | '\'' :: rest => (literalString? rest).map fun (word, left) => (.ofList word, left)
  | _ => none

/-! ## Numbers -/

/-- Reads digits of some sort, with single underscores between them. -/
def digits? (isDigit : Char → Bool) : Text → Option (Text × Text)
  | [] => none
  | c :: rest =>
    if !isDigit c then none
    else match rest with
      | '_' :: d :: more =>
        if isDigit d then (digits? isDigit (d :: more)).map (prependChar c) else none
      | '_' :: _ => none
      | d :: more =>
        if isDigit d then (digits? isDigit (d :: more)).map (prependChar c)
        else some ([c], d :: more)
      | [] => some ([c], [])

/-- The number that some digits write in a base. -/
def valueOf (base : Nat) (digits : Text) : Nat :=
  digits.foldl (fun n c => base * n + (Text.hexDigit? c).getD 0) 0

/-- Reads a sign. -/
def sign (t : Text) : Bool × Text :=
  match t with
  | '-' :: rest => (true, rest)
  | '+' :: rest => (false, rest)
  | _ => (false, t)

/-- Reads a decimal whole number: whether it is negative, and its digits. No other digit follows a
leading zero. -/
def decimal? (t : Text) : Option (Bool × Text × Text) :=
  let (negative, rest) := sign t
  match rest with
  | '0' :: left => some (negative, ['0'], left)
  | _ => (digits? Char.isDigit rest).map fun (digits, left) => (negative, digits, left)

/-- One more than the largest integer: integers have 64 bits, one of them for the sign. -/
def integerBound : Nat := 9223372036854775808

/-- Reads an integer of 64 bits, in decimal or behind `0x`, `0o` or `0b`. -/
def integer? (t : Text) : Option (Int × Text) :=
  let inBase (base : Nat) (isDigit : Char → Bool) (rest : Text) : Option (Int × Text) := do
    let (digits, left) ← digits? isDigit rest
    let n := valueOf base digits
    if n < integerBound then some ((n : Int), left) else none
  match t with
  | '0' :: 'x' :: rest => inBase 16 (fun c => (Text.hexDigit? c).isSome) rest
  | '0' :: 'o' :: rest => inBase 8 (fun c => '0' ≤ c && c ≤ '7') rest
  | '0' :: 'b' :: rest => inBase 2 (fun c => c == '0' || c == '1') rest
  | _ => do
    let (negative, digits, left) ← decimal? t
    let n : Int := if negative then -(valueOf 10 digits : Int) else valueOf 10 digits
    if -(integerBound : Int) ≤ n ∧ n < integerBound then some (n, left) else none

/-- Whether `digits` times ten to the power `exponent` is too large for a float of 64 bits: it
rounds to infinity from half a unit above the largest one on. -/
def isInfinite (digits : Text) (exponent : Int) : Bool :=
  let n := valueOf 10 digits
  let bound := Nat.pow 2 1024 - Nat.pow 2 970
  if n = 0 then false
  else if exponent > 400 then true
  else if exponent ≥ 0 then n * Nat.pow 10 exponent.toNat ≥ bound
  else if (-exponent).toNat > digits.length then false
  else n ≥ bound * Nat.pow 10 (-exponent).toNat

/-- Reads the exponent of a float. -/
def exponent? : Text → Option (Int × Text)
  | c :: rest =>
    if c = 'e' ∨ c = 'E' then
      let (negative, rest) := sign rest
      (digits? Char.isDigit rest).map fun (digits, left) =>
        let n : Int := valueOf 10 digits
        (if negative then -n else n, left)
    else none
  | [] => none

/-- Reads a float that is written with digits. -/
def decimalFloat? (t : Text) : Option Text := do
  let (negative, whole, rest) ← decimal? t
  let (fraction, exponent, left) ← match rest with
    | '.' :: rest => do
      let (fraction, left) ← digits? Char.isDigit rest
      match exponent? left with
      | some (exponent, left) => some (fraction, exponent, left)
      | none => some (fraction, 0, left)
    | _ => (exponent? rest).map fun (exponent, left) => ([], exponent, left)
  if !negative && isInfinite (whole ++ fraction) (exponent - fraction.length) then none
  else some left

/-- Reads an infinity or what is no number. -/
def specialFloat? (t : Text) : Option Text :=
  match (sign t).2 with
  | 'i' :: 'n' :: 'f' :: rest => some rest
  | 'n' :: 'a' :: 'n' :: rest => some rest
  | _ => none

/-- The front of a text that is left out of its rest. -/
def frontOf (t rest : Text) : String :=
  .ofList (t.take (t.length - rest.length))

/-- Reads a float, as it is written. -/
def float? (t : Text) : Option (String × Text) :=
  ((decimalFloat? t).or (specialFloat? t)).map fun rest => (frontOf t rest, rest)

/-! ## Dates and times -/

/-- Reads a number of exactly `count` digits. -/
def fixedNumber? (count : Nat) (t : Text) : Option (Nat × Text) :=
  let front := t.take count
  if front.length = count ∧ front.all Char.isDigit then some (valueOf 10 front, t.drop count)
  else none

/-- Reads a number of two digits that is between two bounds. -/
def twoDigits? (low high : Nat) (t : Text) : Option (Nat × Text) := do
  let (n, rest) ← fixedNumber? 2 t
  if low ≤ n ∧ n ≤ high then some (n, rest) else none

/-- Reads one given character. -/
def char? (c : Char) : Text → Option Text
  | d :: rest => if c = d then some rest else none
  | [] => none

/-- The number of days of a month. -/
def daysOf (year month : Nat) : Nat :=
  if month = 2 then
    if year % 4 = 0 ∧ (year % 100 ≠ 0 ∨ year % 400 = 0) then 29 else 28
  else if month ∈ [4, 6, 9, 11] then 30
  else 31

/-- Reads a date. -/
def date? (t : Text) : Option Text := do
  let (year, rest) ← fixedNumber? 4 t
  let rest ← char? '-' rest
  let (month, rest) ← twoDigits? 1 12 rest
  let rest ← char? '-' rest
  let (_, rest) ← twoDigits? 1 (daysOf year month) rest
  return rest

/-- Reads a time; a minute may have a leap second. -/
def time? (t : Text) : Option Text := do
  let (_, rest) ← twoDigits? 0 23 t
  let rest ← char? ':' rest
  let (_, rest) ← twoDigits? 0 59 rest
  let rest ← char? ':' rest
  let (_, rest) ← twoDigits? 0 60 rest
  match rest with
  | '.' :: d :: more => if d.isDigit then some ((d :: more).dropWhile Char.isDigit) else some rest
  | _ => some rest

/-- Reads the offset of a time, if there is one. -/
def skipOffset (t : Text) : Text :=
  match t with
  | 'Z' :: rest | 'z' :: rest => rest
  | c :: rest =>
    if c = '+' ∨ c = '-' then
      ((do
        let (_, rest) ← twoDigits? 0 23 rest
        let rest ← char? ':' rest
        let (_, rest) ← twoDigits? 0 59 rest
        return rest) : Option Text).getD t
    else t
  | [] => []

/-- Reads a date, a time, or both, as it is written. -/
def datetime? (t : Text) : Option (String × Text) :=
  let rest? := match date? t with
    | some rest =>
      match rest with
      | c :: more =>
        if c = 'T' ∨ c = 't' ∨ c = ' ' then
          match time? more with
          | some left => some (skipOffset left)
          | none => some rest
        else some rest
      | [] => some []
    | none => time? t
  rest?.map fun rest => (frontOf t rest, rest)

end AssetLoom.Toml
