import AssetLoom.Pattern.Expr
import AssetLoom.Text.FormQuery
import AssetLoom.Text.Letter
/-!
# Reading patterns

A pattern is read from left to right, one item at a time. Groups that are still open are kept on
a stack, and so are sets of characters that are written inside another one.

* `Reader`: what has been read and what is left.
* `Reader.step`: reads one item.
* `parse`: the expression for a text, with the names of its groups.

Flags (`(?i)`, `(?x:...)`) hold up to the end of the group they stand in. With the flag `x` blanks
and comments between items are skipped.
-/

namespace AssetLoom.Pattern

/-- What can be wrong with a pattern. -/
inductive Fault
  | unclosedGroup
  | unopenedGroup
  | badGroupName
  | repeatedGroupName
  | lookAround
  | badFlags
  | nothingToRepeat
  | badRepetition
  | badEscape
  | unknownProperty
  | unclosedSet
  | badSet
  /-- Could match a part of a character. -/
  | notText
  | tooDeep
  | tooLarge
  deriving DecidableEq, Repr

/-- The message for a fault, in words of this library: where a pattern is read by another one, the
fault is the same, but not the text. -/
def Fault.message : Fault → String
  | unclosedGroup => "unclosed group"
  | unopenedGroup => "unopened group"
  | badGroupName => "invalid group name"
  | repeatedGroupName => "duplicate group name"
  | lookAround => "look-around is not supported"
  | badFlags => "invalid flags"
  | nothingToRepeat => "repetition operator missing expression"
  | badRepetition => "invalid repetition count"
  | badEscape => "invalid escape sequence"
  | unknownProperty => "unknown character property"
  | unclosedSet => "unclosed character class"
  | badSet => "invalid character class"
  | notText => "pattern can match invalid UTF-8"
  | tooDeep => "pattern is nested too deeply"
  | tooLarge => "compiled pattern is too large"

/-- The switches that change how a pattern is read. -/
structure Flags where
  ignoreCase : Bool := false
  multiLine : Bool := false
  dotAll : Bool := false
  swapGreed : Bool := false
  unicode : Bool := true
  crlf : Bool := false
  extended : Bool := false
  deriving DecidableEq, Repr

/-- Sets the flag with the letter `c`. -/
def Flags.set? (flags : Flags) (c : Char) (on : Bool) : Option Flags :=
  match c with
  | 'i' => some { flags with ignoreCase := on }
  | 'm' => some { flags with multiLine := on }
  | 's' => some { flags with dotAll := on }
  | 'U' => some { flags with swapGreed := on }
  | 'u' => some { flags with unicode := on }
  | 'R' => some { flags with crlf := on }
  | 'x' => some { flags with extended := on }
  | _ => none

/-! ## Blanks and numbers -/

/-- The text behind blanks and comments; `comment` tells whether it starts in a comment. -/
def skipBlanks : Bool → Text → Text
  | _, [] => []
  | true, c :: rest => skipBlanks (c != '\n') rest
  | false, c :: rest =>
    if Text.isBlank c then skipBlanks false rest
    else if c = '#' then skipBlanks true rest
    else c :: rest

/-- The text that is looked at next. -/
def Flags.skip (flags : Flags) (t : Text) : Text :=
  if flags.extended then skipBlanks false t else t

/-- The digits of a number; with the flag `x` there may be blanks and comments between them. -/
def takeDigits (flags : Flags) : Text → Text × Text
  | [] => ([], [])
  | c :: rest =>
    if c.isDigit then
      let (digits, left) := takeDigits flags rest
      (c :: digits, left)
    else if flags.extended then
      match skipBlanks false (c :: rest) with
      | d :: more =>
        if d.isDigit ∧ more.length < rest.length then
          let (digits, left) := takeDigits flags more
          (d :: digits, left)
        else ([], d :: more)
      | [] => ([], [])
    else ([], c :: rest)
termination_by t => t.length

/-- The largest count of a repetition. -/
def countLimit : Nat := 4294967295

/-- Reads a decimal number with blanks around it; `none` if there are no digits. -/
def takeDecimal (flags : Flags) (t : Text) : Except Fault (Option Nat × Text) :=
  let (digits, rest) := takeDigits flags (t.dropWhile Text.isBlank)
  let rest := rest.dropWhile Text.isBlank
  let n := digits.foldl (fun n d => 10 * n + (d.toNat - '0'.toNat)) 0
  if digits = [] then .ok (none, rest)
  else if n ≤ countLimit then .ok (some n, rest)
  else .error .badRepetition

/-! ## Escapes -/

/-- What an escape stands for. -/
inductive Escape
  /-- A character; `byte` tells that it was written as `\x` with two digits. -/
  | char (c : Char) (byte : Bool)
  | set (set : CharSet)
  | look (condition : Look)

/-- A character that has a meaning of its own in a pattern. -/
def isMeta (c : Char) : Bool :=
  "\\.+*?()|[]\x7b\x7d^$#&-~".toList.contains c

/-- The character with the number that is written in hexadecimal. -/
def charOfHex? (digits : List Nat) : Option Char :=
  let n := digits.foldl (fun n d => 16 * n + d) 0
  if digits ≠ [] ∧ n.isValidChar then some (Char.ofNat n) else none

/-- Reads exactly `count` hexadecimal digits. -/
def takeHexDigits (flags : Flags) : Nat → Text → Except Fault (List Nat × Text)
  | 0, t => .ok ([], t)
  | count + 1, t =>
    match t with
    | c :: rest =>
      match Text.hexDigit? c with
      | some d => do
        let (digits, left) ← takeHexDigits flags count (flags.skip rest)
        return (d :: digits, left)
      | none => .error .badEscape
    | [] => .error .badEscape

/-- Reads what is written up to the closing brace. -/
def takeBraced (flags : Flags) (t : Text) : Except Fault (Text × Text) :=
  match t.dropWhile (· ≠ '}') with
  | [] => .error .badEscape
  | _ :: rest =>
    let inside := t.takeWhile (· ≠ '}')
    .ok (if flags.extended then inside.filter (!Text.isBlank ·) else inside, rest)

/-- Reads the character behind `\x`, `\u` or `\U`. -/
def takeHexChar (flags : Flags) (kind : Char) (t : Text) : Except Fault (Escape × Text) :=
  match flags.skip t with
  | '{' :: rest => do
    let (inside, left) ← takeBraced flags rest
    match inside.mapM Text.hexDigit? with
    | some digits =>
      match charOfHex? digits with
      | some c => return (.char c false, left)
      | none => .error .badEscape
    | none => .error .badEscape
  | rest => do
    let count := if kind = 'x' then 2 else if kind = 'u' then 4 else 8
    let (digits, left) ← takeHexDigits flags count rest
    match charOfHex? digits with
    | some c => return (.char c (kind = 'x'), left)
    | none => .error .badEscape

/-- The name of a property without case, blanks, hyphens, underscores and a leading `is`. -/
def propertyName (name : Text) : String :=
  let name := match name with
    | a :: b :: rest => if a.toLower = 'i' ∧ b.toLower = 's' then rest else name
    | _ => name
  .ofList (name.filter (fun c => c ≠ ' ' ∧ c ≠ '_' ∧ c ≠ '-' ∧ c.toNat < 128) |>.map Char.toLower)

/-- The set for a property: only decimal digits and white space are known. -/
def propertySet? (name : String) : Option CharSet :=
  if name ∈ ["nd", "digit", "decimalnumber"] then some .digit
  else if name ∈ ["whitespace", "wspace", "space"] then some .blank
  else none

/-- The parts before and behind the first `!=`. -/
def splitUnequal? : Text → Option (Text × Text)
  | [] => none
  | '!' :: '=' :: rest => some ([], rest)
  | c :: rest => (splitUnequal? rest).map fun (name, value) => (c :: name, value)

/-- The set that the inside of a property escape names, and whether it is negated. -/
def propertyOfText? (inside : Text) : Option (CharSet × Bool) :=
  let category (name value : Text) : Option CharSet :=
    if propertyName name ∈ ["gc", "generalcategory"]
        ∧ propertyName value ∈ ["nd", "digit", "decimalnumber"] then some .digit
    else none
  match splitUnequal? inside with
  | some (name, value) => (category name value).map (·, true)
  | none =>
    let separator := if inside.contains ':' then ':' else '='
    match inside.dropWhile (· ≠ separator) with
    | _ :: value => (category (inside.takeWhile (· ≠ separator)) value).map (·, false)
    | [] => (propertySet? (propertyName inside)).map (·, false)

/-- Puts a set in the form that the flags ask for: any case first, then the complement. -/
def Flags.finishSet (flags : Flags) (negated : Bool) (set : CharSet) : Except Fault CharSet :=
  let set := if flags.ignoreCase then
    if flags.unicode then .anyCase set else .anyAsciiCase set else set
  if !negated then .ok set
  else if flags.unicode then .ok (.compl set)
  else .error .notText

/-- Reads the property behind `\p` or `\P`. -/
def takeProperty (flags : Flags) (negated : Bool) (t : Text) : Except Fault (Escape × Text) :=
  match flags.skip t with
  | '{' :: rest => do
    let (inside, left) ← takeBraced flags rest
    match propertyOfText? inside with
    | some (set, unequal) =>
      if flags.unicode then
        return (.set (← flags.finishSet (negated != unequal) set), left)
      else .error .notText
    | none => .error .unknownProperty
  | _ => .error .unknownProperty

/-- The set of the letter `c` as in `\d`, `\S`. -/
def Flags.namedSet (flags : Flags) (c : Char) : Except Fault Escape :=
  let set := match c.toLower with
    | 'd' => if flags.unicode then .digit else .asciiDigit
    | 's' => if flags.unicode then .blank else .asciiBlank
    | _ => if flags.unicode then .word else .asciiWord
  if !c.isUpper then .ok (.set set)
  else if flags.unicode then .ok (.set (.compl set))
  else .error .notText

/-- Reads the braces that may follow `\b`. They belong to a repetition unless they start with a
letter or a hyphen. -/
def takeWordEdge (flags : Flags) (t : Text) : Except Fault (Escape × Text) :=
  let ascii := !flags.unicode
  let isNameChar (c : Char) : Bool := c.isAlpha || c == '-'
  match t with
  | '{' :: rest =>
    match flags.skip rest with
    | [] => .error .badEscape
    | c :: more =>
      if !isNameChar c then .ok (.look (.wordEdge ascii), t)
      else do
        let (inside, left) ← takeBraced flags (c :: more)
        match String.ofList inside with
        | "start" => return (.look (.wordStart ascii), left)
        | "end" => return (.look (.wordEnd ascii), left)
        | "start-half" => return (.look (.notBehindWord ascii), left)
        | "end-half" => return (.look (.notBeforeWord ascii), left)
        | _ => .error .badEscape
  | _ => .ok (.look (.wordEdge ascii), t)

/-- Reads the escape behind a backslash. -/
def takeEscape (flags : Flags) : Text → Except Fault (Escape × Text)
  | [] => .error .badEscape
  | c :: rest =>
    let ascii := !flags.unicode
    if c = 'x' ∨ c = 'u' ∨ c = 'U' then takeHexChar flags c rest
    else if c = 'p' ∨ c = 'P' then takeProperty flags (c = 'P') rest
    else if "dswDSW".toList.contains c then (flags.namedSet c).map (·, rest)
    else match c with
      | 'a' => .ok (.char '\x07' false, rest)
      | 'f' => .ok (.char '\x0C' false, rest)
      | 't' => .ok (.char '\t' false, rest)
      | 'n' => .ok (.char '\n' false, rest)
      | 'r' => .ok (.char '\r' false, rest)
      | 'v' => .ok (.char '\x0B' false, rest)
      | 'A' => .ok (.look .textStart, rest)
      | 'z' => .ok (.look .textEnd, rest)
      | 'b' => takeWordEdge flags rest
      | 'B' => .ok (.look (.notWordEdge ascii), rest)
      | '<' => .ok (.look (.wordStart ascii), rest)
      | '>' => .ok (.look (.wordEnd ascii), rest)
      | _ =>
        if isMeta c ∨ c.toNat < 128 ∧ !c.isAlphanum then .ok (.char c false, rest)
        else .error .badEscape

/-! ## Sets of characters -/

/-- The operators between the parts of a set. -/
inductive SetOperator
  | inter
  | diff
  | symmDiff
  deriving DecidableEq, Repr

/-- A set with the depth of its nesting. -/
structure NestedSet where
  set : CharSet
  depth : Nat

/-- A set that is not closed yet. -/
structure OpenSet where
  negated : Bool
  /-- What stands left of an operator, and the operator. -/
  left : Option (NestedSet × SetOperator) := none
  /-- The items behind it, the last one first. -/
  items : List NestedSet := []

/-- The union of the items behind the last operator. -/
def OpenSet.lastPart (s : OpenSet) : NestedSet :=
  let depth := (s.items.map (·.depth)).foldl max 0
  match s.items.reverse.map (·.set) with
  | [] => ⟨.empty, 0⟩
  | [one] => ⟨one, depth⟩
  | many => ⟨many.foldr .union .empty, depth + 1⟩

/-- Applies the operator that is still waiting. -/
def OpenSet.combined (flags : Flags) (s : OpenSet) : NestedSet :=
  let right := s.lastPart
  match s.left with
  | none => right
  | some (left, operator) =>
    let anyCase (set : CharSet) : CharSet :=
      if flags.ignoreCase then if flags.unicode then .anyCase set else .anyAsciiCase set else set
    let a := anyCase left.set
    let b := anyCase right.set
    let set := match operator with
      | .inter => .inter a b
      | .diff => .diff a b
      | .symmDiff => .symmDiff a b
    ⟨set, max left.depth right.depth + 1⟩

/-- A set named as in `[:alpha:]`. -/
def asciiSet? (name : String) : Option CharSet :=
  match name with
  | "alnum" => some (.intervals [('0', '9'), ('A', 'Z'), ('a', 'z')])
  | "alpha" => some (.intervals [('A', 'Z'), ('a', 'z')])
  | "ascii" => some (.interval '\x00' '\x7F')
  | "blank" => some (.intervals [('\t', '\t'), (' ', ' ')])
  | "cntrl" => some (.intervals [('\x00', '\x1F'), ('\x7F', '\x7F')])
  | "digit" => some (.interval '0' '9')
  | "graph" => some (.interval '!' '~')
  | "lower" => some (.interval 'a' 'z')
  | "print" => some (.interval ' ' '~')
  | "punct" => some (.intervals [('!', '/'), (':', '@'), ('[', '\x60'), ('\x7b', '~')])
  | "space" => some (.intervals [('\t', '\r'), (' ', ' ')])
  | "upper" => some (.interval 'A' 'Z')
  | "word" => some .asciiWord
  | "xdigit" => some (.intervals [('0', '9'), ('A', 'F'), ('a', 'f')])
  | _ => none

/-- Reads a set named as in `[:alpha:]` behind its bracket, if there is one. -/
def takeAsciiSet? (t : Text) : Option (CharSet × Bool × Text) :=
  match t with
  | ':' :: rest =>
    let (negated, rest) := match rest with
      | '^' :: more => (true, more)
      | _ => (false, rest)
    match rest.dropWhile (· ≠ ':') with
    | ':' :: ']' :: left =>
      (asciiSet? (String.ofList (rest.takeWhile (· ≠ ':')))).map (·, negated, left)
    | _ => none
  | _ => none

/-- Counts the hyphens that the text starts with. -/
def takeHyphens (flags : Flags) (t : Text) : Nat × Text :=
  match t with
  | '-' :: rest =>
    if (flags.skip rest).length ≤ rest.length then
      let (count, left) := takeHyphens flags (flags.skip rest)
      (count + 1, left)
    else (1, rest)
  | _ => (0, t)
termination_by t.length

/-- Reads the start of a set behind its bracket: the sign of a complement, and then hyphens or a
bracket that stand for themselves. -/
def takeSetStart (flags : Flags) (t : Text) : Except Fault (OpenSet × Text) :=
  let t := flags.skip t
  let (negated, t) := match t with
    | '^' :: rest => (true, flags.skip rest)
    | _ => (false, t)
  let (count, t) := takeHyphens flags t
  let items := List.replicate count (⟨.single '-', 0⟩ : NestedSet)
  let (items, t) := match items, t with
    | [], ']' :: rest => ([⟨.single ']', 0⟩], flags.skip rest)
    | _, _ => (items, t)
  if t = [] then .error .unclosedSet else .ok ({ negated, items }, t)

/-- Reads one member of a set. -/
def takeSetMember (flags : Flags) : Text → Except Fault (Escape × Text)
  | '\\' :: rest => takeEscape flags rest
  | c :: rest => .ok (.char c false, rest)
  | [] => .error .unclosedSet

/-- The character that ends an interval. -/
def Escape.toSetChar (flags : Flags) : Escape → Except Fault Char
  | .char c byte =>
    if flags.unicode ∨ c.toNat < 128 then .ok c
    else if byte then .error .notText
    else .error .badSet
  | _ => .error .badSet

/-- Reads a member of a set, or an interval between two of them. -/
def takeSetItem (flags : Flags) (t : Text) : Except Fault (CharSet × Text) := do
  let (low, rest) ← takeSetMember flags t
  let rest := flags.skip rest
  let alone : Except Fault (CharSet × Text) :=
    match low with
    | .set set => .ok (set, rest)
    | .look _ => .error .badSet
    | .char _ _ => (low.toSetChar flags).map fun c => (.single c, rest)
  match rest with
  | [] => .error .unclosedSet
  | '-' :: more =>
    let more := flags.skip more
    if more.head? = some ']' ∨ more.head? = some '-' then alone
    else
      let (high, left) ← takeSetMember flags more
      let low ← low.toSetChar flags
      let high ← high.toSetChar flags
      if low.val ≤ high.val then return (.interval low high, left) else .error .badSet
  | _ => alone

/-- Reads on in the sets that are open, the innermost first, up to the end of the outermost one. -/
def takeSetRest (flags : Flags) (current : OpenSet) (outer : List OpenSet) (t : Text) :
    Except Fault (NestedSet × Text) :=
  let add (item : NestedSet) : OpenSet := { current with items := item :: current.items }
  let operate (operator : SetOperator) : OpenSet :=
    { current with left := some (current.combined flags, operator), items := [] }
  let rest := flags.skip t
  let goOn (current : OpenSet) (outer : List OpenSet) (left : Text) :
      Except Fault (NestedSet × Text) :=
    if left.length < t.length then takeSetRest flags current outer left
    else .error .unclosedSet
  match rest with
  | [] => .error .unclosedSet
  | '[' :: more =>
    match takeAsciiSet? more with
    | some (set, negated, left) => do
      let set ← flags.finishSet negated set
      goOn (add ⟨set, 0⟩) outer left
    | none => do
      let (inner, left) ← takeSetStart flags more
      goOn inner (current :: outer) left
  | ']' :: more => do
    let inside := current.combined flags
    let closed : NestedSet := ⟨← flags.finishSet current.negated inside.set, inside.depth + 1⟩
    match outer with
    | [] => .ok (closed, more)
    | parent :: others => goOn { parent with items := closed :: parent.items } others more
  | '&' :: '&' :: more => goOn (operate .inter) outer more
  | '-' :: '-' :: more => goOn (operate .diff) outer more
  | '~' :: '~' :: more => goOn (operate .symmDiff) outer more
  | _ => do
    let (set, left) ← takeSetItem flags rest
    goOn (add ⟨set, 0⟩) outer left
termination_by t.length

/-- Reads a set behind its bracket. -/
def takeSet (flags : Flags) (t : Text) : Except Fault (NestedSet × Text) := do
  let (start, rest) ← takeSetStart flags t
  takeSetRest flags start [] rest

/-! ## Groups and repetitions -/

/-- An expression with the depth of its nesting. -/
structure Item where
  expr : Expr
  depth : Nat
  /-- Whether it is a setting of flags, which cannot be repeated. -/
  isSetting : Bool := false

/-- The sequence of items, the last one given first. -/
def Item.sequence (items : List Item) : Item :=
  match items with
  | [] => ⟨.empty, 0, false⟩
  | [one] => one
  | _ => ⟨.seqOf (items.reverse.map (·.expr)), (items.map (·.depth)).foldl max 0 + 1, false⟩

/-- A group that is not closed yet, or the whole pattern. -/
structure Level where
  /-- The group that is remembered, if any. -/
  capture : Option Nat := none
  /-- Alternatives that are complete, the last one first. -/
  alternatives : List Item := []
  /-- The items of the current alternative, the last one first. -/
  items : List Item := []

/-- All alternatives of a level as one item. -/
def Level.close (level : Level) : Item :=
  let last := Item.sequence level.items
  match (last :: level.alternatives).reverse with
  | [] | [_] => last
  | first :: others =>
    ⟨.altOf first.expr (others.map (·.expr)),
      ((first :: others).map (·.depth)).foldl max 0 + 1, false⟩

/-- What has been read of a pattern. -/
structure Reader where
  flags : Flags := {}
  level : Level := {}
  /-- The levels outside, each with the flags that hold there again. -/
  outer : List (Level × Flags) := []
  /-- The number of groups that are remembered. -/
  groups : Nat := 0
  /-- The names of groups, the last one first. -/
  names : List (Text × Nat) := []

namespace Reader

/-- Adds an item to the current alternative. -/
def push (r : Reader) (item : Item) : Reader :=
  { r with level := { r.level with items := item :: r.level.items } }

/-- Takes the item that a repetition applies to. -/
def popRepeated (r : Reader) : Except Fault (Item × Reader) :=
  match r.level.items with
  | item :: items =>
    if item.isSetting then .error .nothingToRepeat
    else .ok (item, { r with level := { r.level with items } })
  | [] => .error .nothingToRepeat

/-- Repeats the last item; a question mark behind the operator makes it reluctant. -/
def repeatLast (r : Reader) (least : Nat) (most : Option Nat) (rest : Text) :
    Except Fault (Reader × Text) := do
  let (item, r) ← r.popRepeated
  let (greedy, rest) := match rest with
    | '?' :: more => (false, more)
    | _ => (true, rest)
  let greedy := greedy != r.flags.swapGreed
  return (r.push ⟨.repeated item.expr least most greedy, item.depth + 1, false⟩, rest)

/-- Reads a repetition with counts behind its brace. -/
def takeCounts (r : Reader) (t : Text) : Except Fault (Reader × Text) := do
  let (_, _) ← r.popRepeated
  let (least, rest) ← takeDecimal r.flags (r.flags.skip t)
  match rest, least with
  | '}' :: rest, some n => r.repeatLast n (some n) (r.flags.skip rest)
  | ',' :: rest, some n =>
    match r.flags.skip rest with
    | '}' :: rest => r.repeatLast n none (r.flags.skip rest)
    | rest =>
      let (most, rest) ← takeDecimal r.flags rest
      match rest, most with
      | '}' :: rest, some m =>
        if n ≤ m then r.repeatLast n (some m) (r.flags.skip rest) else .error .badRepetition
      | _, _ => .error .badRepetition
  | _, _ => .error .badRepetition

/-- Starts a group. -/
def enter (r : Reader) (capture : Option Nat) (flags : Flags) : Reader :=
  { r with flags, level := { capture }, outer := (r.level, r.flags) :: r.outer }

/-- Starts a group that is remembered. -/
def enterCapture (r : Reader) : Reader :=
  { r.enter (some (r.groups + 1)) r.flags with groups := r.groups + 1 }

/-- Whether `c` may stand in the name of a group. -/
def isNameChar (first : Bool) (c : Char) : Bool :=
  if first then c == '_' || Text.isLetter c
  else c == '_' || c == '.' || c == '[' || c == ']' || Text.isLetterOrNumber c

/-- Reads the name of a group and starts it. -/
def takeNamed (r : Reader) (t : Text) : Except Fault (Reader × Text) :=
  let name := t.takeWhile (· ≠ '>')
  match name, t.dropWhile (· ≠ '>') with
  | first :: others, _ :: rest =>
    if !isNameChar true first || !others.all (isNameChar false) then .error .badGroupName
    else if r.names.any (·.1 == name) then .error .repeatedGroupName
    else
      let r := r.enterCapture
      .ok ({ r with names := (name, r.groups) :: r.names }, rest)
  | _, _ => .error .badGroupName

/-- Reads flags up to a colon or a closing parenthesis: the new flags, whether any was given, and
the rest from that sign on. -/
def takeFlags (used : List Char) (on : Bool) (flags : Flags) :
    Text → Except Fault (Flags × Bool × Text)
  | [] => .error .unclosedGroup
  | c :: rest =>
    if c = ':' ∨ c = ')' then
      if used.head? = some '-' then .error .badFlags else .ok (flags, used ≠ [], c :: rest)
    else if used.contains c then .error .badFlags
    else if c = '-' then takeFlags (c :: used) false flags rest
    else
      match flags.set? c on with
      | some flags => takeFlags (c :: used) on flags rest
      | none => .error .badFlags

/-- Reads the start of a group behind its parenthesis. -/
def takeGroupStart (r : Reader) (t : Text) : Except Fault (Reader × Text) :=
  match r.flags.skip t with
  | '?' :: '=' :: _ | '?' :: '!' :: _ | '?' :: '<' :: '=' :: _ | '?' :: '<' :: '!' :: _ =>
    .error .lookAround
  | '?' :: 'P' :: '<' :: rest | '?' :: '<' :: rest => r.takeNamed rest
  | '?' :: rest => do
    let (flags, given, left) ← takeFlags [] true r.flags rest
    match left with
    | ')' :: left =>
      if given then return ({ r with flags }.push ⟨.empty, 0, true⟩, left)
      else .error .nothingToRepeat
    | left => return (r.enter none flags, left.drop 1)
  | rest => .ok (r.enterCapture, rest)

/-- Ends a group. -/
def leave (r : Reader) : Except Fault Reader :=
  match r.outer with
  | [] => .error .unopenedGroup
  | (level, flags) :: outer =>
    let inside := r.level.close
    let expr := match r.level.capture with
      | some index => .group index inside.expr
      | none => inside.expr
    .ok ({ r with level, flags, outer }.push ⟨expr, inside.depth + 1, false⟩)

/-- The expression for one character. -/
def charExpr (flags : Flags) (c : Char) (byte : Bool) : Except Fault Expr :=
  if !flags.unicode && byte && c.toNat ≥ 128 then .error .notText
  else if !flags.ignoreCase then .ok (.oneOf (.single c))
  else if flags.unicode then .ok (.oneOf (.anyCase (.single c)))
  else .ok (.oneOf (.anyAsciiCase (.single c)))

/-- The expression for a dot. -/
def dotExpr (flags : Flags) : Except Fault Expr :=
  if !flags.unicode then .error .notText
  else if flags.dotAll then .ok (.oneOf (.compl .empty))
  else if flags.crlf then .ok (.oneOf (.compl (.union (.single '\r') (.single '\n'))))
  else .ok (.oneOf (.compl (.single '\n')))

/-- Reads one item, if there is any left. -/
def step (r : Reader) (t : Text) : Except Fault (Reader × Text) :=
  let flags := r.flags
  match flags.skip t with
  | [] => .ok (r, [])
  | '(' :: rest => r.takeGroupStart rest
  | ')' :: rest => r.leave.map (·, rest)
  | '|' :: rest =>
    let closed := Item.sequence r.level.items
    let level := { r.level with alternatives := closed :: r.level.alternatives, items := [] }
    .ok ({ r with level }, rest)
  | '[' :: rest => do
    let (set, left) ← takeSet flags rest
    return (r.push ⟨.oneOf set.set, set.depth, false⟩, left)
  | '?' :: rest => r.repeatLast 0 (some 1) rest
  | '*' :: rest => r.repeatLast 0 none rest
  | '+' :: rest => r.repeatLast 1 none rest
  | '{' :: rest => r.takeCounts rest
  | '.' :: rest => (dotExpr flags).map fun e => (r.push ⟨e, 0, false⟩, rest)
  | '^' :: rest =>
    let look := if flags.multiLine then .lineStart flags.crlf else .textStart
    .ok (r.push ⟨.look look, 0, false⟩, rest)
  | '$' :: rest =>
    let look := if flags.multiLine then .lineEnd flags.crlf else .textEnd
    .ok (r.push ⟨.look look, 0, false⟩, rest)
  | '\\' :: rest => do
    let (escape, left) ← takeEscape flags rest
    let expr ← match escape with
      | .char c byte => charExpr flags c byte
      | .set set => .ok (.oneOf set)
      | .look condition => .ok (.look condition)
    return (r.push ⟨expr, 0, false⟩, left)
  | c :: rest => (charExpr flags c false).map fun e => (r.push ⟨e, 0, false⟩, rest)

/-- Reads all items of a text. -/
def run (r : Reader) (t : Text) : Except Fault Reader :=
  if t = [] then .ok r
  else do
    let (r', rest) ← r.step t
    if rest.length < t.length then run r' rest else .error .badEscape
termination_by t.length

end Reader

/-- How deep the items of a pattern may be nested. -/
def depthLimit : Nat := 250

/-- How many bytes the program of a pattern may take. -/
def weightLimit : Nat := 10485760

/-- An expression with its groups. -/
structure Parsed where
  expr : Expr
  /-- The number of groups that are remembered. -/
  groups : Nat
  /-- The groups that have names. -/
  names : List (Text × Nat)
  deriving DecidableEq

/-- Reads a pattern. -/
def parse (t : Text) : Except Fault Parsed := do
  let r ← Reader.run {} t
  if r.outer ≠ [] then .error .unclosedGroup
  else
    let whole := r.level.close
    if whole.depth > depthLimit then .error .tooDeep
    else if whole.expr.weight > weightLimit then .error .tooLarge
    else .ok ⟨whole.expr, r.groups, r.names⟩

end AssetLoom.Pattern
