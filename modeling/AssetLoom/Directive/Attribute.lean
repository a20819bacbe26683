import AssetLoom.Text.Blank
import AssetLoom.Text.Fold
import AssetLoom.Text.Offset
import AssetLoom.Text.Word
/-!
# Attributes of directives

A directive names a resource in the value of one of its attributes. The name of the attribute
stands behind a blank, its value between quotes, and the search for it does not go beyond the
character that ends the directive.

* `Cut`: the text of a directive, cut before and behind the address.
* `findAttribute?`: the first attribute of a given name whose value is followed by what the
  directive ends with.
-/

namespace AssetLoom.Directive

/-- Removes the text `name` from the front of a text; characters are compared by `same`. -/
def stripName? (same : Char → Char → Bool) : Text → Text → Option Text
  | [], t => some t
  | n :: name, c :: t => if same n c then stripName? same name t else none
  | _ :: _, [] => none

/-- The same character. -/
def exactly (n c : Char) : Bool :=
  c == n

/-- The lower case letter `n`, in any case. -/
def inAnyCase (n c : Char) : Bool :=
  Text.fold c == n

/-- Whether a word ends before the text. -/
def endsWord (t : Text) : Bool :=
  !(t.head?.any Text.isWord)

/-- A directive, cut at its address. -/
structure Cut where
  /-- The text before the address, with the opening quote. -/
  lead : Text
  /-- The quote around the address. -/
  quote : Char
  address : Text
  /-- The text behind the address, with the closing quote. -/
  tail : Text
  deriving DecidableEq, Repr

namespace Cut

/-- The text of the directive. -/
def text (cut : Cut) : Text :=
  cut.lead ++ cut.address ++ cut.tail

/-- Puts a text in front. -/
def prepend (front : Text) (cut : Cut) : Cut :=
  { cut with lead := front ++ cut.lead }

@[simp]
theorem text_prepend (front : Text) (cut : Cut) : (cut.prepend front).text = front ++ cut.text := by
  simp [prepend, text]

end Cut

/-- How the attribute with the address is written. -/
structure AttributeForm where
  /-- The name, in lower case. -/
  name : Text
  /-- How characters are compared with the name. -/
  same : Char → Char → Bool
  /-- The quotes that may stand around the value. -/
  quotes : List Char
  /-- The character that the search does not go beyond. -/
  stop : Char

/-- Reads a quoted value and what follows it: `finish` takes from the text behind the closing
quote what still belongs to the directive. -/
def cutQuoted? (quotes : List Char) (finish : Text → Option Text) : Text → Option Cut
  | [] => none
  | quote :: rest =>
    if quotes.contains quote then
      match rest.dropWhile (· ≠ quote) with
      | [] => none
      | _ :: left => (finish left).map fun tail =>
        { lead := [quote], quote, address := rest.takeWhile (· ≠ quote), tail := quote :: tail }
    else none

/-- Reads an attribute at the front of a text, from the blank before its name on. -/
def cutAttribute? (form : AttributeForm) (finish : Text → Option Text) : Text → Option Cut
  | [] => none
  | c :: rest =>
    if Text.isBlank c then
      match stripName? form.same form.name rest with
      | some ('=' :: value) =>
        (cutQuoted? form.quotes finish value).map
          (·.prepend (c :: rest.take form.name.length ++ ['=']))
      | _ => none
    else none

/-- The first attribute of the form that the directive can be finished behind. -/
def findAttribute? (form : AttributeForm) (finish : Text → Option Text) : Text → Option Cut
  | [] => none
  | c :: rest =>
    match cutAttribute? form finish (c :: rest) with
    | some cut => some cut
    | none =>
      if c = form.stop then none
      else (findAttribute? form finish rest).map (·.prepend [c])

end AssetLoom.Directive
