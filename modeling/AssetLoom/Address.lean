import AssetLoom.Path.Basic
import AssetLoom.Text.FormQuery
/-!
# Addresses

An address is what a directive writes to name the resource it wants. Its class is read off the
whole address: an address that still holds template syntax is known only when the page is
rendered, one with a scheme or without a host's scheme (`//host/...`) leads outside, an absolute
one is left to the server, and any other one is relative to the resource it is written in.

* `Class.ofText`: the class of an address.
* `splitQuery`: the address without its fragment, cut at the first `?`.
* `Address.resolve`: the resource that a relative address names, and whether its content is
  wanted in place.
-/

namespace AssetLoom

namespace Text

/-- Whether `t` starts with `front`. -/
def startsWith (front t : Text) : Bool :=
  front.isPrefixOf t

/-- Whether `part` occurs in the text. -/
def occurs (part : Text) : Text → Bool
  | [] => part.isEmpty
  | c :: rest => startsWith part (c :: rest) || occurs part rest

/-- Whether the text holds `{{` and, later on, `}}`. -/
def hasTemplateSyntax : Text → Bool
  | '{' :: '{' :: rest => occurs ['}', '}'] rest
  | _ :: rest => hasTemplateSyntax rest
  | [] => false

end Text

namespace Address

/-- A character that the scheme of a URL may be written with. -/
def isSchemeChar (c : Char) : Bool :=
  c.isAlphanum || c == '+' || c == '-' || c == '.'

/-- Whether the address starts with a scheme and a colon. -/
def hasScheme (address : Text) : Bool :=
  match address.dropWhile isSchemeChar with
  | ':' :: _ => address.head? != some ':'
  | _ => false

/-- Whether the address leads outside: it has a scheme, or starts with two slashes. -/
def isExternal (address : Text) : Bool :=
  Text.startsWith ['/', '/'] address || hasScheme address

/-- The class of an address. -/
inductive Class
  /-- Holds template syntax, and is known only when the page is rendered. -/
  | dynamic
  /-- Leads outside. -/
  | external
  /-- Starts at the root of the site. -/
  | absolute
  /-- Relative to the resource it is written in. -/
  | relative
  deriving DecidableEq, Repr

/-- The class of an address. Template syntax is looked for first. -/
def Class.ofText (address : Text) : Class :=
  if Text.hasTemplateSyntax address then .dynamic
  else if isExternal address then .external
  else if address.head? = some '/' ∨ address.head? = some '\\' then .absolute
  else .relative

/-- Only a relative address names a resource of the build. -/
def Class.isLocal (k : Class) : Bool :=
  k == .relative

/-- The file and the query of an address; the fragment is dropped. -/
def splitQuery (address : Text) : Text × Option Text :=
  let whole := address.takeWhile (· ≠ '#')
  match whole.dropWhile (· ≠ '?') with
  | [] => (whole, none)
  | _ :: query => (whole.takeWhile (· ≠ '?'), some query)

/-- The key of a query that asks for the content of the resource in place of a reference. -/
def inlineKey : String := "__inline"

/-- Whether a query asks for the content. -/
def asksInline (query : Text) : Bool :=
  (Text.FormQuery.keys query).any (· == inlineKey.toList)

end Address

/-- What an address names. -/
inductive Address
  /-- A URL, or an absolute path. -/
  | external
  /-- An expression that is left to the template engine. -/
  | dynamic
  /-- The resource `key` of this build; `inline` asks for its content. -/
  | resource (key : String) (inline : Bool)
  deriving DecidableEq, Repr

namespace Address

/-- What `address` names when it is written in the resource `referrer`. -/
def resolve (address : Text) (referrer : String) : Address :=
  match Class.ofText address with
  | .dynamic => .dynamic
  | .external | .absolute => .external
  | .relative =>
    let (file, query) := splitQuery address
    .resource (Path.join (Path.dirname referrer) (String.ofList file)) (query.any asksInline)

/-- The key of the resource that is named. -/
def key? : Address → Option String
  | .resource key _ => some key
  | _ => none

/-- Whether the content of a resource is asked for. -/
def isInline : Address → Bool
  | .resource _ inline => inline
  | _ => false

end Address

end AssetLoom
