import FakeQuant.Text.Basic
import FakeQuant.Yaml.Cursor

/-!
# Tags

A tag tells the kind of a value. It is written in full between angle brackets, or as a handle and
what follows; directives give handles their meaning. A tag is kept as its bytes, because percent
escapes stand for bytes.
-/

namespace FakeQuant.Yaml

/-- The bytes of a tag. -/
abbrev Tag := List UInt8

/-- The bytes of an ASCII text. -/
def asciiBytes (text : List Char) : Tag :=
  text.map fun c => UInt8.ofNat c.toNat

namespace Tag

/-- The tag of a standard type. -/
def standard (name : String) : Tag :=
  asciiBytes ("tag:yaml.org,2002:" ++ name).toList

/-- The tag that is an exclamation mark alone. -/
def nonSpecific : Tag :=
  asciiBytes ['!']

/-- The name of a tag of the document's own: what stands behind its exclamation mark, if anything
does. -/
def ownName? (t : Tag) : Option String :=
  match t with
  | 33 :: rest => String.fromUTF8? ⟨(if rest.isEmpty then t else rest).toArray⟩
  | _ => none

end Tag

/-- What the handles of a document stand for. -/
abbrev Handles := List (List Char × Tag)

/-- The handles that need no directive. -/
def standardHandles : Handles :=
  [(['!'], Tag.nonSpecific), (['!', '!'], Tag.standard "")]

/-! ### Bytes of a tag -/

/-- The characters of a tag. -/
def isTagChar (c : Char) : Bool :=
  isNameChar c ||
    [';', '/', '?', ':', '@', '&', '=', '+', '$', '.', '!', '~', '*', '\'', '(', ')'].contains c

/-- The characters that only a tag in angle brackets or a directive may hold besides. -/
def isVerbatimChar (c : Char) : Bool :=
  c == ',' || c == '[' || c == ']'

/-- The byte of a percent escape. -/
def percentByte : Scanner Nat := do
  match (← get).rest with
  | '%' :: a :: b :: _ =>
    let byte ← naturalIn? 16 [a, b]
    modify (·.advance 3)
    return byte
  | _ => failure

/-- How many bytes the escape of one character has, by its first byte. -/
def escapeLength? (byte : Nat) : Option Nat :=
  if byte < 0x80 then some 1
  else if 0xc0 ≤ byte ∧ byte < 0xe0 then some 2
  else if 0xe0 ≤ byte ∧ byte < 0xf0 then some 3
  else if 0xf0 ≤ byte ∧ byte < 0xf8 then some 4
  else none

/-- The further bytes of an escaped character. -/
def continuationBytes : (count : Nat) → Scanner Tag
  | 0 => return []
  | count + 1 => do
    let byte ← percentByte
    guard (0x80 ≤ byte ∧ byte < 0xc0)
    return UInt8.ofNat byte :: (← continuationBytes count)

/-- The bytes of an escaped character. -/
def percentEscape : Scanner Tag := do
  let byte ← percentByte
  let count ← escapeLength? byte
  return UInt8.ofNat byte :: (← continuationBytes (count - 1))

/-- The bytes at the front of the text that can belong to a tag. -/
def tagBytes (verbatim : Bool) : (bound : Nat) → Scanner Tag
  | 0 => failure
  | bound + 1 => do
    match (← get).rest with
    | '%' :: _ =>
      let bytes ← percentEscape
      return bytes ++ (← tagBytes verbatim bound)
    | c :: _ =>
      if isTagChar c || (verbatim && isVerbatimChar c) then
        modify (·.advance 1)
        return UInt8.ofNat c.toNat :: (← tagBytes verbatim bound)
      else return []
    | [] => return []

/-- The bytes at the front of the text that can belong to a tag, of which there must be one. -/
def someTagBytes (verbatim : Bool) : Scanner Tag := do
  let bytes ← tagBytes verbatim ((← get).rest.length + 1)
  guard (!bytes.isEmpty)
  return bytes

/-! ### Handles and tags -/

/-- An exclamation mark, a name that may be empty, and a closing exclamation mark if there is one.
-/
def handle : Scanner (List Char) := do
  guard ((← next) = '!')
  let name ← takeWhile isNameChar
  if (← get).rest.head? = some '!' then
    modify (·.advance 1)
    return '!' :: (name ++ ['!'])
  else return '!' :: name

/-- Whether a handle is closed by a second exclamation mark. -/
def isClosed (h : List Char) : Bool :=
  2 ≤ h.length && h.getLast? == some '!'

/-- A tag behind its handle. A handle that is not closed is the start of a tag in the scope of the
simple handle, and that handle alone is a tag of its own. -/
def tagBehind (handles : Handles) (h : List Char) : Scanner Tag := do
  if isClosed h then
    let bytes ← someTagBytes false
    let scope ← handles.lookup h
    return scope ++ bytes
  else
    let bytes := asciiBytes h.tail ++ (← tagBytes false ((← get).rest.length + 1))
    if bytes.isEmpty then return Tag.nonSpecific
    let scope ← handles.lookup ['!']
    return scope ++ bytes

/-- A tag from its exclamation mark. A blank or break must follow; inside brackets a comma may. -/
def tag (handles : Handles) (flow : Bool) : Scanner Tag := do
  let found ←
    match (← get).rest with
    | '!' :: '<' :: _ => do
      modify (·.advance 2)
      let bytes ← someTagBytes true
      guard ((← next) = '>')
      pure bytes
    | _ => do tagBehind handles (← handle)
  let rest := (← get).rest
  guard (atWordEnd rest || (flow && rest.head? == some ','))
  return found

end FakeQuant.Yaml
