import FakeQuant.Yaml.Node

/-!
# Documents

A text holds at most one document. Directives and a start mark may stand in front of it and an end
mark behind it. The document is empty or one mapping whose keys and values are scalars and aliases.
The mapping is written by indentation, with all keys at one column, or in braces; a key is simple,
in front of a colon on its line, or it stands behind a question mark.

`Document.read` gives the document of a text. It fails on every other text.
-/

namespace FakeQuant.Yaml

/-- A key and its value. -/
abbrev Entry := Node × Node

/-- What a text holds. -/
inductive Document where
  | empty
  | mapping (anchor : Option (List Char)) (entries : List Entry)
deriving DecidableEq, Repr

/-! ### Entries -/

/-- A simple key is not longer than this. -/
def maxKeyLength : Nat := 1024

/-- Whether what is at `c` can belong to a simple key that starts at `start`. -/
def inKeyRange (start c : Cursor) : Bool :=
  c.line == start.line && c.offset ≤ start.offset + maxKeyLength

/-- Whether a colon that is a word of its own starts the text. -/
def startsColon : List Char → Bool
  | ':' :: rest => atWordEnd rest
  | _ => false

/-- Whether a question mark that is a word of its own starts the text. -/
def startsQuestion : List Char → Bool
  | '?' :: rest => atWordEnd rest
  | _ => false

/-- Takes a sign that comes before a node. -/
def sign (keyAllowed : Bool) : Scanner Unit :=
  modify fun c => (c.advance 1).setKeyAllowed keyAllowed

/-- An entry with a simple key, in a mapping at the given column. -/
def simpleEntry (handles : Handles) (column : Nat) : Scanner Entry := do
  let start ← get
  let key ← node handles .key
  toToken false
  let c ← get
  guard (inKeyRange start c && startsColon c.rest)
  sign false
  return (key, ← node handles (.value column))

/-- An entry with its key behind a question mark, in a mapping at the given column. The colon
stands at that column too. -/
def explicitEntry (handles : Handles) (column : Nat) : Scanner Entry := do
  sign true
  let key ← node handles (.value column)
  toToken false
  let c ← get
  if c.column = column ∧ startsColon c.rest then
    sign true
    return (key, ← node handles (.value column))
  else return (key, .empty .none)

/-- The entries at a column. Each takes one character at least, so the length of the text bounds
their number. -/
def entriesAt (handles : Handles) (column : Nat) : (bound : Nat) → Scanner (List Entry)
  | 0 => failure
  | bound + 1 => do
    toToken false
    let c ← get
    if c.rest.isEmpty ∨ c.column < column ∨ c.atMark then return []
    guard (c.column = column)
    let entry ←
      if startsQuestion c.rest then explicitEntry handles column else simpleEntry handles column
    return entry :: (← entriesAt handles column bound)

/-- An entry inside braces. Its value may be missing. -/
def flowEntry (handles : Handles) : Scanner Entry := do
  let start ← get
  let isExplicit := start.rest.head? = some '?'
  if isExplicit then sign false
  let key ← node handles .brackets
  toToken true
  let c ← get
  if c.rest.head? = some ':' then
    guard (isExplicit || inKeyRange start c)
    sign false
    return (key, ← node handles .brackets)
  else return (key, .empty .none)

/-- The entries behind an opening brace, with the closing one. A comma may stand behind the last. -/
def flowEntries (handles : Handles) : (bound : Nat) → Scanner (List Entry)
  | 0 => failure
  | bound + 1 => do
    toToken true
    if (← get).rest.head? = some '\x7d' then
      sign false
      return []
    let entry ← flowEntry handles
    toToken true
    match (← get).rest.head? with
    | some ',' =>
      sign true
      return entry :: (← flowEntries handles bound)
    | some '\x7d' =>
      sign false
      return [entry]
    | _ => failure

/-! ### The root -/

/-- Reads the root of a document. `outer` holds the properties from earlier lines, which belong to
the root, and `own` those on the line that starts at `line`: they belong to the first key if one
follows on that line. A key needs a line on which it is allowed. -/
def rootFrom (handles : Handles) : (bound : Nat) → (outer own : Properties) → (line : Cursor) →
    Scanner Document
  | 0, _, _, _ => failure
  | bound + 1, outer, own, line => do
    toToken false
    let c ← get
    let isNew := c.line != line.line
    let outer ← if isNew then outer.merge own else pure outer
    let own := if isNew then .none else own
    let line := if isNew || own.isEmpty then c else line
    if c.rest.isEmpty ∨ c.atMark then return .empty
    match ← property? handles false own with
    | some own => rootFrom handles bound outer own line
    | none =>
      if c.rest.head? = some '\x7b' then
        let root ← outer.merge own
        sign true
        return .mapping root.anchor (← flowEntries handles c.rest.length)
      else
        guard line.keyAllowed
        set line
        return .mapping outer.anchor (← entriesAt handles line.column (line.rest.length + 1))

/-- The root of a document. -/
def root (handles : Handles) : Scanner Document := do
  let c ← get
  rootFrom handles (c.rest.length + 1) .none .none c

/-! ### Directives and marks -/

/-- Numbers in a version have at most this many digits. -/
def maxVersionDigits : Nat := 9

/-- A number in a version. -/
def versionNumber : Scanner Nat := do
  let digits ← takeWhile Char.isDigit
  guard (!digits.isEmpty && digits.length ≤ maxVersionDigits)
  return Nat.ofDigitChars 10 digits 0

/-- The version in its directive, which must be 1.1 or 1.2. -/
def version : Scanner Unit := do
  let major ← versionNumber
  guard ((← next) = '.')
  let minor ← versionNumber
  guard (major = 1 ∧ (minor = 1 ∨ minor = 2))

/-- A handle and what it stands for, in their directive. -/
def handleMeaning : Scanner (List Char × Tag) := do
  let h ← handle
  guard (isClosed h || h == ['!'])
  guard ((← get).rest.head?.any isBlank)
  let _ ← takeWhile isBlank
  let meaning ← someTagBytes true
  guard (atWordEnd (← get).rest)
  return (h, meaning)

/-- What the directives of a document say. -/
structure Directives where
  hasVersion : Bool
  handles : Handles
deriving DecidableEq, Repr

/-- Whether there was no directive. -/
def Directives.isEmpty (d : Directives) : Bool :=
  !d.hasVersion && d.handles.isEmpty

/-- Reads one more directive. There is one version at most, and one meaning for each handle. -/
def directive (d : Directives) : Scanner Directives := do
  modify (·.advance 1)
  let name ← takeWhile isNameChar
  guard (atWordEnd (← get).rest)
  let _ ← takeWhile isBlank
  let d ←
    if name = "YAML".toList then do
      guard (!d.hasVersion)
      version
      pure { d with hasVersion := true }
    else if name = "TAG".toList then do
      let (h, meaning) ← handleMeaning
      guard (d.handles.lookup h).isNone
      pure { d with handles := (h, meaning) :: d.handles }
    else failure
  lineEnd
  let _ ← lineBreak
  modify (·.setKeyAllowed false)
  return d

/-- Reads the directives in front of a document. -/
def directivesFrom : (bound : Nat) → Directives → Scanner Directives
  | 0, _ => failure
  | bound + 1, d => do
    toToken false
    if (← get).atDirective then directivesFrom bound (← directive d) else return d

/-- Takes a mark, which has three characters. -/
def mark : Scanner Unit :=
  modify fun c => (c.advance 3).setKeyAllowed false

/-- Reads what may follow a document: end marks, blanks and comments. -/
def documentEnd : (bound : Nat) → Scanner Unit
  | 0 => failure
  | bound + 1 => do
    toToken false
    let c ← get
    if c.rest.isEmpty then return
    guard c.atEndMark
    mark
    documentEnd bound

/-- The document of a text from its start. A document without a start mark has no directives and
does not start with an end mark. -/
def document : Scanner Document := do
  let bound := (← get).rest.length + 1
  let d ← directivesFrom bound { hasVersion := false, handles := [] }
  let c ← get
  if c.atStartMark then mark else guard (d.isEmpty && !c.atEndMark)
  let found ← root (d.handles ++ standardHandles)
  documentEnd bound
  return found

/-- The document of a text. -/
def Document.read (text : List Char) : Option Document :=
  if text.all isAllowed then (document.run (.ofText text)).map Prod.fst else none

end FakeQuant.Yaml
