import FakeQuant.Yaml.Character

/-!
# Places in a document

Indentation gives a document its structure, so a place in it is known by line and column, besides
by the text that remains. A `Cursor` also knows whether a key of a mapping may start at it: at the
start of a line it may, behind most other things it may not, and where it may not, tabs count as
blanks.

`Cursor.toToken` moves over what has no meaning: blanks, comments and line breaks.
-/

namespace FakeQuant.Yaml

/-- A place in a document. -/
structure Cursor where
  /-- The text from here on. -/
  rest : List Char
  line : Nat
  column : Nat
  /-- The number of characters before the place. -/
  offset : Nat
  /-- Whether a key may start here. -/
  keyAllowed : Bool
deriving DecidableEq, Repr

/-- A reader of a document, which fails on documents it does not take. -/
abbrev Scanner := StateT Cursor Option

namespace Cursor

/-- The start of a text. A byte order mark there takes a column but has no meaning. -/
def ofText (text : List Char) : Cursor :=
  match text with
  | [] => { rest := [], line := 0, column := 0, offset := 0, keyAllowed := true }
  | c :: rest =>
    if c = byteOrderMark then { rest, line := 0, column := 1, offset := 1, keyAllowed := true }
    else { rest := c :: rest, line := 0, column := 0, offset := 0, keyAllowed := true }

/-- The place `n` characters further on the line, apart from the text there. -/
def shift (c : Cursor) (n : Nat) : Cursor :=
  { c with column := c.column + n, offset := c.offset + n }

/-- The start of the next line behind a break of `width` characters, apart from the text there. -/
def nextLine (c : Cursor) (width : Nat) : Cursor :=
  { c with line := c.line + 1, column := 0, offset := c.offset + width }

/-- The place with another text from there on. -/
def withRest (c : Cursor) (rest : List Char) : Cursor :=
  { c with rest }

/-- The place `n` characters further on the line. -/
def advance (c : Cursor) (n : Nat) : Cursor :=
  (c.shift n).withRest (c.rest.drop n)

/-- The place with a decision about keys. -/
def setKeyAllowed (c : Cursor) (keyAllowed : Bool) : Cursor :=
  { c with keyAllowed }

/-- Whether a word of three such characters starts the text. -/
def startsTriple (mark : Char) : List Char → Bool
  | a :: b :: c :: rest => a == mark && b == mark && c == mark && atWordEnd rest
  | _ => false

/-- Whether a line starts here with the mark of a document's start. -/
def atStartMark (c : Cursor) : Bool :=
  c.column == 0 && startsTriple '-' c.rest

/-- Whether a line starts here with the mark of a document's end. -/
def atEndMark (c : Cursor) : Bool :=
  c.column == 0 && startsTriple '.' c.rest

/-- Whether a line starts here with either mark. -/
def atMark (c : Cursor) : Bool :=
  c.atStartMark || c.atEndMark

/-- Whether a line starts here with a directive. -/
def atDirective (c : Cursor) : Bool :=
  c.column == 0 && c.rest.head? == some '%'

/-- Moves over what has no meaning in a text, which stands at `c`. -/
def tokenFrom (flow comment : Bool) (c : Cursor) : List Char → Cursor
  | [] => c.withRest []
  | '\r' :: '\n' :: rest =>
    tokenFrom flow false ((c.nextLine 2).setKeyAllowed (!flow || c.keyAllowed)) rest
  | ch :: rest =>
    if isBreak ch then
      tokenFrom flow false ((c.nextLine 1).setKeyAllowed (!flow || c.keyAllowed)) rest
    else if comment || ch == ' ' || (ch == '\t' && (flow || !c.keyAllowed)) then
      tokenFrom flow comment (c.shift 1) rest
    else if ch == '#' then tokenFrom flow true (c.shift 1) rest
    else c.withRest (ch :: rest)

/-- Moves to the next character with a meaning; `flow` tells whether the place is inside brackets.
A new line outside of brackets allows a key. -/
def toToken (flow : Bool) (c : Cursor) : Cursor :=
  tokenFrom flow false c c.rest

end Cursor

/-- Takes the next character of the line. -/
def next : Scanner Char := do
  match (← get).rest with
  | [] => failure
  | ch :: _ =>
    modify (·.advance 1)
    return ch

/-- The characters in front that pass a test; they must be of one line. -/
def takeWhile (test : Char → Bool) : Scanner (List Char) := do
  let taken := (← get).rest.takeWhile test
  modify (·.advance taken.length)
  return taken

/-- Takes a line break, if there is one: as it counts in a text, or as nothing. -/
def lineBreak : Scanner (List Char) := do
  let c ← get
  match c.rest with
  | '\r' :: '\n' :: rest =>
    set ((c.nextLine 2).withRest rest)
    return ['\n']
  | ch :: rest =>
    if isBreak ch then
      set ((c.nextLine 1).withRest rest)
      return [normalBreak ch]
    else return []
  | [] => return []

/-- Takes the rest of a line that may only hold blanks and a comment, without its break. The comment
need not be set off by a blank. -/
def lineEnd : Scanner Unit := do
  let _ ← takeWhile isBlank
  if (← get).rest.head? = some '#' then
    let _ ← takeWhile (!isBreak ·)
  guard ((← get).rest.head?.all isBreak)

/-- Moves to the next character with a meaning. -/
def toToken (flow : Bool) : Scanner Unit :=
  modify (·.toToken flow)

end FakeQuant.Yaml
