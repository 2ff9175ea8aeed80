import FakeQuant.Yaml.Scalar

/-!
# Block scalars

A block scalar is a text of whole lines that are set in. A header says whether its lines are kept or
folded, how far they are set in, and what becomes of the breaks at the end. Lines are folded only
between lines that do not start with a further blank.
-/

namespace FakeQuant.Yaml

/-- What becomes of the breaks at the end. -/
inductive Chomping where
  /-- The last line keeps its break. -/
  | clip
  /-- All are dropped. -/
  | strip
  /-- All are kept. -/
  | keep
deriving DecidableEq, Repr

/-- The header of a block scalar. -/
structure BlockHeader where
  style : Style
  chomping : Chomping
  /-- How far the text is set in from its surroundings, if that is said. -/
  increment : Option Nat
deriving DecidableEq, Repr

/-- The sign that says what becomes of the breaks at the end, if there is one. -/
def chomping? : Scanner (Option Chomping) := do
  match (← get).rest with
  | '+' :: _ => modify (·.advance 1); return some .keep
  | '-' :: _ => modify (·.advance 1); return some .strip
  | _ => return none

/-- The digit that says how far the text is set in, if there is one. It is not zero. -/
def increment? : Scanner (Option Nat) := do
  match (← get).rest with
  | c :: _ =>
    if c.isDigit then
      guard (c ≠ '0')
      modify (·.advance 1)
      return some (c.toNat - '0'.toNat)
    else return none
  | [] => return none

/-- The header of a block scalar with the break behind it. Sign and digit may stand in any order. -/
def blockHeader : Scanner BlockHeader := do
  let style := if (← next) = '|' then Style.literal else Style.folded
  let early ← chomping?
  let increment ← increment?
  let late ← if early.isNone then chomping? else pure none
  lineEnd
  let _ ← lineBreak
  return { style, chomping := (early <|> late).getD .clip, increment }

/-- Reads empty lines and the indentation of the next line in a text, which stands at `c`: up to
column `indent`, or as far as it goes if that is not known. A tab may not stand in it. Returns the
breaks, and the deepest column that was reached. -/
def indentationFrom (indent : Option Nat) (breaks : List Char) (deepest : Nat) (c : Cursor) :
    List Char → Option ((List Char × Nat) × Cursor)
  | [] => some ((breaks, max deepest c.column), c.withRest [])
  | '\r' :: '\n' :: rest =>
    indentationFrom indent (breaks ++ ['\n']) (max deepest c.column) (c.nextLine 2) rest
  | ch :: rest =>
    let inside := indent.all (c.column < ·)
    if isBreak ch then
      indentationFrom indent (breaks ++ [normalBreak ch]) (max deepest c.column) (c.nextLine 1) rest
    else if inside ∧ ch = ' ' then indentationFrom indent breaks deepest (c.shift 1) rest
    else if inside ∧ ch = '\t' then none
    else some ((breaks, max deepest c.column), c.withRest (ch :: rest))

/-- Reads empty lines and the indentation of the next line. -/
def indentation (indent : Option Nat) : Scanner (List Char × Nat) := fun c =>
  indentationFrom indent [] 0 c c.rest

/-- What was read of a block scalar: the text, the break behind its last line, the breaks of empty
lines behind that, and whether its last line starts with a blank. -/
structure BlockText where
  text : List Char
  first : List Char
  more : List Char
  blankStart : Bool
deriving DecidableEq, Repr

/-- Reads the lines that start at column `indent`. Each takes one character at least, so the length
of the text bounds their number. -/
def blockLines (style : Style) (indent : Nat) : (bound : Nat) → BlockText → Scanner BlockText
  | 0, _ => failure
  | bound + 1, b => do
    let c ← get
    if c.column ≠ indent ∨ c.rest.isEmpty then return b
    let blank := c.rest.head?.any isBlank
    let folds := style = .folded ∧ b.first = ['\n'] ∧ b.blankStart = false ∧ blank = false
    let join := if folds then (if b.more.isEmpty then [' '] else []) else b.first
    let line ← takeWhile (!isBreak ·)
    let first ← lineBreak
    let (more, _) ← indentation (some indent)
    blockLines style indent bound
      { text := b.text ++ join ++ b.more ++ line, first, more, blankStart := blank }

/-- A block scalar, from its sign, inside a mapping at column `outer`. Behind it a key may follow.
-/
def blockScalar (outer : Nat) : Scanner ScalarText := do
  let header ← blockHeader
  let given := header.increment.map (outer + ·)
  let (more, deepest) ← indentation given
  let indent := given.getD (max deepest (outer + 1))
  let b ← blockLines header.style indent ((← get).rest.length + 1)
    { text := [], first := [], more, blankStart := false }
  modify (·.setKeyAllowed true)
  let text := match header.chomping with
    | .strip => b.text
    | .clip => b.text ++ b.first
    | .keep => b.text ++ b.first ++ b.more
  return { text, style := header.style }

end FakeQuant.Yaml
