import FakeQuant.Yaml.Block
import FakeQuant.Yaml.Plain
import FakeQuant.Yaml.Quoted
import FakeQuant.Yaml.Tag

/-!
# Nodes

The keys and values of a mapping are scalars, which may have an anchor and a tag, or aliases of
anchored nodes. Where a node may stand depends on its surroundings: a value of a mapping that is
written by indentation stands to the right of the keys, on one or more lines; a simple key stands
on one line; in brackets there is no rule about columns. A value that is missing is an empty plain
scalar.

Collections inside collections are not read: `node` fails on them.
-/

namespace FakeQuant.Yaml

/-- The anchor and the tag of a node. -/
structure Properties where
  anchor : Option (List Char)
  tag : Option Tag
deriving DecidableEq, Repr

namespace Properties

/-- Neither anchor nor tag. -/
def none : Properties :=
  { anchor := .none, tag := .none }

/-- Whether there is neither. -/
def isEmpty (p : Properties) : Bool :=
  p.anchor.isNone && p.tag.isNone

/-- The properties of both, if no kind is in both. -/
def merge (p q : Properties) : Option Properties :=
  if (p.anchor.isSome && q.anchor.isSome) || (p.tag.isSome && q.tag.isSome) then .none
  else some { anchor := p.anchor <|> q.anchor, tag := p.tag <|> q.tag }

end Properties

/-- A key or a value of a mapping. -/
inductive Node where
  | scalar (properties : Properties) (content : ScalarText)
  | alias (name : List Char)
deriving DecidableEq, Repr

namespace Node

/-- The node that stands for a missing one. -/
def empty (properties : Properties) : Node :=
  .scalar properties { text := [], style := .plain }

/-- A scalar that is not missing. The exclamation mark alone is no tag for it. -/
def ofContent (properties : Properties) (content : ScalarText) : Node :=
  .scalar { properties with tag := properties.tag.filter (· != Tag.nonSpecific) } content

end Node

/-- What a node stands in. -/
inductive Surroundings where
  /-- Behind the colon, or the question mark, of a mapping whose keys start at this column. -/
  | value (column : Nat)
  /-- In front of the colon, outside of brackets. -/
  | key
  /-- Inside brackets. -/
  | brackets
deriving DecidableEq, Repr

namespace Surroundings

/-- Whether the node is inside brackets. -/
def isFlow : Surroundings → Bool
  | brackets => true
  | value _ | key => false

/-- Whether a place is past the room for the node. -/
def isPast (s : Surroundings) (c : Cursor) : Bool :=
  match s with
  | value column => c.rest.isEmpty || c.column ≤ column
  | key | brackets => false

/-- The column that further lines of a plain scalar must reach. -/
def indent : Surroundings → Nat
  | value column => column + 1
  | key | brackets => 0

end Surroundings

/-- Whether an anchor or alias may end in front of this text. -/
def atNameEnd (text : List Char) : Bool :=
  atWordEnd text || text.head?.any ['?', ':', ',', ']', '\x7d', '%', '@', '\x60'].contains

/-- The name of an anchor or alias behind its sign. -/
def anchorName : Scanner (List Char) := do
  modify (·.advance 1)
  let name ← takeWhile isNameChar
  guard (!name.isEmpty && atNameEnd (← get).rest)
  modify (·.setKeyAllowed false)
  return name

/-- Reads one more property, if one starts here. A node has one of each kind. -/
def property? (handles : Handles) (flow : Bool) (p : Properties) : Scanner (Option Properties) := do
  match (← get).rest with
  | '&' :: _ =>
    let q ← p.merge { anchor := some (← anchorName), tag := none }
    return some q
  | '!' :: _ =>
    let q ← p.merge { anchor := none, tag := some (← tag handles flow) }
    modify (·.setKeyAllowed false)
    return some q
  | _ => return none

/-- Reads properties as long as there is room for the node; `bound` is above their number. -/
def propertiesFrom (handles : Handles) (s : Surroundings) : (bound : Nat) → Properties →
    Scanner Properties
  | 0, _ => failure
  | bound + 1, p => do
    if s.isPast (← get) then return p
    match ← property? handles s.isFlow p with
    | none => return p
    | some q =>
      toToken s.isFlow
      propertiesFrom handles s bound q

/-- The properties of a node. There are two kinds. -/
def properties (handles : Handles) (s : Surroundings) : Scanner Properties :=
  propertiesFrom handles s 3 .none

/-- Whether a node inside brackets is missing in front of this text. -/
def missesNode (text : List Char) : Bool :=
  text.head?.any [',', ':', '?', '\x7d'].contains

/-- A key or a value. -/
def node (handles : Handles) (s : Surroundings) : Scanner Node := do
  toToken s.isFlow
  let p ← properties handles s
  let c ← get
  if s.isPast c then return .empty p
  guard (!c.atMark)
  match c.rest, s with
  | '*' :: _, _ =>
    guard p.isEmpty
    return .alias (← anchorName)
  | '\'' :: _, _ | '"' :: _, _ => return .ofContent p (← quotedScalar)
  | '|' :: _, .value column | '>' :: _, .value column =>
    return .ofContent p (← blockScalar column)
  | rest, _ =>
    if startsPlain s.isFlow rest then return .ofContent p (← plainScalar s.isFlow s.indent)
    else
      guard (s.isFlow && missesNode rest)
      return .empty p

end FakeQuant.Yaml
