import FakeQuant.Yaml.Document

/-!
# Anchors and aliases

Anchored nodes are numbered, and an alias stands for the node that has the number of its anchor at
the end of the document. A new anchor gets the count of the different names before it, so an anchor
that takes up an old name gets the same number as the next new one, which then replaces it.

`Document.resolve` puts scalars in place of aliases. It fails if an anchor is unknown or names the
mapping itself.
-/

namespace FakeQuant.Yaml

/-- A scalar of a document: its tag, its text and its style. -/
structure Scalar where
  tag : Option Tag
  text : List Char
  style : Style
deriving DecidableEq, Repr

/-- The scalar with these properties and this content. -/
def Scalar.ofContent (p : Properties) (content : ScalarText) : Scalar :=
  { tag := p.tag, text := content.text, style := content.style }

/-- The anchors that were met. -/
structure Anchors where
  /-- The number of each name, once for each name. -/
  numbers : List (List Char × Nat)
  /-- What the numbers stand for, the latest first; the mapping itself is no scalar. -/
  targets : List (Nat × Option Scalar)
deriving DecidableEq, Repr

namespace Anchors

/-- No anchors. -/
def empty : Anchors :=
  { numbers := [], targets := [] }

/-- The anchors with a new one for a node, if it has one. -/
def define (a : Anchors) (name : Option (List Char)) (target : Option Scalar) : Anchors :=
  match name with
  | none => a
  | some name =>
    let number := a.numbers.length
    { numbers := (name, number) :: a.numbers.filter (·.1 != name)
      targets := (number, target) :: a.targets }

end Anchors

/-- A scalar, or the number of an anchor. -/
inductive Reference where
  | direct (s : Scalar)
  | anchored (number : Nat)
deriving DecidableEq, Repr

/-- A node with the number in place of an anchor's name. -/
def Node.number (n : Node) : StateT Anchors Option Reference := do
  match n with
  | .scalar p content =>
    let s := Scalar.ofContent p content
    modify (·.define p.anchor (some s))
    return .direct s
  | .alias name =>
    let number ← (← get).numbers.lookup name
    return .anchored number

/-- The scalar that a reference stands for. -/
def Reference.resolve (a : Anchors) : Reference → Option Scalar
  | direct s => some s
  | anchored number => (a.targets.lookup number).join

/-- An entry with the numbers of anchors in place of their names. -/
def Entry.number (e : Entry) : StateT Anchors Option (Reference × Reference) := do
  let key ← e.1.number
  let value ← e.2.number
  return (key, value)

/-- The scalars that a pair of references stands for. -/
def resolvePair (a : Anchors) (pair : Reference × Reference) : Option (Scalar × Scalar) := do
  let key ← pair.1.resolve a
  let value ← pair.2.resolve a
  return (key, value)

/-- The entries of a document with scalars in place of aliases. -/
def Document.resolve : Document → Option (List (Scalar × Scalar))
  | .empty => some []
  | .mapping anchor entries => do
    let (pairs, anchors) ← (entries.mapM Entry.number).run (Anchors.empty.define anchor none)
    pairs.mapM (resolvePair anchors)

end FakeQuant.Yaml
