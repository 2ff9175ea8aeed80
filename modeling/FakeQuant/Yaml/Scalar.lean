import FakeQuant.Yaml.Cursor

/-!
# Scalars and the folding of lines

A scalar is a text in one of several styles. Plain and quoted scalars may run over several lines: a
single line break between words counts as a blank, and of several breaks in a row all but the first
count. What stands between two words is a `Gap`.
-/

namespace FakeQuant.Yaml

/-- How a scalar is written. -/
inductive Style where
  | plain
  | quoted
  | literal
  | folded
deriving DecidableEq, Repr

/-- The text of a scalar and how it was written. -/
structure ScalarText where
  text : List Char
  style : Style
deriving DecidableEq, Repr

/-- What stands between two words of a scalar. -/
structure Gap where
  /-- Blanks that belong to the text if no break follows. -/
  blanks : List Char
  /-- Whether a line ended. -/
  broken : Bool
  /-- The break of that line, or nothing if it was escaped. -/
  first : List Char
  /-- The breaks of the empty lines that follow. -/
  more : List Char
deriving DecidableEq, Repr

namespace Gap

/-- The gap before anything was read. -/
def empty : Gap :=
  { blanks := [], broken := false, first := [], more := [] }

/-- The gap behind an escaped line break. -/
def escapedBreak : Gap :=
  { empty with broken := true }

/-- The gap with one more blank. Blanks that start a line do not count. -/
def addBlank (g : Gap) (c : Char) : Gap :=
  if g.broken then g else { g with blanks := g.blanks ++ [c] }

/-- The gap with one more line break. -/
def addBreak (g : Gap) (c : Char) : Gap :=
  if g.broken then { g with more := g.more ++ [c] } else { g with broken := true, first := [c] }

/-- The text that breaks between words stand for. -/
def foldBreaks (first more : List Char) : List Char :=
  if first = ['\n'] then if more.isEmpty then [' '] else more else first ++ more

/-- The text that the gap stands for. -/
def text (g : Gap) : List Char :=
  if g.broken then foldBreaks g.first g.more else g.blanks

end Gap

/-- Reads the rest of a gap in a text, which stands at `c`. A tab in the indentation of a line must
not stand left of column `tabsFrom`. -/
def gapFrom (tabsFrom : Nat) (g : Gap) (c : Cursor) : List Char → Option (Gap × Cursor)
  | [] => some (g, c.withRest [])
  | '\r' :: '\n' :: rest => gapFrom tabsFrom (g.addBreak '\n') (c.nextLine 2) rest
  | ch :: rest =>
    if isBreak ch then gapFrom tabsFrom (g.addBreak (normalBreak ch)) (c.nextLine 1) rest
    else if isBlank ch then
      if g.broken ∧ ch = '\t' ∧ c.column < tabsFrom then none
      else gapFrom tabsFrom (g.addBlank ch) (c.shift 1) rest
    else some (g, c.withRest (ch :: rest))

/-- Reads a gap, of which `start` was read before. -/
def gap (tabsFrom : Nat) (start : Gap) : Scanner Gap := fun c =>
  gapFrom tabsFrom start c c.rest

end FakeQuant.Yaml
