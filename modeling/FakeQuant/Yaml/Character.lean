/-!
# Characters of YAML documents

Which characters a document may contain, and which of them are blanks, line breaks, and parts of
names.
-/

namespace FakeQuant.Yaml

/-- Whether a document may contain the character: no control characters except the usual blanks. -/
def isAllowed (c : Char) : Bool :=
  let n := c.toNat
  n == 0x09 || n == 0x0a || n == 0x0d || (0x20 ≤ n && n ≤ 0x7e) || n == 0x85 ||
    (0xa0 ≤ n && n ≤ 0xfffd) || 0x10000 ≤ n

/-- Blanks within a line. -/
def isBlank (c : Char) : Bool :=
  c == ' ' || c == '\t'

/-- The characters that end a line. -/
def isBreak (c : Char) : Bool :=
  c == '\n' || c == '\r' || c == '\x85' || c == '\u2028' || c == '\u2029'

/-- How a line break counts in a text: those of the Unicode separators stay, all others are one. -/
def normalBreak (c : Char) : Char :=
  if c == '\u2028' || c == '\u2029' then c else '\n'

/-- Letters, digits, the underscore and the hyphen. -/
def isNameChar (c : Char) : Bool :=
  c.isAlphanum || c == '_' || c == '-'

/-- Whether a word ends in front of this text. -/
def atWordEnd : List Char → Bool
  | [] => true
  | c :: _ => isBlank c || isBreak c

/-- Brackets and separators of collections in brackets. -/
def isFlowIndicator (c : Char) : Bool :=
  c == ',' || c == '?' || c == '[' || c == ']' || c == '\x7b' || c == '\x7d'

/-- The mark in front of the text of a file. -/
def byteOrderMark : Char :=
  '\ufeff'

end FakeQuant.Yaml
