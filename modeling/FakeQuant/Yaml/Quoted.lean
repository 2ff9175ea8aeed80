import FakeQuant.Text.Basic
import FakeQuant.Yaml.Scalar

/-!
# Quoted scalars

Between single quotes every character stands for itself and a quote is written twice. Between double
quotes a backslash introduces an escape: a letter or sign for one character, a hexadecimal number of
two, four or eight digits for any character, or a line break that does not count.
-/

namespace FakeQuant.Yaml

/-- The character that a letter or sign stands for behind a backslash. -/
def escapedChar? (c : Char) : Option Char :=
  [('0', '\x00'), ('a', '\x07'), ('b', '\x08'), ('t', '\t'), ('\t', '\t'), ('n', '\n'),
    ('v', '\x0b'), ('f', '\x0c'), ('r', '\r'), ('e', '\x1b'), (' ', ' '), ('"', '"'),
    ('/', '/'), ('\\', '\\'), ('N', '\x85'), ('_', '\xa0'), ('L', '\u2028'),
    ('P', '\u2029')].lookup c

/-- How many hexadecimal digits a letter asks for behind a backslash. -/
def escapeWidth? (c : Char) : Option Nat :=
  [('x', 2), ('u', 4), ('U', 8)].lookup c

/-- The character of a number, if it is one. -/
def charOfNumber? (n : Nat) : Option Char :=
  if n.isValidChar then some (Char.ofNat n) else none

/-- The character of an escape behind its backslash. -/
def escape : Scanner Char := do
  let c ← next
  match escapedChar? c, escapeWidth? c with
  | some meant, _ => return meant
  | none, some width => do
    let digits := (← get).rest.take width
    guard (digits.length = width)
    let meant ← (naturalIn? 16 digits).bind charOfNumber?
    modify (·.advance width)
    return meant
  | none, none => failure

/-- The characters up to a blank, a break or the closing single quote. -/
def singleWord : (bound : Nat) → Scanner (List Char)
  | 0 => failure
  | bound + 1 => do
    match (← get).rest with
    | '\'' :: '\'' :: _ =>
      modify (·.advance 2)
      return '\'' :: (← singleWord bound)
    | c :: _ =>
      if c = '\'' ∨ isBlank c ∨ isBreak c then return []
      else
        modify (·.advance 1)
        return c :: (← singleWord bound)
    | [] => return []

/-- The characters up to a blank, a break or the closing double quote, and whether they end with an
escaped line break. -/
def doubleWord : (bound : Nat) → Scanner (List Char × Bool)
  | 0 => failure
  | bound + 1 => do
    match (← get).rest with
    | '\\' :: c :: _ =>
      modify (·.advance 1)
      if isBreak c then
        let _ ← lineBreak
        return ([], true)
      else
        let meant ← escape
        let (word, broken) ← doubleWord bound
        return (meant :: word, broken)
    | c :: _ =>
      if c = '"' ∨ isBlank c ∨ isBreak c then return ([], false)
      else if c = '\\' then failure
      else
        modify (·.advance 1)
        let (word, broken) ← doubleWord bound
        return (c :: word, broken)
    | [] => return ([], false)

/-- Reads words, and the gaps between them, up to the closing quote. A document mark is refused. -/
def quotedRest (quote : Char) (word : Scanner (List Char × Bool)) : (bound : Nat) →
    (text : List Char) → Scanner (List Char)
  | 0, _ => failure
  | bound + 1, text => do
    let c ← get
    guard (!c.atMark && !c.rest.isEmpty)
    let (found, broken) ← word
    let text := text ++ found
    if (← get).rest.head? = some quote then
      modify (·.advance 1)
      return text
    let between ← gap 0 (if broken then .escapedBreak else .empty)
    quotedRest quote word bound (text ++ between.text)

/-- A quoted scalar from its opening quote. -/
def quotedScalar : Scanner ScalarText := do
  let quote ← next
  let bound := (← get).rest.length + 1
  let word := if quote = '"' then doubleWord bound else do return (← singleWord bound, false)
  let text ← quotedRest quote word bound []
  modify (·.setKeyAllowed false)
  return { text, style := .quoted }

end FakeQuant.Yaml
