import FakeQuant.Yaml.Scalar

/-!
# Plain scalars

A plain scalar has no quotes. It ends in front of a colon at the end of a word, a comment behind a
blank, a document mark, and outside of brackets a line that is not set in far enough; inside
brackets it also ends at separators and brackets.
-/

namespace FakeQuant.Yaml

/-- Characters that have another meaning at the start of a scalar. -/
def isIndicator (c : Char) : Bool :=
  ['-', '?', ':', ',', '[', ']', '\x7b', '\x7d', '#', '&', '*', '!', '|', '>', '\'', '"', '%', '@',
    '\x60'].contains c

/-- Whether a plain scalar starts with this text. A hyphen may stand in front of a word, and
outside of brackets a question mark and a colon may. -/
def startsPlain (flow : Bool) : List Char → Bool
  | [] => false
  | c :: rest =>
    if c = '-' then !atWordEnd rest
    else if c = '?' ∨ c = ':' then !flow && !atWordEnd rest
    else !isBlank c && !isBreak c && !isIndicator c

/-- The word at the front of a text. Inside brackets a colon in front of a separator or bracket is
refused. -/
def plainWord (flow : Bool) : List Char → Option (List Char)
  | [] => some []
  | c :: rest =>
    if isBlank c || isBreak c then some []
    else if c = ':' then
      if flow && rest.head?.any isFlowIndicator then none
      else if atWordEnd rest then some []
      else (plainWord flow rest).map (c :: ·)
    else if flow && isFlowIndicator c then some []
    else (plainWord flow rest).map (c :: ·)

/-- Reads the words that follow a gap, and the gaps between them. Every word but the last is
followed by a blank or break, so the length of the text bounds their number. A key may follow where
a line ended. -/
def plainRest (flow : Bool) (indent : Nat) : (bound : Nat) → (text : List Char) → Gap →
    Scanner (List Char)
  | 0, _, _ => failure
  | bound + 1, text, before => do
    let c ← get
    if c.atMark ∨ c.rest.head? = some '#' then
      modify (·.setKeyAllowed before.broken)
      return text
    let word ← plainWord flow c.rest
    modify (·.advance word.length)
    if word = [] then
      modify (·.setKeyAllowed before.broken)
      return text
    let text := text ++ before.text ++ word
    let after ← gap indent .empty
    if flow = false ∧ (← get).column < indent then
      modify (·.setKeyAllowed after.broken)
      return text
    plainRest flow indent bound text after

/-- A plain scalar. Outside of brackets its lines must reach column `indent`. -/
def plainScalar (flow : Bool) (indent : Nat) : Scanner ScalarText := do
  let text ← plainRest flow indent ((← get).rest.length + 1) [] .empty
  return { text, style := .plain }

end FakeQuant.Yaml
