import FakeQuant.Json.Decoder
import FakeQuant.Text.Basic

/-!
# JSON strings

A string stands in double quotes. A backslash introduces an escape: a letter for one of the usual
characters, or `u` and four hexadecimal digits for a code unit of sixteen bits. Characters past the
sixteen bits are escaped as a leading and a trailing surrogate, and neither may stand alone. Control
characters must be escaped.

`skipString` passes over a string whose contents do not matter; it does not look at how surrogates
are paired.
-/

namespace FakeQuant.Json

/-- The number of bytes of a text. -/
def byteLength (text : List Char) : Nat :=
  text.foldl (fun n c => n + c.utf8Size) 0

/-- The code unit that four hexadecimal digits stand for. The text counts as too short only if fewer
than four bytes are left of it. -/
def codeUnit : Decoder Nat := do
  let text ← get
  if byteLength (text.take 4) < 4 then throw .truncated
  match naturalIn? 16 (text.take 4) with
  | some unit => set (text.drop 4); return unit
  | none => throw .malformed

/-- The code units that lead a pair. -/
def isLeading (unit : Nat) : Bool :=
  0xd800 ≤ unit && unit < 0xdc00

/-- The code units that end a pair. -/
def isTrailing (unit : Nat) : Bool :=
  0xdc00 ≤ unit && unit < 0xe000

/-- Takes the given character, which must stand right here. -/
def exactly (c : Char) : Decoder Unit := do
  if (← next) = c then return else throw .malformed

/-- The character whose one or two code units follow. -/
def escapedUnits : Decoder Char := do
  let unit ← codeUnit
  if isTrailing unit then throw .malformed
  if isLeading unit then
    exactly '\\'
    exactly 'u'
    let trailing ← codeUnit
    if isTrailing trailing then
      return Char.ofNat (0x10000 + 1024 * (unit - 0xd800) + (trailing - 0xdc00))
    else throw .malformed
  return Char.ofNat unit

/-- The character that a letter stands for behind a backslash. -/
def escapedLetter? (c : Char) : Option Char :=
  if c = '"' ∨ c = '\\' ∨ c = '/' then some c
  else if c = 'b' then some '\x08'
  else if c = 'f' then some '\x0c'
  else if c = 'n' then some '\n'
  else if c = 'r' then some '\r'
  else if c = 't' then some '\t'
  else none

/-- The character of an escape behind its backslash. -/
def escaped : Decoder Char := do
  let c ← next
  if c = 'u' then escapedUnits
  else match escapedLetter? c with
    | some meant => return meant
    | none => throw .malformed

/-- The characters up to the closing quote. Each takes one character of the text at least, so the
length of the text bounds their number. -/
def quotedRest : (bound : Nat) → Decoder (List Char)
  | 0 => throw .truncated
  | bound + 1 => do
    let c ← next
    if c = '"' then return []
    else if c = '\\' then
      let meant ← escaped
      return meant :: (← quotedRest bound)
    else if c.toNat < 0x20 then throw .malformed
    else return c :: (← quotedRest bound)

/-- A string at the front of the text. -/
def string : Decoder String := do
  expect '"'
  return String.ofList (← quotedRest ((← get).length + 1))

/-- Passes over an escape behind its backslash. -/
def skipEscaped : Decoder Unit := do
  let c ← next
  if c = 'u' then
    let _ ← codeUnit
  else if (escapedLetter? c).isNone then throw .malformed

/-- Passes over the characters up to the closing quote. -/
def skipQuotedRest : (bound : Nat) → Decoder Unit
  | 0 => throw .truncated
  | bound + 1 => do
    let c ← next
    if c = '"' then return
    else if c = '\\' then
      skipEscaped
      skipQuotedRest bound
    else if c.toNat < 0x20 then throw .malformed
    else skipQuotedRest bound

/-- Passes over a string. -/
def skipString : Decoder Unit := do
  expect '"'
  skipQuotedRest ((← get).length + 1)

end FakeQuant.Json
