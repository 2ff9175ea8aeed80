/-!
# Decoders of JSON text

A `Decoder` reads a value from the front of a text and leaves what remains, or stops with the fault
at the first character it cannot accept. What it met there falls into one of three classes
(`Fault`), whatever the exact cause. Everything reads from left to right, so of two faults the
earlier one is reported. `Decoder.run` demands that nothing but blanks remains.

`foldItems` is the one loop over the items of a list or an object; it reads the commas and the
closing bracket, and a step function reads each item.
-/

namespace FakeQuant.Json

/-- Why a text was not accepted. -/
inductive Fault where
  /-- The text is not JSON at this point, or a number is too large. -/
  | malformed
  /-- The text ends too early. -/
  | truncated
  /-- The text is JSON here, but not of the wanted kind. -/
  | mismatched
deriving DecidableEq, Repr

/-- The name of the class. -/
def Fault.label : Fault → String
  | malformed => "Syntax"
  | truncated => "Eof"
  | mismatched => "Data"

/-- A reader from the front of a text. -/
abbrev Decoder := StateT (List Char) (Except Fault)

/-- The blanks between tokens. -/
def isBlank (c : Char) : Bool :=
  c == ' ' || c == '\n' || c == '\t' || c == '\r'

/-- Drops the blanks in front. -/
def skipBlanks : Decoder Unit :=
  modify (List.dropWhile isBlank)

/-- Takes the next character, which may be a blank. -/
def next : Decoder Char := do
  match ← get with
  | [] => throw .truncated
  | c :: rest => set rest; return c

/-- The next character behind blanks. It stays in the text. -/
def peek : Decoder Char := do
  skipBlanks
  match ← get with
  | [] => throw .truncated
  | c :: _ => return c

theorem next_cons (c : Char) (rest : List Char) : next (c :: rest) = .ok (c, rest) := rfl

/-- What is in front is the first character that is no blank, if there is one. -/
theorem peek_eq (text : List Char) :
    peek text = match text.dropWhile isBlank with
      | [] => .error .truncated
      | c :: rest => .ok (c, c :: rest) := by
  show (match text.dropWhile isBlank with
    | [] => throw .truncated
    | c :: _ => pure c : Decoder Char) (text.dropWhile isBlank) = _
  cases text.dropWhile isBlank <;> rfl

/-- A character that is no blank stays in front. -/
theorem peek_cons {c : Char} {rest : List Char} (h : isBlank c = false) :
    peek (c :: rest) = .ok (c, c :: rest) := by
  rw [peek_eq, List.dropWhile_cons_of_neg (by simp [h])]

/-- Takes the given character behind blanks. -/
def expect (c : Char) : Decoder Unit := do
  if (← peek) = c then modify List.tail else throw .malformed

theorem expect_cons {c : Char} {rest : List Char} (h : isBlank c = false) :
    expect c (c :: rest) = .ok ((), rest) := by
  simp only [expect, bind, StateT.bind, Except.bind, peek_cons h, if_pos]
  rfl

/-- Takes the given characters. -/
def word : List Char → Decoder Unit
  | [] => return
  | c :: rest => do if (← next) = c then word rest else throw .malformed

/-- Takes the characters in front that pass a test. -/
def takeWhile (test : Char → Bool) : Decoder (List Char) := do
  let taken := (← get).takeWhile test
  modify (List.dropWhile test)
  return taken

/-- What passes a test, in front of what does not, is taken as it is. -/
theorem takeWhile_append {test : Char → Bool} {taken rest : List Char}
    (h : taken.all test = true) (hrest : rest.head?.all (fun c => !test c) = true) :
    takeWhile test (taken ++ rest) = .ok (taken, rest) := by
  have htake : (taken ++ rest).takeWhile test = taken := by
    induction taken with
    | nil => cases rest <;> simp_all
    | cons c cs ih => simp_all
  have hdrop : (taken ++ rest).dropWhile test = rest := by
    clear htake
    induction taken with
    | nil => cases rest <;> simp_all
    | cons c cs ih => simp_all
  show Except.ok (((taken ++ rest).takeWhile test), (taken ++ rest).dropWhile test) = _
  rw [htake, hdrop]

/-- Reads items behind a first one up to the closing bracket, each through `step`. Every item takes
a comma at least, so the length of the text bounds their number. -/
def foldRest {β : Type} (close : Char) (step : β → Decoder β) : (bound : Nat) → β → Decoder β
  | 0, _ => throw .truncated
  | bound + 1, state => do
    let c ← peek
    if c = close then
      modify List.tail
      return state
    else if c = ',' then
      modify List.tail
      foldRest close step bound (← step state)
    else throw .malformed

/-- Reads items up to the closing bracket, each through `step`. -/
def foldItems {β : Type} (close : Char) (step : β → Decoder β) (state : β) : Decoder β := do
  if (← peek) = close then
    modify List.tail
    return state
  else
    let state ← step state
    foldRest close step ((← get).length + 1) state

/-- The value of a whole text. -/
def Decoder.run {α : Type} (d : Decoder α) (text : String) : Except Fault α := do
  let (value, rest) ← StateT.run d text.toList
  if (rest.dropWhile isBlank).isEmpty then .ok value else .error .malformed

end FakeQuant.Json
