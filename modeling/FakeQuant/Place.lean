import FakeQuant.Error

/-!
# Places for texts

A `Place` is where a text can be kept: a file that is there or not, in a folder that is there or
not. A file holds bytes; it can be read as a text if they are the UTF-8 encoding of one.
-/

namespace FakeQuant

/-- A place for one text. -/
inductive Place where
  /-- The folder does not exist. -/
  | nowhere
  /-- The folder exists, the file does not. -/
  | vacant
  /-- The file exists, with these bytes. -/
  | holding (bytes : ByteArray)

namespace Place

/-- The place after a text was written to it. -/
def write (p : Place) (text : String) : Except Error Place :=
  match p with
  | nowhere => .error .fileNotFound
  | vacant | holding _ => .ok (holding text.toUTF8)

/-- The text at a place. -/
def read : Place → Except Error String
  | nowhere | vacant => .error .fileNotFound
  | holding bytes =>
    match String.fromUTF8? bytes with
    | some text => .ok text
    | none => .error .fileUnreadable

end Place

end FakeQuant
