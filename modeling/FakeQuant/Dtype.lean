/-!
# Storage types

The integer types that quantized values are finally stored in, with their bounds and names.
-/

namespace FakeQuant

/-- An integer type for stored codes. -/
inductive Dtype where
  | quint8
  | qint8
  | qint32
deriving DecidableEq, Repr

namespace Dtype

instance : Inhabited Dtype := ⟨quint8⟩

/-- The least storable code. -/
def min : Dtype → Int
  | quint8 => 0
  | qint8 => -128
  | qint32 => -2147483648

/-- The greatest storable code. -/
def max : Dtype → Int
  | quint8 => 255
  | qint8 => 127
  | qint32 => 2147483647

/-- The name, which is also the serialized form. -/
def name : Dtype → String
  | quint8 => "quint8"
  | qint8 => "qint8"
  | qint32 => "qint32"

/-- All storage types. -/
def all : List Dtype :=
  [quint8, qint8, qint32]

/-- The storage type with a name. -/
def ofName? (name : String) : Option Dtype :=
  all.find? fun d => d.name == name

theorem ofName?_name (d : Dtype) : ofName? d.name = some d := by
  cases d <;> rfl

/-- The name in descriptions of a quantizer. -/
def label : Dtype → String
  | quint8 => "QUInt8"
  | qint8 => "QInt8"
  | qint32 => "QInt32"

end Dtype

end FakeQuant
