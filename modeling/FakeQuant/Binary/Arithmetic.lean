import FakeQuant.Binary.Rounding

/-!
# Arithmetic and comparison

Each operation on finite numbers is the exact rational operation followed by `Binary.ofRat`; the
cases with infinities, zeros and the not-a-number value stand around it. Comparison is that of the
exact values with the infinities at both ends: the not-a-number value is not comparable with
anything, and the two zeros are equal numbers.
-/

namespace FakeQuant

/-- The integer square root, two bits of `n` at a time; `steps` bounds how many pairs of bits there
are. -/
def floorSqrtSteps : (steps n : Nat) → Nat
  | 0, _ => 0
  | steps + 1, n =>
    let root := 2 * floorSqrtSteps steps (n / 4)
    if (root + 1) * (root + 1) ≤ n then root + 1 else root

/-- The largest natural number whose square is at most `n`. -/
def floorSqrt (n : Nat) : Nat :=
  floorSqrtSteps (n.log2 / 2 + 1) n

namespace Binary

variable {f : Format}

/-- The number of opposite sign. -/
protected def neg : Binary f → Binary f
  | nan => nan
  | infinity negative => infinity (!negative)
  | finite negative significand exponent h => finite (!negative) significand exponent h

/-- The rounded sum. Opposite infinities have no sum, and opposite numbers add up to the positive
zero. -/
protected def add : Binary f → Binary f → Binary f
  | nan, _ | _, nan => nan
  | infinity a, infinity b => if a = b then infinity a else nan
  | infinity a, finite .. => infinity a
  | finite .., infinity b => infinity b
  | x@(finite a ..), y@(finite b ..) => ofRat (a && b) (x.value + y.value)

/-- The rounded difference. -/
protected def sub (x y : Binary f) : Binary f :=
  x.add y.neg

/-- The rounded product. An infinity times a zero has no value. -/
protected def mul : Binary f → Binary f → Binary f
  | nan, _ | _, nan => nan
  | infinity a, infinity b => infinity (a ^^ b)
  | infinity a, y@(finite b ..) => if y.value = 0 then nan else infinity (a ^^ b)
  | x@(finite a ..), infinity b => if x.value = 0 then nan else infinity (a ^^ b)
  | x@(finite a ..), y@(finite b ..) => ofRat (a ^^ b) (x.value * y.value)

/-- The rounded quotient. A nonzero number over a zero is infinite; zero over zero has no value. -/
protected def div : Binary f → Binary f → Binary f
  | nan, _ | _, nan => nan
  | infinity _, infinity _ => nan
  | infinity a, finite b .. => infinity (a ^^ b)
  | finite a .., infinity b => zero (a ^^ b)
  | x@(finite a ..), y@(finite b ..) =>
    if y.value = 0 then if x.value = 0 then nan else infinity (a ^^ b)
    else ofRat (a ^^ b) (x.value / y.value)

instance : Neg (Binary f) := ⟨Binary.neg⟩
instance : Add (Binary f) := ⟨Binary.add⟩
instance : Sub (Binary f) := ⟨Binary.sub⟩
instance : Mul (Binary f) := ⟨Binary.mul⟩
instance : Div (Binary f) := ⟨Binary.div⟩

/-- A rational number that rounds as the square root of a positive `q` does. The root is cut below
the last place that rounding can look at; a root that is not exact is put strictly between that
place and the next one. -/
def rootForRounding (f : Format) (q : Rat) : Rat :=
  let last : Int := floorLog2 q / 2 - (f.precision + 1)
  let unit : Rat := (2 : Rat) ^ last
  let root : Rat := ((floorSqrt (q / (unit * unit)).floor.toNat : Nat) : Rat)
  if root * unit * (root * unit) = q then root * unit else (root + 1 / 2) * unit

/-- The rounded square root. A zero is its own root; negative numbers have none. -/
def sqrt : Binary f → Binary f
  | nan => nan
  | infinity negative => if negative then nan else infinity negative
  | x@(finite negative significand _ _) =>
    if significand = 0 then x
    else if negative then nan
    else ofRat false (rootForRounding f x.value)

/-- The largest integer not above the number; a zero result keeps the sign of the number. -/
def floor : Binary f → Binary f
  | x@(finite negative ..) => ofRat negative (x.value.floor : Int)
  | x => x

/-- The nearest integer, a half going to the even neighbour; a zero result keeps the sign of the
number. -/
def roundEven : Binary f → Binary f
  | x@(finite negative ..) => ofRat negative (roundHalfEven x.value : Int)
  | x => x

/-- Strict comparison of numbers. -/
protected def blt : Binary f → Binary f → Bool
  | nan, _ | _, nan => false
  | infinity a, infinity b => a && !b
  | infinity a, finite .. => a
  | finite .., infinity b => !b
  | x@(finite ..), y@(finite ..) => decide (x.value < y.value)

/-- Equality of numbers: the zeros are equal, and the not-a-number value equals nothing. -/
def numEq : Binary f → Binary f → Bool
  | nan, _ | _, nan => false
  | infinity a, infinity b => a == b
  | infinity _, finite .. | finite .., infinity _ => false
  | x@(finite ..), y@(finite ..) => decide (x.value = y.value)

instance : LT (Binary f) := ⟨fun x y => x.blt y = true⟩
instance : LE (Binary f) := ⟨fun x y => (x.blt y || x.numEq y) = true⟩

instance (x y : Binary f) : Decidable (x < y) :=
  inferInstanceAs (Decidable (_ = true))

instance (x y : Binary f) : Decidable (x ≤ y) :=
  inferInstanceAs (Decidable (_ = true))

theorem lt_iff_blt {x y : Binary f} : x < y ↔ x.blt y = true := Iff.rfl

theorem le_iff_blt_or_numEq {x y : Binary f} : x ≤ y ↔ (x.blt y || x.numEq y) = true := Iff.rfl

end Binary

end FakeQuant
