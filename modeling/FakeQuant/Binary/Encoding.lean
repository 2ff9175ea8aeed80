import FakeQuant.Binary.Format

/-!
# Bit patterns

`Binary.toBits` and `Binary.ofBits` go between values and the interchange encoding: the sign bit,
then the exponent field, then the significand without its leading bit. Exponent field zero holds
the zeros and subnormals, the field of all ones the infinities and the not-a-number value, for
which every nonzero fraction is read and one is written.
-/

namespace FakeQuant

namespace Binary

variable {f : Format}

/-- The bit pattern with the given fields. -/
def joinBits (f : Format) (negative : Bool) (field fraction : Nat) : Nat :=
  ((if negative then f.fieldLimit else 0) + field) * f.normalStart + fraction

/-- The bit pattern of a value. -/
def toBits : Binary f → Nat
  | nan => joinBits f false (f.fieldLimit - 1) (f.normalStart / 2)
  | infinity negative => joinBits f negative (f.fieldLimit - 1) 0
  | finite negative significand exponent _ =>
    if significand < f.normalStart then joinBits f negative 0 significand
    else joinBits f negative (exponent - f.minExponent + 1).toNat (significand - f.normalStart)

/-- The fraction of a pattern has no leading bit. -/
theorem fraction_lt (f : Format) (n : Nat) : n % f.normalStart < f.normalStart :=
  Nat.mod_lt _ f.normalStart_pos

/-- The value of a bit pattern; bits above the sign bit do not count. -/
def ofBits (bits : Nat) : Binary f :=
  let negative := bits / f.normalStart / f.fieldLimit % 2 == 1
  if hlast : bits / f.normalStart % f.fieldLimit < f.fieldLimit - 1 then
    if hzero : bits / f.normalStart % f.fieldLimit = 0 then
      finite negative (bits % f.normalStart) f.minExponent
        (f.canonical_subnormal (fraction_lt f bits))
    else
      finite negative (f.normalStart + bits % f.normalStart)
        (f.minExponent + (bits / f.normalStart % f.fieldLimit : Nat) - 1)
        (f.canonical_normal (fraction_lt f bits) hzero hlast)
  else if bits % f.normalStart = 0 then infinity negative
  else nan

end Binary

end FakeQuant
