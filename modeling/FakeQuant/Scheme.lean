import FakeQuant.Text.Basic

/-!
# Quantization schemes

A scheme says how scale and zero point map onto a tensor: one pair for the whole tensor, or one pair
for every position of a channel axis; and whether the zero point is free or symmetric.
-/

namespace FakeQuant

/-- How scale and zero point map onto a tensor. -/
inductive Scheme where
  | perTensorAffine
  | perTensorSymmetric
  | perChannelAffine (axis : Nat)
  | perChannelSymmetric (axis : Nat)
deriving DecidableEq, Repr

namespace Scheme

/-- The channel axis of a per-channel scheme. -/
def axis? : Scheme → Option Nat
  | perTensorAffine | perTensorSymmetric => none
  | perChannelAffine axis | perChannelSymmetric axis => some axis

/-- Whether there is one pair of parameters per channel. -/
def isPerChannel (s : Scheme) : Bool :=
  s.axis?.isSome

/-- Whether the zero point is tied to the middle of the grid. -/
def isSymmetric : Scheme → Bool
  | perTensorAffine | perChannelAffine _ => false
  | perTensorSymmetric | perChannelSymmetric _ => true

/-- The scheme in messages and descriptions. -/
def describe : Scheme → String
  | perTensorAffine => "PerTensorAffine"
  | perTensorSymmetric => "PerTensorSymmetric"
  | perChannelAffine axis => "PerChannelAffine \x7b axis: " ++ integerText axis ++ " \x7d"
  | perChannelSymmetric axis => "PerChannelSymmetric \x7b axis: " ++ integerText axis ++ " \x7d"

end Scheme

end FakeQuant
