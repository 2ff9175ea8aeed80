import FakeQuant.Affine

/-!
# Gradient formulas

The local derivatives of a fake-quantized element. The input's gradient passes straight through
where the code lies on the grid. The scale's derivative is the distance of a saturated code from
the zero point, and the rounding error over the scale in the interior; the zero point's derivative
is minus the scale on the two bounds and zero between them. The three regimes of the scale are
weighted by zeros and ones and added up, so a term without a value spoils the sum even with weight
zero.
-/

namespace FakeQuant

/-- The output gradient where the code, not moved into the grid, lies on it, and zero elsewhere. -/
def inputGradient (g : Grid) (dy code : Single) : Single :=
  if g.contains code then dy else 0

/-- One if the code is the bound, zero if not. -/
def boundaryWeight (bound code : Single) : Single :=
  if code.numEq bound then 1 else 0

/-- The derivative of the output `y` by the scale, for an input `x` with a code moved into the
grid. -/
def scaleDerivative (g : Grid) (x y code scale zeroPoint : Single) : Single :=
  let atLeast := boundaryWeight g.least code
  let atGreatest := boundaryWeight g.greatest code
  atLeast * (g.least - zeroPoint) + atGreatest * (g.greatest - zeroPoint)
    + (1 - atLeast - atGreatest) * ((y - x) / scale)

/-- The derivative of the output by the zero point, for a code moved into the grid. -/
def zeroPointDerivative (g : Grid) (code scale : Single) : Single :=
  (boundaryWeight g.least code + boundaryWeight g.greatest code) * -scale

/-- The input gradient of a whole tensor. -/
def straightThrough {s : Shape} (g : Grid) (dy codes : Tensor Single s) : Tensor Single s :=
  Tensor.zipWith (inputGradient g) dy codes

/-- What one element contributes to the gradients of scale and zero point: the local derivatives
times the input gradient `dx`. The given code is not yet moved into the grid. -/
def parameterTerms (g : Grid) (x y code dx scale zeroPoint : Single) : Single × Single :=
  let clamped := g.clamp code
  (scaleDerivative g x y clamped scale zeroPoint * dx, zeroPointDerivative g clamped scale * dx)

/-- The sums of both parts from left to right, starting from zero. -/
def sumTerms (terms : List (Single × Single)) : Single × Single :=
  terms.foldl (fun sums term => (sums.1 + term.1, sums.2 + term.2)) (0, 0)

/-- The gradients of a loss by the input and by the parameters. -/
structure Gradients where
  /-- By the input, with its shape. -/
  input : AnyTensor Single
  /-- By the scales: one for a whole tensor, or one per channel. -/
  scale : List Single
  /-- By the zero points, as many as by the scales. -/
  zeroPoint : List Single

end FakeQuant
