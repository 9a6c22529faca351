/-!
# Rounding to single precision

The nearest number of 24 significant bits, exactly and as a quotient of natural numbers; of two
that are equally near, the one with an even last bit. No exponent is too small or too large here.
-/

namespace CubeTrainer.Single

/-- The whole number nearest to `n / d`, the even one of two. -/
def roundQuotient (n d : Nat) : Nat :=
  let q := n / d
  let r := n % d
  if 2 * r < d ∨ (2 * r = d ∧ q % 2 = 0) then q else q + 1

/-- The number of 24 bits nearest to `n / d`, as a numerator and a denominator. -/
def round (n d : Nat) : Nat × Nat :=
  -- A power of two that makes the quotient at least `2 ^ 23`, and the bits it then has above that.
  let up := d.log2 + 24
  let excess := ((n <<< up) / d).log2 - 23
  if excess ≤ up then
    (roundQuotient (n <<< (up - excess)) d, 1 <<< (up - excess))
  else
    (roundQuotient n (d <<< (excess - up)) <<< (excess - up), 1)

/-- The quotient of two numbers, each and the result in single precision. -/
def divide (a b : Nat × Nat) : Nat × Nat := round (a.1 * b.2) (a.2 * b.1)

end CubeTrainer.Single
