import Planar.Word
set_option autoImplicit false

/-!
Common multiples of sampling factors.
-/

namespace Planar.Grid

def gcd (a b : Nat) : Nat :=
  if _ : b = 0 then a else gcd b (a % b)
termination_by b
decreasing_by exact Nat.mod_lt _ (Nat.pos_of_ne_zero (by assumption))

/-- Divides first, so that the product wraps around only if it is no word itself. -/
def lcm (a b : Nat) : Nat := if a = 0 ∨ b = 0 then 0 else Word.wrap (a / gcd a b * b)

/-- The least multiple of `grid` that is not below `n`. -/
def roundUp (n grid : Nat) : Nat := if n % grid = 0 then n else n + (grid - n % grid)

end Planar.Grid
