/-!
# Powers of two and of ten

The powers that positional notations are made of.

* `twoTo`, `tenTo` — a power of two, and of ten.
-/

namespace TableMapper

/-- The power of two with exponent `n`. -/
def twoTo (n : Nat) : Nat :=
  Nat.pow 2 n

/-- The power of ten with exponent `n`. -/
def tenTo (n : Nat) : Nat :=
  Nat.pow 10 n

end TableMapper
