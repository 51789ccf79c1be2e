/-! # Powers of two and of ten

The two families of powers that the number formats are made of, as natural numbers.

* `twoPow`, `tenPow` — the powers, by their exponent.
-/

namespace Brainfuck

/-- The power of two with a given exponent. -/
def twoPow (exponent : Nat) : Nat :=
  Nat.pow 2 exponent

/-- The power of ten with a given exponent. -/
def tenPow (exponent : Nat) : Nat :=
  Nat.pow 10 exponent

end Brainfuck
