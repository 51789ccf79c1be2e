import Brainfuck.Number.Power

/-! # Binary floating-point numbers

Numbers of the 64-bit binary format: an integer of at most 53 bits times a power of two,
signed zeros, two infinities and one not-a-number.  Every operation is the exact one followed
by rounding to the nearest such number, ties going to the even neighbour.

* `Binary64.ofRatio` — rounds a quotient of natural numbers;
* `ofScientific`, `ofNat` — round `digits · 10 ^ exponent` and natural numbers;
* `add`, `mul`, `neg` — arithmetic;
* `truncate` — the integer part.
-/

namespace Brainfuck

/-- A 64-bit binary floating-point number; a finite one is `mantissa · 2 ^ exponent` with the
given sign, where the mantissa has 53 bits or the exponent is -1074. -/
inductive Binary64 where
  | finite (negative : Bool) (mantissa : Nat) (exponent : Int)
  | infinite (negative : Bool)
  | nan
  deriving DecidableEq, Repr

namespace Binary64

/-- The exponent of the smallest numbers. -/
def minExponent : Int := -1074

/-- The exponent of the largest numbers. -/
def maxExponent : Int := 971

def zero (negative : Bool) : Binary64 :=
  finite negative 0 minExponent

/-- The quotient rounded to the nearest integer, a tie to the even one. -/
def roundDiv (num den : Nat) : Nat :=
  let q := num / den
  let r := num % den
  if 2 * r < den then q
  else if den < 2 * r then q + 1
  else q + q % 2

/-- `num / (den · 2 ^ exponent)`, rounded to an integer. -/
def roundAt (num den : Nat) (exponent : Int) : Nat :=
  if 0 ≤ exponent then roundDiv num (den * twoPow exponent.toNat)
  else roundDiv (num * twoPow (-exponent).toNat) den

/-- The number nearest to the quotient of two natural numbers. -/
def ofRatio (negative : Bool) (num den : Nat) : Binary64 :=
  if num = 0 then zero negative
  else
    let guess : Int := (Nat.log2 num : Int) - (Nat.log2 den : Int) - 52
    let fits : Bool :=
      if 0 ≤ guess then twoPow 52 * den * twoPow guess.toNat ≤ num
      else twoPow 52 * den ≤ num * twoPow (-guess).toNat
    let exponent := max (if fits then guess else guess - 1) minExponent
    let mantissa := roundAt num den exponent
    let (mantissa, exponent) :=
      if mantissa = twoPow 53 then (twoPow 52, exponent + 1) else (mantissa, exponent)
    if maxExponent < exponent then infinite negative else finite negative mantissa exponent

def ofNat (n : Nat) : Binary64 :=
  ofRatio false n 1

/-- The number nearest to `digits · 10 ^ exponent`.  Powers that are far out of range are
not computed. -/
def ofScientific (negative : Bool) (digits : Nat) (exponent : Int) : Binary64 :=
  let size : Int := Nat.log2 digits
  if digits = 0 then zero negative
  else if 310 < exponent then infinite negative
  else if exponent < -400 - size then zero negative
  else if 0 ≤ exponent then ofRatio negative (digits * tenPow exponent.toNat) 1
  else ofRatio negative digits (tenPow (-exponent).toNat)

def neg : Binary64 → Binary64
  | finite s m e => finite (!s) m e
  | infinite s => infinite (!s)
  | nan => nan

/-- The integer with the given sign. -/
def signed (negative : Bool) (n : Nat) : Int :=
  if negative then -(n : Int) else n

/-- `n · 2 ^ exponent` for an integer `n`, rounded; zero gets the sign `zeroNegative`. -/
def ofScaled (n : Int) (exponent : Int) (zeroNegative : Bool) : Binary64 :=
  if n = 0 then zero zeroNegative
  else if 0 ≤ exponent then ofRatio (n < 0) (n.natAbs * twoPow exponent.toNat) 1
  else ofRatio (n < 0) n.natAbs (twoPow (-exponent).toNat)

def add : Binary64 → Binary64 → Binary64
  | nan, _ => nan
  | _, nan => nan
  | infinite s, infinite t => if s = t then infinite s else nan
  | infinite s, _ => infinite s
  | _, infinite t => infinite t
  | finite s m e, finite t n f =>
    let low := min e f
    let first := signed s (m * twoPow (e - low).toNat)
    let second := signed t (n * twoPow (f - low).toNat)
    ofScaled (first + second) low (s && t)

def mul : Binary64 → Binary64 → Binary64
  | nan, _ => nan
  | _, nan => nan
  | infinite s, infinite t => infinite (s != t)
  | infinite s, finite t n _ => if n = 0 then nan else infinite (s != t)
  | finite s m _, infinite t => if m = 0 then nan else infinite (s != t)
  | finite s m e, finite t n f => ofScaled (signed (s != t) (m * n)) (e + f) (s != t)

def isInfinite : Binary64 → Bool
  | infinite _ => true
  | _ => false

/-- The integer part of a finite number: what is behind the point is dropped. -/
def truncate : Binary64 → Option Int
  | finite s m e =>
    some (signed s (if 0 ≤ e then m * twoPow e.toNat else m / twoPow (-e).toNat))
  | _ => none

/-- Whether two numbers count as one: both zeros do, and not-a-number does with itself. -/
def same : Binary64 → Binary64 → Bool
  | finite s m e, finite t n f => (m = 0 && n = 0) || (s = t && m = n && e = f)
  | infinite s, infinite t => s = t
  | nan, nan => true
  | _, _ => false

end Binary64

end Brainfuck
