import Brainfuck.Number.Binary64

/-! # Shortest decimal texts

A floating-point number is written with the fewest digits that are read back as the same
number; of the decimals with that many digits the nearest is taken.

* `shortestDigits` — digits and decimal exponent of a positive number;
* `NumberFormat` — where positional notation ends and how exponents look;
* `Binary64.text` — the text of any number.
-/

namespace Brainfuck

namespace Binary64

/-- The two halves of the gap around a positive number, and the number itself, as integers
over a common power of two: `(below, value, above, exponent)`. -/
def gap (mantissa : Nat) (exponent : Int) : Nat × Nat × Nat × Int :=
  let below := if mantissa = twoPow 52 ∧ minExponent < exponent then 1 else 2
  (4 * mantissa - below, 4 * mantissa, 4 * mantissa + 2, exponent - 2)

/-- Whether `digits · 10 ^ place` is read back as the number `mantissa · 2 ^ exponent`. -/
def readsBack (mantissa : Nat) (exponent : Int) (digits : Nat) (place : Int) : Bool :=
  let (below, _, above, e) := gap mantissa exponent
  let scale (n : Nat) : Nat :=
    n * (if 0 ≤ e then twoPow e.toNat else 1) * (if 0 ≤ place then 1 else tenPow (-place).toNat)
  let candidate := digits * (if 0 ≤ place then tenPow place.toNat else 1) *
    (if 0 ≤ e then 1 else twoPow (-e).toNat)
  if mantissa % 2 = 0 then scale below ≤ candidate && candidate ≤ scale above
  else scale below < candidate && candidate < scale above

/-- The quotient and the remainder, with its divisor, of `mantissa · 2 ^ exponent` by
`10 ^ place`. -/
def onGrid (mantissa : Nat) (exponent place : Int) : Nat × Nat × Nat :=
  let num := mantissa * (if 0 ≤ exponent then twoPow exponent.toNat else 1) *
    (if 0 ≤ place then 1 else tenPow (-place).toNat)
  let den := (if 0 ≤ exponent then 1 else twoPow (-exponent).toNat) *
    (if 0 ≤ place then tenPow place.toNat else 1)
  (num / den, num % den, den)

/-- The decimal on the grid of `10 ^ place` that is read back as the number, the nearest one
if both neighbours are. -/
def gridHit? (mantissa : Nat) (exponent place : Int) : Option Nat :=
  let (low, rest, den) := onGrid mantissa exponent place
  let lowHit := low ≠ 0 && readsBack mantissa exponent low place
  let highHit := readsBack mantissa exponent (low + 1) place
  if lowHit && highHit then
    if 2 * rest < den then some low
    else if den < 2 * rest then some (low + 1)
    else some (low + low % 2)
  else if lowHit then some low
  else if highHit then some (low + 1)
  else none

/-- The number of decimal digits in front of the point, less one: the place of the leading
digit of a positive number. -/
def leadingPlace (mantissa : Nat) (exponent : Int) : Int :=
  let digitsAt (place : Int) : Nat := (onGrid mantissa exponent place).1
  let guess : Int := ((Nat.log2 mantissa : Int) + exponent) * 30103 / 100000
  if 10 ≤ digitsAt guess then guess + 1
  else if digitsAt guess = 0 then guess - 1
  else guess

/-- Tries grids from the coarsest on; `tries` of them at most. -/
def firstHit (mantissa : Nat) (exponent : Int) : (tries : Nat) → (place : Int) → Nat × Int
  | 0, place => ((onGrid mantissa exponent place).1, place)
  | tries + 1, place =>
    match gridHit? mantissa exponent place with
    | some digits => (digits, place)
    | none => firstHit mantissa exponent tries (place - 1)

/-- The fewest digits that are read back as the positive number `mantissa · 2 ^ exponent`:
the decimal is `digits · 10 ^ place`. -/
def shortestDigits (mantissa : Nat) (exponent : Int) : Nat × Int :=
  firstHit mantissa exponent 17 (leadingPlace mantissa exponent)

end Binary64

/-- How decimals are written: a decimal whose leading digit stands at a place from
`positionalFrom` up to and with `positionalTo` is written without an exponent. -/
structure NumberFormat where
  positionalFrom : Int
  positionalTo : Int
  exponentDigits : Nat

/-- Plain notation from 0.0001 up to 16 digits in front of the point; else an exponent of at
least two digits. -/
def NumberFormat.standard : NumberFormat := ⟨-4, 15, 2⟩

namespace Binary64

/-- Drops the zeros at the end of a decimal, keeping its value. -/
def dropZeros : (bound : Nat) → Nat → Int → Nat × Int
  | 0, digits, place => (digits, place)
  | bound + 1, digits, place =>
    if digits ≠ 0 ∧ digits % 10 = 0 then dropZeros bound (digits / 10) (place + 1)
    else (digits, place)

/-- The text of a decimal `digits · 10 ^ place` without a sign. -/
def decimalText (format : NumberFormat) (digits : Nat) (place : Int) : String :=
  let (digits, place) := dropZeros 20 digits place
  let ds := Nat.toDigits 10 digits
  let lead : Int := place + ds.length - 1
  if format.positionalFrom ≤ lead ∧ lead ≤ format.positionalTo then
    if 0 ≤ place then String.ofList (ds ++ List.replicate place.toNat '0') ++ ".0"
    else if 0 ≤ lead then
      let whole := (lead + 1).toNat
      String.ofList (ds.take whole ++ '.' :: ds.drop whole)
    else String.ofList ('0' :: '.' :: List.replicate (-lead - 1).toNat '0' ++ ds)
  else
    let power := Nat.toDigits 10 lead.natAbs
    let sign := if lead < 0 then '-' else '+'
    let padding := List.replicate (format.exponentDigits - power.length) '0'
    let fraction := if ds.length ≤ 1 then [] else '.' :: ds.drop 1
    String.ofList (ds.take 1 ++ fraction ++ 'e' :: sign :: padding ++ power)

/-- The text of a number. -/
def text (x : Binary64) : String :=
  match x with
  | nan => "nan"
  | infinite s => if s then "-inf" else "inf"
  | finite s m e =>
    let size := if m = 0 then "0.0"
      else
        let (digits, place) := shortestDigits m e
        decimalText NumberFormat.standard digits place
    if s then "-" ++ size else size

end Binary64

end Brainfuck
