import Brainfuck.Number.Power
import Brainfuck.Text.Blank
import Brainfuck.Text.Digit

/-! # Integer numerals

How integers are read from and written to texts.  A numeral may have blanks around it, a
sign in front, digits of any script, and single underscores between digits.  Numerals of
more than 4300 digits are neither read nor written.

* `Numeral.read?` — the integer a text stands for;
* `Numeral.write?` — the decimal text of an integer.
-/

namespace Brainfuck.Numeral

/-- The longest numeral, in digits. -/
def maxDigits : Nat := 4300

/-- Whether a character may stand around a numeral.  Of the ASCII characters these are the
space and the five that move the print position. -/
def isMargin (c : Char) : Bool :=
  if c.toNat < 0x80 then (0x09 ≤ c.toNat && c.toNat ≤ 0x0D) || c == ' ' else Text.isBlank c

/-- Reads the digits of a numeral, with those before it in reverse; an underscore has to
stand between two digits, so `afterDigit` says whether one may follow or the text may end. -/
def readDigits : (afterDigit : Bool) → List Nat → List Char → Option (List Nat)
  | true, done, [] => some done.reverse
  | false, _, [] => none
  | afterDigit, done, c :: rest =>
    if c = '_' then
      if afterDigit then readDigits false done rest else none
    else
      match Text.digitValue? c with
      | some d => readDigits true (d :: done) rest
      | none => none

/-- The digits of a numeral, most significant first. -/
def digits? (cs : List Char) : Option (List Nat) :=
  readDigits false [] cs

/-- The number that decimal digits stand for. -/
def ofDigits (ds : List Nat) : Nat :=
  ds.foldl (fun n d => n * 10 + d) 0

/-- The natural number of a numeral without blanks and sign. -/
def readNat? (cs : List Char) : Option Nat := do
  let ds ← digits? cs
  if ds.length ≤ maxDigits then some (ofDigits ds) else none

/-- The integer of a numeral without blanks. -/
def readSigned? : List Char → Option Int
  | '-' :: rest => (readNat? rest).map fun n => -(n : Int)
  | '+' :: rest => (readNat? rest).map fun n => (n : Int)
  | cs => (readNat? cs).map fun n => (n : Int)

/-- Drops what may stand around a numeral. -/
def strip (cs : List Char) : List Char :=
  ((cs.dropWhile isMargin).reverse.dropWhile isMargin).reverse

/-- The integer that a text stands for. -/
def read? (cs : List Char) : Option Int :=
  readSigned? (strip cs)

/-! ## Other bases -/

/-- The value of a digit of a base up to 16: a decimal digit of any script, or a letter. -/
def baseDigit? (base : Nat) (c : Char) : Option Nat :=
  let d :=
    match Text.digitValue? c with
    | some d => some d
    | none =>
      if 'a' ≤ c ∧ c ≤ 'f' then some (c.toNat - 'a'.toNat + 10)
      else if 'A' ≤ c ∧ c ≤ 'F' then some (c.toNat - 'A'.toNat + 10)
      else none
  d.filter (· < base)

/-- The letter that may follow a zero in front of a numeral of a base. -/
def baseLetter? (base : Nat) : Option Char :=
  match base with
  | 2 => some 'b'
  | 8 => some 'o'
  | 16 => some 'x'
  | _ => none

/-- Drops a zero and the letter of a base in front of digits. -/
def dropBaseMark (base : Nat) : List Char → List Char
  | '0' :: c :: rest => if some c.toLower = baseLetter? base then rest else '0' :: c :: rest
  | cs => cs

/-- The natural number that the digits of a base stand for; there has to be one. -/
def readBaseNat? (base : Nat) (cs : List Char) : Option Nat :=
  match dropBaseMark base cs with
  | [] => none
  | cs => cs.foldlM (fun n c => (baseDigit? base c).map fun d => n * base + d) 0

/-- The integer that a text without underscores stands for in a base that is a power of two.
There is no limit to its length. -/
def readBase? (base : Nat) (cs : List Char) : Option Int :=
  match strip cs with
  | '-' :: rest => (readBaseNat? base rest).map fun n => -(n : Int)
  | '+' :: rest => (readBaseNat? base rest).map fun n => (n : Int)
  | cs => (readBaseNat? base cs).map fun n => (n : Int)

/-- The decimal text of an integer, unless it is too long to be written. -/
def write? (n : Int) : Option String :=
  if n.natAbs < tenPow maxDigits then some (toString n) else none

end Brainfuck.Numeral
