import Brainfuck.Number.Binary64
import Brainfuck.Number.Numeral

/-! # Reading floating-point numbers

The number that a decimal text stands for: digits with a point and an exponent, an infinity,
or not a number, with a sign in front and blanks around it.
-/

namespace Brainfuck.Binary64

/-- Splits off the digits at the start of a text. -/
def splitDigits (cs : List Char) : List Nat × List Char :=
  let isDigit (c : Char) : Bool := (Text.digitValue? c).isSome
  ((cs.takeWhile isDigit).filterMap Text.digitValue?, cs.dropWhile isDigit)

/-- The exponent of a decimal: nothing, or a letter, maybe a sign, and digits. -/
def readExponent? : List Char → Option Int
  | [] => some 0
  | e :: rest =>
    if e = 'e' ∨ e = 'E' then
      let (negative, rest) : Bool × List Char :=
        match rest with
        | '-' :: rest => (true, rest)
        | '+' :: rest => (false, rest)
        | rest => (false, rest)
      let (digits, after) := splitDigits rest
      if digits.isEmpty || !after.isEmpty then none
      else some (signed negative (Numeral.ofDigits digits))
    else none

/-- The number of a text without blanks and sign. -/
def readUnsigned? (negative : Bool) (cs : List Char) : Option Binary64 :=
  match String.ofList (cs.map Char.toLower) with
  | "inf" => some (infinite negative)
  | "infinity" => some (infinite negative)
  | "nan" => some nan
  | _ => do
    let (whole, rest) := splitDigits cs
    let (fraction, rest) : List Nat × List Char :=
      match rest with
      | '.' :: rest => splitDigits rest
      | rest => ([], rest)
    let exponent ← readExponent? rest
    if whole.isEmpty && fraction.isEmpty then none
    else some (ofScientific negative (Numeral.ofDigits (whole ++ fraction))
      (exponent - fraction.length))

/-- The number that a text stands for. -/
def read? (cs : List Char) : Option Binary64 :=
  match Numeral.strip cs with
  | '-' :: rest => readUnsigned? true rest
  | '+' :: rest => readUnsigned? false rest
  | cs => readUnsigned? false cs

end Brainfuck.Binary64
