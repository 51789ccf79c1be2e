/-! # Bytes written in base 64

Four characters stand for three bytes.  Characters that stand for nothing are passed over,
and the text ends at the padding that completes a group.
-/

namespace Brainfuck.Base64

/-- The six bits that a character stands for. -/
def value? (c : Char) : Option Nat :=
  if 'A' ≤ c ∧ c ≤ 'Z' then some (c.toNat - 'A'.toNat)
  else if 'a' ≤ c ∧ c ≤ 'z' then some (c.toNat - 'a'.toNat + 26)
  else if '0' ≤ c ∧ c ≤ '9' then some (c.toNat - '0'.toNat + 52)
  else if c = '+' then some 62
  else if c = '/' then some 63
  else none

/-- Reads on with `count` characters of a group read, their bits in `bits`, `pads` pads in a
row passed, and the bytes so far in reverse. -/
def decodeFrom (count bits pads : Nat) (done : List UInt8) : List Char → Option (List UInt8)
  | [] => if count = 0 then some done.reverse else none
  | c :: rest =>
    if c = '=' then
      if 2 ≤ count then
        if 4 ≤ count + (pads + 1) then some done.reverse
        else decodeFrom count bits (pads + 1) done rest
      else decodeFrom count bits pads done rest
    else
      match value? c with
      | none => decodeFrom count bits pads done rest
      | some v =>
        match count with
        | 0 => decodeFrom 1 v 0 done rest
        | 1 => decodeFrom 2 (v % 16) 0 (UInt8.ofNat (bits * 4 + v / 16) :: done) rest
        | 2 => decodeFrom 3 (v % 4) 0 (UInt8.ofNat (bits * 16 + v / 4) :: done) rest
        | _ => decodeFrom 0 0 0 (UInt8.ofNat (bits * 64 + v) :: done) rest

/-- The bytes that a text stands for; `none` when its last group is not complete. -/
def decode? (cs : List Char) : Option (List UInt8) :=
  decodeFrom 0 0 0 [] cs

end Brainfuck.Base64
