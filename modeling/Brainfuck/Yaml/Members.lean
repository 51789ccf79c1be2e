import Brainfuck.Yaml.Value

/-! # The members of a set

A set has no order of its own.  Where one is shown, its numbers come in the order of their places
in a table: the size of the table is a power of two, the residue of a number says where it belongs,
and a number whose place is taken goes to the next free one along a fixed path.

* `Value.residue?` — the residue of a number, whatever its kind;
* `NumberTable.insert` — puts a number at its place;
* `membersInOrder` — the members of a set as they are shown.
-/

namespace Brainfuck.Yaml

/-- The prime by which residues are taken, `2 ^ 61 - 1`. -/
def residuePrime : Nat := twoPow 61 - 1

/-- The residue of a number with a sign and a size; -1 is no residue. -/
def signedResidue (negative : Bool) (size : Nat) : Int :=
  let r := Binary64.signed negative (size % residuePrime)
  if r = -1 then -2 else r

namespace Value

/-- The residue of a number.  For `m · 2 ^ e` it is that of `m · 2 ^ (e mod 61)`, because
`2 ^ 61` leaves one, so that equal numbers have equal residues. -/
def residue? : Value → Option Int
  | boolean b => some (if b then 1 else 0)
  | integer n => some (signedResidue (n < 0) n.natAbs)
  | real (.finite negative m e) => some (signedResidue negative (m * twoPow (e % 61).toNat))
  | real (.infinite negative) => some (Binary64.signed negative 314159)
  | _ => none

end Value

/-- Places for numbers, as many as a power of two. -/
abbrev NumberTable := Array (Option Value)

namespace NumberTable

/-- How many places behind the one where a number belongs are tried in a row. -/
def rowLength : Nat := 9

/-- The first free place from `place` on, among `count` further ones. -/
def freeFrom (table : NumberTable) (place : Nat) : (count : Nat) → Option Nat
  | 0 => if table[place]? = some none then some place else none
  | count + 1 =>
    if table[place]? = some none then some place else freeFrom table (place + 1) count

/-- The free place for a number, along its path; `shift` is what is left of its residue, and
`bound` limits the path. -/
def freePlace (table : NumberTable) : (bound place shift : Nat) → Option Nat
  | 0, _, _ => none
  | bound + 1, place, shift =>
    let row := if place + rowLength < table.size then rowLength else 0
    match table.freeFrom place row with
    | some free => some free
    | none =>
      let shift := shift / 32
      freePlace table bound ((place * 5 + 1 + shift) % table.size) shift

/-- Puts a value with a residue at its place.  The path comes to every place once the residue is
used up, which takes thirteen steps. -/
def insert (table : NumberTable) (value : Value) (residue : Int) : NumberTable :=
  let start := (residue % (twoPow 64 : Int)).toNat
  match table.freePlace (table.size + 16) (start % table.size) start with
  | some place => table.setIfInBounds place (some value)
  | none => table

/-- The size of the table for a number of members: it has room for more than twice as many,
unless there are so few that they fit in the smallest one. -/
def sizeFor (members : Nat) : Nat :=
  if members < 5 then 8 else twoPow (Nat.log2 (2 * members) + 1)

end NumberTable

/-- The members of a set as they are shown: numbers by their places in a table, and others in the
order in which they were put in. -/
def membersInOrder (members : List Value) : List Value :=
  match members.mapM fun v => v.residue?.map fun r => (v, r) with
  | none => members
  | some numbers =>
    let empty : NumberTable := Array.replicate (NumberTable.sizeFor members.length) none
    (numbers.foldl (fun table (v, r) => table.insert v r) empty).toList.filterMap id

end Brainfuck.Yaml
