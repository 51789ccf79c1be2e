/-! # Blanks

The blank characters of texts, and what is done with them.

* `isBlank` — the white space of all scripts, with the four separators U+001C to U+001F;
* `trim`, `trimRight` — drop blanks at the ends;
* `words` — the parts of a sequence between what counts as blank in it.
-/

namespace Brainfuck.Text

/-- Whether a character is white space. -/
def isBlank (c : Char) : Bool :=
  let n := c.toNat
  (0x09 ≤ n && n ≤ 0x0D) || (0x1C ≤ n && n ≤ 0x20) || n == 0x85 || n == 0xA0 || n == 0x1680 ||
    (0x2000 ≤ n && n ≤ 0x200A) || n == 0x2028 || n == 0x2029 || n == 0x202F || n == 0x205F ||
    n == 0x3000

/-- Drops the blanks at the end. -/
def trimRight (cs : List Char) : List Char :=
  (cs.reverse.dropWhile isBlank).reverse

/-- Drops the blanks at both ends. -/
def trim (cs : List Char) : List Char :=
  trimRight (cs.dropWhile isBlank)

/-- Reads one more element of a sequence whose finished words and whose current word are kept
in reverse. -/
def wordStep (blank : α → Bool) : List (List α) × List α → α → List (List α) × List α
  | (done, current), x =>
    if blank x then
      if current.isEmpty then (done, []) else (current.reverse :: done, [])
    else (done, x :: current)

/-- The words of a sequence: its longest parts without a blank. -/
def words (blank : α → Bool) (xs : List α) : List (List α) :=
  let (done, current) := xs.foldl (wordStep blank) ([], [])
  (if current.isEmpty then done else current.reverse :: done).reverse

end Brainfuck.Text
