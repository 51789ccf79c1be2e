import Brainfuck.Machine
import Brainfuck.Text.Utf8

/-! # Programs in encoded texts

The program of a source is the same, whether its bytes are taken as characters one by one or
decoded as UTF-8 with marks for what is ill-formed, and a text has the program of its bytes.

* `Utf8.feedAll_cons`, `Utf8.feedAll_append` — the decoder a byte at a time;
* `Utf8.decodeLossy_encode` — the decoder gives every text back;
* `Utf8.Beyond` — a state from which no character below 128 comes out;
* `Program.ofChars_decodeLossy` — decoding keeps the program;
* `program_of_decoding` — all readings of a source agree, piece by piece.

`Beyond` is the invariant that carries the comparison.  A byte below 128 always stands for itself,
even where it breaks a character off, and what the other bytes come to, character or mark, is beyond
128 and so a comment.
-/

namespace Brainfuck

namespace Utf8

variable {s : State} {b : UInt8} {bytes : List UInt8}

/-! ## A byte at a time -/

/-- Feeds a byte to a decoder that has some parts in hand, in reverse. -/
def feedOnto (held : State × List (Option Char)) (b : UInt8) : State × List (Option Char) :=
  ((feed held.1 b).1, (feed held.1 b).2.reverse ++ held.2)

theorem feedAll_eq (s : State) (bytes : List UInt8) :
    feedAll s bytes =
      ((bytes.foldl feedOnto (s, [])).1, (bytes.foldl feedOnto (s, [])).2.reverse) := rfl

theorem foldl_feedOnto (s : State) (found : List (Option Char)) (bytes : List UInt8) :
    bytes.foldl feedOnto (s, found) =
      ((bytes.foldl feedOnto (s, [])).1, (bytes.foldl feedOnto (s, [])).2 ++ found) := by
  induction bytes generalizing s found with
  | nil => rfl
  | cons b bytes ih =>
    rw [List.foldl_cons, List.foldl_cons, feedOnto, feedOnto, ih, ih _ ((feed s b).2.reverse ++ [])]
    simp

@[simp] theorem feedAll_nil (s : State) : feedAll s [] = (s, []) := rfl

theorem feedAll_cons (s : State) (b : UInt8) (bytes : List UInt8) :
    feedAll s (b :: bytes) =
      ((feedAll (feed s b).1 bytes).1, (feed s b).2 ++ (feedAll (feed s b).1 bytes).2) := by
  simp only [feedAll_eq, List.foldl_cons, feedOnto]
  rw [foldl_feedOnto]
  simp

theorem feedAll_append (s : State) (front back : List UInt8) :
    feedAll s (front ++ back) =
      ((feedAll (feedAll s front).1 back).1,
        (feedAll s front).2 ++ (feedAll (feedAll s front).1 back).2) := by
  induction front generalizing s with
  | nil => simp
  | cons b front ih => simp [feedAll_cons, ih]

/-! ## Texts are given back -/

theorem toNat_ofNat_of_lt {n : Nat} (small : n < 0x100) : (UInt8.ofNat n).toNat = n := by
  rw [UInt8.toNat_ofNat']
  exact Nat.mod_eq_of_lt small

theorem feedStart_one {n : Nat} (small : n < 0x80) :
    feedStart (UInt8.ofNat n) = (.start, [some (Char.ofNat n)]) := by
  have value := toNat_ofNat_of_lt (Nat.lt_trans small (by decide))
  have below : UInt8.ofNat n < 0x80 := UInt8.lt_iff_toNat_lt.mpr (by rwa [value])
  rw [feedStart, if_pos below, value]

theorem feedStart_two : ∀ n < 0x20, 2 ≤ n →
    feedStart (UInt8.ofNat (n + 0xC0)) = (.inside 0 n 0x80 0xBF, []) := by
  decide

theorem feedStart_three : ∀ n < 0x10, feedStart (UInt8.ofNat (n + 0xE0)) =
    (.inside 1 n (if n = 0 then 0xA0 else 0x80) (if n = 0xD then 0x9F else 0xBF), []) := by
  decide

theorem feedStart_four : ∀ n < 5, feedStart (UInt8.ofNat (n + 0xF0)) =
    (.inside 2 n (if n = 0 then 0x90 else 0x80) (if n = 4 then 0x8F else 0xBF), []) := by
  decide

theorem feed_inside {code n : Nat} {low high : UInt8} (above : low.toNat ≤ n + 0x80)
    (below : n + 0x80 ≤ high.toNat) (owed : Nat) :
    feed (.inside owed code low high) (UInt8.ofNat (n + 0x80)) =
      match owed with
      | 0 => (.start, [some (Char.ofNat (code * 64 + n))])
      | owed + 1 => (.inside owed (code * 64 + n) 0x80 0xBF, []) := by
  have value : (UInt8.ofNat (n + 0x80)).toNat = n + 0x80 :=
    toNat_ofNat_of_lt (Nat.lt_of_le_of_lt below high.toNat_lt)
  have fits : low ≤ UInt8.ofNat (n + 0x80) ∧ UInt8.ofNat (n + 0x80) ≤ high := by
    simp only [UInt8.le_iff_toNat_le, value]
    exact ⟨above, below⟩
  cases owed <;> simp only [feed, if_pos fits, value, Nat.add_sub_cancel]

/-- The bytes of a character make that character and leave the decoder between characters. -/
theorem feedAll_encodeChar (c : Char) :
    feedAll .start (String.utf8EncodeChar c) = (.start, [some c]) := by
  have scalar : c.val.toNat < 0xD800 ∨ 0xDFFF < c.val.toNat ∧ c.val.toNat < 0x110000 := c.valid
  have same : Char.ofNat c.val.toNat = c := Char.ofNat_toNat c
  rw [String.utf8EncodeChar]
  generalize c.val.toNat = v at scalar same ⊢
  have tail {n : Nat} (bits : n < 64) :
      (0x80 : UInt8).toNat ≤ n + 0x80 ∧ n + 0x80 ≤ (0xBF : UInt8).toNat := by
    simp only [UInt8.reduceToNat]
    omega
  have last : v % 64 < 64 := Nat.mod_lt v (by decide)
  have next : v / 64 % 64 < 64 := Nat.mod_lt _ (by decide)
  -- one case for each number of bytes; the bits that they carry are those of the character
  split
  · rename_i one
    rw [feedAll_cons, feed, feedStart_one (Nat.lt_succ_of_le one), feedAll_nil, same]
    rfl
  split
  · have whole : v / 64 % 32 * 64 + v % 64 = v := by omega
    rw [feedAll_cons, feed, feedStart_two _ (by omega) (by omega), feedAll_cons,
      feed_inside (tail last).1 (tail last).2, feedAll_nil, whole, same]
    rfl
  split
  · have whole : (v / 4096 % 16 * 64 + v / 64 % 64) * 64 + v % 64 = v := by omega
    rw [feedAll_cons, feed, feedStart_three _ (by omega), feedAll_cons, feed_inside, feedAll_cons,
      feed_inside (tail last).1 (tail last).2, feedAll_nil, whole, same]
    · rfl
    · split <;> simp only [UInt8.reduceToNat] <;> omega
    · split <;> simp only [UInt8.reduceToNat] <;> omega
  · have whole : ((v / 262144 % 8 * 64 + v / 4096 % 64) * 64 + v / 64 % 64) * 64 + v % 64 = v := by
      omega
    rw [feedAll_cons, feed, feedStart_four _ (by omega), feedAll_cons, feed_inside, feedAll_cons,
      feed_inside (tail next).1 (tail next).2, feedAll_cons,
      feed_inside (tail last).1 (tail last).2, feedAll_nil, whole, same]
    · rfl
    · split <;> simp only [UInt8.reduceToNat] <;> omega
    · split <;> simp only [UInt8.reduceToNat] <;> omega

theorem feedAll_encode (cs : List Char) : feedAll .start (encode cs) = (.start, cs.map some) := by
  induction cs with
  | nil => rfl
  | cons c cs ih =>
    rw [encode, List.flatMap_cons, feedAll_append, feedAll_encodeChar, ← encode, ih]
    rfl

/-- Every text is given back. -/
theorem decodeLossy_encode (cs : List Char) : decodeLossy (encode cs) = cs := by
  simp [decodeLossy, parts, feedAll_encode, finish, Function.comp_def]

theorem decode?_encode (cs : List Char) : decode? (encode cs) = some cs := by
  simp [decode?, parts, feedAll_encode, finish, Function.comp_def]

/-- A byte that is zero is the whole of a character. -/
theorem zero_mem_encodeChar_iff {c : Char} : 0 ∈ String.utf8EncodeChar c ↔ c = '\x00' := by
  constructor
  · have same : Char.ofNat c.val.toNat = c := Char.ofNat_toNat c
    rw [String.utf8EncodeChar]
    generalize c.val.toNat = v at same ⊢
    split
    · rename_i one
      intro zero
      have value : (UInt8.ofNat v).toNat = v :=
        toNat_ofNat_of_lt (Nat.lt_of_le_of_lt one (by decide))
      rw [← List.mem_singleton.mp zero] at value
      rw [← same, ← value]
      rfl
    -- every byte of a longer character has a bit set that tells its place
    have nonzero {n : Nat} (positive : 0 < n) (small : n < 0x100) :
        (0 : UInt8) ≠ UInt8.ofNat n := by
      intro zero
      have value := toNat_ofNat_of_lt small
      rw [← zero] at value
      exact absurd value (Nat.ne_of_lt positive)
    repeat' split
    all_goals
      refine fun zero => absurd zero ?_
      simp only [List.mem_cons, List.not_mem_nil, or_false, not_or]
      and_intros <;> exact nonzero (by omega) (by omega)
  · rintro rfl
    decide

/-! ## What comes out beyond ASCII -/

theorem toNat_ofNat_of_valid {n : Nat} (valid : n.isValidChar) : (Char.ofNat n).toNat = n := by
  rw [Char.ofNat, dif_pos valid]
  rfl

/-- How far apart the characters are that begin alike, when some bytes are owed. -/
def span : Nat → Nat
  | 0 => 1
  | owed + 1 => 64 * span owed

/-- The next byte is beyond 127, and so is the least character that can be completed from here. -/
def Beyond : State → Prop
  | .start => True
  | .inside owed code low _ =>
    0x80 ≤ low.toNat ∧ 0x80 ≤ (code * 64 + (low.toNat - 0x80)) * span owed

end Utf8

namespace Program

open Instruction (ofChar?)
open Utf8 (State Beyond feed feedStart feedAll)

theorem ofChar?_of_beyond {c : Char} (beyond : 0x80 ≤ c.toNat) : ofChar? c = none := by
  cases read : ofChar? c with
  | none => rfl
  | some i =>
    rw [Instruction.eq_symbol_of_ofChar? read] at beyond
    cases i <;> exact absurd beyond (by decide)

theorem ofChar?_ofNat {n : Nat} (beyond : 0x80 ≤ n) : ofChar? (Char.ofNat n) = none := by
  by_cases valid : n.isValidChar
  · exact ofChar?_of_beyond (by rwa [Utf8.toNat_ofNat_of_valid valid])
  · rw [Char.ofNat, dif_neg valid]
    rfl

theorem ofChar?_byteChar {b : UInt8} (beyond : 0x80 ≤ b.toNat) : ofChar? (byteChar b) = none :=
  ofChar?_ofNat beyond

/-- The instructions among the parts of a text; a mark is none. -/
def instructionsOf (parts : List (Option Char)) : List Instruction :=
  parts.filterMap (·.bind ofChar?)

/-! ## Decoding keeps the program -/

theorem instructionsOf_feedStart (b : UInt8) :
    Beyond (feedStart b).1 ∧
      instructionsOf (feedStart b).2 = (ofChar? (byteChar b)).toList := by
  by_cases ascii : b < 0x80
  · rw [feedStart, if_pos ascii]
    refine ⟨trivial, ?_⟩
    rw [instructionsOf, List.filterMap_cons, Option.bind_some, ← byteChar]
    cases ofChar? (byteChar b) <;> rfl
  · have beyond : 0x80 ≤ b.toNat :=
      Nat.le_of_not_lt fun low => ascii (UInt8.lt_iff_toNat_lt.mpr low)
    rw [feedStart, if_neg ascii, ofChar?_byteChar beyond]
    simp only [UInt8.lt_iff_toNat_lt, ← UInt8.toNat_inj, UInt8.reduceToNat]
    -- none of these bytes completes a character, and each leaves room only for larger ones
    repeat' split
    all_goals refine ⟨?_, rfl⟩
    all_goals simp only [Beyond, Utf8.span, UInt8.reduceToNat]
    all_goals omega

theorem instructionsOf_feed {s : State} (beyond : Beyond s) (b : UInt8) :
    Beyond (feed s b).1 ∧ instructionsOf (feed s b).2 = (ofChar? (byteChar b)).toList := by
  cases s with
  | start => exact instructionsOf_feedStart b
  | inside owed code low high =>
    obtain ⟨above, large⟩ := beyond
    by_cases fits : low ≤ b ∧ b ≤ high
    · have behind : low.toNat ≤ b.toNat := UInt8.le_iff_toNat_le.mp fits.1
      rw [feed, if_pos fits, ofChar?_byteChar (Nat.le_trans above behind)]
      cases owed with
      | zero =>
        have none : ofChar? (Char.ofNat (code * 64 + (b.toNat - 0x80))) = none :=
          ofChar?_ofNat (by simp only [Utf8.span] at large; omega)
        exact ⟨trivial, by simp [instructionsOf, none]⟩
      | succ owed =>
        refine ⟨⟨Nat.le_refl _, Nat.le_trans large ?_⟩, rfl⟩
        rw [Utf8.span, ← Nat.mul_assoc]
        refine Nat.mul_le_mul_right _ ?_
        simp only [UInt8.reduceToNat]
        omega
    · -- the byte breaks the character off, and stands for itself
      rw [feed, if_neg fits]
      obtain ⟨onward, same⟩ := instructionsOf_feedStart b
      exact ⟨onward, same⟩

theorem instructionsOf_feedAll {s : State} (beyond : Beyond s) (bytes : List UInt8) :
    instructionsOf (feedAll s bytes).2 = (bytes.map byteChar).filterMap ofChar? := by
  induction bytes generalizing s with
  | nil => rfl
  | cons b bytes ih =>
    obtain ⟨onward, first⟩ := instructionsOf_feed beyond b
    rw [Utf8.feedAll_cons, instructionsOf, List.filterMap_append, ← instructionsOf, first,
      ← instructionsOf, ih onward]
    cases read : ofChar? (byteChar b) <;> simp [read]

/-- However bytes are decoded, their program is that of the bytes themselves. -/
theorem ofChars_decodeLossy (bytes : List UInt8) :
    ofChars (Utf8.decodeLossy bytes) = ofBytes bytes := by
  have mark (part : Option Char) :
      ofChar? (part.getD Utf8.replacement) = part.bind ofChar? := by
    cases part <;> rfl
  have finished (s : State) : instructionsOf (Utf8.finish s) = [] := by
    cases s <;> rfl
  have decoded :
      (Utf8.decodeLossy bytes).filterMap ofChar? = instructionsOf (Utf8.parts bytes) := by
    rw [Utf8.decodeLossy, List.filterMap_map, instructionsOf]
    exact congrArg (List.filterMap · _) (funext mark)
  rw [ofChars, decoded, Utf8.parts, instructionsOf, List.filterMap_append, ← instructionsOf,
    instructionsOf_feedAll (s := .start) trivial, ← instructionsOf, finished, List.append_nil]
  rfl

theorem ofBytes_encode (cs : List Char) : ofBytes (Utf8.encode cs) = ofChars cs := by
  rw [← ofChars_decodeLossy, Utf8.decodeLossy_encode]

theorem ofBytes_append (front back : List UInt8) :
    ofBytes (front ++ back) = ofBytes front ++ ofBytes back := by
  rw [ofBytes, List.map_append, ofChars_append]
  rfl

end Program

/-- Bytes have the same program as they stand and decoded, with whatever is ill-formed in them; a
text has that of its bytes; the program of two pieces is that of the pieces, wherever the cut is,
also inside a character; and a program that is written out and loaded again is the same. -/
theorem program_of_decoding :
    (∀ bytes, Program.ofChars (Utf8.decodeLossy bytes) = Program.ofBytes bytes) ∧
    (∀ text, Program.ofBytes (Utf8.bytesOf text) = Program.ofText text) ∧
    (∀ front back : String,
      Program.ofText (front ++ back) = Program.ofText front ++ Program.ofText back) ∧
    (∀ front back : List UInt8,
      Program.ofBytes (front ++ back) = Program.ofBytes front ++ Program.ofBytes back ∧
      Program.ofChars (Utf8.decodeLossy (front ++ back)) =
        Program.ofChars (Utf8.decodeLossy front) ++ Program.ofChars (Utf8.decodeLossy back)) ∧
    ∀ m : Machine, (m.load (Program.ofText m.program.text)).program = m.program := by
  refine ⟨Program.ofChars_decodeLossy, fun text => Program.ofBytes_encode text.toList, ?_, ?_, ?_⟩
  · intro front back
    rw [Program.ofText, String.toList_append, Program.ofChars_append]
    rfl
  · intro front back
    simp only [Program.ofChars_decodeLossy]
    exact ⟨Program.ofBytes_append front back, Program.ofBytes_append front back⟩
  · exact fun m => Program.ofText_text m.program

/-- A command right behind a character that is broken off is kept, and what follows is no part of
that character. -/
example : Program.ofChars (Utf8.decodeLossy [0xF0, 0x9F, 0x2B, 0x98, 0x2E]) =
    #[.increment, .output] := by decide

end Brainfuck
