import Brainfuck.Proofs.Decoding
import Brainfuck.Proofs.SharedInput

/-! # The lines of decoded bytes

Bytes can be cut into lines and then decoded, or decoded and then cut.  The lines are the same, with
whatever is ill-formed in them.

* `Utf8.feed_newline` — a line feed ends the character that it finds unfinished and stands for
  itself, so the decoder is between characters behind every line;
* `Utf8.newline_notMem_decodeLossy` — nothing else is read as a line feed;
* `splitLine_decodeLossy` — the first line of the decoded bytes is the first line, decoded.

Both rest on the states that decoding can get to (`Beyond`): the byte that goes on with a character
is no line feed, and the character that comes of it is none either.
-/

namespace Brainfuck

namespace Utf8

variable {s : State} {b : UInt8} {bytes : List UInt8}

/-! ## Line feeds -/

theorem beyond_feed (beyond : Beyond s) (b : UInt8) : Beyond (feed s b).1 :=
  (Program.instructionsOf_feed beyond b).1

theorem beyond_feedAll (beyond : Beyond s) (bytes : List UInt8) : Beyond (feedAll s bytes).1 := by
  induction bytes generalizing s with
  | nil => exact beyond
  | cons b bytes ih =>
    rw [feedAll_cons]
    exact ih (beyond_feed beyond b)

/-- A line feed ends the character that is unfinished, if one is, and stands for itself. -/
theorem feed_newline (beyond : Beyond s) : feed s 10 = (.start, finish s ++ [some '\n']) := by
  cases s with
  | start => rfl
  | inside owed code low high =>
    have above : ¬ (low ≤ 10 ∧ 10 ≤ high) := by
      rintro ⟨below, _⟩
      have below : low.toNat ≤ 10 := UInt8.le_iff_toNat_le.mp below
      have large : 0x80 ≤ low.toNat := beyond.1
      omega
    rw [feed, if_neg above]
    rfl

theorem ofNat_ne_newline {n : Nat} (other : n ≠ 10) : Char.ofNat n ≠ '\n' := by
  by_cases valid : n.isValidChar
  · intro same
    have value := toNat_ofNat_of_valid valid
    rw [same] at value
    exact other value.symm
  · rw [Char.ofNat, dif_neg valid]
    decide

/-- Between characters a byte is one itself, is ill-formed, or begins one. -/
theorem feedStart_cases {P : State × List (Option Char) → Prop} (b : UInt8)
    (itself : P (.start, [some (Char.ofNat b.toNat)])) (illFormed : P (.start, [none]))
    (begins : ∀ owed code low high, P (.inside owed code low high, [])) : P (feedStart b) := by
  unfold feedStart
  repeat' refine iteInduction (fun _ => ?_) fun _ => ?_
  all_goals first | exact itself | exact illFormed | exact begins _ _ _ _

theorem newline_notMem_feedStart (other : b ≠ 10) : some '\n' ∉ (feedStart b).2 := by
  have value : b.toNat ≠ 10 := fun same => other (UInt8.toNat_inj.mp same)
  have itself : Char.ofNat b.toNat ≠ '\n' := ofNat_ne_newline value
  exact feedStart_cases (P := fun read => some '\n' ∉ read.2) b (by simp [itself.symm]) (by simp)
    fun _ _ _ _ => by simp

/-- A byte that is no line feed does not make one. -/
theorem newline_notMem_feed (beyond : Beyond s) (other : b ≠ 10) : some '\n' ∉ (feed s b).2 := by
  cases s with
  | start => exact newline_notMem_feedStart other
  | inside owed code low high =>
    obtain ⟨above, large⟩ := beyond
    by_cases fits : low ≤ b ∧ b ≤ high
    · rw [feed, if_pos fits]
      cases owed with
      | zero =>
        have behind : low.toNat ≤ b.toNat := UInt8.le_iff_toNat_le.mp fits.1
        have made : Char.ofNat (code * 64 + (b.toNat - 0x80)) ≠ '\n' :=
          ofNat_ne_newline (by simp only [span] at large; omega)
        simp [made.symm]
      | succ owed => simp
    · rw [feed, if_neg fits]
      simp [newline_notMem_feedStart other]

theorem newline_notMem_feedAll (beyond : Beyond s) (missing : 10 ∉ bytes) :
    some '\n' ∉ (feedAll s bytes).2 := by
  induction bytes generalizing s with
  | nil => simp
  | cons b bytes ih =>
    rw [List.mem_cons, not_or] at missing
    rw [feedAll_cons, List.mem_append, not_or]
    exact ⟨newline_notMem_feed beyond fun same => missing.1 same.symm,
      ih (beyond_feed beyond b) missing.2⟩

theorem newline_notMem_decodeLossy (missing : 10 ∉ bytes) : '\n' ∉ decodeLossy bytes := by
  have read : some '\n' ∉ (feedAll .start bytes).2 := newline_notMem_feedAll trivial missing
  have finished (s : State) : some '\n' ∉ finish s := by cases s <;> simp [finish]
  rw [decodeLossy, parts, List.mem_map]
  rintro ⟨part, member, same⟩
  cases part with
  | none => exact absurd same (by decide)
  | some c =>
    obtain rfl : c = '\n' := same
    exact (List.mem_append.mp member).elim read (finished _)

/-! ## Line by line -/

theorem decodeLossy_append_newline (front back : List UInt8) :
    decodeLossy (front ++ 10 :: back) = decodeLossy front ++ '\n' :: decodeLossy back := by
  have ends := feed_newline (beyond_feedAll (s := .start) trivial front)
  simp [decodeLossy, parts, feedAll_append, feedAll_cons, ends]

/-- Decoding bytes and cutting them into lines can change places. -/
theorem splitLine_decodeLossy (bytes : List UInt8) :
    Text.splitLine '\n' (decodeLossy bytes) =
      (decodeLossy (Text.splitLine 10 bytes).1, decodeLossy (Text.splitLine 10 bytes).2) := by
  by_cases member : (10 : UInt8) ∈ bytes
  · obtain ⟨body, rest, rfl, missing⟩ := List.eq_append_cons_of_mem member
    have line : decodeLossy (body ++ [10]) = decodeLossy body ++ ['\n'] :=
      decodeLossy_append_newline body []
    rw [decodeLossy_append_newline, Text.splitLine_append_cons missing,
      Text.splitLine_append_cons (newline_notMem_decodeLossy missing), line]
  · rw [Text.splitLine_of_notMem member,
      Text.splitLine_of_notMem (newline_notMem_decodeLossy member)]
    rfl

/-- A byte that completes nothing leaves something unfinished. -/
theorem finish_feed_ne_nil (silent : (feed s b).2 = []) : finish (feed s b).1 ≠ [] := by
  cases s with
  | start =>
    exact feedStart_cases (P := fun read => read.2 = [] → finish read.1 ≠ []) b (by simp) (by simp)
      (fun _ _ _ _ _ => by simp [finish]) silent
  | inside owed code low high =>
    by_cases fits : low ≤ b ∧ b ≤ high
    · cases owed with
      | zero => simp [feed, fits] at silent
      | succ owed => simp [feed, fits, finish]
    · simp [feed, fits] at silent

theorem feedAll_cons_ne_nil (s : State) (b : UInt8) (bytes : List UInt8) :
    (feedAll s (b :: bytes)).2 ++ finish (feedAll s (b :: bytes)).1 ≠ [] := by
  induction bytes generalizing s b with
  | nil =>
    by_cases silent : (feed s b).2 = []
    · simp [feedAll_cons, silent, finish_feed_ne_nil silent]
    · simp [feedAll_cons, silent]
  | cons c bytes ih =>
    rw [feedAll_cons, List.append_assoc]
    exact List.append_ne_nil_of_right_ne_nil _ (ih _ c)

/-- Of some bytes something is read. -/
theorem decodeLossy_eq_nil_iff : decodeLossy bytes = [] ↔ bytes = [] := by
  constructor
  · intro none
    cases bytes with
    | nil => rfl
    | cons b bytes =>
      exact absurd (List.map_eq_nil_iff.mp none) (feedAll_cons_ne_nil .start b bytes)
  · rintro rfl
    rfl

end Utf8

end Brainfuck
