/-! # Lines

Line ends in texts and bytes.

* `unifyLineEnds` — every kind of line end becomes the plain one;
* `splitLine` — the first line, with its line end, and the rest;
* `splitLine_append`, `splitLine_cases` — the two together are the sequence, and the line ends where
  its first line end is.
-/

namespace Brainfuck.Text

/-- Goes on with `done`, what was read so far, in reverse. -/
def unifyLineEndsFrom (done : List Char) : List Char → List Char
  | [] => done.reverse
  | '\r' :: '\n' :: rest => unifyLineEndsFrom ('\n' :: done) rest
  | '\r' :: rest => unifyLineEndsFrom ('\n' :: done) rest
  | c :: rest => unifyLineEndsFrom (c :: done) rest

/-- A text in which a carriage return, alone or before a line feed, ends a line like a line
feed does. -/
def unifyLineEnds (cs : List Char) : List Char :=
  unifyLineEndsFrom [] cs

/-- The first line of a sequence with the element that ends it, and the rest. -/
def splitLine [BEq α] (lineEnd : α) (xs : List α) : List α × List α :=
  let behind := xs.dropWhile (· != lineEnd)
  (xs.takeWhile (· != lineEnd) ++ behind.take 1, behind.drop 1)

/-! ## The first line -/

section

variable {α : Type} [BEq α] {lineEnd : α} {xs body : List α}

theorem splitLine_append (lineEnd : α) (xs : List α) :
    (splitLine lineEnd xs).1 ++ (splitLine lineEnd xs).2 = xs := by
  simp only [splitLine]
  rw [List.append_assoc, List.take_append_drop, List.takeWhile_append_dropWhile]

theorem splitLine_fst_ne_nil (more : xs ≠ []) : (splitLine lineEnd xs).1 ≠ [] := by
  intro empty
  rw [splitLine, List.append_eq_nil_iff] at empty
  obtain ⟨body, stop⟩ := empty
  have behind : xs.dropWhile (· != lineEnd) = [] := by
    simpa using stop
  apply more
  rw [← List.takeWhile_append_dropWhile (p := (· != lineEnd)) (l := xs), body, behind]
  rfl

/-- A line goes up to the first line end and has it, or else it is all that there is. -/
theorem splitLine_cases [LawfulBEq α] (lineEnd : α) (xs : List α) :
    ∃ body, lineEnd ∉ body ∧
      ((splitLine lineEnd xs).1 = body ++ [lineEnd] ∨
        (splitLine lineEnd xs).1 = body ∧ (splitLine lineEnd xs).2 = []) := by
  refine ⟨xs.takeWhile (· != lineEnd), fun member => ?_, ?_⟩
  · have passed := List.all_eq_true.mp List.all_takeWhile lineEnd member
    simp at passed
  · rw [splitLine]
    have ends := List.head?_dropWhile_not (· != lineEnd) xs
    cases found : xs.dropWhile (· != lineEnd) with
    | nil => simp
    | cons e rest =>
      rw [found] at ends
      have same : e = lineEnd := by simpa using ends
      simp [same]

variable [LawfulBEq α]

theorem bne_of_notMem (missing : lineEnd ∉ body) : ∀ x ∈ body, (x != lineEnd) = true := by
  intro x member
  rw [bne_iff_ne]
  rintro rfl
  exact missing member

theorem splitLine_append_cons (missing : lineEnd ∉ body) (rest : List α) :
    splitLine lineEnd (body ++ lineEnd :: rest) = (body ++ [lineEnd], rest) := by
  have passed := bne_of_notMem missing
  rw [splitLine, List.takeWhile_append_of_pos passed, List.dropWhile_append_of_pos passed]
  simp

theorem splitLine_of_notMem (missing : lineEnd ∉ body) : splitLine lineEnd body = (body, []) := by
  have passed := bne_of_notMem missing
  rw [← List.append_nil body, splitLine, List.takeWhile_append_of_pos passed,
    List.dropWhile_append_of_pos passed]
  simp

end

end Brainfuck.Text
