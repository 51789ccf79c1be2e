import Brainfuck.Program.File
import Brainfuck.Proofs.Decoding

/-! # Paths and the files that they lead to

What the system makes of a path, and what is read of a program file.

* `LooseText.systemPath_eq_unencodable_iff`, `systemPath_eq_nul_iff` — the texts that are no path;
* `LooseText.systemPath_ofString` — a text of characters is the path that it spells;
* `readProgramFile_eq_badPath_iff` — nothing else about a file is mistaken for a bad path;
* `readProgramFile_of_read`, `length_of_readProgramFile` — what is read, and how long it is at most.
-/

namespace Brainfuck

/-! ## Paths -/

namespace CodePoint

theorem zero_mem_pathBytes_iff {p : CodePoint} (encodable : p.isEncodable = true) :
    0 ∈ p.pathBytes ↔ p = .char '\x00' := by
  cases p with
  | char c => simp [pathBytes, Utf8.zero_mem_encodeChar_iff]
  | half n =>
    simp only [isEncodable, Bool.and_eq_true, decide_eq_true_eq] at encodable
    refine iff_of_false (fun zero => ?_) (by simp)
    -- the byte of a half is one that no character has alone
    have value := Utf8.toNat_ofNat_of_lt (n := n.val - 0x400) (by omega)
    rw [← List.mem_singleton.mp zero] at value
    have small : n.val - 0x400 = 0 := value.symm
    omega

end CodePoint

namespace LooseText

variable {path : LooseText}

theorem systemPath_eq_unencodable_iff :
    path.systemPath = .error .unencodable ↔ ∃ p ∈ path.points, p.isEncodable = false := by
  unfold systemPath
  split
  · rename_i homeless
    refine iff_of_true rfl ?_
    simpa using homeless
  · rename_i encodable
    refine iff_of_false ?_ (by simpa using encodable)
    dsimp only
    split <;> simp

theorem systemPath_eq_nul_iff :
    path.systemPath = .error .nul ↔
      (∀ p ∈ path.points, p.isEncodable = true) ∧ .char '\x00' ∈ path.points := by
  unfold systemPath
  split
  · rename_i homeless
    refine iff_of_false (by simp) fun both => ?_
    rw [List.all_eq_true.mpr both.1] at homeless
    cases homeless
  · rename_i encodable
    have encodable : ∀ p ∈ path.points, p.isEncodable = true := by simpa using encodable
    have zero : 0 ∈ path.points.flatMap CodePoint.pathBytes ↔ .char '\x00' ∈ path.points := by
      rw [List.mem_flatMap]
      constructor
      · rintro ⟨p, inside, zero⟩
        rwa [← (CodePoint.zero_mem_pathBytes_iff (encodable p inside)).mp zero]
      · intro inside
        exact ⟨_, inside, (CodePoint.zero_mem_pathBytes_iff rfl).mpr rfl⟩
    dsimp only
    split
    · rename_i found
      exact iff_of_true rfl ⟨encodable, zero.mp found⟩
    · rename_i missing
      exact iff_of_false (by simp) fun both => missing (zero.mpr both.2)

theorem exists_systemPath_eq_error_iff :
    (∃ fault, path.systemPath = .error fault) ↔
      (∃ p ∈ path.points, p.isEncodable = false) ∨ .char '\x00' ∈ path.points := by
  constructor
  · rintro ⟨fault, bad⟩
    cases fault with
    | unencodable => exact .inl (systemPath_eq_unencodable_iff.mp bad)
    | nul => exact .inr (systemPath_eq_nul_iff.mp bad).2
  · intro bad
    by_cases homeless : ∃ p ∈ path.points, p.isEncodable = false
    · exact ⟨_, systemPath_eq_unencodable_iff.mpr homeless⟩
    · have encodable : ∀ p ∈ path.points, p.isEncodable = true := by simpa using homeless
      exact ⟨_, systemPath_eq_nul_iff.mpr ⟨encodable, bad.resolve_left homeless⟩⟩

/-- Any text of characters has bytes. -/
theorem isEncodable_of_mem_ofString {s : String} {p : CodePoint}
    (inside : p ∈ (ofString s).points) : p.isEncodable = true := by
  obtain ⟨c, _, rfl⟩ := List.mem_map.mp inside
  rfl

/-- The system is given the path that a text of characters spells. -/
theorem systemPath_ofString {s : String} (clean : '\x00' ∉ s.toList) :
    systemPath s = .ok (some s) := by
  have encodable : (ofString s).points.all CodePoint.isEncodable = true :=
    List.all_eq_true.mpr fun _ => isEncodable_of_mem_ofString
  have bytes : (ofString s).points.flatMap CodePoint.pathBytes = Utf8.encode s.toList := by
    rw [ofString, ofChars, List.flatMap_map]
    rfl
  have nonzero : 0 ∉ Utf8.encode s.toList := by
    rw [Utf8.encode, List.mem_flatMap]
    rintro ⟨c, inside, zero⟩
    exact clean (Utf8.zero_mem_encodeChar_iff.mp zero ▸ inside)
  simp only [systemPath, encodable, bytes, nonzero, Utf8.decode?_encode, Option.map_some,
    String.ofList_toList, Bool.not_true, Bool.false_eq_true, if_false]

end LooseText

namespace Workplace

variable {w : Workplace} {path : String} {content : List UInt8}

theorem validPath_iff : validPath path = true ↔ '\x00' ∉ path.toList := by
  simp only [validPath, List.all_eq_true, ne_eq, decide_eq_true_eq]
  constructor
  · intro clean member
    exact clean _ member rfl
  · rintro missing c member rfl
    exact missing member

/-- The size that is asked for before a file is read is that of what is read. -/
theorem size_of_read (read : w.read path = .ok content) : w.size path = .ok content.length := by
  unfold Workplace.read at read
  split at read
  · cases read
  · cases read
  · rename_i located
    cases read
    rw [size, located]

end Workplace

/-! ## Program files -/

variable {w : Workplace} {path : LooseText} {limit : Int}

/-- A file that there is can be refused for other things than its path. -/
theorem readProgramFile_eq_badPath_iff {fault : PathFault} :
    readProgramFile w path limit = .error (.badPath fault) ↔ path.systemPath = .error fault := by
  unfold readProgramFile
  split
  · rename_i found
    simp [found]
  · rename_i found
    simp [found]
  · rename_i found
    rw [found]
    refine iff_of_false ?_ (by simp)
    repeat' split
    all_goals simp

theorem readProgramFile_ne_badPath (fault : PathFault)
    (encodable : ∀ p ∈ path.points, p.isEncodable = true) (clean : .char '\x00' ∉ path.points) :
    readProgramFile w path limit ≠ .error (.badPath fault) := by
  intro bad
  have cause := LooseText.exists_systemPath_eq_error_iff.mp
    ⟨fault, readProgramFile_eq_badPath_iff.mp bad⟩
  obtain ⟨p, inside, homeless⟩ | nul := cause
  · rw [encodable p inside] at homeless
    cases homeless
  · exact clean nul

theorem readProgramFile_of_read {place : String} {content : List UInt8}
    (read : w.read place = .ok content) (clean : '\x00' ∉ place.toList)
    (fits : content.length ≤ limit) :
    readProgramFile w place limit = .ok (String.ofList (content.map Program.byteChar)) := by
  have small : ¬ limit < content.length := Int.not_lt.mpr fits
  simp [readProgramFile, LooseText.systemPath_ofString clean, Workplace.size_of_read read, read,
    small]

theorem length_of_readProgramFile {source : String}
    (read : readProgramFile w path limit = .ok source) : (source.length : Int) ≤ limit := by
  unfold readProgramFile at read
  split at read
  · cases read
  · cases read
  · split at read
    · cases read
    · rename_i size sized
      split at read
      · cases read
      · rename_i fits
        split at read
        · cases read
        · rename_i content found
          cases read
          rw [Workplace.size_of_read found] at sized
          cases sized
          rw [String.length_ofList, List.length_map]
          omega

end Brainfuck
