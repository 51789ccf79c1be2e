import Brainfuck.Files
import Brainfuck.Program

/-! # Program files

A program file is read whole, if it is not larger than a limit.  Its bytes are the characters
of the source, so that any file can be read.
-/

namespace Brainfuck

/-- Why a program file cannot be used. -/
inductive ProgramFileError where
  | cannotOpen (path : LooseText)
  | tooLarge (size : Nat) (limit : Int)
  /-- The system cannot be given the path at all. -/
  | badPath (fault : PathFault)
  deriving DecidableEq, Repr

/-- What is wrong, in words. -/
def ProgramFileError.message : ProgramFileError → LooseText
  | .cannotOpen path => "Cannot open file " ++ path
  | .tooLarge size limit => s!"File too large ({size} bytes, limit {limit})"
  | .badPath fault => fault.message

/-- The largest program file, in bytes, when nothing else is asked for. -/
def defaultMaxFileSize : Nat := 1000000

/-- The source text of the program file at a path. -/
def readProgramFile (w : Workplace) (path : LooseText) (limit : Int) :
    Except ProgramFileError String :=
  match path.systemPath with
  | .error fault => .error (.badPath fault)
  -- every name in the tree is UTF-8
  | .ok none => .error (.cannotOpen path)
  | .ok (some place) =>
    match w.size place with
    | .error _ => .error (.cannotOpen path)
    | .ok size =>
      if limit < size then .error (.tooLarge size limit)
      else
        match w.read place with
        | .error _ => .error (.cannotOpen path)
        | .ok content => .ok (String.ofList (content.map Program.byteChar))

end Brainfuck
