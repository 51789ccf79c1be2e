import Brainfuck.Text.Loose
import Brainfuck.Text.Utf8

/-! # Files

A file system as a value: a tree of directories and files, with a working directory, in which
paths are looked up.

* `LooseText.systemPath` — the path that the system is given for a text;
* `FileTree` — what is stored under which path;
* `Workplace.locate` — what a path leads to, or why it leads nowhere;
* `Workplace.stations` — what has to be known of the tree to look a path up;
* `Workplace.read` — the bytes of a file.
-/

namespace Brainfuck

/-! ## Paths -/

/-- Why a text is no path that the system can be given. -/
inductive PathFault where
  /-- It has half of a surrogate pair that stands for no byte. -/
  | unencodable
  /-- It has the character NUL. -/
  | nul
  deriving DecidableEq, Repr

def PathFault.message : PathFault → String
  | .unencodable => "surrogates not allowed"
  | .nul => "embedded null byte"

namespace CodePoint

/-- Whether a code point has bytes in a path.  Of the halves only those from U+DC80 to U+DCFF do:
they stand for the bytes of a name that is no UTF-8, one for each. -/
def isEncodable : CodePoint → Bool
  | char _ => true
  | half n => 0x480 ≤ n.val && n.val < 0x500

/-- The bytes of a code point in a path. -/
def pathBytes : CodePoint → List UInt8
  | char c => String.utf8EncodeChar c
  | half n => [UInt8.ofNat (n.val - 0x400)]

end CodePoint

/-- The path that the system is given for a text; `none` if its bytes are no UTF-8. -/
def LooseText.systemPath (path : LooseText) : Except PathFault (Option String) :=
  if !path.points.all CodePoint.isEncodable then .error .unencodable
  else
    let bytes := path.points.flatMap CodePoint.pathBytes
    if 0 ∈ bytes then .error .nul
    else .ok ((Utf8.decode? bytes).map String.ofList)

/-! ## The tree -/

inductive Entry where
  | file (content : List UInt8)
  | directory
  deriving DecidableEq, Repr

/-- Why a path leads to nothing that can be read. -/
inductive PathError where
  | notFound
  | notADirectory
  | isADirectory
  | nameTooLong
  deriving DecidableEq, Repr

/-- The error with its number, as the system words it. -/
def PathError.message : PathError → String
  | .notFound => "[Errno 2] No such file or directory"
  | .notADirectory => "[Errno 20] Not a directory"
  | .isADirectory => "[Errno 21] Is a directory"
  | .nameTooLong => "[Errno 36] File name too long"

/-- Files and directories by their paths from the root of the tree, whose names are UTF-8.  A
directory is there as soon as anything is below it. -/
structure FileTree where
  entries : List (List String × Entry)

namespace FileTree

/-- What stands at a path of names; the root is a directory. -/
def lookup (tree : FileTree) (names : List String) : Option Entry :=
  if names.isEmpty then some .directory
  else
    match tree.entries.find? fun (path, _) => path == names with
    | some (_, entry) => some entry
    | none =>
      if tree.entries.any fun (path, _) => names.isPrefixOf path then some .directory else none

end FileTree

/-- A file tree and the directory in which relative paths start, with the words of what reads the
files there. -/
structure Workplace where
  tree : FileTree
  directory : List String := []
  /-- Whether the root of the tree is that of the file system, so that absolute paths lead
  into the tree and nothing is outside of it. -/
  rooted : Bool := false
  /-- What is said of a settings file that is no YAML, by its path and its content. -/
  yamlComplaint : String → List UInt8 → LooseText := fun _ _ => "malformed"

namespace Workplace

def ofEntries (entries : List (List String × Entry)) : Workplace :=
  { tree := ⟨entries⟩ }

/-! ## Looking up a path -/

/-- A place reached on the way along a path: inside the tree, or outside of it, where nothing
is known but that there are directories. -/
inductive Spot where
  | inside (names : List String) (entry : Entry)
  | outside
  deriving DecidableEq, Repr

/-- The longest name of a file, in bytes. -/
def maxName : Nat := 255

/-- The longest path, in bytes. -/
def maxPath : Nat := 4095

/-- Whether a further name may follow. -/
def Spot.isDirectory : Spot → Bool
  | .inside _ (.file _) => false
  | _ => true

def root (w : Workplace) : Spot :=
  if w.rooted then .inside [] .directory else .outside

/-- Goes from a place to the next name of a path. -/
def next (w : Workplace) (spot : Spot) (name : String) : Except PathError Spot :=
  if !spot.isDirectory then .error .notADirectory
  else if name = "" ∨ name = "." then .ok spot
  else if name = ".." then
    match spot with
    | .outside => .ok .outside
    | .inside names _ =>
      if names.isEmpty then .ok w.root else .ok (.inside names.dropLast .directory)
  else if maxName < name.utf8ByteSize then .error .nameTooLong
  else
    match spot with
    | .outside => .error .notFound
    | .inside names _ =>
      match w.tree.lookup (names ++ [name]) with
      | some entry => .ok (.inside (names ++ [name]) entry)
      | none => .error .notFound

def start (w : Workplace) (path : String) : Spot :=
  if path.toList.head? = some '/' then w.root else .inside w.directory .directory

/-- What a path leads to.  An empty name or a dot stays where it is, two dots go up, and only
a directory can have anything behind it. -/
def locate (w : Workplace) (path : String) : Except PathError Entry :=
  if path = "" then .error .notFound
  else if maxPath < path.utf8ByteSize then .error .nameTooLong
  else
    match (path.splitOn "/").foldlM w.next (w.start path) with
    | .error e => .error e
    | .ok (.inside _ entry) => .ok entry
    | .ok .outside => .ok .directory

/-- The places in the tree that lie on the way along a path, by their names. -/
def stations (w : Workplace) (path : String) : List (List String) :=
  let start := if path.toList.head? = some '/' then [] else w.directory
  (path.splitOn "/").scanl
    (fun names name =>
      if name = "" ∨ name = "." then names
      else if name = ".." then names.dropLast
      else names ++ [name])
    start

/-- The bytes of the file that a path leads to. -/
def read (w : Workplace) (path : String) : Except PathError (List UInt8) :=
  match w.locate path with
  | .error e => .error e
  | .ok .directory => .error .isADirectory
  | .ok (.file content) => .ok content

/-- The size the system gives for a directory. -/
def directorySize : Nat := 4096

/-- The size of what a path leads to, in bytes. -/
def size (w : Workplace) (path : String) : Except PathError Nat :=
  match w.locate path with
  | .error e => .error e
  | .ok .directory => .ok directorySize
  | .ok (.file content) => .ok content.length

/-- Whether a path can be handed to the system at all: it may not hold the character NUL. -/
def validPath (path : String) : Bool :=
  path.toList.all fun c => c ≠ '\x00'

end Workplace

end Brainfuck
