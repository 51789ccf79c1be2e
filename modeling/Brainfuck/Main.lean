import Brainfuck.CommandLine

/-! # The program

Arguments, variables, files and streams of the process are handed to `commandLine`, and what
it leaves behind is written out.  A session is taken turn by turn, so that its lines are
answered as they come.
-/

namespace Brainfuck.CommandLine

/-- More steps than any program takes that ends while somebody waits for it. -/
def stepLimit : Nat := 1000000000000000000

/-- What stands at a place of the file system. -/
def entryAt (names : List String) : IO (Option Entry) := do
  match ← (IO.FS.realPath ("/" ++ "/".intercalate names)).toBaseIO with
  | .error _ => return none
  | .ok place =>
    if ← place.isDir then return some .directory
    match ← (IO.FS.readBinFile place).toBaseIO with
    | .error _ => return none
    | .ok content => return some (.file content.toList)

/-- Adds to a workplace what the file system has along a path. -/
def survey (w : Workplace) (path : String) : IO Workplace := do
  let mut entries := w.tree.entries
  for names in w.stations path do
    if let some entry ← entryAt names then
      entries := (names, entry) :: entries
  return { w with tree := ⟨entries⟩ }

/-- The working directory, with the variable files there and above. -/
def workplace : IO Workplace := do
  let directory := ((← IO.currentDir).toString.splitOn "/").filter (· ≠ "")
  let mut w : Workplace := { tree := ⟨[]⟩, directory := directory, rooted := true }
  for depth in List.range (directory.length + 1) do
    w ← survey w ("/" ++ "/".intercalate (directory.take depth ++ [DotEnv.fileName]))
  return w

/-- The variables of the process that settings can depend on. -/
def environment (w : Workplace) : IO Environment := do
  let mut env : Environment := []
  for name in DotEnv.relevantNames w do
    if let some text ← IO.getEnv name then
      env := env ++ [(name, .ofString text)]
  return env

def report (output : List UInt8) (errors : String) : IO Unit := do
  let stdout ← IO.getStdout
  stdout.write ⟨output.toArray⟩
  stdout.flush
  (← IO.getStderr).putStr errors

/-- Writes out what an invocation leaves behind and gives its exit status. -/
def finish (o : Outcome) : IO UInt32 := do
  report o.output o.errors
  return UInt32.ofNat (o.ending.status?.getD 1)

/-- All that is left of a stream. -/
partial def readAll (stream : IO.FS.Stream) (done : ByteArray) : IO ByteArray := do
  let more ← stream.read 65536
  if more.isEmpty then return done else readAll stream (done ++ more)

/-- The next line of a stream, with its line end. -/
partial def readLine (stream : IO.FS.Stream) (done : ByteArray) : IO ByteArray := do
  let more ← stream.read 1
  let done := done ++ more
  if more.isEmpty || more.toList = [10] then return done else readLine stream done

/-- A shell with a line to take, and with the whole input when the line runs a program that
reads; the workplace has what the line loads. -/
def prepare (w : Workplace) (s : Shell) : IO (Workplace × Shell) := do
  let stdin ← IO.getStdin
  let refill (s : Shell) (bytes : ByteArray) : Shell :=
    let input := Input.bytes (s.machine.input.unread ++ bytes.toList)
    { s with machine := { s.machine with input := input } }
  let s ← if s.machine.input.unread.isEmpty then refill s <$> readLine stdin .empty else pure s
  match s.nextLine .shared with
  | none => return (w, s)
  | some (line, _, _) =>
    match Command.ofLine (.ofChars line) with
    | .load (some path) =>
      match path.systemPath with
      | .ok (some place) => return (← survey w place, s)
      | _ => return (w, s)
    | .run =>
      if s.machine.program.contains .input then return (w, refill s (← readAll stdin .empty))
      else return (w, s)
    | _ => return (w, s)

/-- Takes turns until the session is over. -/
partial def converse (w : Workplace) (s : Shell) : IO UInt32 := do
  let traced := s.machine.trace.size
  let told (after : Shell) (writes : List Write) : IO Unit :=
    report (writes.map Write.bytes).flatten
      (traceText (after.machine.trace.extract traced).toList)
  match s.settings.prompt.toString? with
  | none => return 1
  | some prompt =>
    report (Write.text prompt).bytes ""
    let (w, s) ← prepare w s
    match s.turn stepLimit w .shared with
    | .next after _ writes => told after writes.tail; converse w after
    | .over after writes => told after writes.tail; return 0
    | .interrupted after writes _ => told after writes.tail; return 1

/-- What the process does for its arguments. -/
def serve (arguments : List String) : IO UInt32 := do
  let w ← workplace
  let env ← environment w
  match Request.ofArguments arguments with
  | .ok (.run i) =>
    let mut w := w
    for path in i.config.toList ++ i.file.toList do
      w ← survey w path
    if i.code.isSome || i.file.isSome then
      let input ← readAll (← IO.getStdin) .empty
      finish (commandLine stepLimit w env input.toList arguments)
    else
      match loadSettings w env i.sources with
      | (warnings, .ok s) =>
        match Machine.ofSettings? s (.bytes []) with
        | .error _ => finish (i.run stepLimit w env [])
        | .ok machine =>
          report (Write.text Shell.banner).bytes (String.join (warnings.map (· ++ "\n")))
          converse w (Shell.start s machine)
      | (_, .error _) => finish (i.run stepLimit w env [])
  | _ => finish (commandLine stepLimit w env [] arguments)

end Brainfuck.CommandLine

def main (arguments : List String) : IO UInt32 :=
  Brainfuck.CommandLine.serve arguments
