import Brainfuck.Machine.Demo
import Brainfuck.Main
import Brainfuck.Proofs.Accounting
import Brainfuck.Proofs.Atomicity
import Brainfuck.Proofs.BackJumps
import Brainfuck.Proofs.Balance
import Brainfuck.Proofs.Block
import Brainfuck.Proofs.Clearing
import Brainfuck.Proofs.CodeArguments
import Brainfuck.Proofs.Commands
import Brainfuck.Proofs.DecodedLines
import Brainfuck.Proofs.Decoding
import Brainfuck.Proofs.Defects
import Brainfuck.Proofs.DumpText
import Brainfuck.Proofs.Entries
import Brainfuck.Proofs.Forgetting
import Brainfuck.Proofs.Frames
import Brainfuck.Proofs.FrontEnds
import Brainfuck.Proofs.History
import Brainfuck.Proofs.Layering
import Brainfuck.Proofs.Loaded
import Brainfuck.Proofs.LoopStack
import Brainfuck.Proofs.Nesting
import Brainfuck.Proofs.Numerals
import Brainfuck.Proofs.Outcome
import Brainfuck.Proofs.Padding
import Brainfuck.Proofs.Pairing
import Brainfuck.Proofs.ProgramFiles
import Brainfuck.Proofs.Reading
import Brainfuck.Proofs.Recording
import Brainfuck.Proofs.SharedInput
import Brainfuck.Proofs.Sizing
import Brainfuck.Proofs.Stepping
import Brainfuck.Proofs.Structured
import Brainfuck.Proofs.TextSessions
import Brainfuck.Proofs.TraceText
import Brainfuck.Proofs.Tracing
import Brainfuck.Proofs.Unbounded
import Brainfuck.Proofs.Variables
import Brainfuck.Proofs.Window
import Brainfuck.Proofs.Words
import Brainfuck.Tape.View
