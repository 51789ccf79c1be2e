/-! # Flags of the command line

The flags, their names and what is told about them.

* `Flag` — the five flags;
* `Flag.ofName?`, `Flag.ofLetter?` — a flag by its whole name, or by its letter;
* `usageLine`, `helpText`, `versionText` — what the command line says about itself.
-/

namespace Brainfuck.CommandLine

/-- What can be asked for with a dash. -/
inductive Flag where
  | help
  | code
  | debug
  | config
  | version
  deriving DecidableEq, Repr

/-- A name of a flag: a letter behind one dash, or a word behind two. -/
inductive FlagName where
  | letter (c : Char)
  | word (w : String)
  deriving DecidableEq, Repr

/-- A name of a flag as it is typed. -/
def FlagName.text : FlagName → String
  | letter c => String.ofList ['-', c]
  | word w => "--" ++ w

namespace Flag

/-- All flags, in the order in which they are told. -/
def all : List Flag := [help, code, debug, config, version]

def names : Flag → List FlagName
  | help => [.letter 'h', .word "help"]
  | code => [.letter 'c', .word "code"]
  | debug => [.letter 'd', .word "debug"]
  | config => [.word "config"]
  | version => [.letter 'v', .word "version"]

/-- A flag as errors call it: all its names. -/
def title (f : Flag) : String :=
  "/".intercalate (f.names.map FlagName.text)

def takesValue : Flag → Bool
  | code => true
  | config => true
  | help => false
  | debug => false
  | version => false

/-- Every name with its flag. -/
def directory : List (FlagName × Flag) :=
  all.flatMap fun f => f.names.map fun name => (name, f)

def ofName? (text : String) : Option (FlagName × Flag) :=
  directory.find? fun (name, _) => name.text == text

def ofLetter? (c : Char) : Option Flag :=
  List.lookup (.letter c) directory

/-- The flags that have a name starting with a text. -/
def completions (start : String) : List (FlagName × Flag) :=
  directory.filter fun (name, _) => start.toList.isPrefixOf name.text.toList

end Flag

/-- How the program is called. -/
def usageLine : String :=
  "usage: trbbfi [-h] [-c CODE] [-d] [--config CONFIG] [-v] [file]\n"

def helpText : String :=
  usageLine ++
  "\n" ++
  "TRBBFI v1.0 - The Really Better Brainfuck Interpreter\n" ++
  "\n" ++
  "positional arguments:\n" ++
  "  file                  Brainfuck program to execute\n" ++
  "\n" ++
  "options:\n" ++
  "  -h, --help            show this help message and exit\n" ++
  "  -c CODE, --code CODE  Execute CODE instead of a file\n" ++
  "  -d, --debug           Trace every step on stderr\n" ++
  "  --config CONFIG       YAML file with interpreter settings\n" ++
  "  -v, --version         show program's version number and exit\n"

def versionText : String :=
  "TRBBFI v1.0 Licensed under GNU GPL v3 https://github.com/TheRealOwenJ/trbbfi\n"

end Brainfuck.CommandLine
