import Brainfuck.Text.Loose

/-! # YAML tokens

The tokens that a YAML text is made of, in the order of the text.  The tokens that open and
close block collections have no characters of their own; they stand for changes of the
indentation.

* `Yaml.Error` — what can be wrong with a text or with the values in it;
* `Yaml.maxCalls` — the limit behind every limit of the nesting;
* `Yaml.Token` — the tokens.
-/

namespace Brainfuck.Yaml

/-- What can be wrong with a YAML text or with the values in it. -/
inductive Error where
  /-- The bytes of the text are not UTF-8. -/
  | notUtf8
  /-- The text is not YAML, or a node does not have the shape that its tag asks for. -/
  | malformed
  /-- An escape in a quoted scalar names a code point behind the last one. -/
  | codePointRange
  /-- Such an escape whose number does not fit a machine integer. -/
  | codePointOverflow
  /-- The tag asks for a number and the text is none, or it has too many digits. -/
  | badNumber
  /-- The tag asks for a number and there is no text. -/
  | emptyNumber
  | badBoolean
  | badTimestamp
  /-- A timestamp that no calendar has. -/
  | impossibleTime
  /-- A timestamp is asked of a mapping, which at best has a text as its default value. -/
  | timestampOfMapping
  /-- A part of a number in base sixty is too large for a floating-point number. -/
  | numberOverflow
  /-- An integer is too long to be read or written. -/
  | integerTooLong
  /-- Collections are nested too deeply, or lead into one another too often. -/
  | nestedTooDeep
  deriving DecidableEq, Repr

/-- How many calls may be open at once.  Reading, merging and showing call themselves for what is
inside of a node, so this bounds how deep each of them can go: what is left of the calls when those
around it, and those that it makes at its innermost node, are taken off. -/
def maxCalls : Nat := 1000

/-- A line in front of a document. -/
inductive Directive where
  | version (major : Nat)
  | tagHandle (handle lead : String)
  | unknown
  deriving DecidableEq, Repr

/-- The tokens of a YAML text. -/
inductive Token where
  | directive (d : Directive)
  | documentStart
  | documentEnd
  | blockSequenceStart
  | blockMappingStart
  | blockEnd
  | flowSequenceStart
  | flowSequenceEnd
  | flowMappingStart
  | flowMappingEnd
  | blockEntry
  | flowEntry
  | key
  | value
  | «alias» (name : String)
  | anchor (name : String)
  | tag (handle : Option String) (suffix : String)
  | scalar (text : LooseText) (plain : Bool)
  /-- The text cannot be read on from here. -/
  | failure (e : Error)
  deriving DecidableEq, Repr

end Brainfuck.Yaml
