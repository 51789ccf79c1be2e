import Brainfuck.Number.Numeral
import Brainfuck.Text.Utf8
import Brainfuck.Yaml.Scalar

/-! # From text to tokens

The tokens of a YAML text.  Two things make the reader remember more than a position: the
indentation of the block collections it is in, and the places where a key may have started
that only a later colon would prove to be one.

* `Lexer` — position, indentation, and possible keys;
* `Lexer.fetch` — reads the next token;
* `Lexer.giveFrom` — gives tokens out, none before all that it depends on is known;
* `tokensOf` — the tokens of a text.
-/

namespace Brainfuck.Yaml

/-- A place where a key may have started. -/
structure PossibleKey where
  /-- The number of the first token of the key. -/
  token : Nat
  /-- Whether a key has to be here, because the line starts at the block's indentation. -/
  required : Bool
  index : Nat
  line : Nat
  column : Nat

/-- What the reader knows between two tokens. -/
structure Lexer where
  cursor : Cursor
  tokens : Array Token
  /-- How many flow collections are open. -/
  flowLevel : Nat
  /-- The column of the innermost block collection; -1 outside of all. -/
  indent : Int
  /-- The columns of the block collections around it. -/
  outerIndents : List Int
  /-- Whether a key may start here. -/
  keyAllowed : Bool
  /-- Possible keys, at most one for each flow level. -/
  possibleKeys : List (Nat × PossibleKey)

namespace Lexer

def start (s : Source) : Lexer where
  cursor := .start s
  tokens := #[]
  flowLevel := 0
  indent := -1
  outerIndents := []
  keyAllowed := true
  possibleKeys := []

def inFlow (lx : Lexer) : Bool := lx.flowLevel != 0

def push (lx : Lexer) (t : Token) : Lexer := { lx with tokens := lx.tokens.push t }

def moveTo (lx : Lexer) (c : Cursor) : Lexer := { lx with cursor := c }

/-! ## Indentation -/

/-- Closes the block collections that are indented further than a column. -/
def unwind (lx : Lexer) (column : Int) : Lexer :=
  if lx.inFlow then lx else go lx lx.outerIndents
where
  /-- Closes collections while there are any. -/
  go (lx : Lexer) : List Int → Lexer
    | [] => lx
    | outer :: rest =>
      if column < lx.indent then
        go { lx.push .blockEnd with indent := outer, outerIndents := rest } rest
      else lx

/-- Opens a block collection at a column, if it is further in; says whether it did. -/
def addIndent (lx : Lexer) (column : Nat) : Bool × Lexer :=
  if lx.indent < column then
    (true, { lx with indent := column, outerIndents := lx.indent :: lx.outerIndents })
  else (false, lx)

/-! ## Possible keys -/

/-- Forgets the possible keys that are not on this line or too far back. -/
def dropStaleKeys (lx : Lexer) : Except Error Lexer :=
  let stale (k : PossibleKey) : Bool :=
    k.line != lx.cursor.line || 1024 < lx.cursor.index - k.index
  if lx.possibleKeys.any fun (_, k) => stale k && k.required then .error .malformed
  else .ok { lx with possibleKeys := lx.possibleKeys.filter fun (_, k) => !stale k }

/-- Forgets the possible key of this flow level; a required one must not be lost. -/
def dropKey (lx : Lexer) : Except Error Lexer :=
  if lx.possibleKeys.any fun (level, k) => level == lx.flowLevel && k.required then
    .error .malformed
  else
    .ok { lx with possibleKeys := lx.possibleKeys.filter fun (level, _) => level != lx.flowLevel }

/-- Remembers that a key may start here. -/
def saveKey (lx : Lexer) : Except Error Lexer :=
  if lx.keyAllowed then do
    let lx ← lx.dropKey
    let key : PossibleKey :=
      { token := lx.tokens.size
        required := !lx.inFlow && lx.indent == (lx.cursor.column : Int)
        index := lx.cursor.index
        line := lx.cursor.line
        column := lx.cursor.column }
    return { lx with possibleKeys := (lx.flowLevel, key) :: lx.possibleKeys }
  else .ok lx

/-! ## Marks -/

/-- Skips spaces, comments and line ends.  Behind a line end a key may start again. -/
def skipToToken : (bound : Nat) → Lexer → Lexer
  | 0, lx => lx
  | bound + 1, lx =>
    let c := (lx.cursor.skipWhile (· == ' ')).skipComment
    match c.lineBreak? with
    | none => lx.moveTo c
    | some (_, after) =>
      skipToToken bound
        { lx with cursor := after, keyAllowed := lx.keyAllowed || !lx.inFlow }

/-- Ends every block collection in front of a directive, a document marker or the end. -/
def leaveBlocks (lx : Lexer) : Except Error Lexer := do
  let lx ← (lx.unwind (-1)).dropKey
  return { lx with keyAllowed := false }

/-- Reads the three characters of a document marker. -/
def fetchMarker (lx : Lexer) (t : Token) : Except Error Lexer := do
  let lx ← lx.leaveBlocks
  return (lx.moveTo (lx.cursor.advance 3)).push t

def openFlow (lx : Lexer) (t : Token) : Except Error Lexer := do
  let lx ← lx.saveKey
  return { lx with
    cursor := lx.cursor.next, flowLevel := lx.flowLevel + 1, keyAllowed := true,
    tokens := lx.tokens.push t }

def closeFlow (lx : Lexer) (t : Token) : Except Error Lexer := do
  let lx ← lx.dropKey
  return { lx with
    cursor := lx.cursor.next, flowLevel := lx.flowLevel - 1, keyAllowed := false,
    tokens := lx.tokens.push t }

/-- Reads the comma of a flow collection. -/
def fetchFlowEntry (lx : Lexer) : Except Error Lexer := do
  let lx ← lx.dropKey
  return { lx with
    cursor := lx.cursor.next, keyAllowed := true, tokens := lx.tokens.push .flowEntry }

/-- Opens a block collection where one starts at the column at hand. -/
def openBlock (lx : Lexer) (t : Token) : Lexer :=
  match lx.addIndent lx.cursor.column with
  | (true, lx) => lx.push t
  | (false, lx) => lx

/-- Reads the dash of a block sequence. -/
def fetchBlockEntry (lx : Lexer) : Except Error Lexer := do
  let lx ← if lx.inFlow then pure lx
    else if lx.keyAllowed then pure (lx.openBlock .blockSequenceStart)
    else throw .malformed
  let lx ← lx.dropKey
  return { lx with
    cursor := lx.cursor.next, keyAllowed := true, tokens := lx.tokens.push .blockEntry }

/-- Reads the question mark of an explicit key. -/
def fetchKey (lx : Lexer) : Except Error Lexer := do
  let lx ← if lx.inFlow then pure lx
    else if lx.keyAllowed then pure (lx.openBlock .blockMappingStart)
    else throw .malformed
  let lx ← lx.dropKey
  return { lx with
    cursor := lx.cursor.next, keyAllowed := !lx.inFlow, tokens := lx.tokens.push .key }

/-- Puts the marker of a key in front of its first token, and the start of a mapping if the
key is the first one of its block. -/
def markKey (lx : Lexer) (key : PossibleKey) : Lexer :=
  let lx := { lx with
    possibleKeys := lx.possibleKeys.filter fun (level, _) => level != lx.flowLevel
    tokens := lx.tokens.insertIdxIfInBounds key.token .key
    keyAllowed := false }
  if lx.inFlow then lx
  else
    match lx.addIndent key.column with
    | (true, lx) =>
      { lx with tokens := lx.tokens.insertIdxIfInBounds key.token .blockMappingStart }
    | (false, lx) => lx

/-- Reads the colon in front of a value.  What stood before it on the line turns out to be
the key, or else the key was an explicit one. -/
def fetchValue (lx : Lexer) : Except Error Lexer := do
  let lx ← match lx.possibleKeys.lookup lx.flowLevel with
    | some key => pure (lx.markKey key)
    | none => do
      let lx ← if lx.inFlow then pure lx
        else if lx.keyAllowed then pure (lx.openBlock .blockMappingStart)
        else throw .malformed
      { lx with keyAllowed := !lx.inFlow }.dropKey
  return { lx with cursor := lx.cursor.next, tokens := lx.tokens.push .value }

/-! ## Names and tags -/

/-- The characters that may follow the name of an anchor. -/
def endsAnchor : Option Char → Bool
  | none => true
  | some c => isGap c || isBreak c || "?:,]\x7d%@\x60".toList.contains c

/-- Reads the name of an anchor or of an alias, from behind its mark. -/
def anchorName (c : Cursor) : Except Error (String × Cursor) :=
  let (name, c) := c.takeWhile isNameChar
  if name.isEmpty || !endsAnchor c.peek then .error c.unexpected
  else .ok (String.ofList name, c)

def fetchAnchor (lx : Lexer) (t : String → Token) : Except Error Lexer := do
  let lx ← lx.saveKey
  let (name, c) ← anchorName lx.cursor.next
  return { lx with cursor := c, keyAllowed := false, tokens := lx.tokens.push (t name) }

/-- Reads a tag handle: a mark alone, or a name between two marks. -/
def tagHandle (c : Cursor) : Except Error (String × Cursor) :=
  if c.peek != some '!' then .error c.unexpected
  else if c.peekAt 1 == some ' ' then .ok ("!", c.next)
  else
    let (name, after) := c.next.takeWhile isNameChar
    if after.peek == some '!' then .ok (String.ofList ('!' :: name ++ ['!']), after.next)
    else .error after.unexpected

/-- Reads escaped bytes, `bound` of them at most; the bytes come in reverse. -/
def tagBytes : (bound : Nat) → List UInt8 → Cursor → Except Error (List UInt8 × Cursor)
  | 0, bytes, c => .ok (bytes, c)
  | bound + 1, bytes, c =>
    if c.peek == some '%' then
      match escapeNumber 2 c.next with
      | .error e => .error e
      | .ok n => tagBytes bound (UInt8.ofNat n :: bytes) (c.advance 3)
    else .ok (bytes, c)

/-- Reads the text of a tag; `done` is what was read, in reverse. -/
def tagTextFrom : (bound : Nat) → (done : List Char) → Cursor →
    Except Error (List Char × Cursor)
  | 0, done, c => .ok (done.reverse, c)
  | bound + 1, done, c =>
    let (run, c) := c.takeWhile fun ch => isTagChar ch && ch != '%'
    let done := run.reverse ++ done
    if c.peek == some '%' then
      match tagBytes (c.size + 1) [] c with
      | .error e => .error e
      | .ok (bytes, c) =>
        match Utf8.decode? bytes.reverse with
        | none => .error c.unexpected
        | some cs => tagTextFrom bound (cs.reverse ++ done) c
    else .ok (done.reverse, c)

/-- Reads the text of a tag; there has to be some. -/
def tagText (c : Cursor) : Except Error (String × Cursor) := do
  let (text, after) ← tagTextFrom (c.size + 1) [] c
  if after.index = c.index then throw c.unexpected else return (String.ofList text, after)

/-- Reads a tag: in angle brackets as it is, a mark alone, or a handle and the rest. -/
def tagToken (c : Cursor) : Except Error (Token × Cursor) := do
  let (token, c) ←
    if c.peekAt 1 == some '<' then do
      let (text, c) ← tagText (c.advance 2)
      if c.peek == some '>' then pure (Token.tag none text, c.next) else throw c.unexpected
    else if endsWord (c.peekAt 1) then pure (Token.tag none "!", c.next)
    else
      let word := c.rest.tail.takeWhile fun ch => !(ch == ' ' || isBreak ch)
      if word.contains '!' then do
        let (handle, c) ← tagHandle c
        let (text, c) ← tagText c
        pure (Token.tag (some handle) text, c)
      else do
        c.demand (word.length + 2)
        let (text, c) ← tagText c.next
        pure (Token.tag (some "!") text, c)
  if isSpaceOrEnd c.peek then return (token, c) else throw c.unexpected

def fetchTag (lx : Lexer) : Except Error Lexer := do
  let lx ← lx.saveKey
  let (token, c) ← tagToken lx.cursor
  return { lx with cursor := c, keyAllowed := false, tokens := lx.tokens.push token }

/-! ## Directives -/

/-- Reads a number. -/
def number (c : Cursor) : Except Error (Nat × Cursor) := do
  let (digits, after) := c.takeWhile Char.isDigit
  if digits.isEmpty then throw after.unexpected
  after.demand 1
  if Numeral.maxDigits < digits.length then throw .integerTooLong
  return (digits.foldl (fun n d => n * 10 + (d.toNat - '0'.toNat)) 0, after)

/-- Reads the text of a directive behind its name. -/
def directiveText (name : String) (c : Cursor) : Except Error (Directive × Cursor) :=
  match name with
  | "YAML" => do
    let (major, c) ← number (c.skipWhile (· == ' '))
    if c.peek != some '.' then throw c.unexpected
    let (_, c) ← number c.next
    if isSpaceOrEnd c.peek then return (.version major, c) else throw c.unexpected
  | "TAG" => do
    let (handle, c) ← tagHandle (c.skipWhile (· == ' '))
    if c.peek != some ' ' then throw c.unexpected
    let (lead, c) ← tagText (c.skipWhile (· == ' '))
    if isSpaceOrEnd c.peek then return (.tagHandle handle lead, c) else throw c.unexpected
  | _ => .ok (.unknown, c.skipWhile fun ch => !isBreak ch)

def fetchDirective (lx : Lexer) : Except Error Lexer := do
  let lx ← lx.leaveBlocks
  let (name, c) := lx.cursor.next.takeWhile isNameChar
  if name.isEmpty || !isSpaceOrEnd c.peek then throw c.unexpected
  let (directive, c) ← directiveText (String.ofList name) c
  let c ← c.finishLine
  return (lx.moveTo c).push (.directive directive)

/-! ## Scalars -/

def fetchPlain (lx : Lexer) : Except Error Lexer := do
  let lx ← lx.saveKey
  let (text, keyAllowed, c) := plainText lx.inFlow (lx.indent + 1) lx.cursor
  c.demand (if c.peek == some ':' then 2 else 1)
  return { lx with
    cursor := c, keyAllowed := keyAllowed,
    tokens := lx.tokens.push (.scalar (.ofChars text) true) }

def fetchQuoted (lx : Lexer) (double : Bool) : Except Error Lexer := do
  let lx ← lx.saveKey
  let (text, c) ← quotedText double lx.cursor.next
  return { lx with
    cursor := c, keyAllowed := false,
    tokens := lx.tokens.push (.scalar text false) }

def fetchBlock (lx : Lexer) (folded : Bool) : Except Error Lexer := do
  let lx ← lx.dropKey
  let (text, c) ← blockText folded lx.indent lx.cursor.next
  return { lx with
    cursor := c, keyAllowed := true,
    tokens := lx.tokens.push (.scalar (.ofChars text) false) }

/-! ## All tokens -/

/-- Whether a plain scalar can start with a character, `following` being the one behind it. -/
def startsPlain (inFlow : Bool) (c : Char) (following : Option Char) : Bool :=
  !(isGap c || isBreak c || "-?:,[]\x7b\x7d#&*!|>'\"%@\x60".toList.contains c) ||
    (!endsWord following && (c == '-' || (!inFlow && (c == '?' || c == ':'))))

/-- Reads the token that starts with a given character. -/
def fetchAt (lx : Lexer) (ch : Char) : Except Error Lexer :=
  let c := lx.cursor
  let following := c.peekAt 1
  if ch = '%' ∧ c.column = 0 then lx.fetchDirective
  else if ch = '-' ∧ c.column = 0 ∧ c.atMarker '-' then lx.fetchMarker .documentStart
  else if ch = '.' ∧ c.column = 0 ∧ c.atMarker '.' then lx.fetchMarker .documentEnd
  else if ch = '[' then lx.openFlow .flowSequenceStart
  else if ch = '\x7b' then lx.openFlow .flowMappingStart
  else if ch = ']' then lx.closeFlow .flowSequenceEnd
  else if ch = '\x7d' then lx.closeFlow .flowMappingEnd
  else if ch = ',' then lx.fetchFlowEntry
  else if ch = '-' ∧ endsWord following then lx.fetchBlockEntry
  else if ch = '?' ∧ (lx.inFlow ∨ endsWord following) then lx.fetchKey
  else if ch = ':' ∧ (lx.inFlow ∨ endsWord following) then lx.fetchValue
  else if ch = '*' then lx.fetchAnchor .alias
  else if ch = '&' then lx.fetchAnchor .anchor
  else if ch = '!' then lx.fetchTag
  else if ch = '|' ∧ !lx.inFlow then lx.fetchBlock false
  else if ch = '>' ∧ !lx.inFlow then lx.fetchBlock true
  else if ch = '\'' then lx.fetchQuoted false
  else if ch = '"' then lx.fetchQuoted true
  else if startsPlain lx.inFlow ch following then lx.fetchPlain
  else .error .malformed

/-- Reads the next token, with those that the indentation puts in front of it.  The flag says
that the text is at its end.  To know where a token ends, the character behind it has to be
there. -/
def fetch (lx : Lexer) : Except Error (Bool × Lexer) := do
  let lx := lx.skipToToken (lx.cursor.size + 1)
  lx.cursor.demand 1
  let lx ← lx.dropStaleKeys
  let lx := lx.unwind lx.cursor.column
  match lx.cursor.peek with
  | none => do
    let lx ← lx.leaveBlocks
    return (true, lx)
  | some ch => do
    lx.cursor.demand 2
    let lx ← lx.fetchAt ch
    lx.cursor.demand 1
    return (false, lx)

/-- Whether the token of a number cannot be given out yet: it was not read, or a key may have
started with it. -/
def undecided (lx : Lexer) (number : Nat) : Except Error (Bool × Lexer) :=
  if lx.tokens.size ≤ number then .ok (true, lx)
  else do
    let lx ← lx.dropStaleKeys
    return (lx.possibleKeys.any fun (_, k) => k.token == number, lx)

/-- Gives out tokens, and reads only as far as this needs, up to the end of the text or what
cannot be read.  `given` are the tokens given out so far, in reverse, and `number` is how many they
are. -/
def giveFrom : (bound number : Nat) → (given : List Token) → Lexer → List Token
  | 0, _, given, _ => (.failure .malformed :: given).reverse
  | bound + 1, number, given, lx =>
    match lx.undecided number with
    | .error e => (.failure e :: given).reverse
    | .ok (false, lx) => giveFrom bound (number + 1) (lx.tokens[number]?.toList ++ given) lx
    | .ok (true, lx) =>
      match lx.fetch with
      | .error e => (.failure e :: given).reverse
      | .ok (true, lx) => given.reverse ++ lx.tokens.toList.drop number
      | .ok (false, lx) => giveFrom bound number given lx

end Lexer

/-- The tokens of a text.  When it cannot be read to its end, the last token is a failure, behind
those that could be given out before it was met.  A character of the text makes at most three
tokens, and a fourth one where the block collection that it opens is closed. -/
def tokensOf (s : Source) : List Token :=
  let text := if s.text.head? = some '\uFEFF' then s.text.tail else s.text
  (Lexer.start { s with text := text }).giveFrom (8 * text.length + 8) 0 []

end Brainfuck.Yaml
