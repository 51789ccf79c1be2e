import Brainfuck.Text.Loose

/-! # YAML tags

A tag says what kind of value a node is.  A plain scalar without a tag gets one from its
text.

* `Tag` — the kinds of values;
* `Tag.ofName` — the kind that a written tag names;
* `Tag.ofPlain` — the kind that the text of a plain scalar has.
-/

namespace Brainfuck.Yaml

/-- The kinds of values that nodes can have. -/
inductive Tag where
  | null
  | boolean
  | integer
  | real
  | binary
  | timestamp
  | text
  | sequence
  | mapping
  | set
  | orderedPairs
  | pairs
  /-- The key that merges other mappings into one. -/
  | merge
  /-- The key of a default value. -/
  | defaultValue
  | unknown
  deriving DecidableEq, Repr

namespace Tag

/-- What the names of all known tags start with. -/
def standardLead : String := "tag:yaml.org,2002:"

/-- The kind of value that a tag names. -/
def ofName (name : String) : Tag :=
  match name with
  | "tag:yaml.org,2002:null" => null
  | "tag:yaml.org,2002:bool" => boolean
  | "tag:yaml.org,2002:int" => integer
  | "tag:yaml.org,2002:float" => real
  | "tag:yaml.org,2002:binary" => binary
  | "tag:yaml.org,2002:timestamp" => timestamp
  | "tag:yaml.org,2002:str" => text
  | "tag:yaml.org,2002:seq" => sequence
  | "tag:yaml.org,2002:map" => mapping
  | "tag:yaml.org,2002:set" => set
  | "tag:yaml.org,2002:omap" => orderedPairs
  | "tag:yaml.org,2002:pairs" => pairs
  | "tag:yaml.org,2002:merge" => merge
  | "tag:yaml.org,2002:value" => defaultValue
  | _ => unknown

/-! ## Classes of plain texts -/

def nullWords : List String := ["", "~", "null", "Null", "NULL"]

def booleanWords : List String :=
  ["yes", "Yes", "YES", "no", "No", "NO", "true", "True", "TRUE", "false", "False", "FALSE",
   "on", "On", "ON", "off", "Off", "OFF"]

/-- The marks that no value may consist of. -/
def reservedMarks : List String := ["!", "&", "*"]

def dropSign : List Char → List Char
  | '-' :: rest => rest
  | '+' :: rest => rest
  | cs => cs

def isDigitOrLow (c : Char) : Bool :=
  c.isDigit || c == '_'

/-- Whether a text is empty or an exponent with a sign. -/
def isExponent : List Char → Bool
  | [] => true
  | e :: sign :: digits =>
    (e == 'e' || e == 'E') && (sign == '-' || sign == '+') && !digits.isEmpty &&
      digits.all Char.isDigit
  | _ => false

/-- Drops the parts of a number in base sixty, each a colon and at most 59; the flag says
whether there was one.  `bound` parts are dropped at most. -/
def dropSixties : (bound : Nat) → Bool → List Char → Bool × List Char
  | 0, found, cs => (found, cs)
  | bound + 1, found, cs =>
    match cs with
    | ':' :: a :: b :: rest =>
      if a.isDigit then
        if b.isDigit then
          if a.toNat ≤ '5'.toNat then dropSixties bound true rest else (found, cs)
        else dropSixties bound true (b :: rest)
      else (found, cs)
    | [':', a] => if a.isDigit then (true, []) else (found, cs)
    | _ => (found, cs)

/-- Drops digits and underscores behind a first digit; `none` without one. -/
def dropNumber? : List Char → Option (List Char)
  | c :: rest => if c.isDigit then some (rest.dropWhile isDigitOrLow) else none
  | [] => none

/-- Whether a text is a floating-point number: with a point, maybe an exponent with a sign,
in base sixty, an infinity or not a number. -/
def isReal (cs : List Char) : Bool :=
  let unsigned := dropSign cs
  let decimal :=
    match dropNumber? unsigned with
    | some ('.' :: rest) => isExponent (rest.dropWhile isDigitOrLow)
    | _ => false
  let fraction :=
    match cs with
    | '.' :: rest => (dropNumber? rest).any isExponent
    | _ => false
  let sixties :=
    match (dropNumber? unsigned).map fun rest => dropSixties rest.length false rest with
    | some (true, '.' :: rest) => rest.all isDigitOrLow
    | _ => false
  decimal || fraction || sixties ||
    [".inf", ".Inf", ".INF"].contains (String.ofList unsigned) ||
    [".nan", ".NaN", ".NAN"].contains (String.ofList cs)

/-- Whether a text is not empty and has only characters of a class. -/
def isRun (p : Char → Bool) (cs : List Char) : Bool :=
  !cs.isEmpty && cs.all p

def isHexDigit (c : Char) : Bool :=
  c.isDigit || ('a' ≤ c && c ≤ 'f') || ('A' ≤ c && c ≤ 'F')

/-- Whether a text is an integer: decimal, binary, octal with a zero in front, hexadecimal,
or in base sixty. -/
def isInteger (cs : List Char) : Bool :=
  match dropSign cs with
  | ['0'] => true
  | '0' :: 'b' :: rest => isRun (fun c => c == '0' || c == '1' || c == '_') rest
  | '0' :: 'x' :: rest => isRun (fun c => isHexDigit c || c == '_') rest
  | '0' :: rest => isRun (fun c => ('0' ≤ c && c ≤ '7') || c == '_') rest
  | c :: rest =>
    if c.isDigit then
      let rest := rest.dropWhile isDigitOrLow
      rest.isEmpty || dropSixties rest.length false rest == (true, [])
    else false
  | [] => false

end Tag

/-! ## Timestamps -/

/-- A time of day with an offset from universal time, as it is written. -/
structure TimeText where
  hour : Nat
  minute : Nat
  second : Nat
  /-- The digits behind the point. -/
  fraction : List Char
  /-- The offset in minutes, if there is one. -/
  offset : Option Int
  deriving DecidableEq, Repr

/-- A date, maybe with a time, as it is written. -/
structure TimestampText where
  year : Nat
  month : Nat
  day : Nat
  /-- Whether month and day have two digits each. -/
  padded : Bool
  time : Option TimeText
  deriving DecidableEq, Repr

namespace TimestampText

/-- The number that ASCII digits stand for. -/
def value (digits : List Char) : Nat :=
  digits.foldl (fun n d => n * 10 + (d.toNat - '0'.toNat)) 0

/-- Reads `least` to `most` digits, as many as there are. -/
def digits? (least most : Nat) (cs : List Char) : Option (List Char × List Char) :=
  let ds := (cs.take most).takeWhile Char.isDigit
  if least ≤ ds.length then some (ds, cs.drop ds.length) else none

def char? (c : Char) : List Char → Option (List Char)
  | d :: rest => if d = c then some rest else none
  | [] => none

/-- Reads an offset from universal time and the end of the text. -/
def offset? (cs : List Char) : Option (Option Int) :=
  match cs.dropWhile fun c => c == ' ' || c == '\t' with
  | [] => if cs.isEmpty then some none else none
  | ['Z'] => some (some 0)
  | sign :: rest =>
    if sign = '+' ∨ sign = '-' then do
      let (hours, rest) ← digits? 1 2 rest
      let minutes ← match rest with
        | [] => some []
        | ':' :: rest => do
          let (ds, rest) ← digits? 2 2 rest
          if rest.isEmpty then some ds else none
        | _ => none
      let total : Int := value hours * 60 + value minutes
      return some (if sign = '-' then -total else total)
    else none

/-- Reads a time of day and the end of the text. -/
def time? (cs : List Char) : Option TimeText := do
  let (hour, cs) ← digits? 1 2 cs
  let cs ← char? ':' cs
  let (minute, cs) ← digits? 2 2 cs
  let cs ← char? ':' cs
  let (second, cs) ← digits? 2 2 cs
  let (fraction, cs) :=
    match cs with
    | '.' :: rest => (rest.takeWhile Char.isDigit, rest.dropWhile Char.isDigit)
    | _ => ([], cs)
  let offset ← offset? cs
  return ⟨value hour, value minute, value second, fraction, offset⟩

/-- Reads a date, maybe with a time behind a `T` or gaps. -/
def read? (cs : List Char) : Option TimestampText := do
  let (year, cs) ← digits? 4 4 cs
  let cs ← char? '-' cs
  let (month, cs) ← digits? 1 2 cs
  let cs ← char? '-' cs
  let (day, cs) ← digits? 1 2 cs
  let date (time : Option TimeText) : TimestampText :=
    ⟨value year, value month, value day, month.length == 2 && day.length == 2, time⟩
  match cs with
  | [] => return date none
  | c :: rest =>
    if c = 'T' ∨ c = 't' then return date (some (← time? rest))
    else if c = ' ' ∨ c = '\t' then
      return date (some (← time? (rest.dropWhile fun c => c == ' ' || c == '\t')))
    else none

end TimestampText

namespace Tag

/-- Whether a text is a timestamp: a date alone has two digits for month and day. -/
def isTimestamp (cs : List Char) : Bool :=
  match TimestampText.read? cs with
  | some t => t.time.isSome || t.padded
  | none => false

/-- The kind of value that characters without a line end behind them have. -/
def ofWord (cs : List Char) : Tag :=
  let word := String.ofList cs
  if booleanWords.contains word then boolean
  else if isReal cs then real
  else if isInteger cs then integer
  else if word = "<<" then merge
  else if nullWords.contains word then null
  else if isTimestamp cs then timestamp
  else if word = "=" then defaultValue
  else if reservedMarks.contains word then unknown
  else .text

/-- The kind of value that the text of a plain scalar has.  A text that has one without the line
end behind it also has it with the line end. -/
def ofPlain (text : LooseText) : Tag :=
  match text.chars? with
  | none => .text
  | some ['\n'] => .text
  | some cs => ofWord (if cs.getLast? = some '\n' then cs.dropLast else cs)

end Tag

end Brainfuck.Yaml
