/-! # Dates and times

Dates of the Gregorian calendar, and dates with a time of day and maybe an offset from
universal time.

* `Date.of?`, `Moment.of?` — refuse what no calendar or clock shows;
* `Date.text`, `Moment.text` — the written forms;
* `Date.constructorText`, `Moment.constructorText` — the forms that name each part.
-/

namespace Brainfuck

structure Date where
  year : Nat
  month : Nat
  day : Nat
  deriving DecidableEq, Repr

/-- A day with a time of day; the offset from universal time is in minutes. -/
structure Moment where
  date : Date
  hour : Nat
  minute : Nat
  second : Nat
  microsecond : Nat
  offset : Option Int
  deriving DecidableEq, Repr

def paddedNumber (width n : Nat) : String :=
  let digits := Nat.toDigits 10 n
  String.ofList (List.replicate (width - digits.length) '0' ++ digits)

namespace Date

def isLeap (year : Nat) : Bool :=
  year % 4 == 0 && (year % 100 != 0 || year % 400 == 0)

def monthLength (year month : Nat) : Nat :=
  match month with
  | 2 => if isLeap year then 29 else 28
  | 4 => 30
  | 6 => 30
  | 9 => 30
  | 11 => 30
  | _ => 31

/-- A day of the years 1 to 9999, if there is such a day. -/
def of? (year month day : Nat) : Option Date :=
  if 1 ≤ year ∧ year ≤ 9999 ∧ 1 ≤ month ∧ month ≤ 12 ∧ 1 ≤ day ∧ day ≤ monthLength year month
  then some ⟨year, month, day⟩
  else none

/-- Year, month and day, with dashes. -/
def text (d : Date) : String :=
  s!"{paddedNumber 4 d.year}-{paddedNumber 2 d.month}-{paddedNumber 2 d.day}"

/-- The form that names the parts. -/
def constructorText (d : Date) : String :=
  s!"datetime.date({d.year}, {d.month}, {d.day})"

end Date

namespace Moment

/-- A time of day on a day, if a clock shows it; an offset is less than a day. -/
def of? (date : Date) (hour minute second microsecond : Nat) (offset : Option Int) :
    Option Moment :=
  if hour ≤ 23 ∧ minute ≤ 59 ∧ second ≤ 59 ∧ offset.all fun o => o.natAbs < 1440 then
    some ⟨date, hour, minute, second, microsecond, offset⟩
  else none

/-- The date, the time, the digits behind the point if any is not zero, and the offset. -/
def text (m : Moment) : String :=
  let fraction := if m.microsecond = 0 then "" else "." ++ paddedNumber 6 m.microsecond
  let zone :=
    match m.offset with
    | none => ""
    | some o =>
      (if o < 0 then "-" else "+") ++ paddedNumber 2 (o.natAbs / 60) ++ ":" ++
        paddedNumber 2 (o.natAbs % 60)
  s!"{m.date.text} {paddedNumber 2 m.hour}:{paddedNumber 2 m.minute}:{paddedNumber 2 m.second}" ++
    fraction ++ zone

/-- The form of an offset that names its parts: whole days, then what is left in seconds. -/
def offsetText (offset : Int) : String :=
  if offset = 0 then "datetime.timezone.utc"
  else if offset < 0 then
    s!"datetime.timezone(datetime.timedelta(days=-1, seconds={(offset + 1440) * 60}))"
  else s!"datetime.timezone(datetime.timedelta(seconds={offset * 60}))"

/-- The form that names the parts; seconds are left out where they are zero at the end. -/
def constructorText (m : Moment) : String :=
  let seconds :=
    if m.microsecond ≠ 0 then s!", {m.second}, {m.microsecond}"
    else if m.second ≠ 0 then s!", {m.second}"
    else ""
  let zone :=
    match m.offset with
    | none => ""
    | some o => s!", tzinfo={offsetText o}"
  s!"datetime.datetime({m.date.year}, {m.date.month}, {m.date.day}, {m.hour}, {m.minute}" ++
    seconds ++ zone ++ ")"

end Moment

end Brainfuck
