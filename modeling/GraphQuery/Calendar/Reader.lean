import GraphQuery.Binary.Reader
import GraphQuery.Calendar.Date
import GraphQuery.Text.Blank

/-! Reading dates and times from left to right. Blanks before a number are skipped, every
field is checked against its own range as soon as it is read, and whether the day exists is
decided only after the whole text has been read. -/

namespace GraphQuery

inductive CalendarFault where
  | outOfRange
  | malformed
  | tooShort
  | tooLong
deriving DecidableEq

namespace CalendarFault

def message : CalendarFault → String
  | outOfRange => "input is out of range"
  | malformed => "input contains invalid characters"
  | tooShort => "premature end of input"
  | tooLong => "trailing input"

end CalendarFault

/-- A reader takes text and gives what it read with the text that follows. -/
abbrev CalendarReader (α : Type) := List Char → Except CalendarFault (α × List Char)

namespace CalendarReader

def number (limit : Option Nat) : CalendarReader Nat := fun text =>
  match text with
  | [] => .error .tooShort
  | c :: _ =>
    let run := text.takeWhile Char.isDigit
    let digits := match limit with
      | some n => run.take n
      | none => run
    if !c.isDigit then .error .malformed
    else
      match digitsValueWithin Int64.maxValue.toInt.toNat digits with
      | some n => .ok (n, text.drop digits.length)
      | none => .error .outOfRange

def field (low high : Nat) : CalendarReader Nat := fun text => do
  let (n, rest) ← number (some 2) (dropBlank text)
  if low ≤ n && n ≤ high then .ok (n, rest) else .error .outOfRange

/-- A year: four digits at most, or a sign and any number of digits. -/
def year : CalendarReader Int := fun text => do
  let (n, rest) ← match dropBlank text with
    | '-' :: rest => (number none rest).map fun (n, rest) => (-(n : Int), rest)
    | '+' :: rest => (number none rest).map fun (n, rest) => ((n : Int), rest)
    | text => (number (some 4) text).map fun (n, rest) => ((n : Int), rest)
  if Int32.minValue.toInt ≤ n && n ≤ Int32.maxValue.toInt then .ok (n, rest)
  else .error .outOfRange

def literal (expected : Char) : CalendarReader Unit
  | [] => .error .tooShort
  | c :: rest => if c = expected then .ok ((), rest) else .error .malformed

def blanks : CalendarReader Unit := fun text => .ok ((), dropBlank text)

/-- An optional point with digits, as nanoseconds; digits after the ninth are passed over. -/
def fraction : CalendarReader Nat
  | '.' :: rest => do
    let digits := (rest.takeWhile Char.isDigit).take 9
    let (n, _) ← number (some 9) rest
    .ok (n * Nat.pow 10 (9 - digits.length), rest.dropWhile Char.isDigit)
  | text => .ok (0, text)

/-- Year, month and day, not yet checked against each other. -/
def day : CalendarReader (Int × Nat × Nat) := fun text => do
  let (y, text) ← year text
  let ((), text) ← literal '-' text
  let (m, text) ← field 1 12 text
  let ((), text) ← literal '-' text
  let (d, text) ← field 1 31 text
  .ok ((y, m, d), text)

/-- Hour, minute and second; the second may be 60. -/
def clock : CalendarReader (Nat × Nat × Nat) := fun text => do
  let (h, text) ← field 0 23 text
  let ((), text) ← literal ':' text
  let (m, text) ← field 0 59 text
  let ((), text) ← literal ':' text
  let (s, text) ← field 0 60 text
  .ok ((h, m, s), text)

def finish : List Char → Except CalendarFault Unit
  | [] => .ok ()
  | _ => .error .tooLong

end CalendarReader

namespace Date

def ofDay : Int × Nat × Nat → Except CalendarFault Date
  | (y, m, d) =>
    match ofFields y m d with
    | some date => .ok date
    | none => .error .outOfRange

def read (text : String) : Except CalendarFault Date := do
  let (day, rest) ← CalendarReader.day text.toList
  CalendarReader.finish rest
  ofDay day

end Date

namespace DateTime

/-- Second 60 is second 59 with another second of nanoseconds. -/
def ofClock (date : Date) (nanosecond : Nat) : Nat × Nat × Nat → Except CalendarFault DateTime
  | (h, m, s) =>
    let time :=
      if s = 60 then Time.ofFields h m 59 (nanosecond + 1000000000)
      else Time.ofFields h m s nanosecond
    match time with
    | some time => .ok ⟨date, time⟩
    | none => .error .outOfRange

/-- A day and a time of day on the two sides of a separator, with or without a fraction. -/
def readWith (separator : CalendarReader Unit) (fractional : Bool) (text : String) :
    Except CalendarFault DateTime := do
  let (day, text) ← CalendarReader.day text.toList
  let ((), text) ← separator text
  let (clock, text) ← CalendarReader.clock text
  let (nanosecond, text) ← if fractional then CalendarReader.fraction text else .ok (0, text)
  CalendarReader.finish text
  let date ← Date.ofDay day
  ofClock date nanosecond clock

/-- The accepted forms, in the order in which they are tried. Without the letter the time may
follow the day at once, as the day takes two digits at most. -/
def read (text : String) : Option DateTime :=
  match readWith (CalendarReader.literal 'T') false text with
  | .ok t => some t
  | .error _ =>
    match readWith CalendarReader.blanks false text with
    | .ok t => some t
    | .error _ => (readWith (CalendarReader.literal 'T') true text).toOption

end DateTime

end GraphQuery
