import ProseSchema.Numeric.Digits
import ProseSchema.Text.Reader

/-!
# Timestamps

Instants written as RFC 3339 has them: a date, a time of day and the offset from universal time.
-/

namespace ProseSchema

/-- A date and time as written. The second is 60 in a leap second. -/
structure Timestamp where
  year : Nat
  month : Nat
  day : Nat
  hour : Nat
  minute : Nat
  second : Nat
  /-- Billionths of a second. -/
  nanos : Nat
  /-- Seconds east of universal time. -/
  offset : Int
  deriving DecidableEq

namespace Timestamp

open Reader

def isLeapYear (year : Nat) : Bool :=
  year % 4 = 0 && (year % 100 ≠ 0 || year % 400 = 0)

def daysInMonth (year month : Nat) : Nat :=
  match month with
  | 2 => if isLeapYear year then 29 else 28
  | 4 | 6 | 9 | 11 => 30
  | _ => 31

def digits : Nat → Reader (List Char)
  | 0 => pure []
  | count + 1 => do
    let first ← char Char.isDigit
    let others ← digits count
    pure (first :: others)

/-- A number of exactly `count` digits between two bounds. -/
def number (count least greatest : Nat) : Reader Nat := do
  let n := natOfDigits (← digits count)
  if least ≤ n && n ≤ greatest then pure n else fail

/-- The fraction of a second in billionths; further digits are dropped. -/
def fraction : Reader Nat := do
  literal ['.']
  let written ← span1 Char.isDigit
  let kept := written.take 9
  pure (natOfDigits kept * Nat.pow 10 (9 - kept.length))

/-- The offset in seconds: none for universal time, else hours and minutes behind a sign, which may be
the minus sign of mathematics. -/
def zone : Reader Int :=
  firstOf [
    (fun _ => 0) <$> char (fun c => c = 'Z' || c = 'z'),
    do
      let sign ← char fun c => c = '+' || c = '-' || c = '\u2212'
      let hours ← number 2 0 23
      literal [':']
      let minutes ← number 2 0 59
      let seconds : Int := (hours * 60 + minutes) * 60
      pure (if sign = '+' then seconds else -seconds)]

def reader : Reader Timestamp := do
  let year ← number 4 0 9999
  literal ['-']
  let month ← number 2 1 12
  literal ['-']
  let day ← number 2 1 (daysInMonth year month)
  let _ ← char fun c => c = 'T' || c = 't' || c = ' '
  let hour ← number 2 0 23
  literal [':']
  let minute ← number 2 0 59
  literal [':']
  let second ← number 2 0 60
  let nanos ← optional fraction
  let offset ← zone
  pure ⟨year, month, day, hour, minute, second, nanos.getD 0, offset⟩

def parse? (text : String) : Option Timestamp :=
  whole? reader text.toList

/-- Days from the first day of the year 0 to the first day of a year. -/
def daysBeforeYear (year : Nat) : Nat :=
  365 * year + (year + 3) / 4 - (year + 99) / 100 + (year + 399) / 400

def daysInMonths (year : Nat) : (count : Nat) → Nat
  | 0 => 0
  | count + 1 => daysInMonths year count + daysInMonth year (count + 1)

def dayNumber (t : Timestamp) : Nat :=
  daysBeforeYear t.year + daysInMonths t.year (t.month - 1) + (t.day - 1)

/-- Seconds since the start of 1970 in universal time. A leap second counts as the second before it. -/
def unixSeconds (t : Timestamp) : Int :=
  ((t.dayNumber : Int) - daysBeforeYear 1970) * 86400 +
    (t.hour * 3600 + t.minute * 60 + min t.second 59 : Nat) - t.offset

/-- Billionths past `unixSeconds`, at least a whole second inside a leap second. -/
def nanosPast (t : Timestamp) : Nat :=
  if t.second = 60 then t.nanos + 1000000000 else t.nanos

def padded (width n : Nat) : List Char :=
  let digits := Nat.toDigits 10 n
  List.replicate (width - digits.length) '0' ++ digits

/-- The fraction with as many groups of three digits as it needs. -/
def fractionText (nanos : Nat) : List Char :=
  if nanos = 0 then []
  else if nanos % 1000000 = 0 then '.' :: padded 3 (nanos / 1000000)
  else if nanos % 1000 = 0 then '.' :: padded 6 (nanos / 1000)
  else '.' :: padded 9 nanos

/-- The canonical text, with hours and minutes of offset always written out. -/
def text (t : Timestamp) : String :=
  let east := t.offset.natAbs / 60
  String.ofList (
    padded 4 t.year ++ '-' :: padded 2 t.month ++ '-' :: padded 2 t.day ++
    'T' :: padded 2 t.hour ++ ':' :: padded 2 t.minute ++ ':' :: padded 2 t.second ++
    fractionText t.nanos ++
    (if t.offset < 0 then '-' else '+') :: padded 2 (east / 60) ++ ':' :: padded 2 (east % 60))

end Timestamp

end ProseSchema
