import DoubleEntry.Text.Layout
import DoubleEntry.Time.Instant

/-!
# Written times

RFC 3339 in UTC, with the fewest of 0, 3, 6 and 9 fraction digits that are exact
or simply the fewest, and the two shorter stamps of printed reports. Years
outside 0 to 9999 carry a sign.
-/

namespace DoubleEntry

structure Clock where
  date : Date
  hour : Nat
  minute : Nat
  second : Nat
  nano : Nat
deriving DecidableEq, Repr

namespace Instant

def clock (t : Instant) : Clock :=
  let ofDay := (t.nanos % dayNanos).toNat
  let second := ofDay / 1000000000
  { date := Date.ofDays (t.nanos / dayNanos)
    hour := second / 3600
    minute := second / 60 % 60
    second := second % 60
    nano := ofDay % 1000000000 }

/-- Four digits at least; a sign outside 0 to 9999. -/
def yearText (year : Int) : String :=
  let digits := Text.zeroPadded 4 year.natAbs
  if year < 0 then "-" ++ digits
  else if 9999 < year then "+" ++ digits
  else digits

def dateText (d : Date) : String :=
  yearText d.year ++ "-" ++ Text.zeroPadded 2 d.month ++ "-" ++ Text.zeroPadded 2 d.day

def minuteText (c : Clock) : String :=
  Text.zeroPadded 2 c.hour ++ ":" ++ Text.zeroPadded 2 c.minute

/-- A point and 3, 6 or 9 digits, or nothing on a whole second. -/
def fractionText (nano : Nat) : String :=
  if nano = 0 then ""
  else if nano % 1000000 = 0 then "." ++ Text.zeroPadded 3 (nano / 1000000)
  else if nano % 1000 = 0 then "." ++ Text.zeroPadded 6 (nano / 1000)
  else "." ++ Text.zeroPadded 9 nano

def fewestFractionText (nano : Nat) : String :=
  if nano = 0 then ""
  else
    let digits := (Text.zeroPadded 9 nano).toList.reverse.dropWhile (· == '0')
    "." ++ String.ofList digits.reverse

def rfc3339With (fraction : Nat → String) (t : Instant) : String :=
  let c := t.clock
  dateText c.date ++ "T" ++ minuteText c ++ ":" ++ Text.zeroPadded 2 c.second ++
    fraction c.nano ++ "Z"

/-- RFC 3339, such as `2025-03-01T12:00:00.500Z`. -/
def rfc3339 (t : Instant) : String :=
  t.rfc3339With fractionText

def rfc3339Fewest (t : Instant) : String :=
  t.rfc3339With fewestFractionText

/-- To the minute, such as `2025-03-01 12:00`. -/
def stampToMinute (t : Instant) : String :=
  dateText t.clock.date ++ " " ++ minuteText t.clock

def stampToSecond (t : Instant) : String :=
  t.stampToMinute ++ ":" ++ Text.zeroPadded 2 t.clock.second

end Instant

end DoubleEntry
