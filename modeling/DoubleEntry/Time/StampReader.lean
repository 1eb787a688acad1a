import DoubleEntry.Time.Instant

/-!
# Reading RFC 3339

A four-digit year, any one ASCII character between date and time, an optional
fraction of which nine digits count, and `Z` or an offset of less than a day.
Second 60 is a leap second and stands only at the end of a month in UTC; it
counts as the last nanosecond before.
-/

namespace DoubleEntry

namespace Instant

/-- Text being read, taken from the front. -/
abbrev StampReader := StateT (List Char) Option

namespace StampReader

def one (p : Char → Bool) : StampReader Char := fun
  | c :: rest => if p c then some (c, rest) else none
  | [] => none

def number (count : Nat) : StampReader Nat := do
  let mut n := 0
  for _ in List.range count do
    let c ← one Char.isDigit
    n := n * 10 + (c.toNat - '0'.toNat)
  return n

/-- A fraction of a second in nanoseconds, zero when there is no point. -/
def fraction : StampReader Nat := fun
  | '.' :: rest =>
    let digits := rest.takeWhile Char.isDigit
    let nine := (digits ++ List.replicate 9 '0').take 9
    if digits.isEmpty then none
    else
      some (nine.foldl (fun n c => n * 10 + (c.toNat - '0'.toNat)) 0,
        rest.dropWhile Char.isDigit)
  | cs => some (0, cs)

/-- Minutes east of UTC. -/
def offset : StampReader Int := do
  let c ← one fun c => c == 'Z' || c == 'z' || c == '+' || c == '-'
  if c == 'Z' || c == 'z' then return 0
  let hours ← number 2
  let _ ← one (· == ':')
  let minutes ← number 2
  if 23 < hours ∨ 59 < minutes then failure
  let total : Int := hours * 60 + minutes
  return if c == '-' then -total else total

def done : StampReader Unit := fun
  | [] => some ((), [])
  | _ => none

/-- Whether `t` lies in the last second of a month. -/
def endsMonth (t : Instant) : Bool :=
  (Date.ofDays (t.nanos / dayNanos + 1)).day == 1 && t.nanos % dayNanos == dayNanos - 1

def instant : StampReader Instant := do
  let year ← number 4
  let _ ← one (· == '-')
  let month ← number 2
  let _ ← one (· == '-')
  let day ← number 2
  let _ ← one fun c => c.toNat < 128
  let hour ← number 2
  let _ ← one (· == ':')
  let minute ← number 2
  let _ ← one (· == ':')
  let second ← number 2
  let nano ← fraction
  let east ← offset
  done
  let date : Date := ⟨year, month, day⟩
  if !date.isValid || 23 < hour || 59 < minute || 60 < second then failure
  let leap := second == 60
  let seconds : Int := hour * 3600 + minute * 60 + (if leap then 59 else second) - east * 60
  let nanos : Int := if leap then 999999999 else nano
  let t : Instant := ⟨date.days * dayNanos + seconds * 1000000000 + nanos⟩
  if leap && !endsMonth t then failure
  return t

end StampReader

/-- Milliseconds since the epoch of a written time, cut toward the epoch. -/
def millisOfText? (text : String) : Option Int :=
  (StampReader.instant text.toList).map fun found => found.1.nanos.tdiv 1000000

end Instant

end DoubleEntry
