import DoubleEntry.Calc
import DoubleEntry.Time.Calendar

/-!
# Instants and spans

An instant is a count of nanoseconds since the epoch. Documents keep whole
milliseconds, so an instant is floored when it is written down. Taking a span
from an instant faults when the result leaves the calendar's years. Leap seconds
are left out: no instant stands for the second that follows the last one of a day.
-/

namespace DoubleEntry

/-- A length of time, in nanoseconds. -/
structure Span where
  nanos : Int
deriving DecidableEq, Repr

namespace Span

instance : LE Span := ⟨fun a b => a.nanos ≤ b.nanos⟩

instance : LT Span := ⟨fun a b => a.nanos < b.nanos⟩

instance (a b : Span) : Decidable (a ≤ b) :=
  inferInstanceAs (Decidable (a.nanos ≤ b.nanos))

instance (a b : Span) : Decidable (a < b) :=
  inferInstanceAs (Decidable (a.nanos < b.nanos))

def zero : Span := ⟨0⟩

def ofMillis (ms : Int) : Span := ⟨ms * 1000000⟩

/-- Whole milliseconds, cut toward zero. -/
def millis (s : Span) : Int :=
  s.nanos.tdiv 1000000

def mostMillis : Nat := 0x7fffffffffffffff

def ofUnits (unit : SpanUnit) (count : Int) : Calc Span :=
  if count.natAbs * unit.milliseconds ≤ mostMillis then
    pure (ofMillis (count * unit.milliseconds))
  else
    .fault (.spanOverflow unit)

end Span

/-- A point in time, in nanoseconds since the start of 1970 in UTC. -/
structure Instant where
  nanos : Int
deriving DecidableEq, Repr

namespace Instant

instance : LE Instant := ⟨fun a b => a.nanos ≤ b.nanos⟩

instance : LT Instant := ⟨fun a b => a.nanos < b.nanos⟩

instance (a b : Instant) : Decidable (a ≤ b) :=
  inferInstanceAs (Decidable (a.nanos ≤ b.nanos))

instance (a b : Instant) : Decidable (a < b) :=
  inferInstanceAs (Decidable (a.nanos < b.nanos))

def epoch : Instant := ⟨0⟩

def dayNanos : Int := 86400 * 1000000000

def ofMillis (ms : Int) : Instant := ⟨ms * 1000000⟩

/-- Whole milliseconds since the epoch, floored. -/
def millis (t : Instant) : Int :=
  t.nanos / 1000000

/-- The instant as documents keep it. -/
def floored (t : Instant) : Instant :=
  ofMillis t.millis

def earliest : Instant :=
  ⟨(Date.mk (-262143) 1 1).days * dayNanos⟩

def latest : Instant :=
  ⟨(Date.mk 262143 1 1).days * dayNanos - 1⟩

def clamp (t : Instant) : Instant :=
  if t < earliest then earliest else if latest < t then latest else t

def minus (t : Instant) (span : Span) : Calc Instant :=
  let found : Instant := ⟨t.nanos - span.nanos⟩
  if earliest ≤ found ∧ found ≤ latest then pure found else .fault .instantOverflow

def since (later earlier : Instant) : Span :=
  ⟨later.nanos - earlier.nanos⟩

@[simp] theorem floored_floored (t : Instant) : t.floored.floored = t.floored := by
  simp only [floored, ofMillis, millis, Instant.mk.injEq]
  omega

end Instant

end DoubleEntry
