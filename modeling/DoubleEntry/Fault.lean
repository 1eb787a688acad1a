/-!
# Faults

A fault ends a calculation without an answer: an amount, a time or a printed
figure left the range that its type can hold. Faults are causes; their wording
lives in `Fault.message` alone.
-/

namespace DoubleEntry

/-- Units in which a span of time is given. -/
inductive SpanUnit where
  | seconds
  | hours
  | days
deriving DecidableEq, Repr

namespace SpanUnit

def milliseconds : SpanUnit → Nat
  | .seconds => 1000
  | .hours => 3600000
  | .days => 86400000

def name : SpanUnit → String
  | .seconds => "seconds"
  | .hours => "hours"
  | .days => "days"

end SpanUnit

/-- Why a calculation has no answer. -/
inductive Fault where
  | additionOverflow
  | subtractionOverflow
  | multiplicationOverflow
  | divisionOverflow
  | divisionByZero
  /-- A time less a span lies outside the calendar. -/
  | instantOverflow
  /-- A span of so many units has no millisecond count. -/
  | spanOverflow (unit : SpanUnit)
  /-- A figure has too many characters to be printed. -/
  | figureOverflow
deriving DecidableEq, Repr

namespace Fault

def message : Fault → String
  | .additionOverflow => "Addition overflowed"
  | .subtractionOverflow => "Subtraction overflowed"
  | .multiplicationOverflow => "Multiplication overflowed"
  | .divisionOverflow => "Division overflowed"
  | .divisionByZero => "Division by zero"
  | .instantOverflow => "`DateTime - TimeDelta` overflowed"
  | .spanOverflow unit => "TimeDelta::" ++ unit.name ++ " out of bounds"
  | .figureOverflow =>
    "called `Result::unwrap()` on an `Err` value: CapacityError: insufficient capacity"

end Fault

end DoubleEntry
