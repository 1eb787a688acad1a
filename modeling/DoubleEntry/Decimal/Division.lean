import DoubleEntry.Decimal.Arithmetic

/-!
# Quotients

Long division on the coefficients, up to nine digits at a time. It stops when
nothing is left over, or when one more digit would not fit, and then rounds half
to even; only a digit that was divided out and then did not fit is rounded half up
where the divisor is wide. If the division had to continue past the point,
trailing zeros are dropped again in blocks of eight, four, two and one, each block
once it is seen to be there; a single zero can survive (`1 / 2` is `0.50`).
-/

namespace DoubleEntry

namespace Decimal

/-- A quotient under way: `whole / 10 ^ scale` is divided out, `rest` remains. -/
structure Quotient where
  whole : Nat
  rest : Nat
  scale : Int
deriving DecidableEq, Repr

namespace Quotient

/-- How many of the next `most` digits surely fit behind `whole`. -/
def room (whole : Nat) : Nat → Nat
  | 0 => 0
  | most + 1 => if whole * tenTo (most + 1) < coefficientLimit then most + 1 else room whole most

theorem room_le (whole most : Nat) : room whole most ≤ most := by
  induction most with
  | zero => simp [room]
  | succ most ih =>
    unfold room
    split <;> omega

structure Result where
  coefficient : Nat
  scale : Nat
deriving DecidableEq, Repr

def result? (coefficient : Nat) (scale : Int) : Option Result :=
  if 0 ≤ scale then some ⟨coefficient, scale.toNat⟩ else none

/-- Round the last digit by what is left over; a carry out of range costs one digit. -/
def roundLast? (divisor : Nat) (q : Quotient) : Option Result :=
  if divisor < 2 * q.rest ∨ (2 * q.rest = divisor ∧ q.whole % 2 = 1) then
    if q.whole + 1 < coefficientLimit then result? (q.whole + 1) q.scale
    else result? ((q.whole + 1 + 5) / 10) (q.scale - 1)
  else
    result? q.whole q.scale

def wideDivisor : Nat := 0x10000000000000000

/--
Give up the digit that did not fit, rounding over all that is left. An exact half goes to
the even neighbour, or up when the divisor is wide.
-/
def dropDigit? (divisor : Nat) (q : Quotient) : Option Result :=
  let digit := q.whole % 10
  let shorter := q.whole / 10
  let halfGoesUp := q.rest ≠ 0 ∨ wideDivisor ≤ divisor ∨ shorter % 2 = 1
  if 5 < digit ∨ (digit = 5 ∧ halfGoesUp) then
    result? (shorter + 1) (q.scale - 1)
  else
    result? shorter (q.scale - 1)

def extend (divisor count : Nat) (q : Quotient) : Quotient :=
  { whole := q.whole * tenTo count + q.rest * tenTo count / divisor
    rest := q.rest * tenTo count % divisor
    scale := q.scale + count }

def finish? (divisor : Nat) (q : Quotient) : Option Result :=
  if q.rest = 0 then
    if hs : 0 ≤ q.scale then
      result? q.whole q.scale
    else
      let count := min 9 (-q.scale).toNat
      if q.whole * tenTo count < coefficientLimit then
        finish? divisor (q.extend divisor count)
      else
        none
  else
    let count := room q.whole (min 9 (28 - q.scale).toNat)
    if count < 9 ∧ q.scale + count < 0 then none
    else if _hc : count = 0 then roundLast? divisor q
    else
      let next := q.extend divisor count
      if next.whole < coefficientLimit then finish? divisor next
      else dropDigit? divisor next
termination_by (28 - q.scale).toNat
decreasing_by
  · simp only [extend]
    omega
  · have := room_le q.whole (min 9 (28 - q.scale).toNat)
    simp only [extend]
    omega

/-- Drop `width` zeros if they are there; a quick test on `mask` goes first. -/
def Result.dropZeros (mask width : Nat) (r : Result) : Result :=
  if r.coefficient % mask = 0 ∧ width ≤ r.scale ∧ r.coefficient % tenTo width = 0 then
    ⟨r.coefficient / tenTo width, r.scale - width⟩
  else
    r

/-- Blocks of eight while they last (28 digits hold at most three), then four, two and one. -/
def Result.trim (r : Result) : Result :=
  let dropEight (s : Result) := s.dropZeros 0x100000000 8
  let eights := dropEight (dropEight (dropEight r))
  ((eights.dropZeros 16 4).dropZeros 4 2).dropZeros 2 1

end Quotient

def quotient? (a b : Decimal) : Option Decimal :=
  let start : Quotient :=
    { whole := a.coefficient / b.coefficient
      rest := a.coefficient % b.coefficient
      scale := (a.scale : Int) - b.scale }
  (start.finish? b.coefficient).bind fun found =>
    let trimmed := if start.rest = 0 then found else found.trim
    ofParts? false trimmed.coefficient trimmed.scale

/-- Division by zero faults first; a zero dividend gives the plain zero. -/
def div (a b : Decimal) : Calc Decimal :=
  if b.isZero then .fault .divisionByZero
  else if a.isZero then pure zero
  else
    settle .divisionOverflow (a.value / b.value)
      ((quotient? a b).map (withSign (a.negative != b.negative)))

end Decimal

end DoubleEntry
