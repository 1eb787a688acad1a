import DoubleEntry.Decimal.Places
import DoubleEntry.Decimal.Rounding

/-!
# Bounded decimals

A decimal is a sign, a coefficient of at most 96 bits and a scale of at most 28
fraction digits. Scale is part of the representation: `1.5` and `1.50` are two
decimals of one value, and a zero may carry a sign. `value` is the number meant;
`==`, `<` and `≤` compare values, `=` compares representations.
-/

namespace DoubleEntry

abbrev Decimal.coefficientLimit : Nat := 0x1000000000000000000000000

/-- `coefficient / 10 ^ scale`, with its sign. -/
structure Decimal where
  negative : Bool
  coefficient : Nat
  scale : Nat
  coefficient_lt : coefficient < Decimal.coefficientLimit
  scale_le : scale ≤ 28
deriving DecidableEq, Repr

namespace Decimal

def signed (a : Decimal) : Int :=
  if a.negative then -(a.coefficient : Int) else a.coefficient

def value (a : Decimal) : Rat :=
  mkRat a.signed (tenTo a.scale)

instance : BEq Decimal :=
  ⟨fun a b => a.value == b.value⟩

instance : LT Decimal :=
  ⟨fun a b => a.value < b.value⟩

instance : LE Decimal :=
  ⟨fun a b => a.value ≤ b.value⟩

instance (a b : Decimal) : Decidable (a < b) :=
  inferInstanceAs (Decidable (a.value < b.value))

instance (a b : Decimal) : Decidable (a ≤ b) :=
  inferInstanceAs (Decidable (a.value ≤ b.value))

theorem lt_iff (a b : Decimal) : a < b ↔ a.value < b.value :=
  Iff.rfl

theorem le_iff (a b : Decimal) : a ≤ b ↔ a.value ≤ b.value :=
  Iff.rfl

theorem beq_iff (a b : Decimal) : a == b ↔ a.value = b.value := by
  change (a.value == b.value) = true ↔ _
  exact beq_iff_eq

/-- The larger of two decimals; of two equal ones the first. -/
def larger (a b : Decimal) : Decimal :=
  if a < b then b else a

/-! ## Construction -/

/-- The decimal of these parts, when they are in range. A zero keeps its sign. -/
def ofParts? (negative : Bool) (coefficient scale : Nat) : Option Decimal :=
  if h : coefficient < coefficientLimit ∧ scale ≤ 28 then
    some ⟨negative, coefficient, scale, h.1, h.2⟩
  else
    none

def ofNat (n : Nat) (h : n < coefficientLimit := by decide) : Decimal :=
  ⟨false, n, 0, h, Nat.zero_le 28⟩

/-- One unit in the last of `scale` fraction digits. -/
def unitAt (scale : Nat) (h : scale ≤ 28 := by decide) : Decimal :=
  ⟨false, 1, scale, by decide, h⟩

def zero : Decimal := ofNat 0

def one : Decimal := ofNat 1

def ten : Decimal := ofNat 10

def minusOne : Decimal := { one with negative := true }

instance : Inhabited Decimal := ⟨zero⟩

/-! ## Sign -/

def isZero (a : Decimal) : Bool :=
  a.coefficient == 0

def isNegative (a : Decimal) : Bool :=
  a.negative && !a.isZero

/-- The opposite sign, on a zero too. -/
def neg (a : Decimal) : Decimal :=
  { a with negative := !a.negative }

def abs (a : Decimal) : Decimal :=
  { a with negative := false }

/-- This magnitude with the given sign; a zero is left unsigned. -/
def withSign (negative : Bool) (a : Decimal) : Decimal :=
  { a with negative := negative && !a.isZero }

/-! ## Rounding to a scale -/

/--
At most `places` fraction digits, half to even. A decimal that has no more is
unchanged; a zero keeps its sign, and a number rounded to zero loses it.
-/
def roundTo (places : Nat) (a : Decimal) : Decimal :=
  if h : a.scale ≤ places then
    a
  else
    let shorter : Decimal :=
      { negative := a.negative
        coefficient := roundHalfEven a.coefficient (tenTo (a.scale - places))
        scale := places
        coefficient_lt := by
          have hle := roundHalfEven_le a.coefficient _
            (two_le_tenTo (by omega : 0 < a.scale - places))
          exact Nat.lt_of_le_of_lt hle a.coefficient_lt
        scale_le := by
          have := a.scale_le
          omega }
    if a.isZero then shorter else shorter.withSign a.negative

@[simp] theorem neg_neg (a : Decimal) : a.neg.neg = a := by
  simp [neg]

@[simp] theorem abs_negative (a : Decimal) : a.abs.negative = false :=
  rfl

theorem roundTo_scale_le (places : Nat) (a : Decimal) : (a.roundTo places).scale ≤ places := by
  unfold roundTo
  split
  · assumption
  · dsimp only
    split <;> simp [withSign]

end Decimal

end DoubleEntry
