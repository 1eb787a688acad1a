import DoubleEntry.Decimal.Division
import DoubleEntry.Proofs.Calculations
import DoubleEntry.Proofs.Decimal.RoundedValues

/-!
# Opposite decimals

Products, quotients and rounded decimals have their digits from the digits of the
operands and their sign from the signs. So opposite operands have opposite results,
rounded alike, and overflow alike. The sign of a zero is no part of this: it is lost
in a product, kept by rounding and turned by `neg`.
-/

namespace DoubleEntry

namespace Decimal

/-- The same digits at the same scale, with the opposite sign unless they are zero. -/
structure Opposite (a b : Decimal) : Prop where
  coefficient_eq : b.coefficient = a.coefficient
  scale_eq : b.scale = a.scale
  negative_eq : a.isZero = false → b.negative = !a.negative

variable {a b : Decimal}

theorem opposite_neg (a : Decimal) : a.Opposite a.neg :=
  ⟨rfl, rfl, fun _ => rfl⟩

theorem opposite_zero : zero.Opposite zero :=
  ⟨rfl, rfl, fun h => by cases h⟩

namespace Opposite

theorem isZero_eq (h : a.Opposite b) : b.isZero = a.isZero := by
  rw [isZero, isZero, h.coefficient_eq]

theorem value_eq (h : a.Opposite b) : b.value = -a.value := by
  cases hzero : a.isZero with
  | true => rw [value_of_isZero hzero, value_of_isZero (h.isZero_eq.trans hzero), neg_zero]
  | false =>
      have heq : b = a.neg := by
        obtain ⟨negative, coefficient, scale, hcoefficient, hscale⟩ := b
        obtain ⟨rfl, rfl, hnegative⟩ := h
        obtain rfl : negative = !a.negative := hnegative hzero
        rfl
      rw [heq, value_neg]

end Opposite

theorem opposite_withSign (m : Decimal) (negative : Bool) :
    (m.withSign negative).Opposite (m.withSign (!negative)) := by
  refine ⟨rfl, rfl, fun hzero => ?_⟩
  have hm : m.isZero = false := hzero
  simp [withSign, hm]

/-- A long product keeps the sign when it is rounded to zero. -/
theorem opposite_with_negative (m : Decimal) (negative : Bool) :
    ({ m with negative := negative } : Decimal).Opposite { m with negative := !negative } :=
  ⟨rfl, rfl, fun _ => rfl⟩

/-! ## Operations -/

theorem alike_settle (overflow : Fault) (exact : Rat) (h : a.Opposite b) :
    (settle overflow exact (some a)).Alike Opposite (settle overflow (-exact) (some b)) := by
  have hflag : (b.value != -exact) = (a.value != exact) := by
    rw [h.value_eq, Bool.eq_iff_iff, bne_iff_ne, bne_iff_ne]
    exact neg_inj.not
  simp only [settle, hflag]
  exact .done _ h

theorem alike_settle_map (overflow : Fault) (exact : Rat) (fitted : Option Decimal)
    {sign sign' : Decimal → Decimal} (h : ∀ m, (sign m).Opposite (sign' m)) :
    (settle overflow exact (fitted.map sign)).Alike Opposite
      (settle overflow (-exact) (fitted.map sign')) := by
  cases fitted with
  | none => exact .fault overflow
  | some m => exact alike_settle overflow exact (h m)

namespace Opposite

theorem mul (h : a.Opposite b) (factor : Decimal) :
    (a.mul factor).Alike Opposite (b.mul factor) := by
  have hshort : areShort b factor = areShort a factor := by
    rw [areShort, areShort, h.coefficient_eq]
  unfold Decimal.mul
  rw [h.isZero_eq, h.coefficient_eq, h.scale_eq, h.value_eq, hshort, neg_mul]
  cases hzero : a.isZero || factor.isZero with
  | true => exact Calc.alike_pure opposite_zero
  | false =>
      have hsign : (b.negative != factor.negative) = !(a.negative != factor.negative) := by
        rw [h.negative_eq (Bool.or_eq_false_iff.1 hzero).1, Bool.not_bne]
      simp only [Bool.false_eq_true, if_false, hsign]
      split
      · exact alike_settle _ _ opposite_zero
      · apply alike_settle_map
        intro m
        split
        · exact opposite_withSign m _
        · exact opposite_with_negative m _

theorem div (h : a.Opposite b) (divisor : Decimal) :
    (a.div divisor).Alike Opposite (b.div divisor) := by
  have hquotient : quotient? b divisor = quotient? a divisor := by
    rw [quotient?, quotient?, h.coefficient_eq, h.scale_eq]
  unfold Decimal.div
  rw [h.isZero_eq, h.value_eq, hquotient, neg_div]
  cases hdivisor : divisor.isZero with
  | true => exact .fault .divisionByZero
  | false =>
      cases hzero : a.isZero with
      | true => exact Calc.alike_pure opposite_zero
      | false =>
          have hsign : (b.negative != divisor.negative) = !(a.negative != divisor.negative) := by
            rw [h.negative_eq hzero, Bool.not_bne]
          simp only [Bool.false_eq_true, if_false, hsign]
          exact alike_settle_map _ _ _ fun m => opposite_withSign m _

theorem roundTo (h : a.Opposite b) (places : Nat) :
    (a.roundTo places).Opposite (b.roundTo places) := by
  unfold Decimal.roundTo
  simp only [h.scale_eq, h.isZero_eq, h.coefficient_eq]
  split
  · exact h
  · cases hzero : a.isZero with
    | true =>
        have hcoefficient : a.coefficient = 0 := by simpa [isZero] using hzero
        refine ⟨rfl, rfl, fun hrounded => ?_⟩
        simp [isZero, hcoefficient] at hrounded
    | false =>
        simp only [h.negative_eq hzero]
        exact opposite_withSign _ a.negative

end Opposite

end Decimal

end DoubleEntry
