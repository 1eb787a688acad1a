import DoubleEntry.Proofs.Decimal.RoundedValues
import DoubleEntry.Tolerance

/-!
# Results that have room

An operation overflows only when the whole part of its result is too long. So when
a whole number that a decimal can hold bounds the exact result, the operation ends,
and rounding does not carry its answer past the bound. Differences of amounts that
are not negative are such results, and so is the part of an amount that a relative
tolerance of one at most allows.
-/

namespace DoubleEntry

theorem roundHalfEven_le_of_le_mul {m d bound : Nat} (h : m ≤ bound * d) :
    roundHalfEven m d ≤ bound := by
  have hfloor : m / d ≤ bound := Nat.div_le_of_le_mul (by rwa [Nat.mul_comm])
  rcases roundHalfEven_floor_or_next m d with heq | ⟨heq, hrest⟩
  · rwa [heq]
  · have hsplit := Nat.div_add_mod m d
    have hne : m / d ≠ bound := by
      rintro rfl
      rw [Nat.mul_comm] at h
      omega
    omega

namespace Decimal

variable {a b : Decimal} {bound : Nat}

theorem abs_value (a : Decimal) : |a.value| = a.coefficient / tenTo a.scale := by
  rw [← value_abs, value_eq_div]
  rfl

theorem abs_value_le_coefficient (a : Decimal) : |a.value| ≤ a.coefficient := by
  have hone : (1 : Rat) ≤ tenTo a.scale := Nat.one_le_cast.2 (tenTo_pos a.scale)
  rw [abs_value]
  exact div_le_self (Nat.cast_nonneg _) hone

theorem abs_value_withSign (negative : Bool) (a : Decimal) :
    |(a.withSign negative).value| = |a.value| := by
  rw [value_withSign, abs_value, abs_value]

/-! ## Fitting -/

/-- A magnitude within a bound fits, at the latest without fraction digits. -/
theorem exists_fit? {m s : Nat} (hbound : bound < coefficientLimit) (h : m ≤ bound * tenTo s) :
    ∃ r, fit? m s = some r ∧ |r.value| ≤ bound := by
  have hwhole : roundHalfEven m (tenTo s) < coefficientLimit :=
    Nat.lt_of_le_of_lt (roundHalfEven_le_of_le_mul h) hbound
  have hsome : (fit? m s).isSome := by
    rw [fit?, List.isSome_findSome?, List.any_eq_true]
    refine ⟨s, List.mem_range.2 (Nat.lt_succ_self s), ?_⟩
    rw [Nat.sub_self, if_pos (by decide), ofParts?, dif_pos ⟨hwhole, by decide⟩]
    rfl
  obtain ⟨r, hr⟩ := Option.isSome_iff_exists.1 hsome
  refine ⟨r, hr, ?_⟩
  obtain ⟨dropped, hdropped, -, hcoefficient, hscale⟩ := exists_of_fit? hr
  have hle : r.coefficient ≤ bound * tenTo r.scale := by
    rw [hcoefficient, hscale]
    apply roundHalfEven_le_of_le_mul
    rw [Nat.mul_assoc, ← tenTo_add, Nat.sub_add_cancel hdropped]
    exact h
  rw [abs_value, div_le_iff₀ (tenTo_cast_pos r.scale)]
  exact_mod_cast hle

/-! ## Operations -/

theorem exists_yields_alignedSum {overflow : Fault} (hbound : bound < coefficientLimit)
    (h : |a.value + b.value| ≤ bound) :
    ∃ sum, (alignedSum overflow a b).Yields sum ∧ |sum.value| ≤ bound := by
  unfold alignedSum
  dsimp only
  generalize hscale : max a.scale b.scale = scale
  generalize htotal : a.signed * (tenTo (scale - a.scale) : Int) +
    b.signed * (tenTo (scale - b.scale) : Int) = total
  have hvalue : (a.value + b.value) * tenTo scale = total := by
    rw [add_mul, value_mul_tenTo (by omega), value_mul_tenTo (by omega), ← htotal]
    push_cast
    rfl
  have hmagnitude : total.natAbs ≤ bound * tenTo scale := by
    have hscaled := mul_le_mul_of_nonneg_right h (tenTo_cast_pos scale).le
    rw [← abs_of_pos (tenTo_cast_pos scale), ← abs_mul, hvalue,
      abs_of_pos (tenTo_cast_pos scale)] at hscaled
    have hcast : ((total.natAbs : Nat) : Rat) = |(total : Rat)| := by
      rw [Nat.cast_natAbs, Int.cast_abs]
    rw [← hcast] at hscaled
    exact_mod_cast hscaled
  obtain ⟨r, hr, hle⟩ := exists_fit? hbound hmagnitude
  rw [hr]
  exact ⟨_, rfl, by rwa [abs_value_withSign]⟩

/-- A difference within a bound is worked out, and stays within it. -/
theorem exists_yields_sub (hbound : bound < coefficientLimit) (h : |a.value - b.value| ≤ bound) :
    ∃ difference, (a.sub b).Yields difference ∧ |difference.value| ≤ bound := by
  unfold sub
  split
  · rename_i ha
    rw [value_of_isZero ha, zero_sub, abs_neg] at h
    split
    · exact ⟨b, rfl, h⟩
    · exact ⟨b.neg, rfl, by rwa [value_neg, abs_neg]⟩
  · split
    · rename_i hb
      rw [value_of_isZero hb, sub_zero] at h
      exact ⟨a, rfl, h⟩
    · apply exists_yields_alignedSum hbound
      rwa [value_neg, ← sub_eq_add_neg]

theorem exists_yields_mul (hbound : bound < coefficientLimit) (h : |a.value * b.value| ≤ bound) :
    ∃ product, (a.mul b).Yields product ∧ |product.value| ≤ bound := by
  have hzero : |zero.value| ≤ (bound : Rat) := by
    rw [value_zero, abs_zero]
    exact Nat.cast_nonneg bound
  unfold mul
  split
  · exact ⟨zero, rfl, hzero⟩
  · dsimp only
    split
    · exact ⟨zero, rfl, hzero⟩
    · have hmagnitude : a.coefficient * b.coefficient ≤ bound * tenTo (a.scale + b.scale) := by
        have hpos := mul_pos (tenTo_cast_pos a.scale) (tenTo_cast_pos b.scale)
        rw [abs_mul, abs_value, abs_value, div_mul_div_comm, div_le_iff₀ hpos] at h
        rw [tenTo_add]
        exact_mod_cast h
      obtain ⟨r, hr, hle⟩ := exists_fit? hbound hmagnitude
      rw [hr]
      refine ⟨_, rfl, ?_⟩
      split
      · rwa [abs_value_withSign]
      · rwa [← value_withSign, abs_value_withSign]

/-! ## Amounts that are not negative -/

/-- The larger of two such amounts bounds their difference. -/
theorem exists_yields_sub_of_nonneg (ha : 0 ≤ a.value) (hb : 0 ≤ b.value) :
    ∃ difference, (a.sub b).Yields difference := by
  have hle : |a.value - b.value| ≤ ((max a.coefficient b.coefficient : Nat) : Rat) := by
    have hleft := abs_value_le_coefficient a
    have hright := abs_value_le_coefficient b
    rw [abs_of_nonneg ha] at hleft
    rw [abs_of_nonneg hb] at hright
    have hleft' := hleft.trans (le_max_left (a.coefficient : Rat) b.coefficient)
    have hright' := hright.trans (le_max_right (a.coefficient : Rat) b.coefficient)
    rw [Nat.cast_max, abs_sub_le_iff]
    exact ⟨by linarith, by linarith⟩
  obtain ⟨difference, h, -⟩ := exists_yields_sub (max_lt a.coefficient_lt b.coefficient_lt) hle
  exact ⟨difference, h⟩

/-- Comparing amounts that are not negative ends when the relative tolerance is at most one. -/
theorem exists_yields_isClose {relative absolute : Decimal} (ha : 0 ≤ a.value) (hb : 0 ≤ b.value)
    (hrelative : |relative.value| ≤ 1) :
    ∃ close, (a.isClose b relative absolute).Yields close := by
  unfold isClose
  split
  · exact ⟨true, rfl⟩
  · obtain ⟨difference, hdifference⟩ := exists_yields_sub_of_nonneg ha hb
    generalize a.abs.larger b.abs = magnitude
    have hscaled : |relative.value * magnitude.value| ≤ magnitude.coefficient := by
      rw [abs_mul]
      exact (mul_le_of_le_one_left (abs_nonneg _) hrelative).trans
        (abs_value_le_coefficient magnitude)
    obtain ⟨scaled, hscaled, -⟩ := exists_yields_mul magnitude.coefficient_lt hscaled
    simp only [Calc.yields_bind_iff]
    exact ⟨_, difference, hdifference, scaled, hscaled, rfl⟩

end Decimal

end DoubleEntry
