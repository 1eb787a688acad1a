import DoubleEntry.Proofs.Decimal.Capacity

/-!
# How far a product is rounded

A product gives up the fewest fraction digits with which it fits. So it keeps all 28
places, or its coefficient is nearly as long as a coefficient can be; either way it is
off by little, beside its own size or beside the last place of a decimal.
-/

namespace DoubleEntry

namespace Decimal

variable {a b c : Decimal}

/-! ## Rounded magnitudes -/

theorem abs_roundHalfEven_sub_le (m d : Nat) (hd : 0 < d) :
    |(roundHalfEven m d : Rat) - m / d| ≤ 1 / 2 := by
  have hnearest := halfEven_spec ((m : Rat) / d)
  rw [halfEven_natCast_div m d hd, Int.cast_natCast, abs_sub_comm] at hnearest
  rcases hnearest with h | ⟨h, -⟩ <;> linarith

/-- No fewer digits could be given up: the others leave too many places or do not fit. -/
theorem least_of_fit? {m s : Nat} {r : Decimal} (h : fit? m s = some r) :
    ∃ dropped ≤ s, r.negative = false ∧ r.coefficient = roundHalfEven m (tenTo dropped) ∧
      r.scale = s - dropped ∧
      ∀ fewer < dropped, 28 < s - fewer ∨ coefficientLimit ≤ roundHalfEven m (tenTo fewer) := by
  obtain ⟨before, dropped, after, hrange, hfound, hnone⟩ := List.findSome?_eq_some_iff.1 h
  have hdropped : dropped ≤ s := by
    have hmem : dropped ∈ List.range (s + 1) := by simp [hrange]
    have := List.mem_range.1 hmem
    omega
  have hbefore : ∀ fewer < dropped, fewer ∈ before := by
    intro fewer hfewer
    have hmem : fewer ∈ before ++ dropped :: after := by
      rw [← hrange, List.mem_range]
      omega
    have horder : (before ++ dropped :: after).Pairwise (· < ·) :=
      hrange ▸ List.pairwise_lt_range
    have hlater := (List.pairwise_cons.1 (List.pairwise_append.1 horder).2.1).1
    rcases List.mem_append.1 hmem with hin | hrest
    · exact hin
    · rcases List.mem_cons.1 hrest with heq | hin
      · omega
      · have := hlater fewer hin
        omega
  split at hfound
  · unfold ofParts? at hfound
    split at hfound
    · obtain rfl := Option.some.inj hfound
      refine ⟨dropped, hdropped, rfl, rfl, rfl, fun fewer hfewer => ?_⟩
      have hfails := hnone fewer (hbefore fewer hfewer)
      by_contra hboth
      rw [not_or, not_lt, not_le] at hboth
      simp [ofParts?, hboth.1, hboth.2] at hfails
    · cases hfound
  · cases hfound

/-- A number whose coefficient is too long with one more digit is large beside its last place. -/
theorem tenTo_le_of_full {m fewer : Nat} (places : Nat)
    (hfull : coefficientLimit ≤ roundHalfEven m (tenTo fewer)) :
    (tenTo 28 : Rat) ≤ 2 * (m / tenTo (fewer + 1 + places)) * tenTo places := by
  have hlimit : 5 * tenTo 28 + 1 ≤ coefficientLimit := by decide
  have hlong : (5 * tenTo 28 : Rat) ≤ m / tenTo fewer := by
    have hnear := abs_le.1 (abs_roundHalfEven_sub_le m _ (tenTo_pos fewer))
    have hcast : (5 * tenTo 28 + 1 : Rat) ≤ roundHalfEven m (tenTo fewer) := by
      exact_mod_cast hlimit.trans hfull
    linarith [hnear.2]
  have hfewer := tenTo_cast_pos fewer
  have hplaces := tenTo_cast_pos places
  calc (tenTo 28 : Rat) ≤ m / tenTo fewer / 5 := by linarith
    _ = 2 * (m / tenTo (fewer + 1 + places)) * tenTo places := by
        rw [tenTo_add, tenTo_succ]
        push_cast
        field_simp
        ring

/-- A fitted magnitude is off by a part in `10 ^ 28` of it and half of the 28th place at most. -/
theorem abs_fit?_sub_le {m s : Nat} {r : Decimal} (h : fit? m s = some r) :
    |r.value - m / tenTo s| * tenTo 28 ≤ m / tenTo s + 1 / 2 := by
  obtain ⟨dropped, hdropped, hnegative, hcoefficient, hscale, hleast⟩ := least_of_fit? h
  obtain ⟨places, rfl⟩ := Nat.exists_eq_add_of_le hdropped
  rw [Nat.add_sub_cancel_left] at hscale
  have hkept := tenTo_cast_pos places
  have hoff : r.value - m / tenTo (dropped + places) =
      ((roundHalfEven m (tenTo dropped) : Rat) - m / tenTo dropped) / tenTo places := by
    rw [value_eq_div, signed, hnegative, if_neg Bool.false_ne_true, Int.cast_natCast, hcoefficient,
      hscale, tenTo_add, Nat.cast_mul, sub_div, div_div]
  have hexact : (0 : Rat) ≤ m / tenTo (dropped + places) :=
    div_nonneg (Nat.cast_nonneg m) (Nat.cast_nonneg _)
  cases dropped with
  | zero =>
      rw [hoff, tenTo_zero, roundHalfEven_one, Nat.cast_one, div_one, sub_self, zero_div, abs_zero,
        zero_mul]
      linarith
  | succ fewer =>
      have hhalf : |r.value - m / tenTo (fewer + 1 + places)| * tenTo places ≤ 1 / 2 := by
        rw [hoff, abs_div, abs_of_pos hkept, div_mul_cancel₀ _ hkept.ne']
        exact abs_roundHalfEven_sub_le m _ (tenTo_pos _)
      rcases hleast fewer (Nat.lt_succ_self fewer) with hlong | hfull
      · -- All 28 places are there.
        have hlast : (tenTo 28 : Rat) ≤ tenTo places :=
          Nat.cast_le.2 (tenTo_le_tenTo (by omega))
        have hless := mul_le_mul_of_nonneg_left hlast
          (abs_nonneg (r.value - m / tenTo (fewer + 1 + places)))
        linarith
      · -- The coefficient with one digit more is too long, so the number is large.
        have hless := mul_le_mul_of_nonneg_left (tenTo_le_of_full places hfull)
          (abs_nonneg (r.value - m / tenTo (fewer + 1 + places)))
        have hmore := mul_le_mul_of_nonneg_left hhalf (mul_nonneg two_pos.le hexact)
        linarith

/-! ## Products -/

theorem value_eq_sign_mul (a : Decimal) :
    a.value = (if a.negative then -1 else 1) * (a.coefficient / tenTo a.scale) := by
  rw [value_eq_div, signed]
  split
  · rw [Int.cast_neg, Int.cast_natCast, neg_div, neg_one_mul]
  · rw [Int.cast_natCast, one_mul]

theorem value_mul_value (a b : Decimal) :
    a.value * b.value = (if a.negative != b.negative then -1 else 1) *
      ((a.coefficient * b.coefficient : Nat) / tenTo (a.scale + b.scale)) := by
  rw [value_eq_sign_mul a, value_eq_sign_mul b, tenTo_add]
  push_cast
  cases a.negative <;> cases b.negative <;> simp <;> ring

/-- Short factors with so many places come to less than half of the last place. -/
theorem abs_mul_lt_of_short (hshort : areShort a b = true) (hplaces : 47 < a.scale + b.scale) :
    |a.value * b.value| * tenTo 28 < 1 / 2 := by
  have hmagnitude : a.coefficient * b.coefficient * tenTo 28 * 2 < tenTo (a.scale + b.scale) := by
    simp only [areShort, Bool.and_eq_true, decide_eq_true_eq] at hshort
    calc a.coefficient * b.coefficient * tenTo 28 * 2
        ≤ 0x100000000 * 0x100000000 * tenTo 28 * 2 :=
          Nat.mul_le_mul_right _
            (Nat.mul_le_mul_right _ (Nat.mul_le_mul hshort.1.le hshort.2.le))
      _ < tenTo 48 := by decide
      _ ≤ tenTo (a.scale + b.scale) := tenTo_le_tenTo hplaces
  rw [abs_mul, abs_value, abs_value, div_mul_div_comm, ← Nat.cast_mul, ← Nat.cast_mul, ← tenTo_add,
    div_mul_eq_mul_div, div_lt_div_iff₀ (tenTo_cast_pos _) two_pos, one_mul]
  exact_mod_cast hmagnitude

/-- The sign is put on a fitted magnitude in either of two ways. -/
theorem value_of_signed {r : Decimal} (h : r.negative = false) (short negative : Bool) :
    (if short then r.withSign negative else { r with negative := negative }).value =
      (if negative then -1 else 1) * r.value := by
  have hmagnitude := value_eq_sign_mul r
  rw [h, if_neg Bool.false_ne_true, one_mul] at hmagnitude
  rw [hmagnitude]
  split
  · rw [value_withSign, value_eq_sign_mul]
  · rw [value_eq_sign_mul]

theorem abs_sub_of_fit? {r : Decimal}
    (hfit : fit? (a.coefficient * b.coefficient) (a.scale + b.scale) = some r)
    (hc : c.value = (if a.negative != b.negative then -1 else 1) * r.value) :
    |c.value - a.value * b.value| * tenTo 28 ≤ |a.value * b.value| + 1 := by
  have hone : |(if a.negative != b.negative then -1 else 1 : Rat)| = 1 := by
    split <;> norm_num
  have hnear := abs_fit?_sub_le hfit
  have hexact := le_abs_self
    (((a.coefficient * b.coefficient : Nat) : Rat) / tenTo (a.scale + b.scale))
  rw [value_mul_value, hc, ← mul_sub, abs_mul, abs_mul, hone, one_mul, one_mul]
  linarith

/-- A product is off by a part in `10 ^ 28` of it and a unit of the 28th place at most. -/
theorem abs_mul_sub_le (h : (a.mul b).Yields c) :
    |c.value - a.value * b.value| * tenTo 28 ≤ |a.value * b.value| + 1 := by
  unfold mul at h
  split at h
  · rename_i hzero
    obtain rfl := (Calc.yields_pure_iff _ _).1 h
    have hnothing : a.value * b.value = 0 := by
      rcases Bool.or_eq_true_iff.1 hzero with ha | hb
      · rw [value_of_isZero ha, zero_mul]
      · rw [value_of_isZero hb, mul_zero]
    rw [value_zero, hnothing]
    norm_num
  · dsimp only at h
    split at h
    · rename_i hshort
      rw [Bool.and_eq_true, decide_eq_true_iff] at hshort
      obtain rfl : zero = c := Except.ok.inj h
      have hless := abs_mul_lt_of_short hshort.1 hshort.2
      have hnonneg := abs_nonneg (a.value * b.value)
      rw [value_zero, zero_sub, abs_neg]
      linarith
    · cases hfit : fit? (a.coefficient * b.coefficient) (a.scale + b.scale) with
      | none =>
          rw [hfit] at h
          cases h
      | some r =>
          rw [hfit] at h
          obtain ⟨-, -, hnegative, -⟩ := exists_of_fit? hfit
          obtain rfl := Except.ok.inj h
          exact abs_sub_of_fit? hfit (value_of_signed hnegative _ _)

end Decimal

end DoubleEntry
