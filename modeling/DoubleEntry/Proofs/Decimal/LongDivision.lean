import DoubleEntry.Decimal.Division
import DoubleEntry.Proofs.Decimal.Capacity

/-!
# Quotients that have room

A division under way has divided out some digits and keeps a rest below the divisor.
Dividing out more of them moves the point and leaves the number divided alone, so a
bound on the quotient is a bound at every stage. From it follows that the division
never runs out of room when a whole number that a decimal can hold bounds the exact
quotient, and that its last digit is not rounded past the bound.
-/

namespace DoubleEntry

namespace Decimal

namespace Quotient

variable {divisor bound : Nat} {q : Quotient}

/-! ## Room for digits -/

theorem fits_of_room_pos {whole most : Nat} (h : 0 < room whole most) :
    whole * tenTo (room whole most) < coefficientLimit := by
  induction most with
  | zero => simp [room] at h
  | succ most ih =>
      unfold room at h ⊢
      split
      · assumption
      · rename_i hfull
        rw [if_neg hfull] at h
        exact ih h

theorem le_of_room_lt {whole most : Nat} (h : room whole most < most) :
    coefficientLimit ≤ whole * tenTo (room whole most + 1) := by
  induction most with
  | zero => omega
  | succ most ih =>
      unfold room at h ⊢
      split
      · rename_i hfits
        rw [if_pos hfits] at h
        omega
      · rename_i hfull
        rw [if_neg hfull] at h
        by_cases heq : room whole most = most
        · rw [heq]
          exact Nat.not_lt.1 hfull
        · have hle := room_le whole most
          exact ih (by omega)

/-! ## The number divided -/

/-- The dividend, in units of the 28th place of the divisor. -/
def dividend (divisor : Nat) (q : Quotient) : Nat :=
  (q.whole * divisor + q.rest) * tenTo (28 - q.scale).toNat

/-- A division under way of which `bound` bounds the exact quotient. -/
structure Within (divisor bound : Nat) (q : Quotient) : Prop where
  rest_lt : q.rest < divisor
  scale_le : q.scale ≤ 28
  dividend_le : q.dividend divisor ≤ bound * divisor * tenTo 28

theorem total_extend (divisor count : Nat) (q : Quotient) :
    (q.extend divisor count).whole * divisor + (q.extend divisor count).rest =
      (q.whole * divisor + q.rest) * tenTo count := by
  have hrest := Nat.div_add_mod (q.rest * tenTo count) divisor
  simp only [extend]
  calc (q.whole * tenTo count + q.rest * tenTo count / divisor) * divisor +
        q.rest * tenTo count % divisor
      = q.whole * tenTo count * divisor +
          (divisor * (q.rest * tenTo count / divisor) + q.rest * tenTo count % divisor) := by ring
    _ = (q.whole * divisor + q.rest) * tenTo count := by rw [hrest]; ring

theorem dividend_extend {count : Nat} (h : q.scale + count ≤ 28) :
    (q.extend divisor count).dividend divisor = q.dividend divisor := by
  have hplaces : (28 - q.scale).toNat = count + (28 - (q.scale + count)).toNat := by omega
  rw [dividend, total_extend, dividend, hplaces, tenTo_add, Nat.mul_assoc]
  rfl

theorem within_start {m n s t : Nat} (hn : 0 < n) (hs : s ≤ 28)
    (h : m * tenTo t ≤ bound * n * tenTo s) :
    (⟨m / n, m % n, (s : Int) - t⟩ : Quotient).Within n bound where
  rest_lt := Nat.mod_lt _ hn
  scale_le := by
    dsimp only
    omega
  dividend_le := by
    have hplaces : (28 - ((s : Int) - t)).toNat = t + (28 - s) := by omega
    simp only [dividend, hplaces]
    rw [Nat.div_add_mod', tenTo_add]
    calc m * (tenTo t * tenTo (28 - s))
        = m * tenTo t * tenTo (28 - s) := (Nat.mul_assoc _ _ _).symm
      _ ≤ bound * n * tenTo s * tenTo (28 - s) := Nat.mul_le_mul_right _ h
      _ = bound * n * tenTo 28 := by
          rw [Nat.mul_assoc, ← tenTo_add, Nat.add_sub_cancel' hs]

namespace Within

theorem divisor_pos (h : q.Within divisor bound) : 0 < divisor :=
  Nat.zero_lt_of_lt h.rest_lt

theorem extend {count : Nat} (h : q.Within divisor bound) (hscale : q.scale + count ≤ 28) :
    (q.extend divisor count).Within divisor bound where
  rest_lt := Nat.mod_lt _ h.divisor_pos
  scale_le := hscale
  dividend_le := by
    rw [dividend_extend hscale]
    exact h.dividend_le

/-- Behind the point a bound has as many more digits. -/
theorem total_le (h : q.Within divisor bound) (hscale : 0 ≤ q.scale) :
    q.whole * divisor + q.rest ≤ bound * tenTo q.scale.toNat * divisor := by
  have hplaces : 28 = q.scale.toNat + (28 - q.scale).toNat := by
    have := h.scale_le
    omega
  have hle := h.dividend_le
  rw [dividend, congrArg tenTo hplaces, tenTo_add] at hle
  apply Nat.le_of_mul_le_mul_right _ (tenTo_pos (28 - q.scale).toNat)
  calc (q.whole * divisor + q.rest) * tenTo (28 - q.scale).toNat
      ≤ bound * divisor * (tenTo q.scale.toNat * tenTo (28 - q.scale).toNat) := hle
    _ = bound * tenTo q.scale.toNat * divisor * tenTo (28 - q.scale).toNat := by ring

theorem whole_le (h : q.Within divisor bound) (hscale : 0 ≤ q.scale) :
    q.whole ≤ bound * tenTo q.scale.toNat :=
  Nat.le_of_mul_le_mul_right (Nat.le_trans (Nat.le_add_right _ _) (h.total_le hscale))
    h.divisor_pos

theorem whole_mul_le (h : q.Within divisor bound) (count : Nat) (hscale : q.scale + count ≤ 0) :
    q.whole * tenTo count ≤ bound := by
  have hplaces : (28 - q.scale).toNat = count + ((28 - q.scale).toNat - count - 28) + 28 := by omega
  have hle := h.dividend_le
  rw [dividend, hplaces, tenTo_add, tenTo_add, ← Nat.mul_assoc] at hle
  have hshort := Nat.le_of_mul_le_mul_right hle (tenTo_pos 28)
  apply Nat.le_of_mul_le_mul_right _ h.divisor_pos
  calc q.whole * tenTo count * divisor
      = q.whole * divisor * tenTo count := by ring
    _ ≤ (q.whole * divisor + q.rest) * tenTo count :=
        Nat.mul_le_mul_right _ (Nat.le_add_right _ _)
    _ ≤ (q.whole * divisor + q.rest) *
          (tenTo count * tenTo ((28 - q.scale).toNat - count - 28)) :=
        Nat.mul_le_mul_left _ (Nat.le_mul_of_pos_right _ (tenTo_pos _))
    _ ≤ bound * divisor := hshort

end Within

/-! ## The end of a division -/

structure Result.Within (bound : Nat) (r : Result) : Prop where
  coefficient_lt : r.coefficient < coefficientLimit
  scale_le : r.scale ≤ 28
  coefficient_le : r.coefficient ≤ bound * tenTo r.scale

theorem exists_result? {coefficient : Nat} {scale : Int} (hscale : 0 ≤ scale)
    (hle : scale ≤ 28) (hlt : coefficient < coefficientLimit)
    (h : coefficient ≤ bound * tenTo scale.toNat) :
    ∃ r, result? coefficient scale = some r ∧ r.Within bound :=
  ⟨⟨coefficient, scale.toNat⟩, if_pos hscale, hlt, Int.toNat_le.2 hle, h⟩

theorem bound_mul_tenTo {scale : Int} (h : 0 < scale) :
    bound * tenTo scale.toNat = bound * tenTo (scale - 1).toNat * 10 := by
  have hplaces : scale.toNat = (scale - 1).toNat + 1 := by omega
  rw [hplaces, tenTo_succ, Nat.mul_assoc]

theorem exists_roundLast? (hbound : bound < coefficientLimit) (h : q.Within divisor bound)
    (hlt : q.whole < coefficientLimit) (hscale : 0 ≤ q.scale) :
    ∃ r, q.roundLast? divisor = some r ∧ r.Within bound := by
  have hle := h.scale_le
  unfold roundLast?
  split
  · rename_i hup
    have hrest : 0 < q.rest := by
      have := h.rest_lt
      omega
    have hnext : q.whole + 1 ≤ bound * tenTo q.scale.toNat := by
      have htotal := h.total_le hscale
      have hwhole := h.whole_le hscale
      by_contra hover
      have heq : q.whole = bound * tenTo q.scale.toNat := by omega
      rw [heq] at htotal
      omega
    split
    · rename_i hfits
      exact exists_result? hscale hle hfits hnext
    · -- The carry needs a digit more than there are, so one behind the point is given up.
      have hpos : 0 < q.scale := by
        by_contra hnonpos
        have hzero : q.scale.toNat = 0 := by omega
        rw [hzero, tenTo_zero] at hnext
        omega
      rw [bound_mul_tenTo hpos] at hnext
      exact exists_result? (by omega) (by omega) (by omega) (by omega)
  · exact exists_result? hscale hle hlt (h.whole_le hscale)

theorem exists_dropDigit? (hbound : bound < coefficientLimit) (h : q.Within divisor bound)
    (hfull : coefficientLimit ≤ q.whole) (hshorter : q.whole / 10 + 1 < coefficientLimit) :
    ∃ r, q.dropDigit? divisor = some r ∧ r.Within bound := by
  have hle := h.scale_le
  have hpos : 0 < q.scale := by
    by_contra hnonpos
    have hwhole := h.whole_mul_le 0 (by omega)
    rw [tenTo_zero] at hwhole
    omega
  have hwhole := h.whole_le (by omega)
  rw [bound_mul_tenTo hpos] at hwhole
  unfold dropDigit?
  dsimp only
  split
  · exact exists_result? (by omega) (by omega) hshorter (by omega)
  · exact exists_result? (by omega) (by omega) (by omega) (by omega)

/-- A division ends within every whole bound that a decimal can hold. -/
theorem exists_finish? (hbound : bound < coefficientLimit) (h : q.Within divisor bound)
    (hlt : q.whole < coefficientLimit) :
    ∃ r, q.finish? divisor = some r ∧ r.Within bound := by
  fun_induction finish? divisor q with
  | case1 q hrest hscale => exact exists_result? hscale h.scale_le hlt (h.whole_le hscale)
  | case2 q hrest hscale count hfits ih =>
      refine ih (h.extend (by omega)) ?_
      simpa [extend, hrest] using hfits
  | case3 q hrest hscale count hfull =>
      have hwhole := h.whole_mul_le count (by omega)
      omega
  | case4 q hrest count hshort =>
      have hroom : count < min 9 (28 - q.scale).toNat := by omega
      have hfull : coefficientLimit ≤ q.whole * tenTo (count + 1) := le_of_room_lt hroom
      have hwhole := h.whole_mul_le (count + 1) (by omega)
      omega
  | case5 q hrest count hscale hzero => exact exists_roundLast? hbound h hlt (by omega)
  | case6 q hrest count hscale hpos next hfits ih =>
      have hroom := room_le q.whole (min 9 (28 - q.scale).toNat)
      exact ih (h.extend (by omega)) hfits
  | case7 q hrest count hscale hpos next hfull =>
      have hroom := room_le q.whole (min 9 (28 - q.scale).toNat)
      have hfits : q.whole * tenTo count < coefficientLimit := fits_of_room_pos (by omega)
      have hdigits : tenTo count ≤ tenTo 9 := tenTo_le_tenTo (by omega)
      have hbehind : q.rest * tenTo count / divisor < tenTo count := by
        rw [Nat.div_lt_iff_lt_mul h.divisor_pos, Nat.mul_comm]
        exact Nat.mul_lt_mul_of_pos_left h.rest_lt (tenTo_pos count)
      have hnext : next.whole = q.whole * tenTo count + q.rest * tenTo count / divisor := rfl
      have hnine : tenTo 9 < coefficientLimit - 2 := by decide
      exact exists_dropDigit? hbound (h.extend (by omega)) (by omega) (by omega)

theorem Result.Within.dropZeros {r : Result} (h : r.Within bound) (mask width : Nat) :
    (r.dropZeros mask width).Within bound := by
  unfold Result.dropZeros
  split
  · rename_i hzeros
    obtain ⟨-, hwidth, hdivides⟩ := hzeros
    refine ⟨Nat.lt_of_le_of_lt (Nat.div_le_self _ _) h.coefficient_lt,
      Nat.le_trans (Nat.sub_le _ _) h.scale_le, ?_⟩
    have hle := h.coefficient_le
    rw [← Nat.sub_add_cancel hwidth, tenTo_add, ← Nat.mul_assoc] at hle
    exact Nat.div_le_of_le_mul (by rwa [Nat.mul_comm])
  · exact h

theorem Result.Within.trim {r : Result} (h : r.Within bound) : r.trim.Within bound :=
  (((((h.dropZeros _ _).dropZeros _ _).dropZeros _ _).dropZeros _ _).dropZeros _ _).dropZeros _ _

end Quotient

/-! ## Quotients of decimals -/

variable {a b : Decimal} {bound : Nat}

theorem exists_quotient? (hb : b.isZero = false) (hbound : bound < coefficientLimit)
    (h : |a.value / b.value| ≤ bound) :
    ∃ r, quotient? a b = some r ∧ |r.value| ≤ bound := by
  have hpos : 0 < b.coefficient := by
    rw [isZero, beq_eq_false_iff_ne] at hb
    omega
  have hmagnitudes : a.coefficient * tenTo b.scale ≤ bound * b.coefficient * tenTo a.scale := by
    have hscaled := mul_pos (tenTo_cast_pos a.scale) (Nat.cast_pos.2 hpos)
    rw [abs_div, abs_value, abs_value, div_div_div_eq, div_le_iff₀ hscaled] at h
    rw [Nat.mul_assoc, Nat.mul_comm b.coefficient]
    exact_mod_cast h
  obtain ⟨found, hfound, hwithin⟩ := Quotient.exists_finish? hbound
    (Quotient.within_start hpos a.scale_le hmagnitudes)
    (Nat.lt_of_le_of_lt (Nat.div_le_self _ _) a.coefficient_lt)
  obtain ⟨result, hresult, hlast⟩ : ∃ result,
      (if a.coefficient % b.coefficient = 0 then found else found.trim) = result ∧
        result.Within bound := by
    split
    · exact ⟨found, rfl, hwithin⟩
    · exact ⟨found.trim, rfl, hwithin.trim⟩
  refine ⟨⟨false, result.coefficient, result.scale, hlast.coefficient_lt, hlast.scale_le⟩, ?_, ?_⟩
  · unfold quotient?
    dsimp only
    rw [hfound, Option.bind_some, hresult, ofParts?, dif_pos ⟨hlast.coefficient_lt, hlast.scale_le⟩]
  · rw [abs_value, div_le_iff₀ (tenTo_cast_pos _)]
    exact_mod_cast hlast.coefficient_le

theorem exists_yields_div (hb : b.isZero = false) (hbound : bound < coefficientLimit)
    (h : |a.value / b.value| ≤ bound) :
    ∃ quotient, (a.div b).Yields quotient ∧ |quotient.value| ≤ bound := by
  unfold div
  rw [hb, if_neg Bool.false_ne_true]
  split
  · refine ⟨zero, rfl, ?_⟩
    rw [value_zero, abs_zero]
    exact Nat.cast_nonneg bound
  · obtain ⟨r, hr, hle⟩ := exists_quotient? hb hbound h
    rw [hr]
    exact ⟨_, rfl, by rwa [abs_value_withSign]⟩

end Decimal

end DoubleEntry
