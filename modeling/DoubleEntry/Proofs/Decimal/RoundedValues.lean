import DoubleEntry.Proofs.Decimal.Difference

/-!
# Values of rounded decimals

`halfEven` is rounding to the nearest whole number, said of numbers instead of
digits: a rounded quotient is the rounded number that it stands for, whatever
numerator and denominator are. So the announced rounding of a decimal can be read
off its value, and is off by half a unit of the last place at most.
-/

namespace DoubleEntry

/-! ## Whole numbers -/

/-- The whole number nearest to `x`; of two that are equally near the even one. -/
def halfEven (x : Rat) : Int :=
  if 1 < 2 * (x - ⌊x⌋) ∨ (2 * (x - ⌊x⌋) = 1 ∧ ⌊x⌋ % 2 = 1) then ⌊x⌋ + 1 else ⌊x⌋

theorem halfEven_spec (x : Rat) :
    2 * |x - halfEven x| < 1 ∨ (2 * |x - halfEven x| = 1 ∧ halfEven x % 2 = 0) := by
  have hfloor := Int.floor_le x
  have hnext := Int.lt_floor_add_one x
  unfold halfEven
  split
  · rename_i hup
    have habs : |x - (⌊x⌋ + 1 : Int)| = 1 - (x - ⌊x⌋) := by
      push_cast
      rw [abs_of_nonpos (by linarith)]
      ring
    rw [habs]
    rcases hup with hmore | ⟨htie, hodd⟩
    · exact Or.inl (by linarith)
    · exact Or.inr ⟨by linarith, by omega⟩
  · rename_i hdown
    rw [abs_of_nonneg (by linarith)]
    rcases lt_trichotomy (2 * (x - ⌊x⌋)) 1 with hless | htie | hmore
    · exact Or.inl hless
    · have heven : ¬ ⌊x⌋ % 2 = 1 := fun hodd => hdown (Or.inr ⟨htie, hodd⟩)
      exact Or.inr ⟨htie, by omega⟩
    · exact absurd (Or.inl hmore) hdown

/-- Nearness and evenness leave one whole number only. -/
theorem halfEven_eq_iff (x : Rat) (n : Int) :
    halfEven x = n ↔ 2 * |x - n| < 1 ∨ (2 * |x - n| = 1 ∧ n % 2 = 0) := by
  constructor
  · rintro rfl
    exact halfEven_spec x
  · intro hn
    have hspec := halfEven_spec x
    generalize halfEven x = k at hspec ⊢
    have hapart : |(k : Rat) - n| ≤ |x - k| + |x - n| := by
      have htriangle := abs_sub_le (k : Rat) x n
      rwa [abs_sub_comm (k : Rat) x] at htriangle
    have hcast : |(k : Rat) - n| = ((|k - n| : Int) : Rat) := by push_cast; rfl
    have hone : |k - n| ≤ 1 := by
      have hle : |(k : Rat) - n| ≤ 1 := by
        rcases hspec with h | ⟨h, -⟩ <;> rcases hn with h' | ⟨h', -⟩ <;> linarith
      rw [hcast] at hle
      exact_mod_cast hle
    by_contra hne
    have hexact : (1 : Rat) ≤ |(k : Rat) - n| := by
      have hpos : 1 ≤ |k - n| := Int.one_le_abs (sub_ne_zero.2 hne)
      rw [hcast]
      exact_mod_cast hpos
    -- One apart, so both are ties, and one of two neighbours is odd.
    rcases hspec with h | ⟨h, hk⟩
    · rcases hn with h' | ⟨h', -⟩ <;> linarith
    · rcases hn with h' | ⟨-, hn⟩
      · linarith
      · rw [abs_le] at hone
        omega

theorem halfEven_intCast (n : Int) : halfEven n = n := by
  rw [halfEven_eq_iff]
  simp

theorem halfEven_neg (x : Rat) : halfEven (-x) = -halfEven x := by
  have hspec := halfEven_spec x
  have habs : |-x - (-halfEven x : Int)| = |x - halfEven x| := by
    push_cast
    rw [← abs_neg]
    ring_nf
  rw [halfEven_eq_iff, habs]
  rcases hspec with h | ⟨h, heven⟩
  · exact Or.inl h
  · exact Or.inr ⟨h, by omega⟩

theorem halfEven_nonneg {x : Rat} (h : 0 ≤ x) : 0 ≤ halfEven x := by
  have hfloor : 0 ≤ ⌊x⌋ := Int.floor_nonneg.2 h
  unfold halfEven
  split <;> omega

theorem halfEven_natCast_div (m d : Nat) (hd : 0 < d) :
    halfEven ((m : Rat) / d) = roundHalfEven m d := by
  have hpos : (0 : Rat) < d := Nat.cast_pos.2 hd
  have hfloor : ⌊(m : Rat) / d⌋ = ((m / d : Nat) : Int) := by
    rw [← Nat.floor_div_eq_div (K := Rat), Int.natCast_floor_eq_floor (by positivity)]
  have hrest : (m : Rat) / d - ((m / d : Nat) : Int) = (m % d : Nat) / d := by
    have hsplit : (m : Rat) = d * (m / d : Nat) + (m % d : Nat) := by
      exact_mod_cast (Nat.div_add_mod m d).symm
    rw [Int.cast_natCast, eq_div_iff (ne_of_gt hpos), sub_mul, div_mul_cancel₀ _ (ne_of_gt hpos)]
    linarith
  have hmore : 1 < 2 * (((m % d : Nat) : Rat) / d) ↔ d < 2 * (m % d) := by
    rw [← mul_div_assoc, one_lt_div hpos]
    exact_mod_cast Iff.rfl
  have htie : 2 * (((m % d : Nat) : Rat) / d) = 1 ↔ 2 * (m % d) = d := by
    rw [← mul_div_assoc, div_eq_one_iff_eq (ne_of_gt hpos)]
    exact_mod_cast Iff.rfl
  have hodd : ((m / d : Nat) : Int) % 2 = 1 ↔ m / d % 2 = 1 := by omega
  unfold halfEven roundHalfEven
  simp only [hfloor, hrest, hmore, htie, hodd]
  split <;> rfl

/-! ## Places -/

theorem tenTo_add (m n : Nat) : tenTo (m + n) = tenTo m * tenTo n :=
  Nat.pow_add 10 m n

theorem tenTo_cast_pos (places : Nat) : (0 : Rat) < tenTo places :=
  Nat.cast_pos.2 (tenTo_pos places)

def roundedAt (places : Nat) (x : Rat) : Rat :=
  halfEven (x * tenTo places) / tenTo places

theorem roundedAt_mul (places : Nat) (x : Rat) :
    roundedAt places x * tenTo places = halfEven (x * tenTo places) :=
  div_mul_cancel₀ _ (ne_of_gt (tenTo_cast_pos places))

theorem roundedAt_of_eq {places : Nat} {x : Rat} {n : Int} (h : x * tenTo places = n) :
    roundedAt places x = x := by
  rw [roundedAt, h, halfEven_intCast, ← h]
  exact mul_div_cancel_right₀ x (ne_of_gt (tenTo_cast_pos places))

theorem roundedAt_nonneg (places : Nat) {x : Rat} (h : 0 ≤ x) : 0 ≤ roundedAt places x := by
  have hscaled : 0 ≤ x * tenTo places := mul_nonneg h (tenTo_cast_pos places).le
  have hround : (0 : Rat) ≤ halfEven (x * tenTo places) := Int.cast_nonneg (halfEven_nonneg hscaled)
  exact div_nonneg hround (tenTo_cast_pos places).le

/-- Half a unit of the last place. -/
theorem abs_sub_roundedAt_le (places : Nat) (x : Rat) :
    |x - roundedAt places x| * tenTo places ≤ 1 / 2 := by
  have hpos := tenTo_cast_pos places
  have hscaled : |x - roundedAt places x| * tenTo places =
      |x * tenTo places - halfEven (x * tenTo places)| := by
    rw [← roundedAt_mul, ← sub_mul, abs_mul, abs_of_pos hpos]
  rw [hscaled]
  rcases halfEven_spec (x * tenTo places) with h | ⟨h, -⟩ <;> linarith

/-! ## Decimals -/

namespace Decimal

theorem value_eq_div (a : Decimal) : a.value = a.signed / tenTo a.scale :=
  Rat.mkRat_eq_div _ _

theorem value_mul_tenTo {a : Decimal} {places : Nat} (h : a.scale ≤ places) :
    a.value * tenTo places = ((a.signed * tenTo (places - a.scale) : Int) : Rat) := by
  obtain ⟨more, rfl⟩ := Nat.exists_eq_add_of_le h
  have hpos := tenTo_cast_pos a.scale
  rw [value_eq_div, tenTo_add, Nat.add_sub_cancel_left]
  push_cast
  field_simp

/-- The sign that a zero does not get is worth nothing. -/
theorem value_withSign (negative : Bool) (a : Decimal) :
    (a.withSign negative).value = ({ a with negative := negative } : Decimal).value := by
  cases hzero : a.isZero with
  | true =>
      have hother : ({ a with negative := negative } : Decimal).isZero = true := hzero
      rw [value_withSign_of_isZero _ hzero, value_of_isZero hother]
  | false => simp [withSign, hzero]

theorem value_roundTo (places : Nat) (a : Decimal) :
    (a.roundTo places).value = roundedAt places a.value := by
  by_cases h : a.scale ≤ places
  · rw [roundTo, dif_pos h, roundedAt_of_eq (value_mul_tenTo h)]
  · obtain ⟨dropped, hscale⟩ := Nat.exists_eq_add_of_le (not_le.1 h).le
    have hdropped : a.scale - places = dropped := by omega
    have hscaled : a.value * tenTo places = (a.signed : Rat) / tenTo dropped := by
      have hplaces := tenTo_cast_pos places
      have hrest := tenTo_cast_pos dropped
      rw [value_eq_div, hscale, tenTo_add]
      push_cast
      field_simp
    have hround : halfEven ((a.signed : Rat) / tenTo dropped) =
        if a.negative then -(roundHalfEven a.coefficient (tenTo dropped) : Int)
        else roundHalfEven a.coefficient (tenTo dropped) := by
      have hmagnitude := halfEven_natCast_div a.coefficient _ (tenTo_pos dropped)
      unfold signed
      split
      · rw [Int.cast_neg, neg_div, halfEven_neg, Int.cast_natCast, hmagnitude]
      · rw [Int.cast_natCast, hmagnitude]
    rw [roundedAt, hscaled, hround]
    unfold roundTo
    rw [dif_neg h]
    dsimp only
    rw [apply_ite value, value_withSign, ite_self, value_eq_div, signed]
    simp only [hdropped]

end Decimal

end DoubleEntry
