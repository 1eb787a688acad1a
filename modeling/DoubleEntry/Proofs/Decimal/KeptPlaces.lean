import DoubleEntry.Proofs.Calculations
import DoubleEntry.Proofs.Decimal.Accuracy

/-!
# The places that a result keeps

A difference or a product keeps as many places of the exact result as fit. How many
these are depends on the number alone and not on the coefficients and scales of the
operands, and a larger number keeps no more of them. So what is answered is a function
of the exact result: `kept`. It turns with the sign, and it is monotone, also across
the points where a place is given up.
-/

namespace DoubleEntry

/-! ## Rounding is monotone -/

theorem abs_sub_halfEven_le (x : Rat) : |x - halfEven x| ≤ 1 / 2 := by
  rcases halfEven_spec x with h | ⟨h, -⟩ <;> linarith

theorem halfEven_mono {x y : Rat} (h : x ≤ y) : halfEven x ≤ halfEven y := by
  have hx := abs_le.1 (abs_sub_halfEven_le x)
  have hy := abs_le.1 (abs_sub_halfEven_le y)
  by_contra hless
  have hapart : (halfEven y : Rat) + 1 ≤ halfEven x := by
    exact_mod_cast not_le.1 hless
  -- Both are half a unit away from one number between them, which then is `x` and `y`.
  have heq : x = y := by linarith [hx.1, hx.2, hy.1, hy.2]
  rw [heq] at hapart
  linarith

theorem le_halfEven {x : Rat} {n : Int} (h : (n : Rat) - 1 / 2 < x) : n ≤ halfEven x := by
  have hx := abs_le.1 (abs_sub_halfEven_le x)
  have hnear : (n : Rat) < halfEven x + 1 := by linarith [hx.2]
  have hlt : n < halfEven x + 1 := by exact_mod_cast hnear
  omega

theorem sub_half_le_of_le_halfEven {x : Rat} {n : Int} (h : n ≤ halfEven x) :
    (n : Rat) - 1 / 2 ≤ x := by
  have hx := abs_le.1 (abs_sub_halfEven_le x)
  have hcast : (n : Rat) ≤ halfEven x := by exact_mod_cast h
  linarith [hx.1]

theorem roundedAt_mono (places : Nat) {x y : Rat} (h : x ≤ y) :
    roundedAt places x ≤ roundedAt places y := by
  have hpos := tenTo_cast_pos places
  have hround : (halfEven (x * tenTo places) : Rat) ≤ halfEven (y * tenTo places) := by
    exact_mod_cast halfEven_mono (mul_le_mul_of_nonneg_right h hpos.le)
  exact div_le_div_of_nonneg_right hround hpos.le

theorem roundedAt_neg (places : Nat) (x : Rat) : roundedAt places (-x) = -roundedAt places x := by
  rw [roundedAt, neg_mul, halfEven_neg, Int.cast_neg, neg_div, roundedAt]

/-! ## How many places fit -/

/-- Rounded to so many places, the magnitude has a coefficient. -/
def Fits (places : Nat) (x : Rat) : Prop :=
  halfEven (|x| * tenTo places) < Decimal.coefficientLimit

instance (places : Nat) (x : Rat) : Decidable (Fits places x) :=
  inferInstanceAs (Decidable (_ < _))

theorem Fits.of_abs_le {places : Nat} {x y : Rat} (h : Fits places y) (hle : |x| ≤ |y|) :
    Fits places x :=
  (halfEven_mono (mul_le_mul_of_nonneg_right hle (tenTo_cast_pos places).le)).trans_lt h

theorem Fits.of_le {fewer places : Nat} {x : Rat} (h : Fits places x) (hle : fewer ≤ places) :
    Fits fewer x := by
  obtain ⟨more, rfl⟩ := Nat.exists_eq_add_of_le hle
  by_cases hmore : more = 0
  · subst hmore
    exact h
  · by_contra hlong
    have hfull := sub_half_le_of_le_halfEven (not_lt.1 hlong)
    have htwo : (2 : Rat) ≤ tenTo more := by
      exact_mod_cast two_le_tenTo (Nat.pos_of_ne_zero hmore)
    have hlimit : (1 : Rat) ≤ ((Decimal.coefficientLimit : Int) : Rat) := by norm_num
    have hlonger : ((Decimal.coefficientLimit : Int) : Rat) - 1 / 2 <
        |x| * tenTo (fewer + more) := by
      rw [tenTo_add, Nat.cast_mul, ← mul_assoc]
      nlinarith
    exact absurd h (not_lt.2 (le_halfEven hlonger))

/-- As many places as fit; a decimal has 28 at most. -/
def keptPlaces (x : Rat) : Nat :=
  Nat.findGreatest (fun places => Fits places x) 28

/-- What an operation answers when `x` is the exact result. -/
def kept (x : Rat) : Rat :=
  roundedAt (keptPlaces x) x

theorem keptPlaces_eq {places : Nat} {x : Rat} (hplaces : places ≤ 28) (hfits : Fits places x)
    (hmore : ∀ more, places < more → more ≤ 28 → ¬ Fits more x) : keptPlaces x = places := by
  rw [keptPlaces, Nat.findGreatest_eq_iff]
  exact ⟨hplaces, fun _ => hfits, fun _ hlt hle => hmore _ hlt hle⟩

theorem fits_keptPlaces {x : Rat} (h : Fits 0 x) : Fits (keptPlaces x) x :=
  Nat.findGreatest_spec (P := fun places => Fits places x) (Nat.zero_le 28) h

theorem keptPlaces_anti {x y : Rat} (h : |x| ≤ |y|) : keptPlaces y ≤ keptPlaces x :=
  Nat.findGreatest_mono (fun _ hfits => hfits.of_abs_le h) (Nat.le_refl 28)

theorem kept_of_eq {places : Nat} {x : Rat} {n : Int} (hplaces : places ≤ 28)
    (h : x * tenTo places = n) (hfits : Fits places x) : kept x = x := by
  have hle : places ≤ keptPlaces x := Nat.le_findGreatest hplaces hfits
  obtain ⟨more, hmore⟩ := Nat.exists_eq_add_of_le hle
  have hwhole : x * tenTo (keptPlaces x) = ((n * tenTo more : Int) : Rat) := by
    rw [hmore, tenTo_add, Nat.cast_mul, ← mul_assoc, h]
    push_cast
    rfl
  exact roundedAt_of_eq hwhole

theorem kept_eq_zero {x : Rat} (h : |x| * tenTo 28 < 1 / 2) : Fits 0 x ∧ kept x = 0 := by
  have hmagnitude : halfEven (|x| * tenTo 28) = 0 := by
    rw [halfEven_eq_iff, Int.cast_zero, sub_zero, abs_mul, abs_abs, Nat.abs_cast]
    exact Or.inl (by linarith)
  have hrounded : halfEven (x * tenTo 28) = 0 := by
    rw [halfEven_eq_iff, Int.cast_zero, sub_zero, abs_mul, Nat.abs_cast]
    exact Or.inl (by linarith)
  have hfits : Fits 28 x := by
    rw [Fits, hmagnitude]
    decide
  have hplaces : keptPlaces x = 28 :=
    keptPlaces_eq (Nat.le_refl 28) hfits fun more hlt hle => absurd hle (by omega)
  refine ⟨hfits.of_le (Nat.zero_le 28), ?_⟩
  rw [kept, hplaces, roundedAt, hrounded, Int.cast_zero, zero_div]

/-! ## Signs and order -/

theorem keptPlaces_neg (x : Rat) : keptPlaces (-x) = keptPlaces x :=
  Nat.le_antisymm (keptPlaces_anti (abs_neg x).ge) (keptPlaces_anti (abs_neg x).le)

theorem kept_neg (x : Rat) : kept (-x) = -kept x := by
  rw [kept, keptPlaces_neg, roundedAt_neg, kept]

theorem kept_nonneg {x : Rat} (h : 0 ≤ x) : 0 ≤ kept x :=
  roundedAt_nonneg _ h

/-- A coefficient stays below the limit, and with a place fewer a tenth of it does not reach it. -/
theorem kept_le_of_fewer {x y : Rat} (hx : 0 ≤ x) (hy : 0 ≤ y) (hfits : Fits 0 x)
    (hfewer : keptPlaces y < keptPlaces x) : kept x ≤ kept y := by
  obtain ⟨more, hmore⟩ := Nat.exists_eq_add_of_lt hfewer
  have hplaces := tenTo_cast_pos (keptPlaces y)
  have hkept := tenTo_cast_pos (keptPlaces x)
  -- One place more is too many for `y`.
  have hmost : keptPlaces x ≤ 28 := Nat.findGreatest_le 28
  have hlong : ¬ Fits (keptPlaces y + 1) y :=
    Nat.findGreatest_is_greatest (P := fun places => Fits places y) (Nat.lt_succ_self _) (by omega)
  have hfull := sub_half_le_of_le_halfEven (not_lt.1 hlong)
  rw [abs_of_nonneg hy, tenTo_succ, Nat.cast_mul, ← mul_assoc] at hfull
  have htenth : 7922816251426433759354395034 ≤ halfEven (y * tenTo (keptPlaces y)) := by
    apply le_halfEven
    push_cast at hfull ⊢
    linarith
  have hshort := fits_keptPlaces hfits
  rw [Fits, abs_of_nonneg hx] at hshort
  have hbelow : kept x * tenTo (keptPlaces x) ≤ 79228162514264337593543950335 := by
    rw [kept, roundedAt_mul]
    exact_mod_cast Int.le_of_lt_add_one hshort
  have habove : 79228162514264337593543950335 ≤ kept y * tenTo (keptPlaces y) * 10 := by
    rw [kept, roundedAt_mul]
    have hcast : (7922816251426433759354395034 : Rat) ≤ halfEven (y * tenTo (keptPlaces y)) := by
      exact_mod_cast htenth
    linarith
  have hten : (tenTo (keptPlaces y) * 10 : Rat) ≤ tenTo (keptPlaces x) := by
    have hle := tenTo_le_tenTo (show keptPlaces y + 1 ≤ keptPlaces x by omega)
    rw [tenTo_succ] at hle
    exact_mod_cast hle
  have hscaled := mul_le_mul_of_nonneg_left hten (kept_nonneg hy)
  have hall : kept x * tenTo (keptPlaces x) ≤ kept y * tenTo (keptPlaces x) := by linarith
  exact le_of_mul_le_mul_right hall hkept

theorem kept_mono_of_nonneg {x y : Rat} (hx : 0 ≤ x) (h : x ≤ y) (hfits : Fits 0 y) :
    kept x ≤ kept y := by
  have hy := hx.trans h
  have habs : |x| ≤ |y| := by rwa [abs_of_nonneg hx, abs_of_nonneg hy]
  rcases (keptPlaces_anti habs).lt_or_eq with hfewer | hsame
  · exact kept_le_of_fewer hx hy (hfits.of_abs_le habs) hfewer
  · rw [kept, kept, hsame]
    exact roundedAt_mono _ h

theorem kept_mono {x y : Rat} (h : x ≤ y) (hx : Fits 0 x) (hy : Fits 0 y) : kept x ≤ kept y := by
  by_cases hnonneg : 0 ≤ x
  · exact kept_mono_of_nonneg hnonneg h hy
  · have hless := not_le.1 hnonneg
    by_cases hpos : 0 ≤ y
    · have hbelow : 0 ≤ kept (-x) := kept_nonneg (by linarith)
      rw [kept_neg] at hbelow
      linarith [kept_nonneg hpos]
    · have hneg := not_le.1 hpos
      have hfits : Fits 0 (-x) := hx.of_abs_le (by rw [abs_neg])
      have hopposite := kept_mono_of_nonneg (by linarith) (neg_le_neg h) hfits
      rw [kept_neg, kept_neg] at hopposite
      linarith

end DoubleEntry
