import DoubleEntry.Proofs.Decimal.KeptPlaces

/-!
# What operations answer

A difference and a product are settled by their exact result: they overflow when its
whole part does not fit, and otherwise answer what is kept of it, with the flag that
says whether anything was lost. So operands of one value answer alike, however they are
written down, exact results that are opposite are answered by opposite numbers, and a
larger exact result has no smaller answer.
-/

namespace DoubleEntry

namespace Decimal

/-! ## Fitted magnitudes -/

/-- Giving up digits is rounding the number to fewer places. -/
theorem fits_sub_iff {m s dropped : Nat} (h : dropped ≤ s) :
    Fits (s - dropped) ((m : Rat) / tenTo s) ↔
      roundHalfEven m (tenTo dropped) < coefficientLimit := by
  obtain ⟨places, rfl⟩ := Nat.exists_eq_add_of_le h
  have hdropped := tenTo_cast_pos dropped
  have hplaces := tenTo_cast_pos places
  have hmagnitude : (0 : Rat) ≤ m / tenTo (dropped + places) := by positivity
  have hscaled : (m : Rat) / tenTo (dropped + places) * tenTo places = m / tenTo dropped := by
    rw [tenTo_add]
    push_cast
    field_simp
  rw [Nat.add_sub_cancel_left, Fits, abs_of_nonneg hmagnitude, hscaled,
    halfEven_natCast_div m _ (tenTo_pos dropped)]
  exact_mod_cast Iff.rfl

theorem fits_zero_iff (m s : Nat) :
    Fits 0 ((m : Rat) / tenTo s) ↔ roundHalfEven m (tenTo s) < coefficientLimit := by
  rw [← fits_sub_iff (Nat.le_refl s), Nat.sub_self]

theorem not_fits_of_fit?_eq_none {m s : Nat} (h : fit? m s = none) :
    ¬ Fits 0 ((m : Rat) / tenTo s) := by
  rw [fits_zero_iff]
  intro hshort
  have hlast := List.findSome?_eq_none_iff.1 h s (List.mem_range.2 (Nat.lt_succ_self s))
  rw [Nat.sub_self, if_pos (Nat.zero_le 28), ofParts?, dif_pos ⟨hshort, Nat.zero_le 28⟩] at hlast
  cases hlast

/-- A fitted magnitude is what is kept of the exact one. -/
theorem value_of_fit? {m s : Nat} {r : Decimal} (h : fit? m s = some r) :
    Fits 0 ((m : Rat) / tenTo s) ∧ r.value = kept (m / tenTo s) := by
  obtain ⟨dropped, hdropped, hnegative, hcoefficient, hscale, hleast⟩ := least_of_fit? h
  have hfits : Fits r.scale ((m : Rat) / tenTo s) := by
    rw [hscale, fits_sub_iff hdropped, ← hcoefficient]
    exact r.coefficient_lt
  refine ⟨hfits.of_le (Nat.zero_le _), ?_⟩
  cases dropped with
  | zero =>
      -- Nothing was given up, so the magnitude is a decimal as it stands.
      rw [tenTo_zero, roundHalfEven_one] at hcoefficient
      rw [Nat.sub_zero] at hscale
      have hvalue : r.value = m / tenTo s := by
        rw [value_eq_div, signed, hnegative, if_neg Bool.false_ne_true, Int.cast_natCast,
          hcoefficient, hscale]
      have hwhole := value_mul_tenTo (Nat.le_refl r.scale)
      rw [hvalue] at hwhole
      rw [kept_of_eq r.scale_le hwhole hfits, hvalue]
  | succ fewer =>
      have hplaces : keptPlaces ((m : Rat) / tenTo s) = r.scale := by
        apply keptPlaces_eq r.scale_le hfits
        intro more hlt hle hmore
        have hone : Fits (s - fewer) ((m : Rat) / tenTo s) := hmore.of_le (by omega)
        rw [fits_sub_iff (by omega)] at hone
        rcases hleast fewer (Nat.lt_succ_self fewer) with hlong | hfull
        · omega
        · omega
      have hscaled : (m : Rat) / tenTo s * tenTo r.scale = m / tenTo (fewer + 1) := by
        have hfewer := tenTo_cast_pos (fewer + 1)
        have hkept := tenTo_cast_pos r.scale
        rw [show s = fewer + 1 + r.scale by omega, tenTo_add]
        push_cast
        field_simp
      rw [kept, hplaces, roundedAt, hscaled, halfEven_natCast_div m _ (tenTo_pos _),
        value_eq_div, signed, hnegative, if_neg Bool.false_ne_true, hcoefficient]

/-! ## Settled runs -/

/-- The run is an overflow when `exact` does not fit, and else answers what is kept of it. -/
inductive Settles (overflow : Fault) (exact : Rat) : Calc Decimal → Prop where
  | fault (h : ¬ Fits 0 exact) : Settles overflow exact (.fault overflow)
  | done {c : Decimal} (hfits : Fits 0 exact) (hvalue : c.value = kept exact) :
    Settles overflow exact (.done c (c.value != exact))

theorem settles_pure {overflow : Fault} {exact : Rat} {c : Decimal} (h : c.value = exact) :
    Settles overflow exact (pure c) := by
  subst h
  have hfits : Fits c.scale c.value := by
    rw [Fits, abs_value, div_mul_cancel₀ _ (tenTo_cast_pos c.scale).ne']
    have hwhole := halfEven_intCast c.coefficient
    rw [Int.cast_natCast] at hwhole
    rw [hwhole]
    exact_mod_cast c.coefficient_lt
  have hkept := kept_of_eq c.scale_le (value_mul_tenTo (Nat.le_refl c.scale)) hfits
  have hflag : (c.value != c.value) = false := bne_self_eq_false _
  rw [Calc.pure_eq_done, ← hflag]
  exact .done (hfits.of_le (Nat.zero_le _)) hkept.symm

theorem settles_fit? {overflow : Fault} {exact : Rat} {m s : Nat} {negative : Bool}
    {sign : Decimal → Decimal}
    (hexact : exact = (if negative then -1 else 1) * (m / tenTo s))
    (hsign : ∀ r, r.negative = false →
      (sign r).value = (if negative then -1 else 1) * r.value) :
    Settles overflow exact (settle overflow exact ((fit? m s).map sign)) := by
  have habs : |exact| = |(m : Rat) / tenTo s| := by
    rw [hexact, abs_mul]
    cases negative <;> simp
  cases hfit : fit? m s with
  | none => exact .fault fun h => not_fits_of_fit?_eq_none hfit (h.of_abs_le habs.ge)
  | some r =>
      obtain ⟨hfits, hvalue⟩ := value_of_fit? hfit
      obtain ⟨-, -, hnegative, -⟩ := exists_of_fit? hfit
      refine .done (hfits.of_abs_le habs.le) ?_
      rw [hsign r hnegative, hvalue, hexact]
      cases negative <;> simp [kept_neg]

section Answers

variable {overflow : Fault} {exact : Rat} {run run' : Calc Decimal}

theorem Settles.kept_of_yields (h : Settles overflow exact run) {c : Decimal}
    (hc : run.Yields c) : Fits 0 exact ∧ c.value = kept exact := by
  cases h with
  | fault hlong => cases hc
  | done hfits hvalue =>
      cases hc
      exact ⟨hfits, hvalue⟩

/-- Answers to one exact result are of one value. -/
theorem Settles.alike (h : Settles overflow exact run) (h' : Settles overflow exact run') :
    run.Alike (fun c d => d.value = c.value) run' := by
  cases h with
  | fault hlong =>
      cases h' with
      | fault _ => exact .fault overflow
      | done hfits _ => exact absurd hfits hlong
  | done hfits hvalue =>
      cases h' with
      | fault hlong => exact absurd hfits hlong
      | done _ hvalue' =>
          have hsame := hvalue'.trans hvalue.symm
          rw [hsame]
          exact .done _ hsame

theorem Settles.opposite (h : Settles overflow exact run) (h' : Settles overflow (-exact) run') :
    run.Alike (fun c d => d.value = -c.value) run' := by
  have hfits_iff : Fits 0 (-exact) ↔ Fits 0 exact :=
    ⟨fun h => h.of_abs_le (abs_neg exact).ge, fun h => h.of_abs_le (abs_neg exact).le⟩
  cases h with
  | fault hlong =>
      cases h' with
      | fault _ => exact .fault overflow
      | done hfits _ => exact absurd (hfits_iff.1 hfits) hlong
  | @done c hfits hvalue =>
      cases h' with
      | fault hlong => exact absurd (hfits_iff.2 hfits) hlong
      | @done d _ hvalue' =>
          have hopposite : d.value = -c.value := by rw [hvalue', kept_neg, hvalue]
          have hflag : (d.value != -exact) = (c.value != exact) := by
            rw [hopposite, Bool.eq_iff_iff, bne_iff_ne, bne_iff_ne]
            exact neg_inj.not
          rw [hflag]
          exact .done _ hopposite

theorem Settles.mono {exact' : Rat} (h : Settles overflow exact run)
    (h' : Settles overflow exact' run') (hle : exact ≤ exact') {c d : Decimal}
    (hc : run.Yields c) (hd : run'.Yields d) : c ≤ d := by
  obtain ⟨hfits, hvalue⟩ := h.kept_of_yields hc
  obtain ⟨hfits', hvalue'⟩ := h'.kept_of_yields hd
  rw [le_iff, hvalue, hvalue']
  exact kept_mono hle hfits hfits'

end Answers

/-! ## The operations -/

theorem settles_alignedSum (overflow : Fault) (a b : Decimal) :
    Settles overflow (a.value + b.value) (alignedSum overflow a b) := by
  unfold alignedSum
  dsimp only
  generalize hscale : max a.scale b.scale = scale
  generalize htotal : a.signed * (tenTo (scale - a.scale) : Int) +
    b.signed * (tenTo (scale - b.scale) : Int) = total
  have hvalue : (a.value + b.value) * tenTo scale = total := by
    rw [add_mul, value_mul_tenTo (by omega), value_mul_tenTo (by omega), ← htotal]
    push_cast
    rfl
  have hmagnitude : (total : Rat) =
      (if decide (total < 0) then -1 else 1) * (total.natAbs : Rat) := by
    rw [Nat.cast_natAbs, Int.cast_abs]
    by_cases hnegative : total < 0
    · have hcast : (total : Rat) < 0 := by exact_mod_cast hnegative
      simp [hnegative, abs_of_neg hcast]
    · have hcast : (0 : Rat) ≤ total := by exact_mod_cast not_lt.1 hnegative
      simp [hnegative, abs_of_nonneg hcast]
  refine settles_fit? ?_ fun r hr => value_of_signed hr true _
  rw [eq_div_of_mul_eq (tenTo_cast_pos scale).ne' hvalue, hmagnitude, mul_div_assoc]

theorem settles_sub (a b : Decimal) :
    Settles .subtractionOverflow (a.value - b.value) (a.sub b) := by
  unfold sub
  split
  · rename_i ha
    apply settles_pure
    rw [value_of_isZero ha, zero_sub]
    split
    · rename_i hb
      rw [value_of_isZero hb, neg_zero]
    · exact value_neg b
  · split
    · rename_i hb
      apply settles_pure
      rw [value_of_isZero hb, sub_zero]
    · rw [sub_eq_add_neg, ← value_neg]
      exact settles_alignedSum _ a b.neg

theorem settles_mul (a b : Decimal) :
    Settles .multiplicationOverflow (a.value * b.value) (a.mul b) := by
  unfold mul
  split
  · rename_i hzero
    apply settles_pure
    rcases Bool.or_eq_true_iff.1 hzero with ha | hb
    · rw [value_zero, value_of_isZero ha, zero_mul]
    · rw [value_zero, value_of_isZero hb, mul_zero]
  · dsimp only
    split
    · rename_i hshort
      rw [Bool.and_eq_true, decide_eq_true_iff] at hshort
      obtain ⟨hfits, hkept⟩ := kept_eq_zero (abs_mul_lt_of_short hshort.1 hshort.2)
      exact .done hfits (value_zero.trans hkept.symm)
    · refine settles_fit? (value_mul_value a b) fun r hr => ?_
      exact value_of_signed hr _ _

end Decimal

end DoubleEntry
