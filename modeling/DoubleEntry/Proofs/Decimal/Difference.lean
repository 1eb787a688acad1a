import DoubleEntry.Proofs.ExactValues

/-!
# Differences both ways round

Exchanging the operands of a difference turns its sign and changes nothing else:
the exact results are opposite, so they are fitted alike and overflow alike. This
holds of rounded differences too.
-/

namespace DoubleEntry

@[simp] theorem roundHalfEven_zero (d : Nat) : roundHalfEven 0 d = 0 := by
  simp [roundHalfEven]

namespace Decimal

/-! ## Signs of values -/

theorem value_abs (a : Decimal) : a.abs.value = |a.value| := by
  have hpos : 0 ≤ a.abs.value := by
    simp only [value, abs, signed, Bool.false_eq_true, if_false]
    rw [Rat.mkRat_eq_div]
    positivity
  cases hneg : a.negative with
  | false =>
      have heq : a.abs = a := by
        cases a
        simp_all [abs]
      rw [heq] at hpos ⊢
      exact (abs_of_nonneg hpos).symm
  | true =>
      have heq : a.abs.value = -a.value := by
        simp [value, abs, signed, hneg, Rat.neg_mkRat]
      rw [heq] at hpos ⊢
      exact (abs_of_nonpos (by linarith)).symm

theorem value_withSign_of_isZero (negative : Bool) {a : Decimal} (h : a.isZero = true) :
    (a.withSign negative).value = 0 :=
  value_of_isZero h

/-- The opposite sign makes the opposite value; on a zero both signs do. -/
theorem value_withSign_not (negative : Bool) (a : Decimal) :
    (a.withSign (!negative)).value = -(a.withSign negative).value := by
  cases hzero : a.isZero with
  | true => rw [value_withSign_of_isZero _ hzero, value_withSign_of_isZero _ hzero, neg_zero]
  | false =>
      have h : a.withSign (!negative) = (a.withSign negative).neg := by
        simp [withSign, neg, hzero]
      rw [h, value_neg]

/-! ## Fitting -/

/-- A fitted magnitude is the quotient by some power of ten, rounded once. -/
theorem exists_of_fit? {m s : Nat} {r : Decimal} (h : fit? m s = some r) :
    ∃ dropped ≤ s, r.negative = false ∧ r.coefficient = roundHalfEven m (tenTo dropped) ∧
      r.scale = s - dropped := by
  obtain ⟨dropped, hmem, hsome⟩ := List.exists_of_findSome?_eq_some h
  split at hsome
  · unfold ofParts? at hsome
    split at hsome
    · obtain rfl := Option.some.inj hsome
      have hle := List.mem_range.1 hmem
      exact ⟨dropped, by omega, rfl, rfl, rfl⟩
    · cases hsome
  · cases hsome

theorem isZero_of_fit?_zero {s : Nat} {r : Decimal} (h : fit? 0 s = some r) : r.isZero = true := by
  obtain ⟨dropped, -, -, hcoefficient, -⟩ := exists_of_fit? h
  rw [isZero, hcoefficient, roundHalfEven_zero]
  rfl

/-! ## The two differences -/

private theorem alignedSum_neg_swap {overflow : Fault} {a b d : Decimal}
    (h : (alignedSum overflow a b.neg).Yields d) :
    ∃ d', (alignedSum overflow b a.neg).Yields d' ∧ d'.value = -d.value := by
  have hsigned : ∀ x : Decimal, x.neg.signed = -x.signed := by
    intro x
    cases hx : x.negative <;> simp [signed, neg, hx]
  unfold alignedSum at h ⊢
  simp only [hsigned, show ∀ x : Decimal, x.neg.scale = x.scale from fun _ => rfl] at h ⊢
  rw [max_comm b.scale a.scale]
  generalize hscale : max a.scale b.scale = scale at h ⊢
  generalize htotal : a.signed * (tenTo (scale - a.scale) : Int) +
    -b.signed * (tenTo (scale - b.scale) : Int) = total at h
  have hopposite : b.signed * (tenTo (scale - b.scale) : Int) +
      -a.signed * (tenTo (scale - a.scale) : Int) = -total := by
    rw [← htotal]
    ring
  rw [hopposite, Int.natAbs_neg]
  cases hfit : fit? total.natAbs scale with
  | none =>
      rw [hfit] at h
      cases h
  | some r =>
      rw [hfit] at h
      obtain rfl : r.withSign (decide (total < 0)) = d := Except.ok.inj h
      refine ⟨_, rfl, ?_⟩
      by_cases hzero : total = 0
      · subst hzero
        have hr := isZero_of_fit?_zero hfit
        rw [value_withSign_of_isZero _ hr, value_withSign_of_isZero _ hr, neg_zero]
      · have hflip : decide (-total < 0) = !decide (total < 0) := by
          rw [← decide_not, decide_eq_decide]
          omega
        rw [hflip, value_withSign_not]

/-- A difference the other way round is the opposite, rounded or not. -/
theorem yields_sub_swap {a b d : Decimal} (h : (a.sub b).Yields d) :
    ∃ d', (b.sub a).Yields d' ∧ d'.value = -d.value := by
  unfold sub at h ⊢
  cases ha : a.isZero <;> cases hb : b.isZero <;> simp only [ha, hb, if_true, if_false,
    Bool.false_eq_true, Calc.yields_pure_iff] at h ⊢
  · exact alignedSum_neg_swap h
  · subst h
    exact ⟨_, rfl, value_neg a⟩
  · subst h
    refine ⟨_, rfl, ?_⟩
    rw [value_neg]
    ring
  · subst h
    exact ⟨_, rfl, by rw [value_of_isZero ha, value_of_isZero hb, neg_zero]⟩

end Decimal

end DoubleEntry
