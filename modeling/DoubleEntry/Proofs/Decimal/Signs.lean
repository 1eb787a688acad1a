import DoubleEntry.Proofs.ExactValues

/-!
# Products with a sign

Signing a figure multiplies it by one or by minus one. Such a product always fits
and is never rounded, whatever the figure is, so signs cannot make a sum inexact.
-/

namespace DoubleEntry

namespace Decimal

theorem fit?_of_fits {m s : Nat} (hm : m < coefficientLimit) (hs : s ≤ 28) :
    fit? m s = some ⟨false, m, s, hm, hs⟩ := by
  have hfirst : ofParts? false (roundHalfEven m (tenTo 0)) (s - 0) =
      some ⟨false, m, s, hm, hs⟩ := by
    simp only [tenTo_zero, roundHalfEven_one, Nat.sub_zero, ofParts?]
    rw [dif_pos ⟨hm, hs⟩]
  rw [fit?, List.range_succ_eq_map, List.findSome?_cons, if_pos (by omega), hfirst]

theorem exactly_settle {overflow : Fault} {c : Decimal} {exact : Rat} (h : c.value = exact) :
    (settle overflow exact (some c)).Exactly c := by
  simp [settle, Calc.Exactly, h]

def IsSign (sign : Decimal) : Prop :=
  sign = one ∨ sign = minusOne

/-- The product has the digits of the figure; only its own sign is worked out. -/
theorem exists_exactly_mul {a sign : Decimal} (hsign : sign.IsSign) :
    ∃ product, (a.mul sign).Exactly product := by
  obtain ⟨hcoefficient, hscale, hnonzero⟩ :
      sign.coefficient = 1 ∧ sign.scale = 0 ∧ sign.isZero = false := by
    rcases hsign with rfl | rfl <;> exact ⟨rfl, rfl, rfl⟩
  cases hzero : a.isZero with
  | true =>
      refine ⟨zero, ?_⟩
      rw [mul, hzero, Bool.true_or, if_pos rfl]
      exact (Calc.exactly_pure_iff _ _).2 rfl
  | false =>
      let product : Decimal := { a with negative := a.negative != sign.negative }
      have hvalue : product.value = a.value * sign.value := by
        rcases hsign with rfl | rfl
        · have hsame : product = a := by simp [product, one, ofNat]
          rw [hsame, value_one, mul_one]
        · have hopposite : product = a.neg := by simp [product, neg, minusOne]
          rw [hopposite, value_neg, value_minusOne, mul_neg_one]
      have hfit := fit?_of_fits a.coefficient_lt a.scale_le
      have hshort : ¬ 47 < a.scale := by
        have := a.scale_le
        omega
      have hsigned : ∀ negative, withSign negative
          ⟨false, a.coefficient, a.scale, a.coefficient_lt, a.scale_le⟩ =
            { a with negative := negative } := by
        intro negative
        rw [isZero] at hzero
        simp [withSign, isZero, hzero]
      refine ⟨product, ?_⟩
      simp only [mul, hzero, hnonzero, hcoefficient, hscale, Nat.mul_one, Nat.add_zero, hfit,
        hshort, hsigned, Bool.or_self, Bool.false_eq_true, if_false, decide_false, Bool.and_false,
        Option.map_some, ite_self]
      exact exactly_settle hvalue

end Decimal

theorem PerCurrency.exists_exactly_build {f : Currency → Calc α}
    (h : ∀ c, ∃ x, (f c).Exactly x) : ∃ table, (PerCurrency.build f).Exactly table := by
  choose x hx using h
  refine ⟨⟨x .hive, x .hbd, x .usd, x .btc, x .sats, x .msats⟩, ?_⟩
  simp only [PerCurrency.build, Calc.exactly_bind_iff, Calc.exactly_pure_iff]
  exact ⟨_, hx _, _, hx _, _, hx _, _, hx _, _, hx _, _, hx _, rfl⟩

end DoubleEntry
