import DoubleEntry.Proofs.Decimal.Answers

/-!
# The closeness of two decimals

The test rounds twice, a difference and a product, and reads no more of either than its
value. So it does not matter which decimal comes first or how either is written down,
and a larger tolerance never refuses what a smaller one accepted, as long as both tests
end. Where nothing is rounded the test is the inequality that it stands for.
-/

namespace DoubleEntry

namespace Decimal

theorem value_larger (a b : Decimal) : (a.larger b).value = max a.value b.value := by
  unfold larger
  split
  · rename_i h
    exact (max_eq_right ((lt_iff a b).1 h).le).symm
  · rename_i h
    exact (max_eq_left (not_lt.1 fun hless => h ((lt_iff a b).2 hless))).symm

theorem value_larger_abs (a b : Decimal) :
    (a.abs.larger b.abs).value = max |a.value| |b.value| := by
  rw [value_larger, value_abs, value_abs]

theorem abs_le_larger_iff (difference scaled absolute : Decimal) :
    difference.abs ≤ scaled.larger absolute ↔
      |difference.value| ≤ max scaled.value absolute.value := by
  rw [le_iff, value_abs, value_larger]

/-- Which decimal comes first makes no difference, to faults and rounding either. -/
theorem isClose_comm (a b relative absolute : Decimal) :
    a.isClose b relative absolute = b.isClose a relative absolute := by
  have hequal : (a == b) = (b == a) := by
    rw [Bool.eq_iff_iff, beq_iff, beq_iff]
    exact eq_comm
  have hdifference : (a.sub b).Alike (fun c d => d.value = -c.value) (b.sub a) := by
    have hsettles := settles_sub b a
    rw [← neg_sub] at hsettles
    exact (settles_sub a b).opposite hsettles
  have hscaled : (relative.mul (a.abs.larger b.abs)).Alike (fun c d => d.value = c.value)
      (relative.mul (b.abs.larger a.abs)) := by
    have hsettles := settles_mul relative (b.abs.larger a.abs)
    rw [value_larger_abs, max_comm, ← value_larger_abs] at hsettles
    exact (settles_mul relative (a.abs.larger b.abs)).alike hsettles
  unfold isClose
  rw [hequal]
  split
  · rfl
  · apply Calc.Alike.eq
    refine hdifference.bind fun c d hcd => hscaled.bind fun p q hpq => Calc.alike_pure ?_
    rw [decide_eq_decide, abs_le_larger_iff, abs_le_larger_iff, hcd, abs_neg, hpq]

variable {a b relative relative' absolute absolute' : Decimal}

/-- Two tests of decimals that differ share the difference; the larger share is no smaller. -/
theorem isClose_mono (hrelative : relative ≤ relative') (habsolute : absolute ≤ absolute')
    (h : (a.isClose b relative absolute).Yields true) {close : Bool}
    (h' : (a.isClose b relative' absolute').Yields close) : close = true := by
  unfold isClose at h h'
  split at h
  · rename_i hequal
    rw [if_pos hequal] at h'
    exact ((Calc.yields_pure_iff _ _).1 h').symm
  · rename_i hapart
    rw [if_neg hapart] at h'
    simp only [Calc.yields_bind_iff, Calc.yields_pure_iff] at h h'
    obtain ⟨difference, hdifference, scaled, hscaled, hclose⟩ := h
    obtain ⟨difference', hdifference', scaled', hscaled', rfl⟩ := h'
    obtain rfl := hdifference.unique hdifference'
    have hshare : relative.value * (a.abs.larger b.abs).value ≤
        relative'.value * (a.abs.larger b.abs).value := by
      apply mul_le_mul_of_nonneg_right ((le_iff _ _).1 hrelative)
      rw [value_larger_abs]
      exact le_max_of_le_left (abs_nonneg _)
    have hle := (settles_mul _ _).mono (settles_mul _ _) hshare hscaled hscaled'
    rw [decide_eq_true_iff, abs_le_larger_iff] at hclose ⊢
    exact hclose.trans (max_le_max ((le_iff _ _).1 hle) ((le_iff _ _).1 habsolute))

/-- The inequality for which a test stands. -/
def IsNear (a b relative absolute : Decimal) : Prop :=
  a.value = b.value ∨
    |a.value - b.value| ≤ max (relative.value * max |a.value| |b.value|) absolute.value

theorem yields_isClose_of_exactly {difference scaled : Decimal}
    (hdifference : (a.sub b).Exactly difference)
    (hscaled : (relative.mul (a.abs.larger b.abs)).Exactly scaled) (absolute : Decimal) :
    ∃ close, (a.isClose b relative absolute).Exactly close ∧
      (close = true ↔ a.IsNear b relative absolute) := by
  unfold isClose IsNear
  split
  · rename_i hequal
    exact ⟨true, (Calc.exactly_pure_iff _ _).2 rfl, by simp [(beq_iff a b).1 hequal]⟩
  · rename_i hapart
    simp only [Calc.exactly_bind_iff, Calc.exactly_pure_iff]
    refine ⟨_, ⟨difference, hdifference, scaled, hscaled, rfl⟩, ?_⟩
    have hne : a.value ≠ b.value := fun heq => hapart ((beq_iff a b).2 heq)
    rw [decide_eq_true_iff, abs_le_larger_iff, value_of_sub hdifference, value_of_mul hscaled,
      value_larger_abs]
    exact ⟨Or.inr, fun h => h.resolve_left hne⟩

/--
The closeness of two decimals is tested alike from either side, answers, faults and rounding
included. Where two tests end, the one with tolerances that are not smaller accepts what the other
accepts. A test whose difference and product are exact ends, and accepts what is equal or apart by
at most the larger of the two tolerances.
-/
theorem isClose_tests_nearness (a b : Decimal) :
    (∀ relative absolute, a.isClose b relative absolute = b.isClose a relative absolute) ∧
    (∀ relative relative' absolute absolute' close close', relative ≤ relative' →
      absolute ≤ absolute' → (a.isClose b relative absolute).Yields close →
      (a.isClose b relative' absolute').Yields close' → close = true → close' = true) ∧
    ∀ relative absolute difference scaled, (a.sub b).Exactly difference →
      (relative.mul (a.abs.larger b.abs)).Exactly scaled →
      ∃ close, (a.isClose b relative absolute).Exactly close ∧
        (close = true ↔ a.IsNear b relative absolute) := by
  refine ⟨isClose_comm a b, ?_, ?_⟩
  · rintro relative relative' absolute absolute' close close' hrelative habsolute h h' rfl
    exact isClose_mono hrelative habsolute h h'
  · intro relative absolute difference scaled hdifference hscaled
    exact yields_isClose_of_exactly hdifference hscaled absolute

/-- The largest decimal and one half: the difference is a tie and is rounded. -/
theorem isClose_tests_nearness_at_limit :
    ∃ most half : Decimal, most.value = 79228162514264337593543950335 ∧ half.value = 1 / 2 ∧
      (most.sub half).isExact = false ∧
      half.isClose most .one .zero = most.isClose half .one .zero ∧
      (most.isClose half .one .zero).Yields true ∧ (most.isClose half .one .ten).Yields true ∧
      ∃ close, (half.isClose one (.unitAt 2) .zero).Exactly close ∧
        (close = true ↔ half.IsNear one (.unitAt 2) .zero) := by
  let most : Decimal := .ofNat 79228162514264337593543950335
  let half : Decimal := ⟨false, 5, 1, by decide, by decide⟩
  have hmost : most.value = 79228162514264337593543950335 := by decide +kernel
  have hhalf : half.value = 1 / 2 := by decide +kernel
  have hone : one ≤ one := le_refl one.value
  have hzero : zero ≤ ten := by decide +kernel
  have hclose : most.isClose half .one .zero = .done true true := by decide +kernel
  have hends : ∃ close, (most.isClose half .one .ten).Yields close :=
    exists_yields_isClose (by rw [hmost]; norm_num) (by rw [hhalf]; norm_num)
      (by rw [value_one, abs_one])
  have hdifference : (half.sub one).isExact = true := by decide +kernel
  have hscaled : ((Decimal.unitAt 2).mul (half.abs.larger one.abs)).isExact = true := by
    decide +kernel
  obtain ⟨hcomm, hmono, -⟩ := isClose_tests_nearness most half
  obtain ⟨-, -, hexact⟩ := isClose_tests_nearness half one
  obtain ⟨close, hcloser⟩ := hends
  obtain ⟨difference, hdifference⟩ := Calc.exists_exactly hdifference
  obtain ⟨scaled, hscaled⟩ := Calc.exists_exactly hscaled
  have hyields : (most.isClose half .one .zero).Yields true := by rw [hclose]; rfl
  have hlarger := hmono _ _ _ _ _ _ hone hzero hyields hcloser rfl
  rw [hlarger] at hcloser
  exact ⟨most, half, hmost, hhalf, by decide +kernel, (hcomm _ _).symm, hyields, hcloser,
    hexact _ _ _ _ hdifference hscaled⟩

end Decimal

end DoubleEntry
