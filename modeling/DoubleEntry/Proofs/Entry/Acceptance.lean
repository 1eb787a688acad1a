import DoubleEntry.Entry.Reversal
import DoubleEntry.Proofs.Decimal.Difference
import DoubleEntry.Proofs.Entry.Writing

/-!
# What the completeness check accepts

The check accepts an entry when both accounts are set, both comparisons of
amounts come to an end, and the gap between the conversions is within bounds. All
of that reads the two sides alike, so an entry with its sides exchanged is
accepted whenever the entry is, and in particular its reversal.
-/

namespace DoubleEntry

namespace Entry

/-! ## The verdict -/

theorem verdict_of_openSide {e : Entry} {tolerance : Tolerance} {side : Side}
    (h : e.openSide? = some side) :
    (e.check tolerance).verdict = pure (some (.unset side)) := by
  simp [check, h]

/-- With both accounts set the gap decides, once the amounts were compared. -/
theorem yields_verdict_iff {e : Entry} {tolerance : Tolerance} (h : e.openSide? = none)
    (problem : Option Incomplete) :
    (e.check tolerance).verdict.Yields problem ↔
      (∃ balanced, (e.amountsBalanced tolerance).Yields balanced) ∧
        (e.gapProblem? tolerance).Yields problem := by
  unfold check
  rw [h]
  dsimp only
  cases hbalanced : e.amountsBalanced tolerance with
  | fault reason => simp [Calc.Yields, Calc.outcome]
  | done balanced rounded =>
      have hends : ∃ x, (Calc.done balanced rounded).Yields x := ⟨balanced, rfl⟩
      simp only [hends, true_and]
      split <;> rfl

theorem openSide?_eq_none_iff (e : Entry) :
    e.openSide? = none ↔ e.debit.account.isSome ∧ e.credit.account.isSome := by
  unfold openSide?
  cases e.debit.account <;> cases e.credit.account <;> simp

theorem yields_gapProblem_none_iff (e : Entry) (tolerance : Tolerance) :
    (e.gapProblem? tolerance).Yields none ↔
      ∃ gap, e.msatsGap.Yields gap ∧ ¬ tolerance.msatsGap < gap := by
  unfold gapProblem?
  rw [Calc.yields_bind_iff]
  apply exists_congr
  intro gap
  refine and_congr_right fun _ => ?_
  split
  · rename_i hlt
    simp only [Calc.yields_bind_iff, Calc.yields_pure_iff, hlt, not_true, iff_false]
    rintro ⟨balance, -, hnone⟩
    cases hnone
  · rename_i hle
    simp only [Calc.yields_pure_iff, hle, not_false_iff]

theorem accepted_iff (e : Entry) (tolerance : Tolerance) :
    e.Accepted tolerance ↔
      (e.debit.account.isSome ∧ e.credit.account.isSome) ∧
        (∃ debit, (e.amountMatches .debit tolerance).Yields debit) ∧
        (∃ credit, (e.amountMatches .credit tolerance).Yields credit) ∧
        ∃ gap, e.msatsGap.Yields gap ∧ ¬ tolerance.msatsGap < gap := by
  cases hopen : e.openSide? with
  | some side =>
      have hnone : ¬ (e.debit.account.isSome ∧ e.credit.account.isSome) := by
        rw [← openSide?_eq_none_iff, hopen]
        simp
      simp only [Accepted, verdict_of_openSide hopen, Calc.yields_pure_iff, hnone, false_and,
        iff_false]
      exact Option.some_ne_none _
  | none =>
      have hset := (openSide?_eq_none_iff e).1 hopen
      rw [Accepted, yields_verdict_iff hopen, yields_gapProblem_none_iff]
      simp only [amountsBalanced, Calc.yields_bind_iff, Calc.yields_pure_iff, hset, and_self,
        true_and]
      constructor
      · rintro ⟨⟨_, debit, hdebit, credit, hcredit, -⟩, hgap⟩
        exact ⟨⟨debit, hdebit⟩, ⟨credit, hcredit⟩, hgap⟩
      · rintro ⟨⟨debit, hdebit⟩, ⟨credit, hcredit⟩, hgap⟩
        exact ⟨⟨_, debit, hdebit, credit, hcredit, rfl⟩, hgap⟩

/-! ## Exchanged sides -/

theorem yields_msatsGap_of_exchanged {e r : Entry} (hdebit : r.debit = e.credit)
    (hcredit : r.credit = e.debit) {gap : Decimal} (h : e.msatsGap.Yields gap) :
    ∃ gap', r.msatsGap.Yields gap' ∧ gap'.value = gap.value := by
  simp only [msatsGap, Calc.yields_bind_iff, Calc.yields_pure_iff] at h ⊢
  obtain ⟨difference, hdifference, rfl⟩ := h
  obtain ⟨opposite, hopposite, hvalue⟩ := Decimal.yields_sub_swap hdifference
  rw [hdebit, hcredit]
  refine ⟨_, ⟨opposite, hopposite, rfl⟩, ?_⟩
  rw [Decimal.value_abs, Decimal.value_abs, hvalue, abs_neg]

theorem amountMatches_of_exchanged {e r : Entry} (hdebit : r.debit = e.credit)
    (hcredit : r.credit = e.debit) (side : Side) (tolerance : Tolerance) :
    r.amountMatches side tolerance = e.amountMatches side.opposite tolerance := by
  cases side <;> simp [amountMatches, posting, Side.opposite, hdebit, hcredit]

/-- Either amount may match, so the order of the two comparisons does not matter. -/
theorem yields_amountsBalanced_of_exchanged {e r : Entry} (hdebit : r.debit = e.credit)
    (hcredit : r.credit = e.debit) {tolerance : Tolerance} (balanced : Bool) :
    (r.amountsBalanced tolerance).Yields balanced ↔
      (e.amountsBalanced tolerance).Yields balanced := by
  have hside := amountMatches_of_exchanged hdebit hcredit
  simp only [amountsBalanced, Calc.yields_bind_iff, Calc.yields_pure_iff, hside, Side.opposite]
  constructor
  · rintro ⟨credit, hcreditMatch, debit, hdebitMatch, rfl⟩
    exact ⟨debit, hdebitMatch, credit, hcreditMatch, Bool.or_comm debit credit⟩
  · rintro ⟨debit, hdebitMatch, credit, hcreditMatch, rfl⟩
    exact ⟨credit, hcreditMatch, debit, hdebitMatch, Bool.or_comm credit debit⟩

theorem accepted_of_exchanged {e r : Entry} (hdebit : r.debit = e.credit)
    (hcredit : r.credit = e.debit) {tolerance : Tolerance} (h : e.Accepted tolerance) :
    r.Accepted tolerance := by
  obtain ⟨hset, hdebitMatch, hcreditMatch, gap, hgap, hbound⟩ := (accepted_iff e tolerance).1 h
  obtain ⟨gap', hgap', hvalue⟩ := yields_msatsGap_of_exchanged hdebit hcredit hgap
  have hside := amountMatches_of_exchanged hdebit hcredit
  refine (accepted_iff r tolerance).2 ⟨?_, ?_, ?_, gap', hgap', ?_⟩
  · rw [hdebit, hcredit]
    exact hset.symm
  · rw [hside]
    exact hcreditMatch
  · rw [hside]
    exact hdebitMatch
  · rwa [Decimal.lt_iff, hvalue, ← Decimal.lt_iff]

end Entry

end DoubleEntry
