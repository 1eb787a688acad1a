import DoubleEntry.Proofs.Calculations
import DoubleEntry.Proofs.Decimal.Capacity
import DoubleEntry.Proofs.Entry.Acceptance
import DoubleEntry.Proofs.Entry.Twins

/-!
# Checks that end

The completeness check subtracts figures and scales them, and each of these steps can
overflow. On an entry without negative figures a difference is no larger than its
larger operand, and a relative tolerance of one at most takes a part of a figure; so
both comparisons of amounts end, and the gap's alone is the verdict. A write that
meets no failure then has three answers, and which one it is depends on the verdict
and on whether the id is free.
-/

namespace DoubleEntry

structure Posting.Nonneg (p : Posting) : Prop where
  amount : 0 ≤ p.amount.value
  converted : ∀ c, 0 ≤ (p.conversion.amounts.get c).value

namespace Entry

structure Nonneg (e : Entry) : Prop where
  debit : e.debit.Nonneg
  credit : e.credit.Nonneg

variable {e : Entry} {tolerance : Tolerance}

namespace Nonneg

theorem posting (h : e.Nonneg) (side : Side) : (e.posting side).Nonneg := by
  cases side with
  | debit => exact h.debit
  | credit => exact h.credit

/-! ## Amounts and gap -/

theorem exists_yields_amountMatches (h : e.Nonneg) (hrelative : |tolerance.relative.value| ≤ 1)
    (side : Side) : ∃ matched, (e.amountMatches side tolerance).Yields matched :=
  Decimal.exists_yields_isClose (h.posting side).amount
    ((h.posting side.opposite).converted _) hrelative

theorem exists_yields_amountsBalanced (h : e.Nonneg)
    (hrelative : |tolerance.relative.value| ≤ 1) :
    ∃ balanced, (e.amountsBalanced tolerance).Yields balanced := by
  obtain ⟨debit, hdebit⟩ := h.exists_yields_amountMatches hrelative .debit
  obtain ⟨credit, hcredit⟩ := h.exists_yields_amountMatches hrelative .credit
  simp only [amountsBalanced, Calc.yields_bind_iff, Calc.yields_pure_iff]
  exact ⟨_, debit, hdebit, credit, hcredit, rfl⟩

/-- Both sides' millisatoshis are on one side of zero, so their difference fits. -/
theorem exists_yields_difference (h : e.Nonneg) :
    ∃ difference,
      (e.debit.conversion.amounts.msats.sub e.credit.conversion.amounts.msats).Yields difference :=
  Decimal.exists_yields_sub_of_nonneg (h.debit.converted .msats) (h.credit.converted .msats)

end Nonneg

/-! ## The verdict -/

theorem yields_msatsGap {difference : Decimal}
    (h : (e.debit.conversion.amounts.msats.sub e.credit.conversion.amounts.msats).Yields
      difference) : e.msatsGap.Yields difference.abs :=
  (Calc.yields_bind_iff _ _ _).2 ⟨difference, h, rfl⟩

/-- Nothing but the gap is worked out on the way to the complaint, which names it again. -/
theorem exists_yields_gapProblem {gap : Decimal} (h : e.msatsGap.Yields gap)
    (tolerance : Tolerance) : ∃ problem, (e.gapProblem? tolerance).Yields problem := by
  simp only [gapProblem?, balanceText, Calc.yields_bind_iff]
  refine Exists.imp (fun problem hproblem => ⟨gap, h, hproblem⟩) ?_
  split
  · simp only [Calc.yields_bind_iff, Calc.yields_pure_iff]
    exact ⟨_, _, ⟨gap, h, rfl⟩, rfl⟩
  · exact ⟨none, rfl⟩

theorem Nonneg.exists_yields_verdict (h : e.Nonneg) (hrelative : |tolerance.relative.value| ≤ 1) :
    ∃ problem, (e.check tolerance).verdict.Yields problem := by
  cases hopen : e.openSide? with
  | some side => exact ⟨_, by rw [verdict_of_openSide hopen]; rfl⟩
  | none =>
      obtain ⟨difference, hdifference⟩ := h.exists_yields_difference
      obtain ⟨problem, hproblem⟩ :=
        exists_yields_gapProblem (yields_msatsGap hdifference) tolerance
      exact ⟨problem, (yields_verdict_iff hopen problem).2
        ⟨h.exists_yields_amountsBalanced hrelative, hproblem⟩⟩

/-- The comparisons of amounts only have to end, whatever they say. -/
theorem Nonneg.accepted_iff_abs_le (h : e.Nonneg) (hrelative : |tolerance.relative.value| ≤ 1)
    (hset : e.debit.account.isSome ∧ e.credit.account.isSome) {difference : Decimal}
    (hdifference : (e.debit.conversion.amounts.msats.sub
      e.credit.conversion.amounts.msats).Yields difference) :
    e.Accepted tolerance ↔ difference.abs ≤ tolerance.msatsGap := by
  have hgap := yields_msatsGap hdifference
  rw [accepted_iff, Decimal.le_iff, ← not_lt]
  constructor
  · rintro ⟨-, -, -, gap, hyields, hle⟩
    rwa [Calc.Yields.unique hgap hyields]
  · intro hle
    exact ⟨hset, h.exists_yields_amountMatches hrelative .debit,
      h.exists_yields_amountMatches hrelative .credit, _, hgap, hle⟩

/-! ## Writes -/

/-- What a write that meets no failure answers to a verdict of the check. -/
def answer (s : Store) (e : Entry) (kind : WriteKind) : Option Incomplete → Except Failure Unit
  | some cause => .error (.refused (.notCompleted e.groupId cause))
  | none =>
    if kind = .insert ∧ s.holds e.groupId = true then
      .error (.refused (.duplicate e.groupId))
    else .ok ()

theorem answer_of_verdict {s : Session} {kind : WriteKind} {problem : Option Incomplete}
    (hverdict : (e.check tolerance).verdict.Yields problem)
    (hup : s.outages.pending kind.call = []) :
    (s.run (e.write kind tolerance)).1 = e.answer s.store kind problem := by
  have hunmet : s.outages.take? kind.call = none := by simp [Outages.take?, hup]
  cases hrun : s.run (e.write kind tolerance) with
  | mk outcome t =>
      have hended := writeEnded_of_run hrun
      dsimp only
      cases hended with
      | faulted _ reason verdict =>
          rw [verdict] at hverdict
          cases hverdict
      | incomplete _ cause verdict =>
          obtain rfl := Calc.Yields.unique verdict hverdict
          rfl
      | failed _ outage rest _ met => cases hunmet.symm.trans met
      | taken _ accepted _ full =>
          obtain rfl := Calc.Yields.unique accepted hverdict
          exact (if_pos ((s.store.write?_eq_none_iff kind e).1 full)).symm
      | stored _ accepted _ done =>
          obtain rfl := Calc.Yields.unique accepted hverdict
          have hfree : ¬ (kind = .insert ∧ s.store.holds e.groupId = true) := by
            rw [← s.store.write?_eq_none_iff, done]
            exact Option.some_ne_none _
          exact (if_neg hfree).symm

/--
An entry without negative figures, whatever their size and scale, under a tolerance whose relative
part is one at most. Its check ends with a verdict. With both accounts set the difference of the
conversions in millisatoshis is worked out, and the verdict is acceptance exactly when that is
within the tolerance, whether or not the amounts match. A write that meets no failure ends with the
answer to the verdict: that the entry is incomplete, that a new entry's id is taken, or success.
-/
theorem check_ends_of_nonneg (he : e.Nonneg) (hrelative : |tolerance.relative.value| ≤ 1) :
    ∃ problem, (e.check tolerance).verdict.Yields problem ∧
      (e.debit.account.isSome ∧ e.credit.account.isSome →
        ∃ difference,
          (e.debit.conversion.amounts.msats.sub e.credit.conversion.amounts.msats).Yields
            difference ∧
          (problem = none ↔ difference.abs ≤ tolerance.msatsGap)) ∧
      ∀ (s : Session) (kind : WriteKind), s.outages.pending kind.call = [] →
        (s.run (e.write kind tolerance)).1 = e.answer s.store kind problem := by
  obtain ⟨problem, hverdict⟩ := he.exists_yields_verdict hrelative
  refine ⟨problem, hverdict, fun hset => ?_, fun s kind hup => answer_of_verdict hverdict hup⟩
  obtain ⟨difference, hdifference⟩ := he.exists_yields_difference
  have haccepted : problem = none ↔ e.Accepted tolerance := by
    constructor
    · rintro rfl
      exact hverdict
    · exact Calc.Yields.unique hverdict
  exact ⟨difference, hdifference,
    haccepted.trans (he.accepted_iff_abs_le hrelative hset hdifference)⟩

private def valuedAll (account : Account) (figure : Decimal) (currency : Currency) : Leg :=
  ⟨account, figure, currency, ⟨.ofFn fun _ => figure, .epoch, ""⟩⟩

private def largest : Decimal :=
  .ofNat (Decimal.coefficientLimit - 1)

private def farApart : Entry :=
  { sampleDeposit with
    debit := .ofLeg (valuedAll (.plain .asset "Treasury" "") largest .hive)
    credit := .ofLeg (valuedAll (.plain .liability "Customer" "alice") (.unitAt 27) .btc) }

private def wholeTolerance : Tolerance :=
  { Tolerance.standard with relative := .one }

/-- The difference is rounded to the larger figure, and the amounts match all the same. -/
theorem check_ends_far_apart :
    farApart.Nonneg ∧ |wholeTolerance.relative.value| ≤ 1 ∧
      (farApart.amountsBalanced wholeTolerance).Yields true ∧
      ∃ cause, (farApart.check wholeTolerance).verdict.Yields (some cause) ∧
        ∀ kind, (Session.fresh.run (farApart.write kind wholeTolerance)).1 =
          .error (.refused (.notCompleted "deposit" cause)) := by
  have hlargest : 0 ≤ largest.value := by decide +kernel
  have hsmallest : 0 ≤ (Decimal.unitAt 27).value := by decide +kernel
  have hnonneg : farApart.Nonneg :=
    ⟨⟨hlargest, fun c => by cases c <;> exact hlargest⟩,
      ⟨hsmallest, fun c => by cases c <;> exact hsmallest⟩⟩
  have hrelative : |wholeTolerance.relative.value| ≤ 1 := by decide +kernel
  have hbalanced : (farApart.amountsBalanced wholeTolerance).Yields true := by
    unfold Calc.Yields
    decide +kernel
  have hrounded : (largest.sub (.unitAt 27)).Yields largest := by
    unfold Calc.Yields
    decide +kernel
  obtain ⟨problem, hverdict, hgap, hanswer⟩ := check_ends_of_nonneg hnonneg hrelative
  obtain ⟨difference, hdifference, hiff⟩ := hgap ⟨rfl, rfl⟩
  obtain rfl := Calc.Yields.unique hrounded hdifference
  refine ⟨hnonneg, hrelative, hbalanced, ?_⟩
  cases problem with
  | none => exact absurd (hiff.1 rfl) (by decide +kernel)
  | some cause => exact ⟨cause, hverdict, fun kind => hanswer Session.fresh kind rfl⟩

end Entry

end DoubleEntry
