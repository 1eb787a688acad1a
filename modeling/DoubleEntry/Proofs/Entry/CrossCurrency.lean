import DoubleEntry.Proofs.Decimal.Capacity
import DoubleEntry.Proofs.Entry.Acceptance
import DoubleEntry.Proofs.Entry.Twins
import DoubleEntry.Proofs.Pricing.Figures

/-!
# Entries across currencies

Such an entry exchanges an amount for its figure in another currency, and values
both at one quote. The credit is what the debit's conversion says, so the amounts
always match one way round; the conversions are apart by the rounding of the
figure and of both values in millisatoshis, which the standard tolerance allows
unless a unit is dear beside bitcoin.
-/

namespace DoubleEntry

namespace Entry

/-- The credit is the figure of the debit, and both conversions are true to the quote. -/
structure Exchanges (e : Entry) (q : Quote) (u v : Currency) : Prop where
  debit_set : e.debit.account.isSome
  credit_set : e.credit.account.isSome
  debit_currency : e.debit.currency = u
  credit_currency : e.credit.currency = v
  debit_nonneg : 0 ≤ e.debit.amount.value
  debit_true : e.debit.conversion.TrueTo q e.debit.amount u
  credit_true : e.credit.conversion.TrueTo q e.credit.amount v
  credit_read : e.credit.amount = e.debit.conversion.amounts.get v

variable {e : Entry} {q : Quote} {u v : Currency}

namespace Exchanges

theorem credit_value (h : e.Exchanges q u v) :
    e.credit.amount.value = q.figure e.debit.amount.value u v := by
  rw [h.credit_read, h.debit_true v]

/-! ## Amounts -/

theorem amountMatches_credit (h : e.Exchanges q u v) (tolerance : Tolerance) :
    e.amountMatches .credit tolerance = pure true := by
  have hsame : (e.credit.amount == e.debit.conversion.amounts.get e.credit.currency) = true := by
    rw [h.credit_currency, ← h.credit_read]
    exact (Decimal.beq_iff _ _).2 rfl
  exact if_pos hsame

theorem exists_yields_amountMatches_debit (h : e.Exchanges q u v) (usable : q.Usable)
    {tolerance : Tolerance} (hrelative : |tolerance.relative.value| ≤ 1) :
    ∃ matched, (e.amountMatches .debit tolerance).Yields matched := by
  have hother : 0 ≤ (e.credit.conversion.amounts.get e.debit.currency).value := by
    rw [h.debit_currency, h.credit_true, h.credit_value]
    exact usable.figure_nonneg (usable.figure_nonneg h.debit_nonneg u v) v u
  exact Decimal.exists_yields_isClose h.debit_nonneg hother hrelative

theorem yields_amountsBalanced (h : e.Exchanges q u v) {tolerance : Tolerance} {matched : Bool}
    (hdebit : (e.amountMatches .debit tolerance).Yields matched) :
    (e.amountsBalanced tolerance).Yields true := by
  simp only [amountsBalanced, Calc.yields_bind_iff, Calc.yields_pure_iff,
    h.amountMatches_credit tolerance]
  exact ⟨matched, hdebit, true, rfl, Bool.or_true matched⟩

/-! ## The gap -/

theorem abs_difference_le (h : e.Exchanges q u v) (usable : q.Usable) :
    |e.debit.conversion.amounts.msats.value - e.credit.conversion.amounts.msats.value| ≤
      q.gapBound v := by
  have hdebit := h.debit_true .msats
  have hcredit := h.credit_true .msats
  rw [h.credit_value] at hcredit
  simp only [PerCurrency.get] at hdebit hcredit
  rw [hdebit, hcredit]
  exact usable.abs_gap_le _ u v

theorem gap_le (h : e.Exchanges q u v) (usable : q.Usable) {gap : Decimal}
    (hgap : e.msatsGap.Exactly gap) : gap.value ≤ q.gapBound v := by
  simp only [msatsGap, Calc.exactly_bind_iff, Calc.exactly_pure_iff] at hgap
  obtain ⟨difference, hdifference, rfl⟩ := hgap
  rw [Decimal.value_abs, Decimal.value_of_sub hdifference]
  exact h.abs_difference_le usable

/-- The gap may be rounded; that does not carry it past a whole bound. -/
theorem accepted (h : e.Exchanges q u v) (usable : q.Usable)
    (hbound : q.gapBound v ≤ Tolerance.standard.msatsGap.value) : e.Accepted .standard := by
  have hrelative : |Tolerance.standard.relative.value| ≤ 1 := by decide +kernel
  have hten : Tolerance.standard.msatsGap.value = 10 := rfl
  have hdifference : |e.debit.conversion.amounts.msats.value -
      e.credit.conversion.amounts.msats.value| ≤ ((10 : Nat) : Rat) :=
    (h.abs_difference_le usable).trans hbound
  obtain ⟨difference, hyields, hle⟩ := Decimal.exists_yields_sub (by decide) hdifference
  refine (accepted_iff e .standard).2 ⟨⟨h.debit_set, h.credit_set⟩,
    h.exists_yields_amountMatches_debit usable hrelative, ⟨true, ?_⟩, difference.abs, ?_, ?_⟩
  · rw [h.amountMatches_credit]
    rfl
  · exact (Calc.yields_bind_iff _ _ _).2 ⟨difference, hyields, rfl⟩
  · rw [Decimal.lt_iff, hten, Decimal.value_abs, not_lt]
    exact hle

end Exchanges

/-- The standard tolerance has room for the bound unless a unit is dear beside bitcoin. -/
theorem gapBound_le_standard (usable : q.Usable)
    (h : v = .btc ∨ v = .sats ∨ v = .msats ∨ 5556 * q.rate v ≤ q.rate .btc) :
    q.gapBound v ≤ Tolerance.standard.msatsGap.value := by
  have hten : Tolerance.standard.msatsGap.value = 10 := rfl
  rw [hten]
  rcases h with rfl | rfl | rfl | hcheap
  · norm_num [Quote.gapBound]
  · norm_num [Quote.gapBound]
  · norm_num [Quote.gapBound]
  · have hnine : 50000 * q.rate v / q.rate .btc ≤ 9 := by
      rw [div_le_iff₀ (usable.rate_pos .btc)]
      linarith [usable.rate_pos .btc]
    cases v <;> simp only [Quote.gapBound] <;> linarith

/--
An amount and its figure in another currency, both valued at one usable quote. In numbers, what
each is worth in whole millisatoshis differs by the rounding of the figure and by one more at
most, whatever the amount, and the standard tolerance has room for that unless a unit of the other
currency is dear. Legs whose conversions took no rounded step but the announced ones make an
exchange. An exchange has matching amounts under every tolerance whose comparison ends, as it does
up to a relative tolerance of one; its gap is within the bound; and where there is room for the
bound, the standard tolerance accepts it.
-/
theorem exchange_completes {q : Quote} (valid : q.validate = .ok ()) (u v : Currency) :
    (∀ x, |q.figure x u .msats - q.figure (q.figure x u v) v .msats| ≤ q.gapBound v) ∧
    (v = .btc ∨ v = .sats ∨ v = .msats ∨ 5556 * q.rate v ≤ q.rate .btc →
      q.gapBound v ≤ Tolerance.standard.msatsGap.value) ∧
    (∀ (e : Entry) (debit credit : Account) (a : Decimal) (first second : Calc Conversion)
      (c₁ c₂ : Conversion), 0 ≤ a.value →
      Conversion.ofQuote a u q = .ok first → first.Exactly c₁ →
      Conversion.ofQuote (c₁.amounts.get v) v q = .ok second → second.Exactly c₂ →
      e.debit = .ofLeg ⟨debit, a, u, c₁⟩ →
      e.credit = .ofLeg ⟨credit, c₁.amounts.get v, v, c₂⟩ → e.Exchanges q u v) ∧
    ∀ e : Entry, e.Exchanges q u v →
      (∀ tolerance, |tolerance.relative.value| ≤ 1 ∨
          (∃ matched, (e.amountMatches .debit tolerance).Yields matched) →
        (e.amountsBalanced tolerance).Yields true) ∧
      (∀ gap, e.msatsGap.Exactly gap → gap.value ≤ q.gapBound v) ∧
      (v = .btc ∨ v = .sats ∨ v = .msats ∨ 5556 * q.rate v ≤ q.rate .btc →
        e.Accepted .standard) := by
  have husable := (q.validate_eq_ok_iff).1 valid
  refine ⟨fun x => husable.abs_gap_le x u v, gapBound_le_standard husable, ?_, ?_⟩
  · intro e debit credit a first second c₁ c₂ ha hfirst h₁ hsecond h₂ hdebit hcredit
    constructor
    all_goals simp only [hdebit, hcredit, Posting.ofLeg, Option.isSome_some]
    · exact ha
    · exact Conversion.trueTo_of_ofQuote hfirst h₁
    · exact Conversion.trueTo_of_ofQuote hsecond h₂
  · intro e he
    refine ⟨fun tolerance hends => ?_, fun gap hgap => he.gap_le husable hgap,
      fun hcheap => he.accepted husable (gapBound_le_standard husable hcheap)⟩
    obtain ⟨matched, hmatched⟩ : ∃ matched, (e.amountMatches .debit tolerance).Yields matched :=
      hends.elim (he.exists_yields_amountMatches_debit husable) id
    exact he.yields_amountsBalanced hmatched

private def evenQuote : Quote :=
  { hiveUsd := .one, hbdUsd := .one, btcUsd := .ofNat 8000, hiveHbd := .one
    fetchDate := .epoch, source := "", error := none }

/-- A ten millionth of a HIVE, and what its conversion says in HBD. -/
private def hiveForHbd (debit credit : Conversion) : Entry :=
  { sampleDeposit with
    debit := .ofLeg ⟨.plain .asset "Treasury" "", .unitAt 7, .hive, debit⟩
    credit := .ofLeg
      ⟨.plain .liability "Customer" "alice", debit.amounts.get .hbd, .hbd, credit⟩ }

private def smallExchange : Calc Entry := do
  let debit ← Conversion.priced (.unitAt 7) .hive evenQuote
  let credit ← Conversion.priced (debit.amounts.get .hbd) .hbd evenQuote
  return hiveForHbd debit credit

/-- A little more than a millisatoshi, which is nothing at the places of HBD. -/
theorem exchange_completes_hive_hbd :
    ∃ e, smallExchange.Exactly e ∧ (e.amountsBalanced .standard).Yields true ∧
      e.msatsGap.Exactly .one ∧ Decimal.one.value ≤ evenQuote.gapBound .hbd ∧
      e.Accepted .standard := by
  have hvalid : evenQuote.validate = .ok () := by decide +kernel
  have hoffered : ∀ amount c, Conversion.ofQuote amount c evenQuote =
      .ok (Conversion.priced amount c evenQuote) := by
    intro amount c
    rw [Conversion.ofQuote, hvalid]
    rfl
  have hrun : (smallExchange >>= msatsGap).Exactly .one := by
    unfold Calc.Exactly
    decide +kernel
  obtain ⟨e, he, hgap⟩ := (Calc.exactly_bind_iff _ _ _).1 hrun
  refine ⟨e, he, ?_⟩
  simp only [smallExchange, Calc.exactly_bind_iff, Calc.exactly_pure_iff] at he
  obtain ⟨c₁, h₁, c₂, h₂, rfl⟩ := he
  obtain ⟨-, -, hmake, hcompletes⟩ := exchange_completes hvalid .hive .hbd
  have hexchanges : (hiveForHbd c₁ c₂).Exchanges evenQuote .hive .hbd :=
    hmake _ _ _ _ _ _ c₁ c₂ (by decide +kernel) (hoffered _ _) h₁ (hoffered _ _) h₂ rfl rfl
  obtain ⟨hbalanced, hbound, haccepted⟩ := hcompletes _ hexchanges
  refine ⟨hbalanced .standard (Or.inl (by decide +kernel)), hgap, hbound _ hgap, haccepted ?_⟩
  exact Or.inr (Or.inr (Or.inr (by decide +kernel)))

end Entry

end DoubleEntry
