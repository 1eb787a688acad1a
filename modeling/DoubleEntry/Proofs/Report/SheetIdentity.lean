import DoubleEntry.Proofs.Report.NetTotals
import DoubleEntry.Report.BalanceSheet

/-!
# The balance sheet identity

Valuing at spot rates adds the same to the two sides of the sheet, because the
adjusting line takes the difference. What is left of the discrepancy is the net of
the historical conversions, and that is what the debit sides of the entries are
worth in dollars more than their credit sides. The statements are about exact
runs: every decimal step of the sheet, its rates and its verdict included.
-/

namespace DoubleEntry

/-! ## Sections -/

namespace SheetSection

theorem exactly_push {s s' : SheetSection} {line : SheetLine} (h : (s.push line).Exactly s') :
    s'.lines = s.lines ++ [line] ∧ (s.totalUsd.add line.spotUsd).Exactly s'.totalUsd ∧
      (Amounts.add s.totalHistorical line.historical).Exactly s'.totalHistorical := by
  simp only [push, Calc.exactly_bind_iff, Calc.exactly_pure_iff] at h
  obtain ⟨totalUsd, husd, totalHistorical, hhistorical, rfl⟩ := h
  exact ⟨rfl, husd, hhistorical⟩

/-- The lines of a section, each with what its spot value adds to its history. -/
def gains (s : SheetSection) : List Rat :=
  s.lines.map fun line => line.spotUsd.value - line.historical.usd.value

theorem value_of_revaluation {s : SheetSection} {delta : Decimal}
    (h : s.revaluation.Exactly delta) : delta.value = s.gains.sum :=
  Decimal.value_of_sumOf (fun _ _ hline => Decimal.value_of_sub hline) h

/-- Each account adds its spot value to the total, and all but its history to the gains. -/
private theorem sub_gains_step {rates : SpotRates} {s s' : SheetSection} {t : AccountTotals}
    (h : (do let line ← SheetLine.ofTotals rates t; s.push line).Exactly s') :
    s'.totalUsd.value - s'.gains.sum =
      (s.totalUsd.value - s.gains.sum) + (t.converted.get .usd).value := by
  obtain ⟨line, hline, hpush⟩ := (Calc.exactly_bind_iff _ _ _).1 h
  obtain ⟨hlines, husd, -⟩ := exactly_push hpush
  simp only [SheetLine.ofTotals, Calc.exactly_bind_iff, Calc.exactly_pure_iff] at hline
  obtain ⟨spotUsd, -, rfl⟩ := hline
  rw [gains, hlines, List.map_append, List.sum_append, Decimal.value_of_add husd]
  simp only [gains, List.map_cons, List.map_nil, List.sum_cons, List.sum_nil]
  change _ = _ + t.converted.usd.value
  ring

/-- Without its revaluation a section is worth what its accounts were converted to. -/
theorem value_without_revaluation {rates : SpotRates} {totals : List AccountTotals}
    {s : SheetSection} {delta : Decimal} (hs : (ofTotals rates totals).Exactly s)
    (hdelta : s.revaluation.Exactly delta) :
    s.totalUsd.value - delta.value = (totals.map fun t => (t.converted.get .usd).value).sum := by
  have hsum := Calc.measure_foldlM (fun _ _ _ hstep => sub_gains_step hstep) hs
  rw [value_of_revaluation hdelta, hsum]
  simp [gains, empty]

end SheetSection

/-! ## Earnings -/

namespace Earnings

theorem value_of_addRevenue {earned earned' : Earnings} {t : AccountTotals}
    (h : (earned.addRevenue t).Exactly earned') (c : Currency) :
    (earned'.converted.get c).value =
      (earned.converted.get c).value + (t.converted.get c).value := by
  simp only [addRevenue, Calc.exactly_bind_iff, Calc.exactly_pure_iff] at h
  obtain ⟨native, -, converted, hconverted, rfl⟩ := h
  exact Amounts.value_of_add hconverted c

theorem value_of_addExpense {earned earned' : Earnings} {t : AccountTotals}
    (h : (earned.addExpense t).Exactly earned') (c : Currency) :
    (earned'.converted.get c).value =
      (earned.converted.get c).value + -(t.converted.get c).value := by
  simp only [addExpense, Calc.exactly_bind_iff, Calc.exactly_pure_iff] at h
  obtain ⟨native, -, converted, hconverted, rfl⟩ := h
  rw [Amounts.value_of_sub hconverted c, sub_eq_add_neg]

theorem value_of_folds (measure : Earnings → Rat) (figure : AccountTotals → Rat)
    (hnone : measure none = 0)
    (hmore : ∀ earned t earned', (addRevenue earned t).Exactly earned' →
      measure earned' = measure earned + figure t)
    (hless : ∀ earned t earned', (addExpense earned t).Exactly earned' →
      measure earned' = measure earned + -figure t)
    {totals : LedgerTotals} {revenue retained : Earnings}
    (hrevenue : ((totals.ofType .revenue).foldlM addRevenue none).Exactly revenue)
    (hexpense : ((totals.ofType .expense).foldlM addExpense revenue).Exactly retained) :
    measure retained = totals.sumOfType figure .revenue - totals.sumOfType figure .expense := by
  rw [Calc.measure_foldlM hless hexpense, Calc.measure_foldlM hmore hrevenue]
  have hneg : ((totals.ofType .expense).map fun t => -figure t).sum =
      -totals.sumOfType figure .expense := by
    rw [LedgerTotals.sumOfType, List.sum_neg, List.map_map]
    rfl
  simp only [hneg, hnone, LedgerTotals.sumOfType, zero_add, sub_eq_add_neg]

theorem converted_of_folds {totals : LedgerTotals} {revenue retained : Earnings}
    (hrevenue : ((totals.ofType .revenue).foldlM addRevenue none).Exactly revenue)
    (hexpense : ((totals.ofType .expense).foldlM addExpense revenue).Exactly retained)
    (c : Currency) :
    (retained.converted.get c).value =
      totals.sumOfType (fun t => (t.converted.get c).value) .revenue -
        totals.sumOfType (fun t => (t.converted.get c).value) .expense :=
  value_of_folds (fun earned => (earned.converted.get c).value) _ (by simp [none])
    (fun _ _ _ h => value_of_addRevenue h c) (fun _ _ _ h => value_of_addExpense h c)
    hrevenue hexpense

end Earnings

/-! ## The sheet -/

namespace BalanceSheet

/-- How an exact sheet was worked out, step by step. -/
structure Workings (entries : List Entry) (asOf : Instant) (age : Option Span)
    (tolerance : Tolerance) (sheet : BalanceSheet) where
  totals : LedgerTotals
  owned : SheetSection
  revenue : Earnings
  retained : Earnings
  assetsDelta : Decimal
  liabilitiesDelta : Decimal
  netDelta : Decimal
  ownedDelta : Decimal
  withRetained : SheetSection
  rates_exact : (SpotRates.latest entries).Exactly sheet.spotRates
  totals_exact : (LedgerTotals.ofEntries entries fun _ => true).Exactly totals
  assets_exact : (SheetSection.ofTotals sheet.spotRates (totals.ofType .asset)).Exactly sheet.assets
  liabilities_exact :
    (SheetSection.ofTotals sheet.spotRates (totals.ofType .liability)).Exactly sheet.liabilities
  owned_exact : (SheetSection.ofTotals sheet.spotRates (totals.ofType .equity)).Exactly owned
  revenue_exact :
    ((totals.ofType .revenue).foldlM Earnings.addRevenue Earnings.none).Exactly revenue
  retained_exact : ((totals.ofType .expense).foldlM Earnings.addExpense revenue).Exactly retained
  assetsDelta_exact : sheet.assets.revaluation.Exactly assetsDelta
  liabilitiesDelta_exact : sheet.liabilities.revaluation.Exactly liabilitiesDelta
  netDelta_exact : (assetsDelta.sub liabilitiesDelta).Exactly netDelta
  ownedDelta_exact : owned.revaluation.Exactly ownedDelta
  adjustment_exact : (netDelta.sub ownedDelta).Exactly sheet.revaluation
  withRetained_exact :
    (owned.push
      ⟨retainedAccount, retained.native, retained.converted, retained.converted.usd⟩).Exactly
      withRetained
  equity_exact :
    (withRetained.push ⟨adjustmentAccount, .empty, .zero, sheet.revaluation⟩).Exactly sheet.equity
  total_exact :
    (sheet.liabilities.totalUsd.add sheet.equity.totalUsd).Exactly sheet.totalLiabilitiesAndEquity
  discrepancy_exact :
    (sheet.assets.totalUsd.sub sheet.totalLiabilitiesAndEquity).Exactly sheet.discrepancy
  verdict_exact :
    (sheet.assets.totalUsd.isClose sheet.totalLiabilitiesAndEquity tolerance.sheetRelative
      tolerance.absolute.usd).Exactly sheet.isBalanced
  start_exact : (asOf.windowStart age).Exactly sheet.start
  asOf_eq : sheet.asOf = asOf
  entryCount_eq : sheet.entryCount = entries.length
  retained_eq : sheet.retainedEarnings = retained.converted

variable {entries : List Entry} {asOf : Instant} {age : Option Span} {tolerance : Tolerance}
  {sheet : BalanceSheet}

theorem exists_workings (h : (ofEntries entries asOf age tolerance).Exactly sheet) :
    Nonempty (Workings entries asOf age tolerance sheet) := by
  simp only [ofEntries, Calc.exactly_bind_iff, Calc.exactly_pure_iff] at h
  obtain ⟨rates, hrates, totals, htotals, assets, hassets, liabilities, hliabilities,
    owned, howned, revenue, hrevenue, retained, hretained, assetsDelta, hassetsDelta,
    liabilitiesDelta, hliabilitiesDelta, netDelta, hnetDelta, ownedDelta, hownedDelta,
    adjustment, hadjustment, withRetained, hwithRetained, equity, hequity, total, htotal,
    discrepancy, hdiscrepancy, isBalanced, hverdict, start, hstart, rfl⟩ := h
  exact ⟨totals, owned, revenue, retained, assetsDelta, liabilitiesDelta, netDelta, ownedDelta,
    withRetained, hrates, htotals, hassets, hliabilities, howned, hrevenue, hretained,
    hassetsDelta, hliabilitiesDelta, hnetDelta, hownedDelta, hadjustment, hwithRetained, hequity,
    htotal, hdiscrepancy, hverdict, hstart, rfl, rfl, rfl⟩

theorem Workings.exactly (w : Workings entries asOf age tolerance sheet) :
    (ofEntries entries asOf age tolerance).Exactly sheet := by
  simp only [ofEntries, Calc.exactly_bind_iff, Calc.exactly_pure_iff]
  refine ⟨_, w.rates_exact, _, w.totals_exact, _, w.assets_exact, _, w.liabilities_exact,
    _, w.owned_exact, _, w.revenue_exact, _, w.retained_exact, _, w.assetsDelta_exact,
    _, w.liabilitiesDelta_exact, _, w.netDelta_exact, _, w.ownedDelta_exact,
    _, w.adjustment_exact, _, w.withRetained_exact, _, w.equity_exact, _, w.total_exact,
    _, w.discrepancy_exact, _, w.verdict_exact, _, w.start_exact, ?_⟩
  cases sheet
  rw [BalanceSheet.mk.injEq]
  exact ⟨w.asOf_eq.symm, rfl, w.entryCount_eq.symm, rfl, rfl, rfl, rfl, w.retained_eq.symm,
    rfl, rfl, rfl, rfl⟩

/-- The adjusting line takes up what the spot rates add to one side more than to the other. -/
theorem Workings.discrepancy_eq_net (w : Workings entries asOf age tolerance sheet) :
    sheet.discrepancy.value = w.totals.net fun t => (t.converted.get .usd).value := by
  have hassets := SheetSection.value_without_revaluation w.assets_exact w.assetsDelta_exact
  have hliabilities :=
    SheetSection.value_without_revaluation w.liabilities_exact w.liabilitiesDelta_exact
  have howned := SheetSection.value_without_revaluation w.owned_exact w.ownedDelta_exact
  have hretained := Earnings.converted_of_folds w.revenue_exact w.retained_exact .usd
  have hadjustment : sheet.revaluation.value =
      w.assetsDelta.value - w.liabilitiesDelta.value - w.ownedDelta.value := by
    rw [Decimal.value_of_sub w.adjustment_exact, Decimal.value_of_sub w.netDelta_exact]
  have hequity : sheet.equity.totalUsd.value =
      w.owned.totalUsd.value + (w.retained.converted.get .usd).value + sheet.revaluation.value := by
    rw [Decimal.value_of_add (SheetSection.exactly_push w.equity_exact).2.1,
      Decimal.value_of_add (SheetSection.exactly_push w.withRetained_exact).2.1]
    rfl
  have hdiscrepancy : sheet.discrepancy.value =
      sheet.assets.totalUsd.value -
        (sheet.liabilities.totalUsd.value + sheet.equity.totalUsd.value) := by
    rw [Decimal.value_of_sub w.discrepancy_exact, Decimal.value_of_add w.total_exact]
  -- The spot values cancel: each section's delta is in its total and in the adjusting line.
  rw [LedgerTotals.net_eq_sumOfType]
  unfold LedgerTotals.sumOfType at *
  linarith

/-- A sheet without a discrepancy is balanced, whatever the tolerance. -/
theorem Workings.exactly_of_discrepancy_zero (w : Workings entries asOf age tolerance sheet)
    (hzero : sheet.discrepancy.value = 0) (other : Tolerance) :
    sheet.isBalanced = true ∧ (ofEntries entries asOf age other).Exactly sheet := by
  have heq : sheet.assets.totalUsd == sheet.totalLiabilitiesAndEquity := by
    rw [Decimal.beq_iff]
    rw [Decimal.value_of_sub w.discrepancy_exact] at hzero
    linarith
  have hverdict : ∀ relative absolute,
      sheet.assets.totalUsd.isClose sheet.totalLiabilitiesAndEquity relative absolute =
        pure true := by
    intro relative absolute
    simp [Decimal.isClose, heq]
  have hbalanced : sheet.isBalanced = true := by
    have h := w.verdict_exact
    rw [hverdict, Calc.exactly_pure_iff] at h
    exact h.symm
  have hother : Workings entries asOf age other sheet :=
    { w with
      verdict_exact := by
        rw [hverdict, Calc.exactly_pure_iff]
        exact hbalanced.symm }
  exact ⟨hbalanced, hother.exactly⟩

/--
The balance sheet identity. The discrepancy of an exact sheet is what the debit sides of its
entries were worth in dollars more than the credit sides, so it is the same for any two sheets
whose entries agree in that, and it vanishes, with a balanced sheet under every tolerance, when
both sides of each entry were worth the same.
-/
theorem discrepancy_eq_sum_excess
    (h : (ofEntries entries asOf age tolerance).Exactly sheet) :
    sheet.discrepancy.value = (entries.map fun e => e.excess .usd).sum ∧
      (∀ entries' asOf' age' tolerance' sheet',
        (ofEntries entries' asOf' age' tolerance').Exactly sheet' →
        (entries'.map fun e => e.excess .usd) = (entries.map fun e => e.excess .usd) →
        sheet'.discrepancy.value = sheet.discrepancy.value) ∧
      ((∀ e ∈ entries, e.valueOn .debit .usd = e.valueOn .credit .usd) →
        sheet.discrepancy.value = 0 ∧ sheet.isBalanced = true ∧
          ∀ other, (ofEntries entries asOf age other).Exactly sheet) := by
  have hsum : ∀ {entries asOf age tolerance sheet},
      (ofEntries entries asOf age tolerance).Exactly sheet →
      sheet.discrepancy.value = (entries.map fun e => e.excess .usd).sum := by
    intro entries asOf age tolerance sheet h
    obtain ⟨w⟩ := exists_workings h
    rw [w.discrepancy_eq_net, LedgerTotals.net_converted w.totals_exact]
  refine ⟨hsum h, ?_, ?_⟩
  · intro entries' asOf' age' tolerance' sheet' h' hsame
    rw [hsum h', hsum h, hsame]
  · intro heven
    have hzero : sheet.discrepancy.value = 0 := by
      rw [hsum h]
      apply List.sum_eq_zero
      intro x hx
      obtain ⟨e, he, rfl⟩ := List.mem_map.1 hx
      rw [Entry.excess, heven e he, sub_self]
    obtain ⟨w⟩ := exists_workings h
    exact ⟨hzero, (w.exactly_of_discrepancy_zero hzero tolerance).1,
      fun other => (w.exactly_of_discrepancy_zero hzero other).2⟩

private def hiveTransfer (nanos : Int) (debit credit : Account) (hive usd : Decimal) : Entry :=
  let worth : Conversion := ⟨{ Amounts.zero with hive := hive, usd := usd }, .epoch, ""⟩
  { groupId := "", shortId := "", timestamp := ⟨nanos⟩, category := .deposit, description := ""
    userMemo := "", custId := "", debit := .ofLeg ⟨debit, hive, .hive, worth⟩
    credit := .ofLeg ⟨credit, hive, .hive, worth⟩, metadata := none, reversed := none
    reversalOf := none }

/-- A deposit at a quarter of a dollar, and a fee when the price has doubled. -/
private def depositThenFee : List Entry :=
  [hiveTransfer 0 (.plain .asset "Treasury" "") (.plain .liability "Customer" "alice")
      (.ofNat 100) (.ofNat 25),
    hiveTransfer 1 (.plain .liability "Customer" "alice") (.plain .revenue "Fees" "")
      .ten (.ofNat 5)]

/-- The price moved between the entries, and the sheet balances. -/
theorem discrepancy_after_price_move :
    ∃ sheet, (ofEntries depositThenFee ⟨2⟩ none .standard).Exactly sheet ∧
      (∀ e ∈ depositThenFee, e.valueOn .debit .usd = e.valueOn .credit .usd) ∧
      sheet.discrepancy.value = (depositThenFee.map fun e => e.excess .usd).sum ∧
      sheet.discrepancy.value = 0 ∧ sheet.isBalanced = true := by
  have hexact : (ofEntries depositThenFee ⟨2⟩ none .standard).isExact = true := by
    decide +kernel
  have heven : ∀ e ∈ depositThenFee, e.valueOn .debit .usd = e.valueOn .credit .usd := by
    decide +kernel
  obtain ⟨sheet, hsheet⟩ := Calc.exists_exactly hexact
  obtain ⟨hsum, -, hbalanced⟩ := discrepancy_eq_sum_excess hsheet
  obtain ⟨hzero, htrue, -⟩ := hbalanced heven
  exact ⟨sheet, hsheet, heven, hsum, hzero, htrue⟩

end BalanceSheet

end DoubleEntry
