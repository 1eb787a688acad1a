import DoubleEntry.Proofs.Report.Conservation
import DoubleEntry.Report.ProfitAndLoss

/-!
# Retained earnings and net income

The sheet nets every leg on a revenue or expense account; the statement of profit
and loss first drops the legs on the other side than the account's own and then
subtracts totals. The two differ by the dropped legs and by nothing else: refunds
of revenue and refunds of expenses. Both reports are read off exact runs.
-/

namespace DoubleEntry

/-! ## Legs on one side of accounts of one type -/

def bookedOn (value : Leg → Rat) (entries : List Entry) (type : AccountType) (side : Side) : Rat :=
  ((LedgerTotals.legsOf entries fun leg => leg.account.type == type && leg.side == side).map
    fun leg => value leg.toLeg).sum

theorem bookedOn_eq_zero {value : Leg → Rat} {entries : List Entry} {type : AccountType}
    {side : Side}
    (h : ∀ leg ∈ entries.flatMap Entry.legs, ¬ (leg.account.type = type ∧ leg.side = side)) :
    bookedOn value entries type side = 0 := by
  have hnone : LedgerTotals.legsOf entries
      (fun leg => leg.account.type == type && leg.side == side) = [] := by
    apply List.filter_eq_nil_iff.2
    intro leg hleg
    simpa using h leg hleg
  simp [bookedOn, hnone]

def AccountType.incomeWeight : AccountType → Rat
  | .revenue => 1
  | .expense => -1
  | _ => 0

/-- Of the legs, those that the statement drops are refunds of revenue and of expenses. -/
theorem sum_income_legs (value : Leg → Rat) (legs : List BookedLeg) :
    (legs.map fun leg =>
        leg.account.type.incomeWeight * (value leg.toLeg * leg.sign.value)).sum =
      ((legs.filter ProfitAndLoss.isIncomeLeg).map fun leg =>
          leg.account.type.incomeWeight * (value leg.toLeg * leg.sign.value)).sum -
        ((legs.filter fun leg => leg.account.type == .revenue && leg.side == .debit).map
          fun leg => value leg.toLeg).sum +
        ((legs.filter fun leg => leg.account.type == .expense && leg.side == .credit).map
          fun leg => value leg.toLeg).sum := by
  induction legs with
  | nil => simp
  | cons leg rest ih =>
      have hsign : leg.sign.value = leg.account.type.weight * leg.side.weight := by
        rw [← leg.weight_mul_sign, ← mul_assoc]
        cases leg.account.type <;>
          simp [AccountType.weight, AccountType.normalSide, Side.weight]
      rw [List.map_cons, List.sum_cons, ih]
      -- A leg is on its account's own side and counted on the left and right, or it is dropped.
      cases htype : leg.account.type <;> cases hside : leg.side <;>
        simp [ProfitAndLoss.isIncomeLeg, htype, hside, hsign, AccountType.incomeWeight,
          AccountType.weight, AccountType.normalSide, Side.weight] <;>
        ring

namespace LedgerTotals

variable {figure : AccountTotals → Rat}

theorem income_eq_weighed (figure : AccountTotals → Rat) (totals : LedgerTotals) :
    sumOfType figure totals .revenue - sumOfType figure totals .expense =
      weighed AccountType.incomeWeight figure totals := by
  induction totals with
  | nil => simp [weighed, sumOfType, ofType]
  | cons p rest ih =>
      simp only [weighed, sumOfType, ofType, List.map_cons, List.sum_cons, List.filter_cons] at ih ⊢
      rw [← ih]
      cases p.2.account.type <;> simp [AccountType.incomeWeight] <;> ring

/-- Income over all legs is income over the legs of the statement, corrected by the refunds. -/
theorem income_of_signed (value : Leg → Rat)
    (hadd : AccountTotals.Additive figure fun leg => value leg.toLeg * leg.sign.value)
    {entries : List Entry} {totals stated : LedgerTotals}
    (htotals : (ofEntries entries fun _ => true).Exactly totals)
    (hstated : (ofEntries entries ProfitAndLoss.isIncomeLeg).Exactly stated) :
    sumOfType figure totals .revenue - sumOfType figure totals .expense =
      sumOfType figure stated .revenue - sumOfType figure stated .expense -
        bookedOn value entries .revenue .debit + bookedOn value entries .expense .credit := by
  rw [income_eq_weighed, income_eq_weighed, (weighed_ofEntries _ hadd htotals).2,
    (weighed_ofEntries _ hadd hstated).2]
  have hall : legsOf entries (fun _ => true) = entries.flatMap Entry.legs :=
    List.filter_eq_self.2 fun _ _ => rfl
  rw [hall]
  exact sum_income_legs value _

end LedgerTotals

/-! ## The statement -/

namespace ProfitAndLoss

theorem value_of_addAll {factor : Decimal} {held : Holdings} {accounts : List AccountTotals}
    {sum : Amounts} {held' : Holdings} (h : (addAll factor held accounts).Exactly (sum, held'))
    (c : Currency) :
    (sum.get c).value = (accounts.map fun t => (t.converted.get c).value).sum ∧
      (held'.amount c).value = (held.amount c).value +
        (accounts.map fun t => (t.native.amount c).value).sum * factor.value := by
  have hstep : ∀ (acc : Amounts × Holdings) (t : AccountTotals) acc',
      (do
        let sum ← Amounts.add acc.1 t.converted
        let held ← Holdings.merge acc.2 t.native factor
        return (sum, held)).Exactly acc' →
      (Amounts.add acc.1 t.converted).Exactly acc'.1 ∧
        (Holdings.merge acc.2 t.native factor).Exactly acc'.2 := by
    intro acc t acc' hacc
    simp only [Calc.exactly_bind_iff, Calc.exactly_pure_iff] at hacc
    obtain ⟨sum, hsum, held, hheld, rfl⟩ := hacc
    exact ⟨hsum, hheld⟩
  have hsum := Calc.measure_foldlM
    (fun acc t acc' hacc => Amounts.value_of_add (hstep acc t acc' hacc).1 c) h
  have hheld := Calc.measure_foldlM
    (fun acc t acc' hacc => Holdings.value_of_merge (hstep acc t acc' hacc).2 c) h
  refine ⟨?_, ?_⟩
  · simpa using hsum
  · rw [hheld, List.sum_map_mul_right]

theorem netIncome_of_totals {entries : List Entry} {asOf : Instant} {age : Option Span}
    {statement : ProfitAndLoss} (h : (ofEntries entries asOf age).Exactly statement) :
    ∃ stated, (LedgerTotals.ofEntries entries isIncomeLeg).Exactly stated ∧
      ∀ c, (statement.netIncome.get c).value =
          stated.sumOfType (fun t => (t.converted.get c).value) .revenue -
            stated.sumOfType (fun t => (t.converted.get c).value) .expense ∧
        (statement.netNative.amount c).value =
          stated.sumOfType (fun t => (t.native.amount c).value) .revenue -
            stated.sumOfType (fun t => (t.native.amount c).value) .expense := by
  simp only [ofEntries, Calc.exactly_bind_iff, Calc.exactly_pure_iff] at h
  obtain ⟨stated, hstated, ⟨totalRevenue, earned⟩, hrevenue, ⟨totalExpenses, net⟩, hexpenses,
    start, -, netIncome, hnetIncome, rfl⟩ := h
  refine ⟨stated, hstated, fun c => ?_⟩
  obtain ⟨hconverted, hnative⟩ := value_of_addAll hrevenue c
  obtain ⟨hconverted', hnative'⟩ := value_of_addAll hexpenses c
  refine ⟨?_, ?_⟩
  · rw [Amounts.value_of_sub hnetIncome c, hconverted, hconverted']
    rfl
  · rw [hnative', hnative]
    simp [LedgerTotals.sumOfType, sub_eq_add_neg]

end ProfitAndLoss

/-! ## The two reports together -/

namespace BalanceSheet

variable {entries : List Entry} {asOf : Instant} {age : Option Span} {tolerance : Tolerance}
  {sheet : BalanceSheet}

/-- The retained earnings stand before the adjusting line, at the end of the equity section. -/
theorem Workings.equity_lines (w : Workings entries asOf age tolerance sheet) :
    sheet.equity.lines = w.owned.lines ++
      [⟨retainedAccount, w.retained.native, w.retained.converted, w.retained.converted.usd⟩,
        ⟨adjustmentAccount, .empty, .zero, sheet.revaluation⟩] := by
  obtain ⟨hadjusted, -, -⟩ := SheetSection.exactly_push w.equity_exact
  obtain ⟨hretained, -, -⟩ := SheetSection.exactly_push w.withRetained_exact
  rw [hadjusted, hretained, List.append_assoc]
  rfl

/--
The retained earnings of the sheet are the net income of the statement, less what was debited to
revenue and with what was credited to expenses, in each currency; and so is what their line holds.
Where revenue is only credited and expenses are only debited, the two reports agree.
-/
theorem retained_eq_netIncome_corrected {asOf' : Instant} {age' : Option Span}
    {statement : ProfitAndLoss} (hsheet : (ofEntries entries asOf age tolerance).Exactly sheet)
    (hstatement : (ProfitAndLoss.ofEntries entries asOf' age').Exactly statement) :
    ∃ others retained adjusting, sheet.equity.lines = others ++ [retained, adjusting] ∧
      retained.account = retainedAccount ∧ retained.historical = sheet.retainedEarnings ∧
      (∀ c, (sheet.retainedEarnings.get c).value =
        (statement.netIncome.get c).value -
          bookedOn (fun leg => leg.worthIn c) entries .revenue .debit +
          bookedOn (fun leg => leg.worthIn c) entries .expense .credit) ∧
      (∀ c, (retained.native.amount c).value =
        (statement.netNative.amount c).value -
          bookedOn (fun leg => leg.amountIn c) entries .revenue .debit +
          bookedOn (fun leg => leg.amountIn c) entries .expense .credit) ∧
      ((∀ leg ∈ entries.flatMap Entry.legs,
          (leg.account.type = .revenue → leg.side = .credit) ∧
            (leg.account.type = .expense → leg.side = .debit)) →
        ∀ c, (sheet.retainedEarnings.get c).value = (statement.netIncome.get c).value ∧
          (retained.native.amount c).value = (statement.netNative.amount c).value) := by
  obtain ⟨w⟩ := exists_workings hsheet
  obtain ⟨stated, hstated, hincome⟩ := ProfitAndLoss.netIncome_of_totals hstatement
  have hworth : ∀ c, (sheet.retainedEarnings.get c).value =
      (statement.netIncome.get c).value -
        bookedOn (fun leg => leg.worthIn c) entries .revenue .debit +
        bookedOn (fun leg => leg.worthIn c) entries .expense .credit := by
    intro c
    rw [w.retained_eq, Earnings.converted_of_folds w.revenue_exact w.retained_exact c,
      (hincome c).1]
    exact LedgerTotals.income_of_signed (fun leg => leg.worthIn c)
      (AccountTotals.additive_converted c) w.totals_exact hstated
  have hnative : ∀ c, (w.retained.native.amount c).value =
      (statement.netNative.amount c).value -
        bookedOn (fun leg => leg.amountIn c) entries .revenue .debit +
        bookedOn (fun leg => leg.amountIn c) entries .expense .credit := by
    intro c
    rw [Earnings.native_of_folds w.revenue_exact w.retained_exact c, (hincome c).2]
    exact LedgerTotals.income_of_signed (fun leg => leg.amountIn c)
      (AccountTotals.additive_native c) w.totals_exact hstated
  refine ⟨_, _, _, w.equity_lines, rfl, w.retained_eq.symm, hworth, hnative, ?_⟩
  intro hsides c
  have hrevenue : ∀ value, bookedOn value entries .revenue .debit = 0 := by
    intro value
    apply bookedOn_eq_zero
    rintro leg hleg ⟨htype, hside⟩
    cases ((hsides leg hleg).1 htype).symm.trans hside
  have hexpense : ∀ value, bookedOn value entries .expense .credit = 0 := by
    intro value
    apply bookedOn_eq_zero
    rintro leg hleg ⟨htype, hside⟩
    cases ((hsides leg hleg).2 htype).symm.trans hside
  refine ⟨?_, ?_⟩
  · rw [hworth, hrevenue, hexpense, sub_zero, add_zero]
  · rw [hnative, hrevenue, hexpense, sub_zero, add_zero]

private def incomeBooking (nanos : Int) (debit credit : Account) (hive usd : Decimal) : Entry :=
  let worth : Conversion := ⟨{ Amounts.zero with hive := hive, usd := usd }, .epoch, ""⟩
  { groupId := "", shortId := "", timestamp := ⟨nanos⟩, category := .adjustment
    description := "", userMemo := "", custId := "", debit := .ofLeg ⟨debit, hive, .hive, worth⟩
    credit := .ofLeg ⟨credit, hive, .hive, worth⟩, metadata := none, reversed := none
    reversalOf := none }

private def refundedLedger : List Entry :=
  let treasury := Account.plain .asset "Treasury" ""
  let fees := Account.plain .revenue "Fees" ""
  let costs := Account.plain .expense "Network" ""
  [incomeBooking 0 treasury fees (.ofByte 100) (.ofByte 50),
    incomeBooking 1 fees treasury (.ofByte 40) (.ofByte 20),
    incomeBooking 2 costs treasury (.ofByte 20) .ten,
    incomeBooking 3 treasury costs (.ofByte 6) (.ofByte 3)]

/-- The statement leaves out the refund of 20 dollars and the 3 dollars that came back. -/
theorem retained_after_refunds :
    ∃ sheet statement, (ofEntries refundedLedger ⟨4⟩ none .standard).Exactly sheet ∧
      (ProfitAndLoss.ofEntries refundedLedger ⟨4⟩ none).Exactly statement ∧
      (sheet.retainedEarnings.get .usd).value = (statement.netIncome.get .usd).value - 20 + 3 ∧
      ∃ retained ∈ sheet.equity.lines, retained.account = retainedAccount ∧
        (retained.native.amount .hive).value =
          (statement.netNative.amount .hive).value - 40 + 6 := by
  have hsheetExact : (ofEntries refundedLedger ⟨4⟩ none .standard).isExact = true := by
    decide +kernel
  have hstatementExact : (ProfitAndLoss.ofEntries refundedLedger ⟨4⟩ none).isExact = true := by
    decide +kernel
  obtain ⟨sheet, hsheet⟩ := Calc.exists_exactly hsheetExact
  obtain ⟨statement, hstatement⟩ := Calc.exists_exactly hstatementExact
  obtain ⟨others, retained, adjusting, hlines, haccount, -, hworth, hnative, -⟩ :=
    retained_eq_netIncome_corrected hsheet hstatement
  have hrefunds : bookedOn (fun leg => leg.worthIn .usd) refundedLedger .revenue .debit = 20 ∧
      bookedOn (fun leg => leg.worthIn .usd) refundedLedger .expense .credit = 3 := by
    decide +kernel
  have hmoved : bookedOn (fun leg => leg.amountIn .hive) refundedLedger .revenue .debit = 40 ∧
      bookedOn (fun leg => leg.amountIn .hive) refundedLedger .expense .credit = 6 := by
    decide +kernel
  refine ⟨sheet, statement, hsheet, hstatement, ?_, retained, ?_, haccount, ?_⟩
  · rw [hworth, hrefunds.1, hrefunds.2]
  · simp [hlines]
  · rw [hnative, hmoved.1, hmoved.2]

end BalanceSheet

end DoubleEntry
