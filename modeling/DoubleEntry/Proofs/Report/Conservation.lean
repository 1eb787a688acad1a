import DoubleEntry.Proofs.Report.SheetIdentity

/-!
# Conservation through the sheet

What is booked on debit sides more than on credit sides is still there on the
finished sheet: as holdings in each currency and as historical conversions. Legs
on revenue and expense accounts take another way than the others, through the
retained earnings; both ways keep the net. Nothing is said about dollars at spot
rates, which are not conserved.
-/

namespace DoubleEntry

/-! ## What is booked -/

def Entry.amountOn (e : Entry) (side : Side) (c : Currency) : Rat :=
  if (e.posting side).account.isSome ∧ (e.posting side).currency = c then
    (e.posting side).amount.value
  else 0

theorem Entry.figureOn_amount (e : Entry) (side : Side) (c : Currency) :
    e.figureOn side (fun leg => if c = leg.currency then leg.amount.value else 0) =
      e.amountOn side c := by
  unfold figureOn amountOn Posting.leg?
  cases (e.posting side).account <;> simp [eq_comm]

theorem sum_sides (f : Entry → Side → Rat) (entries : List Entry) :
    (entries.map fun e => f e .debit - f e .credit).sum =
      (entries.map fun e => f e .debit).sum - (entries.map fun e => f e .credit).sum := by
  induction entries with
  | nil => simp
  | cons e rest ih =>
      simp only [List.map_cons, List.sum_cons, ih]
      ring

/-! ## Totals -/

theorem AccountTotals.additive_native (c : Currency) :
    AccountTotals.Additive (fun t => (t.native.amount c).value)
      (fun leg => (if c = leg.currency then leg.amount.value else 0) * leg.sign.value) where
  empty account := by simp [AccountTotals.empty]
  addLeg t leg t' h := by
    obtain ⟨amount, amounts, hamount, hnative, -⟩ := AccountTotals.exactly_addLeg h
    have hvalue : amount.value = leg.amount.value * leg.sign.value := Decimal.value_of_mul hamount
    rw [Holdings.value_of_addTo hnative c, hvalue, ite_mul, zero_mul]

namespace LedgerTotals

/-- The holdings of all accounts, those that grow by credits counted down. -/
def netHoldings (totals : LedgerTotals) : Calc Holdings :=
  totals.foldlM
    (fun held p =>
      Holdings.merge held p.2.native (if p.1.normalSide = .debit then .one else .minusOne))
    Holdings.empty

theorem net_native {entries : List Entry} {totals : LedgerTotals}
    (h : (ofEntries entries fun _ => true).Exactly totals) (c : Currency) :
    net (fun t => (t.native.amount c).value) totals =
      (entries.map fun e => e.amountOn .debit c).sum -
        (entries.map fun e => e.amountOn .credit c).sum := by
  rw [net_of_signed (fun leg => if c = leg.currency then leg.amount.value else 0)
    (AccountTotals.additive_native c) h, ← sum_sides fun e side => e.amountOn side c]
  simp only [Entry.figureOn_amount]

/-- Merging the holdings of totals nets them, whatever the totals are. -/
theorem value_of_netHoldings {totals : LedgerTotals} {held : Holdings} (hfit : totals.KeysFit)
    (h : totals.netHoldings.Exactly held) (c : Currency) :
    (held.amount c).value = totals.net fun t => (t.native.amount c).value := by
  have hstep : ∀ (held : Holdings) (p : Account × AccountTotals) held',
      (Holdings.merge held p.2.native
        (if p.1.normalSide = .debit then .one else .minusOne)).Exactly held' →
      (held'.amount c).value =
        (held.amount c).value + p.1.type.weight * (p.2.native.amount c).value := by
    intro held p held' hmerge
    rw [Holdings.value_of_merge hmerge c, mul_comm]
    unfold AccountType.weight Account.normalSide
    cases p.1.type.normalSide <;> simp [Side.weight]
  rw [Calc.measure_foldlM hstep h, Holdings.amount_empty, Decimal.value_zero, zero_add, net]
  congr 1
  apply List.map_congr_left
  intro p hp
  rw [hfit p hp]

end LedgerTotals

/-! ## Sections and earnings -/

namespace SheetSection

/-- What the lines of a section hold of a currency. -/
def held (s : SheetSection) (c : Currency) : Rat :=
  (s.lines.map fun line => (line.native.amount c).value).sum

theorem held_push {s s' : SheetSection} {line : SheetLine} (h : (s.push line).Exactly s')
    (c : Currency) : s'.held c = s.held c + (line.native.amount c).value := by
  obtain ⟨hlines, -, -⟩ := exactly_push h
  simp [held, hlines]

theorem totalHistorical_push {s s' : SheetSection} {line : SheetLine}
    (h : (s.push line).Exactly s') (c : Currency) :
    (s'.totalHistorical.get c).value =
      (s.totalHistorical.get c).value + (line.historical.get c).value := by
  obtain ⟨-, -, hhistorical⟩ := exactly_push h
  exact Amounts.value_of_add hhistorical c

/-- A figure to which each line adds its own is added up over the accounts of a section. -/
theorem value_of_ofTotals (measure : SheetSection → Rat) (added : AccountTotals → Rat)
    (hempty : measure empty = 0)
    (hpush : ∀ s t spotUsd s',
      (push s ⟨t.account, t.native, t.converted, spotUsd⟩).Exactly s' →
      measure s' = measure s + added t)
    {rates : SpotRates} {totals : List AccountTotals} {s : SheetSection}
    (h : (ofTotals rates totals).Exactly s) : measure s = (totals.map added).sum := by
  have hstep : ∀ s t s', (do let line ← SheetLine.ofTotals rates t; s.push line).Exactly s' →
      measure s' = measure s + added t := by
    intro s t s' hline
    simp only [SheetLine.ofTotals, Calc.exactly_bind_iff, Calc.exactly_pure_iff] at hline
    obtain ⟨line, ⟨spotUsd, -, rfl⟩, hs'⟩ := hline
    exact hpush s t spotUsd s' hs'
  rw [Calc.measure_foldlM hstep h, hempty, zero_add]

theorem held_ofTotals {rates : SpotRates} {totals : List AccountTotals} {s : SheetSection}
    (h : (ofTotals rates totals).Exactly s) (c : Currency) :
    s.held c = (totals.map fun t => (t.native.amount c).value).sum :=
  value_of_ofTotals (fun s => s.held c) _ (by simp [held, empty])
    (fun _ _ _ _ hpush => held_push hpush c) h

theorem totalHistorical_ofTotals {rates : SpotRates} {totals : List AccountTotals}
    {s : SheetSection} (h : (ofTotals rates totals).Exactly s) (c : Currency) :
    (s.totalHistorical.get c).value = (totals.map fun t => (t.converted.get c).value).sum :=
  value_of_ofTotals (fun s => (s.totalHistorical.get c).value) _ (by simp [empty])
    (fun _ _ _ _ hpush => totalHistorical_push hpush c) h

end SheetSection

theorem Earnings.native_of_folds {totals : LedgerTotals} {revenue retained : Earnings}
    (hrevenue : ((totals.ofType .revenue).foldlM addRevenue none).Exactly revenue)
    (hexpense : ((totals.ofType .expense).foldlM addExpense revenue).Exactly retained)
    (c : Currency) :
    (retained.native.amount c).value =
      totals.sumOfType (fun t => (t.native.amount c).value) .revenue -
        totals.sumOfType (fun t => (t.native.amount c).value) .expense := by
  refine value_of_folds (fun earned => (earned.native.amount c).value) _ (by simp [none])
    ?_ ?_ hrevenue hexpense
  · intro earned t earned' h
    simp only [addRevenue, Calc.exactly_bind_iff, Calc.exactly_pure_iff] at h
    obtain ⟨native, hnative, converted, -, rfl⟩ := h
    simpa using Holdings.value_of_merge hnative c
  · intro earned t earned' h
    simp only [addExpense, Calc.exactly_bind_iff, Calc.exactly_pure_iff] at h
    obtain ⟨native, hnative, converted, -, rfl⟩ := h
    simpa using Holdings.value_of_merge hnative c

/-! ## The sheet -/

namespace BalanceSheet

variable {entries : List Entry} {asOf : Instant} {age : Option Span} {tolerance : Tolerance}
  {sheet : BalanceSheet}

/-- The retained earnings and the adjusting line add to equity what the earnings hold. -/
theorem Workings.held_equity (w : Workings entries asOf age tolerance sheet) (c : Currency) :
    sheet.equity.held c = w.owned.held c + (w.retained.native.amount c).value := by
  rw [SheetSection.held_push w.equity_exact, SheetSection.held_push w.withRetained_exact]
  simp

theorem Workings.totalHistorical_equity (w : Workings entries asOf age tolerance sheet)
    (c : Currency) :
    (sheet.equity.totalHistorical.get c).value =
      (w.owned.totalHistorical.get c).value + (w.retained.converted.get c).value := by
  rw [SheetSection.totalHistorical_push w.equity_exact,
    SheetSection.totalHistorical_push w.withRetained_exact]
  simp

theorem Workings.held_eq_net (w : Workings entries asOf age tolerance sheet) (c : Currency) :
    sheet.assets.held c - sheet.liabilities.held c - sheet.equity.held c =
      w.totals.net fun t => (t.native.amount c).value := by
  have hretained := Earnings.native_of_folds w.revenue_exact w.retained_exact c
  rw [w.held_equity, SheetSection.held_ofTotals w.assets_exact,
    SheetSection.held_ofTotals w.liabilities_exact, SheetSection.held_ofTotals w.owned_exact,
    hretained, LedgerTotals.net_eq_sumOfType]
  simp only [LedgerTotals.sumOfType]
  ring

theorem Workings.totalHistorical_eq_net (w : Workings entries asOf age tolerance sheet)
    (c : Currency) :
    (sheet.assets.totalHistorical.get c).value - (sheet.liabilities.totalHistorical.get c).value -
        (sheet.equity.totalHistorical.get c).value =
      w.totals.net fun t => (t.converted.get c).value := by
  have hretained := Earnings.converted_of_folds w.revenue_exact w.retained_exact c
  rw [w.totalHistorical_equity, SheetSection.totalHistorical_ofTotals w.assets_exact,
    SheetSection.totalHistorical_ofTotals w.liabilities_exact,
    SheetSection.totalHistorical_ofTotals w.owned_exact, hretained,
    LedgerTotals.net_eq_sumOfType]
  simp only [LedgerTotals.sumOfType]
  ring

/--
Double entry is conserved. In every currency the lines of an exact sheet hold, assets less
liabilities less equity, what was booked on debit sides less what was booked on credit sides; the
historical totals of its sections do the same for the conversions; and the merged holdings of all
accounts, which need no sheet, hold that net too.
-/
theorem conserved (entries : List Entry) :
    (∀ asOf age tolerance sheet, (ofEntries entries asOf age tolerance).Exactly sheet →
      (∀ c, sheet.assets.held c - sheet.liabilities.held c - sheet.equity.held c =
        (entries.map fun e => e.amountOn .debit c).sum -
          (entries.map fun e => e.amountOn .credit c).sum) ∧
      ∀ c, (sheet.assets.totalHistorical.get c).value -
          (sheet.liabilities.totalHistorical.get c).value -
          (sheet.equity.totalHistorical.get c).value =
        (entries.map fun e => e.valueOn .debit c).sum -
          (entries.map fun e => e.valueOn .credit c).sum) ∧
    ∀ totals held, (LedgerTotals.ofEntries entries fun _ => true).Exactly totals →
      totals.netHoldings.Exactly held →
      ∀ c, (held.amount c).value =
        (entries.map fun e => e.amountOn .debit c).sum -
          (entries.map fun e => e.amountOn .credit c).sum := by
  refine ⟨?_, ?_⟩
  · intro asOf age tolerance sheet h
    obtain ⟨w⟩ := exists_workings h
    refine ⟨fun c => ?_, fun c => ?_⟩
    · rw [w.held_eq_net, LedgerTotals.net_native w.totals_exact]
    · rw [w.totalHistorical_eq_net, LedgerTotals.net_converted w.totals_exact,
        ← sum_sides fun e side => e.valueOn side c]
      rfl
  · intro totals held htotals hheld c
    rw [LedgerTotals.value_of_netHoldings (LedgerTotals.keysFit_ofEntries htotals) hheld,
      LedgerTotals.net_native htotals]

private def mixedLeg (account : Account) (amount : Decimal) (currency : Currency)
    (usd : Decimal) : Leg :=
  ⟨account, amount, currency, ⟨{ Amounts.zero with hive := amount, usd := usd }, .epoch, ""⟩⟩

private def mixedEntry (nanos : Int) (debit credit : Posting) : Entry :=
  { groupId := "", shortId := "", timestamp := ⟨nanos⟩, category := .adjustment
    description := "", userMemo := "", custId := "", debit := debit, credit := credit
    metadata := none, reversed := none, reversalOf := none }

/-- A deposit, a fee taken in HIVE and booked in HBD, an expense, and a side that stays open. -/
private def mixedLedger : List Entry :=
  let treasury := Account.plain .asset "Treasury" ""
  let customer := Account.plain .liability "Customer" "alice"
  [mixedEntry 0 (.ofLeg (mixedLeg treasury (.ofNat 80) .hive (.ofNat 16)))
      (.ofLeg (mixedLeg customer (.ofNat 80) .hive (.ofNat 16))),
    mixedEntry 1 (.ofLeg (mixedLeg customer .ten .hive (.ofNat 2)))
      (.ofLeg (mixedLeg (.plain .revenue "Fees" "") (.ofNat 20) .hbd (.ofNat 2))),
    mixedEntry 2 (.ofLeg (mixedLeg (.plain .expense "Network" "") (.ofNat 4) .hbd .one))
      (.ofLeg (mixedLeg treasury (.ofNat 4) .hbd .one)),
    mixedEntry 3 (.ofLeg (mixedLeg treasury .one .hbd .one))
      (.unset (.zero .epoch ""))]

/-- One side is open and one entry changes the currency, so there is something left over. -/
theorem conserved_over_mixed_ledger :
    ∃ sheet totals held, (ofEntries mixedLedger ⟨4⟩ none .standard).Exactly sheet ∧
      (LedgerTotals.ofEntries mixedLedger fun _ => true).Exactly totals ∧
      totals.netHoldings.Exactly held ∧
      sheet.assets.held .hbd - sheet.liabilities.held .hbd - sheet.equity.held .hbd = -19 ∧
      (sheet.assets.totalHistorical.get .usd).value -
        (sheet.liabilities.totalHistorical.get .usd).value -
        (sheet.equity.totalHistorical.get .usd).value = 1 ∧
      (held.amount .hbd).value = -19 := by
  have hexact : (ofEntries mixedLedger ⟨4⟩ none .standard).isExact = true := by decide +kernel
  have hmerged : (do
      let totals ← LedgerTotals.ofEntries mixedLedger fun _ => true
      totals.netHoldings).isExact = true := by
    decide +kernel
  obtain ⟨sheet, hsheet⟩ := Calc.exists_exactly hexact
  obtain ⟨held, hrun⟩ := Calc.exists_exactly hmerged
  obtain ⟨totals, htotals, hheld⟩ := (Calc.exactly_bind_iff _ _ _).1 hrun
  obtain ⟨honSheet, honMerged⟩ := conserved mixedLedger
  obtain ⟨hnative, hhistorical⟩ := honSheet _ _ _ _ hsheet
  have hhbd : (mixedLedger.map fun e => e.amountOn .debit .hbd).sum -
      (mixedLedger.map fun e => e.amountOn .credit .hbd).sum = -19 := by
    decide +kernel
  have husd : (mixedLedger.map fun e => e.valueOn .debit .usd).sum -
      (mixedLedger.map fun e => e.valueOn .credit .usd).sum = 1 := by
    decide +kernel
  refine ⟨sheet, totals, held, hsheet, htotals, hheld, ?_, ?_, ?_⟩
  · rw [hnative, hhbd]
  · rw [hhistorical, husd]
  · rw [honMerged totals held htotals hheld, hhbd]

end BalanceSheet

end DoubleEntry
