import DoubleEntry.Report.SpotRates
import DoubleEntry.Report.Totals
import DoubleEntry.Tolerance

/-!
# The balance sheet

Assets, liabilities and equity accounts are valued at spot rates, retained
earnings at the conversions of the time. The difference that this makes is booked
to an adjusting line of its own, so that assets equal liabilities and equity.
-/

namespace DoubleEntry

/-- One account on the sheet. -/
structure SheetLine where
  account : Account
  native : Holdings
  /-- Each leg at its own conversion. -/
  historical : Amounts
  /-- The holdings at spot rates. -/
  spotUsd : Decimal
deriving BEq, Repr

namespace SheetLine

def ofTotals (rates : SpotRates) (t : AccountTotals) : Calc SheetLine := do
  let spotUsd ← rates.usdOf t.native
  return ⟨t.account, t.native, t.converted, spotUsd⟩

/-- What valuing at spot rates adds. -/
def revaluation (line : SheetLine) : Calc Decimal :=
  line.spotUsd.sub line.historical.usd

end SheetLine

/-- A part of the sheet with its totals. -/
structure SheetSection where
  lines : List SheetLine
  totalUsd : Decimal
  totalHistorical : Amounts
deriving BEq, Repr

namespace SheetSection

def empty : SheetSection :=
  ⟨[], .zero, .zero⟩

def isEmpty (s : SheetSection) : Bool :=
  s.lines.isEmpty

def push (s : SheetSection) (line : SheetLine) : Calc SheetSection := do
  let totalUsd ← s.totalUsd.add line.spotUsd
  let totalHistorical ← Amounts.add s.totalHistorical line.historical
  return ⟨s.lines ++ [line], totalUsd, totalHistorical⟩

def ofTotals (rates : SpotRates) (totals : List AccountTotals) : Calc SheetSection :=
  totals.foldlM
    (fun s t => do
      let line ← SheetLine.ofTotals rates t
      s.push line)
    empty

def revaluation (s : SheetSection) : Calc Decimal :=
  Decimal.sumOf SheetLine.revaluation s.lines

end SheetSection

/-- Revenue less expenses, by currency held and at historical conversions. -/
structure Earnings where
  native : Holdings
  converted : Amounts
deriving BEq, Repr

namespace Earnings

def none : Earnings :=
  ⟨.empty, .zero⟩

def addRevenue (earned : Earnings) (t : AccountTotals) : Calc Earnings := do
  let native ← Holdings.merge earned.native t.native .one
  let converted ← Amounts.add earned.converted t.converted
  return ⟨native, converted⟩

def addExpense (earned : Earnings) (t : AccountTotals) : Calc Earnings := do
  let native ← Holdings.merge earned.native t.native .minusOne
  let converted ← Amounts.sub earned.converted t.converted
  return ⟨native, converted⟩

end Earnings

structure BalanceSheet where
  asOf : Instant
  /-- Where the scanned window starts, when an age was given. -/
  start : Option Instant
  entryCount : Nat
  spotRates : SpotRates
  assets : SheetSection
  liabilities : SheetSection
  /-- Equity accounts, then retained earnings, then the adjusting line. -/
  equity : SheetSection
  retainedEarnings : Amounts
  /-- What valuing at spot rates adds to assets less liabilities and equity. -/
  revaluation : Decimal
  totalLiabilitiesAndEquity : Decimal
  isBalanced : Bool
  /-- Assets less liabilities and equity, in dollars. -/
  discrepancy : Decimal
deriving BEq, Repr

/-- The start of a window of some age, when an age is given. -/
def Instant.windowStart (asOf : Instant) : Option Span → Calc (Option Instant)
  | none => pure none
  | some age => some <$> asOf.minus age

namespace BalanceSheet

/-- The account under which revenue less expenses is shown. -/
def retainedAccount : Account :=
  .plain .equity "Retained Earnings" ""

def adjustmentAccount : Account :=
  .plain .equity "CTA" ""

/-- The sheet of entries that are already narrowed to the reporting window. -/
def ofEntries (entries : List Entry) (asOf : Instant) (age : Option Span)
    (tolerance : Tolerance) : Calc BalanceSheet := do
  let rates ← SpotRates.latest entries
  let totals ← LedgerTotals.ofEntries entries fun _ => true
  let assets ← SheetSection.ofTotals rates (totals.ofType .asset)
  let liabilities ← SheetSection.ofTotals rates (totals.ofType .liability)
  let owned ← SheetSection.ofTotals rates (totals.ofType .equity)
  let revenue ← (totals.ofType .revenue).foldlM Earnings.addRevenue Earnings.none
  let retained ← (totals.ofType .expense).foldlM Earnings.addExpense revenue
  let assetsDelta ← assets.revaluation
  let liabilitiesDelta ← liabilities.revaluation
  let netDelta ← assetsDelta.sub liabilitiesDelta
  let ownedDelta ← owned.revaluation
  let adjustment ← netDelta.sub ownedDelta
  let withRetained ← owned.push
    ⟨retainedAccount, retained.native, retained.converted, retained.converted.usd⟩
  let equity ← withRetained.push ⟨adjustmentAccount, .empty, .zero, adjustment⟩
  let total ← liabilities.totalUsd.add equity.totalUsd
  let discrepancy ← assets.totalUsd.sub total
  let isBalanced ← assets.totalUsd.isClose total tolerance.sheetRelative tolerance.absolute.usd
  let start ← asOf.windowStart age
  return {
    asOf := asOf
    start := start
    entryCount := entries.length
    spotRates := rates
    assets := assets
    liabilities := liabilities
    equity := equity
    retainedEarnings := retained.converted
    revaluation := adjustment
    totalLiabilitiesAndEquity := total
    isBalanced := isBalanced
    discrepancy := discrepancy }

end BalanceSheet

end DoubleEntry
