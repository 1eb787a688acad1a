import DoubleEntry.Report.BalanceSheet

/-!
# Profit and loss

Revenue and expenses over a window at the conversions of the time. Only credits
to revenue and debits to expenses count.
-/

namespace DoubleEntry

structure ProfitAndLoss where
  asOf : Instant
  start : Option Instant
  /-- By account name, then sub-account. -/
  revenue : List AccountTotals
  expenses : List AccountTotals
  totalRevenue : Amounts
  totalExpenses : Amounts
  netIncome : Amounts
  /-- Net income by the currencies it was held in. -/
  netNative : Holdings
deriving BEq, Repr

namespace ProfitAndLoss

def isIncomeLeg (leg : BookedLeg) : Bool :=
  (leg.account.type == .revenue && leg.side == .credit) ||
    (leg.account.type == .expense && leg.side == .debit)

def addAll (factor : Decimal) (held : Holdings) (accounts : List AccountTotals) :
    Calc (Amounts × Holdings) :=
  accounts.foldlM
    (fun (sum, held) t => do
      let sum ← Amounts.add sum t.converted
      let held ← Holdings.merge held t.native factor
      return (sum, held))
    (.zero, held)

/-- The statement of entries that are already narrowed to the reporting window. -/
def ofEntries (entries : List Entry) (asOf : Instant) (age : Option Span) :
    Calc ProfitAndLoss := do
  let totals ← LedgerTotals.ofEntries entries isIncomeLeg
  let revenue := totals.ofType .revenue
  let expenses := totals.ofType .expense
  let (totalRevenue, earned) ← addAll .one .empty revenue
  let (totalExpenses, net) ← addAll .minusOne earned expenses
  let start ← asOf.windowStart age
  let netIncome ← Amounts.sub totalRevenue totalExpenses
  return {
    asOf := asOf
    start := start
    revenue := revenue
    expenses := expenses
    totalRevenue := totalRevenue
    totalExpenses := totalExpenses
    netIncome := netIncome
    netNative := net }

end ProfitAndLoss

end DoubleEntry
