import DoubleEntry.Report.AccountBalance
import DoubleEntry.Report.ProfitAndLoss
import DoubleEntry.Store.Session

/-!
# Reports of a stored ledger

Each report fetches the live entries of its window and is made from them. It is
counted as soon as it is begun, whatever becomes of it.
-/

namespace DoubleEntry

open Operation

def BalanceSheet.generate (asOf : Instant) (age : Option Span) (tolerance : Tolerance) :
    Operation BalanceSheet := do
  countReport .balanceSheet
  let q ← calculate (EntryQuery.window asOf age)
  let entries ← fetchEntries q
  let sheet ← calculate (BalanceSheet.ofEntries entries asOf age tolerance)
  journal [if sheet.isBalanced then .sheetBalanced else .sheetUnbalanced]
  return sheet

def ProfitAndLoss.generate (asOf : Instant) (age : Option Span) : Operation ProfitAndLoss := do
  countReport .profitAndLoss
  let q ← calculate (EntryQuery.window asOf age)
  let entries ← fetchEntries q
  let report ← calculate (ProfitAndLoss.ofEntries entries asOf age)
  journal [.profitAndLossMade]
  return report

/-- The statement of an account up to a time; only entries on the account are fetched. -/
def AccountBalance.generate (account : Account) (sub : Option String) (asOf : Instant) :
    Operation AccountBalance := do
  countReport .accountBalance
  let q := { EntryQuery.upTo asOf with account := some (.ofAccount account sub) }
  let entries ← fetchEntries q
  let balance ← calculate (AccountBalance.ofEntries entries account sub asOf)
  journal [.accountBalanceMade]
  return balance

end DoubleEntry
