import DoubleEntry.Report.AccountBalance
import DoubleEntry.Report.ProfitAndLoss
import DoubleEntry.Text.Layout
import DoubleEntry.Time.Stamp

/-!
# Printed reports

Each report as lines of text. Amounts are rounded to the places of their
currency. A figure that is too wide to print faults the whole printout.
-/

namespace DoubleEntry

namespace Printout

open Text

def width : Nat := 100

def amount (x : Decimal) (c : Currency) : Calc String :=
  x.fixed c.places

def column (columns : Nat) (x : Decimal) (c : Currency) : Calc String :=
  alignRight columns <$> amount x c

/-- Holdings that are not zero, with their currencies. -/
def natives (held : Holdings) : Calc String := do
  let shown := held.entries.filter fun (_, x) => !x.isZero
  let parts ← shown.mapM fun (c, x) => do
    let figure ← amount x c
    return figure ++ " " ++ c.code
  return ", ".intercalate parts

def period (start : Option Instant) (asOf : Instant) : String :=
  match start with
  | some start => start.stampToMinute ++ " to " ++ asOf.stampToMinute
  | none => "as of " ++ asOf.stampToMinute

/-! ## Balance sheet -/

/-- The name of an account, with its sub-account in brackets. -/
def lineLabel (a : Account) : String :=
  if a.sub.isEmpty then a.name else a.name ++ " (" ++ a.sub ++ ")"

def sheetTotal (label : String) (usd : Decimal) : Calc String := do
  let figure ← column 14 usd .usd
  return "  " ++ alignLeft 44 label ++ " " ++ figure ++ " USD"

def sheetLine (line : SheetLine) : Calc String := do
  let total ← sheetTotal (lineLabel line.account) line.spotUsd
  let held ← natives line.native
  return total ++ "   " ++ held

def sheetSection (title : String) (s : SheetSection) : Calc (List String) := do
  let lines ← s.lines.mapM sheetLine
  let total ← sheetTotal ("Total " ++ title) s.totalUsd
  return title :: lines ++ [total]

def spotLine (sheet : BalanceSheet) : String :=
  "Spot: HIVE " ++ (sheet.spotRates.hiveUsd.roundTo 4).text ++ " USD, HBD " ++
    (sheet.spotRates.hbdUsd.roundTo 4).text ++ " USD, BTC " ++
    (sheet.spotRates.btcUsd.roundTo 2).text ++ " USD (" ++ toString sheet.entryCount ++
    " entries)"

def verdictLine (sheet : BalanceSheet) : Calc String :=
  if sheet.isBalanced then pure "Balanced"
  else do
    let gap ← amount sheet.discrepancy .usd
    return "NOT BALANCED: discrepancy " ++ gap ++ " USD"

def balanceSheet (sheet : BalanceSheet) : Calc (List String) := do
  let assets ← sheetSection "Assets" sheet.assets
  let liabilities ← sheetSection "Liabilities" sheet.liabilities
  let equity ← sheetSection "Equity" sheet.equity
  let total ← sheetTotal "Total Liabilities and Equity" sheet.totalLiabilitiesAndEquity
  let verdict ← verdictLine sheet
  return [rule width '=', "Balance Sheet " ++ period sheet.start sheet.asOf, spotLine sheet,
     rule width '-'] ++
    assets ++ [rule width '-'] ++ liabilities ++ [rule width '-'] ++ equity ++
    [rule width '-', total, verdict, rule width '=']

/-! ## Profit and loss -/

def incomeFigures (a : Amounts) : Calc String := do
  let usd ← column 14 a.usd .usd
  let sats ← column 14 a.sats .sats
  return usd ++ " USD " ++ sats ++ " SATS"

def incomeLine (t : AccountTotals) : Calc String := do
  let figures ← incomeFigures t.converted
  let held ← natives t.native
  let label := if t.account.sub.isEmpty then "-" else t.account.sub
  return "    " ++ alignLeft 40 label ++ " " ++ figures ++ "   " ++ held

/-- The lines of some accounts, each name written above the first account that has it. -/
def incomeLines (previous : String) : List AccountTotals → Calc (List String)
  | [] => pure []
  | t :: rest => do
    let heading := if t.account.name = previous then [] else ["  " ++ t.account.name]
    let line ← incomeLine t
    let others ← incomeLines t.account.name rest
    return heading ++ line :: others

def incomeBlock (title : String) (accounts : List AccountTotals) (total : Amounts) :
    Calc (List String) := do
  let lines ← incomeLines "" accounts
  let figures ← incomeFigures total
  return title :: lines ++ ["  " ++ alignLeft 42 ("Total " ++ title) ++ " " ++ figures]

def netLine (report : ProfitAndLoss) (c : Currency) : Calc String := do
  let figure ← column 20 (report.netIncome.get c) c
  return "  " ++ figure ++ " " ++ c.code

/-- Net income by currency held, when anything was. -/
def netNativeLines (report : ProfitAndLoss) : Calc (List String) :=
  if Holdings.isEmpty report.netNative then pure []
  else do
    let held ← natives report.netNative
    return ["  native: " ++ held]

def profitAndLoss (report : ProfitAndLoss) : Calc (List String) := do
  let revenue ← incomeBlock "Revenue" report.revenue report.totalRevenue
  let expenses ← incomeBlock "Expenses" report.expenses report.totalExpenses
  let net ← Currency.displayed.mapM (netLine report)
  let held ← netNativeLines report
  return [rule width '=', "Profit and Loss " ++ period report.start report.asOf, rule width '-'] ++
    revenue ++ [rule width '-'] ++ expenses ++ [rule width '-', "Net Income"] ++ net ++
    held ++ [rule width '=']

/-! ## Account statement -/

def balanceTitle (b : AccountBalance) : String :=
  b.account.type.name ++ ": " ++ b.account.name ++
    match b.sub with
    | some sub => " - " ++ sub
    | none => ""

def balanceLine (line : BalanceLine) : Calc String := do
  let figure ← column 18 line.amountSigned line.currency
  let running ← column 18 line.runningBalance line.currency
  return line.timestamp.stampToSecond ++ " " ++ line.category.icon ++ " " ++
    alignLeft 10 line.shortId ++ " " ++ line.side.name ++ " " ++ figure ++ " " ++
    line.currency.code ++ " " ++ running ++ "  " ++ line.description

def heldLine (b : AccountBalance) (c : Currency) (total : Decimal) : Calc String := do
  let figure ← column 20 total c
  let usd ← column 14 (b.currencyConvertedIn c .usd) .usd
  return "  Balance " ++ figure ++ " " ++ c.code ++ " " ++ usd ++ " USD"

def valueLine (c : Currency) (total : Decimal) : Calc String := do
  let figure ← column 20 total c
  return "  Value   " ++ figure ++ " " ++ c.code

def accountBalance (b : AccountBalance) : Calc (List String) := do
  let lines ← b.lines.mapM balanceLine
  let held ← (Holdings.entries b.balances).mapM fun (c, total) => heldLine b c total
  let values ← (Holdings.entries b.convertedSummary).mapM fun (c, total) => valueLine c total
  return [rule width '=', balanceTitle b, period none b.asOf, rule width '-'] ++ lines ++
    [rule width '-'] ++ held ++ values ++ [rule width '=']

end Printout

def BalanceSheet.text (sheet : BalanceSheet) : Calc String :=
  Text.ofLines <$> Printout.balanceSheet sheet

def ProfitAndLoss.text (report : ProfitAndLoss) : Calc String :=
  Text.ofLines <$> Printout.profitAndLoss report

def AccountBalance.text (b : AccountBalance) : Calc String :=
  Text.ofLines <$> Printout.accountBalance b

end DoubleEntry
