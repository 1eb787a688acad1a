import DoubleEntry.Report.Printout

/-!
# The parts of a printed report

A printout is the same lines whatever its figures are written like. So each report has
a layout, which says of every line what words it has and which figures stand between
them, and printing a report is printing the parts of its layout in order. How figures
are written, and whether there is room for them, is then a matter of single parts.
-/

namespace DoubleEntry

namespace Printout

open Text

inductive Part where
  | words (text : String)
  /-- An amount in a column of so many characters. -/
  | amount (columns : Nat) (x : Decimal) (c : Currency)
  /-- The amounts that are not zero. -/
  | holdings (held : Holdings)
  /-- A price, which is rounded but not filled up with zeros. -/
  | rate (places : Nat) (x : Decimal)

def Part.text : Part → Calc String
  | .words text => pure text
  | .amount columns x c => column columns x c
  | .holdings held => natives held
  | .rate places x => pure (x.roundTo places).text

def lineText : List Part → Calc String
  | [] => pure ""
  | part :: rest => do
    let first ← part.text
    let others ← lineText rest
    return first ++ others

abbrev Layout := List (List Part)

def Layout.text (layout : Layout) : Calc (List String) :=
  layout.mapM lineText

def plain (text : String) : List Part :=
  [.words text]

namespace Layout

variable (l l' : Layout) (line : List Part)

theorem text_nil : text [] = pure [] :=
  rfl

theorem text_cons : text (line :: l) = do
    let first ← lineText line
    let others ← text l
    return first :: others :=
  List.mapM_cons

theorem text_append : text (l ++ l') = do
    let first ← text l
    let others ← text l'
    return first ++ others :=
  List.mapM_append

theorem text_map (parts : α → List Part) (xs : List α) :
    text (xs.map parts) = xs.mapM fun x => lineText (parts x) :=
  List.mapM_map

end Layout

theorem lineText_plain (text : String) : lineText (plain text) = pure text := by
  simp only [plain, lineText, Part.text, pure_bind, String.append_empty]

theorem lineText_append (parts parts' : List Part) : lineText (parts ++ parts') = do
    let first ← lineText parts
    let others ← lineText parts'
    return first ++ others := by
  induction parts with
  | nil => simp only [List.nil_append, lineText, pure_bind, String.empty_append, bind_pure]
  | cons part rest ih =>
      simp only [List.cons_append, lineText, ih, bind_assoc, pure_bind, String.append_assoc]

theorem column_zero (x : Decimal) (c : Currency) : column 0 x c = amount x c := by
  have hself : alignRight 0 = id := by
    funext text
    simp [alignRight]
  rw [column, hself, id_map]

/-! ## Balance sheet -/

def sheetTotalParts (label : String) (usd : Decimal) : List Part :=
  [.words ("  " ++ alignLeft 44 label ++ " "), .amount 14 usd .usd, .words " USD"]

def sheetLineParts (line : SheetLine) : List Part :=
  sheetTotalParts (lineLabel line.account) line.spotUsd ++ [.words "   ", .holdings line.native]

def sectionLayout (title : String) (s : SheetSection) : Layout :=
  plain title :: s.lines.map sheetLineParts ++ [sheetTotalParts ("Total " ++ title) s.totalUsd]

def spotParts (sheet : BalanceSheet) : List Part :=
  [.words "Spot: HIVE ", .rate 4 sheet.spotRates.hiveUsd,
    .words " USD, HBD ", .rate 4 sheet.spotRates.hbdUsd,
    .words " USD, BTC ", .rate 2 sheet.spotRates.btcUsd,
    .words (" USD (" ++ toString sheet.entryCount ++ " entries)")]

def verdictParts (sheet : BalanceSheet) : List Part :=
  if sheet.isBalanced then plain "Balanced"
  else [.words "NOT BALANCED: discrepancy ", .amount 0 sheet.discrepancy .usd, .words " USD"]

def sheetLayout (sheet : BalanceSheet) : Layout :=
  [plain (rule width '='), plain ("Balance Sheet " ++ period sheet.start sheet.asOf),
      spotParts sheet, plain (rule width '-')] ++
    sectionLayout "Assets" sheet.assets ++ [plain (rule width '-')] ++
    sectionLayout "Liabilities" sheet.liabilities ++ [plain (rule width '-')] ++
    sectionLayout "Equity" sheet.equity ++
    [plain (rule width '-'),
      sheetTotalParts "Total Liabilities and Equity" sheet.totalLiabilitiesAndEquity,
      verdictParts sheet, plain (rule width '=')]

theorem lineText_sheetTotalParts (label : String) (usd : Decimal) :
    lineText (sheetTotalParts label usd) = sheetTotal label usd := by
  simp only [sheetTotalParts, sheetTotal, lineText, Part.text, pure_bind, bind_assoc,
    String.append_empty, String.append_assoc]

theorem lineText_sheetLineParts (line : SheetLine) :
    lineText (sheetLineParts line) = sheetLine line := by
  simp only [sheetLineParts, sheetLine, lineText_append, lineText_sheetTotalParts, lineText,
    Part.text, pure_bind, bind_assoc, String.append_empty, String.append_assoc]

theorem lineText_spotParts (sheet : BalanceSheet) :
    lineText (spotParts sheet) = pure (spotLine sheet) := by
  unfold spotLine
  simp only [spotParts, lineText, Part.text, pure_bind, String.append_empty, String.append_assoc]

theorem lineText_verdictParts (sheet : BalanceSheet) :
    lineText (verdictParts sheet) = verdictLine sheet := by
  unfold verdictParts verdictLine
  split
  · exact lineText_plain _
  · simp only [lineText, Part.text, column_zero, pure_bind, bind_assoc,
      String.append_empty, String.append_assoc]

theorem text_sectionLayout (title : String) (s : SheetSection) :
    (sectionLayout title s).text = sheetSection title s := by
  simp only [sectionLayout, sheetSection, List.cons_append, Layout.text_cons, Layout.text_append,
    Layout.text_map, Layout.text_nil, lineText_plain, lineText_sheetLineParts,
    lineText_sheetTotalParts, pure_bind, bind_assoc]

theorem text_sheetLayout (sheet : BalanceSheet) :
    (sheetLayout sheet).text = balanceSheet sheet := by
  simp only [sheetLayout, balanceSheet, List.cons_append, List.nil_append, List.append_assoc,
    Layout.text_cons, Layout.text_append, Layout.text_nil, lineText_plain, lineText_spotParts,
    text_sectionLayout, lineText_sheetTotalParts, lineText_verdictParts, pure_bind, bind_assoc]

/-! ## Profit and loss -/

def incomeParts (a : Amounts) : List Part :=
  [.amount 14 a.usd .usd, .words " USD ", .amount 14 a.sats .sats, .words " SATS"]

def incomeLineParts (t : AccountTotals) : List Part :=
  .words ("    " ++ alignLeft 40 (if t.account.sub.isEmpty then "-" else t.account.sub) ++ " ") ::
    incomeParts t.converted ++ [.words "   ", .holdings t.native]

/-- Some accounts, each name above the first account that has it. -/
def incomeLayout (previous : String) : List AccountTotals → Layout
  | [] => []
  | t :: rest =>
    (if t.account.name = previous then [] else [plain ("  " ++ t.account.name)]) ++
      incomeLineParts t :: incomeLayout t.account.name rest

def blockLayout (title : String) (accounts : List AccountTotals) (total : Amounts) : Layout :=
  plain title :: incomeLayout "" accounts ++
    [.words ("  " ++ alignLeft 42 ("Total " ++ title) ++ " ") :: incomeParts total]

def netParts (report : ProfitAndLoss) (c : Currency) : List Part :=
  [.words "  ", .amount 20 (report.netIncome.get c) c, .words (" " ++ c.code)]

def netNativeLayout (report : ProfitAndLoss) : Layout :=
  if Holdings.isEmpty report.netNative then []
  else [[.words "  native: ", .holdings report.netNative]]

def incomeStatementLayout (report : ProfitAndLoss) : Layout :=
  [plain (rule width '='), plain ("Profit and Loss " ++ period report.start report.asOf),
      plain (rule width '-')] ++
    blockLayout "Revenue" report.revenue report.totalRevenue ++ [plain (rule width '-')] ++
    blockLayout "Expenses" report.expenses report.totalExpenses ++
    [plain (rule width '-'), plain "Net Income"] ++ Currency.displayed.map (netParts report) ++
    netNativeLayout report ++ [plain (rule width '=')]

theorem lineText_incomeParts (a : Amounts) : lineText (incomeParts a) = incomeFigures a := by
  simp only [incomeParts, incomeFigures, lineText, Part.text, pure_bind, bind_assoc,
    String.append_empty, String.append_assoc]

theorem lineText_incomeLineParts (t : AccountTotals) :
    lineText (incomeLineParts t) = incomeLine t := by
  simp only [incomeLineParts, incomeLine, List.cons_append, lineText_append, lineText_incomeParts,
    lineText, Part.text, pure_bind, bind_assoc, String.append_empty, String.append_assoc]

theorem text_incomeLayout (previous : String) (accounts : List AccountTotals) :
    (incomeLayout previous accounts).text = incomeLines previous accounts := by
  induction accounts generalizing previous with
  | nil => rfl
  | cons t rest ih =>
      simp only [incomeLayout, incomeLines, Layout.text_append, Layout.text_cons, ih,
        lineText_incomeLineParts]
      split <;> simp only [Layout.text_nil, Layout.text_cons, lineText_plain, pure_bind, bind_assoc]

theorem text_blockLayout (title : String) (accounts : List AccountTotals) (total : Amounts) :
    (blockLayout title accounts total).text = incomeBlock title accounts total := by
  simp only [blockLayout, incomeBlock, List.cons_append, Layout.text_cons, Layout.text_append,
    Layout.text_nil, lineText_plain, text_incomeLayout, lineText, lineText_incomeParts, Part.text,
    pure_bind, bind_assoc, String.append_assoc]

theorem lineText_netParts (report : ProfitAndLoss) (c : Currency) :
    lineText (netParts report c) = netLine report c := by
  simp only [netParts, netLine, lineText, Part.text, pure_bind, bind_assoc, String.append_empty,
    String.append_assoc]

theorem text_netNativeLayout (report : ProfitAndLoss) :
    (netNativeLayout report).text = netNativeLines report := by
  unfold netNativeLayout netNativeLines
  split
  · rfl
  · simp only [Layout.text_cons, Layout.text_nil, lineText, Part.text, pure_bind, bind_assoc,
      String.append_empty]

theorem text_incomeStatementLayout (report : ProfitAndLoss) :
    (incomeStatementLayout report).text = profitAndLoss report := by
  simp only [incomeStatementLayout, profitAndLoss, List.cons_append, List.nil_append,
    List.append_assoc, Layout.text_cons, Layout.text_append, Layout.text_map, Layout.text_nil,
    lineText_plain, text_blockLayout, lineText_netParts, text_netNativeLayout, pure_bind,
    bind_assoc]

/-! ## Account statement -/

def balanceLineParts (line : BalanceLine) : List Part :=
  [.words (line.timestamp.stampToSecond ++ " " ++ line.category.icon ++ " " ++
      alignLeft 10 line.shortId ++ " " ++ line.side.name ++ " "),
    .amount 18 line.amountSigned line.currency, .words (" " ++ line.currency.code ++ " "),
    .amount 18 line.runningBalance line.currency, .words ("  " ++ line.description)]

def heldParts (b : AccountBalance) (c : Currency) (total : Decimal) : List Part :=
  [.words "  Balance ", .amount 20 total c, .words (" " ++ c.code ++ " "),
    .amount 14 (b.currencyConvertedIn c .usd) .usd, .words " USD"]

def valueParts (c : Currency) (total : Decimal) : List Part :=
  [.words "  Value   ", .amount 20 total c, .words (" " ++ c.code)]

def statementLayout (b : AccountBalance) : Layout :=
  [plain (rule width '='), plain (balanceTitle b), plain (period none b.asOf),
      plain (rule width '-')] ++
    b.lines.map balanceLineParts ++ [plain (rule width '-')] ++
    (Holdings.entries b.balances).map (fun (c, total) => heldParts b c total) ++
    (Holdings.entries b.convertedSummary).map (fun (c, total) => valueParts c total) ++
    [plain (rule width '=')]

theorem lineText_balanceLineParts (line : BalanceLine) :
    lineText (balanceLineParts line) = balanceLine line := by
  simp only [balanceLineParts, balanceLine, lineText, Part.text, pure_bind, bind_assoc,
    String.append_empty, String.append_assoc]

theorem lineText_heldParts (b : AccountBalance) (c : Currency) (total : Decimal) :
    lineText (heldParts b c total) = heldLine b c total := by
  simp only [heldParts, heldLine, lineText, Part.text, pure_bind, bind_assoc, String.append_empty,
    String.append_assoc]

theorem lineText_valueParts (c : Currency) (total : Decimal) :
    lineText (valueParts c total) = valueLine c total := by
  simp only [valueParts, valueLine, lineText, Part.text, pure_bind, bind_assoc, String.append_empty,
    String.append_assoc]

theorem text_statementLayout (b : AccountBalance) :
    (statementLayout b).text = accountBalance b := by
  simp only [statementLayout, accountBalance, List.cons_append, List.nil_append, List.append_assoc,
    Layout.text_cons, Layout.text_append, Layout.text_map, Layout.text_nil, lineText_plain,
    lineText_balanceLineParts, lineText_heldParts, lineText_valueParts, pure_bind, bind_assoc]

end Printout

end DoubleEntry
