import DoubleEntry.Proofs.Report.Layouts
import DoubleEntry.Proofs.Text.FixedPlaces

/-!
# Printed figures

Below `10 ^ 22` every amount has room in every currency, whatever its scale is: rounding
makes it 23 whole digits at most, and a bitcoin amount, which has the most places, adds
nine characters to them. So such a report is always printed, and each amount on it is
written with the places of its currency and reads back as the amount rounded to them.
-/

namespace DoubleEntry

theorem Calc.exists_yields_mapM {f : α → Calc β} {r : α → β → Prop} {xs : List α}
    (h : ∀ x ∈ xs, ∃ y, (f x).Yields y ∧ r x y) :
    ∃ ys, (xs.mapM f).Yields ys ∧ List.Forall₂ r xs ys := by
  induction xs with
  | nil => exact ⟨[], rfl, .nil⟩
  | cons x rest ih =>
      obtain ⟨⟨y, hy, hr⟩, hrest⟩ := List.forall_mem_cons.1 h
      obtain ⟨ys, hys, hrs⟩ := ih hrest
      refine ⟨y :: ys, ?_, .cons hr hrs⟩
      simp only [List.mapM_cons, yields_bind_iff, yields_pure_iff]
      exact ⟨y, hy, ys, hys, rfl⟩

/-- A currency that came back to zero counts like one that was never held. -/
theorem Holdings.filter_entries (held : Holdings) :
    (held.entries.filter fun (_, x) => !x.isZero) =
      (Currency.all.filter fun c => (held.amount c).value ≠ 0).map fun c => (c, held.amount c) := by
  have hplaces : ∀ cs : List Currency,
      ((cs.filterMap fun c => (held.get c).map (c, ·)).filter fun (_, x) => !x.isZero) =
        (cs.filter fun c => (held.amount c).value ≠ 0).map fun c => (c, held.amount c) := by
    intro cs
    induction cs with
    | nil => rfl
    | cons c rest ih =>
        cases hget : held.get c with
        | none =>
            have hzero : (held.amount c).value = 0 := by simp [amount, hget]
            simp [hget, hzero, ih]
        | some x =>
            have hamount : held.amount c = x := by simp [amount, hget]
            by_cases hx : x.value = 0
            · simp [hget, hamount, hx, (x.isZero_iff).2 hx, ih]
            · have hshown : x.isZero = false := by rwa [← Bool.not_eq_true, x.isZero_iff]
              simp [hget, hamount, hx, hshown, ih]
  rw [← hplaces, entries, PerCurrency.toList, List.filterMap_map]
  rfl

namespace Printout

open Decimal Text

/-! ## What is shown -/

def ShowsHolding (held : Holdings) (c : Currency) (text : String) : Prop :=
  ∃ figure, IsFixedText c.places (held.amount c) figure ∧ text = figure ++ " " ++ c.code

def ListsHoldings (held : Holdings) (text : String) : Prop :=
  ∃ parts, text = ", ".intercalate parts ∧
    List.Forall₂ (ShowsHolding held) (Currency.all.filter fun c => (held.amount c).value ≠ 0) parts

/-- Words as they are; an amount with the places of its currency; a price with what it rounds to. -/
def Part.Shows : Part → String → Prop
  | .words text, shown => shown = text
  | .amount columns x c, shown =>
    ∃ figure, IsFixedText c.places x figure ∧ shown = alignRight columns figure
  | .holdings held, shown => ListsHoldings held shown
  | .rate places x, shown => ∃ d, ofText shown = .ok d ∧ d.value = roundedAt places x.value

def LineShows (parts : List Part) (line : String) : Prop :=
  ∃ pieces, line = String.join pieces ∧ List.Forall₂ Part.Shows parts pieces

def Layout.Shows (layout : Layout) (text : String) : Prop :=
  ∃ lines, text = ofLines lines ∧ List.Forall₂ LineShows layout lines

/-- The figures that need room, a currency that is not held counting as zero. -/
def Part.figures : Part → List Decimal
  | .words _ => []
  | .amount _ x _ => [x]
  | .holdings held => Currency.all.map held.amount
  | .rate _ _ => []

def Layout.figures (layout : Layout) : List Decimal :=
  layout.flatten.flatMap Part.figures

/-! ## Figures that have room -/

theorem exists_amount {x : Decimal} (c : Currency) (h : |x.value| < 10 ^ 22) :
    ∃ figure, (amount x c).Yields figure ∧ IsFixedText c.places x figure := by
  have hplaces : c.places ≤ 8 := by cases c <;> decide
  have hroom : 22 + c.places + 2 ≤ figureLimit := by
    rw [figureLimit]
    omega
  refine exists_fixed (by omega) hroom ?_
  exact_mod_cast h

theorem exists_natives {held : Holdings} (h : ∀ c, |(held.amount c).value| < 10 ^ 22) :
    ∃ text, (natives held).Yields text ∧ ListsHoldings held text := by
  have hparts : ∀ c ∈ Currency.all.filter fun c => (held.amount c).value ≠ 0, ∃ part,
      (amount (held.amount c) c >>= fun figure => pure (figure ++ " " ++ c.code)).Yields part ∧
        ShowsHolding held c part := by
    intro c _
    obtain ⟨figure, hfigure, hfixed⟩ := exists_amount c (h c)
    refine ⟨figure ++ " " ++ c.code, ?_, figure, hfixed, rfl⟩
    simp only [Calc.yields_bind_iff, Calc.yields_pure_iff]
    exact ⟨figure, hfigure, rfl⟩
  obtain ⟨parts, hyields, hlisted⟩ := Calc.exists_yields_mapM hparts
  refine ⟨", ".intercalate parts, ?_, parts, rfl, hlisted⟩
  simp only [natives, held.filter_entries, List.mapM_map, Calc.yields_bind_iff,
    Calc.yields_pure_iff]
  exact ⟨parts, hyields, rfl⟩

/-- Up to the limit, on a tie, and back at zero. -/
private def heldAtLimit : Holdings :=
  { hive := ofParts? true 20005 4
    hbd := none
    usd := ofParts? true 0 1
    btc := ofParts? false 9999999999999999999999999999 6
    sats := ofParts? true 99999999999999999999995 1
    msats := none }

example : natives heldAtLimit = .exact
    "-2.000 HIVE, 9999999999999999999999.99999900 BTC, -10000000000000000000000 SATS" := by
  decide +kernel

theorem Part.exists_text {part : Part} (h : ∀ x ∈ part.figures, |x.value| < 10 ^ 22) :
    ∃ shown, part.text.Yields shown ∧ part.Shows shown := by
  cases part with
  | words text => exact ⟨text, rfl, rfl⟩
  | amount columns x c =>
      obtain ⟨figure, hfigure, hfixed⟩ := exists_amount c (h x (List.mem_singleton_self x))
      refine ⟨alignRight columns figure, ?_, figure, hfixed, rfl⟩
      simp only [Part.text, column, map_eq_pure_bind, Calc.yields_bind_iff, Calc.yields_pure_iff]
      exact ⟨figure, hfigure, rfl⟩
  | holdings held =>
      exact exists_natives fun c => h _ (List.mem_map_of_mem (Currency.mem_all c))
  | rate places x =>
      refine ⟨(x.roundTo places).text, rfl, (x.roundTo places).unsignedZero, ofText_text _, ?_⟩
      rw [value_unsignedZero, value_roundTo]

theorem exists_lineText {parts : List Part}
    (h : ∀ part ∈ parts, ∀ x ∈ part.figures, |x.value| < 10 ^ 22) :
    ∃ line, (lineText parts).Yields line ∧ LineShows parts line := by
  induction parts with
  | nil => exact ⟨"", rfl, [], rfl, .nil⟩
  | cons part rest ih =>
      obtain ⟨hpart, hrest⟩ := List.forall_mem_cons.1 h
      obtain ⟨shown, hshown, hshows⟩ := Part.exists_text hpart
      obtain ⟨_, hline, pieces, rfl, hpieces⟩ := ih hrest
      refine ⟨String.join (shown :: pieces), ?_, shown :: pieces, rfl, .cons hshows hpieces⟩
      simp only [lineText, Calc.yields_bind_iff, Calc.yields_pure_iff]
      exact ⟨shown, hshown, _, hline, String.join_cons.symm⟩

theorem Layout.exists_text {layout : Layout} (h : ∀ x ∈ layout.figures, |x.value| < 10 ^ 22) :
    ∃ lines, layout.text.Yields lines ∧ layout.Shows (ofLines lines) := by
  have hlines : ∀ parts ∈ layout, ∃ line, (lineText parts).Yields line ∧ LineShows parts line := by
    intro parts hparts
    refine exists_lineText fun part hpart x hx => h x ?_
    exact List.mem_flatMap.2 ⟨part, List.mem_flatten_of_mem hparts hpart, hx⟩
  obtain ⟨lines, hyields, hshown⟩ := Calc.exists_yields_mapM hlines
  exact ⟨lines, hyields, lines, rfl, hshown⟩

end Printout

/-! ## Reports -/

open Printout

inductive Report where
  | balanceSheet (sheet : BalanceSheet)
  | profitAndLoss (statement : ProfitAndLoss)
  | accountBalance (statement : AccountBalance)

namespace Report

def text : Report → Calc String
  | .balanceSheet sheet => sheet.text
  | .profitAndLoss statement => statement.text
  | .accountBalance statement => statement.text

def layout : Report → Layout
  | .balanceSheet sheet => sheetLayout sheet
  | .profitAndLoss statement => incomeStatementLayout statement
  | .accountBalance statement => statementLayout statement

theorem text_eq (report : Report) : report.text = Text.ofLines <$> report.layout.text := by
  cases report with
  | balanceSheet sheet => rw [text, layout, text_sheetLayout, BalanceSheet.text]
  | profitAndLoss statement =>
      rw [text, layout, text_incomeStatementLayout, ProfitAndLoss.text]
  | accountBalance statement => rw [text, layout, text_statementLayout, AccountBalance.text]

/--
A report whose figures are below `10 ^ 22` is printed, and shows each amount with the places of its
currency, a number that reads back as the amount rounded half to even to them. On the line of an
account the holdings that are not zero are listed, in the order of the currencies.
-/
theorem shows_figures {report : Report}
    (h : ∀ x ∈ report.layout.figures, |x.value| < 10 ^ 22) :
    ∃ text, report.text.Yields text ∧ report.layout.Shows text := by
  obtain ⟨lines, hlines, hshows⟩ := Layout.exists_text h
  refine ⟨Text.ofLines lines, ?_, hshows⟩
  rw [text_eq, map_eq_pure_bind]
  simp only [Calc.yields_bind_iff, Calc.yields_pure_iff]
  exact ⟨lines, hlines, rfl⟩

private def sheetAtLimit : BalanceSheet :=
  let usd := (Decimal.ofParts? false 9999999999999999999999995 3).getD .zero
  { asOf := ⟨0⟩
    start := none
    entryCount := 1
    spotRates := .none
    assets := ⟨[⟨.plain .asset "Treasury" "hot", heldAtLimit, .zero, usd⟩], usd, .zero⟩
    liabilities := .empty
    equity := .empty
    retainedEarnings := .zero
    revaluation := .zero
    totalLiabilitiesAndEquity := .zero
    isBalanced := false
    discrepancy := usd }

theorem shows_figures_at_limit :
    (∀ x ∈ (balanceSheet sheetAtLimit).layout.figures, |x.value| < 10 ^ 22) ∧
      ∃ text, sheetAtLimit.text.Yields text ∧ (sheetLayout sheetAtLimit).Shows text := by
  have hsmall : ∀ x ∈ (balanceSheet sheetAtLimit).layout.figures, |x.value| < 10 ^ 22 := by
    have hdigits : ∀ x ∈ (balanceSheet sheetAtLimit).layout.figures,
        x.coefficient < 10 ^ 22 * tenTo x.scale := by
      decide +kernel
    intro x hx
    exact_mod_cast (x.abs_value_lt_iff (10 ^ 22)).2 (hdigits x hx)
  exact ⟨hsmall, shows_figures hsmall⟩

end Report

end DoubleEntry
