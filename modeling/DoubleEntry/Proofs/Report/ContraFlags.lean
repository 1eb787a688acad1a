import DoubleEntry.Entry.Completeness
import DoubleEntry.Proofs.ExactValues
import DoubleEntry.Proofs.Report.Grouping
import DoubleEntry.Query
import DoubleEntry.Report.Printout

/-!
# Contra flags are display only

Clearing the contra flags of a ledger and clearing those shown in a report come to
the same report: each function on the way from legs to printed lines commutes with
clearing, and what is no account is left alone by it. The equations are between
calculations, so a cleared ledger faults where the ledger faults and rounds where it
rounds. Two ledgers that differ in flags alone are then told apart by the flags
shown and by nothing else.
-/

namespace DoubleEntry

/-! ## What is booked -/

@[simp] theorem AccountFilter.accepts_withoutContra (f : AccountFilter) (a : Account) :
    f.accepts a.withoutContra = f.accepts a :=
  rfl

@[simp] theorem AccountFilter.ofAccount_withoutContra (a : Account) (sub : Option String) :
    ofAccount a.withoutContra sub = ofAccount a sub :=
  rfl

def BookedLeg.withoutContra (leg : BookedLeg) : BookedLeg :=
  { leg with account := leg.account.withoutContra }

def Posting.withoutContra (p : Posting) : Posting :=
  { p with account := p.account.map Account.withoutContra }

def Entry.withoutContra (e : Entry) : Entry :=
  { e with debit := e.debit.withoutContra, credit := e.credit.withoutContra }

theorem Entry.legs_withoutContra (e : Entry) :
    e.withoutContra.legs = e.legs.map BookedLeg.withoutContra := by
  have hleg : ∀ side, e.withoutContra.leg? side = (e.leg? side).map BookedLeg.withoutContra := by
    intro side
    cases side
    · cases h : e.debit.account <;>
        simp [leg?, posting, withoutContra, Posting.withoutContra, Posting.leg?, h,
          BookedLeg.withoutContra]
    · cases h : e.credit.account <;>
        simp [leg?, posting, withoutContra, Posting.withoutContra, Posting.leg?, h,
          BookedLeg.withoutContra]
  simp [legs, hleg, Option.toList_map]

theorem LedgerTotals.legsOf_withoutContra {keep : BookedLeg → Bool}
    (hkeep : ∀ leg : BookedLeg, keep leg.withoutContra = keep leg) (entries : List Entry) :
    legsOf (entries.map Entry.withoutContra) keep =
      (legsOf entries keep).map BookedLeg.withoutContra := by
  have hlegs : (entries.map Entry.withoutContra).flatMap Entry.legs =
      (entries.flatMap Entry.legs).map BookedLeg.withoutContra := by
    rw [List.flatMap_map, List.map_flatMap]
    exact congrArg (List.flatMap · entries) (funext Entry.legs_withoutContra)
  rw [legsOf, hlegs, List.filter_map]
  congr 2
  funext leg
  exact hkeep leg

/-! ## Queries and checks -/

theorem EntryQuery.accepts_withoutContra (q : EntryQuery) (e : Entry) :
    q.accepts e.withoutContra = q.accepts e := by
  have hside : ∀ (f : AccountFilter) (p : Posting),
      p.withoutContra.account.any f.accepts = p.account.any f.accepts := by
    intro f p
    unfold Posting.withoutContra
    cases p.account <;> rfl
  have haccount : q.matchesAccount e.withoutContra = q.matchesAccount e := by
    unfold matchesAccount
    cases q.account with
    | none => rfl
    | some f => exact congrArg₂ or (hside f e.debit) (hside f e.credit)
  simp only [accepts, haccount]
  rfl

theorem Entry.check_withoutContra (e : Entry) (tolerance : Tolerance) :
    e.withoutContra.check tolerance = e.check tolerance := by
  have hopen : e.withoutContra.openSide? = e.openSide? := by
    simp [openSide?, withoutContra, Posting.withoutContra]
  have hamounts : e.withoutContra.amountsBalanced tolerance = e.amountsBalanced tolerance := rfl
  have hgap : e.withoutContra.gapProblem? tolerance = e.gapProblem? tolerance := rfl
  rw [check, check, hopen, hamounts, hgap]

/-! ## Totals -/

def AccountTotals.withoutContra (t : AccountTotals) : AccountTotals :=
  { t with account := t.account.withoutContra }

namespace LedgerTotals

def withoutContra (totals : LedgerTotals) : LedgerTotals :=
  totals.map fun p => (p.1, p.2.withoutContra)

/-- Every total shown as the account under which it stands. -/
def keyed (totals : LedgerTotals) : LedgerTotals :=
  totals.map fun p => (p.1, { p.2 with account := p.1 })

end LedgerTotals

/-- A leg that is not marked leaves the account shown alone, and its figures are the same. -/
theorem AccountTotals.addLeg_withoutContra (t : AccountTotals) (leg : BookedLeg) (shown : Account) :
    ({ t with account := shown } : AccountTotals).addLeg leg.withoutContra =
      (fun t' : AccountTotals => { t' with account := shown }) <$> t.addLeg leg := by
  simp only [addLeg, map_bind, map_pure]
  rfl

namespace LedgerTotals

theorem addLeg_keyed (key : Account) (leg : BookedLeg) (totals : LedgerTotals) :
    totals.keyed.addLeg key leg.withoutContra = keyed <$> totals.addLeg key leg := by
  have hfresh : (AccountTotals.empty key).addLeg leg.withoutContra =
      (fun t : AccountTotals => { t with account := key }) <$>
        (AccountTotals.empty key).addLeg leg :=
    AccountTotals.addLeg_withoutContra (.empty key) leg key
  induction totals with
  | nil =>
      simp only [keyed, List.map_nil, addLeg, hfresh, map_bind, map_pure, bind_map_left]
      rfl
  | cons p rest ih =>
      obtain ⟨k, t⟩ := p
      rw [keyed, List.map_cons, ← keyed]
      unfold addLeg
      cases hcmp : key.compare k with
      | lt =>
          simp only [hfresh, map_bind, map_pure, bind_map_left]
          rfl
      | eq =>
          obtain rfl := (Account.compare_eq_iff key k).1 hcmp
          simp only [AccountTotals.addLeg_withoutContra, map_bind, map_pure, bind_map_left]
          rfl
      | gt =>
          simp only [ih, map_bind, map_pure, bind_map_left]
          rfl

/-- Totals come under the accounts of the books, so a cleared total is one shown as its key. -/
theorem ofEntries_withoutContra (keep : BookedLeg → Bool)
    (hkeep : ∀ leg : BookedLeg, keep leg.withoutContra = keep leg) (entries : List Entry) :
    ofEntries (entries.map Entry.withoutContra) keep = withoutContra <$> ofEntries entries keep := by
  have hkeyed : ofEntries (entries.map Entry.withoutContra) keep =
      keyed <$> ofEntries entries keep := by
    rw [ofEntries, legsOf_withoutContra hkeep]
    exact Calc.foldlM_map_view keyed BookedLeg.withoutContra
      (fun totals leg => addLeg_keyed leg.account.withoutContra leg totals) _ []
  rw [hkeyed]
  apply Calc.map_congr_of_yields
  intro totals htotals
  have hgroups := groups_ofEntries ((Calc.ends_false_iff _ _).2 htotals)
  apply List.map_congr_left
  intro p hp
  rw [AccountTotals.withoutContra, hgroups.withoutContra_account hp]

theorem ofType_withoutContra (totals : LedgerTotals) (type : AccountType) :
    totals.withoutContra.ofType type = (totals.ofType type).map AccountTotals.withoutContra := by
  simp only [ofType, withoutContra, List.map_map, List.filter_map]
  rfl

end LedgerTotals

/-! ## The balance sheet -/

def SheetLine.withoutContra (line : SheetLine) : SheetLine :=
  { line with account := line.account.withoutContra }

namespace SheetSection

def withoutContra (s : SheetSection) : SheetSection :=
  { s with lines := s.lines.map SheetLine.withoutContra }

@[simp] theorem totalUsd_withoutContra (s : SheetSection) :
    s.withoutContra.totalUsd = s.totalUsd :=
  rfl

theorem push_withoutContra (s : SheetSection) (line : SheetLine) :
    s.withoutContra.push line.withoutContra = withoutContra <$> s.push line := by
  simp only [push, map_bind, map_pure, withoutContra, List.map_append]
  rfl

theorem push_plain (s : SheetSection) (type : AccountType) (name sub : String)
    (native : Holdings) (historical : Amounts) (spotUsd : Decimal) :
    s.withoutContra.push ⟨.plain type name sub, native, historical, spotUsd⟩ =
      withoutContra <$> s.push ⟨.plain type name sub, native, historical, spotUsd⟩ :=
  push_withoutContra s ⟨.plain type name sub, native, historical, spotUsd⟩

theorem ofTotals_withoutContra (rates : SpotRates) (totals : List AccountTotals) :
    ofTotals rates (totals.map AccountTotals.withoutContra) =
      withoutContra <$> ofTotals rates totals := by
  refine Calc.foldlM_map_view withoutContra AccountTotals.withoutContra ?_ totals empty
  intro s t
  have hline : SheetLine.ofTotals rates t.withoutContra =
      SheetLine.withoutContra <$> SheetLine.ofTotals rates t := by
    simp only [SheetLine.ofTotals, map_bind, map_pure]
    rfl
  simp only [hline, map_bind, bind_map_left, push_withoutContra]

theorem revaluation_withoutContra (s : SheetSection) :
    s.withoutContra.revaluation = s.revaluation := by
  simp only [revaluation, Decimal.sumOf, withoutContra, List.foldlM_map]
  rfl

end SheetSection

theorem SpotRates.latest_withoutContra (entries : List Entry) :
    latest (entries.map Entry.withoutContra) = latest entries := by
  have hnewest : newest? (entries.map Entry.withoutContra) =
      (newest? entries).map Entry.withoutContra := by
    rw [newest?, newest?, List.foldl_map]
    change List.foldl _ (Option.map Entry.withoutContra Option.none) entries = _
    apply List.foldl_hom
    intro best e
    cases best with
    | none => rfl
    | some b =>
        simp only [Option.map_some]
        split <;> simp_all [Entry.withoutContra]
  rw [latest, hnewest, latest]
  cases newest? entries <;> rfl

namespace Earnings

theorem addRevenue_withoutContra (earned : Earnings) (t : AccountTotals) :
    earned.addRevenue t.withoutContra = earned.addRevenue t :=
  rfl

theorem addExpense_withoutContra (earned : Earnings) (t : AccountTotals) :
    earned.addExpense t.withoutContra = earned.addExpense t :=
  rfl

end Earnings

namespace BalanceSheet

def withoutContra (sheet : BalanceSheet) : BalanceSheet :=
  { sheet with
    assets := sheet.assets.withoutContra
    liabilities := sheet.liabilities.withoutContra
    equity := sheet.equity.withoutContra }

theorem ofEntries_withoutContra (entries : List Entry) (asOf : Instant) (age : Option Span)
    (tolerance : Tolerance) :
    ofEntries (entries.map Entry.withoutContra) asOf age tolerance =
      withoutContra <$> ofEntries entries asOf age tolerance := by
  have htotals := LedgerTotals.ofEntries_withoutContra (fun _ => true) (fun _ => rfl) entries
  simp only [ofEntries, SpotRates.latest_withoutContra, htotals, map_bind, map_pure, bind_map_left,
    LedgerTotals.ofType_withoutContra, SheetSection.ofTotals_withoutContra, List.foldlM_map,
    Earnings.addRevenue_withoutContra, Earnings.addExpense_withoutContra,
    SheetSection.revaluation_withoutContra, SheetSection.totalUsd_withoutContra,
    retainedAccount, adjustmentAccount, SheetSection.push_plain, List.length_map]
  rfl

theorem text_withoutContra (sheet : BalanceSheet) : sheet.withoutContra.text = sheet.text := by
  have hsection : ∀ title (s : SheetSection),
      Printout.sheetSection title s.withoutContra = Printout.sheetSection title s := by
    intro title s
    simp only [Printout.sheetSection, SheetSection.withoutContra, List.mapM_map]
    rfl
  simp only [text, Printout.balanceSheet, withoutContra, hsection]
  rfl

end BalanceSheet

/-! ## Profit and loss -/

namespace ProfitAndLoss

def withoutContra (report : ProfitAndLoss) : ProfitAndLoss :=
  { report with
    revenue := report.revenue.map AccountTotals.withoutContra
    expenses := report.expenses.map AccountTotals.withoutContra }

theorem addAll_withoutContra (factor : Decimal) (held : Holdings) (accounts : List AccountTotals) :
    addAll factor held (accounts.map AccountTotals.withoutContra) = addAll factor held accounts := by
  rw [addAll, List.foldlM_map]
  rfl

theorem ofEntries_withoutContra (entries : List Entry) (asOf : Instant) (age : Option Span) :
    ofEntries (entries.map Entry.withoutContra) asOf age =
      withoutContra <$> ofEntries entries asOf age := by
  have htotals := LedgerTotals.ofEntries_withoutContra isIncomeLeg (fun _ => rfl) entries
  simp only [ofEntries, htotals, map_bind, map_pure, bind_map_left,
    LedgerTotals.ofType_withoutContra, addAll_withoutContra]
  rfl

theorem text_withoutContra (report : ProfitAndLoss) :
    report.withoutContra.text = report.text := by
  have hlines : ∀ (accounts : List AccountTotals) (previous : String),
      Printout.incomeLines previous (accounts.map AccountTotals.withoutContra) =
        Printout.incomeLines previous accounts := by
    intro accounts
    induction accounts with
    | nil => exact fun _ => rfl
    | cons t rest ih =>
        intro previous
        rw [List.map_cons, Printout.incomeLines, Printout.incomeLines, ih]
        rfl
  simp only [text, Printout.profitAndLoss, Printout.incomeBlock, withoutContra, hlines]
  rfl

end ProfitAndLoss

/-! ## Statements of an account -/

def BalanceLine.withoutContra (line : BalanceLine) : BalanceLine :=
  { line with account := line.account.withoutContra }

namespace AccountBalance

namespace Running

def withoutContra (r : Running) : Running :=
  { r with lines := r.lines.map BalanceLine.withoutContra }

theorem addLeg_withoutContra (e : Entry) (r : Running) (leg : BookedLeg) :
    addLeg e.withoutContra r.withoutContra leg.withoutContra =
      withoutContra <$> addLeg e r leg := by
  simp only [addLeg, map_bind, map_pure, withoutContra, List.map_append]
  rfl

theorem addEntry_withoutContra (f : AccountFilter) (r : Running) (e : Entry) :
    addEntry f r.withoutContra e.withoutContra = withoutContra <$> addEntry f r e := by
  rw [addEntry, Entry.legs_withoutContra, List.filter_map]
  exact Calc.foldlM_map_view withoutContra BookedLeg.withoutContra
    (fun r leg => addLeg_withoutContra e r leg) _ r

end Running

def withoutContra (b : AccountBalance) : AccountBalance :=
  { b with
    account := b.account.withoutContra
    lines := b.lines.map BalanceLine.withoutContra }

theorem ofEntries_withoutContra (entries : List Entry) (account : Account) (sub : Option String)
    (asOf : Instant) :
    ofEntries (entries.map Entry.withoutContra) account.withoutContra sub asOf =
      withoutContra <$> ofEntries entries account sub asOf := by
  have hlegs : (entries.map Entry.withoutContra).foldlM
      (Running.addEntry (.ofAccount account sub)) Running.start =
        Running.withoutContra <$>
          entries.foldlM (Running.addEntry (.ofAccount account sub)) Running.start :=
    Calc.foldlM_map_view Running.withoutContra Entry.withoutContra
      (Running.addEntry_withoutContra _) entries Running.start
  simp only [ofEntries, AccountFilter.ofAccount_withoutContra, hlegs, map_bind, map_pure,
    bind_map_left]
  rfl

theorem text_withoutContra (b : AccountBalance) : b.withoutContra.text = b.text := by
  simp only [text, Printout.accountBalance, withoutContra, List.mapM_map]
  rfl

end AccountBalance

/-! ## Ledgers that differ in flags -/

namespace Account

/--
Contra is display only. Over two ledgers that differ in nothing but the contra flags of accounts,
each report is the same but for the flags of the accounts shown, faults and rounding included, and
is printed as the same text; every query accepts the same entries; and each entry is checked with
the same verdict and the same events. An account that is asked for may differ in its flag too.
-/
theorem contra_only_shown {entries entries' : List Entry} {account account' : Account}
    (hentries : entries.map Entry.withoutContra = entries'.map Entry.withoutContra)
    (haccount : account.withoutContra = account'.withoutContra) :
    (∀ asOf age tolerance,
      BalanceSheet.withoutContra <$> BalanceSheet.ofEntries entries asOf age tolerance =
          BalanceSheet.withoutContra <$> BalanceSheet.ofEntries entries' asOf age tolerance ∧
        (BalanceSheet.ofEntries entries asOf age tolerance >>= BalanceSheet.text) =
          (BalanceSheet.ofEntries entries' asOf age tolerance >>= BalanceSheet.text)) ∧
      (∀ asOf age,
        ProfitAndLoss.withoutContra <$> ProfitAndLoss.ofEntries entries asOf age =
            ProfitAndLoss.withoutContra <$> ProfitAndLoss.ofEntries entries' asOf age ∧
          (ProfitAndLoss.ofEntries entries asOf age >>= ProfitAndLoss.text) =
            (ProfitAndLoss.ofEntries entries' asOf age >>= ProfitAndLoss.text)) ∧
      (∀ sub asOf,
        AccountBalance.withoutContra <$> AccountBalance.ofEntries entries account sub asOf =
            AccountBalance.withoutContra <$> AccountBalance.ofEntries entries' account' sub asOf ∧
          (AccountBalance.ofEntries entries account sub asOf >>= AccountBalance.text) =
            (AccountBalance.ofEntries entries' account' sub asOf >>= AccountBalance.text)) ∧
      (∀ q : EntryQuery, entries.map q.accepts = entries'.map q.accepts) ∧
      (∀ sub, AccountFilter.ofAccount account sub = AccountFilter.ofAccount account' sub) ∧
      ∀ tolerance, (entries.map fun e => e.check tolerance) =
        entries'.map fun e => e.check tolerance := by
  -- What is the same for a cleared entry is the same for corresponding entries.
  have hsame : ∀ {γ : Type} (f : Entry → γ), (∀ e, f e.withoutContra = f e) →
      entries.map f = entries'.map f := by
    intro γ f hf
    have hcleared : ∀ es : List Entry, (es.map Entry.withoutContra).map f = es.map f := by
      intro es
      rw [List.map_map]
      exact List.map_congr_left fun e _ => hf e
    rw [← hcleared entries, hentries, hcleared]
  refine ⟨?_, ?_, ?_, ?_, ?_, ?_⟩
  · intro asOf age tolerance
    have hview : BalanceSheet.withoutContra <$> BalanceSheet.ofEntries entries asOf age tolerance =
        BalanceSheet.withoutContra <$> BalanceSheet.ofEntries entries' asOf age tolerance := by
      rw [← BalanceSheet.ofEntries_withoutContra, hentries, BalanceSheet.ofEntries_withoutContra]
    exact ⟨hview, Calc.bind_congr_of_view hview BalanceSheet.text_withoutContra⟩
  · intro asOf age
    have hview : ProfitAndLoss.withoutContra <$> ProfitAndLoss.ofEntries entries asOf age =
        ProfitAndLoss.withoutContra <$> ProfitAndLoss.ofEntries entries' asOf age := by
      rw [← ProfitAndLoss.ofEntries_withoutContra, hentries, ProfitAndLoss.ofEntries_withoutContra]
    exact ⟨hview, Calc.bind_congr_of_view hview ProfitAndLoss.text_withoutContra⟩
  · intro sub asOf
    have hview :
        AccountBalance.withoutContra <$> AccountBalance.ofEntries entries account sub asOf =
          AccountBalance.withoutContra <$> AccountBalance.ofEntries entries' account' sub asOf := by
      rw [← AccountBalance.ofEntries_withoutContra, hentries, haccount,
        AccountBalance.ofEntries_withoutContra]
    exact ⟨hview, Calc.bind_congr_of_view hview AccountBalance.text_withoutContra⟩
  · exact fun q => hsame q.accepts q.accepts_withoutContra
  · intro sub
    rw [← AccountFilter.ofAccount_withoutContra, haccount, AccountFilter.ofAccount_withoutContra]
  · exact fun tolerance => hsame _ fun e => e.check_withoutContra tolerance

/-- A treasury met plain, then as contra, then on both sides of an entry. -/
private def flaggedLedger : List Entry :=
  let treasury := Account.plain .asset "Treasury" ""
  let customer := Account.plain .liability "Customer" "alice"
  [.sampleTransfer 0 treasury customer (.ofByte 100) .hive,
    .sampleTransfer 1 customer.asContra treasury.asContra (.ofByte 40) .hive,
    .sampleTransfer 2 treasury treasury.asContra (.ofByte 7) .hive]

/-- The flag of the treasury shows on one sheet and not on the other; the texts are the same. -/
theorem contra_only_shown_on_treasury :
    let cleared := flaggedLedger.map Entry.withoutContra
    flaggedLedger.map Entry.withoutContra = cleared.map Entry.withoutContra ∧
      ((BalanceSheet.ofEntries flaggedLedger ⟨3⟩ none .standard).outcome.toOption.map
        fun sheet => sheet.assets.lines.map fun line => line.account.contra) = some [true] ∧
      ((BalanceSheet.ofEntries cleared ⟨3⟩ none .standard).outcome.toOption.map
        fun sheet => sheet.assets.lines.map fun line => line.account.contra) = some [false] ∧
      (BalanceSheet.ofEntries flaggedLedger ⟨3⟩ none .standard >>= BalanceSheet.text) =
        (BalanceSheet.ofEntries cleared ⟨3⟩ none .standard >>= BalanceSheet.text) := by
  intro cleared
  have hentries : flaggedLedger.map Entry.withoutContra = cleared.map Entry.withoutContra := rfl
  have haccount : (Account.plain .asset "Treasury" "").asContra.withoutContra =
      (Account.plain .asset "Treasury" "").withoutContra := rfl
  obtain ⟨hsheet, -⟩ := contra_only_shown hentries haccount
  exact ⟨hentries, by decide +kernel, by decide +kernel, (hsheet ⟨3⟩ none .standard).2⟩

end Account

end DoubleEntry
