import DoubleEntry.Proofs.Report.Statements
import DoubleEntry.Proofs.Text.ByteOrder
import DoubleEntry.Report.Printout

/-!
# Headings of a profit and loss statement

A block is written account by account, and a name is written when it is not that of the
account before. So a name is a heading once only if its accounts stand together, which
they do because the totals are in the order of their accounts, and those of one type are
picked out of them without changing it. The text of a block is then its headings in
order, each over the accounts of its name.
-/

namespace DoubleEntry

/-! ## The order within a block -/

theorem String.empty_le (s : String) : "" ≤ s := by
  rw [← not_lt, Text.lt_iff_bytes_lt]
  exact List.not_lt_nil _

def AccountTotals.Before (t t' : AccountTotals) : Prop :=
  t.account.name < t'.account.name ∨
    t.account.name = t'.account.name ∧ t.account.sub < t'.account.sub

theorem Account.lt_of_compare {a b : Account} (h : a.compare b = .lt) (htype : a.type = b.type)
    (hcontra : a.contra = b.contra) : a.name < b.name ∨ a.name = b.name ∧ a.sub < b.sub := by
  simpa only [compare, htype, hcontra, Ordering.then_eq_lt, Std.ReflOrd.compare_self,
    reduceCtorEq, false_or, true_and, and_false, or_false, compare_lt_iff_lt,
    Std.LawfulEqOrd.compare_eq_iff_eq] using h

namespace LedgerTotals

variable {exactly : Bool} {legs : List BookedLeg} {totals : LedgerTotals}

theorem mem_ofType {type : AccountType} {t : AccountTotals} :
    t ∈ totals.ofType type ↔ ∃ p ∈ totals, p.2 = t ∧ t.account.type = type := by
  simp only [ofType, List.mem_filter, List.mem_map, beq_iff_eq]
  constructor
  · rintro ⟨⟨p, hp, rfl⟩, htype⟩
    exact ⟨p, hp, rfl, htype⟩
  · rintro ⟨p, hp, rfl, htype⟩
    exact ⟨⟨p, hp, rfl⟩, htype⟩

/-- Accounts of one type stand in the order of their names and sub-accounts. -/
theorem Groups.before_ofType (h : Groups exactly legs totals) (type : AccountType) :
    (totals.ofType type).Pairwise AccountTotals.Before := by
  rw [ofType, List.filter_map, List.pairwise_map]
  have horder : totals.Pairwise fun p q => p.1.compare q.1 = .lt := List.pairwise_map.1 h.inOrder
  refine (horder.filter _).imp_of_mem ?_
  intro p q hp hq hlt
  obtain ⟨hp, hptype⟩ := List.mem_filter.1 hp
  obtain ⟨hq, hqtype⟩ := List.mem_filter.1 hq
  rw [← h.withoutContra_account hp, ← h.withoutContra_account hq] at hlt
  have htype : p.2.account.type = q.2.account.type :=
    (beq_iff_eq.1 hptype).trans (beq_iff_eq.1 hqtype).symm
  have hbefore := Account.lt_of_compare hlt htype rfl
  exact hbefore

theorem Groups.exists_ofType_iff (h : Groups exactly legs totals) (type : AccountType)
    (key : Account) :
    (∃ t ∈ totals.ofType type, t.account.withoutContra = key) ↔
      ∃ leg ∈ legs, leg.account.type = type ∧ leg.key = key := by
  constructor
  · rintro ⟨t, ht, rfl⟩
    obtain ⟨p, hp, rfl, htype⟩ := mem_ofType.1 ht
    obtain ⟨leg, hleg, hkey⟩ := (h.mem_keys_iff p.1).1 (List.mem_map_of_mem hp)
    have hshown := h.withoutContra_account hp
    refine ⟨leg, hleg, ?_, hkey.trans hshown.symm⟩
    rw [← leg.key_type, hkey, ← hshown, ← htype]
    rfl
  · rintro ⟨leg, hleg, htype, rfl⟩
    obtain ⟨p, hp, hkey⟩ := List.mem_map.1 ((h.mem_keys_iff leg.key).2 ⟨leg, hleg, rfl⟩)
    have hshown := (h.withoutContra_account hp).trans hkey
    refine ⟨p.2, mem_ofType.2 ⟨p, hp, rfl, ?_⟩, hshown⟩
    rw [← htype, ← leg.key_type, ← hshown]
    rfl

end LedgerTotals

/-! ## One block -/

namespace Printout

/-- A name in a block, with its accounts and what is written for them. -/
structure Heading where
  name : String
  accounts : List AccountTotals
  lines : List String

/-- What is written for an account: its sub-account, or a dash, and then its figures. -/
def IsLineOf (t : AccountTotals) (line : String) : Prop :=
  (incomeLine t).Yields line ∧ ∃ figures,
    line = "    " ++ Text.alignLeft 40 (if t.account.sub = "" then "-" else t.account.sub) ++
      " " ++ figures

namespace Heading

def text (g : Heading) : List String :=
  ("  " ++ g.name) :: g.lines

structure Lists (g : Heading) : Prop where
  named : ∀ t ∈ g.accounts, t.account.name = g.name
  inOrder : g.accounts.Pairwise fun t t' => Text.bytes t.account.sub < Text.bytes t'.account.sub
  lines : List.Forall₂ IsLineOf g.accounts g.lines

def cons (t : AccountTotals) (line : String) (g : Heading) : Heading :=
  { g with accounts := t :: g.accounts, lines := line :: g.lines }

theorem Lists.cons {g : Heading} (h : g.Lists) {t : AccountTotals} {line : String}
    (hname : t.account.name = g.name) (hline : IsLineOf t line)
    (hbefore : ∀ t' ∈ g.accounts, t.Before t') : (g.cons t line).Lists where
  named := List.forall_mem_cons.2 ⟨hname, h.named⟩
  inOrder := by
    refine List.pairwise_cons.2 ⟨fun t' ht' => ?_, h.inOrder⟩
    rw [← Text.lt_iff_bytes_lt]
    rcases hbefore t' ht' with hless | ⟨-, hsub⟩
    · rw [hname, h.named t' ht'] at hless
      exact absurd hless (lt_irrefl _)
    · exact hsub
  lines := .cons hline h.lines

end Heading

/-- Every account is filed under one of the headings, which are in order. -/
structure Files (accounts : List AccountTotals) (headings : List Heading) : Prop where
  inOrder : headings.Pairwise fun g g' => Text.bytes g.name < Text.bytes g'.name
  lists : ∀ g ∈ headings, g.Lists
  nonempty : ∀ g ∈ headings, g.accounts ≠ []
  all : headings.flatMap Heading.accounts = accounts

theorem Files.cons {accounts : List AccountTotals} {headings : List Heading}
    (h : Files accounts headings) {g : Heading} (hg : g.Lists) (hsome : g.accounts ≠ [])
    (habove : ∀ g' ∈ headings, g.name < g'.name) :
    Files (g.accounts ++ accounts) (g :: headings) where
  inOrder := List.pairwise_cons.2
    ⟨fun g' hg' => (Text.lt_iff_bytes_lt _ _).1 (habove g' hg'), h.inOrder⟩
  lists := List.forall_mem_cons.2 ⟨hg, h.lists⟩
  nonempty := List.forall_mem_cons.2 ⟨hsome, h.nonempty⟩
  all := by rw [List.flatMap_cons, h.all]

theorem isLineOf_of_yields {t : AccountTotals} {line : String}
    (h : (incomeLine t).Yields line) : IsLineOf t line := by
  refine ⟨h, ?_⟩
  simp only [incomeLine, Calc.yields_bind_iff, Calc.yields_pure_iff] at h
  obtain ⟨figures, -, held, -, rfl⟩ := h
  refine ⟨figures ++ "   " ++ held, ?_⟩
  simp only [String.isEmpty_iff, String.append_assoc]

theorem yields_incomeLines_cons {previous : String} {t : AccountTotals}
    {rest : List AccountTotals} {lines : List String}
    (h : (incomeLines previous (t :: rest)).Yields lines) :
    ∃ line others, IsLineOf t line ∧ (incomeLines t.account.name rest).Yields others ∧
      lines = (if t.account.name = previous then [] else ["  " ++ t.account.name]) ++
        line :: others := by
  simp only [incomeLines, Calc.yields_bind_iff, Calc.yields_pure_iff] at h
  obtain ⟨line, hline, others, hothers, rfl⟩ := h
  exact ⟨line, others, isLineOf_of_yields hline, hothers, rfl⟩

/--
Accounts in order, none before `previous`, are written below that name as long as they have it,
and then below headings of their own.
-/
theorem exists_headings {previous : String} {accounts : List AccountTotals} {lines : List String}
    (hsorted : accounts.Pairwise AccountTotals.Before)
    (hfrom : ∀ t ∈ accounts, previous ≤ t.account.name)
    (h : (incomeLines previous accounts).Yields lines) :
    ∃ (first : Heading) (rest : List AccountTotals) (headings : List Heading),
      first.name = previous ∧ first.Lists ∧ Files rest headings ∧
        (∀ g ∈ headings, previous < g.name) ∧ accounts = first.accounts ++ rest ∧
        lines = first.lines ++ headings.flatMap Heading.text := by
  induction accounts generalizing previous lines with
  | nil =>
      simp only [incomeLines, Calc.yields_pure_iff] at h
      subst h
      exact ⟨⟨previous, [], []⟩, [], [], rfl, ⟨by simp, .nil, .nil⟩, ⟨.nil, by simp, by simp, rfl⟩,
        by simp, rfl, rfl⟩
  | cons t rest ih =>
      obtain ⟨line, others, hline, hothers, rfl⟩ := yields_incomeLines_cons h
      obtain ⟨hbefore, hrest⟩ := List.pairwise_cons.1 hsorted
      have hlater : ∀ t' ∈ rest, t.account.name ≤ t'.account.name := by
        intro t' ht'
        rcases hbefore t' ht' with hname | ⟨hname, -⟩
        · exact hname.le
        · exact hname.le
      obtain ⟨first, filed, headings, hfirst, hlists, hfiles, habove, rfl, rfl⟩ :=
        ih hrest hlater hothers
      have hcons : (first.cons t line).Lists :=
        hlists.cons hfirst.symm hline fun t' ht' => hbefore t' (List.mem_append_left _ ht')
      by_cases hsame : t.account.name = previous
      · refine ⟨first.cons t line, filed, headings, hfirst.trans hsame, hcons, hfiles, ?_, rfl, ?_⟩
        · rwa [← hsame]
        · rw [if_pos hsame]
          rfl
      · -- The name is written, and the accounts after it follow below.
        have hnext : previous < t.account.name :=
          lt_of_le_of_ne (hfrom t (List.mem_cons_self ..)) (Ne.symm hsame)
        refine ⟨⟨previous, [], []⟩, t :: (first.accounts ++ filed),
          first.cons t line :: headings, rfl, ⟨by simp, .nil, .nil⟩, ?_, ?_, rfl, ?_⟩
        · exact hfiles.cons hcons (by simp [Heading.cons]) (by rwa [← hfirst] at habove)
        · rw [List.forall_mem_cons]
          exact ⟨hfirst ▸ hnext, fun g hg => hnext.trans (habove g hg)⟩
        · rw [if_neg hsame, ← hfirst]
          rfl

def filedBlock (title : String) (headings : List Heading) (figures : String) : List String :=
  title :: headings.flatMap Heading.text ++
    ["  " ++ Text.alignLeft 42 ("Total " ++ title) ++ " " ++ figures]

/-- The first account's name is not empty, so it is written. -/
theorem exists_filedBlock {title : String} {accounts : List AccountTotals} {total : Amounts}
    {lines : List String} (hsorted : accounts.Pairwise AccountTotals.Before)
    (hnames : ∀ t ∈ accounts, t.account.name ≠ "")
    (h : (incomeBlock title accounts total).Yields lines) :
    ∃ headings figures, Files accounts headings ∧ (incomeFigures total).Yields figures ∧
      lines = filedBlock title headings figures := by
  simp only [incomeBlock, Calc.yields_bind_iff, Calc.yields_pure_iff] at h
  obtain ⟨written, hwritten, figures, hfigures, rfl⟩ := h
  have hfrom : ∀ t ∈ accounts, "" ≤ t.account.name := fun t _ => String.empty_le _
  obtain ⟨first, rest, headings, hfirst, hlists, hfiles, -, rfl, rfl⟩ :=
    exists_headings hsorted hfrom hwritten
  have hnone : first.accounts = [] := by
    rw [List.eq_nil_iff_forall_not_mem]
    intro t ht
    exact hnames t (List.mem_append_left _ ht) ((hlists.named t ht).trans hfirst)
  have hlines := hlists.lines
  rw [hnone, List.forall₂_nil_left_iff] at hlines
  rw [hnone, hlines]
  exact ⟨headings, figures, hfiles, hfigures, rfl⟩

end Printout

/-! ## The whole text -/

namespace ProfitAndLoss

open Printout

variable {entries : List Entry} {asOf : Instant} {age : Option Span} {report : ProfitAndLoss}
  {text : String}

theorem exists_totals (h : (ofEntries entries asOf age).Yields report) :
    ∃ totals, LedgerTotals.Groups false (LedgerTotals.legsOf entries isIncomeLeg) totals ∧
      report.revenue = totals.ofType .revenue ∧ report.expenses = totals.ofType .expense := by
  simp only [ofEntries, Calc.yields_bind_iff, Calc.yields_pure_iff] at h
  obtain ⟨totals, htotals, _, -, _, -, _, -, _, -, rfl⟩ := h
  exact ⟨totals, LedgerTotals.groups_ofEntries ((Calc.ends_false_iff _ _).2 htotals), rfl, rfl⟩

/-- Of the legs on revenue and expense accounts those on the normal side count. -/
theorem isIncomeLeg_iff {type : AccountType} (htype : type ∈ [AccountType.revenue, .expense])
    {leg : BookedLeg} (hleg : leg.account.type = type) :
    isIncomeLeg leg = true ↔ leg.side = type.normalSide := by
  unfold isIncomeLeg
  rw [hleg]
  simp only [List.mem_cons, List.not_mem_nil, or_false] at htype
  rcases htype with rfl | rfl <;> cases leg.side <;> decide

variable {totals : LedgerTotals}

/-- An account is listed when an entry has a leg on it that counts. -/
theorem exists_listed_iff
    (h : LedgerTotals.Groups false (LedgerTotals.legsOf entries isIncomeLeg) totals)
    {type : AccountType} (htype : type ∈ [AccountType.revenue, .expense]) (key : Account) :
    (∃ t ∈ totals.ofType type, t.account.withoutContra = key) ↔
      ∃ e ∈ entries, ∃ leg ∈ e.legs, leg.account.type = type ∧ leg.side = type.normalSide ∧
        leg.account.withoutContra = key := by
  rw [h.exists_ofType_iff]
  constructor
  · rintro ⟨leg, hleg, hof, hkey⟩
    obtain ⟨hmem, hcounts⟩ := List.mem_filter.1 hleg
    obtain ⟨e, he, hleg⟩ := List.mem_flatMap.1 hmem
    exact ⟨e, he, leg, hleg, hof, (isIncomeLeg_iff htype hof).1 hcounts, hkey⟩
  · rintro ⟨e, he, leg, hleg, hof, hside, hkey⟩
    have hcounts := (isIncomeLeg_iff htype hof).2 hside
    exact ⟨leg, List.mem_filter.2 ⟨List.mem_flatMap.2 ⟨e, he, hleg⟩, hcounts⟩, hof, hkey⟩

theorem name_ne_empty_of_listed (hnames : ∀ e ∈ entries, ∀ leg ∈ e.legs, leg.account.name ≠ "")
    (h : LedgerTotals.Groups false (LedgerTotals.legsOf entries isIncomeLeg) totals)
    {type : AccountType} (htype : type ∈ [AccountType.revenue, .expense]) :
    ∀ t ∈ totals.ofType type, t.account.name ≠ "" := by
  intro t ht hempty
  obtain ⟨e, he, leg, hleg, -, -, hkey⟩ := (exists_listed_iff h htype _).1 ⟨t, ht, rfl⟩
  have hname := congrArg Account.name hkey
  exact hnames e he leg hleg (hname.trans hempty)

/--
If every account of the entries has a name, the accounts of each block of the text are filed under
headings: each name is written once, in increasing order of its bytes, and below it one line for
each of its accounts, in increasing order of the bytes of the sub-account, a dash standing for none.
Those are all accounts that revenue was credited to, and all that an expense was debited to.
-/
theorem headings_of_text (hnames : ∀ e ∈ entries, ∀ leg ∈ e.legs, leg.account.name ≠ "")
    (hreport : (ofEntries entries asOf age).Yields report) (htext : report.text.Yields text) :
    ∃ revenue earned expenses spent net held,
      text = Text.ofLines
        ([Text.rule width '=', "Profit and Loss " ++ period report.start report.asOf,
          Text.rule width '-'] ++ filedBlock "Revenue" revenue earned ++
          [Text.rule width '-'] ++ filedBlock "Expenses" expenses spent ++
          [Text.rule width '-', "Net Income"] ++ net ++ held ++ [Text.rule width '=']) ∧
      Files report.revenue revenue ∧ (incomeFigures report.totalRevenue).Yields earned ∧
      Files report.expenses expenses ∧ (incomeFigures report.totalExpenses).Yields spent ∧
      (Currency.displayed.mapM (netLine report)).Yields net ∧
      (netNativeLines report).Yields held ∧
      (∀ key, (∃ t ∈ report.revenue, t.account.withoutContra = key) ↔
        ∃ e ∈ entries, ∃ leg ∈ e.legs, leg.account.type = .revenue ∧ leg.side = .credit ∧
          leg.account.withoutContra = key) ∧
      ∀ key, (∃ t ∈ report.expenses, t.account.withoutContra = key) ↔
        ∃ e ∈ entries, ∃ leg ∈ e.legs, leg.account.type = .expense ∧ leg.side = .debit ∧
          leg.account.withoutContra = key := by
  obtain ⟨totals, hgroups, hrevenue, hexpenses⟩ := exists_totals hreport
  simp only [ProfitAndLoss.text, map_eq_pure_bind, profitAndLoss, Calc.yields_bind_iff,
    Calc.yields_pure_iff] at htext
  obtain ⟨_, ⟨earning, hearning, spending, hspending, net, hnet, held, hheld, rfl⟩, rfl⟩ := htext
  rw [hrevenue] at hearning
  rw [hexpenses] at hspending
  obtain ⟨revenue, earned, hfiled, hearned, rfl⟩ := exists_filedBlock
    (hgroups.before_ofType .revenue) (name_ne_empty_of_listed hnames hgroups (by simp)) hearning
  obtain ⟨expenses, spent, hfiled', hspent, rfl⟩ := exists_filedBlock
    (hgroups.before_ofType .expense) (name_ne_empty_of_listed hnames hgroups (by simp)) hspending
  rw [hrevenue, hexpenses]
  exact ⟨revenue, earned, expenses, spent, net, held, rfl, hfiled, hearned, hfiled', hspent, hnet,
    hheld, exists_listed_iff hgroups (by simp), exists_listed_iff hgroups (by simp)⟩

/-- Two names of which one begins with the other, entered in no order, and an expense. -/
private def feeLedger : List Entry :=
  let cash := Account.plain .asset "Cash" ""
  [.sampleTransfer 0 cash (.plain .revenue "Fees Late" "a") (.ofByte 1) .hive,
    .sampleTransfer 1 cash (.plain .revenue "Fees" "b") (.ofByte 2) .hbd,
    .sampleTransfer 2 (.plain .expense "Costs" "") cash (.ofByte 3) .hive,
    .sampleTransfer 3 cash (.plain .revenue "Fees" "") (.ofByte 4) .hive,
    .sampleTransfer 4 cash (Account.plain .revenue "Fees" "b").asContra (.ofByte 5) .hive]

theorem headings_of_text_of_fees :
    ∃ report text revenue, (ofEntries feeLedger ⟨5⟩ none).Yields report ∧
      report.text.Yields text ∧ Files report.revenue revenue ∧
      report.revenue.map (fun t => (t.account.name, t.account.sub)) =
        [("Fees", ""), ("Fees", "b"), ("Fees Late", "a")] := by
  have htext : (ofEntries feeLedger ⟨5⟩ none >>= ProfitAndLoss.text).isExact = true := by
    decide +kernel
  obtain ⟨text, htext⟩ := Calc.exists_exactly htext
  obtain ⟨report, hreport, htext⟩ := (Calc.exactly_bind_iff _ _ _).1 htext
  have hnames : ∀ e ∈ feeLedger, ∀ leg ∈ e.legs, leg.account.name ≠ "" := by decide +kernel
  obtain ⟨revenue, _, _, _, _, _, -, hfiles, -⟩ :=
    headings_of_text hnames hreport.yields htext.yields
  refine ⟨report, text, revenue, hreport.yields, htext.yields, hfiles, ?_⟩
  have hlisted : (fun report : ProfitAndLoss =>
      report.revenue.map fun t => (t.account.name, t.account.sub)) <$>
        (ofEntries feeLedger ⟨5⟩ none).outcome =
          .ok [("Fees", ""), ("Fees", "b"), ("Fees Late", "a")] := by
    decide +kernel
  rw [hreport.yields] at hlisted
  exact Except.ok.inj hlisted

end ProfitAndLoss

end DoubleEntry
