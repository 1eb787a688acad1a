import DoubleEntry.Proofs.Report.Conservation
import DoubleEntry.Report.AccountBalance

/-!
# The statement of an account and its total

A statement and the totals by account are two folds over the same legs. The
statement picks the legs of its account out of each entry and adds up conversions
by the currency of the leg; the totals file each leg under its account and add up
conversions leg by leg. What both hold of an account agrees figure for figure, in
runs that round as well, because the same legs are added in the same order; the
conversions are grouped differently and agree in exact runs.
-/

namespace DoubleEntry

variable {exactly : Bool}

theorem PerCurrency.sum_set (measure : α → Rat) (table : PerCurrency α) (c : Currency) (x : α) :
    (Currency.all.map fun d => measure ((table.set c x).get d)).sum =
      (Currency.all.map fun d => measure (table.get d)).sum +
        (measure x - measure (table.get c)) := by
  cases c <;> simp [Currency.all, set] <;> ring

/-! ## Holdings of a list of legs -/

namespace Holdings

def addLeg (held : Holdings) (leg : BookedLeg) : Calc Holdings := do
  let amount ← leg.amountSigned
  addTo held leg.currency amount

theorem ends_addLeg_iff (held : Holdings) (leg : BookedLeg) (held' : Holdings) :
    (held.addLeg leg).Ends exactly held' ↔
      ∃ amount, leg.amountSigned.Ends exactly amount ∧
      ∃ total, ((held.amount leg.currency).add amount).Ends exactly total ∧
        held.set leg.currency (some total) = held' := by
  simp only [addLeg, addTo, Calc.ends_bind_iff, Calc.ends_pure_iff]

/-- A currency is held as soon as a leg moved it, whatever is left of it. -/
theorem isSome_get_of_foldlM {legs : List BookedLeg} {held : Holdings}
    (h : (legs.foldlM addLeg empty).Ends exactly held) (c : Currency) :
    (held.get c).isSome = true ↔ ∃ leg ∈ legs, leg.currency = c := by
  have hstep : ∀ (done : List BookedLeg) (held : Holdings) (leg : BookedLeg) held',
      ((held.get c).isSome = true ↔ ∃ leg ∈ done, leg.currency = c) →
      (addLeg held leg).Ends exactly held' →
      ((held'.get c).isSome = true ↔ ∃ leg' ∈ done ++ [leg], leg'.currency = c) := by
    intro done held leg held' hdone hleg
    obtain ⟨_, -, total, -, rfl⟩ := (held.ends_addLeg_iff leg held').1 hleg
    by_cases hc : c = leg.currency
    · subst hc
      simp
    · simp [PerCurrency.get_set_of_ne _ _ hc, hdone, Ne.symm hc]
  have hstart : ((empty.get c).isSome = true ↔
      ∃ leg ∈ ([] : List BookedLeg), leg.currency = c) := by
    simp [empty]
  exact Calc.Ends.foldlM_inv hstep hstart h

end Holdings

/-! ## Totals -/

namespace AccountTotals

theorem native_of_foldlM {legs : List BookedLeg} {t t' : AccountTotals}
    (h : (legs.foldlM addLeg t).Ends exactly t') :
    (legs.foldlM Holdings.addLeg t.native).Ends exactly t'.native := by
  refine Calc.Ends.foldlM_view AccountTotals.native ?_ h
  intro t leg t' hleg
  obtain ⟨amount, hamount, native, hnative, _, -, _, -, rfl⟩ := (t.ends_addLeg_iff leg t').1 hleg
  exact (Calc.ends_bind_iff _ _ _).2 ⟨amount, hamount, hnative⟩

theorem legCount_of_foldlM {legs : List BookedLeg} {account : Account} {t : AccountTotals}
    (h : (legs.foldlM addLeg (empty account)).Ends exactly t) : t.legCount = legs.length := by
  have hstep : ∀ (done : List BookedLeg) (t : AccountTotals) (leg : BookedLeg) t',
      t.legCount = done.length → (t.addLeg leg).Ends exactly t' →
      t'.legCount = (done ++ [leg]).length := by
    intro done t leg t' hdone hleg
    obtain ⟨_, -, _, -, _, -, _, -, rfl⟩ := (t.ends_addLeg_iff leg t').1 hleg
    simp [hdone]
  have hstart : (empty account).legCount = ([] : List BookedLeg).length := rfl
  exact Calc.Ends.foldlM_inv hstep hstart h

end AccountTotals

/-! ## Statements -/

namespace AccountFilter

/-- The legs on the accounts of a filter, each with the entry it stands on, in order. -/
def bookings (f : AccountFilter) (entries : List Entry) : List (Entry × BookedLeg) :=
  entries.flatMap fun e => (e.legs.filter fun leg => f.accepts leg.account).map fun leg => (e, leg)

theorem map_snd_bookings (f : AccountFilter) (entries : List Entry) :
    (f.bookings entries).map Prod.snd =
      LedgerTotals.legsOf entries fun leg => f.accepts leg.account := by
  unfold bookings LedgerTotals.legsOf
  rw [List.map_flatMap, List.filter_flatMap]
  congr 1
  funext e
  rw [List.map_map]
  exact List.map_id _

end AccountFilter

namespace AccountBalance

namespace Running

theorem foldlM_addEntry (f : AccountFilter) (entries : List Entry) (r : Running) :
    entries.foldlM (addEntry f) r =
      (f.bookings entries).foldlM (fun r booking => addLeg booking.1 r booking.2) r := by
  induction entries generalizing r with
  | nil => rfl
  | cons e rest ih =>
      rw [AccountFilter.bookings, List.flatMap_cons, List.foldlM_cons, List.foldlM_append,
        List.foldlM_map]
      exact bind_congr ih

theorem ends_addLeg {e : Entry} {leg : BookedLeg} {r r' : Running}
    (h : (addLeg e r leg).Ends exactly r') :
    ∃ amount amounts converted line, leg.amountSigned.Ends exactly amount ∧
      leg.amountsSigned.Ends exactly amounts ∧
      (Holdings.addTo r.balances leg.currency amount).Ends exactly r'.balances ∧
      (Amounts.add ((r.converted.get leg.currency).getD .zero) amounts).Ends exactly converted ∧
      r'.converted = r.converted.set leg.currency (some converted) ∧
      r'.lines = r.lines ++ [line] := by
  simp only [addLeg, Calc.ends_bind_iff, Calc.ends_pure_iff] at h
  obtain ⟨amount, hamount, amounts, hamounts, balances, hbalances, converted, hconverted, rfl⟩ := h
  exact ⟨amount, amounts, converted, _, hamount, hamounts, hbalances, hconverted, rfl, rfl⟩

def worth (r : Running) (c : Currency) : Rat :=
  (Currency.all.map fun held => (((r.converted.get held).getD .zero).get c).value).sum

/-- A leg adds its conversion, whichever currency it moves. -/
theorem worth_addLeg {e : Entry} {leg : BookedLeg} {r r' : Running}
    (h : (addLeg e r leg).Exactly r') (c : Currency) :
    r'.worth c = r.worth c + (leg.conversion.amounts.get c).value * leg.sign.value := by
  obtain ⟨_, amounts, converted, _, -, hamounts, -, hconverted, hset, -⟩ :=
    ends_addLeg ((Calc.ends_true_iff _ _).2 h)
  have hsum := Amounts.value_of_add ((Calc.ends_true_iff _ _).1 hconverted) c
  have hscaled : (amounts.get c).value =
      (leg.conversion.amounts.get c).value * leg.sign.value :=
    Amounts.value_of_scale ((Calc.ends_true_iff _ _).1 hamounts) c
  have hplaces := PerCurrency.sum_set
    (fun place : Option Amounts => ((place.getD .zero).get c).value)
    r.converted leg.currency (some converted)
  rw [worth, hset, hplaces, Option.getD_some, hsum, hscaled, worth]
  ring

theorem worth_eq_sum (r : Running) (c : Currency) :
    r.worth c = ((r.converted.toList.filterMap Prod.snd).map fun a => (a.get c).value).sum := by
  have hplaces : ∀ cs : List Currency,
      (cs.map fun held => (((r.converted.get held).getD .zero).get c).value).sum =
        (((cs.map fun held => (held, r.converted.get held)).filterMap Prod.snd).map
          fun a => (a.get c).value).sum := by
    intro cs
    induction cs with
    | nil => rfl
    | cons held rest ih =>
        rw [List.map_cons, List.sum_cons, ih, List.map_cons, List.filterMap_cons]
        cases r.converted.get held <;> simp
  exact hplaces Currency.all

end Running

theorem exists_running {entries : List Entry} {account : Account} {sub : Option String}
    {asOf : Instant} {b : AccountBalance}
    (h : (ofEntries entries account sub asOf).Ends exactly b) :
    ∃ r : Running,
      (((AccountFilter.ofAccount account sub).bookings entries).foldlM
        (fun r booking => Running.addLeg booking.1 r booking.2) Running.start).Ends exactly r ∧
      ((r.converted.toList.filterMap Prod.snd).foldlM Amounts.add Amounts.zero).Ends exactly
        b.convertedTotal ∧
      b.lines = r.lines ∧ b.balances = r.balances := by
  simp only [ofEntries, Calc.ends_bind_iff, Calc.ends_pure_iff, Running.foldlM_addEntry] at h
  obtain ⟨r, hr, convertedTotal, htotal, rfl⟩ := h
  exact ⟨r, hr, htotal, rfl, rfl⟩

section Legs

variable {entries : List Entry} {account : Account} {sub : Option String} {asOf : Instant}
  {b : AccountBalance}

def legsOf (entries : List Entry) (account : Account) (sub : Option String) : List BookedLeg :=
  LedgerTotals.legsOf entries fun leg => (AccountFilter.ofAccount account sub).accepts leg.account

theorem balances_of_ends (h : (ofEntries entries account sub asOf).Ends exactly b) :
    ((legsOf entries account sub).foldlM Holdings.addLeg .empty).Ends exactly b.balances := by
  obtain ⟨r, hr, -, -, hbalances⟩ := exists_running h
  rw [legsOf, ← AccountFilter.map_snd_bookings, List.foldlM_map, hbalances]
  refine Calc.Ends.foldlM_view Running.balances ?_ hr
  intro r booking r' hbooking
  obtain ⟨amount, _, _, _, hamount, -, hadd, -, -, -⟩ := Running.ends_addLeg hbooking
  exact (Calc.ends_bind_iff _ _ _).2 ⟨amount, hamount, hadd⟩

theorem length_lines_of_ends (h : (ofEntries entries account sub asOf).Ends exactly b) :
    b.lines.length = (legsOf entries account sub).length := by
  obtain ⟨r, hr, -, hlines, -⟩ := exists_running h
  have hstep : ∀ (done : List (Entry × BookedLeg)) (r : Running) (booking : Entry × BookedLeg) r',
      r.lines.length = done.length → (Running.addLeg booking.1 r booking.2).Ends exactly r' →
      r'.lines.length = (done ++ [booking]).length := by
    intro done r booking r' hdone hbooking
    obtain ⟨_, _, _, line, -, -, -, -, -, hline⟩ := Running.ends_addLeg hbooking
    simp [hline, hdone]
  have hstart : Running.start.lines.length = ([] : List (Entry × BookedLeg)).length := rfl
  have hcount := Calc.Ends.foldlM_inv hstep hstart hr
  rw [hlines, hcount, legsOf, ← AccountFilter.map_snd_bookings, List.length_map, List.nil_append]

/-- An exact statement is worth what its legs are worth, however they are grouped. -/
theorem value_convertedTotal (h : (ofEntries entries account sub asOf).Exactly b) (c : Currency) :
    (b.convertedTotal.get c).value =
      ((legsOf entries account sub).map fun leg =>
        (leg.conversion.amounts.get c).value * leg.sign.value).sum := by
  obtain ⟨r, hr, htotal, -, -⟩ := exists_running ((Calc.ends_true_iff _ _).2 h)
  rw [Calc.ends_true_iff] at hr htotal
  have hgroup : ∀ a b total, (Amounts.add a b).Exactly total →
      (total.get c).value = (a.get c).value + (b.get c).value :=
    fun _ _ _ hadd => Amounts.value_of_add hadd c
  have hleg : ∀ r (booking : Entry × BookedLeg) r',
      (Running.addLeg booking.1 r booking.2).Exactly r' → r'.worth c = r.worth c +
        (booking.2.conversion.amounts.get c).value * booking.2.sign.value :=
    fun _ _ _ hbooking => Running.worth_addLeg hbooking c
  have hgrouped := Calc.measure_foldlM hgroup htotal
  have hworth := Calc.measure_foldlM hleg hr
  have hnothing : Running.start.worth c = 0 := by
    simp [Running.worth, Running.start, Currency.all]
  rw [hgrouped, ← Running.worth_eq_sum, hworth, hnothing, legsOf,
    ← AccountFilter.map_snd_bookings, List.map_map]
  simp
  rfl

/-- An exact statement holds what its legs move. -/
theorem value_balances (h : (ofEntries entries account sub asOf).Exactly b) (c : Currency) :
    (b.balances.amount c).value =
      ((legsOf entries account sub).map fun leg =>
        (if c = leg.currency then leg.amount.value else 0) * leg.sign.value).sum := by
  have hstep : ∀ (held : Holdings) (leg : BookedLeg) held', (held.addLeg leg).Exactly held' →
      (held'.amount c).value = (held.amount c).value +
        (if c = leg.currency then leg.amount.value else 0) * leg.sign.value := by
    intro held leg held' hleg
    obtain ⟨amount, hamount, hadd⟩ := (Calc.exactly_bind_iff _ _ _).1 hleg
    have hvalue : amount.value = leg.amount.value * leg.sign.value := Decimal.value_of_mul hamount
    rw [Holdings.value_of_addTo hadd c, hvalue, ite_mul, zero_mul]
  have hrun := (Calc.ends_true_iff _ _).1 (balances_of_ends ((Calc.ends_true_iff _ _).2 h))
  rw [Calc.measure_foldlM hstep hrun, Holdings.amount_empty, Decimal.value_zero, zero_add]

/-- The legs of a statement are picked out of those that the totals are over. -/
theorem legsOf_eq_filter (entries : List Entry) (account : Account) (sub : Option String) :
    legsOf entries account sub = (LedgerTotals.legsOf entries fun _ => true).filter
      fun leg => (AccountFilter.ofAccount account sub).accepts leg.account := by
  simp [legsOf, LedgerTotals.legsOf]

end Legs

end AccountBalance

/-! ## The same legs under their keys -/

/-- Narrowed to its sub-account, a filter accepts the account, however it is shown. -/
theorem AccountFilter.accepts_sub_iff (a b : Account) :
    (ofAccount a (some a.sub)).accepts b = true ↔ b.withoutContra = a.withoutContra := by
  cases a
  cases b
  simp [accepts, ofAccount, Account.withoutContra, and_assoc]

theorem AccountBalance.legsOf_sub (entries : List Entry) (account : Account) :
    legsOf entries account (some account.sub) =
      LedgerTotals.legsUnder account.withoutContra
        (LedgerTotals.legsOf entries fun _ => true) := by
  rw [legsOf_eq_filter, LedgerTotals.legsUnder]
  apply List.filter_congr
  intro leg _
  rw [Bool.eq_iff_iff, AccountFilter.accepts_sub_iff, decide_eq_true_iff]
  rfl

theorem sum_map_filter (select : α → Bool) (figure : α → Rat) (xs : List α) :
    ((xs.filter select).map figure).sum =
      (xs.map fun x => (if select x then 1 else 0) * figure x).sum := by
  induction xs with
  | nil => rfl
  | cons x rest ih =>
      rw [List.filter_cons, List.map_cons, List.sum_cons, ← ih]
      cases select x <;> simp

namespace LedgerTotals

def named (totals : LedgerTotals) (type : AccountType) (name : String) : List AccountTotals :=
  (totals.filter fun p => p.1.type == type && p.1.name == name).map Prod.snd

theorem lookup_toList {totals : LedgerTotals} (hnodup : (totals.map Prod.fst).Nodup)
    (key : Account) :
    (totals.filter fun p => p.1 = key).map Prod.snd = (List.lookup key totals).toList := by
  induction totals with
  | nil => rfl
  | cons p rest ih =>
      rw [List.map_cons, List.nodup_cons] at hnodup
      rw [List.filter_cons, lookup_cons]
      by_cases hkey : p.1 = key
      · subst hkey
        have hnone : rest.filter (fun q => q.1 = p.1) = [] := by
          rw [List.filter_eq_nil_iff]
          intro q hq heq
          exact hnodup.1 (of_decide_eq_true heq ▸ List.mem_map_of_mem hq)
        simp [hnone]
      · simp [hkey, Ne.symm hkey, ih hnodup.2]

namespace Groups

variable {legs : List BookedLeg} {totals : LedgerTotals} {entries : List Entry}

theorem legCount_totalOf (h : Groups exactly legs totals) (key : Account) :
    ((totals.totalOf key).legCount : Rat) =
      ((legsUnder key legs).map fun _ => (1 : Rat)).sum := by
  simp [AccountTotals.legCount_of_foldlM (h.total key)]

/-- What a statement over all sub-accounts counts is what stands under the accounts of the name. -/
theorem sum_named (h : Groups exactly (legsOf entries fun _ => true) totals) (account : Account)
    {figure : AccountTotals → Rat} {share : BookedLeg → Rat}
    (hfigure : ∀ key, figure (totals.totalOf key) =
      ((legsUnder key (legsOf entries fun _ => true)).map share).sum) :
    ((totals.named account.type account.name).map figure).sum =
      ((AccountBalance.legsOf entries account none).map share).sum := by
  have hsum := h.sum_eq
    (fun key => if key.type == account.type && key.name == account.name then 1 else 0) hfigure
  rw [named, List.map_map, sum_map_filter, AccountBalance.legsOf_eq_filter, sum_map_filter]
  simp only [AccountFilter.accepts, AccountFilter.ofAccount, Bool.and_true]
  exact hsum

theorem isSome_get_named (h : Groups exactly (legsOf entries fun _ => true) totals)
    (account : Account) (c : Currency) :
    (∃ t ∈ totals.named account.type account.name, (t.native.get c).isSome = true) ↔
      ∃ leg ∈ AccountBalance.legsOf entries account none, leg.currency = c := by
  have hheld : ∀ p ∈ totals, (p.2.native.get c).isSome = true ↔
      ∃ leg ∈ legsUnder p.1 (legsOf entries fun _ => true), leg.currency = c := by
    intro p hp
    have htotal := h.total p.1
    rw [h.totalOf_of_mem hp] at htotal
    exact Holdings.isSome_get_of_foldlM (AccountTotals.native_of_foldlM htotal) c
  rw [AccountBalance.legsOf_eq_filter]
  constructor
  · rintro ⟨t, ht, hsome⟩
    obtain ⟨p, hp, rfl⟩ := List.mem_map.1 ht
    obtain ⟨hmem, hname⟩ := List.mem_filter.1 hp
    obtain ⟨leg, hleg, rfl⟩ := (hheld p hmem).1 hsome
    obtain ⟨hall, hkey⟩ := List.mem_filter.1 hleg
    refine ⟨leg, List.mem_filter.2 ⟨hall, ?_⟩, rfl⟩
    rw [← of_decide_eq_true hkey] at hname
    simpa [AccountFilter.accepts, AccountFilter.ofAccount] using hname
  · rintro ⟨leg, hleg, rfl⟩
    obtain ⟨hall, haccepted⟩ := List.mem_filter.1 hleg
    obtain ⟨p, hp, hkey⟩ := List.mem_map.1 ((h.mem_keys_iff leg.key).2 ⟨leg, hall, rfl⟩)
    refine ⟨p.2, List.mem_map_of_mem (List.mem_filter.2 ⟨hp, ?_⟩), (hheld p hp).2 ⟨leg, ?_, rfl⟩⟩
    · rw [hkey]
      simpa [AccountFilter.accepts, AccountFilter.ofAccount] using haccepted
    · exact List.mem_filter.2 ⟨hall, by rw [hkey]; simp⟩

/-- Of the accounts of one type, those shown as an account are the one that stands under it. -/
theorem ofType_under (h : Groups exactly legs totals) (type : AccountType) (key : Account) :
    (totals.ofType type).filter (fun t => t.account.withoutContra = key) =
      if key.type = type then (List.lookup key totals).toList else [] := by
  rw [ofType, List.filter_filter, List.filter_map]
  have hsame : totals.filter ((fun t => decide (t.account.withoutContra = key) &&
      t.account.type == type) ∘ Prod.snd) =
        totals.filter fun p => decide (p.1 = key) && decide (key.type = type) := by
    apply List.filter_congr
    intro p hp
    have hshown := h.withoutContra_account hp
    have htype : p.2.account.type = p.1.type := by
      rw [← hshown]
      rfl
    rw [Function.comp_apply, hshown, htype]
    by_cases hkey : p.1 = key
    · simp [hkey, Bool.beq_eq_decide_eq]
    · simp [hkey]
  rw [hsame]
  by_cases htype : key.type = type
  · simp only [htype, decide_true, Bool.and_true, if_true]
    exact lookup_toList h.nodup_keys key
  · simp [htype]

end Groups

end LedgerTotals

/-! ## The lines of the sheet -/

theorem SheetSection.lines_of_ofTotals {rates : SpotRates} {totals : List AccountTotals}
    {s : SheetSection} (h : (ofTotals rates totals).Ends exactly s) :
    s.lines.map (fun line => (line.account, line.native)) =
      totals.map fun t => (t.account, t.native) := by
  have hstep : ∀ (done : List AccountTotals) (s : SheetSection) (t : AccountTotals) s',
      s.lines.map (fun line => (line.account, line.native)) =
        done.map (fun t => (t.account, t.native)) →
      (do let line ← SheetLine.ofTotals rates t; s.push line : Calc SheetSection).Ends exactly s' →
      s'.lines.map (fun line => (line.account, line.native)) =
        (done ++ [t]).map fun t => (t.account, t.native) := by
    intro done s t s' hdone hline
    simp only [SheetLine.ofTotals, push, Calc.ends_bind_iff, Calc.ends_pure_iff] at hline
    obtain ⟨_, ⟨_, -, rfl⟩, _, -, _, -, rfl⟩ := hline
    simp [hdone]
  have hstart : empty.lines.map (fun line => (line.account, line.native)) =
      ([] : List AccountTotals).map fun t => (t.account, t.native) := rfl
  exact Calc.Ends.foldlM_inv hstep hstart h

namespace BalanceSheet

/-- The lines of accounts; the two last ones of equity are worked out and no account's. -/
def accountLines (sheet : BalanceSheet) : List SheetLine :=
  sheet.assets.lines ++ sheet.liabilities.lines ++ sheet.equity.lines.dropLast.dropLast

variable {entries : List Entry} {asOf : Instant} {age : Option Span} {tolerance : Tolerance}
  {sheet : BalanceSheet}

theorem accountLines_of_ends (h : (ofEntries entries asOf age tolerance).Ends exactly sheet) :
    ∃ totals, (LedgerTotals.ofEntries entries fun _ => true).Ends exactly totals ∧
      sheet.accountLines.map (fun line => (line.account, line.native)) =
        (totals.ofType .asset ++ totals.ofType .liability ++ totals.ofType .equity).map
          fun t => (t.account, t.native) := by
  simp only [ofEntries, SheetSection.push, Calc.ends_bind_iff, Calc.ends_pure_iff] at h
  obtain ⟨rates, -, totals, htotals, assets, hassets, liabilities, hliabilities, owned, howned,
    _, -, _, -, _, -, _, -, _, -, _, -, _, -, _, ⟨_, -, _, -, rfl⟩, _, ⟨_, -, _, -, rfl⟩,
    _, -, _, -, _, -, _, -, rfl⟩ := h
  refine ⟨totals, htotals, ?_⟩
  simp only [accountLines, List.dropLast_concat, List.map_append,
    SheetSection.lines_of_ofTotals hassets, SheetSection.lines_of_ofTotals hliabilities,
    SheetSection.lines_of_ofTotals howned]

/-- An account of the sheet has the one line there that holds what stands under it. -/
theorem native_of_accountLines {totals : LedgerTotals}
    (htotals : (LedgerTotals.ofEntries entries fun _ => true).Ends exactly totals)
    (h : (ofEntries entries asOf age tolerance).Ends exactly sheet) (key : Account)
    (htype : key.type ∈ [AccountType.asset, .liability, .equity]) :
    (sheet.accountLines.filter fun line => line.account.withoutContra = key).map
        SheetLine.native =
      (List.lookup key totals).toList.map AccountTotals.native := by
  obtain ⟨totals', htotals', hlines⟩ := accountLines_of_ends h
  obtain rfl := htotals.yields.unique htotals'.yields
  have hgroups := LedgerTotals.groups_ofEntries htotals
  have hpairs := congrArg
    (fun pairs => (pairs.filter fun p : Account × Holdings => p.1.withoutContra = key).map Prod.snd)
    hlines
  simp only [List.filter_map, List.map_map] at hpairs
  refine hpairs.trans ?_
  have hshown : ∀ type, (totals.ofType type).filter
      ((fun p : Account × Holdings => decide (p.1.withoutContra = key)) ∘
        fun t => (t.account, t.native)) =
        if key.type = type then (List.lookup key totals).toList else [] :=
    fun type => hgroups.ofType_under type key
  rw [List.filter_append, List.filter_append, hshown, hshown, hshown]
  cases hkey : key.type <;> simp_all

end BalanceSheet

/-! ## Agreement -/

namespace AccountBalance

variable {entries : List Entry} {account : Account} {asOf : Instant} {totals : LedgerTotals}
  {b : AccountBalance}

theorem total_of_sub (account : Account)
    (htotals : (LedgerTotals.ofEntries entries fun _ => true).Ends exactly totals) :
    ((legsOf entries account (some account.sub)).foldlM AccountTotals.addLeg
      (.empty account.withoutContra)).Ends exactly (totals.totalOf account.withoutContra) := by
  rw [legsOf_sub]
  exact (LedgerTotals.groups_ofEntries htotals).total account.withoutContra

/-- Over one sub-account the same legs are added in the same order, so rounding does not matter. -/
theorem figures_of_sub
    (htotals : (LedgerTotals.ofEntries entries fun _ => true).Ends exactly totals)
    (h : (ofEntries entries account (some account.sub) asOf).Ends exactly b) :
    b.balances = (totals.totalOf account.withoutContra).native ∧
      b.lines.length = (totals.totalOf account.withoutContra).legCount ∧
      (List.lookup account.withoutContra totals = none ↔ b.lines = []) := by
  have htotal := total_of_sub account htotals
  have hlength := length_lines_of_ends h
  refine ⟨?_, ?_, ?_⟩
  · have hnative := AccountTotals.native_of_foldlM htotal
    exact (balances_of_ends h).yields.unique hnative.yields
  · rw [hlength, AccountTotals.legCount_of_foldlM htotal]
  · have hfound := (LedgerTotals.groups_ofEntries htotals).found_iff account.withoutContra
    rw [← List.length_eq_zero_iff, hlength, legsOf_sub, List.length_eq_zero_iff,
      LedgerTotals.legsUnder, List.filter_eq_nil_iff, ← Option.not_isSome_iff_eq_none, hfound]
    simp

/-- The line of the account on a sheet holds what its statement holds. -/
theorem line_of_sub {sheetAsOf : Instant} {age : Option Span} {tolerance : Tolerance}
    {sheet : BalanceSheet}
    (htotals : (LedgerTotals.ofEntries entries fun _ => true).Ends exactly totals)
    (h : (ofEntries entries account (some account.sub) asOf).Ends exactly b)
    (hsheet : (BalanceSheet.ofEntries entries sheetAsOf age tolerance).Ends exactly sheet)
    (htype : account.type ∈ [AccountType.asset, .liability, .equity]) :
    (sheet.accountLines.filter fun line =>
        line.account.withoutContra = account.withoutContra).map SheetLine.native =
      if b.lines = [] then [] else [b.balances] := by
  obtain ⟨hbalances, -, hnone⟩ := figures_of_sub htotals h
  rw [BalanceSheet.native_of_accountLines htotals hsheet account.withoutContra htype]
  cases hfound : List.lookup account.withoutContra totals with
  | none => simp [hnone.1 hfound]
  | some t =>
      have hlines : b.lines ≠ [] := by
        rw [Ne, ← hnone, hfound]
        simp
      simp [hlines, hbalances, LedgerTotals.totalOf, hfound]

/-- Over all sub-accounts of a name the figures are summed over its accounts. -/
theorem figures_of_name
    (htotals : (LedgerTotals.ofEntries entries fun _ => true).Exactly totals)
    (h : (ofEntries entries account none asOf).Exactly b) :
    b.lines.length =
        ((totals.named account.type account.name).map AccountTotals.legCount).sum ∧
      (∀ c, (b.balances.get c).isSome = true ↔
        ∃ t ∈ totals.named account.type account.name, (t.native.get c).isSome = true) ∧
      (∀ c, (b.balances.amount c).value =
        ((totals.named account.type account.name).map fun t => (t.native.amount c).value).sum) ∧
      ∀ c, (b.convertedTotal.get c).value =
        ((totals.named account.type account.name).map fun t => (t.converted.get c).value).sum := by
  have hgroups := LedgerTotals.groups_ofEntries ((Calc.ends_true_iff _ _).2 htotals)
  have hends := (Calc.ends_true_iff _ _).2 h
  refine ⟨?_, fun c => ?_, fun c => ?_, fun c => ?_⟩
  · have hsum : ((totals.named account.type account.name).map
        fun t => (t.legCount : Rat)).sum =
          ((legsOf entries account none).map fun _ => (1 : Rat)).sum :=
      hgroups.sum_named account hgroups.legCount_totalOf
    rw [← Nat.cast_inj (R := Rat), length_lines_of_ends hends, Nat.cast_list_sum, List.map_map]
    exact Eq.trans (by simp) hsum.symm
  · rw [hgroups.isSome_get_named account c]
    exact Holdings.isSome_get_of_foldlM (balances_of_ends hends) c
  · rw [value_balances h,
      hgroups.sum_named account (hgroups.figure_totalOf (AccountTotals.additive_native c))]
  · rw [value_convertedTotal h,
      hgroups.sum_named account (hgroups.figure_totalOf (AccountTotals.additive_converted c))]

/--
A statement and the totals by account agree. Over one sub-account a statement holds what stands
under the account, nothing when no leg does, has a line for each leg of that total, and holds what
the line of the account on a sheet shows; in exact runs it is worth what the total was converted
to. Over all sub-accounts of a name it comes, in exact runs, to the sums over its accounts.
-/
theorem agrees_with_totals
    (htotals : (LedgerTotals.ofEntries entries fun _ => true).Yields totals) (account : Account)
    (asOf : Instant) :
    (∀ b, (ofEntries entries account (some account.sub) asOf).Yields b →
      b.balances = (totals.totalOf account.withoutContra).native ∧
      b.lines.length = (totals.totalOf account.withoutContra).legCount ∧
      (List.lookup account.withoutContra totals = none ↔ b.lines = []) ∧
      ∀ sheetAsOf age tolerance sheet,
        (BalanceSheet.ofEntries entries sheetAsOf age tolerance).Yields sheet →
        account.type ∈ [AccountType.asset, .liability, .equity] →
        (sheet.accountLines.filter fun line =>
            line.account.withoutContra = account.withoutContra).map SheetLine.native =
          if b.lines = [] then [] else [b.balances]) ∧
    ((LedgerTotals.ofEntries entries fun _ => true).Exactly totals →
      (∀ b, (ofEntries entries account (some account.sub) asOf).Exactly b →
        ∀ c, (b.convertedTotal.get c).value =
          ((totals.totalOf account.withoutContra).converted.get c).value) ∧
      ∀ b, (ofEntries entries account none asOf).Exactly b →
        b.lines.length =
          ((totals.named account.type account.name).map AccountTotals.legCount).sum ∧
        (∀ c, (b.balances.get c).isSome = true ↔
          ∃ t ∈ totals.named account.type account.name, (t.native.get c).isSome = true) ∧
        (∀ c, (b.balances.amount c).value =
          ((totals.named account.type account.name).map fun t => (t.native.amount c).value).sum) ∧
        ∀ c, (b.convertedTotal.get c).value =
          ((totals.named account.type account.name).map
            fun t => (t.converted.get c).value).sum) := by
  rw [← Calc.ends_false_iff] at htotals
  refine ⟨?_, ?_⟩
  · intro b hb
    rw [← Calc.ends_false_iff] at hb
    obtain ⟨hbalances, hlength, hnone⟩ := figures_of_sub htotals hb
    refine ⟨hbalances, hlength, hnone, ?_⟩
    intro sheetAsOf age tolerance sheet hsheet htype
    rw [← Calc.ends_false_iff] at hsheet
    exact line_of_sub htotals hb hsheet htype
  · intro hexact
    refine ⟨?_, fun b hb => figures_of_name hexact hb⟩
    intro b hb c
    have hgroups := LedgerTotals.groups_ofEntries ((Calc.ends_true_iff _ _).2 hexact)
    rw [value_convertedTotal hb, legsOf_sub,
      hgroups.figure_totalOf (AccountTotals.additive_converted c)]

private def pooledTreasury : Account :=
  .plain .asset "Treasury" "main"

private def pooledLedger : List Entry :=
  let cold := Account.plain .asset "Treasury" "cold"
  [.sampleTransfer 0 pooledTreasury (.plain .liability "Customer" "alice") (.ofByte 100) .hive,
    .sampleTransfer 1 cold.asContra pooledTreasury (.ofByte 40) .hive,
    .sampleTransfer 2 pooledTreasury.asContra pooledTreasury (.ofByte 7) .hive,
    .sampleTransfer 3 cold (.plain .revenue "Fees" "") (.ofByte 3) .hbd]

/-- The account has four of the six legs of its name. -/
theorem agrees_over_pooled_ledger :
    ∃ totals sheet main all,
      (LedgerTotals.ofEntries pooledLedger fun _ => true).Exactly totals ∧
      (BalanceSheet.ofEntries pooledLedger ⟨4⟩ none .standard).Exactly sheet ∧
      (ofEntries pooledLedger pooledTreasury (some "main") ⟨4⟩).Exactly main ∧
      (ofEntries pooledLedger pooledTreasury none ⟨4⟩).Exactly all ∧
      main.lines.length = 4 ∧ (totals.totalOf pooledTreasury).legCount = 4 ∧
      (sheet.accountLines.filter fun line =>
        line.account.withoutContra = pooledTreasury).map SheetLine.native = [main.balances] ∧
      ((totals.named .asset "Treasury").map AccountTotals.legCount).sum = all.lines.length ∧
      (all.balances.amount .hive).value =
        ((totals.named .asset "Treasury").map fun t => (t.native.amount .hive).value).sum := by
  have htotals : (LedgerTotals.ofEntries pooledLedger fun _ => true).isExact = true := by
    decide +kernel
  have hsheet : (BalanceSheet.ofEntries pooledLedger ⟨4⟩ none .standard).isExact = true := by
    decide +kernel
  have hmain : (ofEntries pooledLedger pooledTreasury (some "main") ⟨4⟩).isExact = true := by
    decide +kernel
  have hall : (ofEntries pooledLedger pooledTreasury none ⟨4⟩).isExact = true := by
    decide +kernel
  have hfour : (legsOf pooledLedger pooledTreasury (some "main")).length = 4 := by
    decide +kernel
  obtain ⟨totals, htotals⟩ := Calc.exists_exactly htotals
  obtain ⟨sheet, hsheet⟩ := Calc.exists_exactly hsheet
  obtain ⟨main, hmain⟩ := Calc.exists_exactly hmain
  obtain ⟨all, hall⟩ := Calc.exists_exactly hall
  obtain ⟨honAccount, hexact⟩ := agrees_with_totals htotals.yields pooledTreasury ⟨4⟩
  obtain ⟨-, hcount, -, hline⟩ := honAccount main hmain.yields
  obtain ⟨hlines, -, hheld, -⟩ := (hexact htotals).2 all hall
  have hlength : main.lines.length = 4 := by
    rw [← hfour, length_lines_of_ends ((Calc.ends_true_iff _ _).2 hmain)]
  have hsome : main.lines ≠ [] := by
    intro hnone
    simp [hnone] at hlength
  have hshown := hline _ _ _ sheet hsheet.yields (by decide)
  rw [if_neg hsome] at hshown
  exact ⟨totals, sheet, main, all, htotals, hsheet, hmain, hall, hlength, hcount ▸ hlength,
    hshown, hlines.symm, hheld .hive⟩

end AccountBalance

end DoubleEntry
