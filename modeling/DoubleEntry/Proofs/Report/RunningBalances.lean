import DoubleEntry.Proofs.Report.Statements

/-!
# Running balances

A statement adds up each currency of its account in two tables while it writes its
lines. Whatever the legs are, the lines alone say what stands in the tables: in each
currency the balance is that of its last line, and every line's balance is the sum
of the signed amounts of its currency up to it.
-/

namespace DoubleEntry

variable {exactly : Bool}

/-! ## Lines and the sums over them -/

/-- A line shows the leg it is for, on its entry, with what the leg's figures come to. -/
structure BalanceLine.Records (exactly : Bool) (line : BalanceLine) (booking : Entry × BookedLeg) :
    Prop where
  timestamp : line.timestamp = booking.1.timestamp
  groupId : line.groupId = booking.1.groupId
  shortId : line.shortId = booking.1.shortId
  category : line.category = booking.1.category
  description : line.description = booking.1.description
  side : line.side = booking.2.side
  account : line.account = booking.2.account
  amount : line.amount = booking.2.amount
  currency : line.currency = booking.2.currency
  amountSigned : booking.2.amountSigned.Ends exactly line.amountSigned
  convertedSigned : booking.2.amountsSigned.Ends exactly line.convertedSigned

namespace AccountBalance

def linesIn (c : Currency) (lines : List BalanceLine) : List BalanceLine :=
  lines.filter fun line => line.currency = c

def amountOf (lines : List BalanceLine) : Calc Decimal :=
  (lines.map BalanceLine.amountSigned).foldlM Decimal.add .zero

def worthOf (lines : List BalanceLine) : Calc Amounts :=
  (lines.map BalanceLine.convertedSigned).foldlM Amounts.add .zero

theorem linesIn_eq_nil_iff {c : Currency} {lines : List BalanceLine} :
    linesIn c lines = [] ↔ ∀ line ∈ lines, line.currency ≠ c := by
  simp [linesIn, List.filter_eq_nil_iff]

theorem linesIn_concat_self (lines : List BalanceLine) (line : BalanceLine) :
    linesIn line.currency (lines ++ [line]) = linesIn line.currency lines ++ [line] := by
  simp [linesIn, List.filter_append]

theorem linesIn_concat_of_ne {c : Currency} {line : BalanceLine} (lines : List BalanceLine)
    (h : c ≠ line.currency) : linesIn c (lines ++ [line]) = linesIn c lines := by
  simp [linesIn, List.filter_append, Ne.symm h]

theorem amountOf_concat_iff (lines : List BalanceLine) (line : BalanceLine) (total : Decimal) :
    (amountOf (lines ++ [line])).Ends exactly total ↔
      ∃ before, (amountOf lines).Ends exactly before ∧
        (before.add line.amountSigned).Ends exactly total := by
  rw [amountOf, List.map_append]
  exact Calc.ends_foldlM_concat_iff ..

theorem worthOf_concat_iff (lines : List BalanceLine) (line : BalanceLine) (total : Amounts) :
    (worthOf (lines ++ [line])).Ends exactly total ↔
      ∃ before, (worthOf lines).Ends exactly before ∧
        (before.add line.convertedSigned).Ends exactly total := by
  rw [worthOf, List.map_append]
  exact Calc.ends_foldlM_concat_iff ..

def lastBalance (lines : List BalanceLine) : Option Decimal :=
  lines.getLast?.map BalanceLine.runningBalance

@[simp] theorem lastBalance_concat (lines : List BalanceLine) (line : BalanceLine) :
    lastBalance (lines ++ [line]) = some line.runningBalance := by
  simp [lastBalance]

/-- Each line's balance is the sum over its currency up to the line and including it. -/
def RunsAlong (exactly : Bool) (lines : List BalanceLine) : Prop :=
  ∀ before line, before ++ [line] <+: lines →
    (amountOf (linesIn line.currency (before ++ [line]))).Ends exactly line.runningBalance

theorem runsAlong_concat_iff (lines : List BalanceLine) (line : BalanceLine) :
    RunsAlong exactly (lines ++ [line]) ↔ RunsAlong exactly lines ∧
      (amountOf (linesIn line.currency (lines ++ [line]))).Ends exactly line.runningBalance := by
  constructor
  · intro h
    exact ⟨fun before other hpre => h before other (hpre.trans (List.prefix_append lines _)),
      h lines line List.prefix_rfl⟩
  · rintro ⟨hlines, hline⟩ before other hpre
    rw [List.prefix_concat_iff] at hpre
    rcases hpre with heq | hpre
    · obtain ⟨rfl, rfl⟩ := List.append_singleton_inj.1 heq
      exact hline
    · exact hlines before other hpre

/-- The last balance in a currency is the sum over all its lines. -/
theorem RunsAlong.amountOf_ends {lines : List BalanceLine} (h : RunsAlong exactly lines)
    (c : Currency) :
    (amountOf (linesIn c lines)).Ends exactly ((lastBalance (linesIn c lines)).getD .zero) := by
  induction lines using List.reverseRecOn with
  | nil => exact (Calc.ends_pure_iff _ _).2 rfl
  | append_singleton lines line ih =>
      obtain ⟨hlines, hline⟩ := (runsAlong_concat_iff lines line).1 h
      by_cases hc : c = line.currency
      · subst hc
        rw [linesIn_concat_self] at hline ⊢
        rw [lastBalance_concat]
        exact hline
      · rw [linesIn_concat_of_ne lines hc]
        exact ih hlines

/-! ## One leg after another -/

namespace Running

/-- What stands in the tables after some legs, told by the lines that were written for them. -/
structure Adds (exactly : Bool) (bookings : List (Entry × BookedLeg)) (r : Running) : Prop where
  lines : List.Forall₂ (BalanceLine.Records exactly) r.lines bookings
  running : RunsAlong exactly r.lines
  balances : ∀ c, r.balances.get c = lastBalance (linesIn c r.lines)
  currencies : ∀ c, (r.converted.get c).isSome = true ↔ ∃ line ∈ r.lines, line.currency = c
  converted : ∀ c amounts, r.converted.get c = some amounts →
    (worthOf (linesIn c r.lines)).Ends exactly amounts

def push (r : Running) (line : BalanceLine) (converted : Amounts) : Running :=
  ⟨r.lines ++ [line], r.balances.set line.currency (some line.runningBalance),
    r.converted.set line.currency (some converted)⟩

theorem ends_addLeg_iff {e : Entry} {leg : BookedLeg} {r r' : Running} :
    (addLeg e r leg).Ends exactly r' ↔
      ∃ line converted, line.Records exactly (e, leg) ∧
        ((r.balances.amount line.currency).add line.amountSigned).Ends exactly
          line.runningBalance ∧
        (Amounts.add ((r.converted.get line.currency).getD .zero) line.convertedSigned).Ends
          exactly converted ∧
        r' = r.push line converted := by
  simp only [addLeg, Holdings.addTo, Calc.ends_bind_iff, Calc.ends_pure_iff]
  constructor
  · rintro ⟨amount, hamount, amounts, hamounts, _, ⟨balance, hbalance, rfl⟩, converted,
      hconverted, rfl⟩
    let line : BalanceLine :=
      ⟨e.timestamp, e.groupId, e.shortId, e.category, e.description, leg.side, leg.account,
        leg.amount, leg.currency, amount, amounts, balance⟩
    have hrecords : line.Records exactly (e, leg) :=
      ⟨rfl, rfl, rfl, rfl, rfl, rfl, rfl, rfl, rfl, hamount, hamounts⟩
    refine ⟨line, converted, hrecords, hbalance, hconverted, ?_⟩
    simp [push, line, Holdings.amount]
  · rintro ⟨line, converted, hrecords, hbalance, hconverted, rfl⟩
    have hcurrency : line.currency = leg.currency := hrecords.currency
    rw [hcurrency] at hbalance hconverted
    refine ⟨_, hrecords.amountSigned, _, hrecords.convertedSigned, _, ⟨_, hbalance, rfl⟩, _,
      hconverted, ?_⟩
    cases line
    cases hrecords
    simp_all [push, Holdings.amount]

variable {done : List (Entry × BookedLeg)} {booking : Entry × BookedLeg} {r r' : Running}
  {line : BalanceLine} {converted : Amounts}

/-- What stands in both tables is what the lines add up to. -/
theorem Adds.tables (h : Adds exactly done r) (c : Currency) :
    (amountOf (linesIn c r.lines)).Ends exactly (r.balances.amount c) ∧
      (worthOf (linesIn c r.lines)).Ends exactly ((r.converted.get c).getD .zero) := by
  constructor
  · rw [Holdings.amount, h.balances]
    exact h.running.amountOf_ends c
  · cases hget : r.converted.get c with
    | some amounts => exact h.converted c amounts hget
    | none =>
        have hnone : linesIn c r.lines = [] := by
          rw [linesIn_eq_nil_iff]
          intro line hline hc
          have hsome := (h.currencies c).2 ⟨line, hline, hc⟩
          simp [hget] at hsome
        rw [hnone]
        exact (Calc.ends_pure_iff _ _).2 rfl

theorem Adds.push (h : Adds exactly done r) (hline : line.Records exactly booking)
    (hbalance : ((r.balances.amount line.currency).add line.amountSigned).Ends exactly
      line.runningBalance)
    (hconverted : (Amounts.add ((r.converted.get line.currency).getD .zero)
      line.convertedSigned).Ends exactly converted) :
    Adds exactly (done ++ [booking]) (r.push line converted) := by
  obtain ⟨hamount, hworth⟩ := h.tables line.currency
  have hself := linesIn_concat_self r.lines line
  constructor
  · exact List.rel_append h.lines (.cons hline .nil)
  · refine (runsAlong_concat_iff _ _).2 ⟨h.running, ?_⟩
    rw [hself, amountOf_concat_iff]
    exact ⟨_, hamount, hbalance⟩
  · intro c
    by_cases hc : c = line.currency
    · subst hc
      simp [Running.push, hself]
    · simp [Running.push, PerCurrency.get_set_of_ne _ _ hc, h.balances, linesIn_concat_of_ne _ hc]
  · intro c
    by_cases hc : c = line.currency
    · subst hc
      simp [Running.push]
    · simp [Running.push, PerCurrency.get_set_of_ne _ _ hc, h.currencies, Ne.symm hc]
  · intro c amounts hget
    by_cases hc : c = line.currency
    · subst hc
      have heq : converted = amounts := by
        simpa [Running.push] using hget
      subst heq
      rw [Running.push, hself, worthOf_concat_iff]
      exact ⟨_, hworth, hconverted⟩
    · rw [Running.push, PerCurrency.get_set_of_ne _ _ hc] at hget
      rw [Running.push, linesIn_concat_of_ne _ hc]
      exact h.converted c amounts hget

theorem Adds.eq_of_lines (h : Adds exactly done r) (h' : Adds exactly done r')
    (hlines : r.lines = r'.lines) : r = r' := by
  have hbalances : r.balances = r'.balances := by
    apply PerCurrency.ext_get
    intro c
    rw [h.balances, h'.balances, hlines]
  have hconverted : r.converted = r'.converted := by
    apply PerCurrency.ext_get
    intro c
    have hsome : (r.converted.get c).isSome = true ↔ (r'.converted.get c).isSome = true := by
      rw [h.currencies, h'.currencies, hlines]
    cases hget : r.converted.get c with
    | none =>
        symm
        simpa [hget] using hsome
    | some amounts =>
        obtain ⟨amounts', hget'⟩ := Option.isSome_iff_exists.1 (hsome.1 (by simp [hget]))
        have hends' := h'.converted c amounts' hget'
        rw [← hlines] at hends'
        rw [hget', (h.converted c amounts hget).yields.unique hends'.yields]
  cases r
  cases r'
  simp_all

/-- Lines whose sums all end belong to tables that have these sums. -/
theorem exists_adds {lines : List BalanceLine}
    (hlines : List.Forall₂ (BalanceLine.Records exactly) lines done)
    (hrunning : RunsAlong exactly lines)
    (hworth : ∀ c, ∃ amounts, (worthOf (linesIn c lines)).Ends exactly amounts) :
    ∃ r, Adds exactly done r ∧ r.lines = lines := by
  choose worth hworth using hworth
  let r : Running :=
    { lines := lines
      balances := .ofFn fun c => lastBalance (linesIn c lines)
      converted := .ofFn fun c => if linesIn c lines = [] then none else some (worth c) }
  refine ⟨r, ⟨hlines, hrunning, fun c => PerCurrency.get_ofFn _ c, ?_, ?_⟩, rfl⟩
  · intro c
    simp [r, linesIn_eq_nil_iff]
  · intro c amounts hget
    rw [PerCurrency.get_ofFn] at hget
    split at hget
    · cases hget
    · cases hget
      exact hworth c

theorem Adds.exists_push (h : Adds exactly (done ++ [booking]) r') :
    ∃ r line converted, Adds exactly done r ∧ line.Records exactly booking ∧
      ((r.balances.amount line.currency).add line.amountSigned).Ends exactly
        line.runningBalance ∧
      (Amounts.add ((r.converted.get line.currency).getD .zero) line.convertedSigned).Ends
        exactly converted ∧
      r' = r.push line converted := by
  obtain ⟨lines, line, hlines, hline, hr'⟩ : ∃ lines line,
      List.Forall₂ (BalanceLine.Records exactly) lines done ∧ line.Records exactly booking ∧
        r'.lines = lines ++ [line] := by
    have hdone := List.forall₂_take_append _ _ _ h.lines
    have hlast := List.forall₂_drop_append _ _ _ h.lines
    obtain ⟨line, rest, hline, hrest, hdrop⟩ := List.forall₂_cons_right_iff.1 hlast
    rw [List.forall₂_nil_right_iff] at hrest
    subst hrest
    exact ⟨_, line, hdone, hline, by rw [← hdrop, List.take_append_drop]⟩
  have hrunning := h.running
  have htables := fun c => (h.tables c).2
  rw [hr'] at hrunning htables
  obtain ⟨hbefore, hlast⟩ := (runsAlong_concat_iff lines line).1 hrunning
  have hself := htables line.currency
  rw [linesIn_concat_self] at hlast hself
  obtain ⟨amount, hamount, hbalance⟩ := (amountOf_concat_iff _ _ _).1 hlast
  obtain ⟨worth, hworth, hconverted⟩ := (worthOf_concat_iff _ _ _).1 hself
  -- The tables before the leg are those of the lines before its line.
  have hends : ∀ c, ∃ amounts, (worthOf (linesIn c lines)).Ends exactly amounts := by
    intro c
    by_cases hc : c = line.currency
    · subst hc
      exact ⟨worth, hworth⟩
    · have hother := htables c
      rw [linesIn_concat_of_ne lines hc] at hother
      exact ⟨_, hother⟩
  obtain ⟨r, hr, rfl⟩ := exists_adds hlines hbefore hends
  obtain ⟨hamount', hworth'⟩ := hr.tables line.currency
  obtain rfl := hamount.yields.unique hamount'.yields
  obtain rfl := hworth.yields.unique hworth'.yields
  exact ⟨r, line, _, hr, hline, hbalance, hconverted,
    h.eq_of_lines (hr.push hline hbalance hconverted) hr'⟩

theorem adds_concat_iff :
    Adds exactly (done ++ [booking]) r' ↔
      ∃ r, Adds exactly done r ∧ (addLeg booking.1 r booking.2).Ends exactly r' := by
  constructor
  · intro h
    obtain ⟨r, line, converted, hr, hleg⟩ := h.exists_push
    exact ⟨r, hr, ends_addLeg_iff.2 ⟨line, converted, hleg⟩⟩
  · rintro ⟨r, hr, hleg⟩
    obtain ⟨line, converted, hline, hbalance, hconverted, rfl⟩ := ends_addLeg_iff.1 hleg
    exact hr.push hline hbalance hconverted

theorem adds_nil_iff : Adds exactly [] r ↔ start = r := by
  have hstart : Adds exactly [] start :=
    { lines := .nil
      running := fun _ _ hpre => by simp [start] at hpre
      balances := fun c => PerCurrency.get_ofFn _ c
      currencies := by simp [start]
      converted := by simp [start] }
  constructor
  · intro h
    exact hstart.eq_of_lines h (List.forall₂_nil_right_iff.1 h.lines).symm
  · rintro rfl
    exact hstart

theorem ends_foldlM_iff (bookings : List (Entry × BookedLeg)) :
    (bookings.foldlM (fun r booking => addLeg booking.1 r booking.2) start).Ends exactly r ↔
      Adds exactly bookings r := by
  -- From the end, since a balance is a sum over the lines that were there before.
  induction bookings using List.reverseRecOn generalizing r with
  | nil => rw [List.foldlM_nil, Calc.ends_pure_iff, adds_nil_iff]
  | append_singleton done booking ih =>
      rw [Calc.ends_foldlM_concat_iff, adds_concat_iff]
      exact exists_congr fun _ => and_congr_left' ih

end Running

/-! ## The whole statement -/

/-- What a statement of some entries shows, told by its lines. -/
structure Itemizes (exactly : Bool) (entries : List Entry) (account : Account)
    (sub : Option String) (asOf : Instant) (b : AccountBalance) : Prop where
  adds : Running.Adds exactly ((AccountFilter.ofAccount account sub).bookings entries)
    ⟨b.lines, b.balances, b.convertedByCurrency⟩
  convertedTotal :
    ((b.convertedByCurrency.toList.filterMap Prod.snd).foldlM Amounts.add Amounts.zero).Ends
      exactly b.convertedTotal
  convertedIn : ∀ shown, b.convertedIn shown = b.convertedTotal.get shown
  convertedSummary : ∀ shown, b.convertedSummary.get shown =
    if shown ∈ Currency.displayed then some (b.convertedTotal.get shown) else none
  currencyConvertedIn : ∀ native shown amounts, b.convertedByCurrency.get native = some amounts →
    b.currencyConvertedIn native shown = amounts.get shown
  nothingConvertedIn : ∀ native shown, (∀ line ∈ b.lines, line.currency ≠ native) →
    b.currencyConvertedIn native shown = .zero
  account : b.account = account
  sub : b.sub = sub
  asOf : b.asOf = asOf

/--
A statement is worked out exactly when its sums do not overflow, and then there is one line for
each leg on the account, in order; each line's balance is the sum of its currency so far; a currency
is held when it has a line, and comes to the balance of its last one; and the conversions are
added up line by line in each currency, and then over the currencies.
-/
theorem ends_ofEntries_iff_itemizes (entries : List Entry) (account : Account)
    (sub : Option String) (asOf : Instant) (b : AccountBalance) :
    (ofEntries entries account sub asOf).Ends exactly b ↔
      b.Itemizes exactly entries account sub asOf := by
  simp only [ofEntries, Calc.ends_bind_iff, Calc.ends_pure_iff, Running.foldlM_addEntry,
    Running.ends_foldlM_iff]
  constructor
  · rintro ⟨r, hadds, total, htotal, rfl⟩
    refine ⟨hadds, htotal, fun _ => rfl, fun _ => PerCurrency.get_ofFn _ _, ?_, ?_, rfl, rfl, rfl⟩
    · intro native shown amounts hget
      rw [currencyConvertedIn, hget]
    · intro native shown hnone
      have habsent : r.converted.get native = none := by
        rw [← Option.not_isSome_iff_eq_none, hadds.currencies]
        rintro ⟨line, hline, hc⟩
        exact hnone line hline hc
      rw [currencyConvertedIn, habsent]
  · intro h
    obtain ⟨rfl, rfl, rfl⟩ := And.intro h.account (And.intro h.sub h.asOf)
    exact ⟨_, h.adds, _, h.convertedTotal, rfl⟩

private def pool : Account :=
  .plain .asset "Treasury" "pool"

/-- Both legs of the second entry are on the pool, and the third is in another currency. -/
private def poolLedger : List Entry :=
  [.sampleTransfer 0 pool (.plain .revenue "Fees" "") (.ofByte 100) .hive,
    .sampleTransfer 1 pool.asContra pool (.ofByte 7) .hive,
    .sampleTransfer 2 pool (.plain .revenue "Fees" "") (.ofByte 3) .hbd]

theorem itemizes_poolLedger :
    ∃ b : AccountBalance, b.Itemizes true poolLedger pool none ⟨9⟩ ∧
      b.lines.map (fun line => (line.side, line.currency, line.runningBalance)) =
        [(.debit, .hive, .ofByte 100), (.debit, .hive, .ofByte 107),
          (.credit, .hive, .ofByte 100), (.debit, .hbd, .ofByte 3)] := by
  have hlines : ((fun b : AccountBalance => b.lines.map fun line =>
      (line.side, line.currency, line.runningBalance)) <$>
        ofEntries poolLedger pool none ⟨9⟩).Ends true
      [(.debit, .hive, .ofByte 100), (.debit, .hive, .ofByte 107),
        (.credit, .hive, .ofByte 100), (.debit, .hbd, .ofByte 3)] := by
    refine ⟨false, ?_, fun _ => rfl⟩
    decide +kernel
  rw [map_eq_pure_bind, Calc.ends_bind_iff] at hlines
  obtain ⟨b, hb, hshown⟩ := hlines
  exact ⟨b, (ends_ofEntries_iff_itemizes poolLedger pool none ⟨9⟩ b).1 hb,
    (Calc.ends_pure_iff _ _).1 hshown⟩

end AccountBalance

end DoubleEntry
