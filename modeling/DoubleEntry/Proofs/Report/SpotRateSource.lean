import DoubleEntry.Proofs.Calculations
import DoubleEntry.Proofs.Pricing.HeldQuotes
import DoubleEntry.Proofs.Report.Grouping
import DoubleEntry.Proofs.Store.Runs
import DoubleEntry.Proofs.Store.Windows
import DoubleEntry.Proofs.Text.ByteOrder
import DoubleEntry.Report.Generation

/-!
# The entry that spot rates come from

Every figure of a balance sheet is valued at the rates of one entry: the newest of
those that were fetched, and the last of several at one time. A scan is ordered by time
and group id, so of a whole window that is one entry, whatever order the store has.
-/

namespace DoubleEntry

namespace SpotRates

/-! ## Rates of a conversion -/

theorem ratio_ne_divisionByZero (usd units : Decimal) :
    ratio usd units ≠ .fault .divisionByZero := by
  unfold ratio
  split
  · simp
  · rename_i hunits
    exact Decimal.div_ne_divisionByZero _ (Bool.eq_false_iff.2 hunits)

theorem ofAmounts_ne_divisionByZero (a : Amounts) : ofAmounts a ≠ .fault .divisionByZero := by
  refine Calc.bind_ne_fault (ratio_ne_divisionByZero _ _) fun hive => ?_
  refine Calc.bind_ne_fault (ratio_ne_divisionByZero _ _) fun hbd => ?_
  refine Calc.bind_ne_fault (ratio_ne_divisionByZero _ _) fun btc => ?_
  refine Calc.bind_ne_fault (ratio_ne_divisionByZero _ _) fun sats => ?_
  refine Calc.bind_ne_fault (ratio_ne_divisionByZero _ _) fun msats => ?_
  simp

/-! ## The newest of some entries -/

theorem newest?_concat (entries : List Entry) (e : Entry) :
    newest? (entries ++ [e]) =
      match newest? entries with
      | .none => some e
      | some b => if b.timestamp ≤ e.timestamp then some e else some b := by
  rw [newest?, List.foldl_append, List.foldl_cons, List.foldl_nil]
  rfl

theorem newest?_eq_none_iff (entries : List Entry) :
    newest? entries = .none ↔ entries = [] := by
  cases entries using List.reverseRecOn with
  | nil => simp [newest?]
  | append_singleton entries e =>
      rw [newest?_concat]
      split
      · simp
      · split <;> simp

/-- The last of the entries with the greatest timestamp. -/
def LastNewest (entries : List Entry) (e : Entry) : Prop :=
  ∃ before after, entries = before ++ e :: after ∧
    (∀ x ∈ before, x.timestamp ≤ e.timestamp) ∧ ∀ x ∈ after, x.timestamp < e.timestamp

theorem LastNewest.mem {entries : List Entry} {e : Entry} (h : LastNewest entries e) :
    e ∈ entries := by
  obtain ⟨before, after, rfl, -, -⟩ := h
  simp

theorem LastNewest.timestamp_le {entries : List Entry} {e x : Entry} (h : LastNewest entries e)
    (hx : x ∈ entries) : x.timestamp ≤ e.timestamp := by
  obtain ⟨before, after, rfl, hbefore, hafter⟩ := h
  rcases List.mem_append.1 hx with hx | hx
  · exact hbefore x hx
  · rcases List.mem_cons.1 hx with rfl | hx
    · exact Int.le_refl _
    · exact Int.le_of_lt (hafter x hx)

theorem lastNewest_concat_iff (entries : List Entry) (x e : Entry) :
    LastNewest (entries ++ [x]) e ↔
      (x = e ∧ ∀ y ∈ entries, y.timestamp ≤ x.timestamp) ∨
        (LastNewest entries e ∧ x.timestamp < e.timestamp) := by
  constructor
  · rintro ⟨before, after, heq, hbefore, hafter⟩
    cases after using List.reverseRecOn with
    | nil =>
        obtain ⟨rfl, rfl⟩ := List.append_singleton_inj.1 heq
        exact .inl ⟨rfl, hbefore⟩
    | append_singleton after last =>
        rw [← List.cons_append, ← List.append_assoc] at heq
        obtain ⟨rfl, rfl⟩ := List.append_singleton_inj.1 heq
        exact .inr ⟨⟨before, after, rfl, hbefore, fun y hy => hafter y (List.mem_append_left _ hy)⟩,
          hafter x (by simp)⟩
  · rintro (⟨rfl, hall⟩ | ⟨⟨before, after, rfl, hbefore, hafter⟩, hlt⟩)
    · exact ⟨entries, [], rfl, hall, List.forall_mem_nil _⟩
    · refine ⟨before, after ++ [x], List.append_assoc .., hbefore, ?_⟩
      intro y hy
      rcases List.mem_append.1 hy with hy | hy
      · exact hafter y hy
      · rwa [List.mem_singleton.1 hy]

theorem newest?_eq_some_iff (entries : List Entry) (e : Entry) :
    newest? entries = some e ↔ LastNewest entries e := by
  induction entries using List.reverseRecOn generalizing e with
  | nil => simp [newest?, LastNewest]
  | append_singleton entries x ih =>
      rw [newest?_concat, lastNewest_concat_iff]
      cases hbest : newest? entries with
      | none =>
          obtain rfl := (newest?_eq_none_iff entries).1 hbest
          simp [LastNewest]
      | some b =>
          have hb := (ih b).1 hbest
          dsimp only
          by_cases hle : b.timestamp ≤ x.timestamp
          · have hall : ∀ y ∈ entries, y.timestamp ≤ x.timestamp :=
              fun y hy => Int.le_trans (hb.timestamp_le hy) hle
            rw [if_pos hle, ← ih, hbest, Option.some_inj, Option.some_inj]
            constructor
            · intro hx
              exact .inl ⟨hx, hall⟩
            · rintro (⟨hx, -⟩ | ⟨rfl, hlt⟩)
              · exact hx
              · exact absurd hle (Int.not_le.2 hlt)
          · rw [if_neg hle, ← ih, hbest, Option.some_inj]
            constructor
            · rintro rfl
              exact .inr ⟨rfl, Int.not_le.1 hle⟩
            · rintro (⟨rfl, hall⟩ | ⟨hx, -⟩)
              · exact absurd (hall b hb.mem) hle
              · exact hx

theorem latest_eq_of_lastNewest {entries : List Entry} {e : Entry} (h : LastNewest entries e) :
    latest entries = ofAmounts e.debit.conversion.amounts := by
  rw [latest, (newest?_eq_some_iff entries e).2 h]

theorem exists_lastNewest {entries : List Entry} (h : entries ≠ []) :
    ∃ e, LastNewest entries e := by
  cases hbest : newest? entries with
  | none => exact absurd ((newest?_eq_none_iff entries).1 hbest) h
  | some e => exact ⟨e, (newest?_eq_some_iff entries e).1 hbest⟩

end SpotRates

/-! ## The newest entry of a window -/

theorem EntryQuery.accepts_window_iff {asOf : Instant} {age : Option Span} {q : EntryQuery}
    (h : (window asOf age).Yields q) (e : Entry) :
    q.accepts e = true ↔ e.LiveWithin asOf age := by
  constructor
  · exact staysWithin_window h e
  · rintro ⟨hlive, hlast, hfirst⟩
    have hreversed : e.isReversed = false := by
      rw [Entry.isReversed, hlive]
      rfl
    cases age with
    | none =>
        obtain rfl := (Calc.yields_pure_iff _ _).1 h
        simp [accepts, matchesTime, matchesAccount, upTo, live, hreversed, hlast]
    | some span =>
        obtain ⟨start, hstart, hq⟩ := (Calc.yields_bind_iff _ _ _).1 h
        obtain rfl := (Calc.yields_pure_iff _ _).1 hq
        have hle : start ≤ e.timestamp := by
          have := hfirst span rfl
          rwa [← Instant.nanos_of_minus hstart] at this
        simp [accepts, matchesTime, matchesAccount, upTo, live, hreversed, hlast, hle]

namespace Entry

theorem before_iff_bytes (a b : Entry) :
    a.Before b ↔ a.timestamp < b.timestamp ∨
      a.timestamp = b.timestamp ∧ Text.bytes a.groupId < Text.bytes b.groupId := by
  rw [Before, Text.lt_iff_bytes_lt]

theorem Before.timestamp_le {a b : Entry} (h : a.Before b) : a.timestamp ≤ b.timestamp := by
  rcases h with hlt | ⟨heq, -⟩
  · exact Int.le_of_lt hlt
  · exact Int.le_of_eq (congrArg Instant.nanos heq)

end Entry

namespace Store

/-- The live entry of a window that comes last by time, and then by the bytes of its group id. -/
structure Newest (s : Store) (asOf : Instant) (age : Option Span) (e : Entry) : Prop where
  stored : e ∈ s.entries
  live : e.LiveWithin asOf age
  last : ∀ other ∈ s.entries, other.LiveWithin asOf age → other ≠ e →
    other.timestamp < e.timestamp ∨
      other.timestamp = e.timestamp ∧ Text.bytes other.groupId < Text.bytes e.groupId

variable {s : Store} {asOf : Instant} {age : Option Span}

/-- Whatever the store holds, its window is empty or has one newest entry. -/
theorem Keyed.exists_newest (hs : s.Keyed) (asOf : Instant) (age : Option Span) :
    (∃ e, s.Newest asOf age e) ∨ ∀ e ∈ s.entries, ¬ e.LiveWithin asOf age := by
  classical
  let live := (s.entries.filter fun e => e.LiveWithin asOf age).mergeSort precedes
  have hlive : ∀ e, e ∈ live ↔ e ∈ s.entries ∧ e.LiveWithin asOf age := by
    intro e
    rw [List.mem_mergeSort, List.mem_filter, decide_eq_true_iff]
  have hsorted : live.Pairwise Entry.Before := hs.pairwise_sorted _
  cases hlast : live using List.reverseRecOn with
  | nil =>
      refine .inr fun e he hwithin => ?_
      have hmem := (hlive e).2 ⟨he, hwithin⟩
      rw [hlast] at hmem
      cases hmem
  | append_singleton before e =>
      rw [hlast] at hlive hsorted
      obtain ⟨hstored, hwithin⟩ := (hlive e).1 (by simp)
      refine .inl ⟨e, hstored, hwithin, fun other hother hother' hne => ?_⟩
      have hmem := (hlive other).2 ⟨hother, hother'⟩
      rw [List.mem_append, List.mem_singleton, or_iff_left hne] at hmem
      rw [← Entry.before_iff_bytes]
      exact (List.pairwise_append.1 hsorted).2.2 other hmem e (List.mem_singleton.2 rfl)

/-- In a scan of the window the newest entry comes last. -/
theorem Newest.lastNewest_fetch (hs : s.Keyed) {e : Entry} (h : s.Newest asOf age e)
    {q : EntryQuery} (hq : (EntryQuery.window asOf age).Yields q) :
    SpotRates.LastNewest (s.fetch q) e := by
  have hmem : ∀ x, x ∈ s.fetch q ↔ x ∈ s.entries ∧ x.LiveWithin asOf age := by
    intro x
    rw [mem_fetch_iff, mem_entries_iff, EntryQuery.accepts_window_iff hq]
  have hsorted := hs.pairwise_fetch q
  obtain ⟨before, after, heq⟩ := List.append_of_mem ((hmem e).2 ⟨h.stored, h.live⟩)
  rw [heq, List.pairwise_append, List.pairwise_cons] at hsorted
  obtain ⟨-, ⟨hafter, -⟩, hbefore⟩ := hsorted
  refine ⟨before, after, heq, fun x hx => (hbefore x hx e List.mem_cons_self).timestamp_le, ?_⟩
  intro x hx
  have hlater := hafter x hx
  have hne : x ≠ e := by
    rintro rfl
    exact hlater.not_symm hlater
  obtain ⟨hstored, hwithin⟩ := (hmem x).1 (by simp [heq, hx])
  have hearlier := h.last x hstored hwithin hne
  rw [← Entry.before_iff_bytes] at hearlier
  exact absurd hearlier hlater.not_symm

end Store

namespace BalanceSheet

variable {s t : Session} {asOf : Instant} {age : Option Span} {tolerance : Tolerance}
  {sheet : BalanceSheet}

theorem spotRates_of_yields {entries : List Entry}
    (h : (ofEntries entries asOf age tolerance).Yields sheet) :
    (SpotRates.latest entries).Yields sheet.spotRates := by
  simp only [ofEntries, Calc.yields_bind_iff, Calc.yields_pure_iff] at h
  obtain ⟨rates, hrates, _, -, _, -, _, -, _, -, _, -, _, -, _, -, _, -, _, -, _, -, _, -, _, -, _, -,
    _, -, _, -, _, -, _, -, rfl⟩ := h
  exact hrates

theorem exists_scan_of_run_generate
    (h : s.run (generate asOf age tolerance) = (.ok sheet, t)) :
    ∃ q, (EntryQuery.window asOf age).Yields q ∧
      (ofEntries (s.store.fetch q) asOf age tolerance).Yields sheet := by
  simp only [generate, Session.run_bind_eq_ok_iff, Session.run_countReport,
    Session.run_fetchEntries_eq_ok_iff, Session.run_calculate_eq_ok_iff, Session.run_journal] at h
  obtain ⟨_, _, ⟨⟩, q, _, ⟨hq, rfl⟩, _, _, ⟨-, rfl, rfl⟩, _, _, ⟨hsheet, rfl⟩, _, _, ⟨⟩, ⟨⟩⟩ := h
  exact ⟨q, hq, hsheet⟩

/--
Spot rates come from one entry. A sheet that is answered has the rates of the debit side's
conversion of the newest live entry of its window, and no rates at all when the window is empty. Of
any entries the last with the greatest timestamp is taken, and nothing is divided by zero.
-/
theorem spotRates_of_newest {s : Session} (hs : s.store.Keyed) (asOf : Instant)
    (age : Option Span) (tolerance : Tolerance) :
    ((∃ e, s.store.Newest asOf age e) ∨ ∀ e ∈ s.store.entries, ¬ e.LiveWithin asOf age) ∧
    (∀ sheet t, s.run (generate asOf age tolerance) = (.ok sheet, t) →
      (∀ e, s.store.Newest asOf age e →
        (SpotRates.ofAmounts e.debit.conversion.amounts).Yields sheet.spotRates) ∧
      ((∀ e ∈ s.store.entries, ¬ e.LiveWithin asOf age) → sheet.spotRates = SpotRates.none)) ∧
    (∀ amounts, SpotRates.ofAmounts amounts ≠ .fault .divisionByZero) ∧
    ∀ entries,
      (entries = [] → SpotRates.latest entries = pure SpotRates.none) ∧
      (entries ≠ [] → ∃ e, SpotRates.LastNewest entries e) ∧
      ∀ e, SpotRates.LastNewest entries e →
        SpotRates.latest entries = SpotRates.ofAmounts e.debit.conversion.amounts := by
  refine ⟨hs.exists_newest asOf age, ?_, SpotRates.ofAmounts_ne_divisionByZero, ?_⟩
  · intro sheet t hrun
    obtain ⟨q, hq, hsheet⟩ := exists_scan_of_run_generate hrun
    have hrates := spotRates_of_yields hsheet
    constructor
    · intro e he
      rwa [SpotRates.latest_eq_of_lastNewest (he.lastNewest_fetch hs hq)] at hrates
    · intro hnone
      have hempty : s.store.fetch q = [] := by
        rw [List.eq_nil_iff_forall_not_mem]
        intro e he
        rw [Store.mem_fetch_iff, ← Store.mem_entries_iff, EntryQuery.accepts_window_iff hq] at he
        exact hnone e he.1 he.2
      rw [hempty] at hrates
      exact ((Calc.yields_pure_iff _ _).1 hrates).symm
  · intro entries
    refine ⟨?_, SpotRates.exists_lastNewest, fun e he => SpotRates.latest_eq_of_lastNewest he⟩
    rintro rfl
    rfl

private def moved (groupId : String) (nanos : Int) (amount : Decimal) : Entry :=
  { Entry.sampleTransfer nanos (.plain .asset "Treasury" "") (.plain .equity "Owner" "") amount
      .hive with groupId := groupId }

/-- Two entries at one time, one that is reversed after them, and one after the sheet. -/
private def tiedLedger : Session :=
  { Session.fresh with
    store := (((Store.empty.put (moved "later" 9 (.ofByte 8))).put
      { moved "reversed" 4 (.ofByte 6) with reversed := some ⟨7⟩ }).put
        (moved "tied é" 3 (.ofByte 5))).put (moved "tied z" 3 (.ofByte 2)) }

/-- Of two entries at one time, the one whose id has more than ASCII comes last. -/
theorem spotRates_of_tied_ledger :
    tiedLedger.store.Newest ⟨5⟩ none (moved "tied é" 3 (.ofByte 5)) ∧
      ∃ sheet t, tiedLedger.run (generate ⟨5⟩ none .standard) = (.ok sheet, t) ∧
        (SpotRates.ofAmounts (moved "tied é" 3 (.ofByte 5)).debit.conversion.amounts).Yields
          sheet.spotRates := by
  have hkeyed : tiedLedger.store.Keyed := (((Store.keyed_empty.put _).put _).put _).put _
  have hnewest : tiedLedger.store.Newest ⟨5⟩ none (moved "tied é" 3 (.ofByte 5)) := by
    have hentries : tiedLedger.store.entries = [moved "tied z" 3 (.ofByte 2),
      moved "tied é" 3 (.ofByte 5), { moved "reversed" 4 (.ofByte 6) with reversed := some ⟨7⟩ },
      moved "later" 9 (.ofByte 8)] := rfl
    refine ⟨by simp [hentries], ⟨rfl, by decide, nofun⟩, fun other hother hwithin hne => ?_⟩
    simp only [hentries, List.mem_cons, List.not_mem_nil, or_false] at hother
    rcases hother with rfl | rfl | rfl | rfl
    · exact .inr ⟨rfl, (Text.lt_iff_bytes_lt _ _).1 (by decide)⟩
    · exact absurd rfl hne
    · exact absurd hwithin.live (by simp)
    · exact absurd hwithin.not_later (by decide)
  -- The store has them in order already, so the scan can be evaluated.
  have hscan : tiedLedger.store.fetch (.upTo ⟨5⟩) =
      tiedLedger.store.entries.filter (EntryQuery.upTo ⟨5⟩).accepts := by
    apply List.mergeSort_of_pairwise
    decide
  have hexact : (ofEntries (tiedLedger.store.entries.filter (EntryQuery.upTo ⟨5⟩).accepts) ⟨5⟩ none
      .standard).isExact = true := by
    decide +kernel
  rw [← hscan] at hexact
  obtain ⟨sheet, hsheet⟩ := Calc.exists_exactly hexact
  obtain ⟨t, ht⟩ : ∃ t, tiedLedger.run (generate ⟨5⟩ none .standard) = (.ok sheet, t) := by
    simp only [generate, Session.run_bind_eq_ok_iff, Session.run_fetchEntries_eq_ok_iff,
      Session.run_calculate_eq_ok_iff]
    exact ⟨_, _, _, rfl, _, _, ⟨rfl, rfl⟩, _, _, ⟨rfl, rfl, rfl⟩, _, _, ⟨hsheet.yields, rfl⟩, _, _,
      rfl, rfl⟩
  obtain ⟨-, hrates, -, -⟩ := spotRates_of_newest hkeyed ⟨5⟩ none .standard
  exact ⟨hnewest, sheet, t, ht, (hrates sheet t ht).1 _ hnewest⟩

end BalanceSheet

end DoubleEntry
