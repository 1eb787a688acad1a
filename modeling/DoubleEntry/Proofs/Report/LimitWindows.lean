import DoubleEntry.Proofs.Calculations
import DoubleEntry.Proofs.Decimal.Difference
import DoubleEntry.Proofs.Entry.Precision
import DoubleEntry.Proofs.Entry.Twins
import DoubleEntry.Proofs.Store.Runs
import DoubleEntry.Proofs.Store.Windows
import DoubleEntry.Report.Limits

/-!
# Usage of limit windows

All windows are answered from one scan, which reaches back as far as the longest of
them. No window sees the difference: what the scan holds of a window is what the
store holds of it, so each usage counts its own entries and no others, whatever
other windows were asked for. A longer window counts what a shorter one counts.
-/

namespace DoubleEntry

/-! ## What counts -/

/-- A live conversion of a customer, in the window of a length that ends at `now`. -/
def Entry.CountsIn (e : Entry) (custId : String) (now : Instant) (length : Span) : Prop :=
  e.reversed = none ∧ e.custId = custId ∧
    (e.category = .hiveToLightning ∨ e.category = .lightningToHive) ∧
    now.nanos - length.nanos ≤ e.timestamp.nanos ∧ e.timestamp.nanos ≤ now.nanos

instance (e : Entry) (custId : String) (now : Instant) (length : Span) :
    Decidable (e.CountsIn custId now length) :=
  inferInstanceAs (Decidable (_ ∧ _))

theorem Entry.CountsIn.of_length_le {e : Entry} {custId : String} {now : Instant}
    {length longer : Span} (h : e.CountsIn custId now length) (hle : length ≤ longer) :
    e.CountsIn custId now longer := by
  obtain ⟨hlive, hcustId, hcategory, hfirst, hlast⟩ := h
  have hnanos : length.nanos ≤ longer.nanos := hle
  exact ⟨hlive, hcustId, hcategory, by omega, hlast⟩

namespace Store

/-- The entries that count in a window, oldest first. -/
def counted (s : Store) (custId : String) (now : Instant) (length : Span) : List Entry :=
  (s.entries.filter fun e => e.CountsIn custId now length).mergeSort precedes

theorem mem_counted_iff (s : Store) (custId : String) (now : Instant) (length : Span)
    (e : Entry) :
    e ∈ s.counted custId now length ↔
      e ∈ s.entries ∧ e.CountsIn custId now length := by
  rw [counted, List.mem_mergeSort, List.mem_filter, decide_eq_true_iff]

theorem Keyed.pairwise_counted {s : Store} (hs : s.Keyed) (custId : String) (now : Instant)
    (length : Span) : (s.counted custId now length).Pairwise Entry.Before :=
  hs.pairwise_sorted _

/-- Up to their order, the entries of a shorter window are among those of a longer one. -/
theorem exists_counted_sublist (s : Store) (custId : String) (now : Instant)
    {length longer : Span} (hle : length ≤ longer) :
    ∃ fewer more, (s.counted custId now length).Perm fewer ∧
      (s.counted custId now longer).Perm more ∧ fewer.Sublist more := by
  refine ⟨_, _, List.mergeSort_perm _ _, List.mergeSort_perm _ _, ?_⟩
  apply List.monotone_filter_right
  intro e hcounts
  exact decide_eq_true ((of_decide_eq_true hcounts).of_length_le hle)

end Store

/-! ## The scan -/

namespace LimitWindow

private theorem foldl_longest (rest : List LimitWindow) (most : Span) :
    let longest := rest.foldl (fun most v => if most ≤ v.length then v.length else most) most
    most ≤ longest ∧ (∀ v ∈ rest, v.length ≤ longest) ∧
      (longest = most ∨ ∃ v ∈ rest, longest = v.length) := by
  induction rest generalizing most with
  | nil => exact ⟨Int.le_refl most.nanos, nofun, Or.inl rfl⟩
  | cons v rest ih =>
      rw [List.foldl_cons]
      by_cases hle : most ≤ v.length
      · rw [if_pos hle]
        obtain ⟨hfirst, hrest, hfound⟩ := ih v.length
        refine ⟨Int.le_trans hle hfirst, List.forall_mem_cons.2 ⟨hfirst, hrest⟩, Or.inr ?_⟩
        rcases hfound with hself | ⟨w, hw, hlength⟩
        · exact ⟨v, List.mem_cons_self, hself⟩
        · exact ⟨w, List.mem_cons_of_mem v hw, hlength⟩
      · rw [if_neg hle]
        obtain ⟨hfirst, hrest, hfound⟩ := ih most
        have hshort : v.length ≤ most := Int.le_of_lt (Int.not_le.1 hle)
        refine ⟨hfirst, List.forall_mem_cons.2 ⟨Int.le_trans hshort hfirst, hrest⟩, ?_⟩
        rcases hfound with hself | ⟨w, hw, hlength⟩
        · exact Or.inl hself
        · exact Or.inr ⟨w, List.mem_cons_of_mem v hw, hlength⟩

theorem le_longest {w : LimitWindow} {windows : List LimitWindow} (hw : w ∈ windows) :
    w.length ≤ longest windows := by
  cases windows with
  | nil => cases hw
  | cons first rest =>
      obtain ⟨hfirst, hrest, -⟩ := foldl_longest rest first.length
      rcases List.mem_cons.1 hw with rfl | hw
      · exact hfirst
      · exact hrest w hw

theorem longest_eq_zero_or_mem (windows : List LimitWindow) :
    (windows = [] ∧ longest windows = .zero) ∨ ∃ w ∈ windows, longest windows = w.length := by
  cases windows with
  | nil => exact Or.inl ⟨rfl, rfl⟩
  | cons first rest =>
      obtain ⟨-, -, hself | ⟨w, hw, hlength⟩⟩ := foldl_longest rest first.length
      · exact Or.inr ⟨first, List.mem_cons_self, hself⟩
      · exact Or.inr ⟨w, List.mem_cons_of_mem first hw, hlength⟩

end LimitWindow

theorem Instant.yields_minus {now : Instant} {length : Span}
    (h : InCalendar ⟨now.nanos - length.nanos⟩) :
    (now.minus length).Yields ⟨now.nanos - length.nanos⟩ := by
  unfold minus
  exact congrArg Calc.outcome (if_pos h)

namespace ConversionLimits

variable {custId : String} {now : Instant} {windows : List LimitWindow} {q : EntryQuery}

/-- The scan can be asked for when the start of every window can be worked out. -/
theorem exists_query (custId : String) (hnow : now.InCalendar)
    (hstarts : ∀ w ∈ windows, ∃ since, (now.minus w.length).Yields since) :
    ∃ q, (query custId now windows).Yields q := by
  have hstart : ∃ since, (now.minus (LimitWindow.longest windows)).Yields since := by
    rcases LimitWindow.longest_eq_zero_or_mem windows with ⟨-, hzero⟩ | ⟨w, hw, hlength⟩
    · rw [hzero]
      have hself : (⟨now.nanos - Span.zero.nanos⟩ : Instant) = now := by simp [Span.zero]
      exact ⟨_, Instant.yields_minus (by rwa [hself])⟩
    · rw [hlength]
      exact hstarts w hw
  obtain ⟨since, hsince⟩ := hstart
  have hwidest : (EntryQuery.window now (some (LimitWindow.longest windows))).Yields
      { EntryQuery.upTo now with notBefore := some since } :=
    (Calc.yields_bind_iff _ _ _).2 ⟨since, hsince, rfl⟩
  exact ⟨_, (Calc.yields_bind_iff _ _ _).2 ⟨_, hwidest, rfl⟩⟩

theorem accepts_iff (hq : (query custId now windows).Yields q) (e : Entry) :
    q.accepts e = true ↔ e.CountsIn custId now (LimitWindow.longest windows) := by
  simp only [query, EntryQuery.window, Calc.yields_bind_iff, Calc.yields_pure_iff] at hq
  obtain ⟨widest, ⟨start, hstart, rfl⟩, rfl⟩ := hq
  have hnanos := Instant.nanos_of_minus hstart
  have hcategories : Category.all.filter Category.isConversion =
      [.hiveToLightning, .lightningToHive] := by
    decide
  have hcategory : [Category.hiveToLightning, .lightningToHive].contains e.category = true ↔
      e.category = .hiveToLightning ∨ e.category = .lightningToHive := by
    simp
  simp only [EntryQuery.accepts, EntryQuery.matchesTime, EntryQuery.matchesAccount,
    EntryQuery.upTo, EntryQuery.live, hcategories, Entry.isReversed, Bool.false_or,
    Bool.and_eq_true, Bool.not_eq_true', Option.isSome_eq_false_iff, Option.isNone_iff_eq_none,
    decide_eq_true_eq, beq_iff_eq, List.isEmpty_cons, hcategory, and_true, Entry.CountsIn]
  rw [Instant.le_iff, Instant.le_iff, hnanos]
  tauto

end ConversionLimits

theorem Store.Keyed.filter_fetch {s : Store} (hs : s.Keyed) {custId : String} {now since : Instant}
    {windows : List LimitWindow} {q : EntryQuery}
    (hq : (ConversionLimits.query custId now windows).Yields q) {w : LimitWindow}
    (hw : w ∈ windows) (hsince : (now.minus w.length).Yields since) :
    ((s.fetch q).filter fun e => since ≤ e.timestamp) = s.counted custId now w.length := by
  have hnanos := Instant.nanos_of_minus hsince
  refine eq_of_pairwise_before ((hs.pairwise_fetch q).filter _)
    (hs.pairwise_counted custId now w.length) ?_
  intro e
  rw [mem_counted_iff, List.mem_filter, mem_fetch_iff, ← mem_entries_iff,
    ConversionLimits.accepts_iff hq, decide_eq_true_iff, Instant.le_iff, hnanos, and_assoc]
  refine and_congr_right fun _ => ?_
  constructor
  · rintro ⟨⟨hlive, hcustId, hcategory, -, hlast⟩, hfirst⟩
    exact ⟨hlive, hcustId, hcategory, hfirst, hlast⟩
  · intro hcounts
    exact ⟨hcounts.of_length_le (LimitWindow.le_longest hw), hcounts.2.2.2.1⟩

/-! ## The figures -/

def Entry.addSize (c : Currency) (sum : Decimal) (e : Entry) : Calc Decimal :=
  sum.add (e.debit.conversion.amounts.get c).abs

def Entry.totalSize (entries : List Entry) (c : Currency) : Calc Decimal :=
  entries.foldlM (addSize c) .zero

theorem Entry.value_totalSize {entries : List Entry} {c : Currency} {total : Decimal}
    (h : (totalSize entries c).Exactly total) :
    total.value = (entries.map fun e => |(e.debit.conversion.amounts.get c).value|).sum := by
  have hstep : ∀ (sum : Decimal) (e : Entry) sum', (addSize c sum e).Exactly sum' →
      sum'.value = sum.value + |(e.debit.conversion.amounts.get c).value| := by
    intro sum e sum' hsum
    rw [Decimal.value_of_add hsum, Decimal.value_abs]
  rw [Calc.measure_foldlM hstep h, Decimal.value_zero, zero_add]

namespace WindowUsage

/-- A usage that counts some entries, and adds up their sizes. -/
structure Counts (exactly : Bool) (u : WindowUsage) (entries : List Entry) : Prop where
  conversions : u.conversions = entries.length
  msats : (Entry.totalSize entries .msats).Ends exactly u.msats
  usd : (Entry.totalSize entries .usd).Ends exactly u.usd

/-- The two sums go on side by side without regard to each other. -/
theorem ends_foldlM_add {exactly : Bool} {entries : List Entry} {u : WindowUsage}
    {msats usd : Decimal} (hmsats : (entries.foldlM (Entry.addSize .msats) u.msats).Ends exactly msats)
    (husd : (entries.foldlM (Entry.addSize .usd) u.usd).Ends exactly usd) :
    (entries.foldlM add u).Ends exactly
      ⟨u.label, u.since, u.conversions + entries.length, msats, usd⟩ := by
  induction entries generalizing u with
  | nil =>
      rw [List.foldlM_nil, Calc.ends_pure_iff] at hmsats husd ⊢
      rw [← hmsats, ← husd]
      rfl
  | cons e rest ih =>
      rw [List.foldlM_cons, Calc.ends_bind_iff] at hmsats husd ⊢
      obtain ⟨msats', hfirst, hrest⟩ := hmsats
      obtain ⟨usd', hfirst', hrest'⟩ := husd
      have hadded : (add u e).Ends exactly
          { u with conversions := u.conversions + 1, msats := msats', usd := usd' } := by
        simp only [add, Calc.ends_bind_iff, Calc.ends_pure_iff]
        exact ⟨msats', hfirst, usd', hfirst', rfl⟩
      refine ⟨_, hadded, ?_⟩
      have hall := ih (u := { u with conversions := u.conversions + 1, msats := msats', usd := usd' })
        hrest hrest'
      rwa [List.length_cons, Nat.add_comm rest.length, ← Nat.add_assoc]

theorem yields_ofEntries {entries : List Entry} {now since : Instant} {w : LimitWindow}
    (hsince : (now.minus w.length).Yields since) {msats usd : Decimal}
    (hmsats : (Entry.totalSize (entries.filter fun e => since ≤ e.timestamp) .msats).Yields msats)
    (husd : (Entry.totalSize (entries.filter fun e => since ≤ e.timestamp) .usd).Yields usd) :
    (ofEntries entries now w).Yields
      ⟨w.label, since, (entries.filter fun e => since ≤ e.timestamp).length, msats, usd⟩ := by
  rw [← Calc.ends_false_iff] at hmsats husd
  have hadded := ends_foldlM_add (u := empty w.label since) hmsats husd
  rw [Calc.ends_false_iff] at hadded
  refine (Calc.yields_bind_iff _ _ _).2 ⟨since, hsince, ?_⟩
  simpa [empty] using hadded

theorem Counts.le_of_sublist {u v : WindowUsage} {entries entries' fewer more : List Entry}
    (hu : u.Counts true entries) (hv : v.Counts true entries') (hfewer : entries.Perm fewer)
    (hmore : entries'.Perm more) (hsub : fewer.Sublist more) :
    u.msats.value ≤ v.msats.value ∧ u.usd.value ≤ v.usd.value := by
  have hsum : ∀ c, (entries.map fun e => |(e.debit.conversion.amounts.get c).value|).sum ≤
      (entries'.map fun e => |(e.debit.conversion.amounts.get c).value|).sum := by
    intro c
    rw [(hfewer.map _).sum_eq, (hmore.map _).sum_eq]
    refine (hsub.map _).sum_le_sum ?_
    intro size hsize
    obtain ⟨e, -, rfl⟩ := List.mem_map.1 hsize
    exact abs_nonneg _
  rw [Entry.value_totalSize ((Calc.ends_true_iff _ _).1 hu.msats),
    Entry.value_totalSize ((Calc.ends_true_iff _ _).1 hv.msats),
    Entry.value_totalSize ((Calc.ends_true_iff _ _).1 hu.usd),
    Entry.value_totalSize ((Calc.ends_true_iff _ _).1 hv.usd)]
  exact ⟨hsum .msats, hsum .usd⟩

end WindowUsage

/-! ## The answer -/

theorem Calc.yields_mapM {f : α → Calc β} {xs : List α} {ys : List β}
    (h : List.Forall₂ (fun x y => (f x).Yields y) xs ys) : (xs.mapM f).Yields ys := by
  induction h with
  | nil => exact (yields_pure_iff _ _).2 rfl
  | cons hfirst _ ih =>
      simp only [List.mapM_cons, yields_bind_iff, yields_pure_iff]
      exact ⟨_, hfirst, _, ih, rfl⟩

namespace ConversionLimits

variable {s : Session} {custId : String} {now : Instant} {windows : List LimitWindow}

theorem run_generate (hup : s.outages.pending .fetch = []) {q : EntryQuery}
    (hq : (query custId now windows).Yields q) {usages : List WindowUsage}
    (husages : List.Forall₂
      (fun w u => (WindowUsage.ofEntries (s.store.fetch q) now w).Yields u) windows usages) :
    (s.run (generate custId now windows)).1 = .ok ⟨custId, now, usages⟩ := by
  have htake : s.outages.take? .fetch = none := by
    unfold Outages.take?
    rw [hup]
  unfold generate
  rw [Session.run_bind, Session.run_calculate s hq]
  dsimp only
  rw [Session.run_bind, Session.run_fetchEntries, htake]
  dsimp only
  rw [Session.run_bind, Session.run_calculate s (Calc.yields_mapM husages)]
  rfl

/-- The usage of a window is the same in every scan that is asked for it. -/
theorem exists_usage (hs : s.store.Keyed) {w : LimitWindow} {since : Instant}
    (hsince : (now.minus w.length).Yields since)
    (hsums : ∀ c ∈ [Currency.msats, .usd], ∃ total,
      (Entry.totalSize (s.store.counted custId now w.length) c).Yields total) :
    ∃ u : WindowUsage, u.label = w.label ∧ u.since.nanos = now.nanos - w.length.nanos ∧
      u.Counts false (s.store.counted custId now w.length) ∧
      ∀ windows q, w ∈ windows → (query custId now windows).Yields q →
        (WindowUsage.ofEntries (s.store.fetch q) now w).Yields u := by
  obtain ⟨msats, hmsats⟩ := hsums .msats (by simp)
  obtain ⟨usd, husd⟩ := hsums .usd (by simp)
  refine ⟨⟨w.label, since, (s.store.counted custId now w.length).length, msats, usd⟩, rfl,
    Instant.nanos_of_minus hsince, ⟨rfl, ?_, ?_⟩, ?_⟩
  · exact (Calc.ends_false_iff _ _).2 hmsats
  · exact (Calc.ends_false_iff _ _).2 husd
  · intro windows q hw hq
    have hscan := hs.filter_fetch hq hw hsince
    rw [← hscan] at hmsats husd ⊢
    exact WindowUsage.yields_ofEntries hsince hmsats husd

/--
Every window is answered by what the store holds of it: the usage counts the customer's live
conversions in the window, oldest first, and adds up the sizes of their debit sides. It is the usage
that the window has when it is asked for alone. A longer window counts no fewer conversions, and in
exact arithmetic shows no less usage.
-/
theorem answers_each_window (hs : s.store.Keyed) (hup : s.outages.pending .fetch = [])
    (hnow : now.InCalendar) (hstarts : ∀ w ∈ windows, ∃ since, (now.minus w.length).Yields since)
    (hsums : ∀ w ∈ windows, ∀ c ∈ [Currency.msats, .usd], ∃ total,
      (Entry.totalSize (s.store.counted custId now w.length) c).Yields total) :
    (∀ length, (s.store.counted custId now length).Pairwise Entry.Before ∧
      ∀ e, e ∈ s.store.counted custId now length ↔
        e ∈ s.store.entries ∧ e.CountsIn custId now length) ∧
    ∃ usages, (s.run (generate custId now windows)).1 = .ok ⟨custId, now, usages⟩ ∧
      List.Forall₂ (fun w u =>
        u.label = w.label ∧ u.since.nanos = now.nanos - w.length.nanos ∧
          u.Counts false (s.store.counted custId now w.length) ∧
          (s.run (generate custId now [w])).1 = .ok ⟨custId, now, [u]⟩) windows usages ∧
      ∀ p ∈ windows.zip usages, ∀ p' ∈ windows.zip usages, p.1.length ≤ p'.1.length →
        p.2.conversions ≤ p'.2.conversions ∧
          (p.2.Counts true (s.store.counted custId now p.1.length) →
            p'.2.Counts true (s.store.counted custId now p'.1.length) →
            p.2.msats.value ≤ p'.2.msats.value ∧ p.2.usd.value ≤ p'.2.usd.value) := by
  have : Nonempty WindowUsage := ⟨WindowUsage.empty "" now⟩
  have husage : ∀ w ∈ windows, ∃ u : WindowUsage,
      u.label = w.label ∧ u.since.nanos = now.nanos - w.length.nanos ∧
        u.Counts false (s.store.counted custId now w.length) ∧
        ∀ windows q, w ∈ windows → (query custId now windows).Yields q →
          (WindowUsage.ofEntries (s.store.fetch q) now w).Yields u := by
    intro w hw
    obtain ⟨since, hsince⟩ := hstarts w hw
    exact exists_usage hs hsince (hsums w hw)
  choose! usage hlabel hsince hcounts hscanned using husage
  obtain ⟨q, hq⟩ := exists_query custId hnow hstarts
  have halone : ∀ w ∈ windows,
      (s.run (generate custId now [w])).1 = .ok ⟨custId, now, [usage w]⟩ := by
    intro w hw
    have hstart : ∀ v ∈ [w], ∃ since, (now.minus v.length).Yields since :=
      List.forall_mem_singleton.2 (hstarts w hw)
    obtain ⟨q', hq'⟩ := exists_query custId hnow hstart
    exact run_generate hup hq' (.cons (hscanned w hw _ _ (List.mem_singleton.2 rfl) hq') .nil)
  have hall : List.Forall₂ (fun w u =>
      u.label = w.label ∧ u.since.nanos = now.nanos - w.length.nanos ∧
        u.Counts false (s.store.counted custId now w.length) ∧
        (s.run (generate custId now [w])).1 = .ok ⟨custId, now, [u]⟩) windows
      (windows.map usage) := by
    rw [List.forall₂_map_right_iff, List.forall₂_same]
    exact fun w hw => ⟨hlabel w hw, hsince w hw, hcounts w hw, halone w hw⟩
  refine ⟨fun length => ⟨hs.pairwise_counted custId now length,
    s.store.mem_counted_iff custId now length⟩, windows.map usage, ?_, hall, ?_⟩
  · apply run_generate hup hq
    rw [List.forall₂_map_right_iff, List.forall₂_same]
    exact fun w hw => hscanned w hw _ _ hw hq
  · rintro ⟨w, u⟩ hp ⟨w', u'⟩ hp' hle
    obtain ⟨-, -, hu, -⟩ := List.forall₂_zip hall hp
    obtain ⟨-, -, hu', -⟩ := List.forall₂_zip hall hp'
    obtain ⟨fewer, more, hfewer, hmore, hsub⟩ :=
      s.store.exists_counted_sublist custId now hle
    refine ⟨?_, fun hexact hexact' => hexact.le_of_sublist hexact' hfewer hmore hsub⟩
    rw [hu.conversions, hu'.conversions, hfewer.length_eq, hmore.length_eq]
    exact hsub.length_le

private def conversionAt (groupId : String) (nanos : Int) : Entry :=
  { Entry.sampleDeposit with
    groupId := groupId, timestamp := ⟨nanos⟩, category := .hiveToLightning }

private def converted : Session :=
  { Session.fresh with
    store := ((Store.empty.put (conversionAt "new" 95)).put (conversionAt "old" 40)).put
      { conversionAt "cancelled" 96 with reversed := some ⟨97⟩ } }

/-- In no order, one twice, one that only holds the present and one that starts later. -/
private def oddWindows : List LimitWindow :=
  [⟨"short", ⟨5⟩⟩, ⟨"long", ⟨80⟩⟩, ⟨"zero", .zero⟩, ⟨"negative", ⟨-5⟩⟩, ⟨"short", ⟨5⟩⟩]

/-- The scan reaches back for the long window, and the others are not told. -/
theorem answers_each_odd_window :
    (oddWindows.map fun w => (converted.store.counted "alice" ⟨100⟩ w.length).length) =
      [1, 2, 0, 0, 1] ∧
    ∃ usages, (converted.run (generate "alice" ⟨100⟩ oddWindows)).1 =
        .ok ⟨"alice", ⟨100⟩, usages⟩ ∧
      List.Forall₂ (fun w u => u.label = w.label ∧
        u.Counts false (converted.store.counted "alice" ⟨100⟩ w.length)) oddWindows usages := by
  have hkeyed : converted.store.Keyed := ((Store.keyed_empty.put _).put _).put _
  have hnow : Instant.InCalendar ⟨100⟩ := by decide
  have hstarts : ∀ w ∈ oddWindows, ∃ since, (Instant.minus ⟨100⟩ w.length).Yields since := by
    intro w hw
    refine ⟨_, Instant.yields_minus ?_⟩
    revert w
    decide
  -- What the store holds is in order already, so the windows can be evaluated.
  have hsorted : ∀ w ∈ oddWindows, converted.store.counted "alice" ⟨100⟩ w.length =
      converted.store.entries.filter fun e => e.CountsIn "alice" ⟨100⟩ w.length := by
    intro w hw
    apply List.mergeSort_of_pairwise
    revert w
    decide
  have hexact : ∀ w ∈ oddWindows, ∀ c ∈ [Currency.msats, .usd],
      (Entry.totalSize (converted.store.entries.filter fun e =>
        e.CountsIn "alice" ⟨100⟩ w.length) c).isExact = true := by
    decide +kernel
  obtain ⟨-, usages, hanswer, hall, -⟩ := answers_each_window hkeyed rfl hnow hstarts
    fun w hw c hc => by
      obtain ⟨total, htotal⟩ := Calc.exists_exactly (hexact w hw c hc)
      exact ⟨total, by rw [hsorted w hw]; exact htotal.yields⟩
  refine ⟨?_, usages, hanswer, hall.imp ?_⟩
  · rw [List.map_congr_left fun w hw => congrArg List.length (hsorted w hw)]
    decide
  · rintro w u ⟨hlabel, -, hcounts, -⟩
    exact ⟨hlabel, hcounts⟩

end ConversionLimits

end DoubleEntry
