import DoubleEntry.Proofs.Report.RunningBalances
import DoubleEntry.Proofs.Store.Runs
import DoubleEntry.Proofs.Store.Windows
import DoubleEntry.Report.Generation

/-!
# Statements from narrowed scans

A statement fetches only the entries on its account, and then picks the legs on the
account out of them. An entry is on the account when one of its legs is, so what the
scan leaves out has no leg to show; and since a scan sorts stably, it leaves the others
in the order that they have among all.
-/

namespace DoubleEntry

open Operation

/-! ## Sorting what is kept -/

section Sorted

variable {le : α → α → Bool} (trans : ∀ a b c, le a b → le b c → le a c)
  (total : ∀ a b, le a b || le b a)

include trans total

theorem mergeSort_cons_eq_filter (a : α) (l : List α) :
    (a :: l).mergeSort le =
      (l.mergeSort le).filter (fun x => !le a x) ++ a :: (l.mergeSort le).filter (le a) := by
  obtain ⟨before, after, hcons, hrest, hbefore⟩ := List.mergeSort_cons trans total a l
  have hsorted := List.pairwise_mergeSort trans total (a :: l)
  rw [hcons, List.pairwise_append, List.pairwise_cons] at hsorted
  obtain ⟨-, ⟨hafter, -⟩, -⟩ := hsorted
  have hkept : (before ++ after).filter (fun x => !le a x) = before := by
    have hnone : after.filter (fun x => !le a x) = [] := by
      simpa [List.filter_eq_nil_iff] using hafter
    rw [List.filter_append, List.filter_eq_self.2 hbefore, hnone, List.append_nil]
  have hleft : (before ++ after).filter (le a) = after := by
    have hnone : before.filter (le a) = [] := by
      simpa [List.filter_eq_nil_iff] using hbefore
    rw [List.filter_append, List.filter_eq_self.2 hafter, hnone, List.nil_append]
  rw [hcons, hrest, hkept, hleft]

/-- A stable sort leaves what is kept in the order that it has among all. -/
theorem filter_mergeSort (keep : α → Bool) (l : List α) :
    (l.mergeSort le).filter keep = (l.filter keep).mergeSort le := by
  induction l with
  | nil => simp
  | cons a l ih =>
      by_cases ha : keep a = true
      · rw [List.filter_cons_of_pos ha, mergeSort_cons_eq_filter trans total,
          mergeSort_cons_eq_filter trans total, List.filter_append,
          List.filter_cons_of_pos ha, List.filter_comm keep, List.filter_comm keep, ih]
      · obtain ⟨before, after, hcons, hrest, -⟩ := List.mergeSort_cons trans total a l
        rw [List.filter_cons_of_neg ha, ← ih, hcons, hrest, List.filter_append,
          List.filter_cons_of_neg ha, List.filter_append]

end Sorted

/-! ## What a narrowed scan leaves out -/

namespace AccountFilter

def touches (f : AccountFilter) (e : Entry) : Bool :=
  e.legs.any fun leg => f.accepts leg.account

theorem matchesAccount_eq_touches {q : EntryQuery} {f : AccountFilter} (h : q.account = some f)
    (e : Entry) : q.matchesAccount e = f.touches e := by
  have hside : ∀ side : Side, (e.posting side).account.any f.accepts =
      (e.leg? side).toList.any fun leg => f.accepts leg.account := by
    intro side
    rw [Entry.leg?, Posting.leg?]
    cases (e.posting side).account <;> simp
  rw [EntryQuery.matchesAccount, h, touches, Entry.legs, List.any_append, ← hside, ← hside]
  rfl

theorem bookings_filter_touches (f : AccountFilter) (entries : List Entry) :
    f.bookings (entries.filter f.touches) = f.bookings entries := by
  induction entries with
  | nil => rfl
  | cons e rest ih =>
      by_cases he : f.touches e = true
      · rw [List.filter_cons_of_pos he, bookings, bookings, List.flatMap_cons, List.flatMap_cons]
        exact congrArg _ ih
      · have hnone : e.legs.filter (fun leg => f.accepts leg.account) = [] := by
          simpa [touches, List.filter_eq_nil_iff] using he
        rw [List.filter_cons_of_neg he, ih, bookings, bookings, List.flatMap_cons, hnone]
        rfl

end AccountFilter

theorem Store.fetch_account (s : Store) (q : EntryQuery) (f : AccountFilter) :
    s.fetch { q with account := some f } =
      (s.fetch { q with account := none }).filter f.touches := by
  have haccepts : ∀ e, { q with account := some f }.accepts e =
      (f.touches e && { q with account := none }.accepts e) := by
    intro e
    rw [EntryQuery.accepts, AccountFilter.matchesAccount_eq_touches rfl, Bool.and_comm,
      EntryQuery.accepts]
    simp [EntryQuery.matchesAccount, EntryQuery.matchesTime]
  rw [fetch, fetch, filter_mergeSort precedes_trans precedes_total, List.filter_filter]
  congr 2
  funext e
  exact haccepts e

/-- A scan never goes back in time, whatever ids the store keeps its entries under. -/
theorem Store.pairwise_timestamp_fetch (s : Store) (q : EntryQuery) :
    (s.fetch q).Pairwise fun e e' => e.timestamp ≤ e'.timestamp := by
  refine (List.pairwise_mergeSort precedes_trans precedes_total _).imp ?_
  intro e e' hprecedes
  rcases (precedes_iff e e').1 hprecedes with hlt | ⟨heq, -⟩
  · exact Int.le_of_lt hlt
  · exact Int.le_of_eq heq

namespace AccountBalance

/-- No leg is lost when only the entries on the account are fetched, by whatever query. -/
theorem ofEntries_fetch_account (s : Store) (q : EntryQuery) (account : Account)
    (sub : Option String) (asOf : Instant) :
    ofEntries (s.fetch { q with account := some (.ofAccount account sub) }) account sub asOf =
      ofEntries (s.fetch { q with account := none }) account sub asOf := by
  rw [Store.fetch_account, ofEntries, ofEntries]
  simp only [Running.foldlM_addEntry, AccountFilter.bookings_filter_touches]

/-! ## Lines in order -/

theorem timestamps_of_yields {entries : List Entry} {account : Account} {sub : Option String}
    {asOf : Instant} {b : AccountBalance} (h : (ofEntries entries account sub asOf).Yields b) :
    b.lines.map BalanceLine.timestamp =
      ((AccountFilter.ofAccount account sub).bookings entries).map fun booking =>
        booking.1.timestamp := by
  rw [← Calc.ends_false_iff] at h
  obtain ⟨r, hr, -, hlines, -⟩ := exists_running h
  have hadds := (Running.ends_foldlM_iff _).1 hr
  rw [hlines, ← List.forall₂_eq_eq_eq, List.forall₂_map_left_iff, List.forall₂_map_right_iff]
  exact hadds.lines.imp fun _ _ hline => hline.timestamp

/-- A statement has its lines in the order in which it was given the entries. -/
theorem pairwise_lines {entries : List Entry} {account : Account} {sub : Option String}
    {asOf : Instant} {b : AccountBalance} (h : (ofEntries entries account sub asOf).Yields b)
    (hentries : entries.Pairwise fun e e' => e.timestamp ≤ e'.timestamp) :
    b.lines.Pairwise fun line line' => line.timestamp ≤ line'.timestamp := by
  have hbookings : ((AccountFilter.ofAccount account sub).bookings entries).Pairwise
      fun booking booking' => booking.1.timestamp ≤ booking'.1.timestamp := by
    rw [AccountFilter.bookings, List.pairwise_flatMap]
    constructor
    · intro e _
      rw [List.pairwise_map]
      exact List.pairwise_of_forall fun _ _ => Int.le_refl e.timestamp.nanos
    · refine hentries.imp fun {e e'} hle booking hbooking booking' hbooking' => ?_
      obtain ⟨_, -, rfl⟩ := List.mem_map.1 hbooking
      obtain ⟨_, -, rfl⟩ := List.mem_map.1 hbooking'
      exact hle
  rw [← List.pairwise_map (f := BalanceLine.timestamp), timestamps_of_yields h, List.pairwise_map]
  exact hbookings

def generateFrom (q : EntryQuery) (account : Account) (sub : Option String) (asOf : Instant) :
    Operation AccountBalance := do
  countReport .accountBalance
  let entries ← fetchEntries q
  let balance ← calculate (ofEntries entries account sub asOf)
  journal [.accountBalanceMade]
  return balance

/-- What was selected only counts for the statement that is made from it. -/
theorem run_generateFrom_congr (s : Session) {q q' : EntryQuery} {account : Account}
    {sub : Option String} {asOf : Instant}
    (h : ofEntries (s.store.fetch q) account sub asOf =
      ofEntries (s.store.fetch q') account sub asOf) :
    s.run (generateFrom q account sub asOf) = s.run (generateFrom q' account sub asOf) := by
  unfold generateFrom
  rw [Session.run_bind, Session.run_bind, Session.run_countReport]
  dsimp only
  rw [Session.run_bind, Session.run_bind, Session.run_fetchEntries, Session.run_fetchEntries]
  cases s.outages.take? .fetch with
  | some met => rfl
  | none =>
      dsimp only
      rw [h]

theorem exists_run_generateFrom_iff (s : Session) (q : EntryQuery) (account : Account)
    (sub : Option String) (asOf : Instant) (b : AccountBalance) :
    (∃ t, s.run (generateFrom q account sub asOf) = (.ok b, t)) ↔
      s.outages.pending .fetch = [] ∧ (ofEntries (s.store.fetch q) account sub asOf).Yields b := by
  simp only [generateFrom, Session.run_bind_eq_ok_iff, Session.run_countReport,
    Session.run_fetchEntries_eq_ok_iff, Session.run_calculate_eq_ok_iff, Session.run_journal]
  constructor
  · rintro ⟨_, _, _, ⟨⟩, _, _, ⟨hup, rfl, rfl⟩, _, _, ⟨hb, rfl⟩, _, _, ⟨⟩, ⟨⟩⟩
    exact ⟨hup, hb⟩
  · rintro ⟨hup, hb⟩
    exact ⟨_, _, _, rfl, _, _, ⟨hup, rfl, rfl⟩, _, _, ⟨hb, rfl⟩, _, _, rfl, rfl⟩

theorem run_generate (s : Session) (account : Account) (sub : Option String) (asOf : Instant) :
    s.run (generate account sub asOf) = s.run (generateFrom (.upTo asOf) account sub asOf) := by
  let narrowed := { EntryQuery.upTo asOf with account := some (.ofAccount account sub) }
  change s.run (generateFrom narrowed account sub asOf) = _
  exact run_generateFrom_congr s (ofEntries_fetch_account s.store (.upTo asOf) account sub asOf)

/--
A statement fetches only entries on its account, and answers, fails and is journalled as one made
from all live entries up to its time: it is worked out from them, in every field. Its lines never go
back in time.
-/
theorem generate_loses_no_leg (s : Session) (account : Account) (sub : Option String)
    (asOf : Instant) :
    s.run (generate account sub asOf) = s.run (generateFrom (.upTo asOf) account sub asOf) ∧
    (∀ e, e ∈ s.store.fetch (.upTo asOf) ↔
      e ∈ s.store.entries ∧ e.reversed = none ∧ e.timestamp ≤ asOf) ∧
    (∀ b, (∃ t, s.run (generate account sub asOf) = (.ok b, t)) ↔
      s.outages.pending .fetch = [] ∧
        (ofEntries (s.store.fetch (.upTo asOf)) account sub asOf).Yields b) ∧
    ∀ b t, s.run (generate account sub asOf) = (.ok b, t) →
      b.lines.Pairwise fun line line' => line.timestamp ≤ line'.timestamp := by
  rw [run_generate]
  have hanswers := exists_run_generateFrom_iff s (.upTo asOf) account sub asOf
  refine ⟨rfl, ?_, hanswers, ?_⟩
  · intro e
    rw [Store.mem_fetch_iff, ← Store.mem_entries_iff]
    simp [EntryQuery.accepts, EntryQuery.upTo, EntryQuery.live, EntryQuery.matchesTime,
      EntryQuery.matchesAccount, Entry.isReversed]
  · intro b t hb
    obtain ⟨-, hyields⟩ := (hanswers b).1 ⟨t, hb⟩
    exact pairwise_lines hyields (s.store.pairwise_timestamp_fetch _)

private def busyPool : Account :=
  .plain .asset "Treasury" "pool"

/-- A transfer within the account, one that does not touch it, one to it, and a later one. -/
private def busyLedger : Session :=
  let fees := Account.plain .revenue "Fees" ""
  let customer := Account.plain .liability "Customer" "alice"
  let entries : List Entry :=
    [{ Entry.sampleTransfer 3 busyPool fees (.ofByte 9) .hbd with groupId := "later" },
      { Entry.sampleTransfer 2 busyPool fees (.ofByte 3) .hbd with groupId := "deposit" },
      { Entry.sampleTransfer 1 customer fees (.ofByte 5) .hive with groupId := "fee" },
      { Entry.sampleTransfer 0 busyPool busyPool (.ofByte 7) .hive with groupId := "within" }]
  { Session.fresh with store := entries.foldl Store.put .empty }

/-- Three lines from the two entries on the account, of the three that are live by then. -/
theorem loses_no_leg_of_busy_ledger :
    (busyLedger.store.fetch (.upTo ⟨2⟩)).length = 3 ∧
      ∃ b t, busyLedger.run (generate busyPool none ⟨2⟩) = (.ok b, t) ∧ b.lines.length = 3 ∧
        b.lines.Pairwise fun line line' => line.timestamp ≤ line'.timestamp := by
  -- The store has them in order already, so the scan can be evaluated.
  have hscan : busyLedger.store.fetch (.upTo ⟨2⟩) =
      busyLedger.store.entries.filter (EntryQuery.upTo ⟨2⟩).accepts := by
    apply List.mergeSort_of_pairwise
    decide
  have hexact : (ofEntries (busyLedger.store.entries.filter (EntryQuery.upTo ⟨2⟩).accepts)
      busyPool none ⟨2⟩).isExact = true := by
    decide +kernel
  have hthree : (legsOf (busyLedger.store.entries.filter (EntryQuery.upTo ⟨2⟩).accepts)
      busyPool none).length = 3 := by
    decide +kernel
  rw [← hscan] at hexact hthree
  obtain ⟨b, hb⟩ := Calc.exists_exactly hexact
  obtain ⟨-, -, hanswers, hordered⟩ := generate_loses_no_leg busyLedger busyPool none ⟨2⟩
  obtain ⟨t, ht⟩ := (hanswers b).2 ⟨rfl, hb.yields⟩
  refine ⟨?_, b, t, ht, ?_, hordered b t ht⟩
  · rw [hscan]
    decide +kernel
  · rw [← hthree, length_lines_of_ends ((Calc.ends_true_iff _ _).2 hb)]

end AccountBalance

end DoubleEntry
