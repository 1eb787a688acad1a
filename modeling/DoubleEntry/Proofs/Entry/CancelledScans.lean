import DoubleEntry.Proofs.Entry.Histories
import DoubleEntry.Proofs.Store.Scans

/-!
# What a call to cancel shows

The twin is flagged before it is stored, and the entry is flagged last. So scans
of live entries never show one half of a pair that a call has made: they are as
before when the call fails, wherever that is, and miss the entry when it answers.
-/

namespace DoubleEntry

namespace Store

/-- Entries stay but for one flag, and at most the twin's id is new. -/
structure ChangedByCancelling (s t : Store) (groupId : String) : Prop where
  kept : ∀ other e, other ≠ groupId → s.find? other = some e → t.find? other = some e
  flag_only : ∀ e, s.find? groupId = some e →
    ∃ reversed, t.find? groupId = some { e with reversed := reversed }
  added_only : ∀ other, other ≠ Entry.reversalId groupId → s.find? other = none →
    t.find? other = none
  size_le : s.size ≤ t.size ∧ t.size ≤ s.size + 1
  accounts_eq : t.accounts = s.accounts

theorem ChangedByCancelling.refl (s : Store) (groupId : String) :
    s.ChangedByCancelling s groupId where
  kept := fun _ _ _ h => h
  flag_only := fun e h => ⟨e.reversed, h⟩
  added_only := fun _ _ h => h
  size_le := ⟨Nat.le_refl _, Nat.le_succ _⟩
  accounts_eq := rfl

theorem ChangedByCancelling.markReversed? {s t u : Store} {groupId : String} {moment : Instant}
    (hst : s.ChangedByCancelling t groupId) (h : t.markReversed? groupId moment = some u) :
    s.ChangedByCancelling u groupId := by
  constructor
  · intro other e hother hheld
    rw [find?_markReversed? h, if_neg hother]
    exact hst.kept other e hother hheld
  · intro e hheld
    obtain ⟨reversed, hflagged⟩ := hst.flag_only e hheld
    refine ⟨some moment, ?_⟩
    rw [find?_markReversed? h, if_pos rfl, hflagged]
    rfl
  · intro other hother hnone
    rw [find?_markReversed? h, hst.added_only other hother hnone]
    exact ite_self none
  · rw [size_markReversed? h]
    exact hst.size_le
  · rw [accounts_markReversed? h]
    exact hst.accounts_eq

end Store

namespace Cancelling

theorem Targets.changed {c : Cancelling} {s t : Store} {target : Entry}
    (targets : c.Targets s target) (hkeyed : s.Keyed)
    (added : s.insert? (c.twin target) = some t) : s.ChangedByCancelling t c.groupId := by
  have htwinId : (c.twin target).groupId = Entry.reversalId c.groupId :=
    congrArg Entry.reversalId (targets.groupId_eq hkeyed)
  constructor
  · intro other e _ hheld
    exact Store.find?_insert?_of_some added hheld
  · intro e hheld
    exact ⟨e.reversed, Store.find?_insert?_of_some added hheld⟩
  · intro other hother hnone
    rw [Store.find?_insert? added, htwinId, if_neg hother, hnone]
  · rw [Store.size_insert? added]
    exact ⟨Nat.le_succ _, Nat.le_refl _⟩
  · apply Store.accounts_insert? added
    intro a ha
    exact (Store.mem_accounts_iff s a).2 ⟨c.groupId, target, targets.held, ha.symm⟩

theorem Cancelled.changed {s : Session} {c : Cancelling} {outcome : Except Failure Entry}
    {store : Store} (h : Cancelled s c outcome store) (hkeyed : s.store.Keyed) :
    s.store.ChangedByCancelling store c.groupId := by
  cases h with
  | stopped failure => exact .refl s.store c.groupId
  | halfway failure target targets _ added => exact targets.changed hkeyed added
  | stored target targets between added _ marked =>
      rw [targets.groupId_eq hkeyed] at marked
      exact (targets.changed hkeyed added).markReversed? marked
  | recovered target targets taken named twin held reverses _ marked =>
      rw [targets.groupId_eq hkeyed] at marked
      exact (Store.ChangedByCancelling.refl s.store c.groupId).markReversed? marked

def shownAfter (c : Cancelling) (shown : List Entry) : Except Failure Entry → List Entry
  | .error _ => shown
  | .ok _ => shown.filter fun e => e.groupId ≠ c.groupId

theorem Cancelled.fetch {s : Session} {c : Cancelling} {outcome : Except Failure Entry}
    {store : Store} (h : Cancelled s c outcome store) (hkeyed : s.store.Keyed) {q : EntryQuery}
    (hq : q.includeReversed = false) :
    store.fetch q = c.shownAfter (s.store.fetch q) outcome := by
  have hflagged : ∀ target, (c.twin target).reversed ≠ none :=
    fun _ => Option.some_ne_none c.moment
  cases h with
  | stopped failure => rfl
  | halfway failure target targets _ added =>
      exact hkeyed.fetch_insert? added hq (hflagged target)
  | stored target targets between added _ marked =>
      rw [targets.groupId_eq hkeyed] at marked
      rw [(hkeyed.insert? added).fetch_markReversed? marked hq,
        hkeyed.fetch_insert? added hq (hflagged target)]
      rfl
  | recovered target targets taken named twin held reverses _ marked =>
      rw [targets.groupId_eq hkeyed] at marked
      exact hkeyed.fetch_markReversed? marked hq

theorem Cancelled.exists_targets {s : Session} {c : Cancelling} {answer : Entry} {store : Store}
    (h : Cancelled s c (.ok answer) store) : ∃ target, c.Targets s.store target := by
  cases h with
  | stored target targets between added _ marked => exact ⟨target, targets⟩
  | recovered target targets taken named twin held reverses _ marked => exact ⟨target, targets⟩

/--
A call is atomic for whoever scans live entries, whatever the store holds and whichever store
calls fail: after an error or a fault every scan shows what it showed, and after an answer it
misses the entry, which was live, and nothing else.
-/
theorem scans_of_run {s t : Session} {c : Cancelling} {outcome : Except Failure Entry}
    (hkeyed : s.store.Keyed) (h : s.run c.run = (outcome, t)) :
    (∀ q : EntryQuery, q.includeReversed = false →
      t.store.fetch q = c.shownAfter (s.store.fetch q) outcome) ∧
    (∀ answer, outcome = .ok answer → ∃ target, c.Targets s.store target) ∧
    s.store.ChangedByCancelling t.store c.groupId := by
  have hcancelled := cancelled_of_run h
  refine ⟨fun q hq => hcancelled.fetch hkeyed hq, ?_, hcancelled.changed hkeyed⟩
  rintro answer rfl
  exact hcancelled.exists_targets

/-- The deposit is stored, and the next call to flag an entry fails. -/
private def beforeFailedFlag : Session :=
  { Session.fresh with
    store := Store.empty.put Entry.sampleDeposit
    outages := Outages.none.queue .mark 1 .idNotFound }

/-- The twin is stored and the deposit is not flagged, and scans show what they showed. -/
theorem scans_of_run_halfway :
    ∃ failure t, beforeFailedFlag.run (Cancelling.run ⟨"deposit", ⟨2⟩, .standard⟩) =
        (.error failure, t) ∧
      t.store.size = 2 ∧
      ∀ q : EntryQuery, q.includeReversed = false →
        t.store.fetch q = beforeFailedFlag.store.fetch q := by
  have hkeyed : beforeFailedFlag.store.Keyed := Store.keyed_empty.put Entry.sampleDeposit
  have hfailed : (beforeFailedFlag.run (Cancelling.run ⟨"deposit", ⟨2⟩, .standard⟩)).1.isOk =
      false := by
    decide +kernel
  have hsize : (beforeFailedFlag.run (Cancelling.run ⟨"deposit", ⟨2⟩, .standard⟩)).2.store.size =
      2 := by
    decide +kernel
  cases hrun : beforeFailedFlag.run (Cancelling.run ⟨"deposit", ⟨2⟩, .standard⟩) with
  | mk outcome t =>
      rw [hrun] at hfailed hsize
      cases outcome with
      | ok answer => cases hfailed
      | error failure => exact ⟨failure, t, rfl, hsize, (scans_of_run hkeyed hrun).1⟩

end Cancelling

end DoubleEntry
