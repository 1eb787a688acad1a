import DoubleEntry.Proofs.Entry.Histories

/-!
# Flagged pairs

A call that answers has flagged the entry with the time of the twin it answers
with. That the twin is flagged too holds for a twin that the call stored itself,
and for one that was there before only if it was flagged already: the call never
flags a twin that it finds. So a reversal that was saved as any other entry stays
live when a call takes it for the twin.
-/

namespace DoubleEntry

def Store.PairFlagged (s : Store) (groupId : String) (answer : Entry) : Prop :=
  ∃ moment entry,
    s.find? groupId = some entry ∧ entry.reversed = some moment ∧
      s.find? (Entry.reversalId groupId) = some answer ∧
      answer.reversalOf = some groupId ∧ answer.reversed = some moment

namespace Cancelling

structure Answered (s : Session) (c : Cancelling) (target answer : Entry) (store : Store) :
    Prop where
  targets : c.Targets s.store target
  flagged : store.find? c.groupId =
    some { target with reversed := some (answer.reversed.getD c.moment) }
  twin : store.find? (Entry.reversalId c.groupId) = some answer
  reverses : answer.reversalOf = some c.groupId
  /-- The twin was there before, or the call stored its own. -/
  origin : s.store.find? (Entry.reversalId c.groupId) = some answer ∨
    s.store.find? (Entry.reversalId c.groupId) = none ∧ answer = c.twin target

/--
Whatever failures claim, the answer is a twin under its own id: it was there before, or the call
stored its own.
-/
theorem Cancelled.answer_held {s : Session} {c : Cancelling} {answer : Entry} {store : Store}
    (h : Cancelled s c (.ok answer) store) (hkeyed : s.store.Keyed) :
    ∃ target, c.Targets s.store target ∧ NamedTaken s target answer.groupId ∧
      store.find? c.groupId =
        some { target with reversed := some (answer.reversed.getD c.moment) } ∧
      store.find? answer.groupId = some answer ∧ answer.reversalOf = some c.groupId ∧
      (s.store.find? answer.groupId = some answer ∨
        s.store.find? answer.groupId = none ∧ answer = c.twin target) := by
  cases h with
  | stored target targets between added _ marked =>
      have hid := targets.groupId_eq hkeyed
      have hne : (c.twin target).groupId ≠ target.groupId := Entry.reversalId_ne target.groupId
      refine ⟨target, targets, Or.inl rfl, ?_, ?_, congrArg some hid,
        Or.inr ⟨Store.find?_of_insert? added, rfl⟩⟩
      · rw [Store.find?_markReversed? marked, if_pos hid.symm, Store.find?_insert? added,
          if_neg (hid ▸ hne.symm), targets.held]
        rfl
      · rw [Store.find?_markReversed? marked, if_neg hne, Store.find?_insert? added, if_pos rfl]
  | recovered target targets taken named _ held reverses _ marked =>
      have hid := targets.groupId_eq hkeyed
      obtain rfl := hkeyed _ _ held
      -- What the call takes for the twin reverses an entry, and the target reverses none.
      have hne : answer.groupId ≠ target.groupId := by
        intro heq
        rw [heq, hid, targets.held] at held
        obtain rfl := Option.some.inj held
        cases targets.original.symm.trans reverses
      refine ⟨target, targets, named, ?_, ?_, reverses, Or.inl held⟩
      · rw [Store.find?_markReversed? marked, if_pos hid.symm, targets.held]
        rfl
      · rw [Store.find?_markReversed? marked, if_neg hne, held]

/-- While failures report the id of the new entry, the twin is under the id of a reversal. -/
theorem Cancelled.answered {s : Session} {c : Cancelling} {answer : Entry} {store : Store}
    (h : Cancelled s c (.ok answer) store) (hkeyed : s.store.Keyed)
    (hown : s.outages.ReportOwnId (Entry.reversalId c.groupId)) :
    ∃ target, Answered s c target answer store := by
  obtain ⟨target, targets, named, flagged, twin, reverses, origin⟩ := h.answer_held hkeyed
  have hid : answer.groupId = Entry.reversalId c.groupId := by
    rcases named with hreversal | hclaimed
    · rw [hreversal, targets.groupId_eq hkeyed]
    · exact hown _ hclaimed
  rw [hid] at twin origin
  exact ⟨target, targets, flagged, twin, reverses, origin⟩

/--
After an answer the entry is flagged and the answer is the twin that is stored; the pair is
flagged unless a twin was there that was not.
-/
theorem pairFlagged_iff {s t : Session} {c : Cancelling} {answer : Entry} (hs : s.Reachable)
    (hown : s.outages.ReportOwnId (Entry.reversalId c.groupId))
    (h : s.run c.run = (.ok answer, t)) :
    (∃ target, s.store.find? c.groupId = some target ∧
      t.store.find? c.groupId =
        some { target with reversed := some (answer.reversed.getD c.moment) }) ∧
    t.store.find? (Entry.reversalId c.groupId) = some answer ∧
    answer.reversalOf = some c.groupId ∧
    (t.store.PairFlagged c.groupId answer ↔
      ∀ twin, s.store.find? (Entry.reversalId c.groupId) = some twin → twin.reversed ≠ none) := by
  obtain ⟨target, hanswered⟩ := (cancelled_of_run h).answered hs.keyed hown
  refine ⟨⟨target, hanswered.targets.held, hanswered.flagged⟩, hanswered.twin,
    hanswered.reverses, ?_⟩
  constructor
  · rintro ⟨moment, -, -, -, -, -, hreversed⟩ twin htwin
    rcases hanswered.origin with hbefore | ⟨hnone, -⟩
    · obtain rfl := Option.some.inj (htwin.symm.trans hbefore)
      rw [hreversed]
      exact Option.some_ne_none moment
    · rw [hnone] at htwin
      cases htwin
  · intro hflagged
    have hreversed : answer.reversed = some (answer.reversed.getD c.moment) := by
      rcases hanswered.origin with hbefore | ⟨-, rfl⟩
      · obtain ⟨moment, hmoment⟩ := Option.ne_none_iff_exists'.1 (hflagged answer hbefore)
        rw [hmoment]
        rfl
      · rfl
    exact ⟨_, _, hanswered.flagged, rfl, hanswered.twin, hanswered.reverses, hreversed⟩

/-- The reversal of the deposit was saved by itself before the deposit is cancelled. -/
private def afterSavedReversal : Session :=
  let deposited := WritingCall.apply .fresh (.save Entry.sampleDeposit .standard)
  WritingCall.apply deposited (.save (Entry.sampleDeposit.mirrored ⟨1⟩) .standard)

private def cancelDeposit : Cancelling :=
  ⟨"deposit", ⟨2⟩, .standard⟩

/-- The reversal that was saved by itself is taken for the twin, and is never flagged. -/
theorem saved_reversal_not_flagged :
    ∃ answer t, afterSavedReversal.run cancelDeposit.run = (.ok answer, t) ∧
      answer.reversed = none ∧ ¬ t.store.PairFlagged "deposit" answer := by
  have hreachable : afterSavedReversal.Reachable :=
    .called (.save _ _) (.called (.save _ _) .fresh)
  have hown : afterSavedReversal.outages.ReportOwnId (Entry.reversalId "deposit") := by
    intro taken hmem
    cases hmem
  have hanswered : (afterSavedReversal.run cancelDeposit.run).1.toOption.map (·.reversed) =
      some none := by
    decide +kernel
  have hlive : (afterSavedReversal.store.find? (Entry.reversalId "deposit")).map (·.reversed) =
      some none := by
    decide +kernel
  cases hrun : afterSavedReversal.run cancelDeposit.run with
  | mk outcome t =>
      rw [hrun] at hanswered
      cases outcome with
      | error failure => cases hanswered
      | ok answer =>
          refine ⟨answer, t, rfl, Option.some.inj hanswered, ?_⟩
          obtain ⟨-, -, -, hiff⟩ := pairFlagged_iff hreachable hown hrun
          rw [show "deposit" = cancelDeposit.groupId from rfl, hiff]
          obtain ⟨twin, htwin, hnone⟩ := Option.map_eq_some_iff.1 hlive
          intro hflagged
          exact hflagged twin htwin hnone

end Cancelling

end DoubleEntry
