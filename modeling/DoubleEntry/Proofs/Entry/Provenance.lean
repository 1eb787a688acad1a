import DoubleEntry.Proofs.Entry.Acceptance
import DoubleEntry.Proofs.Entry.Histories

/-!
# Where stored entries come from

A run is a list of calls with the failures that they meet. What one call does to
the document under one id is one of three things (`Handled`): it leaves it, it
flags it, or it writes an entry that its own check accepted. From that follow, by
induction on the run, who wrote a stored entry and what can still become of it.
-/

namespace DoubleEntry

namespace Entry

/-- `later` is this entry, or this entry was live and has been flagged since. -/
def OnlyFlagged (e later : Entry) : Prop :=
  later = e ∨ e.reversed = none ∧ ∃ moment, later = { e with reversed := some moment }

theorem OnlyFlagged.refl (e : Entry) : e.OnlyFlagged e :=
  Or.inl rfl

theorem OnlyFlagged.trans {a b c : Entry} (hab : a.OnlyFlagged b) (hbc : b.OnlyFlagged c) :
    a.OnlyFlagged c := by
  rcases hab with rfl | ⟨hlive, moment, rfl⟩
  · exact hbc
  · rcases hbc with rfl | ⟨hflagged, -⟩
    · exact Or.inr ⟨hlive, moment, rfl⟩
    · cases hflagged

/-- Nothing that the completeness check looks at is changed by a flag. -/
theorem OnlyFlagged.sides_eq {e later : Entry} (h : e.OnlyFlagged later) :
    later.groupId = e.groupId ∧ later.debit = e.debit ∧ later.credit = e.credit := by
  rcases h with rfl | ⟨-, moment, rfl⟩
  · exact ⟨rfl, rfl, rfl⟩
  · exact ⟨rfl, rfl, rfl⟩

structure WithinGap (e : Entry) (tolerance : Tolerance) : Prop where
  debit_set : e.debit.account.isSome
  credit_set : e.credit.account.isSome
  gap_le : ∃ gap, e.msatsGap.Yields gap ∧ gap ≤ tolerance.msatsGap

theorem Accepted.withinGap {e : Entry} {tolerance : Tolerance} (h : e.Accepted tolerance) :
    e.WithinGap tolerance := by
  obtain ⟨⟨hdebit, hcredit⟩, -, -, gap, hgap, hbound⟩ := (accepted_iff e tolerance).1 h
  refine ⟨hdebit, hcredit, gap, hgap, ?_⟩
  rw [Decimal.lt_iff] at hbound
  exact not_lt.1 hbound

theorem OnlyFlagged.withinGap {e later : Entry} {tolerance : Tolerance} (h : e.OnlyFlagged later)
    (he : e.WithinGap tolerance) : later.WithinGap tolerance := by
  obtain ⟨-, hdebit, hcredit⟩ := h.sides_eq
  refine ⟨?_, ?_, ?_⟩
  · rw [hdebit]
    exact he.debit_set
  · rw [hcredit]
    exact he.credit_set
  · rw [msatsGap, hdebit, hcredit]
    exact he.gap_le

end Entry

/-! ## Runs -/

namespace WritingCall

/-- The tolerance under which a call checks what it writes. -/
def tolerance : WritingCall → Tolerance
  | .save _ tolerance => tolerance
  | .upsert _ tolerance => tolerance
  | .cancel c => c.tolerance

/-- Whether a call writes under an id: its entry when it answers, a twin when it is new there. -/
def writes (s : Session) (groupId : String) : WritingCall → Bool
  | .save e tolerance => (s.run (e.save tolerance)).1.isOk && e.groupId == groupId
  | .upsert e tolerance => (s.run (e.upsert tolerance)).1.isOk && e.groupId == groupId
  | .cancel c =>
    (s.store.find? groupId).isNone && ((s.run c.run).2.store.find? groupId).isSome

end WritingCall

/-- What comes next in a run: a call, or the failures that store calls meet from now on. -/
inductive Move where
  | calling (call : WritingCall)
  | failing (outages : Outages)

namespace Move

def apply (s : Session) : Move → Session
  | .calling call => call.apply s
  | .failing outages => { s with outages := outages }

def isUpsert : Move → Bool
  | .calling (.upsert _ _) => true
  | _ => false

def writer? (s : Session) (groupId : String) : Move → Option WritingCall
  | .calling call => if call.writes s groupId then some call else none
  | .failing _ => none

end Move

namespace Session

def after (s : Session) (moves : List Move) : Session :=
  moves.foldl Move.apply s

theorem after_append (s : Session) (moves later : List Move) :
    s.after (moves ++ later) = (s.after moves).after later :=
  List.foldl_append

/-- The last call of a run that wrote under an id. -/
def lastWriter? (groupId : String) : Session → List Move → Option WritingCall
  | _, [] => none
  | s, move :: rest => (lastWriter? groupId (move.apply s) rest).or (move.writer? s groupId)

end Session

/-! ## One move, one id -/

inductive Handled (s : Session) (move : Move) (groupId : String) : Prop where
  | kept (unwritten : move.writer? s groupId = none)
    (now : (move.apply s).store.find? groupId = s.store.find? groupId)
  | flagged (unwritten : move.writer? s groupId = none) (e : Entry) (moment : Instant)
    (held : s.store.find? groupId = some e) (live : e.reversed = none)
    (now : (move.apply s).store.find? groupId = some { e with reversed := some moment })
  | written (call : WritingCall) (wrote : move.writer? s groupId = some call) (e : Entry)
    (now : (move.apply s).store.find? groupId = some e) (named : e.groupId = groupId)
    (accepted : e.Accepted call.tolerance)
    (free : move.isUpsert = false → s.store.find? groupId = none)

theorem Entry.Written.find? {s : Session} {e : Entry} {kind : WriteKind} {tolerance : Tolerance}
    {outcome : Except Failure Unit} {store : Store}
    (h : Entry.Written s e kind tolerance outcome store) (groupId : String) :
    (outcome.isOk && e.groupId == groupId) = false ∧
        store.find? groupId = s.store.find? groupId ∨
      (outcome.isOk && e.groupId == groupId) = true ∧ store.find? groupId = some e ∧
        e.groupId = groupId ∧ e.Accepted tolerance ∧
        (kind = .insert → s.store.find? groupId = none) := by
  cases h with
  | stored _ accepted unmet done =>
      by_cases hid : e.groupId = groupId
      · subst hid
        refine Or.inr ⟨by simp [Except.isOk, Except.toBool], ?_, rfl, accepted, ?_⟩
        · cases kind with
          | insert => rw [Store.find?_insert? done, if_pos rfl]
          | upsert =>
              cases done
              rw [Store.find?_put, if_pos rfl]
        · rintro rfl
          exact Store.find?_of_insert? done
      · refine Or.inl ⟨by simp [hid], ?_⟩
        cases kind with
        | insert => rw [Store.find?_insert? done, if_neg (Ne.symm hid)]
        | upsert =>
            cases done
            rw [Store.find?_put, if_neg (Ne.symm hid)]
  | _ => exact Or.inl ⟨rfl, rfl⟩

namespace Cancelling

/-- A call to cancel flags its target, which was live, and stores a twin where nothing was. -/
theorem Cancelled.find? {s : Session} {c : Cancelling} {outcome : Except Failure Entry}
    {store : Store} (h : Cancelled s c outcome store) (hkeyed : s.store.Keyed)
    (groupId : String) :
    store.find? groupId = s.store.find? groupId ∨
      (∃ e moment, s.store.find? groupId = some e ∧ e.reversed = none ∧
        store.find? groupId = some { e with reversed := some moment }) ∨
      s.store.find? groupId = none ∧
        ∃ e, store.find? groupId = some e ∧ e.groupId = groupId ∧ e.Accepted c.tolerance := by
  have hne := Entry.reversalId_ne c.groupId
  cases h with
  | stopped failure => exact Or.inl rfl
  | halfway failure target targets _ added accepted =>
      rw [Store.find?_insert? added]
      split
      · rename_i hid
        subst hid
        exact Or.inr (Or.inr ⟨Store.find?_of_insert? added, _, rfl, rfl, accepted⟩)
      · exact Or.inl rfl
  | stored target targets between added _ marked accepted =>
      have hid := targets.groupId_eq hkeyed
      have htwinId : (c.twin target).groupId = Entry.reversalId c.groupId :=
        congrArg Entry.reversalId hid
      rw [Store.find?_markReversed? marked, Store.find?_insert? added, htwinId, hid]
      -- The twin's id is not the entry's, so the flag misses the twin.
      by_cases htwin : groupId = Entry.reversalId c.groupId
      · subst htwin
        rw [if_neg hne, if_pos rfl]
        refine Or.inr (Or.inr ⟨?_, _, rfl, htwinId, accepted⟩)
        rw [← htwinId]
        exact Store.find?_of_insert? added
      · rw [if_neg htwin]
        by_cases htarget : groupId = c.groupId
        · subst htarget
          rw [if_pos rfl, targets.held]
          exact Or.inr (Or.inl ⟨target, c.moment, rfl, targets.live, rfl⟩)
        · rw [if_neg htarget]
          exact Or.inl rfl
  | recovered target targets taken named twin held reverses _ marked =>
      rw [Store.find?_markReversed? marked, targets.groupId_eq hkeyed]
      by_cases htarget : groupId = c.groupId
      · subst htarget
        rw [if_pos rfl, targets.held]
        exact Or.inr (Or.inl ⟨target, _, rfl, targets.live, rfl⟩)
      · rw [if_neg htarget]
        exact Or.inl rfl

end Cancelling

namespace Move

private theorem handled_of_written {s t : Session} {call : WritingCall} {e : Entry}
    {kind : WriteKind} {outcome : Except Failure Unit} {groupId : String}
    (hrun : s.run (e.write kind call.tolerance) = (outcome, t)) (happly : call.apply s = t)
    (hwrites : call.writes s groupId = (outcome.isOk && e.groupId == groupId))
    (hkind : (calling call).isUpsert = false → kind = .insert) :
    Handled s (calling call) groupId := by
  rcases (Entry.written_of_run hrun).find? groupId with
    ⟨hnot, hsame⟩ | ⟨hok, hnow, hnamed, haccepted, hfree⟩
  · refine .kept ?_ ?_
    · rw [writer?, hwrites, hnot, if_neg Bool.false_ne_true]
    · rw [apply, happly, hsame]
  · refine .written call ?_ e ?_ hnamed haccepted fun hcall => hfree (hkind hcall)
    · rw [writer?, hwrites, hok, if_pos rfl]
    · rw [apply, happly, hnow]

private theorem handled_of_cancelled {s t : Session} {c : Cancelling}
    {outcome : Except Failure Entry} (hs : s.store.Keyed) (hrun : s.run c.run = (outcome, t))
    (groupId : String) : Handled s (calling (.cancel c)) groupId := by
  have hwrites : (WritingCall.cancel c).writes s groupId =
      ((s.store.find? groupId).isNone && (t.store.find? groupId).isSome) := by
    rw [WritingCall.writes, hrun]
  have happly : (calling (.cancel c)).apply s = t := by
    rw [apply, WritingCall.apply, hrun]
  rcases (Cancelling.cancelled_of_run hrun).find? hs groupId with
    hsame | ⟨e, moment, hheld, hlive, hnow⟩ | ⟨hnone, e, hnow, hnamed, haccepted⟩
  · refine .kept ?_ (by rw [happly, hsame])
    rw [writer?, hwrites, hsame]
    cases s.store.find? groupId <;> rfl
  · refine .flagged ?_ e moment hheld hlive (by rw [happly, hnow])
    rw [writer?, hwrites, hheld]
    rfl
  · refine .written (.cancel c) ?_ e (by rw [happly, hnow]) hnamed haccepted fun _ => hnone
    rw [writer?, hwrites, hnone, hnow]
    rfl

theorem handled {s : Session} (hs : s.store.Keyed) (move : Move) (groupId : String) :
    Handled s move groupId := by
  cases move with
  | failing outages => exact .kept rfl rfl
  | calling call =>
      cases call with
      | save e tolerance =>
          cases hrun : s.run (e.save tolerance) with
          | mk outcome t =>
              refine handled_of_written hrun ?_ ?_ fun _ => rfl
              · rw [WritingCall.apply, hrun]
              · rw [WritingCall.writes, hrun]
      | upsert e tolerance =>
          cases hrun : s.run (e.upsert tolerance) with
          | mk outcome t =>
              refine handled_of_written hrun ?_ ?_ fun hcall => ?_
              · rw [WritingCall.apply, hrun]
              · rw [WritingCall.writes, hrun]
              · cases hcall
      | cancel c =>
          cases hrun : s.run c.run with
          | mk outcome t => exact handled_of_cancelled hs hrun groupId

theorem keyed_apply {s : Session} (move : Move) (hs : s.store.Keyed) :
    (move.apply s).store.Keyed := by
  cases move with
  | calling call => exact Session.keyed_apply call hs
  | failing outages => exact hs

end Move

/-! ## From move to run -/

namespace Session

theorem keyed_after {s : Session} (hs : s.store.Keyed) (moves : List Move) :
    (s.after moves).store.Keyed := by
  induction moves generalizing s with
  | nil => exact hs
  | cons move rest ih => exact ih (move.keyed_apply hs)

/-- A stored entry was written in the run, or it was there before and was flagged at most. -/
theorem written_or_before {s : Session} (hs : s.store.Keyed) (moves : List Move)
    {groupId : String} {e : Entry} (h : (s.after moves).store.find? groupId = some e) :
    (∃ call, lastWriter? groupId s moves = some call ∧ e.WithinGap call.tolerance) ∨
      lastWriter? groupId s moves = none ∧
        ∃ before, s.store.find? groupId = some before ∧ before.OnlyFlagged e := by
  induction moves generalizing s with
  | nil => exact Or.inr ⟨rfl, e, h, .refl e⟩
  | cons move rest ih =>
      rcases ih (move.keyed_apply hs) h with
        ⟨last, hlast, hgap⟩ | ⟨hnone, before, hbefore, hflagged⟩
      · exact Or.inl ⟨last, by rw [lastWriter?, hlast, Option.some_or], hgap⟩
      · rw [lastWriter?, hnone, Option.none_or]
        cases move.handled hs groupId with
        | kept unwritten now => exact Or.inr ⟨unwritten, before, by rw [← now, hbefore], hflagged⟩
        | flagged unwritten held moment hheld live now =>
            obtain rfl := Option.some.inj (hbefore.symm.trans now)
            have hheldFlagged : held.OnlyFlagged { held with reversed := some moment } :=
              Or.inr ⟨live, moment, rfl⟩
            exact Or.inr ⟨unwritten, held, hheld, hheldFlagged.trans hflagged⟩
        | written call wrote written now named accepted free =>
            obtain rfl := Option.some.inj (hbefore.symm.trans now)
            exact Or.inl ⟨call, wrote, hflagged.withinGap accepted.withinGap⟩

theorem holds_after {s : Session} (hs : s.store.Keyed) (moves : List Move) {groupId : String}
    (h : s.store.holds groupId = true) : (s.after moves).store.holds groupId = true := by
  induction moves generalizing s with
  | nil => exact h
  | cons move rest ih =>
      refine ih (move.keyed_apply hs) ?_
      rw [← Store.isSome_find?] at h ⊢
      cases move.handled hs groupId with
      | kept unwritten now => rwa [now]
      | flagged unwritten held moment hheld live now => rw [now, Option.isSome_some]
      | written call wrote written now named accepted free => rw [now, Option.isSome_some]

/-- Without upserts a document is flagged at most. -/
theorem onlyFlagged_after {s : Session} (hs : s.store.Keyed) {moves : List Move}
    (hmoves : ∀ move ∈ moves, move.isUpsert = false) {groupId : String} {e : Entry}
    (h : s.store.find? groupId = some e) :
    ∃ later, (s.after moves).store.find? groupId = some later ∧ e.OnlyFlagged later := by
  induction moves generalizing s e with
  | nil => exact ⟨e, h, .refl e⟩
  | cons move rest ih =>
      obtain ⟨hmove, hrest⟩ := List.forall_mem_cons.1 hmoves
      have hnext : ∃ next, (move.apply s).store.find? groupId = some next ∧ e.OnlyFlagged next := by
        cases move.handled hs groupId with
        | kept unwritten now => exact ⟨e, by rw [now, h], .refl e⟩
        | flagged unwritten held moment hheld live now =>
            obtain rfl := Option.some.inj (h.symm.trans hheld)
            exact ⟨_, now, Or.inr ⟨live, moment, rfl⟩⟩
        | written call wrote written now named accepted free =>
            rw [free hmove] at h
            cases h
      obtain ⟨next, hnow, hflagged⟩ := hnext
      obtain ⟨later, hlater, hmore⟩ := ih (move.keyed_apply hs) hrest hnow
      exact ⟨later, hlater, hflagged.trans hmore⟩

/--
What holds of the store along every run from an empty one. Each stored entry is under its own id,
with both accounts set and with a gap within the tolerance of the call that wrote it last; an id
that is stored stays stored; and as long as there are no upserts, a document once stored is
flagged at most, and once at most.
-/
theorem stored_after (moves : List Move) :
    (∀ groupId e, (fresh.after moves).store.find? groupId = some e →
      e.groupId = groupId ∧ e.debit.account.isSome ∧ e.credit.account.isSome ∧
        ∃ call gap, lastWriter? groupId fresh moves = some call ∧ e.msatsGap.Yields gap ∧
          gap ≤ call.tolerance.msatsGap) ∧
    (∀ later groupId, (fresh.after moves).store.holds groupId = true →
      (fresh.after (moves ++ later)).store.holds groupId = true) ∧
    ∀ later, (∀ move ∈ later, move.isUpsert = false) →
      ∀ groupId e, (fresh.after moves).store.find? groupId = some e →
        ∃ kept, (fresh.after (moves ++ later)).store.find? groupId = some kept ∧
          (kept = e ∨ e.reversed = none ∧ ∃ moment, kept = { e with reversed := some moment }) := by
  have hkeyed : (fresh.after moves).store.Keyed := keyed_after Store.keyed_empty moves
  refine ⟨?_, ?_, ?_⟩
  · intro groupId e h
    rcases written_or_before Store.keyed_empty moves h with
      ⟨call, hlast, hwithin⟩ | ⟨-, e', hnone, -⟩
    · obtain ⟨gap, hgap, hle⟩ := hwithin.gap_le
      exact ⟨hkeyed groupId e h, hwithin.debit_set, hwithin.credit_set, call, gap, hlast, hgap, hle⟩
    · cases hnone
  · intro later groupId h
    rw [after_append]
    exact holds_after hkeyed later h
  · intro later hlater groupId e h
    rw [after_append]
    exact onlyFlagged_after hkeyed hlater h

private def depositTwice : List Move :=
  [.failing (Outages.none.queue .insert 1 (.refused (.persistence "insert failed"))),
    .calling (.save Entry.sampleDeposit .standard),
    .calling (.save Entry.sampleDeposit .standard)]

private def cancelTwice : List Move :=
  [.failing (Outages.none.queue .mark 1 .idNotFound),
    .calling (.cancel ⟨"deposit", ⟨1⟩, .standard⟩),
    .calling (.cancel ⟨"deposit", ⟨2⟩, .standard⟩)]

/-- The deposit and the twin are within the tolerance, and the deposit was flagged once. -/
theorem stored_after_retries :
    (∃ twin, (fresh.after (depositTwice ++ cancelTwice)).store.find? "deposit_reversal" =
        some twin ∧
      twin.debit.account.isSome ∧
      ∃ call gap, lastWriter? "deposit_reversal" fresh (depositTwice ++ cancelTwice) = some call ∧
        twin.msatsGap.Yields gap ∧ gap ≤ call.tolerance.msatsGap) ∧
    (fresh.after (depositTwice ++ cancelTwice)).store.holds "deposit" = true ∧
    ∃ kept, (fresh.after (depositTwice ++ cancelTwice)).store.find? "deposit" = some kept ∧
      (kept = Entry.sampleDeposit ∨ ∃ moment,
        kept = { Entry.sampleDeposit with reversed := some moment }) := by
  have hstored : (fresh.after depositTwice).store.find? "deposit" = some Entry.sampleDeposit := by
    rfl
  have htwin : ((fresh.after (depositTwice ++ cancelTwice)).store.find?
      "deposit_reversal").isSome = true := by
    decide +kernel
  have hlater : ∀ move ∈ cancelTwice, move.isUpsert = false := by
    intro move hmove
    simp only [cancelTwice, List.mem_cons, List.not_mem_nil, or_false] at hmove
    rcases hmove with rfl | rfl | rfl <;> rfl
  obtain ⟨-, hstays, hflagged⟩ := stored_after depositTwice
  refine ⟨?_, ?_, ?_⟩
  · obtain ⟨twin, hfind⟩ := Option.isSome_iff_exists.1 htwin
    obtain ⟨-, hdebit, -, hwriter⟩ := (stored_after (depositTwice ++ cancelTwice)).1 _ _ hfind
    exact ⟨twin, hfind, hdebit, hwriter⟩
  · apply hstays
    rw [← Store.isSome_find?, hstored, Option.isSome_some]
  · obtain ⟨kept, hkept, hsame | ⟨-, moment, hmoment⟩⟩ := hflagged cancelTwice hlater _ _ hstored
    · exact ⟨kept, hkept, Or.inl hsame⟩
    · exact ⟨kept, hkept, Or.inr ⟨moment, hmoment⟩⟩

end Session

end DoubleEntry
