import DoubleEntry.Proofs.Entry.Writing
import DoubleEntry.Proofs.Entry.Twins

/-!
# Saving at most once

Entries are saved one after the other, several of them perhaps under one id, and
the insert of any of them may fail. A call answers when its entry is accepted, its
insert does not fail and its id is free; since nothing frees an id, at most one
call answers for each. Every other call leaves the store as it is and is told the
first reason that applies to it.
-/

namespace DoubleEntry

/-! ## One call -/

/-- A call to save an entry, and the failure that its insert meets, if any. -/
structure SaveCall where
  entry : Entry
  tolerance : Tolerance
  failure : Option Outage

/-- What the ledger tells of an error that is no duplicate is a failure to persist. -/
theorem LedgerError.kind_told {write : WriteKind} {groupId : String} {error : LedgerError}
    (h : error.kind ≠ .duplicate) : (error.told write groupId).kind = .persistence := by
  cases error with
  | duplicate taken => exact absurd rfl h
  | _ => rfl

theorem LedgerError.eq_duplicate_of_kind {error : LedgerError} (h : error.kind = .duplicate) :
    ∃ taken, error = .duplicate taken := by
  cases error with
  | duplicate taken => exact ⟨taken, rfl⟩
  | _ => cases h

namespace SaveCall

/-- The session in which the insert meets the failure of the call, and nothing else fails. -/
def facing (a : SaveCall) (s : Session) : Session :=
  { s with
    outages :=
      { Outages.none with
        pending := fun call => if call = .insert then a.failure.toList else [] } }

/-- The call; the failures that other calls are to meet stay as they were. -/
def run (a : SaveCall) (s : Session) : Except Failure Unit × Session :=
  let ran := (a.facing s).run (a.entry.save a.tolerance)
  (ran.1, { ran.2 with outages := s.outages })

/--
What a call is told that stores nothing: first what the check says, then the failure of the
insert, and last that the id is taken.
-/
inductive Told (a : SaveCall) (s : Store) : Failure → Prop where
  | faulted (reason : Fault) (verdict : (a.entry.check a.tolerance).verdict = .fault reason) :
    Told a s (.fault reason)
  | incomplete (cause : Incomplete)
    (verdict : (a.entry.check a.tolerance).verdict.Yields (some cause)) :
    Told a s (.refused (.notCompleted a.entry.groupId cause))
  | failed (accepted : a.entry.Accepted a.tolerance) (outage : Outage)
    (met : a.failure = some outage) (other : (outage.toError a.entry.groupId).kind ≠ .duplicate)
    (error : LedgerError) (persistence : error.kind = .persistence) :
    Told a s (.refused error)
  /-- The failure is itself a duplicate, under the id that it names. -/
  | conflicting (accepted : a.entry.Accepted a.tolerance) (outage : Outage)
    (met : a.failure = some outage) (named : String)
    (conflict : outage.toError a.entry.groupId = .duplicate named) :
    Told a s (.refused (.duplicate named))
  | taken (accepted : a.entry.Accepted a.tolerance) (unmet : a.failure = none)
    (held : s.holds a.entry.groupId = true) :
    Told a s (.refused (.duplicate a.entry.groupId))

inductive Ended (a : SaveCall) (s : Store) : Except Failure Unit → Store → Prop where
  | stored (accepted : a.entry.Accepted a.tolerance) (unmet : a.failure = none) (store : Store)
    (added : s.insert? a.entry = some store) : Ended a s (.ok ()) store
  | refused (failure : Failure) (told : a.Told s failure) : Ended a s (.error failure) s

theorem failure_of_take? {a : SaveCall} {s : Session} {outage : Outage} {rest : Outages}
    (h : (a.facing s).outages.take? .insert = some (outage, rest)) : a.failure = some outage := by
  cases hfailure : a.failure with
  | none => simp [facing, Outages.take?, hfailure] at h
  | some met =>
      simp only [facing, Outages.take?, hfailure, if_true, Option.toList_some, Option.some.injEq,
        Prod.mk.injEq] at h
      rw [h.1]

theorem failure_of_take?_none {a : SaveCall} {s : Session}
    (h : (a.facing s).outages.take? .insert = none) : a.failure = none := by
  cases hfailure : a.failure with
  | none => rfl
  | some met => simp [facing, Outages.take?, hfailure] at h

theorem ended_run (a : SaveCall) (s : Session) : a.Ended s.store (a.run s).1 (a.run s).2.store := by
  cases hrun : (a.facing s).run (a.entry.save a.tolerance) with
  | mk answer t =>
      have hwritten := Entry.written_of_run hrun
      unfold run
      rw [hrun]
      dsimp only
      generalize t.store = store at hwritten ⊢
      cases hwritten with
      | faulted reason verdict => exact .refused _ (.faulted reason verdict)
      | incomplete cause verdict => exact .refused _ (.incomplete cause verdict)
      | failed outage rest accepted met =>
          have hfailure := failure_of_take? met
          by_cases hkind : (outage.toError a.entry.groupId).kind = .duplicate
          · obtain ⟨named, hnamed⟩ := LedgerError.eq_duplicate_of_kind hkind
            rw [hnamed]
            exact .refused _ (.conflicting accepted outage hfailure named hnamed)
          · exact .refused _
              (.failed accepted outage hfailure hkind _ (LedgerError.kind_told hkind))
      | taken accepted unmet full =>
          have hheld := (Store.insert?_eq_none_iff _ _).1 full
          exact .refused _ (.taken accepted (failure_of_take?_none unmet) hheld)
      | stored _ accepted unmet done =>
          exact .stored accepted (failure_of_take?_none unmet) _ done

theorem store_run (a : SaveCall) (s : Session) :
    (a.run s).2.store = s.store ∨ s.store.insert? a.entry = some (a.run s).2.store := by
  have hended := a.ended_run s
  generalize (a.run s).1 = answer at hended
  generalize (a.run s).2.store = store at hended ⊢
  cases hended with
  | stored accepted unmet _ added => exact Or.inr added
  | refused failure told => exact Or.inl rfl

theorem run_eq_ok_iff (a : SaveCall) (s : Session) :
    (a.run s).1 = .ok () ↔
      a.entry.Accepted a.tolerance ∧ a.failure = none ∧ s.store.holds a.entry.groupId = false := by
  have hended := a.ended_run s
  generalize (a.run s).1 = answer at hended ⊢
  generalize (a.run s).2.store = store at hended
  cases hended with
  | stored accepted unmet store added =>
      refine ⟨fun _ => ⟨accepted, unmet, ?_⟩, fun _ => rfl⟩
      rw [← Store.isSome_find?, Store.find?_of_insert? added, Option.isSome_none]
  | refused failure told =>
      constructor
      · intro h
        cases h
      · rintro ⟨accepted, unmet, hfree⟩
        -- Each reason contradicts one of the three conditions.
        cases told with
        | faulted reason verdict =>
            rw [Entry.Accepted, verdict] at accepted
            cases accepted
        | incomplete cause verdict => cases accepted.symm.trans verdict
        | failed _ outage met => cases met.symm.trans unmet
        | conflicting _ outage met => cases met.symm.trans unmet
        | taken _ _ held => cases held.symm.trans hfree

end SaveCall

/-! ## One call after the other -/

theorem Store.documents_insert? {s t : Store} {e : Entry} (h : s.insert? e = some t) :
    t.documents = (e.groupId, e) :: s.documents := by
  unfold insert? at h
  split at h
  · rw [← Option.some.inj h]
  · cases h

theorem Store.holds_eq_false_iff (s : Store) (groupId : String) :
    s.holds groupId = false ↔ ∀ document ∈ s.documents, document.1 ≠ groupId := by
  simp [holds, List.any_eq_false]

namespace Session

def afterSaves (s : Session) (calls : List SaveCall) : Session :=
  calls.foldl (fun s a => (a.run s).2) s

def storedBy : Session → List SaveCall → List Entry
  | _, [] => []
  | s, a :: rest =>
    (if (a.run s).1.isOk then [a.entry] else []) ++ storedBy (a.run s).2 rest

/-- The store gains the entries of the calls that answer, and nothing else. -/
theorem documents_afterSaves (s : Session) (calls : List SaveCall) :
    (s.afterSaves calls).store.documents.Perm
      ((s.storedBy calls).map (fun e => (e.groupId, e)) ++ s.store.documents) := by
  induction calls generalizing s with
  | nil => exact .refl _
  | cons a rest ih =>
      -- The first call puts its document in front of the others, and the rest goes on from there.
      have hrest := ih (a.run s).2
      rw [afterSaves, List.foldl_cons, storedBy, List.map_append, List.append_assoc]
      refine hrest.trans ?_
      have hended := a.ended_run s
      generalize (a.run s).2 = t at hended ⊢
      generalize (a.run s).1 = answer at hended ⊢
      generalize hstore : t.store = store at hended ⊢
      cases hended with
      | stored accepted unmet store added =>
          rw [Store.documents_insert? added]
          exact List.perm_middle
      | refused failure told => exact .refl _

theorem free_afterSaves_iff (s : Session) (calls : List SaveCall) (groupId : String) :
    (s.afterSaves calls).store.holds groupId = false ↔
      s.store.find? groupId = none ∧ ∀ e ∈ s.storedBy calls, e.groupId ≠ groupId := by
  have hmem := fun document => (s.documents_afterSaves calls).mem_iff (a := document)
  rw [← Option.not_isSome_iff_eq_none, Store.isSome_find?, Bool.not_eq_true,
    Store.holds_eq_false_iff, Store.holds_eq_false_iff]
  simp only [hmem, List.mem_append, List.mem_map, or_imp, forall_and, forall_exists_index, and_imp,
    forall_apply_eq_imp_iff₂]
  exact and_comm

/--
Entries are saved at most once. After any calls, the next call answers exactly when the check
accepts its entry, its insert does not fail, and its id is neither in the first store nor taken
by an earlier call; if it does not answer, it changes nothing and is told why. So the entries of
the calls that answer have different ids, and the last store is the first one and these.
-/
theorem saved_at_most_once (s : Session) (calls : List SaveCall) :
    (∀ a : SaveCall,
      ((a.run (s.afterSaves calls)).1 = .ok () ↔
        a.entry.Accepted a.tolerance ∧ a.failure = none ∧
          s.store.find? a.entry.groupId = none ∧
          ∀ e ∈ s.storedBy calls, e.groupId ≠ a.entry.groupId) ∧
      ∀ failure, (a.run (s.afterSaves calls)).1 = .error failure →
        (a.run (s.afterSaves calls)).2.store = (s.afterSaves calls).store ∧
          a.Told (s.afterSaves calls).store failure) ∧
    ((s.storedBy calls).map Entry.groupId).Nodup ∧
    (s.afterSaves calls).store.documents.Perm
      ((s.storedBy calls).map (fun e => (e.groupId, e)) ++ s.store.documents) := by
  have hdocuments := s.documents_afterSaves calls
  refine ⟨?_, ?_, hdocuments⟩
  · intro a
    refine ⟨by rw [a.run_eq_ok_iff, s.free_afterSaves_iff], ?_⟩
    intro failure hfailure
    have hended := a.ended_run (s.afterSaves calls)
    rw [hfailure] at hended
    generalize (a.run (s.afterSaves calls)).2.store = store at hended ⊢
    cases hended with
    | refused _ told => exact ⟨rfl, told⟩
  · have hids := (hdocuments.map Prod.fst).nodup_iff.1 (s.afterSaves calls).store.ids_nodup
    rw [List.map_append, List.map_map] at hids
    exact (List.nodup_append.1 hids).1

private def retriedSave : List SaveCall :=
  [⟨Entry.sampleDeposit, .standard, some (.refused (.persistence "insert failed"))⟩,
    ⟨Entry.sampleDeposit, .standard, none⟩]

private def lateSave : SaveCall :=
  ⟨{ Entry.sampleDeposit with description := "late" }, .standard, none⟩

/-- The retried deposit is stored once, and what comes later under its id is refused. -/
theorem saved_at_most_once_after_retry :
    (lateSave.run (fresh.afterSaves retriedSave)).1 =
        .error (.refused (.duplicate "deposit")) ∧
      (lateSave.run (fresh.afterSaves retriedSave)).2.store =
        (fresh.afterSaves retriedSave).store ∧
      lateSave.Told (fresh.afterSaves retriedSave).store (.refused (.duplicate "deposit")) ∧
      ((fresh.storedBy retriedSave).map Entry.groupId).Nodup := by
  have hanswer : (lateSave.run (fresh.afterSaves retriedSave)).1 =
      .error (.refused (.duplicate "deposit")) := by
    rfl
  obtain ⟨hcalls, hids, -⟩ := saved_at_most_once fresh retriedSave
  obtain ⟨hstore, htold⟩ := (hcalls lateSave).2 _ hanswer
  exact ⟨hanswer, hstore, htold, hids⟩

private def conflictedSave : SaveCall :=
  ⟨Entry.sampleDeposit, .standard,
    some (.refused (.ofService (.conflict "insert failed")))⟩

/-- A conflict that the store reports is told under the id it names, not under the entry's. -/
theorem conflict_told_as_reported :
    ¬ ((conflictedSave.run fresh).1 = .ok () ∨
      (∃ cause, (conflictedSave.run fresh).1 =
        .error (.refused (.notCompleted conflictedSave.entry.groupId cause))) ∨
      (∃ error : LedgerError, error.kind = .persistence ∧
        (conflictedSave.run fresh).1 = .error (.refused error)) ∨
      (conflictedSave.run fresh).1 =
        .error (.refused (.duplicate conflictedSave.entry.groupId))) := by
  have hanswer : (conflictedSave.run fresh).1 =
      .error (.refused (.duplicate "insert failed")) := by
    rfl
  rw [hanswer]
  rintro (hok | ⟨cause, hincomplete⟩ | ⟨error, hkind, hfailed⟩ | hduplicate)
  · cases hok
  · cases hincomplete
  · cases hfailed
    cases hkind
  · simp [conflictedSave, Entry.sampleDeposit] at hduplicate

end Session

end DoubleEntry
