import DoubleEntry.Entry.Saving
import DoubleEntry.Proofs.Store.Runs

/-!
# How a write ends

An entry is written or it is not, and there are four ways in which it is not: the
check faults, the check finds something missing, the store call meets a failure,
or the id is taken. `Entry.WriteEnded` lists the five with what the caller is told
and with the session afterwards, `Entry.Written` with the store alone. Only the last
of them changes the store, and all but the first are counted.
-/

namespace DoubleEntry

/-- What the caller of a write is told about an error of the store. -/
def LedgerError.told (write : WriteKind) (groupId : String) : LedgerError → LedgerError
  | .duplicate taken => .duplicate taken
  | .persistence text => .persistence text
  | .unsaved earlier id cause => .unsaved earlier id cause
  | other => .unsaved write groupId other

theorem LedgerError.told_eq_duplicate {write : WriteKind} {groupId taken : String}
    {error : LedgerError} (h : error.told write groupId = .duplicate taken) :
    error = .duplicate taken := by
  cases error <;> simp_all [LedgerError.told]

/-- The outcome under which an error of a write call is counted. -/
def LedgerError.status (error : LedgerError) : SaveStatus :=
  if error.kind = .duplicate then .duplicate else .error

def Counters.attempt (c : Counters) (status : SaveStatus) (failed : Option ErrorKind) : Counters :=
  { c with
    saved := c.saved.bump status
    errors := (failed.map c.errors.bump).getD c.errors }

def WriteKind.call : WriteKind → StoreCall
  | .insert => .insert
  | .upsert => .upsert

/-- The store after a write; none when a new entry's id is taken. -/
def Store.write? (s : Store) (kind : WriteKind) (e : Entry) : Option Store :=
  match kind with
  | .insert => s.insert? e
  | .upsert => some (s.put e)

/-- A write of an entry finds its id taken only if it is to be a new one. -/
theorem Store.write?_eq_none_iff (s : Store) (kind : WriteKind) (e : Entry) :
    s.write? kind e = none ↔ kind = .insert ∧ s.holds e.groupId = true := by
  cases kind with
  | insert => simp [write?, insert?_eq_none_iff]
  | upsert => simp [write?]

namespace Entry

/-- The check ends, and finds nothing missing. -/
def Accepted (e : Entry) (tolerance : Tolerance) : Prop :=
  (e.check tolerance).verdict.Yields none

/-! ## The steps of a write -/

theorem run_ensureCompleted (s : Session) (e : Entry) (tolerance : Tolerance) :
    ∃ t, t.store = s.store ∧ t.outages = s.outages ∧
      (t.counters = match (e.check tolerance).verdict with
        | .done (some _) _ => s.counters.attempt .notCompleted (some .notCompleted)
        | _ => s.counters) ∧
      s.run (e.ensureCompleted tolerance) =
        match (e.check tolerance).verdict with
        | .fault reason => (.error (.fault reason), t)
        | .done none _ => (.ok (), t)
        | .done (some cause) _ => (.error (.refused (.notCompleted e.groupId cause)), t) := by
  unfold ensureCompleted
  dsimp only
  rw [Session.run_bind, Session.run_journal]
  dsimp only
  rw [Session.run_bind]
  cases (e.check tolerance).verdict with
  | fault reason => refine ⟨_, ?_, ?_, ?_, rfl⟩ <;> rfl
  | done problem rounded =>
      cases problem with
      | none => refine ⟨_, ?_, ?_, ?_, rfl⟩ <;> rfl
      | some cause => refine ⟨_, ?_, ?_, ?_, rfl⟩ <;> rfl

theorem run_recordFailure (s : Session) (e : Entry) (kind : WriteKind) (error : LedgerError) :
    ∃ t, t.store = s.store ∧ t.outages = s.outages ∧
      t.counters = s.counters.attempt error.status (some error.kind) ∧
      s.run (e.recordFailure kind error) = (.ok (error.told kind e.groupId), t) := by
  unfold recordFailure
  rw [Session.run_bind, Session.run_countError]
  cases error <;> refine ⟨_, ?_, ?_, ?_, rfl⟩ <;> rfl

theorem run_store (s : Session) (e : Entry) (kind : WriteKind) :
    s.run (e.store kind) =
      match s.outages.take? kind.call with
      | some (outage, rest) =>
        (.error (.refused (outage.toError e.groupId)), { s with outages := rest })
      | none =>
        match s.store.write? kind e with
        | none => (.error (.refused (.duplicate e.groupId)), s)
        | some store => (.ok (), { s with store := store }) := by
  cases kind with
  | insert => exact Session.run_insertEntry s e
  | upsert => exact Session.run_putEntry s e

/-! ## All of it -/

/-- How a write of `e` ends, and what it leaves behind. -/
inductive WriteEnded (s : Session) (e : Entry) (kind : WriteKind) (tolerance : Tolerance) :
    Except Failure Unit → Session → Prop where
  | faulted (t : Session) (reason : Fault) (verdict : (e.check tolerance).verdict = .fault reason)
    (store_eq : t.store = s.store) (outages_eq : t.outages = s.outages)
    (counters_eq : t.counters = s.counters) :
    WriteEnded s e kind tolerance (.error (.fault reason)) t
  | incomplete (t : Session) (cause : Incomplete)
    (verdict : (e.check tolerance).verdict.Yields (some cause))
    (store_eq : t.store = s.store) (outages_eq : t.outages = s.outages)
    (counters_eq : t.counters = s.counters.attempt .notCompleted (some .notCompleted)) :
    WriteEnded s e kind tolerance (.error (.refused (.notCompleted e.groupId cause))) t
  | failed (t : Session) (outage : Outage) (rest : Outages) (accepted : e.Accepted tolerance)
    (met : s.outages.take? kind.call = some (outage, rest))
    (store_eq : t.store = s.store) (outages_eq : t.outages = rest)
    (counters_eq : t.counters = s.counters.attempt (outage.toError e.groupId).status
      (some (outage.toError e.groupId).kind)) :
    WriteEnded s e kind tolerance
      (.error (.refused ((outage.toError e.groupId).told kind e.groupId))) t
  | taken (t : Session) (accepted : e.Accepted tolerance)
    (unmet : s.outages.take? kind.call = none) (full : s.store.write? kind e = none)
    (store_eq : t.store = s.store) (outages_eq : t.outages = s.outages)
    (counters_eq : t.counters = s.counters.attempt .duplicate (some .duplicate)) :
    WriteEnded s e kind tolerance (.error (.refused (.duplicate e.groupId))) t
  | stored (t : Session) (accepted : e.Accepted tolerance)
    (unmet : s.outages.take? kind.call = none) (done : s.store.write? kind e = some t.store)
    (outages_eq : t.outages = s.outages)
    (counters_eq : t.counters = s.counters.attempt (successOf kind).1 none) :
    WriteEnded s e kind tolerance (.ok ()) t

private theorem run_refused {s t : Session} {e : Entry} {kind : WriteKind}
    {error : LedgerError} (h : s.run (e.store kind) = (.error (.refused error), t)) :
    ∃ u, u.store = t.store ∧ u.outages = t.outages ∧
      u.counters = t.counters.attempt error.status (some error.kind) ∧
      s.run (do
        match ← Operation.attempt (e.store kind) with
        | .ok () =>
          Operation.countSaved (successOf kind).1
          Operation.journal [(successOf kind).2]
        | .error error =>
          let told ← e.recordFailure kind error
          Operation.refuse told) = (.error (.refused (error.told kind e.groupId)), u) := by
  obtain ⟨u, hstore, houtages, hcounters, hrun⟩ := run_recordFailure t e kind error
  refine ⟨u, hstore, houtages, hcounters, ?_⟩
  rw [Session.run_bind, Session.run_attempt, h]
  dsimp only
  rw [Session.run_bind, hrun]
  rfl

theorem writeEnded_of_run {s t : Session} {e : Entry} {kind : WriteKind} {tolerance : Tolerance}
    {outcome : Except Failure Unit} (h : s.run (e.write kind tolerance) = (outcome, t)) :
    WriteEnded s e kind tolerance outcome t := by
  obtain ⟨u, hstore, houtages, hcounters, hcheck⟩ := run_ensureCompleted s e tolerance
  unfold write at h
  rw [Session.run_bind, hcheck] at h
  cases hverdict : (e.check tolerance).verdict with
  | fault reason =>
      rw [hverdict] at h hcounters
      cases h
      exact .faulted _ reason hverdict hstore houtages hcounters
  | done problem rounded =>
      rw [hverdict] at h hcounters
      cases problem with
      | some cause =>
          cases h
          exact .incomplete _ cause (by rw [hverdict]; rfl) hstore houtages hcounters
      | none =>
          dsimp only at h hcounters
          have haccepted : e.Accepted tolerance := by
            rw [Accepted, hverdict]
            rfl
          have hcall := run_store u e kind
          rw [hstore, houtages, hcounters] at hcall
          cases htake : s.outages.take? kind.call with
          | some met =>
              obtain ⟨outage, rest⟩ := met
              rw [htake] at hcall
              obtain ⟨v, hv, hleft, hcount, hrun⟩ := run_refused hcall
              cases hrun.symm.trans h
              exact .failed _ outage rest haccepted htake hv hleft hcount
          | none =>
              rw [htake] at hcall
              cases hwrite : s.store.write? kind e with
              | none =>
                  rw [hwrite] at hcall
                  obtain ⟨v, hv, hleft, hcount, hrun⟩ := run_refused hcall
                  cases hrun.symm.trans h
                  rw [hcounters] at hcount
                  exact .taken _ haccepted htake hwrite (hv.trans hstore) (hleft.trans houtages)
                    hcount
              | some store =>
                  rw [hwrite] at hcall
                  rw [Session.run_bind, Session.run_attempt, hcall] at h
                  cases h
                  exact .stored _ haccepted htake hwrite rfl rfl

inductive Written (s : Session) (e : Entry) (kind : WriteKind) (tolerance : Tolerance) :
    Except Failure Unit → Store → Prop where
  | faulted (reason : Fault) (verdict : (e.check tolerance).verdict = .fault reason) :
    Written s e kind tolerance (.error (.fault reason)) s.store
  | incomplete (cause : Incomplete) (verdict : (e.check tolerance).verdict.Yields (some cause)) :
    Written s e kind tolerance (.error (.refused (.notCompleted e.groupId cause))) s.store
  | failed (outage : Outage) (rest : Outages) (accepted : e.Accepted tolerance)
    (met : s.outages.take? kind.call = some (outage, rest)) :
    Written s e kind tolerance
      (.error (.refused ((outage.toError e.groupId).told kind e.groupId))) s.store
  | taken (accepted : e.Accepted tolerance) (unmet : s.outages.take? kind.call = none)
    (full : s.store.write? kind e = none) :
    Written s e kind tolerance (.error (.refused (.duplicate e.groupId))) s.store
  | stored (store : Store) (accepted : e.Accepted tolerance)
    (unmet : s.outages.take? kind.call = none) (done : s.store.write? kind e = some store) :
    Written s e kind tolerance (.ok ()) store

theorem WriteEnded.written {s t : Session} {e : Entry} {kind : WriteKind} {tolerance : Tolerance}
    {outcome : Except Failure Unit} (h : WriteEnded s e kind tolerance outcome t) :
    Written s e kind tolerance outcome t.store := by
  cases h with
  | faulted t reason verdict store_eq =>
      rw [store_eq]
      exact .faulted reason verdict
  | incomplete t cause verdict store_eq =>
      rw [store_eq]
      exact .incomplete cause verdict
  | failed t outage rest accepted met store_eq =>
      rw [store_eq]
      exact .failed outage rest accepted met
  | taken t accepted unmet full store_eq =>
      rw [store_eq]
      exact .taken accepted unmet full
  | stored t accepted unmet done => exact .stored t.store accepted unmet done

theorem written_of_run {s t : Session} {e : Entry} {kind : WriteKind} {tolerance : Tolerance}
    {outcome : Except Failure Unit} (h : s.run (e.write kind tolerance) = (outcome, t)) :
    Written s e kind tolerance outcome t.store :=
  (writeEnded_of_run h).written

/-- Only what the check accepts is written. -/
theorem accepted_of_write {s : Session} {e : Entry} {kind : WriteKind} {tolerance : Tolerance}
    (h : (s.run (e.write kind tolerance)).1 = .ok ()) : e.Accepted tolerance := by
  cases hrun : s.run (e.write kind tolerance) with
  | mk outcome t =>
      rw [hrun] at h
      obtain rfl : outcome = .ok () := h
      have hwritten := written_of_run hrun
      generalize t.store = store at hwritten
      cases hwritten with
      | stored _ accepted => exact accepted

end Entry

end DoubleEntry
