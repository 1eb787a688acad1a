import DoubleEntry.Proofs.Entry.CancellingRuns
import DoubleEntry.Proofs.Store.Keyed

/-!
# Histories

A session has a history when calls that write lead to it from an empty store,
with any failures of store calls in between. What one call preserves holds in
every such session; first of all, that every entry is under its own id.
-/

namespace DoubleEntry

/-! ## One call -/

theorem Entry.Written.keyed {s : Session} {e : Entry} {kind : WriteKind} {tolerance : Tolerance}
    {outcome : Except Failure Unit} {store : Store}
    (h : Entry.Written s e kind tolerance outcome store) (hs : s.store.Keyed) : store.Keyed := by
  cases h with
  | stored _ accepted unmet done =>
      cases kind with
      | insert => exact hs.insert? done
      | upsert =>
          cases done
          exact hs.put e
  | _ => exact hs

theorem Cancelling.Targets.groupId_eq {c : Cancelling} {s : Store} {target : Entry}
    (h : c.Targets s target) (hs : s.Keyed) : target.groupId = c.groupId :=
  hs _ _ h.held

theorem Cancelling.Cancelled.keyed {s : Session} {c : Cancelling} {outcome : Except Failure Entry}
    {store : Store} (h : Cancelled s c outcome store) (hs : s.store.Keyed) : store.Keyed := by
  cases h with
  | stopped failure => exact hs
  | halfway failure target targets _ added => exact hs.insert? added
  | stored target targets between added _ marked =>
      exact Store.Keyed.markReversed? (hs.insert? added) marked
  | recovered target targets taken named twin held reverses _ marked =>
      exact hs.markReversed? marked

/-! ## Reachable sessions -/

inductive WritingCall where
  | save (e : Entry) (tolerance : Tolerance)
  | upsert (e : Entry) (tolerance : Tolerance)
  | cancel (c : Cancelling)

def WritingCall.apply (s : Session) : WritingCall → Session
  | .save e tolerance => (s.run (e.save tolerance)).2
  | .upsert e tolerance => (s.run (e.upsert tolerance)).2
  | .cancel c => (s.run c.run).2

namespace Session

/-- Sessions with a history. -/
inductive Reachable : Session → Prop where
  | fresh : Reachable fresh
  | called {s : Session} (call : WritingCall) : Reachable s → Reachable (call.apply s)
  /-- From now on, store calls meet these failures. -/
  | failing {s : Session} (outages : Outages) :
    Reachable s → Reachable { s with outages := outages }

theorem keyed_apply {s : Session} (call : WritingCall) (hs : s.store.Keyed) :
    (call.apply s).store.Keyed := by
  cases call with
  | save e tolerance =>
      have hwritten : Entry.Written s e .insert tolerance _ _ := Entry.written_of_run rfl
      exact hwritten.keyed hs
  | upsert e tolerance =>
      have hwritten : Entry.Written s e .upsert tolerance _ _ := Entry.written_of_run rfl
      exact hwritten.keyed hs
  | cancel c => exact (Cancelling.cancelled_of_run rfl).keyed hs

theorem Reachable.keyed {s : Session} (h : s.Reachable) : s.store.Keyed := by
  induction h with
  | fresh => exact Store.keyed_empty
  | called call _ ih => exact keyed_apply call ih
  | failing outages _ ih => exact ih

end Session

end DoubleEntry
