import DoubleEntry.Proofs.Entry.Twins
import DoubleEntry.Proofs.Entry.Writing

/-!
# How a cancelling ends

Each stage of a call makes one store call, and each has its list of ends here:
which answer, for which reason, and with which store. `Cancelled` puts the lists
together: a whole call leaves the store alone, or stores the twin, or flags the
entry as well. Everything that is said later about calls one after the other or
side by side is read off these lists.
-/

namespace DoubleEntry

/--
The contract of inserting: a taken id is reported as the id of the new entry. A failure that
claims a duplicate keeps to it.
-/
def Outages.ReportOwnId (o : Outages) (groupId : String) : Prop :=
  ∀ taken, Outage.refused (.duplicate taken) ∈ o.pending .insert → taken = groupId

theorem Outages.claimed {o rest : Outages} {outage : Outage} {groupId taken : String}
    (met : o.take? .insert = some (outage, rest))
    (claims : outage.toError groupId = .duplicate taken) :
    taken = groupId ∨ Outage.refused (.duplicate taken) ∈ o.pending .insert := by
  cases outage with
  | refused error =>
      obtain rfl : error = .duplicate taken := claims
      exact Or.inr (Outages.mem_of_take? met)
  | idNotFound => cases claims
  | idTaken =>
      cases claims
      exact Or.inl rfl

namespace Cancelling

open Operation

structure Targets (c : Cancelling) (store : Store) (target : Entry) : Prop where
  held : store.find? c.groupId = some target
  live : target.reversed = none
  original : target.reversalOf = none

/-! ## Finding the entry -/

/-- How the search for the entry ends. -/
inductive TargetSought (s : Session) (c : Cancelling) : Except Failure Entry → Session → Prop where
  | failed (outage : Outage) (rest : Outages) (met : s.outages.take? .find = some (outage, rest)) :
    TargetSought s c (.error (.refused (outage.toError c.groupId))) { s with outages := rest }
  | missing (absent : s.store.find? c.groupId = none) :
    TargetSought s c (.error (.refused (.notFound c.groupId))) s
  | reversed (target : Entry) (held : s.store.find? c.groupId = some target)
    (flagged : target.reversed ≠ none) :
    TargetSought s c (.error (.refused (.validation (.alreadyReversed c.groupId)))) s
  | reversal (target : Entry) (held : s.store.find? c.groupId = some target)
    (reverses : target.reversalOf ≠ none) :
    TargetSought s c (.error (.refused (.validation (.isReversal c.groupId)))) s
  | found (target : Entry) (targets : c.Targets s.store target) : TargetSought s c (.ok target) s

theorem targetSought_of_run {s t : Session} {c : Cancelling} {outcome : Except Failure Entry}
    (h : s.run c.findTarget = (outcome, t)) : TargetSought s c outcome t := by
  unfold findTarget at h
  rw [Session.run_bind, Session.run_findEntry] at h
  cases htake : s.outages.take? .find with
  | some met =>
      rw [htake] at h
      cases h
      exact .failed met.1 met.2 htake
  | none =>
      rw [htake] at h
      cases hfind : s.store.find? c.groupId with
      | none =>
          rw [hfind] at h
          cases h
          exact .missing hfind
      | some target =>
          rw [hfind] at h
          dsimp only at h
          cases hreversed : target.reversed with
          | some moment =>
              rw [Entry.isReversed, hreversed] at h
              cases h
              exact .reversed target hfind (by rw [hreversed]; exact Option.some_ne_none moment)
          | none =>
              rw [Entry.isReversed, hreversed] at h
              cases hreversal : target.reversalOf with
              | some id =>
                  rw [hreversal] at h
                  cases h
                  exact .reversal target hfind (by rw [hreversal]; exact Option.some_ne_none id)
              | none =>
                  rw [hreversal] at h
                  cases h
                  exact .found target ⟨hfind, hreversed, hreversal⟩

theorem TargetSought.store_eq {s t : Session} {c : Cancelling} {outcome : Except Failure Entry}
    (h : TargetSought s c outcome t) : t.store = s.store := by
  cases h <;> rfl

/-! ## Storing the twin -/

inductive TwinSaved (s : Session) (c : Cancelling) (twin : Entry) :
    Except Failure (Option String) → Store → Prop where
  | unaccepted (failure : Failure) (unaccepted : ¬ twin.Accepted c.tolerance) :
    TwinSaved s c twin (.error failure) s.store
  | failed (outage : Outage) (rest : Outages)
    (met : s.outages.take? .insert = some (outage, rest)) :
    TwinSaved s c twin
      (.error (.refused ((outage.toError twin.groupId).told .insert twin.groupId))) s.store
  /-- The failure of the store call is a duplicate, whatever the store holds. -/
  | claimed (outage : Outage) (rest : Outages) (taken : String)
    (met : s.outages.take? .insert = some (outage, rest))
    (claims : outage.toError twin.groupId = .duplicate taken) :
    TwinSaved s c twin (.ok (some taken)) s.store
  | taken (held : s.store.holds twin.groupId = true) :
    TwinSaved s c twin (.ok (some twin.groupId)) s.store
  | stored (store : Store) (added : s.store.insert? twin = some store)
    (accepted : twin.Accepted c.tolerance) : TwinSaved s c twin (.ok none) store

/-- What storing the twin makes of a write: a duplicate is not the end of the call. -/
def afterSave : Except Failure Unit → Except Failure (Option String)
  | .ok () => .ok none
  | .error (.refused (.duplicate taken)) => .ok (some taken)
  | .error failure => .error failure

theorem run_storeTwin (s : Session) (c : Cancelling) (twin : Entry) :
    s.run (c.storeTwin twin) =
      (afterSave (s.run (twin.save c.tolerance)).1, (s.run (twin.save c.tolerance)).2) := by
  unfold storeTwin
  rw [Session.run_bind, Session.run_attempt]
  rcases s.run (twin.save c.tolerance) with ⟨saved, t⟩
  rcases saved with failure | ⟨⟩
  · cases failure with
    | fault reason => rfl
    | refused error => cases error <;> rfl
  · rfl

private theorem twinSaved_of_written {s : Session} {c : Cancelling} {twin : Entry} {store : Store}
    {saved : Except Failure Unit} (h : Entry.Written s twin .insert c.tolerance saved store) :
    TwinSaved s c twin (afterSave saved) store := by
  cases h with
  | faulted reason hverdict =>
      refine .unaccepted _ fun haccepted => ?_
      rw [Entry.Accepted, hverdict] at haccepted
      cases haccepted
  | incomplete cause hverdict =>
      refine .unaccepted _ fun haccepted => ?_
      cases haccepted.symm.trans hverdict
  | failed outage rest haccepted hmet =>
      by_cases hduplicate : ∃ taken, (outage.toError twin.groupId) = .duplicate taken
      · obtain ⟨taken, hclaims⟩ := hduplicate
        rw [hclaims]
        exact .claimed outage rest taken hmet hclaims
      · have htold : ∀ taken,
            (outage.toError twin.groupId).told .insert twin.groupId ≠ .duplicate taken :=
          fun taken h => hduplicate ⟨taken, LedgerError.told_eq_duplicate h⟩
        have hafter : ∀ error, (∀ taken, error ≠ .duplicate taken) →
            afterSave (.error (.refused error)) = .error (.refused error) := by
          intro error hother
          cases error with
          | duplicate taken => exact absurd rfl (hother taken)
          | _ => rfl
        rw [hafter _ htold]
        exact .failed outage rest hmet
  | taken haccepted hunmet hfull =>
      exact .taken ((Store.insert?_eq_none_iff _ _).1 hfull)
  | stored store haccepted hunmet hdone => exact .stored store hdone haccepted

theorem twinSaved_of_run {s t : Session} {c : Cancelling} {twin : Entry}
    {outcome : Except Failure (Option String)} (h : s.run (c.storeTwin twin) = (outcome, t)) :
    TwinSaved s c twin outcome t.store := by
  rw [run_storeTwin] at h
  cases hsave : s.run (twin.save c.tolerance) with
  | mk saved u =>
      rw [hsave] at h
      cases h
      exact twinSaved_of_written (Entry.written_of_run hsave)

/-! ## Finding the twin -/

inductive TwinSought (s : Session) (c : Cancelling) (taken : String) :
    Except Failure Entry → Prop where
  | failed (outage : Outage) (rest : Outages) (met : s.outages.take? .find = some (outage, rest)) :
    TwinSought s c taken (.error (.refused (outage.toError taken)))
  | foreign
    (other : ∀ stored, s.store.find? taken = some stored → stored.reversalOf ≠ some c.groupId) :
    TwinSought s c taken (.error (.refused (.duplicate taken)))
  | found (stored : Entry) (held : s.store.find? taken = some stored)
    (reverses : stored.reversalOf = some c.groupId) :
    TwinSought s c taken (.ok stored)

theorem twinSought_of_run {s t : Session} {c : Cancelling} {taken : String}
    {outcome : Except Failure Entry} (h : s.run (c.findTwin taken) = (outcome, t)) :
    TwinSought s c taken outcome ∧ t.store = s.store := by
  unfold findTwin at h
  rw [Session.run_bind, Session.run_findEntry] at h
  cases htake : s.outages.take? .find with
  | some met =>
      rw [htake] at h
      cases h
      exact ⟨.failed met.1 met.2 htake, rfl⟩
  | none =>
      rw [htake] at h
      cases hfind : s.store.find? taken with
      | none =>
          rw [hfind] at h
          cases h
          exact ⟨.foreign (by rw [hfind]; intro stored hstored; cases hstored), rfl⟩
      | some stored =>
          rw [hfind] at h
          dsimp only at h
          split at h
          · rename_i hreverses
            cases h
            exact ⟨.found stored hfind hreverses, rfl⟩
          · rename_i hother
            cases h
            refine ⟨.foreign ?_, rfl⟩
            intro stored' hstored'
            rw [hfind] at hstored'
            obtain rfl := Option.some.inj hstored'
            exact hother

/-! ## Flagging the entry -/

/-- What is left of a call that knows which twin is stored. -/
def complete (c : Cancelling) (target twin : Entry) : Operation Entry := do
  c.flagTarget target twin
  journal [.entryReversed]
  return twin

inductive Completed (s : Session) (c : Cancelling) (target twin : Entry) :
    Except Failure Entry → Store → Prop where
  | unmatched (met : 0 < s.outages.unmatchedMarks) :
    Completed s c target twin (.error (.refused (.notFound target.groupId))) s.store
  | failed (outage : Outage) (rest : Outages) (met : s.outages.take? .mark = some (outage, rest)) :
    Completed s c target twin (.error (.refused (outage.toError target.groupId))) s.store
  | missing (absent : s.store.holds target.groupId = false) :
    Completed s c target twin (.error (.refused (.notFound target.groupId))) s.store
  | done (store : Store)
    (marked : s.store.markReversed? target.groupId (twin.reversed.getD c.moment) = some store) :
    Completed s c target twin (.ok twin) store

theorem completed_of_run {s t : Session} {c : Cancelling} {target twin : Entry}
    {outcome : Except Failure Entry} (h : s.run (c.complete target twin) = (outcome, t)) :
    Completed s c target twin outcome t.store := by
  unfold complete flagTarget at h
  rw [bind_assoc, Session.run_bind, Session.run_markReversed] at h
  by_cases hunmatched : 0 < s.outages.unmatchedMarks
  · rw [if_pos hunmatched] at h
    cases h
    exact .unmatched hunmatched
  · rw [if_neg hunmatched] at h
    cases htake : s.outages.take? .mark with
    | some met =>
        rw [htake] at h
        cases h
        exact .failed met.1 met.2 htake
    | none =>
        rw [htake] at h
        cases hmark : s.store.markReversed? target.groupId (twin.reversed.getD c.moment) with
        | none =>
            rw [hmark] at h
            cases h
            exact .missing ((Store.markReversed?_eq_none_iff _ _ _).1 hmark)
        | some store =>
            rw [hmark] at h
            cases h
            exact .done store hmark

/-! ## The whole call -/

/-- The ids that the store can name as taken: the twin's own, and what a failure claims. -/
def NamedTaken (s : Session) (target : Entry) (taken : String) : Prop :=
  taken = Entry.reversalId target.groupId ∨
    Outage.refused (.duplicate taken) ∈ s.outages.pending .insert

/-- How a whole call ends, and with which store. -/
inductive Cancelled (s : Session) (c : Cancelling) : Except Failure Entry → Store → Prop where
  | stopped (failure : Failure) : Cancelled s c (.error failure) s.store
  /-- The twin was stored; the entry was not flagged. -/
  | halfway (failure : Failure) (target : Entry) (targets : c.Targets s.store target)
    (store : Store) (added : s.store.insert? (c.twin target) = some store)
    (accepted : (c.twin target).Accepted c.tolerance) : Cancelled s c (.error failure) store
  | stored (target : Entry) (targets : c.Targets s.store target)
    (between : Store) (added : s.store.insert? (c.twin target) = some between)
    (store : Store) (marked : between.markReversed? target.groupId c.moment = some store)
    (accepted : (c.twin target).Accepted c.tolerance) :
    Cancelled s c (.ok (c.twin target)) store
  /-- A twin was there before the call. -/
  | recovered (target : Entry) (targets : c.Targets s.store target)
    (taken : String) (named : NamedTaken s target taken)
    (twin : Entry) (held : s.store.find? taken = some twin)
    (reverses : twin.reversalOf = some c.groupId)
    (store : Store)
    (marked : s.store.markReversed? target.groupId (twin.reversed.getD c.moment) = some store) :
    Cancelled s c (.ok twin) store

private theorem cancelled_of_taken {s u t : Session} {c : Cancelling} {target : Entry}
    {taken : String} {outcome : Except Failure Entry} (targets : c.Targets s.store target)
    (named : NamedTaken s target taken) (hstore : u.store = s.store)
    (h : u.run (c.findTwin taken >>= c.complete target) = (outcome, t)) :
    Cancelled s c outcome t.store := by
  rw [Session.run_bind] at h
  cases hfind : u.run (c.findTwin taken) with
  | mk sought v =>
      obtain ⟨hsought, hv⟩ := twinSought_of_run hfind
      rw [hfind] at h
      cases hsought with
      | found twin held reverses =>
          have hcompleted := completed_of_run h
          rw [hstore] at held hv
          generalize t.store = final at hcompleted ⊢
          cases hcompleted with
          | done store marked =>
              rw [hv] at marked
              exact .recovered target targets taken named twin held reverses _ marked
          | _ =>
              rw [hv]
              exact .stopped _
      | _ =>
          cases h
          rw [hv, hstore]
          exact .stopped _

private theorem cancelled_of_targets {s t : Session} {c : Cancelling} {target : Entry}
    {outcome : Except Failure Entry} (targets : c.Targets s.store target)
    (h : s.run (do
      match ← c.storeTwin (c.twin target) with
      | none => c.complete target (c.twin target)
      | some taken => c.findTwin taken >>= c.complete target) = (outcome, t)) :
    Cancelled s c outcome t.store := by
  rw [Session.run_bind] at h
  cases hsave : s.run (c.storeTwin (c.twin target)) with
  | mk saved u =>
      have hsaved := twinSaved_of_run hsave
      rw [hsave] at h
      generalize hstore : u.store = store at hsaved
      cases hsaved with
      | claimed outage rest taken met claims =>
          exact cancelled_of_taken targets (Outages.claimed met claims) hstore h
      | taken held => exact cancelled_of_taken targets (Or.inl rfl) hstore h
      | stored store added accepted =>
          have hcompleted := completed_of_run h
          generalize t.store = final at hcompleted ⊢
          cases hcompleted with
          | done _ marked =>
              rw [hstore] at marked
              exact .stored target targets _ added _ marked accepted
          | _ =>
              rw [hstore]
              exact .halfway _ target targets _ added accepted
      | _ =>
          cases h
          rw [hstore]
          exact .stopped _

theorem cancelled_of_run {s t : Session} {c : Cancelling} {outcome : Except Failure Entry}
    (h : s.run c.run = (outcome, t)) : Cancelled s c outcome t.store := by
  unfold run at h
  rw [Session.run_bind] at h
  cases hfind : s.run c.findTarget with
  | mk found u =>
      have hsought := targetSought_of_run hfind
      rw [hfind] at h
      cases hsought with
      | found target targets =>
          dsimp only at h
          rw [Session.run_bind] at h
          cases htwin : c.twinOf target with
          | error error =>
              rw [htwin] at h
              cases h
              exact .stopped _
          | ok twin =>
              obtain ⟨hreversible, rfl⟩ := twinOf_eq_ok_iff.1 htwin
              rw [htwin] at h
              exact cancelled_of_targets targets h
      | _ =>
          cases h
          exact .stopped _

end Cancelling

end DoubleEntry
