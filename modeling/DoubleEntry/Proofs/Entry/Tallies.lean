import DoubleEntry.Proofs.Entry.Provenance

/-!
# Tallies of writes

Every attempt to write is counted once by its outcome, and once more by its kind of
error when it failed. Only writes count: the other stages of a call are
`Uncounted`, and sequences of such operations are too. So the sums of the tallies
can be told from the calls of a run alone, and what the tallies say of each other
and of the size of the store holds after every run.
-/

namespace DoubleEntry

/-! ## Sums of tallies -/

namespace Tally

theorem total_eq_sum (t : Tally κ) (labels : List κ) : t.total labels = (labels.map t).sum := by
  rw [List.sum_eq_foldl]
  exact List.foldl_map.symm

theorem total_bump [DecidableEq κ] (t : Tally κ) {labels : List κ} (hnodup : labels.Nodup)
    {label : κ} (hlabel : label ∈ labels) : (t.bump label).total labels = t.total labels + 1 := by
  have hsum : ∀ count : κ → Nat,
      (labels.map fun other => if other = label then count other + 1 else count other).sum =
        (labels.map count).sum + 1 := by
    intro count
    have hsplit : (fun other => if other = label then count other + 1 else count other) =
        fun other => count other + if other = label then 1 else 0 := by
      funext other
      split <;> rfl
    have hone : (labels.map fun other => if other = label then 1 else 0).sum = 1 := by
      rw [List.sum_map_eq_nsmul_single label _ fun other hother _ => if_neg hother,
        List.count_eq_one_of_mem hnodup hlabel, if_pos rfl, one_nsmul]
    rw [hsplit, List.sum_map_add, hone]
  rw [total_eq_sum, total_eq_sum]
  exact hsum t

end Tally

theorem SaveStatus.total_bump (t : Tally SaveStatus) (status : SaveStatus) :
    (t.bump status).total all = t.total all + 1 :=
  t.total_bump (by decide) (by cases status <;> decide)

theorem ErrorKind.total_bump (t : Tally ErrorKind) (kind : ErrorKind) :
    (t.bump kind).total all = t.total all + 1 :=
  t.total_bump (by decide) (by cases kind <;> decide)

/-! ## Operations that do not count -/

theorem Outages.pending_of_take? {o rest : Outages} {call : StoreCall} {outage : Outage}
    (h : o.take? call = some (outage, rest)) (other : StoreCall) :
    rest.pending other ⊆ o.pending other := by
  unfold take? at h
  cases hpending : o.pending call with
  | nil =>
      rw [hpending] at h
      cases h
  | cons first later =>
      rw [hpending] at h
      cases h
      dsimp only
      split
      · rename_i hother
        subst hother
        rw [hpending]
        exact List.subset_cons_self _ _
      · exact List.Subset.refl _

/-- Nothing that is counted has changed, and no failure was added. -/
structure Session.Uncounted (s t : Session) : Prop where
  saved_eq : t.counters.saved = s.counters.saved
  errors_eq : t.counters.errors = s.counters.errors
  size_eq : t.store.size = s.store.size
  failures : ∀ call, t.outages.pending call ⊆ s.outages.pending call

theorem Session.Uncounted.refl (s : Session) : s.Uncounted s :=
  ⟨rfl, rfl, rfl, fun _ => List.Subset.refl _⟩

theorem Session.Uncounted.trans {s t u : Session} (hst : s.Uncounted t) (htu : t.Uncounted u) :
    s.Uncounted u where
  saved_eq := htu.saved_eq.trans hst.saved_eq
  errors_eq := htu.errors_eq.trans hst.errors_eq
  size_eq := htu.size_eq.trans hst.size_eq
  failures call := List.Subset.trans (htu.failures call) (hst.failures call)

theorem Session.uncounted_of_take? {s : Session} {rest : Outages} {call : StoreCall}
    {outage : Outage} (h : s.outages.take? call = some (outage, rest)) :
    s.Uncounted { s with outages := rest } :=
  ⟨rfl, rfl, rfl, Outages.pending_of_take? h⟩

namespace Operation

/-- Whatever the session, nothing is counted. -/
def Uncounted (operation : Operation α) : Prop :=
  ∀ s : Session, s.Uncounted (s.run operation).2

theorem uncounted_pure (x : α) : (pure x : Operation α).Uncounted :=
  fun s => .refl s

theorem uncounted_refuse (error : LedgerError) : (refuse error : Operation α).Uncounted :=
  fun s => .refl s

theorem uncounted_journal (events : List Event) : (journal events).Uncounted :=
  fun _ => ⟨rfl, rfl, rfl, fun _ => List.Subset.refl _⟩

theorem Uncounted.bind {first : Operation α} {next : α → Operation β} (hfirst : first.Uncounted)
    (hnext : ∀ x, (next x).Uncounted) : (first >>= next).Uncounted := by
  intro s
  have hs := hfirst s
  rw [Session.run_bind]
  generalize s.run first = ran at hs ⊢
  obtain ⟨answer, t⟩ := ran
  cases answer with
  | error failure => exact hs
  | ok x => exact hs.trans (hnext x t)

theorem uncounted_unless (p : Prop) [Decidable p] (error : LedgerError)
    {rest : Unit → Operation α} (hrest : ∀ x, (rest x).Uncounted) :
    (if p then refuse error >>= rest else rest ()).Uncounted := by
  split
  · exact (uncounted_refuse error).bind hrest
  · exact hrest ()

theorem uncounted_findEntry (groupId : String) : (findEntry groupId).Uncounted := by
  intro s
  rw [Session.run_findEntry]
  cases htake : s.outages.take? .find with
  | none => exact .refl s
  | some met => exact Session.uncounted_of_take? htake

theorem uncounted_markReversed (groupId : String) (moment : Instant) :
    (markReversed groupId moment).Uncounted := by
  intro s
  rw [Session.run_markReversed]
  split
  · exact ⟨rfl, rfl, rfl, fun _ => List.Subset.refl _⟩
  · cases htake : s.outages.take? .mark with
    | some met => exact Session.uncounted_of_take? htake
    | none =>
        cases hmark : s.store.markReversed? groupId moment with
        | none => exact .refl s
        | some store =>
            exact ⟨rfl, rfl, Store.size_markReversed? hmark, fun _ => List.Subset.refl _⟩

end Operation

namespace Cancelling

open Operation

theorem uncounted_findTarget (c : Cancelling) : c.findTarget.Uncounted := by
  refine (uncounted_findEntry _).bind fun found => ?_
  cases found with
  | none => exact uncounted_refuse _
  | some target =>
      refine uncounted_unless (target.isReversed = true) _ fun _ => ?_
      exact uncounted_unless (target.reversalOf.isSome = true) _ fun _ => uncounted_pure target

theorem uncounted_findTwin (c : Cancelling) (taken : String) : (c.findTwin taken).Uncounted := by
  refine (uncounted_findEntry _).bind fun found => ?_
  cases found with
  | none => exact uncounted_refuse _
  | some stored =>
      dsimp only
      split
      · exact (uncounted_journal _).bind fun _ => uncounted_pure stored
      · exact uncounted_refuse _

theorem uncounted_complete (c : Cancelling) (target twin : Entry) :
    (c.complete target twin).Uncounted := by
  refine Uncounted.bind ?_ fun _ => (uncounted_journal _).bind fun _ => uncounted_pure twin
  refine (uncounted_markReversed _ _).bind fun flagged => ?_
  split
  · exact uncounted_pure ()
  · exact uncounted_refuse _

end Cancelling

/-! ## What the tallies say -/

/-- No failure of a write call says that an entry is incomplete: that is for the check to say. -/
def Outages.NeverIncomplete (o : Outages) : Prop :=
  ∀ (kind : WriteKind) (error : LedgerError),
    Outage.refused error ∈ o.pending kind.call → error.kind ≠ .notCompleted

def ErrorKind.status : ErrorKind → SaveStatus
  | .notCompleted => .notCompleted
  | .duplicate => .duplicate
  | _ => .error

/-- An error of a write call is counted under the outcome that goes with its kind. -/
theorem Outages.NeverIncomplete.status_eq {o rest : Outages} (h : o.NeverIncomplete)
    {kind : WriteKind} {outage : Outage} (met : o.take? kind.call = some (outage, rest))
    (groupId : String) :
    (outage.toError groupId).status = (outage.toError groupId).kind.status := by
  have hkind : (outage.toError groupId).kind ≠ .notCompleted := by
    cases outage with
    | refused error => exact h kind error (Outages.mem_of_take? met)
    | idNotFound => nofun
    | idTaken => nofun
  unfold LedgerError.status
  cases herror : (outage.toError groupId).kind <;> simp_all [ErrorKind.status]

/-- After so many attempts, of which so many put an entry where none was. -/
structure Session.Tallied (s : Session) (attempts added : Nat) : Prop where
  attempts_eq : s.counters.saved.total SaveStatus.all = attempts
  failures_eq : s.counters.errors.total ErrorKind.all =
    s.counters.saved .duplicate + s.counters.saved .notCompleted + s.counters.saved .error
  notCompleted_eq : s.counters.errors .notCompleted = s.counters.saved .notCompleted
  duplicate_eq : s.counters.errors .duplicate = s.counters.saved .duplicate
  size_eq : s.store.size = s.counters.saved .ok + added

namespace Session

variable {s t : Session} {attempts added : Nat}

theorem tallied_fresh : fresh.Tallied 0 0 :=
  ⟨rfl, rfl, rfl, rfl, rfl⟩

theorem Tallied.of_uncounted (h : s.Tallied attempts added) (hst : s.Uncounted t) :
    t.Tallied attempts added := by
  obtain ⟨hattempts, hfailures, hnotCompleted, hduplicate, hsize⟩ := h
  constructor
  · rw [hst.saved_eq, hattempts]
  · rw [hst.saved_eq, hst.errors_eq, hfailures]
  · rw [hst.saved_eq, hst.errors_eq, hnotCompleted]
  · rw [hst.saved_eq, hst.errors_eq, hduplicate]
  · rw [hst.saved_eq, hst.size_eq, hsize]

/-- A failed attempt is in both tallies, under labels that go together. -/
theorem Tallied.failed (h : s.Tallied attempts added) (kind : ErrorKind)
    (hcounters : t.counters = s.counters.attempt kind.status (some kind))
    (hsize : t.store.size = s.store.size) : t.Tallied (attempts + 1) added := by
  have hsaved : t.counters.saved = s.counters.saved.bump kind.status := by rw [hcounters]; rfl
  have herrors : t.counters.errors = s.counters.errors.bump kind := by rw [hcounters]; rfl
  obtain ⟨hattempts, hfailures, hnotCompleted, hduplicate, hstored⟩ := h
  constructor
  · rw [hsaved, SaveStatus.total_bump, hattempts]
  · rw [hsaved, herrors, ErrorKind.total_bump, hfailures]
    cases kind <;> simp [ErrorKind.status, Tally.bump] <;> omega
  · rw [hsaved, herrors]
    cases kind <;> simp [ErrorKind.status, Tally.bump, hnotCompleted]
  · rw [hsaved, herrors]
    cases kind <;> simp [ErrorKind.status, Tally.bump, hduplicate]
  · rw [hsaved, hsize, hstored]
    cases kind <;> simp [ErrorKind.status, Tally.bump]

theorem Tallied.succeeded (h : s.Tallied attempts added) {kind : WriteKind} {more : Nat}
    (hcounters : t.counters = s.counters.attempt (Entry.successOf kind).1 none)
    (hsize : t.store.size + s.counters.saved .ok = s.store.size + t.counters.saved .ok + more) :
    t.Tallied (attempts + 1) (added + more) := by
  have hsaved : t.counters.saved = s.counters.saved.bump (Entry.successOf kind).1 := by
    rw [hcounters]; rfl
  have herrors : t.counters.errors = s.counters.errors := by rw [hcounters]; rfl
  obtain ⟨hattempts, hfailures, hnotCompleted, hduplicate, hstored⟩ := h
  constructor
  · rw [hsaved, SaveStatus.total_bump, hattempts]
  · rw [hsaved, herrors, hfailures]
    cases kind <;> simp [Entry.successOf, Tally.bump]
  · rw [hsaved, herrors, hnotCompleted]
    cases kind <;> simp [Entry.successOf, Tally.bump]
  · rw [hsaved, herrors, hduplicate]
    cases kind <;> simp [Entry.successOf, Tally.bump]
  · omega

end Session

/-! ## One write -/

theorem Store.size_put (s : Store) (e : Entry) :
    (s.put e).size = s.size + if s.holds e.groupId then 0 else 1 := by
  unfold put
  cases hinsert : s.insert? e with
  | none =>
      rw [(insert?_eq_none_iff s e).1 hinsert, if_pos rfl]
      exact size_update s _ _
  | some added =>
      have hfree : s.holds e.groupId = false := by
        rw [← isSome_find?, find?_of_insert? hinsert, Option.isSome_none]
      rw [hfree, if_neg Bool.false_ne_true]
      exact size_insert? hinsert

namespace Session

variable {s t : Session} {e : Entry} {kind : WriteKind} {tolerance : Tolerance}
  {outcome : Except Failure Unit} {attempts added : Nat}

/-- How many entries a write puts, other than new ones, where none was. -/
def putBy (s : Session) (e : Entry) (kind : WriteKind) (outcome : Except Failure Unit) : Nat :=
  if kind = .upsert ∧ outcome.isOk = true ∧ s.store.holds e.groupId = false then 1 else 0

@[simp] theorem putBy_error (s : Session) (e : Entry) (kind : WriteKind) (failure : Failure) :
    s.putBy e kind (.error failure) = 0 := by
  simp [putBy, Except.isOk, Except.toBool]

@[simp] theorem putBy_insert (s : Session) (e : Entry) (outcome : Except Failure Unit) :
    s.putBy e .insert outcome = 0 := by
  simp [putBy]

theorem tallied_of_writeEnded (h : s.Tallied attempts added)
    (hfailures : s.outages.NeverIncomplete)
    (hcheck : ∀ reason, (e.check tolerance).verdict ≠ .fault reason)
    (hended : Entry.WriteEnded s e kind tolerance outcome t) :
    t.Tallied (attempts + 1) (added + s.putBy e kind outcome) := by
  cases hended with
  | faulted t reason verdict => exact absurd verdict (hcheck reason)
  | incomplete t cause verdict store_eq outages_eq counters_eq =>
      rw [putBy_error]
      exact h.failed .notCompleted counters_eq (by rw [store_eq])
  | failed t outage rest accepted met store_eq outages_eq counters_eq =>
      rw [putBy_error]
      rw [hfailures.status_eq met] at counters_eq
      exact h.failed _ counters_eq (by rw [store_eq])
  | taken t accepted unmet full store_eq outages_eq counters_eq =>
      rw [putBy_error]
      exact h.failed .duplicate counters_eq (by rw [store_eq])
  | stored t accepted unmet done outages_eq counters_eq =>
      refine h.succeeded counters_eq ?_
      cases kind with
      | insert =>
          have hsize := Store.size_insert? done
          have hsaved : t.counters.saved .ok = s.counters.saved .ok + 1 := by
            rw [counters_eq]
            exact s.counters.saved.bump_self .ok
          rw [putBy_insert]
          omega
      | upsert =>
          have hsize := Store.size_put s.store e
          rw [Option.some.inj done] at hsize
          have hother : SaveStatus.ok ≠ .upserted := by decide
          have hsaved : t.counters.saved .ok = s.counters.saved .ok := by
            rw [counters_eq]
            exact s.counters.saved.bump_of_ne hother
          cases hholds : s.store.holds e.groupId <;>
            simp [putBy, hholds, Except.isOk, Except.toBool] at hsize ⊢ <;> omega

theorem pending_of_writeEnded (hended : Entry.WriteEnded s e kind tolerance outcome t)
    (call : StoreCall) : t.outages.pending call ⊆ s.outages.pending call := by
  cases hended with
  | failed t outage rest accepted met store_eq outages_eq =>
      rw [outages_eq]
      exact Outages.pending_of_take? met call
  | _ => simp_all

theorem neverIncomplete_of_writeEnded (h : s.outages.NeverIncomplete)
    (hended : Entry.WriteEnded s e kind tolerance outcome t) : t.outages.NeverIncomplete :=
  fun kind error herror => h kind error (pending_of_writeEnded hended kind.call herror)

theorem neverIncomplete_of_uncounted (h : s.outages.NeverIncomplete) (hst : s.Uncounted t) :
    t.outages.NeverIncomplete :=
  fun kind error herror => h kind error (hst.failures kind.call herror)

end Session

/-! ## Calls -/

namespace WritingCall

/-- The entry that a call attempts to write; a call to cancel has to find its entry first. -/
def attempted? (s : Session) : WritingCall → Option Entry
  | .save e _ => some e
  | .upsert e _ => some e
  | .cancel c => (s.run c.findTarget).1.toOption.bind fun target => (c.twinOf target).toOption

def attempts (s : Session) (call : WritingCall) : Nat :=
  if (call.attempted? s).isSome then 1 else 0

/-- One for an upsert that answers and puts an entry where none was. -/
def newlyPut (s : Session) : WritingCall → Nat
  | .upsert e tolerance =>
    if (s.run (e.upsert tolerance)).1.isOk = true ∧ s.store.holds e.groupId = false then 1 else 0
  | _ => 0

def ChecksEnd (s : Session) (call : WritingCall) : Prop :=
  ∀ e ∈ call.attempted? s, (e.check call.tolerance).verdict.outcome.isOk = true

instance (s : Session) (call : WritingCall) : Decidable (call.ChecksEnd s) :=
  inferInstanceAs (Decidable (∀ e ∈ call.attempted? s, _))

theorem ChecksEnd.ne_fault {s : Session} {call : WritingCall} (h : call.ChecksEnd s) {e : Entry}
    (he : call.attempted? s = some e) (reason : Fault) :
    (e.check call.tolerance).verdict ≠ .fault reason := by
  intro hfault
  have hended := h e he
  rw [hfault] at hended
  cases hended

end WritingCall

namespace Session

variable {s t : Session} {attempts added : Nat}

theorem tallied_of_write {e : Entry} (kind : WriteKind) {tolerance : Tolerance}
    (h : s.Tallied attempts added) (hfailures : s.outages.NeverIncomplete)
    (hcheck : ∀ reason, (e.check tolerance).verdict ≠ .fault reason) :
    (s.run (e.write kind tolerance)).2.Tallied (attempts + 1)
        (added + s.putBy e kind (s.run (e.write kind tolerance)).1) ∧
      (s.run (e.write kind tolerance)).2.outages.NeverIncomplete :=
  have hended : Entry.WriteEnded s e kind tolerance _ _ := Entry.writeEnded_of_run rfl
  ⟨tallied_of_writeEnded h hfailures hcheck hended, neverIncomplete_of_writeEnded hfailures hended⟩

/-- From the twin on, a call to cancel counts the saving of the twin and nothing else. -/
theorem tallied_of_twin {c : Cancelling} {target twin : Entry} (h : s.Tallied attempts added)
    (hfailures : s.outages.NeverIncomplete)
    (hcheck : ∀ reason, (twin.check c.tolerance).verdict ≠ .fault reason) :
    let rest : Operation Entry := do
      match ← c.storeTwin twin with
      | none => c.complete target twin
      | some taken => c.findTwin taken >>= c.complete target
    (s.run rest).2.Tallied (attempts + 1) added ∧ (s.run rest).2.outages.NeverIncomplete := by
  intro rest
  have hlater : ∀ saved : Option String, Operation.Uncounted (match saved with
      | none => c.complete target twin
      | some taken => c.findTwin taken >>= c.complete target) := by
    intro saved
    cases saved with
    | none => exact c.uncounted_complete target twin
    | some taken => exact (c.uncounted_findTwin taken).bind fun _ => c.uncounted_complete target _
  obtain ⟨hwritten, hleft⟩ := tallied_of_write .insert h hfailures hcheck
  rw [putBy_insert] at hwritten
  change (s.run (c.storeTwin twin >>= _)).2.Tallied _ _ ∧
    (s.run (c.storeTwin twin >>= _)).2.outages.NeverIncomplete
  rw [run_bind, Cancelling.run_storeTwin]
  generalize Cancelling.afterSave _ = saved
  cases saved with
  | error failure => exact ⟨hwritten, hleft⟩
  | ok saved =>
      have hkept := hlater saved (s.run (twin.save c.tolerance)).2
      exact ⟨hwritten.of_uncounted hkept, neverIncomplete_of_uncounted hleft hkept⟩

/-- A call to cancel counts the saving of its twin, when it gets that far. -/
theorem tallied_of_cancel {c : Cancelling} (h : s.Tallied attempts added)
    (hfailures : s.outages.NeverIncomplete) (hcheck : (WritingCall.cancel c).ChecksEnd s) :
    (s.run c.run).2.Tallied (attempts + (WritingCall.cancel c).attempts s) added ∧
      (s.run c.run).2.outages.NeverIncomplete := by
  have hsought := c.uncounted_findTarget s
  rw [Cancelling.run, run_bind]
  cases hfind : s.run c.findTarget with
  | mk found u =>
      have hattempted : (WritingCall.cancel c).attempted? s =
          found.toOption.bind fun target => (c.twinOf target).toOption := by
        rw [WritingCall.attempted?, hfind]
      rw [hfind] at hsought
      have hu := h.of_uncounted hsought
      have hleft := neverIncomplete_of_uncounted hfailures hsought
      have hstopped : (WritingCall.cancel c).attempted? s = none →
          u.Tallied (attempts + (WritingCall.cancel c).attempts s) added ∧
            u.outages.NeverIncomplete := by
        intro hnone
        rw [WritingCall.attempts, hnone]
        exact ⟨hu, hleft⟩
      cases found with
      | error failure => exact hstopped hattempted
      | ok target =>
          have htried : (WritingCall.cancel c).attempted? s = (c.twinOf target).toOption :=
            hattempted
          dsimp only
          rw [run_bind]
          cases htwin : c.twinOf target with
          | error error =>
              rw [htwin] at htried
              exact hstopped htried
          | ok twin =>
              rw [htwin] at htried
              have hone : (WritingCall.cancel c).attempts s = 1 := by
                rw [WritingCall.attempts, htried]
                rfl
              rw [hone]
              exact tallied_of_twin hu hleft (hcheck.ne_fault htried)

end Session

/-! ## Runs -/

namespace Move

def attempts (s : Session) : Move → Nat
  | .calling call => call.attempts s
  | .failing _ => 0

def newlyPut (s : Session) : Move → Nat
  | .calling call => call.newlyPut s
  | .failing _ => 0

def ChecksEnd (s : Session) : Move → Prop
  | .calling call => call.ChecksEnd s
  | .failing _ => True

instance (s : Session) : (move : Move) → Decidable (move.ChecksEnd s)
  | .calling call => inferInstanceAs (Decidable (call.ChecksEnd s))
  | .failing _ => isTrue trivial

theorem tallied_apply {s : Session} {attempts added : Nat} (h : s.Tallied attempts added)
    (hfailures : s.outages.NeverIncomplete) {move : Move} (hcheck : move.ChecksEnd s)
    (hlater : ∀ outages, move = .failing outages → outages.NeverIncomplete) :
    (move.apply s).Tallied (attempts + move.attempts s) (added + move.newlyPut s) ∧
      (move.apply s).outages.NeverIncomplete := by
  cases move with
  | failing outages =>
      obtain ⟨hattempts, herrors, hnotCompleted, hduplicate, hsize⟩ := h
      exact ⟨⟨hattempts, herrors, hnotCompleted, hduplicate, hsize⟩, hlater outages rfl⟩
  | calling call =>
      cases call with
      | save e tolerance =>
          have hends : ∀ reason, (e.check tolerance).verdict ≠ .fault reason :=
            WritingCall.ChecksEnd.ne_fault hcheck rfl
          have hwritten := Session.tallied_of_write .insert h hfailures hends
          rw [Session.putBy_insert] at hwritten
          exact hwritten
      | upsert e tolerance =>
          have hends : ∀ reason, (e.check tolerance).verdict ≠ .fault reason :=
            WritingCall.ChecksEnd.ne_fault hcheck rfl
          have hwritten := Session.tallied_of_write .upsert h hfailures hends
          have hput : s.putBy e .upsert (s.run (e.upsert tolerance)).1 =
              (Move.calling (.upsert e tolerance)).newlyPut s := by
            simp [Session.putBy, newlyPut, WritingCall.newlyPut]
          rw [← hput]
          exact hwritten
      | cancel c => exact Session.tallied_of_cancel h hfailures hcheck

end Move

namespace Session

def attemptsIn : Session → List Move → Nat
  | _, [] => 0
  | s, move :: rest => move.attempts s + attemptsIn (move.apply s) rest

def newlyPutIn : Session → List Move → Nat
  | _, [] => 0
  | s, move :: rest => move.newlyPut s + newlyPutIn (move.apply s) rest

def ChecksEnd : Session → List Move → Prop
  | _, [] => True
  | s, move :: rest => move.ChecksEnd s ∧ ChecksEnd (move.apply s) rest

instance decidableChecksEnd : (s : Session) → (moves : List Move) → Decidable (s.ChecksEnd moves)
  | _, [] => isTrue trivial
  | s, move :: rest =>
    have := decidableChecksEnd (move.apply s) rest
    inferInstanceAs (Decidable (move.ChecksEnd s ∧ ChecksEnd (move.apply s) rest))

theorem Tallied.after {s : Session} {attempts added : Nat} (h : s.Tallied attempts added)
    (hfailures : s.outages.NeverIncomplete) {moves : List Move} (hchecks : s.ChecksEnd moves)
    (hlater : ∀ outages, Move.failing outages ∈ moves → outages.NeverIncomplete) :
    (s.after moves).Tallied (attempts + s.attemptsIn moves) (added + s.newlyPutIn moves) := by
  induction moves generalizing s attempts added with
  | nil => exact h
  | cons move rest ih =>
      obtain ⟨hcheck, hrest⟩ := hchecks
      obtain ⟨hmove, hleft⟩ := Move.tallied_apply h hfailures hcheck
        fun outages hfailing => hlater outages (hfailing ▸ List.mem_cons_self)
      have hall := ih hmove hleft hrest
        fun outages hmem => hlater outages (List.mem_cons_of_mem move hmem)
      rw [attemptsIn, newlyPutIn, ← Nat.add_assoc, ← Nat.add_assoc]
      exact hall

/--
What the tallies say after every run from an empty session in which no check faults and no failure
of a write call claims that an entry is incomplete. The outcomes sum to the attempts to write, the
saving inside a cancelling that gets that far included; the errors sum to the attempts that failed;
what failed as a duplicate or as incomplete is told alike by both; and the store holds what was
saved and what upserts put where nothing was.
-/
theorem tallied_after {moves : List Move} (hchecks : fresh.ChecksEnd moves)
    (hfailures : ∀ outages, Move.failing outages ∈ moves → outages.NeverIncomplete) :
    let t := fresh.after moves
    t.counters.saved.total SaveStatus.all = fresh.attemptsIn moves ∧
      t.counters.errors.total ErrorKind.all =
        t.counters.saved .duplicate + t.counters.saved .notCompleted + t.counters.saved .error ∧
      t.counters.errors .notCompleted = t.counters.saved .notCompleted ∧
      t.counters.errors .duplicate = t.counters.saved .duplicate ∧
      t.store.size = t.counters.saved .ok + fresh.newlyPutIn moves := by
  have hnone : fresh.outages.NeverIncomplete := fun _ _ h => nomatch h
  have htallied := tallied_fresh.after hnone hchecks hfailures
  rw [Nat.zero_add, Nat.zero_add] at htallied
  exact ⟨htallied.attempts_eq, htallied.failures_eq, htallied.notCompleted_eq,
    htallied.duplicate_eq, htallied.size_eq⟩

private def talliedFailures : Outages :=
  (Outages.none.queue .insert 1 (.refused (.notFound "second"))).queue .upsert 1
    (.refused (.persistence "upsert failed"))

/-- Saves that end in each way, an upsert of either kind, and a cancelling that is repeated. -/
private def talliedRun : List Move :=
  let deposit := Entry.sampleDeposit
  let second := { deposit with groupId := "second" }
  let cancel : WritingCall := .cancel ⟨"deposit", ⟨1⟩, .standard⟩
  [.calling (.save deposit .standard), .calling (.save deposit .standard),
    .calling (.save { deposit with groupId := "open", debit := .unset (.zero .epoch "") } .standard),
    .failing talliedFailures,
    .calling (.save second .standard), .calling (.upsert second .standard),
    .calling (.upsert second .standard), .calling (.upsert deposit .standard),
    .calling cancel, .calling cancel]

/-- Eight attempts, of which four fail; three entries, of which one was put by an upsert. -/
theorem tallied_after_mixed_run :
    let t := fresh.after talliedRun
    t.counters.saved.total SaveStatus.all = 8 ∧ t.counters.errors.total ErrorKind.all = 4 ∧
      t.counters.errors .duplicate = 1 ∧ t.store.size = 3 ∧ fresh.newlyPutIn talliedRun = 1 := by
  intro t
  have hchecks : fresh.ChecksEnd talliedRun := by decide +kernel
  have hfailures : ∀ outages, Move.failing outages ∈ talliedRun → outages.NeverIncomplete := by
    intro outages hmem
    obtain rfl : outages = talliedFailures := by simpa [talliedRun] using hmem
    intro kind error herror
    cases kind <;> simp [talliedFailures, Outages.queue, Outages.none, WriteKind.call] at herror <;>
      simp [herror, LedgerError.kind]
  have hattempts : fresh.attemptsIn talliedRun = 8 := by decide +kernel
  have hput : fresh.newlyPutIn talliedRun = 1 := by decide +kernel
  have hsaved : t.counters.saved .duplicate = 1 ∧ t.counters.saved .notCompleted = 1 ∧
      t.counters.saved .error = 2 ∧ t.counters.saved .ok = 2 := by
    decide +kernel
  obtain ⟨hduplicate, hincomplete, herror, hok⟩ := hsaved
  obtain ⟨htotal, herrors, -, htold, hsize⟩ := tallied_after hchecks hfailures
  refine ⟨htotal.trans hattempts, ?_, htold.trans hduplicate, ?_, hput⟩
  · rw [herrors, hduplicate, hincomplete, herror]
  · rw [hsize, hok, hput]

end Session

end DoubleEntry
