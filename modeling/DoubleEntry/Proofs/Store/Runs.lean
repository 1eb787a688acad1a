import DoubleEntry.Store.Session

/-!
# Runs of operations

One equation for each primitive of a session: how it ends and in which session.
The equations of the store calls say first which failure is met and then what the
store does.
-/

namespace DoubleEntry

theorem Outages.mem_of_take? {o rest : Outages} {call : StoreCall} {outage : Outage}
    (h : o.take? call = some (outage, rest)) : outage ∈ o.pending call := by
  unfold take? at h
  cases hpending : o.pending call with
  | nil =>
      rw [hpending] at h
      cases h
  | cons first later =>
      rw [hpending] at h
      cases h
      exact List.mem_cons_self

namespace Session

/-! ## Sequencing -/

theorem run_bind (s : Session) (first : Operation α) (next : α → Operation β) :
    s.run (first >>= next) =
      match s.run first with
      | (.ok x, t) => t.run (next x)
      | (.error failure, t) => (.error failure, t) := by
  unfold run
  rw [ExceptT.run_bind, StateT.run_bind]
  rcases StateT.run (ExceptT.run first) s with ⟨r, t⟩
  cases r <;> rfl

theorem run_bind_eq_ok_iff {s t : Session} {first : Operation α} {next : α → Operation β} {y : β} :
    s.run (first >>= next) = (.ok y, t) ↔
      ∃ x mid, s.run first = (.ok x, mid) ∧ mid.run (next x) = (.ok y, t) := by
  rw [run_bind]
  generalize s.run first = ran
  obtain ⟨r, mid⟩ := ran
  cases r with
  | error failure => simp
  | ok x =>
      constructor
      · intro h
        exact ⟨x, mid, rfl, h⟩
      · rintro ⟨_, _, ⟨⟩, h⟩
        exact h

/-! ## Primitives -/

open Operation

@[simp] theorem run_get (s : Session) : s.run (get : Operation Session) = (.ok s, s) :=
  rfl

theorem run_tryCatch (s : Session) (operation : Operation α) (handle : Failure → Operation α) :
    s.run (tryCatch operation handle) =
      match s.run operation with
      | (.ok x, t) => (.ok x, t)
      | (.error failure, t) => t.run (handle failure) := by
  unfold run
  rw [ExceptT.run_tryCatch, StateT.run_bind]
  rcases StateT.run (ExceptT.run operation) s with ⟨r, t⟩
  cases r <;> rfl

/-- A refusal is turned into a value; a fault goes through. -/
theorem run_attempt (s : Session) (operation : Operation α) :
    s.run (attempt operation) =
      match s.run operation with
      | (.ok x, t) => (.ok (.ok x), t)
      | (.error (.refused error), t) => (.ok (.error error), t)
      | (.error (.fault reason), t) => (.error (.fault reason), t) := by
  rw [attempt, run_tryCatch, map_eq_pure_bind, run_bind]
  rcases s.run operation with ⟨r, t⟩
  rcases r with (_ | _) | _ <;> rfl

theorem run_calculate (s : Session) {run : Calc α} {x : α} (h : run.Yields x) :
    s.run (calculate run) = (.ok x, s) := by
  cases run with
  | fault reason => cases h
  | done y rounded =>
      obtain rfl : y = x := Except.ok.inj h
      rfl

theorem run_calculate_eq_ok_iff {s t : Session} {run : Calc α} {x : α} :
    s.run (calculate run) = (.ok x, t) ↔ run.Yields x ∧ s = t := by
  constructor
  · intro h
    cases run with
    | fault reason => cases h
    | done y rounded =>
        cases h
        exact ⟨rfl, rfl⟩
  · rintro ⟨hrun, rfl⟩
    exact run_calculate s hrun

/-! ## Journal and counters -/

@[simp] theorem run_journal (s : Session) (events : List Event) :
    s.run (Operation.journal events) = (.ok (), { s with journal := s.journal ++ events }) :=
  rfl

@[simp] theorem run_countError (s : Session) (kind : ErrorKind) :
    s.run (countError kind) =
      (.ok (), { s with counters.errors := s.counters.errors.bump kind }) :=
  rfl

@[simp] theorem run_countReport (s : Session) (kind : ReportKind) :
    s.run (countReport kind) =
      (.ok (), { s with counters.reports := s.counters.reports.bump kind }) :=
  rfl

/-! ## Store calls -/

/-- A call meets the oldest failure that is due to it, and none when none is. -/
theorem run_reach (s : Session) (call : StoreCall) (groupId : String) :
    s.run (reach call groupId) =
      match s.outages.take? call with
      | none => (.ok (), s)
      | some (outage, rest) =>
        (.error (.refused (outage.toError groupId)), { s with outages := rest }) := by
  unfold reach
  rw [run_bind, run_get]
  dsimp only
  cases s.outages.take? call <;> rfl

theorem run_insertEntry (s : Session) (e : Entry) :
    s.run (insertEntry e) =
      match s.outages.take? .insert with
      | some (outage, rest) =>
        (.error (.refused (outage.toError e.groupId)), { s with outages := rest })
      | none =>
        match s.store.insert? e with
        | none => (.error (.refused (.duplicate e.groupId)), s)
        | some store => (.ok (), { s with store := store }) := by
  unfold insertEntry
  rw [run_bind, run_reach]
  cases s.outages.take? .insert with
  | some met => rfl
  | none =>
      dsimp only
      rw [run_bind, run_get]
      dsimp only
      cases s.store.insert? e <;> rfl

theorem run_putEntry (s : Session) (e : Entry) :
    s.run (putEntry e) =
      match s.outages.take? .upsert with
      | some (outage, rest) =>
        (.error (.refused (outage.toError e.groupId)), { s with outages := rest })
      | none => (.ok (), { s with store := s.store.put e }) := by
  unfold putEntry
  rw [run_bind, run_reach]
  cases s.outages.take? .upsert <;> rfl

theorem run_findEntry (s : Session) (groupId : String) :
    s.run (findEntry groupId) =
      match s.outages.take? .find with
      | some (outage, rest) =>
        (.error (.refused (outage.toError groupId)), { s with outages := rest })
      | none => (.ok (s.store.find? groupId), s) := by
  unfold findEntry
  rw [run_bind, run_reach]
  cases s.outages.take? .find <;> rfl

theorem run_fetchEntries (s : Session) (q : EntryQuery) :
    s.run (fetchEntries q) =
      match s.outages.take? .fetch with
      | some (outage, rest) =>
        (.error (.refused (outage.toError "")), { s with outages := rest })
      | none => (.ok (s.store.fetch q), s) := by
  unfold fetchEntries
  rw [run_bind, run_reach]
  cases s.outages.take? .fetch <;> rfl

theorem run_fetchEntries_eq_ok_iff {s t : Session} {q : EntryQuery} {entries : List Entry} :
    s.run (fetchEntries q) = (.ok entries, t) ↔
      s.outages.pending .fetch = [] ∧ s.store.fetch q = entries ∧ s = t := by
  rw [run_fetchEntries]
  cases hpending : s.outages.pending .fetch <;> simp [Outages.take?, hpending]

/-- Marks that find nothing come before marks that fail. -/
theorem run_markReversed (s : Session) (groupId : String) (moment : Instant) :
    s.run (markReversed groupId moment) =
      if 0 < s.outages.unmatchedMarks then
        (.ok false, { s with outages.unmatchedMarks := s.outages.unmatchedMarks - 1 })
      else
        match s.outages.take? .mark with
        | some (outage, rest) =>
          (.error (.refused (outage.toError groupId)), { s with outages := rest })
        | none =>
          match s.store.markReversed? groupId moment with
          | none => (.ok false, s)
          | some store => (.ok true, { s with store := store }) := by
  unfold markReversed
  rw [run_bind, run_get]
  dsimp only
  split
  · rfl
  · rw [run_bind, run_reach]
    cases s.outages.take? .mark with
    | some met => rfl
    | none =>
        dsimp only
        rw [run_bind, run_get]
        dsimp only
        cases s.store.markReversed? groupId moment <;> rfl

end Session

end DoubleEntry
