import DoubleEntry.Proofs.Entry.SavedOnce
import DoubleEntry.Proofs.Store.Windows
import DoubleEntry.Report.Generation

/-!
# Reports and their windows

A report is made from one scan, and the scan stays within the report's window. So
two ledgers that hold the same live entries there get the same report, or the same
fault, whatever else they hold. The argument is about operations: those that scan
only within a window do not tell two such sessions apart, and sequences of such
operations do not either.
-/

namespace DoubleEntry

/-! ## Operations confined to a window -/

structure Session.AlikeWithin (asOf : Instant) (age : Option Span) (s t : Session) : Prop where
  failures : s.outages.pending .fetch = t.outages.pending .fetch
  scans : ∀ q : EntryQuery, q.StaysWithin asOf age → s.store.fetch q = t.store.fetch q

namespace Operation

/-- Sessions alike within a window get one answer, and are alike afterwards. -/
def ConfinedTo (asOf : Instant) (age : Option Span) (operation : Operation α) : Prop :=
  ∀ s t : Session, s.AlikeWithin asOf age t →
    (s.run operation).1 = (t.run operation).1 ∧
      (s.run operation).2.AlikeWithin asOf age (t.run operation).2

variable {asOf : Instant} {age : Option Span}

theorem confinedTo_pure (x : α) : (pure x : Operation α).ConfinedTo asOf age :=
  fun _ _ halike => ⟨rfl, halike⟩

theorem ConfinedTo.bind {first : Operation α} {next : α → Operation β}
    (hfirst : first.ConfinedTo asOf age) (hnext : ∀ x, (next x).ConfinedTo asOf age) :
    (first >>= next).ConfinedTo asOf age := by
  intro s t halike
  obtain ⟨hanswer, hafter⟩ := hfirst s t halike
  rw [Session.run_bind, Session.run_bind]
  generalize s.run first = ran at hanswer hafter ⊢
  generalize t.run first = ran' at hanswer hafter ⊢
  obtain ⟨answer, s'⟩ := ran
  obtain ⟨answer', t'⟩ := ran'
  obtain rfl : answer = answer' := hanswer
  cases answer with
  | error failure => exact ⟨rfl, hafter⟩
  | ok x => exact hnext x s' t' hafter

/-- What comes after a calculation only has to be confined for the results it can have. -/
theorem confinedTo_calculate_bind {run : Calc α} {next : α → Operation β}
    (hnext : ∀ x, run.Yields x → (next x).ConfinedTo asOf age) :
    (calculate run >>= next).ConfinedTo asOf age := by
  cases run with
  | fault reason => exact fun _ _ halike => ⟨rfl, halike⟩
  | done x rounded => exact hnext x rfl

theorem confinedTo_journal (events : List Event) : (journal events).ConfinedTo asOf age :=
  fun _ _ halike => ⟨rfl, halike.failures, halike.scans⟩

theorem confinedTo_countReport (kind : ReportKind) : (countReport kind).ConfinedTo asOf age :=
  fun _ _ halike => ⟨rfl, halike.failures, halike.scans⟩

theorem confinedTo_fetchEntries {q : EntryQuery} (hq : q.StaysWithin asOf age) :
    (fetchEntries q).ConfinedTo asOf age := by
  intro s t halike
  have hfailures := halike.failures
  rw [Session.run_fetchEntries, Session.run_fetchEntries]
  unfold Outages.take?
  rw [hfailures]
  cases t.outages.pending .fetch with
  | nil => exact ⟨congrArg Except.ok (halike.scans q hq), halike⟩
  | cons outage rest => exact ⟨rfl, rfl, halike.scans⟩

end Operation

/-! ## The three reports -/

open Operation

theorem BalanceSheet.confinedTo_generate (asOf : Instant) (age : Option Span)
    (tolerance : Tolerance) :
    (BalanceSheet.generate asOf age tolerance).ConfinedTo asOf age := by
  unfold generate
  refine (confinedTo_countReport _).bind fun _ => ?_
  refine confinedTo_calculate_bind fun q hq => ?_
  refine (confinedTo_fetchEntries (EntryQuery.staysWithin_window hq)).bind fun entries => ?_
  refine confinedTo_calculate_bind fun sheet _ => ?_
  exact (confinedTo_journal _).bind fun _ => confinedTo_pure sheet

theorem ProfitAndLoss.confinedTo_generate (asOf : Instant) (age : Option Span) :
    (ProfitAndLoss.generate asOf age).ConfinedTo asOf age := by
  unfold generate
  refine (confinedTo_countReport _).bind fun _ => ?_
  refine confinedTo_calculate_bind fun q hq => ?_
  refine (confinedTo_fetchEntries (EntryQuery.staysWithin_window hq)).bind fun entries => ?_
  refine confinedTo_calculate_bind fun report _ => ?_
  exact (confinedTo_journal _).bind fun _ => confinedTo_pure report

/-- A statement has no lower bound in time. -/
theorem AccountBalance.confinedTo_generate (account : Account) (sub : Option String)
    (asOf : Instant) : (AccountBalance.generate account sub asOf).ConfinedTo asOf none := by
  unfold generate
  refine (confinedTo_countReport _).bind fun _ => ?_
  refine (confinedTo_fetchEntries (EntryQuery.staysWithin_upTo_account asOf _)).bind fun _ => ?_
  refine confinedTo_calculate_bind fun balance _ => ?_
  exact (confinedTo_journal _).bind fun _ => confinedTo_pure balance

/-! ## Entries saved in another order -/

namespace Session

theorem outages_afterSaves (s : Session) (calls : List SaveCall) :
    (s.afterSaves calls).outages = s.outages := by
  induction calls generalizing s with
  | nil => rfl
  | cons a rest ih => exact ih (a.run s).2

theorem reached_afterSaves {s : Session} (hs : s.store.Reached) (calls : List SaveCall) :
    (s.afterSaves calls).store.Reached := by
  induction calls generalizing s with
  | nil => exact hs
  | cons a rest ih =>
      apply ih
      rcases a.store_run s with hsame | hadded
      · rwa [hsame]
      · exact hs.inserted hadded

theorem mem_storedBy_iff {calls : List SaveCall}
    (hids : (calls.map fun a => a.entry.groupId).Nodup) (s : Session) (e : Entry) :
    e ∈ s.storedBy calls ↔
      ∃ a ∈ calls, e = a.entry ∧ a.entry.Accepted a.tolerance ∧ a.failure = none ∧
        s.store.holds a.entry.groupId = false := by
  induction calls generalizing s with
  | nil => simp [storedBy]
  | cons a rest ih =>
      obtain ⟨hother, hrest⟩ := List.nodup_cons.1 hids
      have hholds : ∀ b ∈ rest, (a.run s).2.store.holds b.entry.groupId =
          s.store.holds b.entry.groupId := by
        intro b hb
        have hne : b.entry.groupId ≠ a.entry.groupId :=
          fun heq => hother (List.mem_map.2 ⟨b, hb, heq⟩)
        rcases a.store_run s with hsame | hadded
        · rw [hsame]
        · rw [← Store.isSome_find?, ← Store.isSome_find?, Store.find?_insert? hadded, if_neg hne]
      have hhead : e ∈ (if (a.run s).1.isOk then [a.entry] else []) ↔
          e = a.entry ∧ a.entry.Accepted a.tolerance ∧ a.failure = none ∧
            s.store.holds a.entry.groupId = false := by
        rw [← a.run_eq_ok_iff s]
        cases (a.run s).1 <;> simp [Except.isOk, Except.toBool]
      rw [storedBy, List.mem_append, hhead, ih hrest]
      simp only [List.mem_cons, or_and_right, exists_or, exists_eq_left]
      refine or_congr_right (exists_congr fun b => and_congr_right fun hb => ?_)
      rw [hholds b hb]

/-- The order in which entries with different ids are saved does not show in what is stored. -/
theorem mem_entries_afterSaves_of_perm (s : Session) {calls calls' : List SaveCall}
    (hperm : calls.Perm calls') (hids : (calls.map fun a => a.entry.groupId).Nodup) (e : Entry) :
    e ∈ (s.afterSaves calls).store.entries ↔ e ∈ (s.afterSaves calls').store.entries := by
  have hids' : (calls'.map fun a => a.entry.groupId).Nodup := (hperm.map _).nodup_iff.1 hids
  have hentries : ∀ calls : List SaveCall, e ∈ (s.afterSaves calls).store.entries ↔
      e ∈ s.storedBy calls ∨ e ∈ s.store.entries := by
    intro calls
    have hdocuments := (s.documents_afterSaves calls).map Prod.snd
    rw [List.map_append, List.map_map] at hdocuments
    rw [Store.entries, hdocuments.mem_iff, List.mem_append]
    simp [Store.entries]
  rw [hentries, hentries, mem_storedBy_iff hids, mem_storedBy_iff hids']
  simp only [hperm.mem_iff]

theorem alikeWithin_of_agree {s t : Session} (hs : s.store.Reached) (ht : t.store.Reached)
    (hfailures : s.outages.pending .fetch = t.outages.pending .fetch) {asOf : Instant}
    {age : Option Span} (hagree : s.store.AgreeWithin t.store asOf age) :
    s.AlikeWithin asOf age t where
  failures := hfailures
  scans _ hq := Store.fetch_eq_of_agreeWithin hs.keyed ht.keyed hagree hq

/-- Two sessions answer the three reports alike: with the same report, or the same fault. -/
structure ReportsAlike (s t : Session) (asOf : Instant) (age : Option Span) : Prop where
  sheet : ∀ tolerance, (s.run (BalanceSheet.generate asOf age tolerance)).1 =
    (t.run (BalanceSheet.generate asOf age tolerance)).1
  profitAndLoss : (s.run (ProfitAndLoss.generate asOf age)).1 =
    (t.run (ProfitAndLoss.generate asOf age)).1

theorem AlikeWithin.reportsAlike {s t : Session} {asOf : Instant} {age : Option Span}
    (h : s.AlikeWithin asOf age t) : s.ReportsAlike t asOf age where
  sheet tolerance := (BalanceSheet.confinedTo_generate asOf age tolerance s t h).1
  profitAndLoss := (ProfitAndLoss.confinedTo_generate asOf age s t h).1

/--
Reports are fixed by the live entries of their window. Sessions that agree there answer alike,
whatever else they hold and in whatever order it was written; in particular entries with
different ids can be saved in any order. A scan is strictly increasing in time and id.
-/
theorem reports_of_live_entries {s t : Session} (hs : s.store.Reached) (ht : t.store.Reached)
    (hfailures : s.outages.pending .fetch = t.outages.pending .fetch) :
    (∀ asOf age, s.store.AgreeWithin t.store asOf age → s.ReportsAlike t asOf age) ∧
    (∀ asOf, s.store.AgreeWithin t.store asOf none →
      ∀ account sub, (s.run (AccountBalance.generate account sub asOf)).1 =
        (t.run (AccountBalance.generate account sub asOf)).1) ∧
    (∀ calls calls' : List SaveCall, calls.Perm calls' →
      (calls.map fun a => a.entry.groupId).Nodup →
        (∀ asOf age, (s.afterSaves calls).ReportsAlike (s.afterSaves calls') asOf age) ∧
        ∀ account sub asOf,
          ((s.afterSaves calls).run (AccountBalance.generate account sub asOf)).1 =
            ((s.afterSaves calls').run (AccountBalance.generate account sub asOf)).1) ∧
    ∀ q, (s.store.fetch q).Pairwise Entry.Before := by
  refine ⟨?_, ?_, ?_, hs.keyed.pairwise_fetch⟩
  · intro asOf age hagree
    exact (alikeWithin_of_agree hs ht hfailures hagree).reportsAlike
  · intro asOf hagree account sub
    have halike := alikeWithin_of_agree hs ht hfailures hagree
    exact (AccountBalance.confinedTo_generate account sub asOf s t halike).1
  · intro calls calls' hperm hids
    have halike : ∀ asOf age,
        (s.afterSaves calls).AlikeWithin asOf age (s.afterSaves calls') := by
      intro asOf age
      refine alikeWithin_of_agree (reached_afterSaves hs calls) (reached_afterSaves hs calls') ?_ ?_
      · rw [outages_afterSaves, outages_afterSaves]
      · exact fun e _ => mem_entries_afterSaves_of_perm s hperm hids e
    refine ⟨fun asOf age => (halike asOf age).reportsAlike, ?_⟩
    intro account sub asOf
    exact (AccountBalance.confinedTo_generate account sub asOf _ _ (halike asOf none)).1

private def laterDeposit : Entry :=
  { Entry.sampleDeposit with groupId := "later", timestamp := ⟨2⟩ }

private def reversedDeposit : Entry :=
  { Entry.sampleDeposit with groupId := "reversed", reversed := some ⟨1⟩ }

private def ledgerWithLater : Session :=
  { fresh with store := (Store.empty.put Entry.sampleDeposit).put laterDeposit }

private def ledgerWithReversed : Session :=
  { fresh with store := (Store.empty.put reversedDeposit).put Entry.sampleDeposit }

private def saveFirst : SaveCall :=
  ⟨Entry.sampleDeposit, .standard, none⟩

private def saveLater : SaveCall :=
  ⟨laterDeposit, .standard, none⟩

/-- What lies outside of the window shows in no report, nor does the order of the saves. -/
theorem reports_of_one_live_deposit :
    ledgerWithLater.store.AgreeWithin ledgerWithReversed.store ⟨1⟩ none ∧
      ledgerWithLater.ReportsAlike ledgerWithReversed ⟨1⟩ none ∧
      (fresh.afterSaves [saveFirst, saveLater]).ReportsAlike
        (fresh.afterSaves [saveLater, saveFirst]) ⟨3⟩ none := by
  have hagree : ledgerWithLater.store.AgreeWithin ledgerWithReversed.store ⟨1⟩ none := by
    intro e hlive
    have hlater : e ≠ laterDeposit := by
      rintro rfl
      exact absurd hlive.not_later (by decide)
    have hreversed : e ≠ reversedDeposit := by
      rintro rfl
      cases hlive.live
    have hleft : ledgerWithLater.store.entries = [laterDeposit, Entry.sampleDeposit] := rfl
    have hright : ledgerWithReversed.store.entries = [Entry.sampleDeposit, reversedDeposit] := rfl
    rw [hleft, hright]
    simp [hlater, hreversed]
  have hs : ledgerWithLater.store.Reached :=
    Store.Reached.replaced laterDeposit (.replaced Entry.sampleDeposit .empty)
  have ht : ledgerWithReversed.store.Reached :=
    Store.Reached.replaced Entry.sampleDeposit (.replaced reversedDeposit .empty)
  have hids : ([saveFirst, saveLater].map fun a => a.entry.groupId).Nodup := by decide
  have hfresh : fresh.store.Reached := .empty
  obtain ⟨-, -, horders, -⟩ := reports_of_live_entries hfresh hfresh rfl
  obtain ⟨hreports, -⟩ := horders _ _ (List.Perm.swap saveLater saveFirst []) hids
  exact ⟨hagree, (reports_of_live_entries hs ht rfl).1 _ _ hagree, hreports ⟨3⟩ none⟩

end Session

end DoubleEntry
