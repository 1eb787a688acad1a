import DoubleEntry.Proofs.Account.Order
import DoubleEntry.Proofs.Store.Keyed

/-!
# Scans

A scan of a store whose entries are under their own ids is strictly in the order
of time and group id, so it is determined by the entries that it holds. From that
follows what one write does to a scan, and to the list of accounts.
-/

namespace DoubleEntry

/-! ## The order of a scan -/

namespace Entry

/-- Earlier, or at the same time with the smaller group id. -/
def Before (a b : Entry) : Prop :=
  a.timestamp < b.timestamp ∨ a.timestamp = b.timestamp ∧ a.groupId < b.groupId

theorem Before.not_symm {a b : Entry} (h : a.Before b) : ¬ b.Before a := by
  intro h'
  rcases h with hlt | ⟨heq, hid⟩ <;> rcases h' with hlt' | ⟨heq', hid'⟩
  · exact absurd (show a.timestamp.nanos < b.timestamp.nanos from hlt)
      (Int.not_lt.2 (Int.le_of_lt hlt'))
  · rw [heq'] at hlt
    exact absurd hlt (Int.lt_irrefl a.timestamp.nanos)
  · rw [heq] at hlt'
    exact absurd hlt' (Int.lt_irrefl b.timestamp.nanos)
  · exact String.lt_irrefl _ (String.lt_trans hid hid')

end Entry

namespace Store

theorem precedes_iff (a b : Entry) :
    precedes a b = true ↔
      a.timestamp.nanos < b.timestamp.nanos ∨
        a.timestamp.nanos = b.timestamp.nanos ∧ a.groupId ≤ b.groupId := by
  unfold precedes
  rw [Bool.or_eq_true, Bool.and_eq_true, decide_eq_true_iff, decide_eq_true_iff, beq_iff_eq]
  have htime : a.timestamp = b.timestamp ↔ a.timestamp.nanos = b.timestamp.nanos := by
    rcases a.timestamp with ⟨m⟩
    rcases b.timestamp with ⟨n⟩
    exact Instant.mk.injEq m n ▸ Iff.rfl
  rw [htime]
  exact Iff.rfl

theorem precedes_trans (a b c : Entry) (hab : precedes a b = true) (hbc : precedes b c = true) :
    precedes a c = true := by
  rw [precedes_iff] at hab hbc ⊢
  rcases hab with hab | ⟨hab, hid⟩ <;> rcases hbc with hbc | ⟨hbc, hid'⟩
  · exact Or.inl (by omega)
  · exact Or.inl (by omega)
  · exact Or.inl (by omega)
  · exact Or.inr ⟨by omega, String.le_trans hid hid'⟩

theorem precedes_total (a b : Entry) : (precedes a b || precedes b a) = true := by
  rw [Bool.or_eq_true, precedes_iff, precedes_iff]
  rcases Int.lt_trichotomy a.timestamp.nanos b.timestamp.nanos with h | h | h
  · exact Or.inl (Or.inl h)
  · rcases String.le_total a.groupId b.groupId with hid | hid
    · exact Or.inl (Or.inr ⟨h, hid⟩)
    · exact Or.inr (Or.inr ⟨h.symm, hid⟩)
  · exact Or.inr (Or.inl h)

theorem before_of_precedes {a b : Entry} (h : precedes a b = true) (hne : a.groupId ≠ b.groupId) :
    a.Before b := by
  rcases (precedes_iff a b).1 h with hlt | ⟨heq, hid⟩
  · exact Or.inl hlt
  · refine Or.inr ⟨congrArg Instant.mk heq, ?_⟩
    exact String.not_le.1 fun hge => hne (String.le_antisymm hid hge)

/-! ## What a scan holds -/

theorem mem_fetch_iff (s : Store) (q : EntryQuery) (e : Entry) :
    e ∈ s.fetch q ↔ (∃ groupId, s.find? groupId = some e) ∧ q.accepts e = true := by
  rw [fetch, List.mem_mergeSort, List.mem_filter, mem_entries_iff]

theorem Keyed.pairwise_sorted {s : Store} (hs : s.Keyed) (keep : Entry → Bool) :
    ((s.entries.filter keep).mergeSort precedes).Pairwise Entry.Before := by
  have hsorted : ((s.entries.filter keep).mergeSort precedes).Pairwise
      fun a b => precedes a b = true :=
    List.pairwise_mergeSort precedes_trans precedes_total _
  have hids : (((s.entries.filter keep).mergeSort precedes).map Entry.groupId).Nodup := by
    have hperm := (List.mergeSort_perm (s.entries.filter keep) precedes).map Entry.groupId
    rw [hperm.nodup_iff]
    exact hs.nodup_ids.sublist (List.filter_sublist.map Entry.groupId)
  refine (hsorted.and (List.pairwise_map.1 hids)).imp ?_
  rintro a b ⟨hprecedes, hne⟩
  exact before_of_precedes hprecedes hne

/-- A scan is strictly increasing in time and group id. -/
theorem Keyed.pairwise_fetch {s : Store} (hs : s.Keyed) (q : EntryQuery) :
    (s.fetch q).Pairwise Entry.Before :=
  hs.pairwise_sorted q.accepts

theorem eq_of_pairwise_before {xs ys : List Entry} (hxs : xs.Pairwise Entry.Before)
    (hys : ys.Pairwise Entry.Before) (h : ∀ e, e ∈ xs ↔ e ∈ ys) : xs = ys := by
  have hnodup : ∀ {zs : List Entry}, zs.Pairwise Entry.Before → zs.Nodup := by
    intro zs hzs
    refine hzs.imp ?_
    rintro a b hab rfl
    exact hab.not_symm hab
  refine List.Perm.eq_of_pairwise ?_ hxs hys
    ((List.perm_ext_iff_of_nodup (hnodup hxs) (hnodup hys)).2 h)
  intro a b _ _ hab hba
  exact absurd hba hab.not_symm

/-! ## Writes that a scan does not show, or shows as a gap -/

theorem accepts_of_reversed {q : EntryQuery} {e : Entry} (hq : q.includeReversed = false)
    (he : e.reversed ≠ none) : q.accepts e = false := by
  have hreversed : e.isReversed = true := Option.isSome_iff_ne_none.2 he
  rw [EntryQuery.accepts, hq, hreversed]
  rfl

/-- A new entry that is flagged already shows in no scan of live entries. -/
theorem Keyed.fetch_insert? {s t : Store} {e : Entry} (hs : s.Keyed)
    (h : s.insert? e = some t) {q : EntryQuery} (hq : q.includeReversed = false)
    (he : e.reversed ≠ none) : t.fetch q = s.fetch q := by
  refine eq_of_pairwise_before ((hs.insert? h).pairwise_fetch q) (hs.pairwise_fetch q) ?_
  intro held
  rw [mem_fetch_iff, mem_fetch_iff]
  refine and_congr_left fun haccepts => ?_
  have hne : held ≠ e := by
    rintro rfl
    rw [accepts_of_reversed hq he] at haccepts
    cases haccepts
  constructor
  · rintro ⟨groupId, hheld⟩
    rw [find?_insert? h] at hheld
    split at hheld
    · exact absurd (Option.some.inj hheld).symm hne
    · exact ⟨groupId, hheld⟩
  · rintro ⟨groupId, hheld⟩
    exact ⟨groupId, find?_insert?_of_some h hheld⟩

/-- Flagging an entry takes it, and nothing else, out of every scan of live entries. -/
theorem Keyed.fetch_markReversed? {s t : Store} {groupId : String} {moment : Instant}
    (hs : s.Keyed) (h : s.markReversed? groupId moment = some t) {q : EntryQuery}
    (hq : q.includeReversed = false) :
    t.fetch q = (s.fetch q).filter fun e => e.groupId ≠ groupId := by
  refine eq_of_pairwise_before ((hs.markReversed? h).pairwise_fetch q)
    ((hs.pairwise_fetch q).filter _) ?_
  intro held
  rw [List.mem_filter, mem_fetch_iff, mem_fetch_iff, decide_eq_true_iff, and_right_comm]
  refine and_congr_left fun haccepts => ?_
  constructor
  · rintro ⟨other, hheld⟩
    rw [find?_markReversed? h] at hheld
    split at hheld
    · obtain ⟨old, -, rfl⟩ := Option.map_eq_some_iff.1 hheld
      rw [accepts_of_reversed hq (Option.some_ne_none moment)] at haccepts
      cases haccepts
    · rename_i hother
      refine ⟨⟨other, hheld⟩, ?_⟩
      rw [hs other held hheld]
      exact hother
  · rintro ⟨⟨other, hheld⟩, hid⟩
    refine ⟨other, ?_⟩
    rw [find?_markReversed? h, if_neg]
    · exact hheld
    · rintro rfl
      exact hid (hs other held hheld)

/-! ## The list of accounts -/

theorem mem_accounts_iff (s : Store) (a : Account) :
    a ∈ s.accounts ↔
      ∃ groupId e, s.find? groupId = some e ∧
        (e.debit.account = some a ∨ e.credit.account = some a) := by
  rw [accounts, Account.mem_sortDistinct, List.mem_flatMap]
  simp only [mem_entries_iff, List.mem_append, Option.mem_toList]
  constructor
  · rintro ⟨e, ⟨groupId, hheld⟩, ha⟩
    exact ⟨groupId, e, hheld, ha⟩
  · rintro ⟨groupId, e, hheld, ha⟩
    exact ⟨e, ⟨groupId, hheld⟩, ha⟩

theorem accounts_eq_of_mem_iff {s t : Store} (h : ∀ a, a ∈ s.accounts ↔ a ∈ t.accounts) :
    s.accounts = t.accounts :=
  (Account.inOrder_sortDistinct _).eq_of_mem_iff (Account.inOrder_sortDistinct _) h

/-- A new entry on accounts that are listed adds none. -/
theorem accounts_insert? {s t : Store} {e : Entry} (h : s.insert? e = some t)
    (hlisted : ∀ a, e.debit.account = some a ∨ e.credit.account = some a → a ∈ s.accounts) :
    t.accounts = s.accounts := by
  apply accounts_eq_of_mem_iff
  intro a
  constructor
  · intro ha
    obtain ⟨groupId, held, hheld, hside⟩ := (mem_accounts_iff t a).1 ha
    rw [find?_insert? h] at hheld
    split at hheld
    · cases hheld
      exact hlisted a hside
    · exact (mem_accounts_iff s a).2 ⟨groupId, held, hheld, hside⟩
  · intro ha
    obtain ⟨groupId, held, hheld, hside⟩ := (mem_accounts_iff s a).1 ha
    exact (mem_accounts_iff t a).2 ⟨groupId, held, find?_insert?_of_some h hheld, hside⟩

theorem accounts_markReversed? {s t : Store} {groupId : String} {moment : Instant}
    (h : s.markReversed? groupId moment = some t) : t.accounts = s.accounts := by
  apply accounts_eq_of_mem_iff
  intro a
  rw [mem_accounts_iff, mem_accounts_iff]
  constructor
  · rintro ⟨other, held, hheld, hside⟩
    rw [find?_markReversed? h] at hheld
    split at hheld
    · obtain ⟨old, hold, rfl⟩ := Option.map_eq_some_iff.1 hheld
      exact ⟨other, old, hold, hside⟩
    · exact ⟨other, held, hheld, hside⟩
  · rintro ⟨other, held, hheld, hside⟩
    by_cases hother : other = groupId
    · refine ⟨other, { held with reversed := some moment }, ?_, hside⟩
      rw [find?_markReversed? h, if_pos hother, hheld]
      rfl
    · refine ⟨other, held, ?_, hside⟩
      rw [find?_markReversed? h, if_neg hother, hheld]

end Store

end DoubleEntry
