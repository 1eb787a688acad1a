import DoubleEntry.Proofs.Store.Scans

/-!
# Windows onto a store

A store can keep its entries in any order, and change that order whenever it is
written to. A scan sorts, so the order does not show; and a query that stays
within a window of time selects live entries of the window only. So what such a
query shows is fixed by the live entries of the window, whatever else is stored
and however the store came about.
-/

namespace DoubleEntry

namespace Store

/-! ## Stores that writes lead to -/

theorem find?_eq_of_perm {s t : Store} (h : s.documents.Perm t.documents) (groupId : String) :
    s.find? groupId = t.find? groupId := by
  apply Option.ext
  intro e
  rw [← mem_documents_iff, ← mem_documents_iff, h.mem_iff]

/-- Stores that writes lead to from an empty one, in whatever order they keep their entries. -/
inductive Reached : Store → Prop where
  | empty : Reached empty
  | inserted {s t : Store} {e : Entry} : Reached s → s.insert? e = some t → Reached t
  | replaced {s : Store} (e : Entry) : Reached s → Reached (s.put e)
  | flagged {s t : Store} {groupId : String} {moment : Instant} :
    Reached s → s.markReversed? groupId moment = some t → Reached t
  | rearranged {s t : Store} : Reached s → s.documents.Perm t.documents → Reached t

theorem Reached.keyed {s : Store} (h : s.Reached) : s.Keyed := by
  induction h with
  | empty => exact keyed_empty
  | inserted _ added ih => exact ih.insert? added
  | replaced e _ ih => exact ih.put e
  | flagged _ marked ih => exact ih.markReversed? marked
  | rearranged _ same ih =>
      intro groupId e hheld
      rw [← find?_eq_of_perm same] at hheld
      exact ih groupId e hheld

end Store

/-! ## Windows -/

theorem Instant.nanos_of_minus {t start : Instant} {span : Span} (h : (t.minus span).Yields start) :
    start.nanos = t.nanos - span.nanos := by
  unfold minus at h
  dsimp only at h
  split at h
  · rw [← (Calc.yields_pure_iff _ _).1 h]
  · cases h

/-- Live, not later than `asOf`, and no older than `age` then, when an age is given. -/
structure Entry.LiveWithin (e : Entry) (asOf : Instant) (age : Option Span) : Prop where
  live : e.reversed = none
  not_later : e.timestamp ≤ asOf
  not_older : ∀ span, age = some span → asOf.nanos - span.nanos ≤ e.timestamp.nanos

namespace EntryQuery

def StaysWithin (q : EntryQuery) (asOf : Instant) (age : Option Span) : Prop :=
  ∀ e, q.accepts e = true → e.LiveWithin asOf age

theorem live_of_accepts {q : EntryQuery} {e : Entry} (last : Instant)
    (hlive : q.includeReversed = false) (hlast : q.notAfter = some last)
    (h : q.accepts e = true) :
    e.reversed = none ∧ e.timestamp ≤ last ∧
      ∀ first, q.notBefore = some first → first ≤ e.timestamp := by
  simp only [accepts, matchesTime, hlive, hlast, Bool.false_or, Bool.and_eq_true,
    Bool.not_eq_true', decide_eq_true_eq] at h
  obtain ⟨⟨⟨⟨hreversed, hfirst, hnotAfter⟩, -⟩, -⟩, -⟩ := h
  refine ⟨by simpa [Entry.isReversed] using hreversed, hnotAfter, ?_⟩
  intro first hnotBefore
  rw [hnotBefore] at hfirst
  exact of_decide_eq_true hfirst

theorem staysWithin_window {asOf : Instant} {age : Option Span} {q : EntryQuery}
    (h : (window asOf age).Yields q) : q.StaysWithin asOf age := by
  intro e haccepts
  cases age with
  | none =>
      obtain rfl := (Calc.yields_pure_iff _ _).1 h
      obtain ⟨hreversed, hlast, -⟩ := live_of_accepts asOf rfl rfl haccepts
      refine ⟨hreversed, hlast, ?_⟩
      intro given hgiven
      cases hgiven
  | some span =>
      obtain ⟨start, hstart, hq⟩ := (Calc.yields_bind_iff _ _ _).1 h
      obtain rfl := (Calc.yields_pure_iff _ _).1 hq
      obtain ⟨hreversed, hlast, hfirst⟩ := live_of_accepts asOf rfl rfl haccepts
      refine ⟨hreversed, hlast, ?_⟩
      intro given hgiven
      cases hgiven
      rw [← Instant.nanos_of_minus hstart]
      exact hfirst start rfl

theorem staysWithin_upTo_account (asOf : Instant) (account : Option AccountFilter) :
    { upTo asOf with account := account }.StaysWithin asOf none := by
  intro e haccepts
  obtain ⟨hreversed, hlast, -⟩ := live_of_accepts asOf rfl rfl haccepts
  refine ⟨hreversed, hlast, ?_⟩
  intro given hgiven
  cases hgiven

end EntryQuery

namespace Store

def AgreeWithin (s t : Store) (asOf : Instant) (age : Option Span) : Prop :=
  ∀ e : Entry, e.LiveWithin asOf age → (e ∈ s.entries ↔ e ∈ t.entries)

/-- A query that stays within a window shows the same of stores that agree there. -/
theorem fetch_eq_of_agreeWithin {s t : Store} (hs : s.Keyed) (ht : t.Keyed) {asOf : Instant}
    {age : Option Span} (hagree : s.AgreeWithin t asOf age) {q : EntryQuery}
    (hq : q.StaysWithin asOf age) : s.fetch q = t.fetch q := by
  refine eq_of_pairwise_before (hs.pairwise_fetch q) (ht.pairwise_fetch q) ?_
  intro e
  rw [mem_fetch_iff, mem_fetch_iff, ← mem_entries_iff, ← mem_entries_iff]
  exact and_congr_left fun haccepts => hagree e (hq e haccepts)

end Store

end DoubleEntry
