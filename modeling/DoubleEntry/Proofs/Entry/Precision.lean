import DoubleEntry.Entry.Codec
import Mathlib

/-!
# Entries as documents keep them

The stored form of an entry by its fields. A document keeps whole milliseconds,
so writing an entry down floors its four times. Flooring keeps the order of
times, never leaves the calendar, and does nothing to a time that is whole.
-/

namespace DoubleEntry

/-! ## One time -/

namespace Instant

def IsWhole (t : Instant) : Prop :=
  t.nanos % 1000000 = 0

instance (t : Instant) : Decidable t.IsWhole :=
  inferInstanceAs (Decidable (_ = _))

def InCalendar (t : Instant) : Prop :=
  earliest ≤ t ∧ t ≤ latest

instance (t : Instant) : Decidable t.InCalendar :=
  inferInstanceAs (Decidable (_ ∧ _))

theorem le_iff (a b : Instant) : a ≤ b ↔ a.nanos ≤ b.nanos :=
  Iff.rfl

@[simp] theorem millis_ofMillis (ms : Int) : (ofMillis ms).millis = ms := by
  simp only [millis, ofMillis]
  omega

theorem isWhole_ofMillis (ms : Int) : (ofMillis ms).IsWhole := by
  simp only [IsWhole, ofMillis]
  omega

theorem floored_of_isWhole {t : Instant} (h : t.IsWhole) : t.floored = t := by
  unfold IsWhole at h
  obtain ⟨nanos⟩ := t
  simp only [floored, ofMillis, millis, mk.injEq] at h ⊢
  omega

theorem floored_le_floored_iff (a b : Instant) : a.floored ≤ b.floored ↔ a.millis ≤ b.millis := by
  simp only [le_iff, floored, ofMillis]
  omega

/-! ## The calendar -/

theorem earliest_nanos : earliest.nanos = -8334601228800000 * 1000000 := by
  decide

theorem latest_nanos : latest.nanos = 8210266876799999 * 1000000 + 999999 := by
  decide

theorem InCalendar.floored {t : Instant} (h : t.InCalendar) : t.floored.InCalendar := by
  simp only [InCalendar, le_iff, Instant.floored, ofMillis, millis, earliest_nanos,
    latest_nanos] at h ⊢
  omega

theorem clamp_of_inCalendar {t : Instant} (h : t.InCalendar) : t.clamp = t := by
  obtain ⟨hfirst, hlast⟩ := h
  unfold clamp
  rw [if_neg (show ¬ t < earliest from Int.not_lt.2 hfirst),
    if_neg (show ¬ latest < t from Int.not_lt.2 hlast)]

theorem inCalendar_clamp (t : Instant) : t.clamp.InCalendar := by
  have hends : earliest.nanos ≤ latest.nanos := by
    rw [earliest_nanos, latest_nanos]
    decide
  unfold clamp
  split
  · exact ⟨Int.le_refl _, hends⟩
  · rename_i hfirst
    split
    · exact ⟨hends, Int.le_refl _⟩
    · rename_i hlast
      exact ⟨Int.not_lt.1 hfirst, Int.not_lt.1 hlast⟩

/-- The milliseconds of a time in the calendar fit a signed word with room to spare. -/
theorem InCalendar.millis_bounds {t : Instant} (h : t.InCalendar) :
    -0x8000000000000000 ≤ t.millis ∧ t.millis < 0x8000000000000000 := by
  simp only [InCalendar, le_iff, earliest_nanos, latest_nanos, millis] at h ⊢
  omega

end Instant

/-! ## Entries -/

def Conversion.floored (c : Conversion) : Conversion :=
  { c with fetchDate := c.fetchDate.floored }

def Posting.floored (p : Posting) : Posting :=
  { p with conversion := p.conversion.floored }

namespace Entry

def storedFields (e : Entry) : List (String × Document) :=
  (e.toDocument.fields? fieldNames).getD []

theorem toDocument_eq (e : Entry) : e.toDocument = .record e.storedFields :=
  rfl

theorem lookup_posting (e : Entry) (side : Side) :
    ∀ field ∈ (e.posting side).toFields side, e.storedFields.lookup field.1 = some field.2 := by
  simp only [Posting.toFields, List.forall_mem_cons]
  cases side <;> exact ⟨rfl, rfl, rfl, rfl, List.forall_mem_nil _⟩

/-- The fields that are left out when they have no value. -/
theorem lookup_optional (e : Entry) :
    e.storedFields.lookup "metadata" = e.metadata.map id ∧
      e.storedFields.lookup "reversed" = e.reversed.map Document.ofInstant ∧
      e.storedFields.lookup "reversal_of" = e.reversalOf.map .text := by
  obtain ⟨_, _, _, _, _, _, _, _, _, metadata, reversed, reversalOf⟩ := e
  cases metadata <;> cases reversed <;> cases reversalOf <;> exact ⟨rfl, rfl, rfl⟩

def floored (e : Entry) : Entry :=
  { e with
    timestamp := e.timestamp.floored
    debit := e.debit.floored
    credit := e.credit.floored
    reversed := e.reversed.map Instant.floored }

def times (e : Entry) : List Instant :=
  [e.timestamp, e.debit.conversion.fetchDate, e.credit.conversion.fetchDate] ++
    e.reversed.toList

theorem floored_of_isWhole {e : Entry} (h : ∀ t ∈ e.times, t.IsWhole) : e.floored = e := by
  have hfloored : ∀ t ∈ e.times, t.floored = t := fun t ht => Instant.floored_of_isWhole (h t ht)
  simp only [times, List.cons_append, List.nil_append, List.forall_mem_cons,
    Option.mem_toList] at hfloored
  obtain ⟨htimestamp, hdebit, hcredit, hreversed⟩ := hfloored
  have hmap : e.reversed.map Instant.floored = e.reversed := by
    cases hr : e.reversed with
    | none => rfl
    | some t => rw [Option.map_some, hreversed t hr]
  simp only [floored, Posting.floored, Conversion.floored, htimestamp, hdebit, hcredit, hmap]

end Entry

end DoubleEntry
