import DoubleEntry.Proofs.Document.Readings
import DoubleEntry.Proofs.Entry.Twins

/-!
# Entries read back

Reading the document of an entry gives the entry back but for three things: times
are floored, null metadata is none, and a zero has no sign. What was read once
loses nothing more but such signs. The exception is a date past the end of the
calendar: it is read as the calendar's last nanosecond, which no document keeps.
-/

namespace DoubleEntry

open Document

/-! ## From an entry to its document and back -/

def Posting.unsignedZeros (p : Posting) : Posting :=
  { p with amount := p.amount.unsignedZero, conversion := p.conversion.unsignedZeros }

def Document.isNull : Document → Bool
  | null => true
  | _ => false

namespace Entry

def unsignedZeros (e : Entry) : Entry :=
  { e with debit := e.debit.unsignedZeros, credit := e.credit.unsignedZeros }

def kept (e : Entry) : Entry :=
  { e.floored.unsignedZeros with metadata := e.metadata.filter fun m => !m.isNull }

end Entry

section

variable {form : Document → Document} (hform : Faithful form)

include hform

theorem Posting.ofFields?_form {p : Posting} {side : Side} {fields : List (String × Document)}
    (hfields : ∀ field ∈ p.toFields side, fields.lookup field.1 = some field.2)
    (hdate : p.conversion.fetchDate.InCalendar) :
    ofFields? (mapFields form fields) side = some p.floored.unsignedZeros := by
  simp only [toFields, List.forall_mem_cons] at hfields
  obtain ⟨haccount, hamount, hcurrency, hconversion, -⟩ := hfields
  have hread : (form (.ofOption Account.toDocument p.account)).asOption? Account.ofDocument? =
      some p.account :=
    asOption?_form hform rfl fun a _ => a.ofDocument?_form hform
  simp only [ofFields?, Option.bind_eq_bind, Option.bind_eq_some_iff]
  exact ⟨_, fieldOr?_mapFields haccount hread none,
    _, field?_mapFields hamount (asDecimal?_form hform p.amount),
    _, field?_mapFields hcurrency (asCurrency?_form hform p.currency),
    _, field?_mapFields hconversion (Conversion.ofDocument?_form hform hdate), rfl⟩

namespace Entry

theorem ofDocument?_form {e : Entry} (htimes : ∀ t ∈ e.times, t.InCalendar)
    (hmetadata : ∀ m ∈ e.metadata, form m = m) :
    ofDocument? (form e.toDocument) = some e.kept := by
  simp only [times, List.cons_append, List.nil_append, List.forall_mem_cons,
    Option.mem_toList] at htimes
  obtain ⟨htimestamp, hdebit, hcredit, hreversed⟩ := htimes
  obtain ⟨hlookMetadata, hlookReversed, hlookReversalOf⟩ := e.lookup_optional
  have hreadMetadata : ∀ m ∈ e.metadata,
      (form m).asOption? some = some (if m.isNull then none else some m) := by
    intro m hm
    rw [hmetadata m hm]
    cases m <;> rfl
  have hreadReversed : ∀ t ∈ e.reversed,
      (form (.ofInstant t)).asOption? asInstant? = some (some t.floored) :=
    fun t ht => asOption?_of_read rfl (asInstant?_form hform (hreversed t ht))
  have hreadReversalOf : ∀ id ∈ e.reversalOf,
      (form (.text id)).asOption? asText? = some (some id) :=
    fun id _ => asOption?_of_read rfl (asText?_form hform id)
  rw [e.toDocument_eq, hform.record, ofDocument?]
  -- One step for each field, in the order in which they are read.
  refine Option.bind_eq_some_iff.2 ⟨_, rfl, ?_⟩
  refine Option.bind_eq_some_iff.2 ⟨_, field?_mapFields rfl (asText?_form hform e.groupId), ?_⟩
  refine Option.bind_eq_some_iff.2 ⟨_, field?_mapFields rfl (asText?_form hform e.shortId), ?_⟩
  refine Option.bind_eq_some_iff.2 ⟨_, field?_mapFields rfl (asInstant?_form hform htimestamp), ?_⟩
  refine Option.bind_eq_some_iff.2 ⟨_, field?_mapFields rfl (asCategory?_form hform e.category), ?_⟩
  refine Option.bind_eq_some_iff.2
    ⟨_, fieldOr?_mapFields rfl (asText?_form hform e.description) "", ?_⟩
  refine Option.bind_eq_some_iff.2
    ⟨_, fieldOr?_mapFields rfl (asText?_form hform e.userMemo) "", ?_⟩
  refine Option.bind_eq_some_iff.2 ⟨_, fieldOr?_mapFields rfl (asText?_form hform e.custId) "", ?_⟩
  refine Option.bind_eq_some_iff.2
    ⟨_, Posting.ofFields?_form hform (e.lookup_posting .debit) hdebit, ?_⟩
  refine Option.bind_eq_some_iff.2
    ⟨_, Posting.ofFields?_form hform (e.lookup_posting .credit) hcredit, ?_⟩
  refine Option.bind_eq_some_iff.2
    ⟨_, fieldOr?_mapFields_optional hlookMetadata hreadMetadata, ?_⟩
  refine Option.bind_eq_some_iff.2
    ⟨_, fieldOr?_mapFields_optional hlookReversed hreadReversed, ?_⟩
  refine Option.bind_eq_some_iff.2
    ⟨_, fieldOr?_mapFields_optional hlookReversalOf hreadReversalOf, ?_⟩
  have hfilter : (e.metadata.bind fun m => if m.isNull then none else some m) =
      e.metadata.filter fun m => !m.isNull := by
    cases e.metadata with
    | none => rfl
    | some m => cases hnull : m.isNull <;> simp [Option.filter, hnull]
  have hfloored : (e.reversed.bind fun t => some t.floored) = e.reversed.map Instant.floored :=
    Option.map_eq_bind.symm
  rw [hfilter, hfloored, Option.bind_fun_some]
  rfl

end Entry

end

/-! ## Through a store -/

theorem Document.fieldsStorable_eq_all (fields : List (String × Document)) :
    fieldsStorable fields = fields.all fun field => field.2.isStorable := by
  induction fields with
  | nil => rfl
  | cons field rest ih => rw [fieldsStorable, ih, List.all_cons]

theorem Conversion.isStorable_toDocument (c : Conversion) : c.toDocument.isStorable := by
  simp [toDocument, isStorable, fieldsStorable_eq_all, Amounts.toFields, ofDecimal, ofInstant]

theorem Posting.isStorable_toFields (p : Posting) (side : Side) :
    ∀ field ∈ p.toFields side, field.2.isStorable := by
  have haccount : (ofOption Account.toDocument p.account).isStorable := by
    cases p.account with
    | none => rfl
    | some a => rfl
  simp only [toFields, List.forall_mem_cons]
  exact ⟨haccount, rfl, rfl, p.conversion.isStorable_toDocument, List.forall_mem_nil _⟩

namespace Entry

theorem isStorable_toDocument {e : Entry} (h : ∀ m ∈ e.metadata, m.isStorable) :
    e.toDocument.isStorable := by
  rw [toDocument, isStorable, fieldsStorable_eq_all]
  simp only [List.all_append, Bool.and_eq_true, List.all_eq_true]
  refine ⟨⟨⟨⟨⟨?_, e.debit.isStorable_toFields .debit⟩, e.credit.isStorable_toFields .credit⟩, ?_⟩,
    ?_⟩, ?_⟩
  · simp [isStorable, ofInstant]
  · intro field hfield
    obtain ⟨m, hm, rfl⟩ := List.mem_map.1 hfield
    exact h m (Option.mem_toList.1 hm)
  · intro field hfield
    obtain ⟨t, ht, rfl⟩ := List.mem_map.1 hfield
    rfl
  · intro field hfield
    obtain ⟨id, hid, rfl⟩ := List.mem_map.1 hfield
    rfl

theorem throughStore_of_isUnmarked {e : Entry}
    (h : ∀ m ∈ e.metadata, m.isUnmarked ∧ m.isStorable) : e.throughStore = .ok e := by
  have hstorable := isStorable_toDocument fun m hm => (h m hm).2
  have hrespelled : e.metadata.mapM respelled? = some e.metadata := by
    cases hmetadata : e.metadata with
    | none => rfl
    | some m => simp [respelled?_of_isUnmarked (h m hmetadata).1]
  rw [throughStore, if_pos hstorable, hrespelled]

end Entry

/-! ## From a document to its entry -/

theorem Document.inCalendar_of_asInstant? {d : Document} {t : Instant}
    (h : d.asInstant? = some t) : t.InCalendar := by
  obtain ⟨millis, -, rfl⟩ := Option.map_eq_some_iff.1 h
  exact Instant.inCalendar_clamp _

theorem Document.isWhole_of_asInstant? {d : Document} {t : Instant} (h : d.asInstant? = some t)
    (hcalendar : ∀ millis ∈ d.asMillis?, (Instant.ofMillis millis).InCalendar) :
    t.IsWhole := by
  obtain ⟨millis, hmillis, rfl⟩ := Option.map_eq_some_iff.1 h
  rw [Instant.clamp_of_inCalendar (hcalendar millis hmillis)]
  exact Instant.isWhole_ofMillis millis

def Conversion.dateSource? (d : Document) : Option Document :=
  (d.fields? fieldNames).bind fun fields => fields.lookup "fetch_date"

theorem Conversion.asInstant?_dateSource {d : Document} {c : Conversion}
    (h : ofDocument? d = some c) :
    ∃ source, dateSource? d = some source ∧ source.asInstant? = some c.fetchDate := by
  obtain ⟨fields, hfields, h⟩ := Option.bind_eq_some_iff.1 h
  obtain ⟨amounts, -, h⟩ := Option.bind_eq_some_iff.1 h
  obtain ⟨fetchDate, hdate, h⟩ := Option.bind_eq_some_iff.1 h
  obtain ⟨text, -, h⟩ := Option.bind_eq_some_iff.1 h
  obtain ⟨source, hlookup, hread⟩ := Option.bind_eq_some_iff.1 hdate
  cases h
  exact ⟨source, by rw [dateSource?, hfields, Option.bind_some, hlookup], hread⟩

theorem Posting.asInstant?_dateSource {fields : List (String × Document)} {side : Side}
    {p : Posting} (h : ofFields? fields side = some p) :
    ∃ source, (fields.lookup (side.name ++ "_conv")).bind Conversion.dateSource? = some source ∧
      source.asInstant? = some p.conversion.fetchDate := by
  obtain ⟨account, -, h⟩ := Option.bind_eq_some_iff.1 h
  obtain ⟨amount, -, h⟩ := Option.bind_eq_some_iff.1 h
  obtain ⟨currency, -, h⟩ := Option.bind_eq_some_iff.1 h
  obtain ⟨conversion, hconversion, h⟩ := Option.bind_eq_some_iff.1 h
  obtain ⟨d, hlookup, hread⟩ := Option.bind_eq_some_iff.1 hconversion
  cases h
  obtain ⟨source, hsource, hdate⟩ := Conversion.asInstant?_dateSource hread
  exact ⟨source, by rw [hlookup, Option.bind_some, hsource], hdate⟩

theorem Document.fieldOr?_eq_some {fields : List (String × Document)} {name : String}
    {read : Document → Option α} {x : α}
    (h : fieldOr? fields name (asOption? read) none = some (some x)) :
    ∃ d, fields.lookup name = some d ∧ d ≠ null ∧ read d = some x := by
  unfold fieldOr? at h
  split at h
  · cases h
  · rename_i d hlookup
    cases d with
    | null => cases h
    | _ => exact ⟨_, hlookup, Document.noConfusion, by simpa [asOption?] using h⟩

namespace Entry

def dateSources (d : Document) : List Document :=
  match d.fields? fieldNames with
  | none => []
  | some fields =>
    [fields.lookup "timestamp", (fields.lookup "debit_conv").bind Conversion.dateSource?,
      (fields.lookup "credit_conv").bind Conversion.dateSource?,
      fields.lookup "reversed"].reduceOption

/-- An entry that was read has no null metadata, and each of its times from the place for it. -/
theorem asInstant?_dateSources {d : Document} {e : Entry} (h : ofDocument? d = some e) :
    e.metadata ≠ some .null ∧
      ∀ t ∈ e.times, ∃ source ∈ dateSources d, source.asInstant? = some t := by
  obtain ⟨fields, hfields, h⟩ := Option.bind_eq_some_iff.1 h
  obtain ⟨groupId, -, h⟩ := Option.bind_eq_some_iff.1 h
  obtain ⟨shortId, -, h⟩ := Option.bind_eq_some_iff.1 h
  obtain ⟨timestamp, htimestamp, h⟩ := Option.bind_eq_some_iff.1 h
  obtain ⟨category, -, h⟩ := Option.bind_eq_some_iff.1 h
  obtain ⟨description, -, h⟩ := Option.bind_eq_some_iff.1 h
  obtain ⟨userMemo, -, h⟩ := Option.bind_eq_some_iff.1 h
  obtain ⟨custId, -, h⟩ := Option.bind_eq_some_iff.1 h
  obtain ⟨debit, hdebit, h⟩ := Option.bind_eq_some_iff.1 h
  obtain ⟨credit, hcredit, h⟩ := Option.bind_eq_some_iff.1 h
  obtain ⟨metadata, hmetadata, h⟩ := Option.bind_eq_some_iff.1 h
  obtain ⟨reversed, hreversed, h⟩ := Option.bind_eq_some_iff.1 h
  obtain ⟨reversalOf, -, h⟩ := Option.bind_eq_some_iff.1 h
  cases h
  constructor
  · intro hnull
    obtain rfl : metadata = some .null := hnull
    obtain ⟨m, -, hne, hm⟩ := fieldOr?_eq_some hmetadata
    exact hne (Option.some.inj hm)
  · have hsources : ∀ source, some source ∈ [fields.lookup "timestamp",
        (fields.lookup "debit_conv").bind Conversion.dateSource?,
        (fields.lookup "credit_conv").bind Conversion.dateSource?, fields.lookup "reversed"] →
        source ∈ dateSources d := by
      intro source hsource
      rw [dateSources, hfields]
      exact List.reduceOption_mem_iff.2 hsource
    simp only [times, List.cons_append, List.nil_append, List.forall_mem_cons,
      Option.mem_toList]
    refine ⟨?_, ?_, ?_, ?_⟩
    · obtain ⟨source, hlookup, hread⟩ := Option.bind_eq_some_iff.1 htimestamp
      exact ⟨source, hsources source (by simp [hlookup]), hread⟩
    · obtain ⟨source, hlookup, hread⟩ := Posting.asInstant?_dateSource hdebit
      exact ⟨source, hsources source (by simp [← hlookup, Side.name]), hread⟩
    · obtain ⟨source, hlookup, hread⟩ := Posting.asInstant?_dateSource hcredit
      exact ⟨source, hsources source (by simp [← hlookup, Side.name]), hread⟩
    · rintro t rfl
      obtain ⟨source, hlookup, -, hread⟩ := fieldOr?_eq_some hreversed
      exact ⟨source, hsources source (by simp [hlookup]), hread⟩

/-! ## Round trips -/

/-- What an entry is read back as, in whatever form its document leaves the program. -/
structure ReadsBackAs (e back : Entry) : Prop where
  document : ofDocument? e.toDocument = some back
  text : (∀ m ∈ e.metadata, m.isDateless) → ofDocument? e.toDocument.extended = some back
  store : (∀ m ∈ e.metadata, m.isUnmarked ∧ m.isStorable) →
    ∃ stored, e.throughStore = .ok stored ∧ ofDocument? stored.toDocument = some back

theorem readsBackAs_kept {e : Entry} (htimes : ∀ t ∈ e.times, t.InCalendar) :
    e.ReadsBackAs e.kept where
  document := ofDocument?_form faithful_id htimes fun _ _ => rfl
  text hdateless := ofDocument?_form faithful_extended htimes fun m hm =>
    extended_of_hasOnly _ m (hdateless m hm)
  store hplain :=
    ⟨e, throughStore_of_isUnmarked hplain, ofDocument?_form faithful_id htimes fun _ _ => rfl⟩

theorem kept_eq_unsignedZeros {e : Entry} (hwhole : ∀ t ∈ e.times, t.IsWhole)
    (hmetadata : e.metadata ≠ some .null) : e.kept = e.unsignedZeros := by
  have hfilter : (e.metadata.filter fun m => !m.isNull) = e.metadata := by
    cases h : e.metadata with
    | none => rfl
    | some m =>
        have hnull : m.isNull = false := by
          cases m with
          | null => exact absurd h hmetadata
          | _ => rfl
        rw [Option.filter_some, hnull]
        rfl
  rw [kept, floored_of_isWhole hwhole, hfilter]
  rfl

def figures (e : Entry) : List Decimal :=
  [e.debit, e.credit].flatMap fun p => p.amount :: Currency.all.map p.conversion.amounts.get

theorem unsignedZeros_of_figures {e : Entry} (h : ∀ a ∈ e.figures, a.negative → ¬ a.isZero) :
    e.unsignedZeros = e := by
  have hsame : ∀ a ∈ e.figures, a.unsignedZero = a :=
    fun a ha => Decimal.unsignedZero_of_negative (h a ha)
  have hposting : ∀ p ∈ [e.debit, e.credit], p.unsignedZeros = p := by
    intro p hp
    have hfigure : ∀ a ∈ p.amount :: Currency.all.map p.conversion.amounts.get,
        a.unsignedZero = a := fun a ha => hsame a (List.mem_flatMap.2 ⟨p, hp, ha⟩)
    have hamounts : p.conversion.amounts.map Decimal.unsignedZero = p.conversion.amounts := by
      refine PerCurrency.ext_get fun c => ?_
      rw [PerCurrency.get_map]
      exact hfigure _ (List.mem_cons_of_mem _ (List.mem_map_of_mem (Currency.mem_all c)))
    simp only [Posting.unsignedZeros, Conversion.unsignedZeros, hamounts,
      hfigure p.amount List.mem_cons_self]
  simp only [unsignedZeros, hposting e.debit (by simp), hposting e.credit (by simp)]

/--
Every entry is read back with its times floored, its null metadata gone and its zeros unsigned. So
an entry with whole times is itself but for the signs of its zeros, and so is, when it is written
and read once more, every entry that was read from a document with dates in the calendar.
-/
theorem round_trip :
    (∀ e : Entry, (∀ t ∈ e.times, t.InCalendar) → e.ReadsBackAs e.kept) ∧
    (∀ e : Entry, (∀ t ∈ e.times, t.InCalendar ∧ t.IsWhole) → e.metadata ≠ some .null →
      e.ReadsBackAs e.unsignedZeros) ∧
    (∀ d e, ofDocument? d = some e →
      (∀ source ∈ dateSources d, ∀ millis ∈ source.asMillis?,
        (Instant.ofMillis millis).InCalendar) → e.ReadsBackAs e.unsignedZeros) ∧
    (∀ a : Decimal, a.unsignedZero.value = a.value ∧ a.unsignedZero.scale = a.scale) ∧
    ∀ e : Entry, (∀ a ∈ e.figures, a.negative → ¬ a.isZero) → e.unsignedZeros = e := by
  have hwhole : ∀ e : Entry, (∀ t ∈ e.times, t.InCalendar ∧ t.IsWhole) →
      e.metadata ≠ some .null → e.ReadsBackAs e.unsignedZeros := by
    intro e htimes hmetadata
    rw [← kept_eq_unsignedZeros (fun t ht => (htimes t ht).2) hmetadata]
    exact readsBackAs_kept fun t ht => (htimes t ht).1
  refine ⟨fun e => readsBackAs_kept, hwhole, ?_, fun a => ⟨a.value_unsignedZero, a.scale_unsignedZero⟩,
    fun e => unsignedZeros_of_figures⟩
  intro d e hread hdates
  obtain ⟨hmetadata, hsources⟩ := asInstant?_dateSources hread
  refine hwhole e (fun t ht => ?_) hmetadata
  obtain ⟨source, hsource, hinstant⟩ := hsources t ht
  exact ⟨inCalendar_of_asInstant? hinstant, isWhole_of_asInstant? hinstant (hdates source hsource)⟩

/-- A deposit between two milliseconds, cancelled just before 1970, with a signed zero. -/
private def oddDeposit : Entry :=
  { sampleDeposit with
    timestamp := ⟨1234567⟩
    debit := { sampleDeposit.debit with amount := Decimal.zero.neg }
    metadata := some .null
    reversed := some ⟨-1⟩ }

/-- The same deposit as other programs may write it. -/
private def foreignDocument : Document :=
  .record
    [("version", .integer 2), ("reversed", .null),
     ("timestamp", .record [("$date", .text "2025-03-01T12:00:00.5Z")]),
     ("group_id", .text "deposit"), ("short_id", .text ""), ("ledger_type", .text "deposit"),
     ("debit_amount", .text "-0"), ("debit_unit", .text "HIVE"),
     ("debit_conv", sampleDeposit.debit.conversion.toDocument),
     ("credit_amount", .integer 10), ("credit_unit", .text "HIVE"),
     ("credit_conv", sampleDeposit.credit.conversion.toDocument),
     ("metadata", .record [("block", .integer 123)])]

theorem round_trip_odd :
    (∃ stored back, oddDeposit.throughStore = .ok stored ∧
      ofDocument? stored.toDocument = some back ∧ back.timestamp = ⟨1000000⟩ ∧
      back.reversed = some ⟨-1000000⟩ ∧ back.metadata.isNone ∧ back.debit.amount = .zero) ∧
    ∃ read, ofDocument? foreignDocument = some read ∧ read.timestamp = ⟨1740830400500000000⟩ ∧
      ofDocument? read.toDocument.extended = some read.unsignedZeros := by
  constructor
  · have htimes : ∀ t ∈ oddDeposit.times, t.InCalendar := by decide +kernel
    have hplain : ∀ m ∈ oddDeposit.metadata, m.isUnmarked ∧ m.isStorable := by decide
    obtain ⟨stored, hstored, hback⟩ := (round_trip.1 oddDeposit htimes).store hplain
    exact ⟨stored, oddDeposit.kept, hstored, hback, rfl, rfl, rfl, rfl⟩
  · have hread : ((ofDocument? foreignDocument).any fun e =>
        e.timestamp == ⟨1740830400500000000⟩ && e.metadata.all isDateless) = true := by
      decide +kernel
    have hdates : ∀ source ∈ dateSources foreignDocument, ∀ millis ∈ source.asMillis?,
        (Instant.ofMillis millis).InCalendar := by
      decide +kernel
    obtain ⟨read, hsome, hvalues⟩ := (Option.any_eq_true _ _).1 hread
    rw [Bool.and_eq_true, beq_iff_eq] at hvalues
    obtain ⟨htimestamp, hdateless⟩ := hvalues
    have hback := round_trip.2.2.1 foreignDocument read hsome hdates
    exact ⟨read, hsome, htimestamp, hback.text ((Option.all_eq_true _ _).1 hdateless)⟩

end Entry

end DoubleEntry
