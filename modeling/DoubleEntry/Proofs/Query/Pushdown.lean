import DoubleEntry.Document.Selection
import DoubleEntry.Proofs.Document.Forms
import DoubleEntry.Proofs.Entry.Precision
import DoubleEntry.Proofs.Entry.Twins
import DoubleEntry.Query

/-!
# Queries pushed down

A document store does not evaluate a query, it evaluates the query's filter
document on stored forms. The store is any one that keeps to the rules of
`Selecting`; `Document.selects` is one. Under these rules the two agree, but for
times: a document has whole milliseconds, on both sides of a comparison.
-/

namespace DoubleEntry

namespace Document

/-- The rules of a store that selects documents by filters. Operators have marked names. -/
structure Selecting (select : Document → Document → Bool) : Prop where
  conjoined : ∀ conditions d,
    select (record conditions) d = conditions.all fun c => select (record [c]) d
  bounds : ∀ name operators d, isUnmarkedName name → operators ≠ [] →
    (∀ o ∈ operators, o.1 = "$gte" ∨ o.1 = "$lte") →
    select (record [(name, record operators)]) d =
      operators.all fun o => select (record [(name, record [o])]) d
  notBefore : ∀ name first d, isUnmarkedName name →
    (select (record [(name, record [("$gte", date first)])]) d = true ↔
      ∃ t, d.atPath? (pathOf name) = some (date t) ∧ first ≤ t)
  notAfter : ∀ name last d, isUnmarkedName name →
    (select (record [(name, record [("$lte", date last)])]) d = true ↔
      ∃ t, d.atPath? (pathOf name) = some (date t) ∧ t ≤ last)
  absent : ∀ name d, isUnmarkedName name →
    (select (record [(name, null)]) d = true ↔
      d.atPath? (pathOf name) = none ∨ d.atPath? (pathOf name) = some null)
  equal : ∀ name s d, isUnmarkedName name →
    (select (record [(name, text s)]) d = true ↔ d.atPath? (pathOf name) = some (text s))
  among : ∀ name (words : List String) d, isUnmarkedName name →
    (select (record [(name, record [("$in", list (words.map text))])]) d = true ↔
      ∃ s ∈ words, d.atPath? (pathOf name) = some (text s))
  either : ∀ filters d,
    (select (record [("$or", list filters)]) d = true ↔ ∃ f ∈ filters, select f d = true)

/-! ## The rules hold of `selects` -/

theorem same_null_iff (d : Document) : same null d = true ↔ d = null := by
  cases d <;> simp [same]

theorem same_text_iff (s : String) (d : Document) : same (text s) d = true ↔ d = text s := by
  cases d with
  | text t =>
      simp only [same, beq_iff_eq, text.injEq]
      exact eq_comm
  | _ => simp [same]

theorem same_iff_text (d : Document) (s : String) : same d (text s) = true ↔ d = text s := by
  cases d <;> simp [same]

private theorem allHold_cons (c : String × Document) (conditions : List (String × Document))
    (d : Document) : allHold (c :: conditions) d = (allHold [c] d && allHold conditions d) := by
  obtain ⟨name, condition⟩ := c
  cases condition <;> simp [allHold]

private theorem selects_single {name : String} {condition : Document} (d : Document)
    (h : ∀ filters, condition ≠ list filters) :
    selects (record [(name, condition)]) d = meets (d.atPath? (pathOf name)) condition := by
  cases condition <;> simp_all [selects, allHold]

theorem anySelects_iff (filters : List Document) (d : Document) :
    anySelects filters d = true ↔ ∃ f ∈ filters, selects f d = true := by
  induction filters with
  | nil => simp [anySelects]
  | cons f rest ih => simp [anySelects, ih]

theorem selecting_selects : Selecting selects where
  conjoined conditions d := by
    have hall : allHold conditions d = conditions.all fun c => allHold [c] d := by
      induction conditions with
      | nil => rfl
      | cons c rest ih => rw [allHold_cons, ih, List.all_cons]
    simpa only [selects] using hall
  bounds name operators d _ _ _ := by
    have hmeets : ∀ o : String × Document,
        selects (record [(name, record [o])]) d = meets (d.atPath? (pathOf name)) (record [o]) :=
      fun o => selects_single d (by simp)
    simp only [hmeets]
    rw [selects_single d (by simp)]
    simp [meets]
  notBefore name first d _ := by
    rw [selects_single d (by simp)]
    rcases d.atPath? (pathOf name) with _ | x
    · simp [meets, satisfies]
    · cases x <;> simp [meets, satisfies]
  notAfter name last d _ := by
    rw [selects_single d (by simp)]
    rcases d.atPath? (pathOf name) with _ | x
    · simp [meets, satisfies]
    · cases x <;> simp [meets, satisfies]
  absent name d _ := by
    rw [selects_single d (by simp)]
    cases d.atPath? (pathOf name) <;> simp [meets, same_null_iff]
  equal name s d _ := by
    rw [selects_single d (by simp)]
    cases d.atPath? (pathOf name) <;> simp [meets, same_text_iff]
  among name words d _ := by
    rw [selects_single d (by simp)]
    cases d.atPath? (pathOf name) with
    | none => simp [meets, satisfies]
    | some x => cases x <;> simp [meets, satisfies, same_iff_text]
  either filters d := by
    have hor : selects (record [("$or", list filters)]) d = anySelects filters d := by
      simp [selects, allHold]
    rw [hor, anySelects_iff]

end Document

/-! ## Codes -/

theorem Category.code_injective {a b : Category} (h : a.code = b.code) : a = b := by
  have ha := ofCode?_code a
  rw [h, ofCode?_code] at ha
  exact (Option.some.inj ha).symm

theorem AccountType.name_injective {a b : AccountType} (h : a.name = b.name) : a = b := by
  have ha := ofName?_name a
  rw [h, ofName?_name] at ha
  exact (Option.some.inj ha).symm

/-! ## What stands at the paths of a stored entry -/

namespace Entry

theorem atPath?_timestamp (e : Entry) :
    e.toDocument.atPath? (Document.pathOf "timestamp") = some (.date e.timestamp.millis) := by
  rfl

theorem atPath?_category (e : Entry) :
    e.toDocument.atPath? (Document.pathOf "ledger_type") = some (.text e.category.code) := by
  rfl

theorem atPath?_custId (e : Entry) :
    e.toDocument.atPath? (Document.pathOf "cust_id") = some (.text e.custId) := by
  rfl

theorem atPath?_reversed (e : Entry) :
    e.toDocument.atPath? (Document.pathOf "reversed") = e.reversed.map Document.ofInstant := by
  have hpath : Document.pathOf "reversed" = ["reversed"] := by decide
  obtain ⟨-, hlookup, -⟩ := e.lookup_optional
  rw [hpath, e.toDocument_eq, Document.atPath?, hlookup]
  cases e.reversed <;> rfl

theorem atPath?_side (e : Entry) (side : Side) (rest : List String) :
    e.toDocument.atPath? (side.name :: rest) =
      (Document.ofOption Account.toDocument (e.posting side).account).atPath? rest := by
  cases side <;> rfl

end Entry

/-! ## The parts of a filter -/

namespace EntryQuery

def floored (q : EntryQuery) : EntryQuery :=
  { q with
    notBefore := q.notBefore.map Instant.floored
    notAfter := q.notAfter.map Instant.floored }

def times (q : EntryQuery) : List Instant :=
  q.notBefore.toList ++ q.notAfter.toList

theorem floored_of_isWhole {q : EntryQuery} (h : ∀ t ∈ q.times, t.IsWhole) : q.floored = q := by
  have hmap : ∀ bound : Option Instant, (∀ t ∈ bound, t.IsWhole) →
      bound.map Instant.floored = bound := by
    intro bound hbound
    cases bound with
    | none => rfl
    | some t => rw [Option.map_some, Instant.floored_of_isWhole (hbound t rfl)]
  have hfirst : q.notBefore.map Instant.floored = q.notBefore :=
    hmap _ fun t ht => h t (List.mem_append_left _ (Option.mem_toList.2 ht))
  have hlast : q.notAfter.map Instant.floored = q.notAfter :=
    hmap _ fun t ht => h t (List.mem_append_right _ (Option.mem_toList.2 ht))
  simp only [floored, hfirst, hlast]

section

variable {select : Document → Document → Bool} (hselect : Document.Selecting select)

include hselect

theorem select_notBefore (first : Instant) (e : Entry) :
    select (.record [("timestamp", .record [("$gte", .ofInstant first)])]) e.toDocument =
      decide (first.floored ≤ e.floored.timestamp) := by
  rw [Bool.eq_iff_iff, Document.ofInstant, hselect.notBefore _ _ _ (by decide),
    e.atPath?_timestamp, decide_eq_true_iff, Entry.floored, Instant.floored_le_floored_iff]
  simp

theorem select_notAfter (last : Instant) (e : Entry) :
    select (.record [("timestamp", .record [("$lte", .ofInstant last)])]) e.toDocument =
      decide (e.floored.timestamp ≤ last.floored) := by
  rw [Bool.eq_iff_iff, Document.ofInstant, hselect.notAfter _ _ _ (by decide),
    e.atPath?_timestamp, decide_eq_true_iff, Entry.floored, Instant.floored_le_floored_iff]
  simp

theorem select_timeRange (q : EntryQuery) (e : Entry) :
    ((if q.timeRange.isEmpty then [] else [("timestamp", Document.record q.timeRange)]).all
      fun c => select (.record [c]) e.toDocument) =
      q.floored.matchesTime e.floored.timestamp := by
  have hrange :
      ((if q.timeRange.isEmpty then [] else [("timestamp", Document.record q.timeRange)]).all
        fun c => select (.record [c]) e.toDocument) =
      q.timeRange.all fun o => select (.record [("timestamp", .record [o])]) e.toDocument := by
    by_cases hempty : q.timeRange = []
    · simp [hempty]
    · rw [if_neg (by simpa using hempty), List.all_cons, List.all_nil, Bool.and_true]
      refine hselect.bounds _ _ _ (by decide) hempty ?_
      intro o ho
      rcases List.mem_append.1 ho with ho | ho <;>
        obtain ⟨t, -, rfl⟩ := List.mem_map.1 ho <;> simp
  rw [hrange, timeRange, List.all_append, matchesTime, floored]
  congr 1
  · cases q.notBefore <;> simp [select_notBefore hselect]
  · cases q.notAfter <;> simp [select_notAfter hselect]

theorem select_live (q : EntryQuery) (e : Entry) :
    ((if q.includeReversed then [] else [("reversed", Document.null)]).all
      fun c => select (.record [c]) e.toDocument) =
      (q.includeReversed || !e.floored.isReversed) := by
  cases q.includeReversed with
  | true => rfl
  | false =>
      rw [Bool.eq_iff_iff]
      simp only [Bool.false_eq_true, if_false, List.all_cons, List.all_nil, Bool.and_true,
        Bool.false_or]
      rw [hselect.absent _ _ (by decide), e.atPath?_reversed]
      cases hreversed : e.reversed <;>
        simp [Entry.isReversed, Entry.floored, hreversed, Document.ofInstant]

theorem select_custId (q : EntryQuery) (e : Entry) :
    ((q.custId.toList.map fun custId => ("cust_id", Document.text custId)).all
      fun c => select (.record [c]) e.toDocument) =
      match q.custId with
      | some custId => e.custId == custId
      | none => true := by
  cases q.custId with
  | none => rfl
  | some custId =>
      rw [Bool.eq_iff_iff]
      simp only [Option.toList_some, List.map_cons, List.map_nil, List.all_cons, List.all_nil,
        Bool.and_true]
      rw [hselect.equal _ _ _ (by decide), e.atPath?_custId]
      simp

theorem select_categories (q : EntryQuery) (e : Entry) :
    ((if q.categories.isEmpty then []
      else
        [("ledger_type",
          Document.record [("$in", .list (q.categories.map fun c => .text c.code))])]).all
      fun c => select (.record [c]) e.toDocument) =
      (q.categories.isEmpty || q.categories.contains e.category) := by
  cases q.categories.isEmpty with
  | true => rfl
  | false =>
      have hcodes : (q.categories.map fun c => Document.text c.code) =
          (q.categories.map Category.code).map Document.text := by
        rw [List.map_map]
        rfl
      rw [Bool.eq_iff_iff]
      simp only [Bool.false_eq_true, if_false, List.all_cons, List.all_nil, Bool.and_true,
        Bool.false_or]
      rw [hcodes, hselect.among _ _ _ (by decide), e.atPath?_category]
      simp only [List.mem_map, Option.some.injEq, Document.text.injEq, List.contains_iff_mem]
      constructor
      · rintro ⟨code, ⟨c, hc, rfl⟩, hcode⟩
        rwa [Category.code_injective hcode]
      · intro hc
        exact ⟨_, ⟨_, hc, rfl⟩, rfl⟩

/-- A text is asked of a field of the account on one side, which has to be there. -/
theorem select_accountField (e : Entry) (side : Side) {name : String} (field : String)
    {get : Account → String} (hname : Document.isUnmarkedName name)
    (hpath : Document.pathOf name = [side.name, field])
    (hget : ∀ a : Account, a.toDocument.atPath? [field] = some (.text (get a))) (s : String) :
    select (.record [(name, .text s)]) e.toDocument =
      (e.posting side).account.any fun a => get a == s := by
  rw [Bool.eq_iff_iff, hselect.equal _ _ _ hname, hpath, e.atPath?_side]
  cases (e.posting side).account with
  | none => simp [Document.ofOption, Document.atPath?]
  | some a => simp [Document.ofOption, hget]

theorem select_sideFilter (filter : AccountFilter) (side : Side) (e : Entry) :
    select (sideFilter filter side) e.toDocument =
      (e.posting side).account.any filter.accepts := by
  have htype : ∀ s, select (.record [(side.name ++ ".account_type", .text s)]) e.toDocument =
      (e.posting side).account.any fun a => a.type.name == s :=
    select_accountField hselect e side "account_type" (by cases side <;> decide)
      (by cases side <;> decide) fun _ => rfl
  have hname : ∀ s, select (.record [(side.name ++ ".name", .text s)]) e.toDocument =
      (e.posting side).account.any fun a => a.name == s :=
    select_accountField hselect e side "name" (by cases side <;> decide)
      (by cases side <;> decide) fun _ => rfl
  have hsub : ∀ s, select (.record [(side.name ++ ".sub", .text s)]) e.toDocument =
      (e.posting side).account.any fun a => a.sub == s :=
    select_accountField hselect e side "sub" (by cases side <;> decide)
      (by cases side <;> decide) fun _ => rfl
  have htypes : ∀ a b : AccountType, (a.name == b.name) = (a == b) := by
    intro a b
    rw [Bool.eq_iff_iff, beq_iff_eq, beq_iff_eq]
    exact ⟨AccountType.name_injective, congrArg _⟩
  rw [sideFilter, hselect.conjoined, List.all_append]
  simp only [List.all_cons, List.all_nil, htype, hname, Bool.and_true]
  cases haccount : (e.posting side).account with
  | none => rfl
  | some a =>
      cases hfilter : filter.sub <;>
        simp [AccountFilter.accepts, hfilter, htypes, hsub, haccount, Bool.and_assoc]

theorem select_account (q : EntryQuery) (e : Entry) :
    ((q.account.toList.map fun filter =>
      ("$or", Document.list [sideFilter filter .debit, sideFilter filter .credit])).all
      fun c => select (.record [c]) e.toDocument) = q.matchesAccount e := by
  unfold matchesAccount
  cases q.account with
  | none => rfl
  | some filter =>
      rw [Bool.eq_iff_iff]
      simp only [Option.toList_some, List.map_cons, List.map_nil, List.all_cons, List.all_nil,
        Bool.and_true, Bool.or_eq_true]
      rw [hselect.either]
      simp only [List.mem_cons, List.not_mem_nil, or_false, exists_eq_or_imp, exists_eq_left,
        select_sideFilter hselect]
      rfl

end

/--
A store that keeps to the rules selects by a query's filter the stored forms of the entries that
the query accepts, when the times of both are floored to the millisecond. With whole milliseconds
on both sides it agrees with the query itself.
-/
theorem select_toFilter_iff {select : Document → Document → Bool}
    (hselect : Document.Selecting select) (q : EntryQuery) (e : Entry) :
    (select q.toFilter e.toDocument = true ↔ q.floored.accepts e.floored = true) ∧
      ((∀ t ∈ q.times, t.IsWhole) → (∀ t ∈ e.times, t.IsWhole) →
        (select q.toFilter e.toDocument = true ↔ q.accepts e = true)) := by
  have hfloored : select q.toFilter e.toDocument = q.floored.accepts e.floored := by
    have haccount : q.matchesAccount e = q.floored.matchesAccount e.floored := rfl
    rw [toFilter, hselect.conjoined]
    simp only [List.all_append, select_timeRange hselect, select_live hselect,
      select_custId hselect, select_categories hselect, select_account hselect, haccount, accepts]
    -- The filter asks for the time first, the query for live entries.
    rw [Bool.and_comm (q.floored.matchesTime e.floored.timestamp)]
    rfl
  refine ⟨by rw [hfloored], ?_⟩
  intro hq he
  rw [hfloored, floored_of_isWhole hq, Entry.floored_of_isWhole he]

private def depositsOfAlice (first : Instant) : EntryQuery :=
  { live with
    notBefore := some first
    account := some ⟨.liability, "Customer", some "alice"⟩
    custId := some "alice"
    categories := [.deposit, .withdrawal] }

private def depositAt (t : Instant) : Entry :=
  { Entry.sampleDeposit with timestamp := t }

/-- The bound is later than the entry by part of a millisecond, then earlier by a whole one. -/
theorem select_toFilter_iff_alice :
    Document.Selecting Document.selects ∧
      (depositsOfAlice ⟨1700000⟩).accepts (depositAt ⟨1500000⟩) = false ∧
      Document.selects (depositsOfAlice ⟨1700000⟩).toFilter (depositAt ⟨1500000⟩).toDocument =
        true ∧
      Document.selects (depositsOfAlice ⟨1000000⟩).toFilter (depositAt ⟨2000000⟩).toDocument =
        true := by
  have hselect := Document.selecting_selects
  refine ⟨hselect, by decide, ?_, ?_⟩
  · rw [(select_toFilter_iff hselect _ _).1]
    decide
  · rw [(select_toFilter_iff hselect _ _).2 (by decide +kernel) (by decide +kernel)]
    decide

end EntryQuery

end DoubleEntry
