import DoubleEntry.Entry.Codec
import DoubleEntry.Proofs.Document.Forms
import DoubleEntry.Proofs.Entry.Precision

/-!
# Values read back

What a writer of `Document.Values` leaves in a document, the reader beside it
finds again in every faithful form, whatever other fields stand around it. Two
things are lost on the way: a time below the millisecond and the sign of a zero.
-/

namespace DoubleEntry

def Conversion.unsignedZeros (c : Conversion) : Conversion :=
  { c with amounts := c.amounts.map Decimal.unsignedZero }

namespace Document

variable {form : Document → Document}

/-! ## Fields -/

theorem lookup_mapFields (fields : List (String × Document)) (name : String) :
    (mapFields form fields).lookup name = (fields.lookup name).map form := by
  induction fields with
  | nil => rfl
  | cons field rest ih =>
      obtain ⟨other, d⟩ := field
      change List.lookup name ((other, form d) :: mapFields form rest) = _
      rw [List.lookup_cons, List.lookup_cons, ih]
      split <;> rfl

section

variable {fields : List (String × Document)} {name : String} {d : Document}
  {read : Document → Option α} {x : α}

theorem field?_mapFields (hlookup : fields.lookup name = some d) (hread : read (form d) = some x) :
    field? (mapFields form fields) name read = some x := by
  rw [field?, lookup_mapFields, hlookup, Option.map_some, Option.bind_some, hread]

theorem fieldOr?_mapFields (hlookup : fields.lookup name = some d)
    (hread : read (form d) = some x) (missing : α) :
    fieldOr? (mapFields form fields) name read missing = some x := by
  rw [fieldOr?, lookup_mapFields, hlookup, Option.map_some]
  exact hread

theorem asOption?_of_read (hnull : read null = none) (hread : read d = some x) :
    d.asOption? read = some (some x) := by
  unfold asOption?
  split
  · rw [hnull] at hread
    contradiction
  · rw [hread, Option.map_some]

end

/-- A field that is written only when it has a value. -/
theorem fieldOr?_mapFields_optional {fields : List (String × Document)} {name : String}
    {o : Option α} {write : α → Document} {read : Document → Option (Option β)} {f : α → Option β}
    (hlookup : fields.lookup name = o.map write)
    (hread : ∀ x ∈ o, read (form (write x)) = some (f x)) :
    fieldOr? (mapFields form fields) name read none = some (o.bind f) := by
  rw [fieldOr?, lookup_mapFields, hlookup]
  cases o with
  | none => rfl
  | some x => exact hread x rfl

end Document

/-! ## Values in a faithful form -/

section

open Document

variable {form : Document → Document} (hform : Faithful form)

include hform

namespace Document

theorem asText?_form (s : String) : (form (.text s)).asText? = some s := by
  rw [hform.text]
  rfl

theorem asBool?_form (b : Bool) : (form (.bool b)).asBool? = some b := by
  rw [hform.bool]
  rfl

theorem asCurrency?_form (c : Currency) : (form (.text c.code)).asCurrency? = some c := by
  rw [hform.text]
  exact Currency.ofCode?_code c

theorem asCategory?_form (c : Category) : (form (.text c.code)).asCategory? = some c := by
  rw [hform.text]
  exact Category.ofCode?_code c

theorem asAccountType?_form (t : AccountType) : (form (.text t.name)).asAccountType? = some t := by
  rw [hform.text]
  exact AccountType.ofName?_name t

theorem asDecimal?_form (a : Decimal) :
    (form (.ofDecimal a)).asDecimal? = some a.unsignedZero := by
  rw [ofDecimal, hform.text, asDecimal?, Decimal.ofText_text]
  rfl

theorem asInstant?_form {t : Instant} (ht : t.InCalendar) :
    (form (.ofInstant t)).asInstant? = some t.floored := by
  rw [asInstant?, ofInstant, hform.date _ ht.millis_bounds, Option.map_some]
  exact congrArg some (Instant.clamp_of_inCalendar ht.floored)

theorem asOption?_form {write : α → Document} {read : Document → Option α} {o : Option α}
    (hnull : read null = none) (hread : ∀ x ∈ o, read (form (write x)) = some x) :
    (form (.ofOption write o)).asOption? read = some o := by
  cases o with
  | none =>
      rw [ofOption, hform.null]
      rfl
  | some x => exact asOption?_of_read hnull (hread x rfl)

end Document

theorem Account.ofDocument?_form (a : Account) : ofDocument? (form a.toDocument) = some a := by
  rw [toDocument, hform.record]
  simp only [ofDocument?, fields?, Option.bind_eq_bind, Option.bind_some, Option.bind_eq_some_iff]
  exact ⟨_, field?_mapFields rfl (asAccountType?_form hform a.type),
    _, field?_mapFields rfl (asText?_form hform a.name),
    _, fieldOr?_mapFields rfl (asText?_form hform a.sub) "",
    _, fieldOr?_mapFields rfl (asBool?_form hform a.contra) false, rfl⟩

theorem Amounts.ofFields?_form (a : Amounts) (others : List (String × Document)) :
    ofFields? (mapFields form (a.toFields ++ others)) = some (a.map Decimal.unsignedZero) := by
  have hfield : ∀ c : Currency,
      field? (mapFields form (a.toFields ++ others)) c.field asDecimal? =
        some (a.get c).unsignedZero := by
    intro c
    have hlookup : (a.toFields ++ others).lookup c.field = some (.ofDecimal (a.get c)) := by
      cases c <;> rfl
    exact field?_mapFields hlookup (asDecimal?_form hform _)
  simp only [ofFields?, PerCurrency.build, hfield]
  rfl

theorem Conversion.ofDocument?_form {c : Conversion} (hdate : c.fetchDate.InCalendar) :
    ofDocument? (form c.toDocument) = some c.floored.unsignedZeros := by
  rw [toDocument, hform.record]
  simp only [ofDocument?, fields?, Option.bind_eq_bind, Option.bind_some, Option.bind_eq_some_iff]
  exact ⟨_, Amounts.ofFields?_form hform c.amounts _,
    _, field?_mapFields rfl (asInstant?_form hform hdate),
    _, field?_mapFields rfl (asText?_form hform c.source), rfl⟩

end

end DoubleEntry
