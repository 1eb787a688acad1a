import DoubleEntry.Document.Reading
import DoubleEntry.Proofs.Text.Numbers

/-!
# Forms of documents

A document leaves the program as text, without dates, or through a store, which
takes records with reserved names for other values. `Faithful` says what a reader
relies on in a form; `hasOnly` describes the documents that no form changes.
-/

namespace DoubleEntry

namespace Document

def mapFields (form : Document → Document) (fields : List (String × Document)) :
    List (String × Document) :=
  fields.map fun (name, d) => (name, form d)

/-- Plain values stand as they are, and from a date its milliseconds are read. -/
structure Faithful (form : Document → Document) : Prop where
  null : form null = null
  bool : ∀ b, form (bool b) = bool b
  text : ∀ s, form (text s) = text s
  record : ∀ fields, form (record fields) = record (mapFields form fields)
  date : ∀ millis : Int, -0x8000000000000000 ≤ millis ∧ millis < 0x8000000000000000 →
    (form (date millis)).asMillis? = some millis

theorem faithful_id : Faithful id where
  null := rfl
  bool _ := rfl
  text _ := rfl
  record fields := by simp [mapFields]
  date _ _ := rfl

/-! ## Dates as text -/

theorem extendedFields_eq_mapFields (fields : List (String × Document)) :
    extendedFields fields = mapFields extended fields := by
  induction fields with
  | nil => rfl
  | cons field rest ih =>
      rw [extendedFields, ih]
      rfl

theorem asMillis?_dateRecord {millis : Int}
    (h : -0x8000000000000000 ≤ millis ∧ millis < 0x8000000000000000) :
    (dateRecord millis).asMillis? = some millis := by
  have hreserved : isReserved "$date" = true := by decide
  have hfields : exactFields? ["$numberLong"] (.record [("$numberLong", .text (toString millis))]) =
      some [.text (toString millis)] := rfl
  have hbody : dateBody? (.record [("$numberLong", .text (toString millis))]) = some millis := by
    simp only [dateBody?, hfields]
    exact Text.whole64?_toString h
  simp only [dateRecord, asMillis?, dateOfFields?, hreserved, if_true, true_and, List.isEmpty_nil]
  exact hbody

theorem faithful_extended : Faithful extended where
  null := by simp [extended]
  bool _ := by simp [extended]
  text _ := by simp [extended]
  record fields := by rw [extended, extendedFields_eq_mapFields]
  date millis h := by rw [extended, asMillis?_dateRecord h]

/-! ## Documents that no form changes -/

mutual

def hasOnly (allowed : String → Bool) : Document → Bool
  | date _ => false
  | list items => haveOnly allowed items
  | record fields => fieldsHaveOnly allowed fields
  | _ => true

def haveOnly (allowed : String → Bool) : List Document → Bool
  | [] => true
  | d :: rest => hasOnly allowed d && haveOnly allowed rest

def fieldsHaveOnly (allowed : String → Bool) : List (String × Document) → Bool
  | [] => true
  | (name, d) :: rest => allowed name && hasOnly allowed d && fieldsHaveOnly allowed rest

end

def isDateless (d : Document) : Bool :=
  d.hasOnly fun _ => true

/-- A name without the mark of reserved names and of operators. -/
def isUnmarkedName (name : String) : Bool :=
  name.toList.head? != some '$'

/-- A tree without dates in which no name begins like the reserved ones. -/
def isUnmarked (d : Document) : Bool :=
  d.hasOnly isUnmarkedName

mutual

theorem extended_of_hasOnly (allowed : String → Bool) :
    ∀ d : Document, d.hasOnly allowed → d.extended = d
  | null, _ | bool _, _ | integer _, _ | real _, _ | text _, _ => by simp [extended]
  | date _, h => by simp [hasOnly] at h
  | list items, h => by
      rw [hasOnly] at h
      rw [extended, extendedItems_of_haveOnly allowed items h]
  | record fields, h => by
      rw [hasOnly] at h
      rw [extended, extendedFields_of_haveOnly allowed fields h]

theorem extendedItems_of_haveOnly (allowed : String → Bool) :
    ∀ items : List Document, haveOnly allowed items → extendedItems items = items
  | [], _ => rfl
  | d :: rest, h => by
      rw [haveOnly, Bool.and_eq_true] at h
      rw [extendedItems, extended_of_hasOnly allowed d h.1,
        extendedItems_of_haveOnly allowed rest h.2]

theorem extendedFields_of_haveOnly (allowed : String → Bool) :
    ∀ fields : List (String × Document), fieldsHaveOnly allowed fields →
      extendedFields fields = fields
  | [], _ => rfl
  | (name, d) :: rest, h => by
      rw [fieldsHaveOnly, Bool.and_eq_true, Bool.and_eq_true] at h
      rw [extendedFields, extended_of_hasOnly allowed d h.1.2,
        extendedFields_of_haveOnly allowed rest h.2]

end

end Document

namespace StoredValue

open Document

theorem ofMarkedText?_of_unmarked {name : String} (h : isUnmarkedName name) (s : String) :
    ofMarkedText? name s = none := by
  unfold ofMarkedText?
  split <;> first | contradiction | rfl

theorem ofMarkedRecord?_of_unmarked {name : String} (h : isUnmarkedName name)
    (body : List (String × StoredValue)) : ofMarkedRecord? name body = none := by
  unfold ofMarkedRecord?
  split <;> first | contradiction | rfl

theorem ofMarkedValue?_of_unmarked {name : String} (h : isUnmarkedName name) (x : StoredValue) :
    ofMarkedValue? name x = none := by
  unfold ofMarkedValue?
  split <;> first | contradiction | rfl

theorem ofFields_of_unmarked {fields : List (String × StoredValue)}
    (h : ∀ field ∈ fields, isUnmarkedName field.1) : ofFields fields = record fields := by
  have hmarks : ofMarks? fields = none := by
    unfold ofMarks?
    split
    · exact ofMarkedText?_of_unmarked (h _ List.mem_cons_self) _
    · exact ofMarkedRecord?_of_unmarked (h _ List.mem_cons_self) _
    · exact ofMarkedValue?_of_unmarked (h _ List.mem_cons_self) _
    · have hname := h _ List.mem_cons_self
      rw [if_neg]
      rintro ⟨rfl, -⟩
      change isUnmarkedName "$code" = true at hname
      contradiction
    · have hname := h _ List.mem_cons_self
      rw [if_neg]
      rintro ⟨rfl, -⟩
      change isUnmarkedName "$scope" = true at hname
      contradiction
    · rfl
  rw [ofFields, hmarks, Option.getD_none]

theorem isUnmarkedName_of_mem_ofNamed {fields : List (String × Document)}
    (h : fieldsHaveOnly isUnmarkedName fields) :
    ∀ field ∈ ofNamed fields, isUnmarkedName field.1 := by
  induction fields with
  | nil => simp [ofNamed]
  | cons field rest ih =>
      obtain ⟨name, d⟩ := field
      rw [fieldsHaveOnly, Bool.and_eq_true, Bool.and_eq_true] at h
      rw [ofNamed, List.forall_mem_cons]
      exact ⟨h.1.1, ih h.2⟩

mutual

theorem spelled?_ofDocument : ∀ d : Document, d.isUnmarked → (ofDocument d).spelled? = some d
  | .null, _ | .bool _, _ | .integer _, _ | .real _, _ | .text _, _ => by
      simp [ofDocument, spelled?]
  | .date _, h => by simp [isUnmarked, hasOnly] at h
  | .list items, h => by
      rw [isUnmarked, hasOnly] at h
      rw [ofDocument, spelled?, spelledItems?_ofItems items h, Option.map_some]
  | .record fields, h => by
      rw [isUnmarked, hasOnly] at h
      rw [ofDocument, ofFields_of_unmarked (isUnmarkedName_of_mem_ofNamed h), spelled?,
        spelledFields?_ofNamed fields h, Option.map_some]

theorem spelledItems?_ofItems : ∀ items : List Document, haveOnly isUnmarkedName items →
    spelledItems? (ofItems items) = some items
  | [], _ => rfl
  | d :: rest, h => by
      rw [haveOnly, Bool.and_eq_true] at h
      rw [ofItems, spelledItems?, spelled?_ofDocument d h.1, spelledItems?_ofItems rest h.2]
      rfl

theorem spelledFields?_ofNamed : ∀ fields : List (String × Document),
    fieldsHaveOnly isUnmarkedName fields → spelledFields? (ofNamed fields) = some fields
  | [], _ => rfl
  | (name, d) :: rest, h => by
      rw [fieldsHaveOnly, Bool.and_eq_true, Bool.and_eq_true] at h
      rw [ofNamed, spelledFields?, spelled?_ofDocument d h.1.2, spelledFields?_ofNamed rest h.2]
      rfl

end

end StoredValue

theorem Document.respelled?_of_isUnmarked {d : Document} (h : d.isUnmarked) :
    d.respelled? = some d :=
  StoredValue.spelled?_ofDocument d h

end DoubleEntry
