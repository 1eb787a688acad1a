import DoubleEntry.Decimal.Reader
import DoubleEntry.Document.Reserved

/-!
# Reading values from documents

Readers answer none when a document does not have the form they expect. A record
may also be a list of its fields in order. Fields that nobody asks for are
ignored; a missing field is refused unless it has a default.
-/

namespace DoubleEntry

namespace Document

def asText? : Document → Option String
  | text s => some s
  | _ => none

def asBool? : Document → Option Bool
  | bool b => some b
  | _ => none

/-- A null is no value; anything else has to be one. -/
def asOption? (read : Document → Option α) : Document → Option (Option α)
  | null => some none
  | d => (read d).map some

/-- Text, or a number by its shortest decimal text. -/
def asDecimal? : Document → Option Decimal
  | text s => (Decimal.ofText s).toOption
  | integer n => (Decimal.ofText (toString n)).toOption
  | real x => (Decimal.ofText x.text).toOption
  | _ => none

/-- A word out of a fixed choice: a text, or the only name of a record with null under it. -/
def asWord? : Document → Option String
  | text s => some s
  | record [(s, null)] => some s
  | _ => none

def asMillis? : Document → Option Int
  | date millis => some millis
  | record fields => dateOfFields? fields
  | _ => none

/-- A date; one outside the calendar is moved to its nearest end. -/
def asInstant? (d : Document) : Option Instant :=
  d.asMillis?.map fun millis => (Instant.ofMillis millis).clamp

/-- The fields of a record whose fields, in order, have these names. -/
def fields? (names : List String) : Document → Option (List (String × Document))
  | record fields => some fields
  | list items => if items.length ≤ names.length then some (names.zip items) else none
  | _ => none

def field? (fields : List (String × Document)) (name : String) (read : Document → Option α) :
    Option α :=
  (fields.lookup name).bind read

def fieldOr? (fields : List (String × Document)) (name : String) (read : Document → Option α)
    (missing : α) : Option α :=
  match fields.lookup name with
  | none => some missing
  | some d => read d

end Document

end DoubleEntry
