import DoubleEntry.Document.ShortReal
import DoubleEntry.Time.Instant

/-!
# Documents

A document is a tree of the values that a store keeps: the plain ones of any
interchange text, and dates in whole milliseconds. `extended` writes dates as
plain records, so that a document can leave the store as text. The order of a
record's fields is kept, but equality does not look at it.
-/

namespace DoubleEntry

inductive Document where
  | null
  | bool (b : Bool)
  | integer (n : Int)
  | real (x : ShortReal)
  | text (s : String)
  /-- Milliseconds since the epoch. -/
  | date (millis : Int)
  | list (items : List Document)
  | record (fields : List (String × Document))
deriving Repr

namespace Document

instance : Inhabited Document := ⟨null⟩

/-! ## Equality -/

mutual

/-- Whether two documents are equal; the order of a record's fields does not matter. -/
def same : Document → Document → Bool
  | null, null => true
  | bool a, bool b => a == b
  | integer a, integer b => a == b
  | real a, real b => a == b
  | text a, text b => a == b
  | date a, date b => a == b
  | list xs, list ys => sameItems xs ys
  | record fs, record gs => fs.length == gs.length && sameFields fs gs
  | _, _ => false

def sameItems : List Document → List Document → Bool
  | [], [] => true
  | x :: xs, y :: ys => same x y && sameItems xs ys
  | _, _ => false

def sameFields : List (String × Document) → List (String × Document) → Bool
  | [], _ => true
  | (k, x) :: fs, gs => (gs.lookup k).any (fun y => same x y) && sameFields fs gs

end

instance : BEq Document := ⟨same⟩

/-! ## Numbers -/

def holdsWhole (n : Int) : Bool :=
  -0x8000000000000000 ≤ n && n < 0x10000000000000000

/-! ## What a store can hold -/

mutual

/-- Whether every whole number fits a signed 64-bit word. -/
def isStorable : Document → Bool
  | integer n => n < 0x8000000000000000
  | list items => areStorable items
  | record fields => fieldsStorable fields
  | _ => true

def areStorable : List Document → Bool
  | [] => true
  | x :: xs => isStorable x && areStorable xs

def fieldsStorable : List (String × Document) → Bool
  | [] => true
  | (_, x) :: fs => isStorable x && fieldsStorable fs

end

/-! ## Dates as text -/

def dateRecord (millis : Int) : Document :=
  record [("$date", record [("$numberLong", text (toString millis))])]

mutual

def extended : Document → Document
  | date millis => dateRecord millis
  | list items => list (extendedItems items)
  | record fields => record (extendedFields fields)
  | other => other

def extendedItems : List Document → List Document
  | [] => []
  | x :: xs => extended x :: extendedItems xs

def extendedFields : List (String × Document) → List (String × Document)
  | [] => []
  | (k, x) :: fs => (k, extended x) :: extendedFields fs

end

def ofOption (write : α → Document) : Option α → Document
  | none => null
  | some x => write x

/-- A date, floored to the millisecond. -/
def ofInstant (t : Instant) : Document :=
  date t.millis

end Document

end DoubleEntry
