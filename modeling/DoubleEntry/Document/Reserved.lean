import DoubleEntry.Document.Stored

/-!
# Reserved names in documents

A record with a reserved name spells a value that plain documents lack. A reader
that comes to such a name takes the value and is done: fields before it are read
and dropped, and none may follow. `isReadable` says which documents have every
reserved name used as it should be, and `dateOfFields?` is the date that a
record spells.
-/

namespace DoubleEntry

namespace Document

/-- The names that spell values. -/
def reservedNames : List String :=
  ["$binary", "$code", "$date", "$dbPointer", "$maxKey", "$minKey", "$numberDecimal",
   "$numberDecimalBytes", "$numberDouble", "$numberInt", "$numberLong", "$oid",
   "$regularExpression", "$scope", "$symbol", "$timestamp", "$undefined", "$uuid"]

def isReserved (name : String) : Bool :=
  reservedNames.contains name

def isPlain (fields : List (String × Document)) : Bool :=
  fields.all fun field => !isReserved field.1

/-- The values under exactly these names, in this order; a list has them without the names. -/
def exactFields? (names : List String) : Document → Option (List Document)
  | record fields =>
    if fields.length = names.length then names.mapM fun name => fields.lookup name else none
  | list items => if items.length = names.length then some items else none
  | _ => none

/-! ## Bodies -/

def isBelow (bound n : Int) : Bool :=
  0 ≤ n && n < bound

/-- The milliseconds under the name of a date: a number, a number as text, or RFC 3339. -/
def dateBody? : Document → Option Int
  | integer millis =>
    if -0x8000000000000000 ≤ millis ∧ millis < 0x8000000000000000 then some millis else none
  | text s => Instant.millisOfText? s
  | d =>
    match exactFields? ["$numberLong"] d with
    | some [text s] => Text.whole64? s
    | _ => none

def isTimestampBody (d : Document) : Bool :=
  match exactFields? ["t", "i"] d with
  | some [integer t, integer i] => isBelow 0x100000000 t && isBelow 0x100000000 i
  | _ => false

def isPatternBody (d : Document) : Bool :=
  match exactFields? ["pattern", "options"] d with
  | some [text _, text _] => true
  | _ => false

def isBinaryBody (d : Document) : Bool :=
  match exactFields? ["base64", "subType"] d with
  | some [text bytes, text kind] =>
    Text.isBase64 bytes.toList && Text.areHexDigits 2 kind.toList
  | _ => false

def isPointerBody (d : Document) : Bool :=
  match exactFields? ["$ref", "$id"] d with
  | some [text _, id] =>
    match exactFields? ["$oid"] id with
    | some [text digits] => Text.areHexDigits 24 digits.toList
    | _ => false
  | _ => false

def isDecimalBytesBody : Document → Bool
  | text s => s.utf8ByteSize == 16
  | list items =>
    items.length == 16 && items.all fun
      | integer n => isBelow 256 n
      | _ => false
  | _ => false

/-- Whether a value may stand alone under a reserved name. -/
def isBody (name : String) (d : Document) : Bool :=
  match name, d with
  | "$date", d => (dateBody? d).isSome
  | "$timestamp", d => isTimestampBody d
  | "$regularExpression", d => isPatternBody d
  | "$binary", d => isBinaryBody d
  | "$dbPointer", d => isPointerBody d
  | "$numberDecimalBytes", d => isDecimalBytesBody d
  | "$minKey", integer n | "$maxKey", integer n => n == 1
  | "$undefined", bool b => b
  | "$uuid", text s => Text.isUuid s
  | name, text s => (StoredValue.ofMarkedText? name s).isSome
  | _, _ => false

/-! ## Readable documents -/

mutual

/-- Whether whole numbers fit a signed 64-bit word and reserved names spell values. -/
def isReadable : Document → Bool
  | integer n => n < 0x8000000000000000
  | list items => areReadable items
  | record fields => fieldsReadable fields
  | _ => true

def areReadable : List Document → Bool
  | [] => true
  | d :: rest => isReadable d && areReadable rest

/-- A reserved name ends its record, except that code and its scope go together. -/
def fieldsReadable : List (String × Document) → Bool
  | [] => true
  | (name, d) :: rest =>
    if isReserved name then
      match d, rest with
      | d, [] => isBody name d
      | text _, [(other, record scope)] =>
        name == "$code" && other == "$scope" && isPlain scope && fieldsReadable scope
      | record scope, [(other, text _)] =>
        name == "$scope" && other == "$code" && isPlain scope && fieldsReadable scope
      | _, _ => false
    else isReadable d && fieldsReadable rest

end

/-- The date that a record spells: its last field, behind readable ones. -/
def dateOfFields? : List (String × Document) → Option Int
  | [] => none
  | (name, d) :: rest =>
    if isReserved name then (if name = "$date" ∧ rest.isEmpty then dateBody? d else none)
    else if isReadable d then dateOfFields? rest
    else none

end Document

end DoubleEntry
