import DoubleEntry.Document.Basic
import DoubleEntry.Document.RealReader
import DoubleEntry.Document.WideDecimal
import DoubleEntry.Text.Coded
import DoubleEntry.Time.Stamp
import DoubleEntry.Time.StampReader

/-!
# Stored values

What a store keeps of a document. A store has values that plain documents lack;
text spells each of them as a record with a reserved name, such as
`{"$oid": "507f1f77bcf86cd799439011"}`. `ofDocument` takes such records for the
values they spell, a record that is not spelled well for itself. `spelled?` goes
back, with one spelling for every value, so a record may come back changed.
-/

namespace DoubleEntry

inductive StoredValue where
  | null
  | bool (b : Bool)
  | int32 (n : Int)
  | int64 (n : Int)
  /-- A binary fraction; none when it is infinite or not a number. -/
  | double (x : Option ShortReal)
  | text (s : String)
  /-- Milliseconds since the epoch. -/
  | date (millis : Int)
  /-- Twelve bytes as lower-case hexadecimal digits. -/
  | objectId (digits : String)
  | symbol (s : String)
  | code (s : String)
  | scopedCode (s : String) (scope : List (String × StoredValue))
  | timestamp (seconds order : Nat)
  | pattern (expression options : String)
  | pointer (collection objectId : String)
  /-- Bytes as Base64, and a byte that says what they are as hexadecimal digits. -/
  | binary (kind bytes : String)
  | wideDecimal
  | minKey
  | maxKey
  | undefined
  | list (items : List StoredValue)
  | record (fields : List (String × StoredValue))
deriving Repr

namespace StoredValue

/-! ## Records with reserved names -/

def ofMarkedText? (name s : String) : Option StoredValue :=
  match name with
  | "$oid" => if Text.areHexDigits 24 s.toList then some (objectId (Text.lowerAscii s)) else none
  | "$symbol" => some (symbol s)
  | "$code" => some (code s)
  | "$numberInt" => (Text.whole32? s).map int32
  | "$numberLong" => (Text.whole64? s).map int64
  | "$numberDouble" => (ShortReal.ofText? s).map double
  | "$numberDecimal" => if WideDecimal.isSpelledBy s then some wideDecimal else none
  | "$date" => (Instant.millisOfText? s).map date
  | _ => none

/-- Two unsigned 32-bit words; words of 32 signed bits are taken bit by bit. -/
def timestamp? : Option StoredValue → Option StoredValue → Option StoredValue
  | some (int32 t), some (int32 i) =>
    some (timestamp (t % 0x100000000).toNat (i % 0x100000000).toNat)
  | some (int64 t), some (int64 i) =>
    if 0 ≤ t ∧ 0 ≤ i ∧ t < 0x100000000 ∧ i < 0x100000000 then
      some (timestamp t.toNat i.toNat)
    else none
  | _, _ => none

/-- Options are kept in the order of their characters. -/
def pattern? : Option StoredValue → Option StoredValue → Option StoredValue
  | some (text expression), some (text options) =>
    some (pattern expression (String.ofList (options.toList.mergeSort (· ≤ ·))))
  | _, _ => none

def pointer? : Option StoredValue → Option StoredValue → Option StoredValue
  | some (text collection), some (objectId digits) => some (pointer collection digits)
  | _, _ => none

def binary? (body : List (String × StoredValue)) : Option StoredValue :=
  match body.lookup "base64", body.lookup "subType" with
  | some (text bytes), some (text kind) =>
    if Text.isBase64 bytes.toList && Text.areHexDigits 2 kind.toList then
      some (binary (Text.lowerAscii kind) bytes)
    else none
  | some (text _), _ => none
  | _, some (int32 kind) =>
    match body.lookup "bytes" with
    | some (binary "00" bytes) =>
      if 0 ≤ kind ∧ kind < 256 then some (binary (Text.hexByte kind.toNat) bytes) else none
    | _ => none
  | _, _ => none

/-- The value that a record stands for under a reserved name, whatever else is in it. -/
def ofMarkedRecord? (name : String) (body : List (String × StoredValue)) : Option StoredValue :=
  match name with
  | "$timestamp" => timestamp? (body.lookup "t") (body.lookup "i")
  | "$regularExpression" => pattern? (body.lookup "pattern") (body.lookup "options")
  | "$dbPointer" => pointer? (body.lookup "$ref") (body.lookup "$id")
  | "$binary" => binary? body
  | _ => none

def ofMarkedValue? (name : String) (x : StoredValue) : Option StoredValue :=
  match name, x with
  | "$date", int64 millis => some (date millis)
  | "$minKey", int32 1 | "$minKey", int64 1 => some minKey
  | "$maxKey", int32 1 | "$maxKey", int64 1 => some maxKey
  | "$undefined", bool true => some undefined
  | _, _ => none

def ofMarks? : List (String × StoredValue) → Option StoredValue
  | [(name, text s)] => ofMarkedText? name s
  | [(name, record body)] => ofMarkedRecord? name body
  | [(name, x)] => ofMarkedValue? name x
  | [(name, text s), (other, record scope)] =>
    if name = "$code" ∧ other = "$scope" then some (scopedCode s scope) else none
  | [(name, record scope), (other, text s)] =>
    if name = "$scope" ∧ other = "$code" then some (scopedCode s scope) else none
  | _ => none

def ofFields (fields : List (String × StoredValue)) : StoredValue :=
  (ofMarks? fields).getD (record fields)

/-! ## Documents -/

mutual

/-- What a store keeps of a document. -/
def ofDocument : Document → StoredValue
  | .null => null
  | .bool b => bool b
  | .integer n => int64 n
  | .real x => double (some x)
  | .text s => text s
  | .date millis => date millis
  | .list items => list (ofItems items)
  | .record fields => ofFields (ofNamed fields)

def ofItems : List Document → List StoredValue
  | [] => []
  | d :: rest => ofDocument d :: ofItems rest

def ofNamed : List (String × Document) → List (String × StoredValue)
  | [] => []
  | (name, d) :: rest => (name, ofDocument d) :: ofNamed rest

end

def marked (name : String) (d : Document) : Document :=
  .record [(name, d)]

/-- The first millisecond of the year 10000. -/
def datesAsTextEnd : Int := 253402300800000

/-- A date: as text from 1970 to the year 9999, otherwise as a number. -/
def spelledDate (millis : Int) : Document :=
  if 0 ≤ millis ∧ millis < datesAsTextEnd then
    marked "$date" (.text (Instant.ofMillis millis).rfc3339Fewest)
  else Document.dateRecord millis

mutual

/-- The document that spells a value. Wide decimals and bytes of the plain kind have none. -/
def spelled? : StoredValue → Option Document
  | null => some .null
  | bool b => some (.bool b)
  | int32 n => some (.integer n)
  | int64 n => some (.integer n)
  | double none => some .null
  | double (some x) => some (.real x)
  | text s => some (.text s)
  | date millis => some (spelledDate millis)
  | objectId digits => some (marked "$oid" (.text digits))
  | symbol s => some (marked "$symbol" (.text s))
  | code s => some (marked "$code" (.text s))
  | scopedCode s scope =>
    (spelledFields? scope).map fun fields =>
      .record [("$code", .text s), ("$scope", .record fields)]
  | timestamp seconds order =>
    some (marked "$timestamp" (.record [("t", .integer seconds), ("i", .integer order)]))
  | pattern expression options =>
    some (marked "$regularExpression"
      (.record [("pattern", .text expression), ("options", .text options)]))
  | pointer collection digits =>
    some (marked "$dbPointer"
      (.record [("$ref", .text collection), ("$id", marked "$oid" (.text digits))]))
  | binary kind bytes =>
    if kind = "00" then none
    else some (marked "$binary" (.record [("base64", .text bytes), ("subType", .text kind)]))
  | wideDecimal => none
  | minKey => some (marked "$minKey" (.integer 1))
  | maxKey => some (marked "$maxKey" (.integer 1))
  | undefined => some (marked "$undefined" (.bool true))
  | list items => (spelledItems? items).map .list
  | record fields => (spelledFields? fields).map .record

def spelledItems? : List StoredValue → Option (List Document)
  | [] => some []
  | x :: rest => do
    let d ← spelled? x
    let others ← spelledItems? rest
    return d :: others

def spelledFields? : List (String × StoredValue) → Option (List (String × Document))
  | [] => some []
  | (name, x) :: rest => do
    let d ← spelled? x
    let others ← spelledFields? rest
    return (name, d) :: others

end

end StoredValue

/-- A document as a store gives it back, unless it holds a value that no document spells. -/
def Document.respelled? (d : Document) : Option Document :=
  (StoredValue.ofDocument d).spelled?

end DoubleEntry
