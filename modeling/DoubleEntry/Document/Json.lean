import DoubleEntry.Document.Basic
import DoubleEntry.Document.Numeral
import DoubleEntry.Text.Coded

/-!
# Documents as JSON

`ofJson?` reads the one document that a JSON text holds and `json` writes one. A
number is whole when it is written with digits and at most a minus sign, and
fits; `-0` and every other number is a binary fraction. Of two fields of one name
the later value stays, in the place of the earlier. Dates are written as records.
-/

namespace DoubleEntry

namespace Json

/-! ## Reading -/

def isGap (c : Char) : Bool :=
  c == ' ' || c == '\t' || c == '\n' || c == '\r'

def skipGaps (cs : List Char) : List Char :=
  cs.dropWhile isGap

def hexValue? (cs : List Char) : Option Nat :=
  if Text.areHexDigits cs.length cs then
    some (cs.foldl (fun n c => n * 16 + (if c.isDigit then c.toNat - 48 else c.toNat % 32 + 9)) 0)
  else none

def escape? (c : Char) : Option Nat :=
  if c = '"' ∨ c = '\\' ∨ c = '/' then some c.toNat
  else if c = 'b' then some 8
  else if c = 'f' then some 12
  else if c = 'n' then some 10
  else if c = 'r' then some 13
  else if c = 't' then some 9
  else none

/-- The codes up to the closing quote, and the characters behind it. -/
def codes? : List Char → Option (List Nat × List Char)
  | [] => none
  | '"' :: rest => some ([], rest)
  | '\\' :: 'u' :: a :: b :: c :: d :: rest => do
    let code ← hexValue? [a, b, c, d]
    let (codes, after) ← codes? rest
    return (code :: codes, after)
  | '\\' :: c :: rest => do
    let code ← escape? c
    let (codes, after) ← codes? rest
    return (code :: codes, after)
  | c :: rest => do
    if c = '\\' ∨ c.toNat < 32 then failure
    let (codes, after) ← codes? rest
    return (c.toNat :: codes, after)

/-- Characters of codes; two surrogates in a row are one character, a lone one is refused. -/
def characters? : List Nat → Option (List Char)
  | [] => some []
  | high :: low :: rest =>
    if 0xD800 ≤ high ∧ high < 0xDC00 then
      if 0xDC00 ≤ low ∧ low < 0xE000 then
        (characters? rest).map
          (Char.ofNat (0x10000 + (high - 0xD800) * 0x400 + (low - 0xDC00)) :: ·)
      else none
    else if 0xDC00 ≤ high ∧ high < 0xE000 then none
    else (characters? (low :: rest)).map (Char.ofNat high :: ·)
  | [code] => if 0xD800 ≤ code ∧ code < 0xE000 then none else some [Char.ofNat code]

def text? (cs : List Char) : Option (String × List Char) := do
  let (codes, rest) ← codes? cs
  let found ← characters? codes
  return (String.ofList found, rest)

def isNumeralChar (c : Char) : Bool :=
  c.isDigit || c == '-' || c == '+' || c == '.' || c == 'e' || c == 'E'

/-- Whether a numeral begins with digits, without a needless zero, and has digits behind its
point. -/
def isNumeral (cs : List Char) : Bool :=
  let bare := if cs.head? == some '-' then cs.tail else cs
  let whole := bare.takeWhile Char.isDigit
  let rest := bare.dropWhile Char.isDigit
  !whole.isEmpty && (whole.length == 1 || whole.head? != some '0') &&
    (rest.head? != some '.' || rest.tail.head?.any Char.isDigit)

def number? (cs : List Char) : Option Document :=
  if isNumeral cs then
    match (Text.whole? cs).filter fun n => Document.holdsWhole n && cs != ['-', '0'] with
    | some n => some (.integer n)
    | none => (ShortReal.ofNumeral? cs).map .real
  else none

def scalar? (cs : List Char) : Option (Document × List Char) :=
  if cs.take 4 = "null".toList then some (.null, cs.drop 4)
  else if cs.take 4 = "true".toList then some (.bool true, cs.drop 4)
  else if cs.take 5 = "false".toList then some (.bool false, cs.drop 5)
  else (number? (cs.takeWhile isNumeralChar)).map fun d => (d, cs.dropWhile isNumeralChar)

/-- The field in the place of one of the same name, or behind the others. -/
def put (fields : List (String × Document)) (name : String) (d : Document) :
    List (String × Document) :=
  if (fields.lookup name).isSome then
    fields.map fun field => if field.1 = name then (name, d) else field
  else fields ++ [(name, d)]

mutual

def value? (fuel : Nat) (cs : List Char) : Option (Document × List Char) :=
  match fuel with
  | 0 => none
  | fuel + 1 =>
    match skipGaps cs with
    | '"' :: rest => (text? rest).map fun (s, after) => (.text s, after)
    | '[' :: rest =>
      match skipGaps rest with
      | ']' :: after => some (.list [], after)
      | rest => (items? fuel [] rest).map fun (found, after) => (.list found, after)
    | '\x7b' :: rest =>
      match skipGaps rest with
      | '\x7d' :: after => some (.record [], after)
      | rest => (fields? fuel [] rest).map fun (found, after) => (.record found, after)
    | cs => scalar? cs

/-- The rest of a list behind the values read before, the last of them first. -/
def items? (fuel : Nat) (before : List Document) (cs : List Char) :
    Option (List Document × List Char) :=
  match fuel with
  | 0 => none
  | fuel + 1 => do
    let (d, rest) ← value? fuel cs
    match skipGaps rest with
    | ',' :: rest => items? fuel (d :: before) rest
    | ']' :: after => return ((d :: before).reverse, after)
    | _ => none

def fields? (fuel : Nat) (before : List (String × Document)) (cs : List Char) :
    Option (List (String × Document) × List Char) :=
  match fuel with
  | 0 => none
  | fuel + 1 =>
    match skipGaps cs with
    | '"' :: rest => do
      let (name, rest) ← text? rest
      match skipGaps rest with
      | ':' :: rest =>
        let (d, rest) ← value? fuel rest
        match skipGaps rest with
        | ',' :: rest => fields? fuel (put before name d) rest
        | '\x7d' :: after => return (put before name d, after)
        | _ => none
      | _ => none
    | _ => none

end

/-! ## Writing -/

def hexDigits (count n : Nat) : List Char :=
  let digits := Nat.toDigits 16 n
  List.replicate (count - digits.length) '0' ++ digits

def escaped (c : Char) : List Char :=
  if c = '"' ∨ c = '\\' then ['\\', c]
  else if c.toNat < 32 then '\\' :: 'u' :: hexDigits 4 c.toNat
  else [c]

def quoted (s : String) : String :=
  String.ofList ('"' :: s.toList.flatMap escaped ++ ['"'])

/-- An exponent tells a binary fraction from a whole number. -/
def numeral (x : ShortReal) : String :=
  (if x.negative then "-" else "") ++ toString x.digits ++ "e" ++ toString x.exponent

def bracketed (parts : List String) : String :=
  "[" ++ ",".intercalate parts ++ "]"

def braced (parts : List String) : String :=
  "\x7b" ++ ",".intercalate parts ++ "\x7d"

end Json

namespace Document

/-- The document that a JSON text holds. Every two steps of the reader pass a character. -/
def ofJson? (text : String) : Option Document := do
  let cs := text.toList
  let (d, rest) ← Json.value? (2 * cs.length + 2) cs
  if (Json.skipGaps rest).isEmpty then return d else none

mutual

def json : Document → String
  | null => "null"
  | bool b => if b then "true" else "false"
  | integer n => toString n
  | real x => Json.numeral x
  | text s => Json.quoted s
  | date millis =>
    Json.braced
      ["\"$date\":" ++ Json.braced ["\"$numberLong\":" ++ Json.quoted (toString millis)]]
  | list items => Json.bracketed (jsonItems items)
  | record fields => Json.braced (jsonFields fields)

def jsonItems : List Document → List String
  | [] => []
  | d :: rest => json d :: jsonItems rest

def jsonFields : List (String × Document) → List String
  | [] => []
  | (name, d) :: rest => (Json.quoted name ++ ":" ++ json d) :: jsonFields rest

end

end Document

end DoubleEntry
