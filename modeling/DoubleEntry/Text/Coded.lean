import DoubleEntry.Text.Blank

/-!
# Bytes in text

Hexadecimal digits, Base64 and UUIDs: which texts spell bytes. Base64 is taken in
its canonical form only, so bytes have one spelling.
-/

namespace DoubleEntry

namespace Text

def isHexDigit (c : Char) : Bool :=
  c.isDigit || ('a' ≤ c && c ≤ 'f') || ('A' ≤ c && c ≤ 'F')

def areHexDigits (count : Nat) (cs : List Char) : Bool :=
  cs.length == count && cs.all isHexDigit

def hexByte (n : Nat) : String :=
  let digits := Nat.toDigits 16 n
  String.ofList (List.replicate (2 - digits.length) '0' ++ digits)

def sextet? (c : Char) : Option Nat :=
  if 'A' ≤ c ∧ c ≤ 'Z' then some (c.toNat - 'A'.toNat)
  else if 'a' ≤ c ∧ c ≤ 'z' then some (c.toNat - 'a'.toNat + 26)
  else if '0' ≤ c ∧ c ≤ '9' then some (c.toNat - '0'.toNat + 52)
  else if c = '+' then some 62
  else if c = '/' then some 63
  else none

/-- Whether a character stands for six bits of which the last `unused` are zero. -/
def isSextet (unused : Nat) (c : Char) : Bool :=
  (sextet? c).any fun n => n % Nat.pow 2 unused == 0

/-- Four characters for every three bytes; the last four are filled up with `=`. -/
def isBase64 : List Char → Bool
  | [] => true
  | [a, b, '=', '='] => isSextet 0 a && isSextet 4 b
  | [a, b, c, '='] => isSextet 0 a && isSextet 0 b && isSextet 2 c
  | a :: b :: c :: d :: rest => [a, b, c, d].all (isSextet 0) && isBase64 rest
  | _ => false

def isHyphenatedUuid (cs : List Char) : Bool :=
  let groups := [cs.take 8, (cs.drop 9).take 4, (cs.drop 14).take 4, (cs.drop 19).take 4,
    cs.drop 24]
  [8, 13, 18, 23].all (fun i => cs[i]? == some '-') &&
    (groups.zip [8, 4, 4, 4, 12]).all fun (group, count) => areHexDigits count group

/-- A UUID: 32 digits, or groups of them, bare, in braces or as a URN in either case. -/
def isUuid (text : String) : Bool :=
  let cs := text.toList
  let braced := cs.head? == some '\x7b' && cs.getLast? == some '\x7d'
  areHexDigits 32 cs || isHyphenatedUuid cs ||
    (braced && isHyphenatedUuid cs.tail.dropLast) ||
    (lowerAscii (String.ofList (cs.take 9)) == "urn:uuid:" && isHyphenatedUuid (cs.drop 9))

end Text

end DoubleEntry
