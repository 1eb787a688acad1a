/-!
# Whole numbers in text

An optional sign and ASCII digits, nothing else, within the range of a signed
word.
-/

namespace DoubleEntry

namespace Text

def digitsValue? (cs : List Char) : Option Nat :=
  if cs.isEmpty then none
  else if cs.all Char.isDigit then
    some (cs.foldl (fun n c => n * 10 + (c.toNat - '0'.toNat)) 0)
  else none

/-- A whole number of any size, with one sign at most. -/
def whole? : List Char → Option Int
  | '-' :: rest => (digitsValue? rest).map fun n => -(n : Int)
  | '+' :: rest => (digitsValue? rest).map fun n => (n : Int)
  | cs => (digitsValue? cs).map fun n => (n : Int)

def wholeWithin? (bound : Int) (text : String) : Option Int :=
  (whole? text.toList).bind fun n => if -bound ≤ n ∧ n < bound then some n else none

def whole64? (text : String) : Option Int :=
  wholeWithin? 0x8000000000000000 text

def whole32? (text : String) : Option Int :=
  wholeWithin? 0x80000000 text

end Text

end DoubleEntry
