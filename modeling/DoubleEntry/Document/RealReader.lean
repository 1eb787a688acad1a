import DoubleEntry.Document.ShortReal
import DoubleEntry.Text.Blank
import DoubleEntry.Text.Whole

/-!
# Reading binary fractions

A sign, digits with or without a point, an exponent of ten; or one of the names
of what is not finite, in any case.
-/

namespace DoubleEntry

namespace ShortReal

def isNotFinite (cs : List Char) : Bool :=
  ["inf", "infinity", "nan"].contains (Text.lowerAscii (String.ofList cs))

def exponent? : List Char → Option Int
  | [] => some 0
  | c :: rest => if c = 'e' ∨ c = 'E' then Text.whole? rest else none

def parts? (cs : List Char) : Option (List Char × List Char × Int) := do
  let whole := cs.takeWhile Char.isDigit
  let rest := cs.dropWhile Char.isDigit
  let pointed := rest.head? == some '.'
  let fraction := if pointed then rest.tail.takeWhile Char.isDigit else []
  let exponent ← exponent? (if pointed then rest.tail.dropWhile Char.isDigit else rest)
  return (whole, fraction, exponent)

/-- A number that is spelled without a sign; none within when no binary fraction is as large. -/
def unsigned? (negative : Bool) (cs : List Char) : Option (Option ShortReal) := do
  let (whole, fraction, exponent) ← parts? cs
  let digits ← Text.digitsValue? (whole ++ fraction)
  return ofScientific? negative digits (exponent - fraction.length)

/-- The number that a text spells; none within when it is not finite. -/
def ofText? (text : String) : Option (Option ShortReal) :=
  let cs := text.toList
  let signed := cs.head? == some '-' || cs.head? == some '+'
  let bare := if signed then cs.tail else cs
  if isNotFinite bare then some none else unsigned? (cs.head? == some '-') bare

end ShortReal

end DoubleEntry
