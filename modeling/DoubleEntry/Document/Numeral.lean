import DoubleEntry.Document.RealReader

/-!
# Numerals of interchange text

A numeral that is no whole number of a word is read in a few steps: its digits as
far as they fit a word of 64 bits, a power of ten, and the product or quotient of
the two. Every step takes the nearest binary fraction, so the number read may miss
the one nearest to the numeral by its last bit.
-/

namespace DoubleEntry

namespace ShortReal

def wordEnd : Nat := 0x10000000000000000

def largestPower : Nat := 308

/-- A word with digits behind it as long as it stays one, and the digits that are left. -/
def takeDigits (word : Nat) : List Char → Nat × List Char
  | [] => (word, [])
  | c :: rest =>
    let longer := word * 10 + (c.toNat - '0'.toNat)
    if longer < wordEnd then takeDigits longer rest else (word, c :: rest)

def rounded? (x : Rat) : Option Rat :=
  let (m, e) := nearest x.num.toNat x.den
  if greatestExponent < e then none else some (scaled m 2 e)

def shifted? (x : Rat) (exponent : Int) : Option Rat := do
  let power ← rounded? (tenTo exponent.natAbs : Nat)
  rounded? (if 0 ≤ exponent then x * power else x / power)

/--
A word times a power of ten. Small powers take two steps, and below the reach of
two nothing of a word is left.
-/
def shiftedWord? (word : Nat) (exponent : Int) : Option Rat := do
  let x ← rounded? word
  if word = 0 ∨ exponent < -2 * largestPower then return 0
  else if largestPower < exponent then none
  else if -largestPower ≤ exponent then shifted? x exponent
  else shifted? (← shifted? x (-largestPower)) (exponent + largestPower)

/--
The number of a numeral, unless it is too large. Digits that the word has no room
for only count for their places, those of the fraction not even for these.
-/
def ofNumeral? (cs : List Char) : Option ShortReal := do
  let negative := cs.head? == some '-'
  let (whole, fraction, exponent) ← parts? (if negative then cs.tail else cs)
  let (word, left) := takeDigits 0 whole
  let (word, dropped) := takeDigits word fraction
  let places : Int := (fraction.length : Int) - dropped.length
  let x ← shiftedWord? word (exponent + left.length - places)
  return ofRatio negative x.num.toNat x.den

end ShortReal

end DoubleEntry
