import DoubleEntry.Decimal.Places
import DoubleEntry.Decimal.Rounding

/-!
# Shortest decimals of binary fractions

A number of a document that is not a whole one is kept as the decimal with the
fewest digits that reads back as the same 64-bit binary fraction, and of those
the nearest to it, the larger one if two are equally near.
-/

namespace DoubleEntry

/-- `digits * 10 ^ exponent` with its sign, without trailing zeros. -/
structure ShortReal where
  negative : Bool
  digits : Nat
  exponent : Int
deriving DecidableEq, Repr

namespace ShortReal

def scaled (n base : Nat) (e : Int) : Rat :=
  if 0 ≤ e then ((n * Nat.pow base e.toNat : Nat) : Rat) else mkRat n (Nat.pow base (-e).toNat)

/-- Significands have 53 bits, fewer only at the smallest exponent. -/
def leastSignificand : Nat := 0x10000000000000

def leastExponent : Int := -1074

def greatestExponent : Int := 971

/-- The significand and exponent of the binary fraction nearest to `num / den`. -/
def nearest (num den : Nat) : Nat × Int :=
  let guess : Int := (num.log2 : Int) - den.log2 - 52
  let reduced (e : Int) : Nat × Nat :=
    if 0 ≤ e then (num, den * Nat.pow 2 e.toNat) else (num * Nat.pow 2 (-e).toNat, den)
  let fits := decide (leastSignificand ≤ (reduced guess).1 / (reduced guess).2)
  let e := max leastExponent (if fits then guess else guess - 1)
  let m := roundHalfEven (reduced e).1 (reduced e).2
  if m = 2 * leastSignificand then (leastSignificand, e + 1) else (m, e)

def readsBack (m : Nat) (e : Int) (x : Rat) : Bool :=
  let below := if m = leastSignificand ∧ leastExponent < e then 4 * m - 1 else 4 * m - 2
  let low := scaled below 2 (e - 2)
  let high := scaled (4 * m + 2) 2 (e - 2)
  if m % 2 = 0 then low ≤ x && x ≤ high else low < x && x < high

/-- The number of digits before the point of `v`, negative when zeros follow it. -/
def magnitude (v : Rat) : Int :=
  let guess : Int := ((Nat.toDigits 10 v.num.natAbs).length : Int) - (Nat.toDigits 10 v.den).length
  if scaled 1 10 guess ≤ v then guess + 1 else guess

/--
The decimal with `count` digits that reads back and is nearest, if there is one. A fraction
in the middle between two decimals has the upper one.
-/
def withDigits? (m : Nat) (e : Int) (count : Nat) : Option (Nat × Int) :=
  let v := scaled m 2 e
  let place := magnitude v - count
  let below := (v / scaled 1 10 place).floor.toNat
  let gap (n : Nat) : Rat := (v - scaled n 10 place).abs
  match readsBack m e (scaled below 10 place), readsBack m e (scaled (below + 1) 10 place) with
  | true, true =>
    if gap below < gap (below + 1) then some (below, place) else some (below + 1, place)
  | true, false => some (below, place)
  | false, true => some (below + 1, place)
  | false, false => none

def compact (digits : Nat) (exponent : Int) : Nat × Int :=
  if h : 0 < digits ∧ digits % 10 = 0 then compact (digits / 10) (exponent + 1)
  else (digits, exponent)
termination_by digits
decreasing_by omega

/-- The number `num / den`; seventeen digits always read back. -/
def ofRatio (negative : Bool) (num den : Nat) : ShortReal :=
  if num = 0 then ⟨negative, 0, 0⟩
  else
    let (m, e) := nearest num den
    let (digits, exponent) :=
      ((List.range 17).findSome? fun count => withDigits? m e (count + 1)).getD (0, 0)
    let (digits, exponent) := compact digits exponent
    ⟨negative, digits, if digits = 0 then 0 else exponent⟩

def ofScientific? (negative : Bool) (digits : Nat) (exponent : Int) : Option ShortReal :=
  let size : Int := (Nat.toDigits 10 digits).length + exponent
  if digits = 0 ∨ size < -400 then some ⟨negative, 0, 0⟩
  else if 400 < size then none
  else
    let num := digits * tenTo exponent.toNat
    let den := tenTo (-exponent).toNat
    if greatestExponent < (nearest num den).2 then none else some (ofRatio negative num den)

/-- Positional digits, with a point only before a fraction. -/
def text (x : ShortReal) : String :=
  let ds := Nat.toDigits 10 x.digits
  let sign := if x.negative then ['-'] else []
  if 0 ≤ x.exponent then
    String.ofList (sign ++ ds ++ List.replicate x.exponent.toNat '0')
  else
    let places := (-x.exponent).toNat
    let padded := List.replicate (places + 1 - ds.length) '0' ++ ds
    let whole := padded.length - places
    String.ofList (sign ++ padded.take whole ++ '.' :: padded.drop whole)

end ShortReal

end DoubleEntry
