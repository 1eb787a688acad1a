import DoubleEntry.Calc
import DoubleEntry.Decimal.Basic

/-!
# Sums, differences and products

Each operation works out the exact result first. A result too long for a
decimal gives up the fewest fraction digits with which it fits and is rounded
once, half to even; one whose whole part is too long overflows. The flag of the
answer says whether its value differs from the exact one.
-/

namespace DoubleEntry

namespace Decimal

/--
The unsigned decimal nearest to `m / 10 ^ s` among those that keep as many of
its `s` fraction digits as fit; none if the whole part does not fit.
-/
def fit? (m s : Nat) : Option Decimal :=
  (List.range (s + 1)).findSome? fun dropped =>
    if s - dropped ≤ 28 then
      ofParts? false (roundHalfEven m (tenTo dropped)) (s - dropped)
    else
      none

def settle (overflow : Fault) (exact : Rat) (fitted : Option Decimal) : Calc Decimal :=
  match fitted with
  | none => .fault overflow
  | some result => .done result (result.value != exact)

/-- The sum of two decimals that are not zero, at the finer of their scales. -/
def alignedSum (overflow : Fault) (a b : Decimal) : Calc Decimal :=
  let scale := max a.scale b.scale
  let total := a.signed * tenTo (scale - a.scale) + b.signed * tenTo (scale - b.scale)
  settle overflow (a.value + b.value)
    ((fit? total.natAbs scale).map (withSign (decide (total < 0))))

/-- Adding a zero gives the other operand as it is, scale and sign included. -/
def add (a b : Decimal) : Calc Decimal :=
  if a.isZero then pure b
  else if b.isZero then pure a
  else alignedSum .additionOverflow a b

/-- Taking a zero away gives the first operand as it is. -/
def sub (a b : Decimal) : Calc Decimal :=
  if a.isZero then pure (if b.isZero then b else b.neg)
  else if b.isZero then pure a
  else alignedSum .subtractionOverflow a b.neg

def areShort (a b : Decimal) : Bool :=
  a.coefficient < 0x100000000 && b.coefficient < 0x100000000

/--
A product with a zero is the plain zero. Of two short factors with more than 47
fraction digits between them nothing is left. Among longer factors a product
that rounds to zero keeps its sign.
-/
def mul (a b : Decimal) : Calc Decimal :=
  if a.isZero || b.isZero then pure zero
  else
    let negative := a.negative != b.negative
    let exact := a.value * b.value
    if areShort a b && 47 < a.scale + b.scale then settle .multiplicationOverflow exact (some zero)
    else
      let magnitude := fit? (a.coefficient * b.coefficient) (a.scale + b.scale)
      settle .multiplicationOverflow exact <|
        magnitude.map fun m => if areShort a b then m.withSign negative else { m with negative }

def sumOf (f : α → Calc Decimal) (xs : List α) : Calc Decimal :=
  xs.foldlM
    (fun total x => do
      let figure ← f x
      total.add figure)
    zero

end Decimal

end DoubleEntry
