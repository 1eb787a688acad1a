import DoubleEntry.Amounts

/-!
# Tolerances

The two sides of an entry are often valued at quotes fetched moments apart, so
figures that should be equal are compared within a tolerance.
-/

namespace DoubleEntry

structure Tolerance where
  /-- Relative tolerance between an amount and the other side's conversion. -/
  relative : Decimal
  /-- Absolute tolerance in each currency. -/
  absolute : Amounts
  /-- Largest gap in millisatoshis between the sides of a completed entry. -/
  msatsGap : Decimal
  /-- Relative tolerance of the balance sheet identity. -/
  sheetRelative : Decimal
deriving DecidableEq, BEq, Repr

namespace Tolerance

def standard : Tolerance :=
  { relative := .unitAt 2
    absolute :=
      { hive := .unitAt 3
        hbd := .unitAt 3
        usd := .unitAt 2
        btc := .unitAt 8
        sats := .one
        msats := .ten }
    msatsGap := .ten
    sheetRelative := .unitAt 2 }

instance : Inhabited Tolerance := ⟨standard⟩

end Tolerance

namespace Decimal

/--
Equal, or apart by at most the larger of `absolute` and `relative` times the
larger magnitude.
-/
def isClose (a b relative absolute : Decimal) : Calc Bool :=
  if a == b then pure true
  else do
    let difference ← a.sub b
    let scaled ← relative.mul (a.abs.larger b.abs)
    return decide (difference.abs ≤ scaled.larger absolute)

end Decimal

end DoubleEntry
