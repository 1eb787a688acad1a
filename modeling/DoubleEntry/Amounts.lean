import DoubleEntry.Currency
import DoubleEntry.Decimal.Arithmetic

/-!
# Amounts in every currency, and holdings

`Amounts` has a figure in each currency, the same value expressed six ways.
`Holdings` has a figure only in the currencies that were ever held; a figure
that came back to zero is still listed, and an absent one counts as zero.
-/

namespace DoubleEntry

abbrev Amounts := PerCurrency Decimal

namespace Amounts

def zero : Amounts :=
  .ofFn fun _ => .zero

instance : Inhabited Amounts := ⟨zero⟩

def add (a b : Amounts) : Calc Amounts :=
  PerCurrency.build fun c => (a.get c).add (b.get c)

/-- Every sign turned, on zeros too. -/
def neg (a : Amounts) : Amounts :=
  a.map Decimal.neg

/-- Adding the opposite. -/
def sub (a b : Amounts) : Calc Amounts :=
  add a (neg b)

def scale (factor : Decimal) (a : Amounts) : Calc Amounts :=
  PerCurrency.build fun c => (a.get c).mul factor

def isZero (a : Amounts) : Bool :=
  Currency.all.all fun c => (a.get c).isZero

end Amounts

/-- A figure in each currency that was held. -/
abbrev Holdings := PerCurrency (Option Decimal)

namespace Holdings

def empty : Holdings :=
  .ofFn fun _ => none

instance : Inhabited Holdings := ⟨empty⟩

/-- The figure in a currency, zero when it was never held. -/
def amount (h : Holdings) (c : Currency) : Decimal :=
  (h.get c).getD .zero

def entries (h : Holdings) : List (Currency × Decimal) :=
  h.toList.filterMap fun (c, figure?) => figure?.map (c, ·)

def isEmpty (h : Holdings) : Bool :=
  h.entries.isEmpty

/-- Add `x` to one currency, which is held from then on. -/
def addTo (h : Holdings) (c : Currency) (x : Decimal) : Calc Holdings := do
  let total ← (h.amount c).add x
  return h.set c (some total)

/-- Add every figure of `more`, multiplied by `factor`. -/
def merge (h more : Holdings) (factor : Decimal) : Calc Holdings :=
  more.entries.foldlM (fun total (c, x) => do total.addTo c (← x.mul factor)) h

end Holdings

end DoubleEntry
