import DoubleEntry.Entry.Basic

/-!
# Spot rates

Dollars per unit, read off a single conversion: that of the newest entry's debit
side. A currency in which the conversion is zero has no rate.
-/

namespace DoubleEntry

structure SpotRates where
  hiveUsd : Decimal
  hbdUsd : Decimal
  btcUsd : Decimal
  satsUsd : Decimal
  msatsUsd : Decimal
deriving BEq, Repr

namespace SpotRates

def none : SpotRates :=
  ⟨.zero, .zero, .zero, .zero, .zero⟩

/-- Dollars for each of so many units, zero when there are none. -/
def ratio (usd units : Decimal) : Calc Decimal :=
  if units.isZero then pure .zero else usd.div units

def ofAmounts (a : Amounts) : Calc SpotRates := do
  let hiveUsd ← ratio a.usd a.hive
  let hbdUsd ← ratio a.usd a.hbd
  let btcUsd ← ratio a.usd a.btc
  let satsUsd ← ratio a.usd a.sats
  let msatsUsd ← ratio a.usd a.msats
  return ⟨hiveUsd, hbdUsd, btcUsd, satsUsd, msatsUsd⟩

/-- The newest of some entries; of several at one time the last. -/
def newest? (entries : List Entry) : Option Entry :=
  entries.foldl
    (fun best e =>
      match best with
      | .none => some e
      | some b => if b.timestamp ≤ e.timestamp then some e else some b)
    .none

def latest (entries : List Entry) : Calc SpotRates :=
  match newest? entries with
  | .none => pure none
  | some e => ofAmounts e.debit.conversion.amounts

/-- Dollars per unit of a currency; a dollar is a dollar. -/
def usdPer (r : SpotRates) : Currency → Decimal
  | .usd => .one
  | .hive => r.hiveUsd
  | .hbd => r.hbdUsd
  | .btc => r.btcUsd
  | .sats => r.satsUsd
  | .msats => r.msatsUsd

def usdOf (r : SpotRates) (held : Holdings) : Calc Decimal :=
  Decimal.sumOf (fun (c, amount) => amount.mul (r.usdPer c)) held.entries

end SpotRates

end DoubleEntry
