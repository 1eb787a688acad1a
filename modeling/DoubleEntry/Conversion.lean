import DoubleEntry.Amounts
import DoubleEntry.Quote

/-!
# Conversions

A conversion is one value expressed in every currency at one quote. The currency
in which the value was given keeps the exact amount; the others are worked out
through dollars and rounded.
-/

namespace DoubleEntry

/-- One value in every currency, with the quote's date and source. -/
structure Conversion where
  amounts : Amounts
  fetchDate : Instant
  source : String
deriving DecidableEq, BEq, Repr

namespace Conversion

def zero (fetchDate : Instant) (source : String) : Conversion :=
  ⟨.zero, fetchDate, source⟩

def signed (c : Conversion) (sign : Decimal) : Calc Conversion := do
  return { c with amounts := ← Amounts.scale sign c.amounts }

def roundedPlaces : Currency → Nat
  | .hive | .hbd | .usd => 6
  | .sats => 3
  | .msats => 0
  | .btc => 11

/-- The exact amount in its own currency, and in the sister unit of satoshis. -/
def keepNative (amount : Decimal) (currency : Currency) (converted : Amounts) :
    Calc Amounts :=
  match currency with
  | .sats => do
    let msats ← amount.mul msatsPerSat
    return { converted with sats := amount, msats := msats }
  | .msats => do
    let sats ← amount.div msatsPerSat
    return { converted with msats := amount, sats := sats }
  | currency => pure (converted.set currency amount)

/-- The value of `amount` at a quote that can be used. -/
def priced (amount : Decimal) (currency : Currency) (q : Quote) : Calc Conversion := do
  let rate ← q.usdPer currency
  let usd ← amount.mul rate
  let btc ← usd.div q.btcUsd
  let sats ← btc.mul satsPerBtc
  let hive ← usd.div q.hiveUsd
  let hbd ← usd.div q.hbdUsd
  let msats ← sats.mul msatsPerSat
  let full : Amounts := ⟨hive, hbd, usd, btc, sats, msats⟩
  let rounded := PerCurrency.ofFn fun c => (full.get c).roundTo (roundedPlaces c)
  let amounts ← keepNative amount currency rounded
  return ⟨amounts, q.fetchDate, q.source⟩

/-- The value of `amount` at a quote, which is checked first. -/
def ofQuote (amount : Decimal) (currency : Currency) (q : Quote) :
    Except LedgerError (Calc Conversion) := do
  q.validate
  return priced amount currency q

end Conversion

end DoubleEntry
