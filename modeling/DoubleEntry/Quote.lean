import DoubleEntry.Currency
import DoubleEntry.Decimal.Division
import DoubleEntry.Error
import DoubleEntry.Time.Instant

/-!
# Quotes

A quote is one fetch of market rates. It can be used when it reports no error
and the three rates that conversions divide by are positive.
-/

namespace DoubleEntry

/-- Dollars per unit of three currencies, as fetched at one time. -/
structure Quote where
  hiveUsd : Decimal
  hbdUsd : Decimal
  btcUsd : Decimal
  hiveHbd : Decimal
  fetchDate : Instant
  source : String
  error : Option String
deriving DecidableEq, BEq, Repr

def satsPerBtc : Decimal := .ofNat 100000000

def msatsPerSat : Decimal := .ofNat 1000

def msatsPerBtc : Decimal := .ofNat 100000000000

namespace Quote

/-- The rates that must be positive, with their names, in the order they are checked. -/
def dividingRates (q : Quote) : List (String × Decimal) :=
  [("hive_usd", q.hiveUsd), ("hbd_usd", q.hbdUsd), ("btc_usd", q.btcUsd)]

/-- What is wrong with a quote, if anything; a reported error comes first. -/
def problem? (q : Quote) : Option BadQuote :=
  match q.error with
  | some error => some (.reportedError q.source error)
  | none =>
    (q.dividingRates.find? fun (_, rate) => decide (rate ≤ Decimal.zero)).map
      fun (name, rate) => .nonPositive q.source name rate

def validate (q : Quote) : Except LedgerError Unit :=
  match q.problem? with
  | some cause => .error (.quote cause)
  | none => .ok ()

/-- Dollars per unit of a currency. -/
def usdPer (q : Quote) : Currency → Calc Decimal
  | .hive => pure q.hiveUsd
  | .hbd => pure q.hbdUsd
  | .usd => pure .one
  | .btc => pure q.btcUsd
  | .sats => q.btcUsd.div satsPerBtc
  | .msats => q.btcUsd.div msatsPerBtc

/-- Satoshis per HIVE, to four places; zero when bitcoin has no rate. -/
def satsPerHive (q : Quote) : Calc Decimal :=
  if q.btcUsd.isZero then pure .zero
  else do
    let btcPerHive ← q.hiveUsd.div q.btcUsd
    let sats ← btcPerHive.mul satsPerBtc
    return sats.roundTo 4

def age (q : Quote) (now : Instant) : Span :=
  now.since q.fetchDate

end Quote

end DoubleEntry
