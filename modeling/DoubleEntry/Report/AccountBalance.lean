import DoubleEntry.Entry.Basic

/-!
# The statement of an account

Every leg on an account, oldest first, with the running balance in the leg's own
currency, and the balances converted at each leg's own conversion.
-/

namespace DoubleEntry

/-- One leg on the account. -/
structure BalanceLine where
  timestamp : Instant
  groupId : String
  shortId : String
  category : Category
  description : String
  side : Side
  /-- With its own sub-account. -/
  account : Account
  amount : Decimal
  currency : Currency
  amountSigned : Decimal
  convertedSigned : Amounts
  /-- The balance in the line's currency after it. -/
  runningBalance : Decimal
deriving BEq, Repr

structure AccountBalance where
  account : Account
  /-- None for every sub-account of the name. -/
  sub : Option String
  asOf : Instant
  lines : List BalanceLine
  /-- Signed totals by the currency of the lines. -/
  balances : Holdings
  /-- The balance of each of those currencies, converted into every one. -/
  convertedByCurrency : PerCurrency (Option Amounts)
  convertedTotal : Amounts
deriving BEq, Repr

namespace AccountBalance

/-- What a statement has added up so far. -/
structure Running where
  lines : List BalanceLine
  balances : Holdings
  converted : PerCurrency (Option Amounts)
deriving BEq, Repr

namespace Running

def start : Running :=
  ⟨[], .empty, .ofFn fun _ => none⟩

def addLeg (e : Entry) (r : Running) (leg : BookedLeg) : Calc Running := do
  let amountSigned ← leg.amountSigned
  let convertedSigned ← leg.amountsSigned
  let balances ← Holdings.addTo r.balances leg.currency amountSigned
  let converted ← Amounts.add ((r.converted.get leg.currency).getD .zero) convertedSigned
  let line : BalanceLine :=
    { timestamp := e.timestamp
      groupId := e.groupId
      shortId := e.shortId
      category := e.category
      description := e.description
      side := leg.side
      account := leg.account
      amount := leg.amount
      currency := leg.currency
      amountSigned := amountSigned
      convertedSigned := convertedSigned
      runningBalance := Holdings.amount balances leg.currency }
  return ⟨r.lines ++ [line], balances, r.converted.set leg.currency (some converted)⟩

/-- Add the legs of an entry that are on the account. -/
def addEntry (filter : AccountFilter) (r : Running) (e : Entry) : Calc Running :=
  (e.legs.filter fun leg => filter.accepts leg.account).foldlM (addLeg e) r

end Running

/-- The statement of the legs in some entries; `sub` narrows it to a sub-account. -/
def ofEntries (entries : List Entry) (account : Account) (sub : Option String)
    (asOf : Instant) : Calc AccountBalance := do
  let filter := AccountFilter.ofAccount account sub
  let r ← entries.foldlM (Running.addEntry filter) Running.start
  let converted := r.converted.toList.filterMap Prod.snd
  let convertedTotal ← converted.foldlM Amounts.add Amounts.zero
  return {
    account := account
    sub := sub
    asOf := asOf
    lines := r.lines
    balances := r.balances
    convertedByCurrency := r.converted
    convertedTotal := convertedTotal }

def balanceIn (b : AccountBalance) (c : Currency) : Decimal :=
  Holdings.amount b.balances c

def convertedIn (b : AccountBalance) (c : Currency) : Decimal :=
  b.convertedTotal.get c

def currencyConvertedIn (b : AccountBalance) (native shown : Currency) : Decimal :=
  match b.convertedByCurrency.get native with
  | none => .zero
  | some amounts => amounts.get shown

/-- The whole balance in each of the displayed currencies. -/
def convertedSummary (b : AccountBalance) : Holdings :=
  .ofFn fun c => if c ∈ Currency.displayed then some (b.convertedIn c) else none

end AccountBalance

end DoubleEntry
