import DoubleEntry.Decimal.Basic

/-!
# Currencies and tables by currency

Six currencies, in a fixed order, and `PerCurrency`, a table with one place for
each. Conversions, tolerances and balances are such tables.
-/

namespace DoubleEntry

/-- What an amount can be denominated in; a satoshi is 1000 millisatoshis. -/
inductive Currency where
  | hive
  | hbd
  | usd
  | btc
  | sats
  | msats
deriving DecidableEq, Repr

namespace Currency

def all : List Currency :=
  [.hive, .hbd, .usd, .btc, .sats, .msats]

/-- The currencies that a statement converts into, in the order of its summary. -/
def displayed : List Currency :=
  [.sats, .hive, .hbd, .usd, .msats]

def code : Currency → String
  | .hive => "HIVE"
  | .hbd => "HBD"
  | .usd => "USD"
  | .btc => "BTC"
  | .sats => "SATS"
  | .msats => "MSATS"

def ofCode? (code : String) : Option Currency :=
  all.find? fun c => c.code == code

/-- Fraction digits of a printed amount. -/
def places : Currency → Nat
  | .hive | .hbd => 3
  | .usd => 2
  | .btc => 8
  | .sats | .msats => 0

theorem mem_all (c : Currency) : c ∈ all := by
  cases c <;> decide

theorem ofCode?_code (c : Currency) : ofCode? c.code = some c := by
  cases c <;> decide

end Currency

structure PerCurrency (α : Type u) where
  hive : α
  hbd : α
  usd : α
  btc : α
  sats : α
  msats : α
deriving DecidableEq, BEq, Repr

namespace PerCurrency

def get (table : PerCurrency α) : Currency → α
  | .hive => table.hive
  | .hbd => table.hbd
  | .usd => table.usd
  | .btc => table.btc
  | .sats => table.sats
  | .msats => table.msats

def ofFn (f : Currency → α) : PerCurrency α :=
  ⟨f .hive, f .hbd, f .usd, f .btc, f .sats, f .msats⟩

@[simp] theorem get_ofFn (f : Currency → α) (c : Currency) : (ofFn f).get c = f c := by
  cases c <;> rfl

theorem ext_get {a b : PerCurrency α} (h : ∀ c, a.get c = b.get c) : a = b := by
  cases a
  cases b
  simp only [mk.injEq]
  exact ⟨h .hive, h .hbd, h .usd, h .btc, h .sats, h .msats⟩

def set (table : PerCurrency α) (c : Currency) (x : α) : PerCurrency α :=
  ofFn fun d => if d = c then x else table.get d

@[simp] theorem get_set_self (table : PerCurrency α) (c : Currency) (x : α) :
    (table.set c x).get c = x := by
  simp [set]

theorem get_set_of_ne (table : PerCurrency α) {c d : Currency} (x : α) (h : d ≠ c) :
    (table.set c x).get d = table.get d := by
  simp [set, h]

def map (f : α → β) (table : PerCurrency α) : PerCurrency β :=
  ofFn fun c => f (table.get c)

@[simp] theorem get_map (f : α → β) (table : PerCurrency α) (c : Currency) :
    (table.map f).get c = f (table.get c) := by
  simp [map]

/-- Fill a table place by place, in order. -/
def build [Monad m] (f : Currency → m α) : m (PerCurrency α) := do
  let hive ← f .hive
  let hbd ← f .hbd
  let usd ← f .usd
  let btc ← f .btc
  let sats ← f .sats
  let msats ← f .msats
  return ⟨hive, hbd, usd, btc, sats, msats⟩

def toList (table : PerCurrency α) : List (Currency × α) :=
  Currency.all.map fun c => (c, table.get c)

end PerCurrency

end DoubleEntry
