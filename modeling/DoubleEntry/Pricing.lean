import DoubleEntry.Entry.Basic
import DoubleEntry.Event

/-!
# Pricing

A pricing holds one quote for a batch of work. It is fetched once, used for
every leg of the batch and refreshed when it has aged. What a provider answers
is a value: a quote, or the error it failed with. Refreshing is work on a desk,
which has the pricing with what was asked and journalled so far; what is held on a
desk survives a failure.
-/

namespace DoubleEntry

/-- Holds a quote that can be used. -/
structure Pricing where
  quote : Quote
deriving DecidableEq, Repr

abbrev QuoteAnswer := Except LedgerError Quote

namespace Pricing

/-- Hold a quote, which is checked first. -/
def ofQuote (q : Quote) : Except LedgerError Pricing := do
  q.validate
  return ⟨q⟩

/-- The first quote of a batch; it is journalled before it is checked. -/
def fetch (answer : QuoteAnswer) : List Event × Except LedgerError Pricing :=
  match answer with
  | .error error => ([], .error error)
  | .ok quote => ([.quoteFetched], ofQuote quote)

def convert (p : Pricing) (amount : Decimal) (currency : Currency) :
    Except LedgerError (Calc Conversion) :=
  Conversion.ofQuote amount currency p.quote

def leg (p : Pricing) (account : Account) (amount : Decimal) (currency : Currency) :
    Except LedgerError (Calc Leg) := do
  let conversion ← p.convert amount currency
  return (fun c => ⟨account, amount, currency, c⟩) <$> conversion

end Pricing

/-! ## Refreshing -/

/-- A provider, by what it answers each time it is asked. -/
abbrev QuoteProvider := Nat → QuoteAnswer

/-- A pricing at work. -/
structure Desk where
  held : Pricing
  /-- How often the provider was asked. -/
  asked : Nat
  /-- Events in the order they happened. -/
  journal : List Event
deriving DecidableEq, Repr

abbrev DeskWork (α : Type) := ExceptT LedgerError (StateM Desk) α

namespace Desk

def opened (p : Pricing) : Desk :=
  ⟨p, 0, []⟩

def run (d : Desk) (work : DeskWork α) : Except LedgerError α × Desk :=
  StateT.run (ExceptT.run work) d

def ask (provider : QuoteProvider) : DeskWork Quote := do
  let d ← get
  set { d with asked := d.asked + 1 }
  match provider d.asked with
  | .ok quote => return quote
  | .error error => throw error

/-- Replace the held quote by a new one, which is checked first. -/
def refresh (provider : QuoteProvider) : DeskWork Unit := do
  let quote ← ask provider
  match quote.validate with
  | .ok () => modify fun d => { d with held := ⟨quote⟩ }
  | .error error => throw error

/-- Refresh a quote older than `maxAge` at `now`; the answer says whether it was. -/
def ensureFresh (provider : QuoteProvider) (maxAge : Span) (now : Instant) : DeskWork Bool := do
  let d ← get
  if d.held.quote.age now ≤ maxAge then
    return false
  try
    refresh provider
  catch error =>
    modify fun d => { d with journal := d.journal ++ [.refreshFailed] }
    throw error
  return true

end Desk

namespace Pricing

/-- One call to refresh a pricing; on an error it is kept. -/
def refresh (p : Pricing) (answer : QuoteAnswer) : Except LedgerError Pricing :=
  match (Desk.opened p).run (Desk.refresh fun _ => answer) with
  | (.ok (), d) => .ok d.held
  | (.error error, _) => .error error

/-- The end of a call that may refresh: events, the answer and the quote held from then on. -/
structure Freshened where
  events : List Event
  answer : Except LedgerError Bool
  held : Pricing

def ensureFresh (p : Pricing) (ask : Unit → QuoteAnswer) (maxAge : Span) (now : Instant) :
    Freshened :=
  let (answer, d) := (Desk.opened p).run (Desk.ensureFresh (fun _ => ask ()) maxAge now)
  ⟨d.journal, answer, d.held⟩

end Pricing

end DoubleEntry
