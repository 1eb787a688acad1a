import DoubleEntry.Entry.Codec

/-!
# Entry queries

A query narrows a scan of entries by time, account, customer and category.
`accepts` evaluates it on an entry; `toFilter` writes it as the filter document
that a document store evaluates on stored forms.
-/

namespace DoubleEntry

structure EntryQuery where
  /-- Inclusive lower bound of the timestamp. -/
  notBefore : Option Instant
  /-- Inclusive upper bound of the timestamp. -/
  notAfter : Option Instant
  includeReversed : Bool
  account : Option AccountFilter
  custId : Option String
  /-- Empty for every category. -/
  categories : List Category
deriving DecidableEq, Repr

namespace EntryQuery

def live : EntryQuery :=
  { notBefore := none
    notAfter := none
    includeReversed := false
    account := none
    custId := none
    categories := [] }

def upTo (last : Instant) : EntryQuery :=
  { live with notAfter := some last }

/-- Live entries up to `asOf`, reaching back `age` when it is given. -/
def window (asOf : Instant) (age : Option Span) : Calc EntryQuery := do
  match age with
  | none => return upTo asOf
  | some age =>
    let start ← asOf.minus age
    return { upTo asOf with notBefore := some start }

def matchesTime (q : EntryQuery) (t : Instant) : Bool :=
  (match q.notBefore with
    | some first => decide (first ≤ t)
    | none => true) &&
  match q.notAfter with
    | some last => decide (t ≤ last)
    | none => true

/-- Whether either side's account is selected. -/
def matchesAccount (q : EntryQuery) (e : Entry) : Bool :=
  match q.account with
  | none => true
  | some filter => e.debit.account.any filter.accepts || e.credit.account.any filter.accepts

def accepts (q : EntryQuery) (e : Entry) : Bool :=
  (q.includeReversed || !e.isReversed) &&
  q.matchesTime e.timestamp &&
  (match q.custId with
    | some custId => e.custId == custId
    | none => true) &&
  (q.categories.isEmpty || q.categories.contains e.category) &&
  q.matchesAccount e

/-! ## As a filter document -/

/-- The bounds of the timestamp, in milliseconds. -/
def timeRange (q : EntryQuery) : List (String × Document) :=
  (q.notBefore.toList.map fun t => ("$gte", .ofInstant t)) ++
    q.notAfter.toList.map fun t => ("$lte", .ofInstant t)

def sideFilter (filter : AccountFilter) (side : Side) : Document :=
  .record <|
    [(side.name ++ ".account_type", .text filter.type.name),
     (side.name ++ ".name", .text filter.name)] ++
    filter.sub.toList.map fun sub => (side.name ++ ".sub", .text sub)

/-- The conditions that a stored entry has to meet, all of them. -/
def toFilter (q : EntryQuery) : Document :=
  .record <|
    (if q.timeRange.isEmpty then [] else [("timestamp", .record q.timeRange)]) ++
    (if q.includeReversed then [] else [("reversed", .null)]) ++
    (q.custId.toList.map fun custId => ("cust_id", .text custId)) ++
    (if q.categories.isEmpty then []
     else
       [("ledger_type",
         .record [("$in", .list (q.categories.map fun c => .text c.code))])]) ++
    (q.account.toList.map fun filter =>
      ("$or", .list [sideFilter filter .debit, sideFilter filter .credit]))

end EntryQuery

end DoubleEntry
