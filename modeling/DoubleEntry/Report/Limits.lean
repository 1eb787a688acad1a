import DoubleEntry.Store.Session

/-!
# Conversion limits

How much a customer converted between Hive and Lightning in windows that end now.
Reversed conversions do not count.
-/

namespace DoubleEntry

/-- A window that ends now, by its label. -/
structure LimitWindow where
  label : String
  length : Span
deriving DecidableEq, Repr

namespace LimitWindow

def hours (count : Int) : Calc LimitWindow := do
  let length ← Span.ofUnits .hours count
  return ⟨toString count ++ "h", length⟩

def days (count : Int) : Calc LimitWindow := do
  let length ← Span.ofUnits .days count
  return ⟨toString count ++ "d", length⟩

def standard : List LimitWindow :=
  [⟨"4h", .ofMillis (4 * 3600000)⟩,
   ⟨"1d", .ofMillis 86400000⟩,
   ⟨"7d", .ofMillis (7 * 86400000)⟩]

/-- The longest of some windows, and no time at all of none. -/
def longest (windows : List LimitWindow) : Span :=
  match windows with
  | [] => .zero
  | w :: rest => rest.foldl (fun most v => if most ≤ v.length then v.length else most) w.length

end LimitWindow

/-- What was converted in one window. -/
structure WindowUsage where
  label : String
  since : Instant
  conversions : Nat
  msats : Decimal
  usd : Decimal
deriving BEq, Repr

namespace WindowUsage

def empty (label : String) (since : Instant) : WindowUsage :=
  ⟨label, since, 0, .zero, .zero⟩

/-- Count one conversion by the size of its debit side. -/
def add (u : WindowUsage) (e : Entry) : Calc WindowUsage := do
  let msats ← u.msats.add e.debit.conversion.amounts.msats.abs
  let usd ← u.usd.add e.debit.conversion.amounts.usd.abs
  return { u with conversions := u.conversions + 1, msats := msats, usd := usd }

def ofEntries (entries : List Entry) (now : Instant) (window : LimitWindow) :
    Calc WindowUsage := do
  let since ← now.minus window.length
  (entries.filter fun e => since ≤ e.timestamp).foldlM add (empty window.label since)

end WindowUsage

structure ConversionLimits where
  custId : String
  asOf : Instant
  windows : List WindowUsage
deriving BEq, Repr

namespace ConversionLimits

def window? (l : ConversionLimits) (label : String) : Option WindowUsage :=
  l.windows.find? fun w => w.label == label

/-- A customer's conversions as far back as the longest window. -/
def query (custId : String) (now : Instant) (windows : List LimitWindow) : Calc EntryQuery := do
  let widest ← EntryQuery.window now (some (LimitWindow.longest windows))
  return { widest with
    custId := some custId
    categories := Category.all.filter Category.isConversion }

open Operation

def generate (custId : String) (now : Instant) (windows : List LimitWindow) :
    Operation ConversionLimits := do
  let q ← calculate (query custId now windows)
  let entries ← fetchEntries q
  let usages ← calculate (windows.mapM (WindowUsage.ofEntries entries now))
  journal [.usageComputed]
  return ⟨custId, now, usages⟩

end ConversionLimits

end DoubleEntry
