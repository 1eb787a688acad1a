import DoubleEntry.Conversion
import DoubleEntry.Document.Reading
import DoubleEntry.Tolerance

/-!
# Documents of accounts, conversions, quotes and tolerances

Each value has a writer and a reader. Decimals are written as text, so that
their scale survives, and times as dates.
-/

namespace DoubleEntry

namespace Document

def ofDecimal (a : Decimal) : Document :=
  text a.text

def asCurrency? (d : Document) : Option Currency :=
  d.asWord?.bind Currency.ofCode?

/-- The type of an account is always a text. -/
def asAccountType? : Document → Option AccountType
  | text s => AccountType.ofName? s
  | _ => none

end Document

def Currency.field : Currency → String
  | .hive => "hive"
  | .hbd => "hbd"
  | .usd => "usd"
  | .btc => "btc"
  | .sats => "sats"
  | .msats => "msats"

namespace Amounts

def toFields (a : Amounts) : List (String × Document) :=
  a.toList.map fun (c, x) => (c.field, .ofDecimal x)

def toDocument (a : Amounts) : Document :=
  .record a.toFields

def ofFields? (fields : List (String × Document)) : Option Amounts :=
  PerCurrency.build fun c => Document.field? fields c.field Document.asDecimal?

end Amounts

namespace Account

def fieldNames : List String :=
  ["account_type", "name", "sub", "contra"]

def toDocument (a : Account) : Document :=
  .record
    [("account_type", .text a.type.name), ("name", .text a.name), ("sub", .text a.sub),
     ("contra", .bool a.contra)]

/-- The sub-account is empty and the flag off unless they are there. -/
def ofDocument? (d : Document) : Option Account := do
  let fields ← d.fields? fieldNames
  let type ← Document.field? fields "account_type" Document.asAccountType?
  let name ← Document.field? fields "name" Document.asText?
  let sub ← Document.fieldOr? fields "sub" Document.asText? ""
  let contra ← Document.fieldOr? fields "contra" Document.asBool? false
  return ⟨type, name, sub, contra⟩

end Account

namespace Conversion

def fieldNames : List String :=
  ["hive", "hbd", "usd", "sats", "msats", "btc", "fetch_date", "source"]

def toDocument (c : Conversion) : Document :=
  .record <| c.amounts.toFields ++
    [("fetch_date", .ofInstant c.fetchDate), ("source", .text c.source)]

def ofDocument? (d : Document) : Option Conversion := do
  let fields ← d.fields? fieldNames
  let amounts ← Amounts.ofFields? fields
  let fetchDate ← Document.field? fields "fetch_date" Document.asInstant?
  let source ← Document.field? fields "source" Document.asText?
  return ⟨amounts, fetchDate, source⟩

end Conversion

namespace Quote

def fieldNames : List String :=
  ["hive_usd", "hbd_usd", "btc_usd", "hive_hbd", "fetch_date", "source", "error"]

/-- An error is written only when there is one. -/
def toDocument (q : Quote) : Document :=
  .record <|
    [("hive_usd", .ofDecimal q.hiveUsd), ("hbd_usd", .ofDecimal q.hbdUsd),
     ("btc_usd", .ofDecimal q.btcUsd), ("hive_hbd", .ofDecimal q.hiveHbd),
     ("fetch_date", .ofInstant q.fetchDate), ("source", .text q.source)] ++
    q.error.toList.map fun error => ("error", .text error)

def ofDocument? (d : Document) : Option Quote := do
  let fields ← d.fields? fieldNames
  let rate (name : String) := Document.field? fields name Document.asDecimal?
  let hiveUsd ← rate "hive_usd"
  let hbdUsd ← rate "hbd_usd"
  let btcUsd ← rate "btc_usd"
  let hiveHbd ← rate "hive_hbd"
  let fetchDate ← Document.field? fields "fetch_date" Document.asInstant?
  let source ← Document.field? fields "source" Document.asText?
  let error ← Document.fieldOr? fields "error" (Document.asOption? Document.asText?) none
  return ⟨hiveUsd, hbdUsd, btcUsd, hiveHbd, fetchDate, source, error⟩

end Quote

namespace Tolerance

def fieldNames : List String :=
  ["rel_tol", "abs_tol", "msats_balance_tol", "balance_sheet_rel_tol"]

def toDocument (t : Tolerance) : Document :=
  .record
    [("rel_tol", .ofDecimal t.relative), ("abs_tol", t.absolute.toDocument),
     ("msats_balance_tol", .ofDecimal t.msatsGap),
     ("balance_sheet_rel_tol", .ofDecimal t.sheetRelative)]

def readAbsolute? (d : Document) : Option Amounts := do
  let fields ← d.fields? (Currency.all.map Currency.field)
  Amounts.ofFields? fields

def ofDocument? (d : Document) : Option Tolerance := do
  let fields ← d.fields? fieldNames
  let relative ← Document.field? fields "rel_tol" Document.asDecimal?
  let absolute ← Document.field? fields "abs_tol" readAbsolute?
  let msatsGap ← Document.field? fields "msats_balance_tol" Document.asDecimal?
  let sheetRelative ← Document.field? fields "balance_sheet_rel_tol" Document.asDecimal?
  return ⟨relative, absolute, msatsGap, sheetRelative⟩

end Tolerance

end DoubleEntry
