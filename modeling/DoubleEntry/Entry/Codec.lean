import DoubleEntry.Document.Values
import DoubleEntry.Entry.Basic

/-!
# The document of an entry

The stored form of an entry and its reader. Times are floored to the millisecond
on the way, and metadata that is null is read as none. Nothing is validated on
reading: a stored entry is taken as it is. `survivesStore` and `survivesText` say
whether an entry comes back equal from a store and from text.
-/

namespace DoubleEntry

namespace Document

def asCategory? (d : Document) : Option Category :=
  d.asWord?.bind Category.ofCode?

end Document

namespace Posting

def toFields (p : Posting) (side : Side) : List (String × Document) :=
  [(side.name, .ofOption Account.toDocument p.account),
   (side.name ++ "_amount", .ofDecimal p.amount),
   (side.name ++ "_unit", .text p.currency.code),
   (side.name ++ "_conv", p.conversion.toDocument)]

def ofFields? (fields : List (String × Document)) (side : Side) : Option Posting := do
  let account ←
    Document.fieldOr? fields side.name (Document.asOption? Account.ofDocument?) none
  let amount ← Document.field? fields (side.name ++ "_amount") Document.asDecimal?
  let currency ← Document.field? fields (side.name ++ "_unit") Document.asCurrency?
  let conversion ← Document.field? fields (side.name ++ "_conv") Conversion.ofDocument?
  return ⟨account, amount, currency, conversion⟩

end Posting

namespace Entry

def fieldNames : List String :=
  ["group_id", "short_id", "timestamp", "ledger_type", "description", "user_memo", "cust_id",
   "debit", "debit_amount", "debit_unit", "debit_conv",
   "credit", "credit_amount", "credit_unit", "credit_conv",
   "metadata", "reversed", "reversal_of"]

/-- The stored form; the last three fields only when they have a value. -/
def toDocument (e : Entry) : Document :=
  .record <|
    [("group_id", .text e.groupId), ("short_id", .text e.shortId),
     ("timestamp", .ofInstant e.timestamp), ("ledger_type", .text e.category.code),
     ("description", .text e.description), ("user_memo", .text e.userMemo),
     ("cust_id", .text e.custId)] ++
    e.debit.toFields .debit ++ e.credit.toFields .credit ++
    (e.metadata.toList.map fun m => ("metadata", m)) ++
    (e.reversed.toList.map fun t => ("reversed", .ofInstant t)) ++
    (e.reversalOf.toList.map fun id => ("reversal_of", .text id))

def ofDocument? (d : Document) : Option Entry := do
  let fields ← d.fields? fieldNames
  let groupId ← Document.field? fields "group_id" Document.asText?
  let shortId ← Document.field? fields "short_id" Document.asText?
  let timestamp ← Document.field? fields "timestamp" Document.asInstant?
  let category ← Document.field? fields "ledger_type" Document.asCategory?
  let description ← Document.fieldOr? fields "description" Document.asText? ""
  let userMemo ← Document.fieldOr? fields "user_memo" Document.asText? ""
  let custId ← Document.fieldOr? fields "cust_id" Document.asText? ""
  let debit ← Posting.ofFields? fields .debit
  let credit ← Posting.ofFields? fields .credit
  let metadata ← Document.fieldOr? fields "metadata" (Document.asOption? some) none
  let reversed ← Document.fieldOr? fields "reversed" (Document.asOption? Document.asInstant?) none
  let reversalOf ←
    Document.fieldOr? fields "reversal_of" (Document.asOption? Document.asText?) none
  return { groupId, shortId, timestamp, category, description, userMemo, custId,
           debit, credit, metadata, reversed, reversalOf }

/-- The entry as a store gives it back. Whole numbers past 64 signed bits are refused; records
with reserved names in the metadata come back respelled. -/
def throughStore (e : Entry) : Except LedgerError Entry :=
  if e.toDocument.isStorable then
    match e.metadata.mapM Document.respelled? with
    | some metadata => .ok { e with metadata }
    | none => .error (.persistence "the metadata holds a value that no document spells")
  else .error (.persistence "a whole number does not fit a signed 64-bit word")

def survivesStore (e : Entry) : Except LedgerError Bool := do
  let kept ← e.throughStore
  return ofDocument? kept.toDocument == some e

def survivesText (e : Entry) : Bool :=
  ofDocument? e.toDocument.extended == some e

end Entry

end DoubleEntry
