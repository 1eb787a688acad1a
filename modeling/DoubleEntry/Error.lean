import DoubleEntry.Account
import DoubleEntry.Decimal.Printer
import DoubleEntry.Decimal.Reader

/-!
# Errors

An error is a cause with the data that its message needs. Each type has one
function for its wording, and `LedgerError.kind` groups causes for callers and
counters. Infrastructure failures are `ServiceError`s; `LedgerError.ofService`
says what each means to the ledger.
-/

namespace DoubleEntry

/-- Why input was rejected before anything was stored. -/
inductive Invalid where
  | unknownCurrency (text : String)
  | unknownAccountType (text : String)
  | badAmount (text : String) (cause : Decimal.ReadError)
  /-- Not an amount and a currency. -/
  | badAmountPair (text : String)
  | emptyGroupId
  | negativeAmount (side : Side) (amount : Decimal)
  | reversalOfIncomplete (groupId : String)
  | alreadyReversed (groupId : String)
  | isReversal (groupId : String)
  | reported (text : String)
deriving DecidableEq, Repr

def Invalid.message : Invalid → String
  | .unknownCurrency text => "Unknown currency '" ++ text ++ "'"
  | .unknownAccountType text => "Unknown account type '" ++ text ++ "'"
  | .badAmount text cause => "Invalid amount '" ++ text ++ "': " ++ cause.message
  | .badAmountPair text => "Expected '<amount> <unit>', got '" ++ text ++ "'"
  | .emptyGroupId => "group_id must not be empty"
  | .negativeAmount side amount =>
    side.name ++ " amount must not be negative: " ++ amount.text
  | .reversalOfIncomplete groupId => "Cannot reverse incomplete entry " ++ groupId
  | .alreadyReversed groupId => "Ledger entry " ++ groupId ++ " is already reversed"
  | .isReversal groupId => "Ledger entry " ++ groupId ++ " is itself a reversal"
  | .reported text => text

/-- Why an entry may not be stored yet. -/
inductive Incomplete where
  | unset (side : Side)
  /-- The sides' conversions differ too much; the text gives both and the gap. -/
  | conversionsDiffer (balance : String)
deriving DecidableEq, Repr

def Incomplete.message : Incomplete → String
  | .unset side => side.name ++ " account is not set"
  | .conversionsDiffer balance => "debit and credit conversions differ: " ++ balance

inductive BadQuote where
  | reportedError (source error : String)
  | nonPositive (source rate : String) (value : Decimal)
  | reported (text : String)
deriving DecidableEq, Repr

def BadQuote.message : BadQuote → String
  | .reportedError source error => "Quote from " ++ source ++ " reported an error: " ++ error
  | .nonPositive source rate value =>
    "Quote from " ++ source ++ " has non-positive " ++ rate ++ ": " ++ value.text
  | .reported text => text

/-- What a setting is when several values are set inside it. -/
inductive SettingShape where
  | table
  | list
deriving DecidableEq, Repr

def SettingShape.name : SettingShape → String
  | .table => "map"
  | .list => "sequence"

/-- Why the settings cannot be used. -/
inductive BadSetting where
  | missing (key : String)
  | missingInProduction (key : String)
  | unreadable (key raw : String)
  | negative (key : String) (value : Decimal)
  /-- A text was expected under that name. -/
  | notText (name : String) (shape : SettingShape)
  | reported (text : String)
deriving DecidableEq, Repr

def BadSetting.message : BadSetting → String
  | .missing key => key ++ " is required but not set"
  | .missingInProduction key => key ++ " is required in production but not set"
  | .unreadable key raw => key ++ " has an invalid value: " ++ raw
  | .negative key value => key ++ " must not be negative: " ++ value.text
  | .notText name shape =>
    "invalid type: " ++ shape.name ++ ", expected a string for key `" ++ name ++ "`"
  | .reported text => text

inductive WriteKind where
  | insert
  | upsert
deriving DecidableEq, Repr

def WriteKind.name : WriteKind → String
  | .insert => "insert"
  | .upsert => "upsert"

inductive LedgerError where
  | validation (cause : Invalid)
  | notCompleted (groupId : String) (cause : Incomplete)
  | duplicate (groupId : String)
  | notFound (groupId : String)
  | quote (cause : BadQuote)
  | persistence (text : String)
  /-- Writing an entry failed for a reason that is not the store's own. -/
  | unsaved (write : WriteKind) (groupId : String) (cause : LedgerError)
  | config (cause : BadSetting)
deriving DecidableEq, Repr

/-- What callers and counters tell apart. -/
inductive ErrorKind where
  | validation
  | notCompleted
  | duplicate
  | notFound
  | quote
  | persistence
  | config
deriving DecidableEq, Repr

namespace ErrorKind

def all : List ErrorKind :=
  [.validation, .notCompleted, .duplicate, .notFound, .quote, .persistence, .config]

def label : ErrorKind → String
  | .validation => "validation"
  | .notCompleted => "not_completed"
  | .duplicate => "duplicate"
  | .notFound => "not_found"
  | .quote => "quote"
  | .persistence => "persistence"
  | .config => "config"

end ErrorKind

namespace LedgerError

def kind : LedgerError → ErrorKind
  | .validation _ => .validation
  | .notCompleted _ _ => .notCompleted
  | .duplicate _ => .duplicate
  | .notFound _ => .notFound
  | .quote _ => .quote
  | .persistence _ => .persistence
  | .unsaved _ _ _ => .persistence
  | .config _ => .config

def message : LedgerError → String
  | .validation cause => "Validation error: " ++ cause.message
  | .notCompleted groupId cause =>
    "Ledger entry " ++ groupId ++ " is not completed: " ++ cause.message
  | .duplicate groupId => "Duplicate ledger entry: " ++ groupId
  | .notFound groupId => "Ledger entry not found: " ++ groupId
  | .quote cause => "Quote unavailable: " ++ cause.message
  | .persistence text => "Persistence error: " ++ text
  | .unsaved write groupId cause =>
    "Persistence error: Failed to " ++ write.name ++ " ledger entry " ++ groupId ++ ": " ++
      message cause
  | .config cause => "Configuration error: " ++ cause.message

def isDuplicate (e : LedgerError) : Bool :=
  e.kind == .duplicate

end LedgerError

/-- Failures of the services around the ledger. -/
inductive ServiceError where
  | badRequest (text : String)
  | notFound (text : String)
  | conflict (text : String)
  | internal (text : String)
  | database (text : String)
  | config (cause : BadSetting)
deriving DecidableEq, Repr

namespace ServiceError

def kind : ServiceError → String
  | .badRequest _ => "bad_request"
  | .notFound _ => "not_found"
  | .conflict _ => "conflict"
  | .internal _ => "internal"
  | .database _ => "database"
  | .config _ => "config"

def message : ServiceError → String
  | .badRequest text => "Bad request: " ++ text
  | .notFound text => "Not found: " ++ text
  | .conflict text => "Conflict: " ++ text
  | .internal text => "Internal error: " ++ text
  | .database text => "Database error: " ++ text
  | .config cause => "Configuration error: " ++ cause.message

def ofReadFailure (text : String) : ServiceError :=
  .internal text

def ofDocumentFailure (text : String) : ServiceError :=
  .badRequest text

def ofDatabaseFailure (text : String) : ServiceError :=
  .database text

end ServiceError

namespace LedgerError

/-- What a service failure means to the ledger. -/
def ofService : ServiceError → LedgerError
  | .badRequest text => .validation (.reported text)
  | .notFound text => .notFound text
  | .conflict text => .duplicate text
  | .internal text => .persistence text
  | .database text => .persistence text
  | .config cause => .config cause

def ofDatabaseFailure (text : String) : LedgerError :=
  .persistence text

end LedgerError

end DoubleEntry
