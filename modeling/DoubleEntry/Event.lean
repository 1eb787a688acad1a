import DoubleEntry.Error

/-!
# Events

What the ledger reports to its journal while it works, in the order it happens.
-/

namespace DoubleEntry

inductive Level where
  | error
  | warn
  | info
  | debug
deriving DecidableEq, Repr

def Level.name : Level → String
  | .error => "ERROR"
  | .warn => "WARN"
  | .info => "INFO"
  | .debug => "DEBUG"

inductive Event where
  /-- An amount does not match the other side's conversion. -/
  | amountsDiffer
  | notCompleted (cause : Incomplete)
  | saved
  | upserted
  | alreadyExists
  | notPersisted
  /-- The twin of a reversal was there already. -/
  | reversalFound
  | entryReversed
  | sheetBalanced
  | sheetUnbalanced
  | profitAndLossMade
  | accountBalanceMade
  | usageComputed
  | quoteFetched
  | refreshFailed
deriving DecidableEq, Repr

namespace Event

def level : Event → Level
  | .notCompleted _ | .notPersisted => .error
  | .amountsDiffer | .alreadyExists | .reversalFound | .sheetUnbalanced | .refreshFailed => .warn
  | .usageComputed => .debug
  | .saved | .upserted | .entryReversed | .sheetBalanced | .profitAndLossMade
  | .accountBalanceMade | .quoteFetched => .info

def message : Event → String
  | .amountsDiffer => "Debit and credit amounts do not match their conversions"
  | .notCompleted cause => cause.message
  | .saved => "Ledger entry saved"
  | .upserted => "Ledger entry upserted"
  | .alreadyExists => "Ledger entry already exists"
  | .notPersisted => "Failed to persist ledger entry"
  | .reversalFound => "Reversal already stored, flagging original"
  | .entryReversed => "Ledger entry reversed"
  | .sheetBalanced => "Balance sheet generated"
  | .sheetUnbalanced => "Balance sheet does not balance"
  | .profitAndLossMade => "Profit and loss generated"
  | .accountBalanceMade => "Account balance generated"
  | .usageComputed => "Conversion usage computed"
  | .quoteFetched => "Fetched quote"
  | .refreshFailed => "Quote refresh failed"

/-- Level and message, as the journal shows them. -/
def line (e : Event) : String :=
  e.level.name ++ " " ++ e.message

end Event

end DoubleEntry
