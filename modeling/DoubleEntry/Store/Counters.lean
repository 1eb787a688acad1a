import DoubleEntry.Error

/-!
# Counters

How often entries were written, by outcome; how often writing failed, by kind of
error; and how often each report was begun.
-/

namespace DoubleEntry

inductive SaveStatus where
  | ok
  | upserted
  | duplicate
  | notCompleted
  | error
deriving DecidableEq, Repr

namespace SaveStatus

def all : List SaveStatus :=
  [.ok, .upserted, .duplicate, .notCompleted, .error]

def label : SaveStatus → String
  | .ok => "ok"
  | .upserted => "upserted"
  | .duplicate => "duplicate"
  | .notCompleted => "not_completed"
  | .error => "error"

end SaveStatus

inductive ReportKind where
  | balanceSheet
  | profitAndLoss
  | accountBalance
deriving DecidableEq, Repr

namespace ReportKind

def all : List ReportKind :=
  [.balanceSheet, .profitAndLoss, .accountBalance]

def label : ReportKind → String
  | .balanceSheet => "balance_sheet"
  | .profitAndLoss => "profit_and_loss"
  | .accountBalance => "account_balance"

end ReportKind

/-- A count for every label. -/
def Tally (κ : Type) := κ → Nat

namespace Tally

def zero : Tally κ := fun _ => 0

def bump [DecidableEq κ] (t : Tally κ) (label : κ) : Tally κ :=
  fun other => if other = label then t other + 1 else t other

@[simp] theorem bump_self [DecidableEq κ] (t : Tally κ) (label : κ) :
    t.bump label label = t label + 1 := by
  simp [bump]

theorem bump_of_ne [DecidableEq κ] (t : Tally κ) {label other : κ} (h : other ≠ label) :
    t.bump label other = t other := by
  simp [bump, h]

def total (t : Tally κ) (labels : List κ) : Nat :=
  labels.foldl (fun sum label => sum + t label) 0

end Tally

structure Counters where
  saved : Tally SaveStatus
  errors : Tally ErrorKind
  reports : Tally ReportKind

namespace Counters

def zero : Counters :=
  ⟨.zero, .zero, .zero⟩

/-- The name of a series and the label that tells it apart. -/
def seriesName (metric label value : String) : String :=
  metric ++ "\x7b" ++ label ++ "=\"" ++ value ++ "\"\x7d"

def series (c : Counters) : List (String × Nat) :=
  let saved := SaveStatus.all.map fun s =>
    (seriesName "ledger_entries_saved_total" "status" s.label, c.saved s)
  let errors := ErrorKind.all.map fun k =>
    (seriesName "ledger_errors_total" "error_type" k.label, c.errors k)
  let reports := ReportKind.all.map fun k =>
    (seriesName "ledger_report_duration_seconds_count" "report" k.label, c.reports k)
  (saved ++ errors ++ reports).filter fun (_, count) => count != 0

end Counters

end DoubleEntry
