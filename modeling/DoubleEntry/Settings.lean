import DoubleEntry.Error
import DoubleEntry.Settings.Path
import DoubleEntry.Text.Blank
import DoubleEntry.Text.Whole
import DoubleEntry.Time.Instant
import DoubleEntry.Tolerance

/-!
# Settings

Settings are read from environment variables, each on its own. A variable that
is not set takes its default, the database's only outside production. What is set
has to be readable, the settings of the service itself have to be texts, and no
tolerance may be negative.

The variables are all that is read here. The service also looks for a file named
`configuration`, which gives its own four settings where no variable does, and adds
the variables of a `.env` file to those that are set; both files are optional and
are left out, and so are variables whose values are not Unicode texts.
-/

namespace DoubleEntry

/-- Names and values of the variables that are set. -/
abbrev Environment := List (String × String)

namespace Environment

def get? (env : Environment) (key : String) : Option String :=
  env.lookup key

/-- What the last variable of the service with that name sets: its text, or a part of what the
name stands for. -/
def serviceValue? (env : Environment) (name : String) : Option (Except SettingShape String) :=
  env.reverse.findSome? fun (key, value) =>
    match SettingPath.ofKey? key with
    | some path =>
      if path.name = name then
        match path.steps with
        | [] => some (.ok value)
        | shape :: _ => some (.error shape)
      else none
    | none => none

def serviceText? (env : Environment) (name : String) : Except ServiceError (Option String) :=
  match env.serviceValue? name with
  | none => .ok none
  | some (.ok value) => .ok (some value)
  | some (.error shape) => .error (.config (.notText name shape))

/-- A required text, with a default outside production. -/
def text (env : Environment) (key : String) (default : Option String) (production : Bool) :
    Except ServiceError String :=
  match env.get? key with
  | some value => .ok value
  | none =>
    if production then .error (.config (.missingInProduction key))
    else
      match default with
      | some value => .ok value
      | none => .error (.config (.missing key))

/-- A value that `read` makes of the trimmed text, or the default of an unset variable. -/
def value (env : Environment) (key : String) (read : String → Option α) (default : α) :
    Except ServiceError α :=
  match env.get? key with
  | none => .ok default
  | some raw =>
    match read (Text.trim raw) with
    | some x => .ok x
    | none => .error (.config (.unreadable key raw))

def value? (env : Environment) (key : String) (read : String → Option α) :
    Except ServiceError (Option α) :=
  env.value key (fun raw => (read raw).map some) none

def readDecimal? (raw : String) : Option Decimal :=
  (Decimal.ofText raw).toOption

def readBool? (raw : String) : Option Bool :=
  if raw = "true" then some true else if raw = "false" then some false else none

def absoluteKey (c : Currency) : String :=
  "LEDGER_ABS_TOL_" ++ c.code

/-- Every tolerance with its variable, or the standard one. -/
def tolerance (env : Environment) : Except ServiceError Tolerance := do
  let standard := Tolerance.standard
  let relative ← env.value "LEDGER_REL_TOL" readDecimal? standard.relative
  let absolute ← PerCurrency.build fun c =>
    env.value (absoluteKey c) readDecimal? (standard.absolute.get c)
  let msatsGap ← env.value "LEDGER_MSATS_TOL" readDecimal? standard.msatsGap
  let sheetRelative ←
    env.value "LEDGER_BALANCE_SHEET_REL_TOL" readDecimal? standard.sheetRelative
  return ⟨relative, absolute, msatsGap, sheetRelative⟩

end Environment

namespace Tolerance

/-- Every figure with its variable, in the order in which they are checked. -/
def figures (t : Tolerance) : List (String × Decimal) :=
  [("LEDGER_REL_TOL", t.relative), ("LEDGER_MSATS_TOL", t.msatsGap),
   ("LEDGER_BALANCE_SHEET_REL_TOL", t.sheetRelative)] ++
    t.absolute.toList.map fun (c, x) => (Environment.absoluteKey c, x)

def validate (t : Tolerance) : Except ServiceError Unit :=
  match t.figures.find? fun (_, x) => decide (x < Decimal.zero) with
  | some (key, x) => .error (.config (.negative key x))
  | none => .ok ()

end Tolerance

structure Settings where
  serviceName : String
  logLevel : String
  otlpEndpoint : Option String
  environment : String
  databaseUri : String
  databaseName : String
  collection : String
  tolerance : Tolerance
  /-- Older quotes are fetched again before they are used. -/
  quoteMaxAgeSecs : Int
  /-- Reports reach back this many days, when it is set and positive. -/
  reportAgeDays : Option Int
deriving BEq, Repr

namespace Settings

/-- Production is spelled exactly so. -/
def isProduction (environment : String) : Bool :=
  environment == "prod"

def load (env : Environment) : Except ServiceError Settings := do
  let serviceName ← env.serviceText? "service_name"
  let logLevel ← env.serviceText? "log_level"
  let otlpEndpoint ← env.serviceText? "otlp_endpoint"
  let environment := (← env.serviceText? "environment").getD "dev"
  let production := isProduction environment
  let databaseUri ← env.text "MONGODB_URI" (some "mongodb://localhost:27017") production
  let databaseName ← env.text "MONGODB_DATABASE" (some "ledger_dev") production
  let tolerance ← env.tolerance
  tolerance.validate
  let reportAgeDays ← env.value? "REPORT_AGE_DAYS" Text.whole64?
  let quoteMaxAgeSecs ← env.value "QUOTE_MAX_AGE_SECS" Text.whole64? 600
  return {
    serviceName := serviceName.getD "ledger-engine"
    logLevel := logLevel.getD "info"
    otlpEndpoint := otlpEndpoint
    environment := environment
    databaseUri := databaseUri
    databaseName := databaseName
    collection := (env.get? "LEDGER_COLLECTION").getD "ledger"
    tolerance := tolerance
    quoteMaxAgeSecs := quoteMaxAgeSecs
    reportAgeDays := reportAgeDays }

def quoteMaxAge (s : Settings) : Calc Span :=
  Span.ofUnits .seconds s.quoteMaxAgeSecs

def reportAge (s : Settings) : Calc (Option Span) :=
  match s.reportAgeDays with
  | some days => if 0 < days then some <$> Span.ofUnits .days days else pure none
  | none => pure none

end Settings

end DoubleEntry
