import DoubleEntry.Entry.Basic

/-!
# Totals by account

Every report folds the legs of entries into totals by account. The contra flag
does not split an account: its legs are added up under the account without the
flag, and the total is shown as contra when any of its legs is.
-/

namespace DoubleEntry

/-- Signed totals of one account over a set of entries. -/
structure AccountTotals where
  account : Account
  native : Holdings
  /-- Each leg at its own conversion. -/
  converted : Amounts
  legCount : Nat
deriving BEq, Repr

namespace AccountTotals

def empty (account : Account) : AccountTotals :=
  ⟨account, .empty, .zero, 0⟩

/-- Add one leg; a contra leg makes the account shown as contra. -/
def addLeg (t : AccountTotals) (leg : BookedLeg) : Calc AccountTotals := do
  let amount ← leg.amountSigned
  let native ← Holdings.addTo t.native leg.currency amount
  let amounts ← leg.amountsSigned
  let converted ← Amounts.add t.converted amounts
  return {
    account := if leg.account.contra && !t.account.contra then leg.account else t.account
    native := native
    converted := converted
    legCount := t.legCount + 1 }

end AccountTotals

/-- Totals under their accounts, which carry no contra flag, in order. -/
abbrev LedgerTotals := List (Account × AccountTotals)

namespace LedgerTotals

/-- Add one leg under `key`, which is put in its place when it is new. -/
def addLeg (key : Account) (leg : BookedLeg) : LedgerTotals → Calc LedgerTotals
  | [] => do
    let fresh ← (AccountTotals.empty key).addLeg leg
    return [(key, fresh)]
  | (k, t) :: rest =>
    match key.compare k with
    | .lt => do
      let fresh ← (AccountTotals.empty key).addLeg leg
      return (key, fresh) :: (k, t) :: rest
    | .eq => do
      let more ← t.addLeg leg
      return (k, more) :: rest
    | .gt => do
      let others ← addLeg key leg rest
      return (k, t) :: others

/-- The legs of some entries that a report counts, in order. -/
def legsOf (entries : List Entry) (keep : BookedLeg → Bool) : List BookedLeg :=
  (entries.flatMap Entry.legs).filter keep

def ofEntries (entries : List Entry) (keep : BookedLeg → Bool) : Calc LedgerTotals :=
  (legsOf entries keep).foldlM (fun totals leg => totals.addLeg leg.account.withoutContra leg) []

def ofType (totals : LedgerTotals) (type : AccountType) : List AccountTotals :=
  (totals.map Prod.snd).filter fun t => t.account.type == type

end LedgerTotals

end DoubleEntry
