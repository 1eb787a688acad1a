import DoubleEntry.Entry.Basic
import DoubleEntry.Event
import DoubleEntry.Tolerance

/-!
# Completeness

An entry may be stored when both accounts are set and the conversions of its
sides differ by no more millisatoshis than allowed. Amounts that do not match
the other side's conversion are only reported.
-/

namespace DoubleEntry

namespace Entry

/-- Whether one side's amount is close to the other side's conversion. -/
def amountMatches (e : Entry) (side : Side) (tolerance : Tolerance) : Calc Bool :=
  let own := e.posting side
  let other := e.posting side.opposite
  own.amount.isClose (other.conversion.amounts.get own.currency) tolerance.relative
    (tolerance.absolute.get own.currency)

/-- Either amount matches; both are compared whatever the first says. -/
def amountsBalanced (e : Entry) (tolerance : Tolerance) : Calc Bool := do
  let debitMatches ← e.amountMatches .debit tolerance
  let creditMatches ← e.amountMatches .credit tolerance
  return debitMatches || creditMatches

/-- How far the conversions of the sides are apart. -/
def msatsGap (e : Entry) : Calc Decimal := do
  let difference ← e.debit.conversion.amounts.msats.sub e.credit.conversion.amounts.msats
  return difference.abs

def balanceText (e : Entry) : Calc String := do
  let gap ← e.msatsGap
  return "debit " ++ (e.debit.conversion.amounts.msats.roundTo 0).text ++
    " msats / credit " ++ (e.credit.conversion.amounts.msats.roundTo 0).text ++
    " msats (gap " ++ (gap.roundTo 0).text ++ ")"

def gapProblem? (e : Entry) (tolerance : Tolerance) : Calc (Option Incomplete) := do
  let gap ← e.msatsGap
  if tolerance.msatsGap < gap then
    let balance ← e.balanceText
    return some (.conversionsDiffer balance)
  else
    return none

/-- The end of a check: what it reported, and why the entry may not be stored, if anything. -/
structure Check where
  events : List Event
  verdict : Calc (Option Incomplete)
deriving Repr

/-- What is missing before figures are looked at. -/
def openSide? (e : Entry) : Option Side :=
  if e.debit.account.isNone then some .debit
  else if e.credit.account.isNone then some .credit
  else none

/-- Events of the amounts' comparison, then the gap's verdict with its own event. -/
def check (e : Entry) (tolerance : Tolerance) : Check :=
  match e.openSide? with
  | some side => ⟨[], pure (some (.unset side))⟩
  | none =>
    match e.amountsBalanced tolerance with
    | .fault reason => ⟨[], .fault reason⟩
    | .done balanced _ =>
      let drift := if balanced then [] else [Event.amountsDiffer]
      let verdict := e.gapProblem? tolerance
      match verdict with
      | .done (some cause) _ => ⟨drift ++ [.notCompleted cause], verdict⟩
      | _ => ⟨drift, verdict⟩

def isCompleted (e : Entry) (tolerance : Tolerance) : Calc Bool := do
  let problem ← (e.check tolerance).verdict
  return problem.isNone

end Entry

end DoubleEntry
