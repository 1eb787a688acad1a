import DoubleEntry.Entry.Basic

/-!
# The reversal of an entry

The twin that cancels an entry: the same two legs with their sides exchanged,
under a group id made from its own.
-/

namespace DoubleEntry

namespace Entry

def reversalId (groupId : String) : String :=
  groupId ++ "_reversal"

/-- The twin that cancels `e`; both of its sides have to be set. -/
def reversal (e : Entry) (timestamp : Instant) : Except LedgerError Entry :=
  match e.debit.leg?, e.credit.leg? with
  | some debit, some credit => do
    let twin ← ofLegs (reversalId e.groupId) .reversal timestamp credit debit
    return { twin with
      description := "Reversal of " ++ e.shortId ++ ": " ++ e.description
      custId := e.custId
      reversalOf := some e.groupId }
  | _, _ => .error (.validation (.reversalOfIncomplete e.groupId))

end Entry

end DoubleEntry
