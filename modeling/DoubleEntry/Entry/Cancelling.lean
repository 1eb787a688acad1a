import DoubleEntry.Entry.Reversal
import DoubleEntry.Entry.Saving

/-!
# Cancelling stored entries

A stored entry is cancelled by storing its reversal, already flagged, and then
flagging the entry itself. A call that stored the twin and then failed can be
made again: it finds the twin and flags the entry with the twin's time. Each
stage below makes one call to the store.
-/

namespace DoubleEntry

structure Cancelling where
  groupId : String
  moment : Instant
  tolerance : Tolerance
deriving Repr

namespace Cancelling

open Operation

/-- The stored entry, which has to be live and no reversal itself. -/
def findTarget (c : Cancelling) : Operation Entry := do
  match ← findEntry c.groupId with
  | none => refuse (.notFound c.groupId)
  | some target =>
    if target.isReversed then refuse (.validation (.alreadyReversed c.groupId))
    if target.reversalOf.isSome then refuse (.validation (.isReversal c.groupId))
    return target

/-- The reversal as it is stored, flagged with the time of the call. -/
def twinOf (c : Cancelling) (target : Entry) : Except LedgerError Entry := do
  let twin ← target.reversal c.moment
  return { twin with reversed := some c.moment }

/-- Store the twin; the taken id when it, or another entry, was there already. -/
def storeTwin (c : Cancelling) (twin : Entry) : Operation (Option String) := do
  match ← attempt (twin.save c.tolerance) with
  | .ok () => return none
  | .error (.duplicate taken) => return some taken
  | .error error => refuse error

/-- The entry under the taken id, if it is a reversal of this entry. -/
def findTwin (c : Cancelling) (taken : String) : Operation Entry := do
  match ← findEntry taken with
  | some stored =>
    if stored.reversalOf = some c.groupId then
      journal [.reversalFound]
      return stored
    else
      refuse (.duplicate taken)
  | none => refuse (.duplicate taken)

def flagTarget (c : Cancelling) (target twin : Entry) : Operation Unit := do
  let flagged ← markReversed target.groupId (twin.reversed.getD c.moment)
  if flagged then return ()
  else refuse (.notFound target.groupId)

/-- The whole call; the stored twin is the answer. -/
def run (c : Cancelling) : Operation Entry := do
  let target ← c.findTarget
  let twin ← accept (c.twinOf target)
  let stored ←
    match ← c.storeTwin twin with
    | none => pure twin
    | some taken => c.findTwin taken
  c.flagTarget target stored
  journal [.entryReversed]
  return stored

end Cancelling

end DoubleEntry
