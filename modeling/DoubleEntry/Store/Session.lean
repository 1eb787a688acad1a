import DoubleEntry.Calc
import DoubleEntry.Event
import DoubleEntry.Store.Basic
import DoubleEntry.Store.Counters

/-!
# Sessions

A session is a store with its counters and its journal. Store calls can fail:
the failures that are still to be met are part of the session, so a run with
failures is an ordinary value. A failed call leaves the store as it was, and
whatever was counted and journalled before a failure stays.
-/

namespace DoubleEntry

inductive StoreCall where
  | insert
  | upsert
  | find
  | fetch
  | mark
  | accounts
deriving DecidableEq, Repr

/-- A failure that a store call will meet. -/
inductive Outage where
  | refused (error : LedgerError)
  /-- The call claims that its own group id is not there. -/
  | idNotFound
  /-- The call claims that its own group id is taken. -/
  | idTaken
deriving DecidableEq, Repr

def Outage.toError (groupId : String) : Outage → LedgerError
  | .refused error => error
  | .idNotFound => .notFound groupId
  | .idTaken => .duplicate groupId

/-- The failures still to be met, oldest first, for each kind of call. -/
structure Outages where
  pending : StoreCall → List Outage
  /-- How many calls to mark an entry will find nothing to mark. -/
  unmatchedMarks : Nat

namespace Outages

def none : Outages :=
  ⟨fun _ => [], 0⟩

def queue (o : Outages) (call : StoreCall) (count : Nat) (outage : Outage) : Outages :=
  { o with
    pending := fun other =>
      if other = call then o.pending other ++ List.replicate count outage
      else o.pending other }

def queueUnmatchedMarks (o : Outages) (count : Nat) : Outages :=
  { o with unmatchedMarks := o.unmatchedMarks + count }

/-- The oldest failure of a kind of call, and the others. -/
def take? (o : Outages) (call : StoreCall) : Option (Outage × Outages) :=
  match o.pending call with
  | [] => .none
  | outage :: rest =>
    some (outage, { o with
      pending := fun other => if other = call then rest else o.pending other })

end Outages

/-- Why an operation has no answer. -/
inductive Failure where
  | refused (error : LedgerError)
  | fault (reason : Fault)
deriving DecidableEq, Repr

structure Session where
  store : Store
  outages : Outages
  counters : Counters
  /-- Events in the order they happened. -/
  journal : List Event

/-- Work on a session; its state survives a failure. -/
abbrev Operation (α : Type) := ExceptT Failure (StateM Session) α

namespace Session

def fresh : Session :=
  ⟨.empty, .none, .zero, []⟩

def run (s : Session) (operation : Operation α) : Except Failure α × Session :=
  StateT.run (ExceptT.run operation) s

end Session

namespace Operation

def refuse (error : LedgerError) : Operation α :=
  throw (.refused error)

def calculate : Calc α → Operation α
  | .fault reason => throw (.fault reason)
  | .done result _ => pure result

def accept : Except LedgerError α → Operation α
  | .error error => refuse error
  | .ok value => pure value

/-- What an operation was refused for, as a value. -/
def attempt (operation : Operation α) : Operation (Except LedgerError α) :=
  tryCatch (Except.ok <$> operation) fun
    | .refused error => pure (.error error)
    | .fault reason => throw (.fault reason)

def journal (events : List Event) : Operation Unit :=
  modify fun s => { s with journal := s.journal ++ events }

def countSaved (status : SaveStatus) : Operation Unit :=
  modify fun s => { s with counters.saved := s.counters.saved.bump status }

def countError (kind : ErrorKind) : Operation Unit :=
  modify fun s => { s with counters.errors := s.counters.errors.bump kind }

def countReport (kind : ReportKind) : Operation Unit :=
  modify fun s => { s with counters.reports := s.counters.reports.bump kind }

/-! ## Store calls -/

/-- Meet the next failure of this kind of call, if one is due. -/
def reach (call : StoreCall) (groupId : String) : Operation Unit := do
  let s ← get
  match s.outages.take? call with
  | none => pure ()
  | some (outage, rest) =>
    set { s with outages := rest }
    refuse (outage.toError groupId)

/-- Store a new entry; a taken id is a duplicate. -/
def insertEntry (e : Entry) : Operation Unit := do
  reach .insert e.groupId
  let s ← get
  match s.store.insert? e with
  | none => refuse (.duplicate e.groupId)
  | some store => set { s with store := store }

def putEntry (e : Entry) : Operation Unit := do
  reach .upsert e.groupId
  modify fun s => { s with store := s.store.put e }

def findEntry (groupId : String) : Operation (Option Entry) := do
  reach .find groupId
  return (← get).store.find? groupId

def fetchEntries (q : EntryQuery) : Operation (List Entry) := do
  reach .fetch ""
  return (← get).store.fetch q

/-- Flag an entry as reversed; false when there was nothing to flag. -/
def markReversed (groupId : String) (moment : Instant) : Operation Bool := do
  let s ← get
  if 0 < s.outages.unmatchedMarks then
    set { s with outages.unmatchedMarks := s.outages.unmatchedMarks - 1 }
    return false
  reach .mark groupId
  let s ← get
  match s.store.markReversed? groupId moment with
  | none => return false
  | some store =>
    set { s with store := store }
    return true

/-- Accounts are not stored by themselves: they are those of the entries. -/
def listAccounts : Operation (List Account) := do
  reach .accounts ""
  return (← get).store.accounts

end Operation

end DoubleEntry
