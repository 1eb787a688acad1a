import DoubleEntry.Entry.Completeness
import DoubleEntry.Store.Session

/-!
# Saving entries

An entry is checked and then written. Every attempt is counted once by its
outcome; a failed one also by its kind of error.
-/

namespace DoubleEntry

namespace Entry

open Operation

def ensureCompleted (e : Entry) (tolerance : Tolerance) : Operation Unit := do
  let checked := e.check tolerance
  journal checked.events
  match ← calculate checked.verdict with
  | none => return ()
  | some cause =>
    countSaved .notCompleted
    countError .notCompleted
    refuse (.notCompleted e.groupId cause)

/-- Count and journal a failed write, and say what the caller is told. -/
def recordFailure (e : Entry) (write : WriteKind) (error : LedgerError) :
    Operation LedgerError := do
  countError error.kind
  match error with
  | .duplicate _ =>
    countSaved .duplicate
    journal [.alreadyExists]
    return error
  | .persistence _ | .unsaved _ _ _ =>
    countSaved .error
    journal [.notPersisted]
    return error
  | other =>
    countSaved .error
    journal [.notPersisted]
    return .unsaved write e.groupId other

def store (e : Entry) : WriteKind → Operation Unit
  | .insert => insertEntry e
  | .upsert => putEntry e

def successOf : WriteKind → SaveStatus × Event
  | .insert => (.ok, .saved)
  | .upsert => (.upserted, .upserted)

def write (e : Entry) (kind : WriteKind) (tolerance : Tolerance) : Operation Unit := do
  e.ensureCompleted tolerance
  match ← attempt (e.store kind) with
  | .ok () =>
    countSaved (successOf kind).1
    journal [(successOf kind).2]
  | .error error =>
    let told ← e.recordFailure kind error
    refuse told

def save (e : Entry) (tolerance : Tolerance) : Operation Unit :=
  e.write .insert tolerance

/-- Store an entry, replacing the one under its id. -/
def upsert (e : Entry) (tolerance : Tolerance) : Operation Unit :=
  e.write .upsert tolerance

end Entry

end DoubleEntry
