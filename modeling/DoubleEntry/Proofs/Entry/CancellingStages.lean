import DoubleEntry.Proofs.Entry.CancellingRuns

/-!
# Stages of a call

Between two of its store calls a call to cancel an entry holds only what it has
read, and other calls may go on meanwhile. `advance` makes the next store call
from what is held; a whole call is four advances.
-/

namespace DoubleEntry

namespace Cancelling

open Operation

/-- How far a call is, and what it holds. -/
inductive Stage where
  | seeking
  | storing (target twin : Entry)
  | recovering (target : Entry) (taken : String)
  | flagging (target twin : Entry)
  | ended (twin : Entry)

def advance (c : Cancelling) : Stage → Operation Stage
  | .seeking => do
    let target ← c.findTarget
    let twin ← accept (c.twinOf target)
    return .storing target twin
  | .storing target twin => do
    match ← c.storeTwin twin with
    | none => return .flagging target twin
    | some taken => return .recovering target taken
  | .recovering target taken => do
    let twin ← c.findTwin taken
    return .flagging target twin
  | .flagging target twin => do
    let answer ← c.complete target twin
    return .ended answer
  | .ended twin => return .ended twin

/-- A call that nothing interrupts is its stages, one after the other. -/
theorem ended_map_run (c : Cancelling) :
    Stage.ended <$> c.run =
      c.advance .seeking >>= c.advance >>= c.advance >>= c.advance := by
  simp only [run, advance, map_eq_pure_bind, bind_assoc, pure_bind]
  refine bind_congr fun target => bind_congr fun twin => bind_congr fun taken? => ?_
  cases taken? with
  | none => simp only [complete, advance, bind_assoc, pure_bind]
  | some taken => simp only [complete, advance, bind_assoc, pure_bind]

end Cancelling

end DoubleEntry
