import DoubleEntry.Proofs.Decimal.Difference
import DoubleEntry.Proofs.Entry.Acceptance
import DoubleEntry.Proofs.Entry.CancellingStages

/-!
# Calls side by side

Any number of callers cancel one entry at once, and a call that is made again is
one more caller. They take turns in any order, a turn makes one store call, and the
failures that the call can meet belong to the turn. The first caller whose insert
succeeds is the winner: from then on its twin is under the twin's id, and what every
other caller holds agrees with it. A failing insert can claim that any id is taken;
a caller is misled only by the id of another reversal of the entry.
-/

namespace DoubleEntry

open Cancelling

structure Contest (ι : Type) where
  original : Entry
  tolerance : Tolerance
  moments : ι → Instant

/-- One caller goes on, and its store call can meet these failures. -/
structure Turn (ι : Type) where
  caller : ι
  outages : Outages

namespace Contest

/-- The session that the callers share, and how far each of them is. -/
structure State (ι : Type) where
  session : Session
  progress : ι → Except Failure Stage

variable {ι : Type}

def call (k : Contest ι) (i : ι) : Cancelling :=
  ⟨k.original.groupId, k.moments i, k.tolerance⟩

def twinId (k : Contest ι) : String :=
  Entry.reversalId k.original.groupId

theorem twinId_ne (k : Contest ι) : k.twinId ≠ k.original.groupId :=
  Entry.reversalId_ne k.original.groupId

def twin (k : Contest ι) (i : ι) : Entry :=
  (k.call i).twin k.original

def flagged (k : Contest ι) (i : ι) : Entry :=
  { k.original with reversed := some (k.moments i) }

/-- The store holds the entry live, it can be cancelled, and the twin's id is free. -/
structure Open (k : Contest ι) (s : Store) : Prop where
  held : s.find? k.original.groupId = some k.original
  live : k.original.reversed = none
  original : k.original.reversalOf = none
  reversible : k.original.Reversible
  accepted : k.original.Accepted k.tolerance
  free : s.find? k.twinId = none

theorem accepted_twin {k : Contest ι} {s : Store} (hopen : k.Open s) (i : ι) :
    (k.twin i).Accepted k.tolerance :=
  Entry.accepted_of_exchanged rfl rfl hopen.accepted

/-- A call that is told that the id is taken would take what is under it for its twin. -/
def ReversalUnder (k : Contest ι) (store : Store) (taken : String) : Prop :=
  ∃ stored, store.find? taken = some stored ∧ stored.reversalOf = some k.original.groupId

theorem Open.not_reversalUnder_twinId {k : Contest ι} {s : Store} (hopen : k.Open s) :
    ¬ k.ReversalUnder s k.twinId := by
  rintro ⟨stored, held, -⟩
  cases hopen.free.symm.trans held

def start (s : Session) : State ι :=
  ⟨s, fun _ => .ok .seeking⟩

variable [DecidableEq ι]

def State.after (x : State ι) (caller : ι) (ran : Except Failure Stage × Session) : State ι :=
  ⟨ran.2, fun i => if i = caller then ran.1 else x.progress i⟩

/-- A turn; a caller that failed stays as it is. -/
def step (k : Contest ι) (x : State ι) (turn : Turn ι) : State ι :=
  match x.progress turn.caller with
  | .error _ => x
  | .ok stage =>
    x.after turn.caller
      ({ x.session with outages := turn.outages }.run ((k.call turn.caller).advance stage))

def run (k : Contest ι) (s : Session) (schedule : List (Turn ι)) : State ι :=
  schedule.foldl k.step (start s)

theorem run_append_singleton (k : Contest ι) (s : Session) (schedule : List (Turn ι))
    (turn : Turn ι) : k.run s (schedule ++ [turn]) = k.step (k.run s schedule) turn := by
  rw [run, List.foldl_append]
  rfl

/-! ## Whole calls -/

theorem run_bind_advance {k : Contest ι} {x : State ι} {s : Session} {i : ι}
    {stages : Operation Stage} (h : s.run stages = (x.progress i, x.session)) :
    s.run (stages >>= (k.call i).advance) =
      ((k.step x ⟨i, x.session.outages⟩).progress i,
        (k.step x ⟨i, x.session.outages⟩).session) := by
  rw [Session.run_bind, h]
  unfold step
  cases hprogress : x.progress i with
  | error failure => simp only [hprogress]
  | ok stage => simp only [State.after, if_pos]

/--
A caller that takes its turns in a row makes the whole call: a schedule can hold calls that are
made one after the other, or made again.
-/
theorem exists_alone (k : Contest ι) (s : Session) (before : List (Turn ι)) (i : ι) (o : Outages)
    (hseeking : (k.run s before).progress i = .ok .seeking) :
    ∃ alone : List (Turn ι), (∀ turn ∈ alone, turn.caller = i) ∧
      { (k.run s before).session with outages := o }.run (Stage.ended <$> (k.call i).run) =
        ((k.run s (before ++ alone)).progress i, (k.run s (before ++ alone)).session) := by
  let x₁ := k.step (k.run s before) ⟨i, o⟩
  let x₂ := k.step x₁ ⟨i, x₁.session.outages⟩
  let x₃ := k.step x₂ ⟨i, x₂.session.outages⟩
  have h₁ : { (k.run s before).session with outages := o }.run ((k.call i).advance .seeking) =
      (x₁.progress i, x₁.session) := by
    simp only [x₁, step, hseeking, State.after, if_pos]
  let alone : List (Turn ι) :=
    [⟨i, o⟩, ⟨i, x₁.session.outages⟩, ⟨i, x₂.session.outages⟩, ⟨i, x₃.session.outages⟩]
  have hrun : k.run s (before ++ alone) = k.step x₃ ⟨i, x₃.session.outages⟩ := by
    rw [run, List.foldl_append]
    rfl
  refine ⟨alone, by simp [alone], ?_⟩
  rw [ended_map_run, hrun]
  exact run_bind_advance (run_bind_advance (run_bind_advance h₁))

end Contest

/-! ## Failures that were met -/

/-- What a caller at a stage is told about the failure that its store call meets. -/
inductive Outages.Explains (o : Outages) (groupId : String) : Stage → LedgerError → Prop where
  | find (outage : Outage) (rest : Outages) (met : o.take? .find = some (outage, rest)) :
    Explains o groupId .seeking (outage.toError groupId)
  | insert (target twin : Entry) (outage : Outage) (rest : Outages)
    (met : o.take? .insert = some (outage, rest)) :
    Explains o groupId (.storing target twin)
      ((outage.toError twin.groupId).told .insert twin.groupId)
  | findTwin (target : Entry) (taken : String) (outage : Outage) (rest : Outages)
    (met : o.take? .find = some (outage, rest)) :
    Explains o groupId (.recovering target taken) (outage.toError taken)
  | mark (target twin : Entry) (outage : Outage) (rest : Outages)
    (met : o.take? .mark = some (outage, rest)) :
    Explains o groupId (.flagging target twin) (outage.toError groupId)
  | unmatchedMark (target twin : Entry) (met : 0 < o.unmatchedMarks) :
    Explains o groupId (.flagging target twin) (.notFound groupId)

theorem Outages.explains_claimed {o rest : Outages} {outage : Outage} {groupId taken : String}
    {target twin : Entry} (met : o.take? .insert = some (outage, rest))
    (claims : outage.toError twin.groupId = .duplicate taken) :
    o.Explains groupId (.storing target twin) (.duplicate taken) := by
  have hexplains : o.Explains groupId (.storing target twin)
      ((outage.toError twin.groupId).told .insert twin.groupId) :=
    .insert target twin outage rest met
  rw [claims] at hexplains
  exact hexplains

namespace Contest

variable {ι : Type} [DecidableEq ι] {k : Contest ι}

/-- In one of its turns the caller met a failure that explains the error. -/
def Faced (k : Contest ι) (s : Session) (schedule : List (Turn ι)) (i : ι) (error : LedgerError) :
    Prop :=
  ∃ before turn after stage, schedule = before ++ turn :: after ∧ turn.caller = i ∧
    (k.run s before).progress i = .ok stage ∧
    turn.outages.Explains k.original.groupId stage error

theorem Faced.append {s : Session} {schedule : List (Turn ι)} {i : ι} {error : LedgerError}
    (h : k.Faced s schedule i error) (turn : Turn ι) :
    k.Faced s (schedule ++ [turn]) i error := by
  obtain ⟨before, past, after, stage, rfl, hcaller, hstage, hexplains⟩ := h
  exact ⟨before, past, after ++ [turn], stage, by simp, hcaller, hstage, hexplains⟩

theorem faced_last {s : Session} {schedule : List (Turn ι)} {turn : Turn ι} {stage : Stage}
    {error : LedgerError} (hstage : (k.run s schedule).progress turn.caller = .ok stage)
    (h : turn.outages.Explains k.original.groupId stage error) :
    k.Faced s (schedule ++ [turn]) turn.caller error :=
  ⟨schedule, turn, [], stage, rfl, rfl, hstage, h⟩

/-- In one of the turns an insert failed as a duplicate of the id. -/
def Claimed (k : Contest ι) (s : Session) (schedule : List (Turn ι)) (taken : String) : Prop :=
  ∃ before turn after target twin outage rest, schedule = before ++ turn :: after ∧
    (k.run s before).progress turn.caller = .ok (.storing target twin) ∧
    turn.outages.take? .insert = some (outage, rest) ∧
    outage.toError twin.groupId = .duplicate taken

/-- No insert failed as a duplicate of another reversal of the original. -/
def Unmisled (k : Contest ι) (s : Session) (schedule : List (Turn ι)) : Prop :=
  ∀ taken, k.Claimed s schedule taken → ¬ k.ReversalUnder s.store taken

theorem Unmisled.of_append {s : Session} {schedule : List (Turn ι)} {turn : Turn ι}
    (h : k.Unmisled s (schedule ++ [turn])) : k.Unmisled s schedule := by
  rintro taken ⟨before, past, after, target, twin, outage, rest, rfl, hstage, hmet, hclaims⟩
  refine h taken ⟨before, past, after ++ [turn], target, twin, outage, rest, ?_, hstage, hmet,
    hclaims⟩
  simp

/-! ## The invariant -/

/-- What a caller can hold, given the turns so far, the winner and the store. -/
inductive Stands (k : Contest ι) (s : Session) (schedule : List (Turn ι)) (winner : Option ι)
    (store : Store) (i : ι) : Except Failure Stage → Prop where
  | seeking : Stands k s schedule winner store i (.ok .seeking)
  | storing : Stands k s schedule winner store i (.ok (.storing k.original (k.twin i)))
  | recovering (taken : String) (unreversed : ¬ k.ReversalUnder s.store taken)
    (reason : taken = k.twinId ∧ winner ≠ none ∨ k.Faced s schedule i (.duplicate taken)) :
    Stands k s schedule winner store i (.ok (.recovering k.original taken))
  | flagging (w : ι) (won : winner = some w) :
    Stands k s schedule winner store i (.ok (.flagging k.original (k.twin w)))
  | ended (w : ι) (won : winner = some w)
    (done : store.find? k.original.groupId = some (k.flagged w)) :
    Stands k s schedule winner store i (.ok (.ended (k.twin w)))
  | late (won : winner ≠ none) :
    Stands k s schedule winner store i
      (.error (.refused (.validation (.alreadyReversed k.original.groupId))))
  | failed (error : LedgerError) (faced : k.Faced s schedule i error) :
    Stands k s schedule winner store i (.error (.refused error))

/-- What holds between turns, given the session at the start. -/
structure Agrees (k : Contest ι) (s : Session) (schedule : List (Turn ι)) (winner : Option ι)
    (x : State ι) : Prop where
  twin_held : x.session.store.find? k.twinId = winner.map k.twin
  original_held : x.session.store.find? k.original.groupId = some k.original ∨
    ∃ w, winner = some w ∧ x.session.store.find? k.original.groupId = some (k.flagged w)
  others_held : ∀ other, other ≠ k.original.groupId → other ≠ k.twinId →
    x.session.store.find? other = s.store.find? other
  stands : ∀ i, k.Stands s schedule winner x.session.store i (x.progress i)

/-- A turn of another caller takes nothing away. -/
theorem Stands.mono {s : Session} {schedule : List (Turn ι)} {winner winner' : Option ι}
    {store store' : Store} {i : ι} {progress : Except Failure Stage}
    (h : k.Stands s schedule winner store i progress)
    (turn : Turn ι) (hwinner : ∀ w, winner = some w → winner' = some w)
    (hflagged : ∀ w, winner = some w → store.find? k.original.groupId = some (k.flagged w) →
      store'.find? k.original.groupId = some (k.flagged w)) :
    k.Stands s (schedule ++ [turn]) winner' store' i progress := by
  have hwon : winner ≠ none → winner' ≠ none := by
    intro hne
    obtain ⟨w, hw⟩ := Option.ne_none_iff_exists'.1 hne
    rw [hwinner w hw]
    exact Option.some_ne_none w
  cases h with
  | seeking => exact .seeking
  | storing => exact .storing
  | recovering taken unreversed reason =>
      exact .recovering taken unreversed (reason.imp (.imp_right hwon) (·.append turn))
  | flagging w won => exact .flagging w (hwinner w won)
  | ended w won done => exact .ended w (hwinner w won) (hflagged w won done)
  | late won => exact .late (hwon won)
  | failed error faced => exact .failed error (faced.append turn)

theorem agrees_start {s : Session} (hopen : k.Open s.store) :
    k.Agrees s [] none (start s) where
  twin_held := hopen.free
  original_held := Or.inl hopen.held
  others_held := fun _ _ _ => rfl
  stands := fun _ => .seeking

/-! ## What the store tells a caller -/

section

variable {s : Session} {schedule : List (Turn ι)} {winner : Option ι} {x : State ι}

theorem Agrees.find?_original (h : k.Agrees s schedule winner x) :
    ∃ reversed, x.session.store.find? k.original.groupId =
      some { k.original with reversed := reversed } ∧
      (reversed = k.original.reversed ∨ winner ≠ none) := by
  rcases h.original_held with hheld | ⟨w, hwon, hheld⟩
  · exact ⟨k.original.reversed, hheld, Or.inl rfl⟩
  · refine ⟨some (k.moments w), hheld, Or.inr ?_⟩
    rw [hwon]
    exact Option.some_ne_none w

theorem Agrees.holds_original (h : k.Agrees s schedule winner x) :
    x.session.store.holds k.original.groupId = true := by
  obtain ⟨reversed, hfind, -⟩ := h.find?_original
  rw [← Store.isSome_find?, hfind]
  rfl

theorem Agrees.target_eq (h : k.Agrees s schedule winner x) {i : ι} {target : Entry}
    (targets : (k.call i).Targets x.session.store target) : target = k.original := by
  rcases h.original_held with hheld | ⟨w, hwon, hheld⟩
  · exact Option.some.inj (targets.held.symm.trans hheld)
  · have hflagged : target = k.flagged w := Option.some.inj (targets.held.symm.trans hheld)
    have hlive := targets.live
    rw [hflagged] at hlive
    cases hlive

theorem Agrees.won_of_holds (h : k.Agrees s schedule winner x)
    (hholds : x.session.store.holds k.twinId = true) : winner ≠ none := by
  intro hnone
  rw [← Store.isSome_find?, h.twin_held, hnone] at hholds
  cases hholds

theorem Agrees.free_of_insert? (h : k.Agrees s schedule winner x) {i : ι} {store : Store}
    (added : x.session.store.insert? (k.twin i) = some store) : winner = none := by
  have hfree : x.session.store.find? k.twinId = none := Store.find?_of_insert? added
  rw [h.twin_held] at hfree
  exact Option.map_eq_none_iff.1 hfree

theorem Agrees.won_of_find? (h : k.Agrees s schedule winner x) {stored : Entry}
    (hfind : x.session.store.find? k.twinId = some stored) :
    ∃ w, winner = some w ∧ stored = k.twin w := by
  rw [h.twin_held] at hfind
  obtain ⟨w, hw, rfl⟩ := Option.map_eq_some_iff.1 hfind
  exact ⟨w, hw, rfl⟩

/-- Only the winner's twin is a reversal of the original, apart from those at the start. -/
theorem Agrees.eq_twinId (h : k.Agrees s schedule winner x) (hopen : k.Open s.store)
    {taken : String} (unreversed : ¬ k.ReversalUnder s.store taken)
    (hreversal : k.ReversalUnder x.session.store taken) : taken = k.twinId := by
  obtain ⟨stored, held, reverses⟩ := hreversal
  by_contra htwin
  by_cases horiginal : taken = k.original.groupId
  · subst horiginal
    obtain ⟨reversed, hfind, -⟩ := h.find?_original
    obtain rfl := Option.some.inj (held.symm.trans hfind)
    cases hopen.original.symm.trans reverses
  · rw [h.others_held taken horiginal htwin] at held
    exact unreversed ⟨stored, held, reverses⟩

theorem Agrees.append (h : k.Agrees s schedule winner x) (turn : Turn ι) :
    k.Agrees s (schedule ++ [turn]) winner x :=
  { h with
    stands := fun i => (h.stands i).mono turn (fun _ hw => hw) (fun _ _ hdone => hdone) }

end

/-! ## One turn -/

section

variable {s : Session} {schedule : List (Turn ι)} {winner winner' : Option ι}
  {x : State ι} {turn : Turn ι} {ran : Except Failure Stage × Session}

/-- A turn that leaves the store alone only has to place its caller. -/
theorem Agrees.after_quiet (h : k.Agrees s schedule winner x)
    (hstore : ran.2.store = x.session.store)
    (hstands : k.Stands s (schedule ++ [turn]) winner x.session.store turn.caller ran.1) :
    k.Agrees s (schedule ++ [turn]) winner (x.after turn.caller ran) where
  twin_held := by
    rw [State.after, hstore]
    exact h.twin_held
  original_held := by
    rw [State.after, hstore]
    exact h.original_held
  others_held := by
    rw [State.after, hstore]
    exact h.others_held
  stands := by
    intro i
    simp only [State.after, hstore]
    split
    · rename_i hcaller
      rw [hcaller]
      exact hstands
    · exact (h.stands i).mono turn (fun _ hw => hw) (fun _ _ hdone => hdone)

theorem Agrees.after_insert (h : k.Agrees s schedule none x)
    (hinsert : x.session.store.insert? (k.twin turn.caller) = some ran.2.store)
    (hstage : ran.1 = .ok (.flagging k.original (k.twin turn.caller))) :
    k.Agrees s (schedule ++ [turn]) (some turn.caller) (x.after turn.caller ran) := by
  have hfind := Store.find?_insert? hinsert
  have htwinId : (k.twin turn.caller).groupId = k.twinId := rfl
  have horiginal : ran.2.store.find? k.original.groupId =
      x.session.store.find? k.original.groupId := by
    rw [hfind, htwinId, if_neg k.twinId_ne.symm]
  constructor
  · rw [State.after, hfind, htwinId, if_pos rfl]
    rfl
  · rw [State.after, horiginal]
    rcases h.original_held with hheld | ⟨w, hwon, -⟩
    · exact Or.inl hheld
    · cases hwon
  · intro other hother htwin
    rw [State.after, hfind, htwinId, if_neg htwin]
    exact h.others_held other hother htwin
  · intro i
    simp only [State.after]
    split
    · rename_i hcaller
      rw [hcaller, hstage]
      exact .flagging turn.caller rfl
    · refine (h.stands i).mono turn ?_ ?_
      · intro w hw
        cases hw
      · intro w hw
        cases hw

theorem Agrees.after_mark {w : ι} (h : k.Agrees s schedule (some w) x)
    (hmark : x.session.store.markReversed? k.original.groupId (k.moments w) = some ran.2.store)
    (hstage : ran.1 = .ok (.ended (k.twin w))) :
    k.Agrees s (schedule ++ [turn]) (some w) (x.after turn.caller ran) := by
  have hfind := Store.find?_markReversed? hmark
  have hflagged : ran.2.store.find? k.original.groupId = some (k.flagged w) := by
    obtain ⟨reversed, horiginal, -⟩ := h.find?_original
    rw [hfind, if_pos rfl, horiginal]
    rfl
  constructor
  · rw [State.after, hfind, if_neg k.twinId_ne]
    exact h.twin_held
  · exact Or.inr ⟨w, rfl, hflagged⟩
  · intro other hother htwin
    rw [State.after, hfind, if_neg hother]
    exact h.others_held other hother htwin
  · intro i
    simp only [State.after]
    split
    · rename_i hcaller
      rw [hcaller, hstage]
      exact .ended w rfl hflagged
    · refine (h.stands i).mono turn (fun _ hw => hw) ?_
      intro w' hw' _
      obtain rfl := Option.some.inj hw'
      exact hflagged

/-! ## Each stage -/

theorem Agrees.after_seeking (h : k.Agrees s schedule winner x) (hopen : k.Open s.store)
    (hstage : (k.run s schedule).progress turn.caller = .ok .seeking)
    (hran : { x.session with outages := turn.outages }.run
      ((k.call turn.caller).advance .seeking) = ran) :
    k.Agrees s (schedule ++ [turn]) winner (x.after turn.caller ran) := by
  unfold advance at hran
  rw [Session.run_bind] at hran
  cases hfind : { x.session with outages := turn.outages }.run (k.call turn.caller).findTarget with
  | mk found t =>
      have hsought := targetSought_of_run hfind
      have hstore := hsought.store_eq
      rw [hfind] at hran
      cases hsought with
      | failed outage rest met =>
          subst hran
          exact h.after_quiet rfl (.failed _ (faced_last hstage (.find outage rest met)))
      | missing absent =>
          obtain ⟨reversed, horiginal, -⟩ := h.find?_original
          cases absent.symm.trans horiginal
      | reversed target held flagged =>
          obtain ⟨reversed, horiginal, hwon⟩ := h.find?_original
          obtain rfl := Option.some.inj (held.symm.trans horiginal)
          subst hran
          refine h.after_quiet rfl (.late (hwon.resolve_left ?_))
          intro hlive
          exact flagged (hlive.trans hopen.live)
      | reversal target held reverses =>
          obtain ⟨reversed, horiginal, -⟩ := h.find?_original
          obtain rfl := Option.some.inj (held.symm.trans horiginal)
          exact absurd hopen.original reverses
      | found target targets =>
          obtain rfl := h.target_eq targets
          have htwin : (k.call turn.caller).twinOf k.original = .ok (k.twin turn.caller) :=
            twinOf_eq_ok_iff.2 ⟨hopen.reversible, rfl⟩
          dsimp only at hran
          rw [htwin] at hran
          subst hran
          exact h.after_quiet rfl .storing

theorem Agrees.after_storing (h : k.Agrees s schedule winner x) (hopen : k.Open s.store)
    (hunmisled : k.Unmisled s (schedule ++ [turn]))
    (hstage : (k.run s schedule).progress turn.caller =
      .ok (.storing k.original (k.twin turn.caller)))
    (hran : { x.session with outages := turn.outages }.run
      ((k.call turn.caller).advance (.storing k.original (k.twin turn.caller))) = ran) :
    ∃ winner', k.Agrees s (schedule ++ [turn]) winner' (x.after turn.caller ran) ∧
      (winner' = winner ∨ winner = none ∧ winner' = some turn.caller) := by
  unfold advance at hran
  rw [Session.run_bind] at hran
  cases hsave : { x.session with outages := turn.outages }.run
      ((k.call turn.caller).storeTwin (k.twin turn.caller)) with
  | mk saved t =>
      have hsaved := twinSaved_of_run hsave
      rw [hsave] at hran
      generalize hstore : t.store = store at hsaved
      cases hsaved with
      | unaccepted failure unaccepted => exact absurd (accepted_twin hopen turn.caller) unaccepted
      | failed outage rest met =>
          subst hran
          refine ⟨winner, h.after_quiet hstore (.failed _ (faced_last hstage ?_)), Or.inl rfl⟩
          exact .insert _ _ outage rest met
      | claimed outage rest taken met claims =>
          have hnow : k.Claimed s (schedule ++ [turn]) taken :=
            ⟨schedule, turn, [], _, _, outage, rest, rfl, hstage, met, claims⟩
          subst hran
          refine ⟨winner, h.after_quiet hstore ?_, Or.inl rfl⟩
          refine .recovering taken (hunmisled taken hnow) (Or.inr ?_)
          exact faced_last hstage (Outages.explains_claimed met claims)
      | taken held =>
          subst hran
          refine ⟨winner, h.after_quiet hstore ?_, Or.inl rfl⟩
          exact .recovering k.twinId hopen.not_reversalUnder_twinId
            (Or.inl ⟨rfl, h.won_of_holds held⟩)
      | stored _ added =>
          subst hran
          rw [← hstore] at added
          obtain rfl := h.free_of_insert? added
          exact ⟨some turn.caller, h.after_insert added rfl, Or.inr ⟨rfl, rfl⟩⟩

theorem Agrees.after_recovering {taken : String} (h : k.Agrees s schedule winner x)
    (hopen : k.Open s.store) (unreversed : ¬ k.ReversalUnder s.store taken)
    (reason : taken = k.twinId ∧ winner ≠ none ∨
      k.Faced s schedule turn.caller (.duplicate taken))
    (hstage : (k.run s schedule).progress turn.caller = .ok (.recovering k.original taken))
    (hran : { x.session with outages := turn.outages }.run
      ((k.call turn.caller).advance (.recovering k.original taken)) = ran) :
    k.Agrees s (schedule ++ [turn]) winner (x.after turn.caller ran) := by
  unfold advance at hran
  rw [Session.run_bind] at hran
  cases hfind : { x.session with outages := turn.outages }.run
      ((k.call turn.caller).findTwin taken) with
  | mk found t =>
      obtain ⟨hsought, hstore⟩ := twinSought_of_run hfind
      rw [hfind] at hran
      cases hsought with
      | failed outage rest met =>
          subst hran
          exact h.after_quiet hstore
            (.failed _ (faced_last hstage (.findTwin _ _ outage rest met)))
      | foreign other =>
          subst hran
          refine h.after_quiet hstore (.failed _ ?_)
          rcases reason with ⟨rfl, hwon⟩ | hfaced
          · obtain ⟨w, rfl⟩ := Option.ne_none_iff_exists'.1 hwon
            exact absurd rfl (other (k.twin w) h.twin_held)
          · exact hfaced.append turn
      | found stored held reverses =>
          obtain rfl := h.eq_twinId hopen unreversed ⟨stored, held, reverses⟩
          obtain ⟨w, hwon, rfl⟩ := h.won_of_find? held
          subst hran
          exact h.after_quiet hstore (.flagging w hwon)

theorem Agrees.after_flagging {w : ι} (h : k.Agrees s schedule (some w) x)
    (hstage : (k.run s schedule).progress turn.caller = .ok (.flagging k.original (k.twin w)))
    (hran : { x.session with outages := turn.outages }.run
      ((k.call turn.caller).advance (.flagging k.original (k.twin w))) = ran) :
    k.Agrees s (schedule ++ [turn]) (some w) (x.after turn.caller ran) := by
  unfold advance at hran
  rw [Session.run_bind] at hran
  cases hcomplete : { x.session with outages := turn.outages }.run
      ((k.call turn.caller).complete k.original (k.twin w)) with
  | mk completed t =>
      have hcompleted := completed_of_run hcomplete
      rw [hcomplete] at hran
      generalize hstore : t.store = store at hcompleted
      cases hcompleted with
      | unmatched met =>
          subst hran
          exact h.after_quiet hstore (.failed _ (faced_last hstage (.unmatchedMark _ _ met)))
      | failed outage rest met =>
          subst hran
          exact h.after_quiet hstore
            (.failed _ (faced_last hstage (.mark _ _ outage rest met)))
      | missing absent =>
          have hheld := h.holds_original
          rw [hheld] at absent
          cases absent
      | done _ marked =>
          subst hran
          subst hstore
          exact h.after_mark marked rfl

/-! ## Whole schedules -/

/-- Every turn keeps the agreement, and only its caller can become the winner. -/
theorem Agrees.step (h : k.Agrees s schedule winner (k.run s schedule)) (hopen : k.Open s.store)
    (hunmisled : k.Unmisled s (schedule ++ [turn])) :
    ∃ winner', k.Agrees s (schedule ++ [turn]) winner' (k.run s (schedule ++ [turn])) ∧
      (winner' = winner ∨ winner = none ∧ winner' = some turn.caller) := by
  have hstands := h.stands turn.caller
  rw [run_append_singleton, Contest.step]
  generalize hprogress : (k.run s schedule).progress turn.caller = progress at hstands
  -- What the caller holds fixes which store call it makes, and with which arguments.
  cases hstands with
  | seeking => exact ⟨winner, h.after_seeking hopen hprogress rfl, Or.inl rfl⟩
  | storing => exact h.after_storing hopen hunmisled hprogress rfl
  | recovering taken unreversed reason =>
      exact ⟨winner, h.after_recovering hopen unreversed reason hprogress rfl, Or.inl rfl⟩
  | flagging w won =>
      subst won
      exact ⟨some w, h.after_flagging hprogress rfl, Or.inl rfl⟩
  | ended w won done =>
      refine ⟨winner, h.after_quiet rfl ?_, Or.inl rfl⟩
      exact .ended w won done
  | late won => exact ⟨winner, h.append turn, Or.inl rfl⟩
  | failed error faced => exact ⟨winner, h.append turn, Or.inl rfl⟩

def twinAfter (k : Contest ι) (s : Session) (schedule : List (Turn ι)) : Option Entry :=
  (k.run s schedule).session.store.find? k.twinId

/-- The insert of `w` succeeded in one of the turns. -/
def StoredBy (k : Contest ι) (s : Session) (schedule : List (Turn ι)) (w : ι) : Prop :=
  ∃ before turn after, schedule = before ++ turn :: after ∧ turn.caller = w ∧
    k.twinAfter s before = none ∧ k.twinAfter s (before ++ [turn]) = some (k.twin w)

theorem StoredBy.append {s : Session} {w : ι} (h : k.StoredBy s schedule w) (turn : Turn ι) :
    k.StoredBy s (schedule ++ [turn]) w := by
  obtain ⟨before, inserting, after, rfl, hcaller, hbefore, hafter⟩ := h
  exact ⟨before, inserting, after ++ [turn], by simp, hcaller, hbefore, hafter⟩

/-- The invariant holds after every schedule, and the winner is who it says. -/
theorem agrees_run {s : Session} (hopen : k.Open s.store) (schedule : List (Turn ι))
    (hunmisled : k.Unmisled s schedule) :
    ∃ winner, k.Agrees s schedule winner (k.run s schedule) ∧
      ∀ w, winner = some w → k.StoredBy s schedule w := by
  -- From the end: the last turn is taken in the state that the turns before it left.
  induction schedule using List.reverseRecOn with
  | nil =>
      refine ⟨none, agrees_start hopen, ?_⟩
      intro w hw
      cases hw
  | append_singleton schedule turn ih =>
      obtain ⟨winner, hagrees, hstored⟩ := ih hunmisled.of_append
      obtain ⟨winner', hagrees', hwinner⟩ := hagrees.step hopen hunmisled
      refine ⟨winner', hagrees', ?_⟩
      rintro w rfl
      rcases hwinner with hsame | ⟨rfl, hcaller⟩
      · exact (hstored w hsame.symm).append turn
      · obtain rfl := Option.some.inj hcaller
        exact ⟨schedule, turn, [], rfl, rfl, hagrees.twin_held, hagrees'.twin_held⟩

/-- Once a twin is stored, later turns leave it as it is. -/
theorem twinAfter_append {s : Session} (hopen : k.Open s.store) (before after : List (Turn ι))
    (hunmisled : k.Unmisled s (before ++ after)) :
    k.twinAfter s before = none ∨ k.twinAfter s (before ++ after) = k.twinAfter s before := by
  induction after using List.reverseRecOn with
  | nil =>
      rw [List.append_nil]
      exact Or.inr rfl
  | append_singleton after turn ih =>
      rw [← List.append_assoc] at hunmisled ⊢
      obtain ⟨winner, hagrees, -⟩ := agrees_run hopen (before ++ after) hunmisled.of_append
      obtain ⟨winner', hagrees', hwinner⟩ := hagrees.step hopen hunmisled
      have htwin : k.twinAfter s (before ++ after) = winner.map k.twin := hagrees.twin_held
      have htwin' : k.twinAfter s (before ++ after ++ [turn]) = winner'.map k.twin :=
        hagrees'.twin_held
      rcases ih hunmisled.of_append with hnone | hsame
      · exact Or.inl hnone
      · rcases hwinner with rfl | ⟨rfl, -⟩
        · rw [htwin', ← htwin, hsame]
          exact Or.inr rfl
        · rw [← hsame, htwin]
          exact Or.inl rfl

/--
What every caller can rely on after any turns: at most one twin was ever stored and it is never
rewritten, it is the winner's reversal of the original, the original is live or flagged with the
winner's time, every answer is the stored twin, and a caller fails for a failure of the store
that it met or because the original was flagged already.
-/
structure Consistent (k : Contest ι) (s : Session) (schedule : List (Turn ι))
    (winner : Option ι) : Prop where
  twin_held : k.twinAfter s schedule = winner.map k.twin
  twin_is_reversal : ∀ w, winner = some w →
    ∃ r, k.original.reversal (k.moments w) = .ok r ∧ r.timestamp = k.moments w ∧
      k.twin w = { r with reversed := some (k.moments w) }
  stored_by : ∀ w, winner = some w → k.StoredBy s schedule w
  never_rewritten : ∀ before after, before ++ after = schedule →
    k.twinAfter s before = none ∨ k.twinAfter s before = k.twinAfter s schedule
  original_held :
    (k.run s schedule).session.store.find? k.original.groupId = some k.original ∨
      ∃ w, winner = some w ∧
        (k.run s schedule).session.store.find? k.original.groupId =
          some { k.original with reversed := some (k.moments w) }
  others_held : ∀ other, other ≠ k.original.groupId → other ≠ k.twinId →
    (k.run s schedule).session.store.find? other = s.store.find? other
  answers : ∀ i answer, (k.run s schedule).progress i = .ok (.ended answer) →
    k.twinAfter s schedule = some answer ∧
      ∃ w, winner = some w ∧
        (k.run s schedule).session.store.find? k.original.groupId =
          some { k.original with reversed := some (k.moments w) }
  failures : ∀ i failure, (k.run s schedule).progress i = .error failure →
    failure = .refused (.validation (.alreadyReversed k.original.groupId)) ∧ winner ≠ none ∨
      ∃ error, failure = .refused error ∧ k.Faced s schedule i error

/--
Callers agree, however their store calls are interleaved and whichever of them fail, while no
insert fails as a duplicate of another reversal of the original. By `exists_alone` these are the
store calls of whole calls.
-/
theorem exists_consistent {s : Session} (hopen : k.Open s.store) (schedule : List (Turn ι))
    (hunmisled : k.Unmisled s schedule) :
    ∃ winner, k.Consistent s schedule winner := by
  obtain ⟨winner, hagrees, hstored⟩ := agrees_run hopen schedule hunmisled
  refine ⟨winner, hagrees.twin_held, ?_, hstored, ?_, hagrees.original_held, hagrees.others_held,
    ?_, ?_⟩
  · intro w _
    exact ⟨k.original.mirrored (k.moments w),
      Entry.reversal_eq_ok_iff.2 ⟨hopen.reversible, rfl⟩, rfl, rfl⟩
  · rintro before after rfl
    rcases twinAfter_append hopen before after hunmisled with hnone | hsame
    · exact Or.inl hnone
    · exact Or.inr hsame.symm
  · intro i answer hanswer
    have hstands := hagrees.stands i
    rw [hanswer] at hstands
    cases hstands with
    | ended w won done =>
        subst won
        exact ⟨hagrees.twin_held, w, rfl, done⟩
  · intro i failure hfailure
    have hstands := hagrees.stands i
    rw [hfailure] at hstands
    cases hstands with
    | late won => exact Or.inl ⟨rfl, won⟩
    | failed error faced => exact Or.inr ⟨error, rfl, faced⟩

end

private def depositContest : Contest (Fin 3) :=
  { original := Entry.sampleDeposit
    tolerance := .standard
    moments := fun i => ⟨i.val + 1⟩ }

/-- A reversal of the deposit that was stored under another id than a call gives it. -/
private def strayReversal : Entry :=
  { Entry.sampleDeposit.mirrored ⟨1⟩ with groupId := "insert failed" }

private def withStray : Session :=
  { Session.fresh with store := (Store.empty.put Entry.sampleDeposit).put strayReversal }

private def conflictOn (taken : String) : Outages :=
  Outages.none.queue .insert 1 (.refused (.ofService (.conflict taken)))

private theorem find?_withStray (id : String) :
    withStray.store.find? id =
      if id = "insert failed" then some strayReversal
      else if id = "deposit" then some Entry.sampleDeposit else none := by
  rw [withStray, Store.find?_put, Store.find?_put]
  rfl

private theorem open_withStray : depositContest.Open withStray.store where
  held := by
    rw [find?_withStray]
    rfl
  live := rfl
  original := rfl
  reversible := ⟨rfl, rfl, by decide, by decide⟩
  accepted := by
    unfold Entry.Accepted Calc.Yields
    decide +kernel
  free := by
    rw [find?_withStray]
    rfl

/--
All find the deposit live. The insert of one fails as a duplicate of an id that is free, another
stores the twin, and the third fails to flag the deposit.
-/
private def interleaved : List (Turn (Fin 3)) :=
  [⟨0, .none⟩, ⟨1, .none⟩, ⟨2, .none⟩, ⟨2, conflictOn "elsewhere"⟩, ⟨1, .none⟩, ⟨0, .none⟩,
    ⟨2, .none⟩, ⟨0, .none⟩, ⟨0, Outages.none.queue .mark 1 .idNotFound⟩, ⟨1, .none⟩]

theorem exists_consistent_interleaved :
    depositContest.Open withStray.store ∧ depositContest.Unmisled withStray interleaved ∧
      ∃ winner, depositContest.Consistent withStray interleaved winner := by
  have hunmisled : depositContest.Unmisled withStray interleaved := by
    rintro taken ⟨before, turn, after, target, twin, outage, rest, hschedule, -, met, claims⟩
      ⟨stored, held, -⟩
    have hmem : turn ∈ interleaved := by
      rw [hschedule]
      exact List.mem_append_right _ List.mem_cons_self
    have hdue : ∀ turn ∈ interleaved, ∀ outage ∈ turn.outages.pending .insert,
        outage = .refused (.duplicate "elsewhere") := by
      decide
    obtain rfl := hdue turn hmem outage (Outages.mem_of_take? met)
    cases claims
    rw [find?_withStray] at held
    cases held
  exact ⟨open_withStray, hunmisled, exists_consistent open_withStray interleaved hunmisled⟩

private def mistaken : List (Turn (Fin 3)) :=
  [⟨0, .none⟩, ⟨0, conflictOn "insert failed"⟩, ⟨0, .none⟩, ⟨0, .none⟩]

/-- The call answers with the other reversal and flags the deposit, and there is no twin. -/
theorem stray_reversal_taken_for_twin :
    depositContest.Open withStray.store ∧
      (depositContest.run withStray mistaken).progress 0 = .ok (.ended strayReversal) ∧
      depositContest.twinAfter withStray mistaken = none ∧
      (depositContest.run withStray mistaken).session.store.find? "deposit" =
        some (depositContest.flagged 0) ∧
      ¬ ∃ winner, depositContest.Consistent withStray mistaken winner := by
  have hanswer : (depositContest.run withStray mistaken).progress 0 =
      .ok (.ended strayReversal) := by
    rfl
  have htwin : depositContest.twinAfter withStray mistaken = none := by
    rfl
  refine ⟨open_withStray, hanswer, htwin, rfl, ?_⟩
  rintro ⟨winner, hconsistent⟩
  obtain ⟨hheld, -⟩ := hconsistent.answers 0 strayReversal hanswer
  cases htwin.symm.trans hheld

end Contest

end DoubleEntry
