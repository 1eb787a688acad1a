import DoubleEntry.Proofs.Entry.Acceptance
import DoubleEntry.Proofs.Entry.Tallies
import DoubleEntry.Proofs.Entry.Twins

/-!
# Built entries can be cancelled

An entry is built from a draft, or from two legs, by calls that set one thing each.
A leg with a negative amount is refused and leaves the entry as it was, so neither
amount of a built entry is negative. That is all its reversal needs besides the two
accounts, and the completeness check reads the sides alike: whatever is accepted has
a reversal that is accepted too, and a call to cancel it is refused for what the
store says, never for what the entry is.
-/

namespace DoubleEntry

/-! ## Building -/

inductive Amendment where
  | leg (side : Side) (leg : Leg)
  | description (text : String)
  | userMemo (text : String)
  | custId (text : String)
  | shortId (text : String)
  | metadata (document : Document)

namespace Entry

/-- The entry after a call; a leg that is refused leaves it as it was. -/
def amend (e : Entry) : Amendment → Entry
  | .leg side leg =>
    match e.attach side leg with
    | .ok attached => attached
    | .error _ => e
  | .description text => { e with description := text }
  | .userMemo text => { e with userMemo := text }
  | .custId text => { e with custId := text }
  | .shortId text => { e with shortId := text }
  | .metadata document => { e with metadata := some document }

inductive Built : Entry → Prop where
  | draft {groupId : String} {category : Category} {timestamp : Instant}
    {placeholder : Conversion} {e : Entry}
    (drafted : draft groupId category timestamp placeholder = .ok e) : Built e
  | ofLegs {groupId : String} {category : Category} {timestamp : Instant}
    {debit credit : Leg} {e : Entry}
    (made : ofLegs groupId category timestamp debit credit = .ok e) : Built e
  | amended {e : Entry} (built : Built e) (amendment : Amendment) : Built (e.amend amendment)

/-- No amount is negative, and the entry has no part in a reversal. -/
structure Unspoilt (e : Entry) : Prop where
  debit_amount : e.debit.amount.isNegative = false
  credit_amount : e.credit.amount.isNegative = false
  live : e.reversed = none
  original : e.reversalOf = none

theorem unspoilt_of_draft {groupId : String} {category : Category} {timestamp : Instant}
    {placeholder : Conversion} {e : Entry}
    (h : draft groupId category timestamp placeholder = .ok e) : e.Unspoilt := by
  unfold draft at h
  split at h
  · cases h
  · cases h
    exact ⟨rfl, rfl, rfl, rfl⟩

theorem Unspoilt.attach {e attached : Entry} {side : Side} {leg : Leg} (he : e.Unspoilt)
    (h : e.attach side leg = .ok attached) : attached.Unspoilt := by
  unfold Entry.attach at h
  split at h
  · cases h
  · rename_i hamount
    have hleg : leg.amount.isNegative = false := Bool.eq_false_iff.2 hamount
    cases h
    cases side with
    | debit => exact ⟨hleg, he.credit_amount, he.live, he.original⟩
    | credit => exact ⟨he.debit_amount, hleg, he.live, he.original⟩

theorem Unspoilt.amend {e : Entry} (he : e.Unspoilt) (amendment : Amendment) :
    (e.amend amendment).Unspoilt := by
  cases amendment with
  | leg side leg =>
      cases hattach : e.attach side leg with
      | ok attached => simpa only [Entry.amend, hattach] using he.attach hattach
      | error _ => simpa only [Entry.amend, hattach] using he
  | _ => exact ⟨he.debit_amount, he.credit_amount, he.live, he.original⟩

theorem Built.foldl {e : Entry} (h : e.Built) (amendments : List Amendment) :
    (amendments.foldl Entry.amend e).Built := by
  induction amendments generalizing e with
  | nil => exact h
  | cons amendment rest ih => exact ih (h.amended amendment)

theorem Built.unspoilt {e : Entry} (h : e.Built) : e.Unspoilt := by
  induction h with
  | draft drafted => exact unspoilt_of_draft drafted
  | ofLegs made =>
      obtain ⟨⟨-, hdebit, hcredit⟩, rfl⟩ := ofLegs_eq_ok_iff.1 made
      exact ⟨hdebit, hcredit, rfl, rfl⟩
  | amended _ amendment ih => exact ih.amend amendment

theorem Unspoilt.reversible {e : Entry} (h : e.Unspoilt) {tolerance : Tolerance}
    (accepted : e.Accepted tolerance) : e.Reversible := by
  obtain ⟨⟨hdebit, hcredit⟩, -⟩ := (accepted_iff e tolerance).1 accepted
  exact ⟨hdebit, hcredit, h.debit_amount, h.credit_amount⟩

end Entry

/-! ## Refusals -/

/-- The error is about an entry, and not about a store or what it holds. -/
def LedgerError.AboutEntry (error : LedgerError) : Prop :=
  error.kind = .validation ∨ error.kind = .notCompleted

theorem LedgerError.not_aboutEntry_notFound (groupId : String) :
    ¬ (LedgerError.notFound groupId).AboutEntry := by
  simp [AboutEntry, kind]

theorem LedgerError.not_aboutEntry_duplicate (groupId : String) :
    ¬ (LedgerError.duplicate groupId).AboutEntry := by
  simp [AboutEntry, kind]

/-- An error of the store call in a write is told as the store's. -/
theorem LedgerError.not_aboutEntry_told (error : LedgerError) (write : WriteKind)
    (groupId : String) : ¬ (error.told write groupId).AboutEntry := by
  cases error <;> simp [told, AboutEntry, kind]

/-- Failed searches and marks say nothing about entries: that is for the ledger to say. -/
def Outages.SilentOnEntries (o : Outages) : Prop :=
  ∀ call error, call = .find ∨ call = .mark →
    Outage.refused error ∈ o.pending call → ¬ error.AboutEntry

theorem Outages.SilentOnEntries.toError {o rest : Outages} (h : o.SilentOnEntries)
    {call : StoreCall} (hcall : call = .find ∨ call = .mark) {outage : Outage}
    (met : o.take? call = some (outage, rest)) (groupId : String) :
    ¬ (outage.toError groupId).AboutEntry := by
  cases outage with
  | refused error => exact h call error hcall (Outages.mem_of_take? met)
  | idNotFound => exact LedgerError.not_aboutEntry_notFound groupId
  | idTaken => exact LedgerError.not_aboutEntry_duplicate groupId

theorem Outages.SilentOnEntries.of_subset {o later : Outages} (h : o.SilentOnEntries)
    (hsubset : ∀ call, later.pending call ⊆ o.pending call) : later.SilentOnEntries :=
  fun call error hcall herror => h call error hcall (hsubset call herror)

def Failure.OfStore (failure : Failure) : Prop :=
  ∃ error, failure = .refused error ∧ ¬ error.AboutEntry

namespace Cancelling

open Operation

variable {s t : Session} {c : Cancelling} {target twin : Entry} {failure : Failure}

theorem ofStore_of_complete (hsilent : s.outages.SilentOnEntries)
    (h : s.run (c.complete target twin) = (.error failure, t)) : failure.OfStore := by
  have hcompleted := completed_of_run h
  generalize t.store = store at hcompleted
  cases hcompleted with
  | unmatched met => exact ⟨_, rfl, LedgerError.not_aboutEntry_notFound _⟩
  | failed outage rest met => exact ⟨_, rfl, hsilent.toError (Or.inr rfl) met _⟩
  | missing absent => exact ⟨_, rfl, LedgerError.not_aboutEntry_notFound _⟩

theorem ofStore_of_taken (hsilent : s.outages.SilentOnEntries) {taken : String}
    (h : s.run (c.findTwin taken >>= c.complete target) = (.error failure, t)) :
    failure.OfStore := by
  have hkept := c.uncounted_findTwin taken s
  rw [Session.run_bind] at h
  cases hfind : s.run (c.findTwin taken) with
  | mk sought u =>
      obtain ⟨hsought, -⟩ := twinSought_of_run hfind
      rw [hfind] at h hkept
      cases hsought with
      | failed outage rest met =>
          cases h
          exact ⟨_, rfl, hsilent.toError (Or.inl rfl) met _⟩
      | foreign other =>
          cases h
          exact ⟨_, rfl, LedgerError.not_aboutEntry_duplicate _⟩
      | found twin held reverses =>
          exact ofStore_of_complete (hsilent.of_subset hkept.failures) h

/-- A twin that the check accepts is stored, or it is the store that refuses it. -/
theorem ofStore_of_twin (hsilent : s.outages.SilentOnEntries)
    (accepted : twin.Accepted c.tolerance)
    (h : s.run (do
      match ← c.storeTwin twin with
      | none => c.complete target twin
      | some taken => c.findTwin taken >>= c.complete target) = (.error failure, t)) :
    failure.OfStore := by
  rw [Session.run_bind] at h
  cases hsave : s.run (c.storeTwin twin) with
  | mk saved u =>
      have hlater : u.outages.SilentOnEntries := by
        rw [run_storeTwin] at hsave
        cases hsave
        exact hsilent.of_subset (Session.pending_of_writeEnded (Entry.writeEnded_of_run rfl))
      have hsaved := twinSaved_of_run hsave
      rw [hsave] at h
      generalize u.store = store at hsaved
      cases hsaved with
      | unaccepted _ unaccepted => exact absurd accepted unaccepted
      | failed outage rest met =>
          cases h
          exact ⟨_, rfl, LedgerError.not_aboutEntry_told _ _ _⟩
      | claimed outage rest taken met claims => exact ofStore_of_taken hlater h
      | taken held => exact ofStore_of_taken hlater h
      | stored _ added _ => exact ofStore_of_complete hlater h

/-- A call to cancel an accepted original: it was flagged before, or the store refuses. -/
theorem refused_of_run (held : s.store.find? c.groupId = some target)
    (original : target.reversalOf = none) (reversible : target.Reversible)
    (accepted : target.Accepted c.tolerance) (hsilent : s.outages.SilentOnEntries)
    (h : s.run c.run = (.error failure, t)) :
    failure = .refused (.validation (.alreadyReversed c.groupId)) ∧ target.reversed ≠ none ∨
      failure.OfStore := by
  have htwin : (c.twin target).Accepted c.tolerance :=
    Entry.accepted_of_exchanged rfl rfl accepted
  unfold run at h
  rw [Session.run_bind] at h
  cases hfind : s.run c.findTarget with
  | mk found u =>
      have hsought := targetSought_of_run hfind
      rw [hfind] at h
      cases hsought with
      | failed outage rest met =>
          cases h
          exact Or.inr ⟨_, rfl, hsilent.toError (Or.inl rfl) met _⟩
      | missing absent => cases absent.symm.trans held
      | reversed other held' flagged =>
          obtain rfl := Option.some.inj (held'.symm.trans held)
          cases h
          exact Or.inl ⟨rfl, flagged⟩
      | reversal other held' reverses =>
          obtain rfl := Option.some.inj (held'.symm.trans held)
          exact absurd original reverses
      | found other targets =>
          obtain rfl := Option.some.inj (targets.held.symm.trans held)
          dsimp only at h
          rw [twinOf_eq_ok_iff.2 ⟨reversible, rfl⟩] at h
          exact Or.inr (ofStore_of_twin hsilent htwin h)

end Cancelling

/-! ## What completes can be cancelled -/

namespace Entry

/-- Nothing that is checked or exchanged is changed by a flag. -/
theorem OnlyFlagged.accepted {e later : Entry} {tolerance : Tolerance} (h : e.OnlyFlagged later)
    (accepted : e.Accepted tolerance) : later.Accepted tolerance := by
  rcases h with rfl | ⟨-, moment, rfl⟩
  · exact accepted
  · exact accepted

theorem OnlyFlagged.reversible {e later : Entry} (h : e.OnlyFlagged later)
    (reversible : e.Reversible) : later.Reversible ∧ later.reversalOf = e.reversalOf := by
  rcases h with rfl | ⟨-, moment, rfl⟩
  · exact ⟨reversible, rfl⟩
  · exact ⟨⟨reversible.debit_set, reversible.credit_set, reversible.debit_amount,
      reversible.credit_amount⟩, rfl⟩

/--
A built entry that the check accepts has a reversal, with the same verdict on the amounts and the
same gap, and the check accepts the reversal. Once the entry is stored under that tolerance, and
whatever happened to the session since, a call to cancel it under the tolerance never faults and
is never refused as incomplete; as invalid it is refused only when the entry was flagged before.
-/
theorem cancellable_of_built {e : Entry} (built : e.Built) :
    (∀ tolerance moment, e.Accepted tolerance →
      ∃ r, e.reversal moment = .ok r ∧
        (∀ balanced, (r.amountsBalanced tolerance).Yields balanced ↔
          (e.amountsBalanced tolerance).Yields balanced) ∧
        (∃ gap gap', e.msatsGap.Yields gap ∧ r.msatsGap.Yields gap' ∧ gap'.value = gap.value) ∧
        r.Accepted tolerance) ∧
    ∀ (s : Session) (kind : WriteKind) (c : Cancelling),
      (s.run (e.write kind c.tolerance)).1 = .ok () →
      ∀ (later : Session) (stored : Entry) (failure : Failure),
        later.store.find? c.groupId = some stored → e.OnlyFlagged stored →
        later.outages.SilentOnEntries → (later.run c.run).1 = .error failure →
        ∃ error, failure = .refused error ∧ error.kind ≠ .notCompleted ∧
          (error.kind = .validation → stored.isReversed = true) := by
  have hunspoilt := built.unspoilt
  constructor
  · intro tolerance moment haccepted
    have hreversible := hunspoilt.reversible haccepted
    obtain ⟨-, -, -, gap, hgap, -⟩ := (accepted_iff e tolerance).1 haccepted
    have hexchanged : ∃ gap', (e.mirrored moment).msatsGap.Yields gap' ∧ gap'.value = gap.value :=
      yields_msatsGap_of_exchanged rfl rfl hgap
    obtain ⟨gap', hgap', hvalue⟩ := hexchanged
    exact ⟨e.mirrored moment, reversal_eq_ok_iff.2 ⟨hreversible, rfl⟩,
      yields_amountsBalanced_of_exchanged rfl rfl, ⟨gap, gap', hgap, hgap', hvalue⟩,
      accepted_of_exchanged rfl rfl haccepted⟩
  · intro s kind c hsaved later stored failure hheld hflagged hsilent hfails
    have haccepted : e.Accepted c.tolerance := accepted_of_write hsaved
    obtain ⟨hreversible, horiginal⟩ := hflagged.reversible (hunspoilt.reversible haccepted)
    have hrun : later.run c.run = (.error failure, (later.run c.run).2) := Prod.ext hfails rfl
    rcases Cancelling.refused_of_run hheld (horiginal.trans hunspoilt.original) hreversible
      (hflagged.accepted haccepted) hsilent hrun with ⟨rfl, hreversed⟩ | ⟨error, rfl, hnot⟩
    · exact ⟨_, rfl, by simp [LedgerError.kind], fun _ => Option.isSome_iff_ne_none.2 hreversed⟩
    · exact ⟨error, rfl, fun h => hnot (Or.inr h), fun h => absurd (Or.inl h) hnot⟩

private def tenHiveWorth (account : Account) (amount : Decimal) : Leg :=
  ⟨account, amount, .hive, ⟨{ Amounts.zero with hive := .ten, usd := .one }, .epoch, ""⟩⟩

private def draftedDeposit : Entry :=
  { sampleDeposit with
    shortId := shortIdOf "deposit"
    custId := ""
    debit := .unset (.zero .epoch "")
    credit := .unset (.zero .epoch "") }

/-- A deposit whose first debit leg was refused. -/
private def builtDeposit : Entry :=
  [.leg .debit (tenHiveWorth (.plain .asset "Treasury" "") .minusOne),
    .leg .debit (tenHiveWorth (.plain .asset "Treasury" "") .ten),
    .leg .credit (tenHiveWorth (.plain .liability "Customer" "alice") .ten),
    .custId "alice"].foldl amend draftedDeposit

private def beforeFailedMark : Session :=
  { (Session.fresh.run (builtDeposit.save .standard)).2 with
    outages := Outages.none.queue .mark 1 .idNotFound }

private def cancelBuiltDeposit : Cancelling :=
  ⟨"deposit", ⟨1⟩, .standard⟩

/-- The mark of the call fails, which is no complaint about the deposit. -/
theorem cancellable_of_built_deposit :
    (∃ r, builtDeposit.reversal ⟨1⟩ = .ok r ∧ r.Accepted .standard) ∧
    ∃ error, (beforeFailedMark.run cancelBuiltDeposit.run).1 = .error (.refused error) ∧
      error.kind ≠ .notCompleted ∧ error.kind ≠ .validation := by
  have hbuilt : builtDeposit.Built := by
    have hdraft : draft "deposit" .deposit ⟨0⟩ (.zero .epoch "") = .ok draftedDeposit := rfl
    exact (Built.draft hdraft).foldl _
  have hsaved : (Session.fresh.run (builtDeposit.write .insert .standard)).1 = .ok () := by
    decide +kernel
  have hheld : beforeFailedMark.store.find? "deposit" = some builtDeposit := rfl
  have hsilent : beforeFailedMark.outages.SilentOnEntries := by
    intro call error hcall herror
    rcases hcall with rfl | rfl <;>
      simp [beforeFailedMark, Outages.queue, Outages.none] at herror
  have hfails : (beforeFailedMark.run cancelBuiltDeposit.run).1.isOk = false := by
    decide +kernel
  obtain ⟨hreversal, hcancelled⟩ := cancellable_of_built hbuilt
  constructor
  · obtain ⟨r, hr, -, -, haccepted⟩ := hreversal .standard ⟨1⟩ (accepted_of_write hsaved)
    exact ⟨r, hr, haccepted⟩
  · cases hrun : (beforeFailedMark.run cancelBuiltDeposit.run).1 with
    | ok twin =>
        rw [hrun] at hfails
        cases hfails
    | error failure =>
        obtain ⟨error, rfl, hkind, hvalid⟩ := hcancelled Session.fresh .insert cancelBuiltDeposit
          hsaved beforeFailedMark builtDeposit failure hheld (.refl builtDeposit) hsilent hrun
        exact ⟨error, rfl, hkind, fun h => absurd (hvalid h) (by decide)⟩

end Entry

end DoubleEntry
