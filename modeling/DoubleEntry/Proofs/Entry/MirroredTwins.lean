import DoubleEntry.Proofs.Decimal.Signs
import DoubleEntry.Proofs.Entry.CancelledPairs
import DoubleEntry.Proofs.Entry.Provenance
import DoubleEntry.Proofs.Report.NetTotals

/-!
# Twins that mirror

A twin has the sides of its entry exchanged, so the two together move nothing. A
call that finds its twin in the store looks at whose twin it is and not at its
sides: when the entry was replaced since the twin was stored, the call answers
with a twin of the entry as it was. Without such writes every answer mirrors.
-/

namespace DoubleEntry

/-! ## Signed legs -/

theorem Leg.isSign_sign (leg : Leg) (side : Side) : (leg.sign side).IsSign := by
  unfold sign
  split
  · exact Or.inl rfl
  · exact Or.inr rfl

theorem Leg.value_sign_opposite (leg : Leg) (side : Side) :
    (leg.sign side.opposite).value = -(leg.sign side).value := by
  unfold sign
  cases leg.account.normalSide <;> cases side <;> simp [Side.opposite]

theorem BookedLeg.exists_signed (leg : BookedLeg) :
    ∃ amount amounts, leg.amountSigned.Exactly amount ∧ leg.amountsSigned.Exactly amounts := by
  have hsign := leg.toLeg.isSign_sign leg.side
  obtain ⟨amount, hamount⟩ := Decimal.exists_exactly_mul (a := leg.amount) hsign
  obtain ⟨amounts, hamounts⟩ := PerCurrency.exists_exactly_build fun c =>
    Decimal.exists_exactly_mul (a := leg.conversion.amounts.get c) hsign
  exact ⟨amount, amounts, hamount, hamounts⟩

/-! ## Sides exchanged -/

namespace Entry

structure Mirrors (twin e : Entry) : Prop where
  debit : twin.debit = e.credit
  credit : twin.credit = e.debit

/-- On any accounts, the signed amounts and conversions of both entries come to nothing. -/
def Offsets (twin e : Entry) : Prop :=
  ∃ (amount : BookedLeg → Decimal) (amounts : BookedLeg → Amounts),
    (∀ leg : BookedLeg, leg.amountSigned.Exactly (amount leg) ∧
      leg.amountsSigned.Exactly (amounts leg)) ∧
    ∀ (of : Account → Bool) (c : Currency),
      let legs := (e.legs ++ twin.legs).filter fun leg => of leg.account
      (legs.map fun leg => if c = leg.currency then (amount leg).value else 0).sum = 0 ∧
        (legs.map fun leg => ((amounts leg).get c).value).sum = 0

theorem Mirrors.flag {e twin : Entry} (h : twin.Mirrors e) (flag : Option Instant) :
    twin.Mirrors { e with reversed := flag } :=
  ⟨h.debit, h.credit⟩

private theorem sum_leg?_of (e : Entry) (side : Side) (of : Account → Bool) (value : Leg → Rat) :
    (((e.leg? side).toList.filter fun leg => of leg.account).map fun leg =>
      value leg.toLeg * leg.sign.value).sum =
      (((e.posting side).leg?.filter fun leg => of leg.account).map fun leg =>
        value leg * (leg.sign side).value).getD 0 := by
  unfold leg?
  cases (e.posting side).leg? with
  | none => rfl
  | some leg => cases hof : of leg.account <;> simp [hof, Option.filter_some, BookedLeg.sign]

theorem Mirrors.sum_signed {e twin : Entry} (h : twin.Mirrors e) (of : Account → Bool)
    (value : Leg → Rat) :
    (((e.legs ++ twin.legs).filter fun leg => of leg.account).map fun leg =>
      value leg.toLeg * leg.sign.value).sum = 0 := by
  have hopposite : ∀ (leg : Option Leg) (side : Side),
      (leg.map fun leg => value leg * (leg.sign side.opposite).value).getD 0 =
        -(leg.map fun leg => value leg * (leg.sign side).value).getD 0 := by
    rintro (_ | leg) side
    · simp
    · simp [Leg.value_sign_opposite]
  have hdebit := hopposite (e.debit.leg?.filter fun leg => of leg.account) .debit
  have hcredit := hopposite (e.credit.leg?.filter fun leg => of leg.account) .credit
  simp only [legs, List.filter_append, List.map_append, List.sum_append, sum_leg?_of, posting,
    h.debit, h.credit]
  simp only [Side.opposite] at hdebit hcredit
  rw [hdebit, hcredit]
  ring

theorem Mirrors.offsets {e twin : Entry} (h : twin.Mirrors e) : twin.Offsets e := by
  choose amount amounts hamount hamounts using BookedLeg.exists_signed
  refine ⟨amount, amounts, fun leg => ⟨hamount leg, hamounts leg⟩, ?_⟩
  intro of c legs
  have hnative : ∀ leg : BookedLeg, (if c = leg.currency then (amount leg).value else 0) =
      leg.amountIn c * leg.sign.value := by
    intro leg
    have hvalue : (amount leg).value = leg.amount.value * leg.sign.value :=
      Decimal.value_of_mul (hamount leg)
    rw [hvalue, Leg.amountIn, ite_mul, zero_mul]
  have hworth : ∀ leg : BookedLeg, ((amounts leg).get c).value =
      leg.worthIn c * leg.sign.value :=
    fun leg => Amounts.value_of_scale (hamounts leg) c
  simp only [hnative, hworth]
  exact ⟨h.sum_signed of fun leg => leg.amountIn c, h.sum_signed of fun leg => leg.worthIn c⟩

end Entry

theorem Cancelling.mirrors_twin (c : Cancelling) (target : Entry) :
    (c.twin target).Mirrors target :=
  ⟨rfl, rfl⟩

/-! ## Stores in which twins mirror -/

namespace Store

/-- What reverses an entry has its sides exchanged. -/
def Paired (s : Store) : Prop :=
  ∀ twinId twin groupId, s.find? twinId = some twin → twin.reversalOf = some groupId →
    ∃ e, s.find? groupId = some e ∧ twin.Mirrors e

theorem paired_empty : Paired empty := by
  intro twinId twin groupId h
  cases h

theorem Paired.insert? {s t : Store} {e : Entry} (hs : s.Paired) (h : s.insert? e = some t)
    (he : ∀ groupId, e.reversalOf = some groupId →
      ∃ original, s.find? groupId = some original ∧ e.Mirrors original) : t.Paired := by
  intro twinId twin groupId hheld hreverses
  have hbefore : ∃ original, s.find? groupId = some original ∧ twin.Mirrors original := by
    rw [find?_insert? h] at hheld
    split at hheld
    · obtain rfl := Option.some.inj hheld
      exact he groupId hreverses
    · exact hs twinId twin groupId hheld hreverses
  obtain ⟨original, horiginal, hmirrors⟩ := hbefore
  exact ⟨original, find?_insert?_of_some h horiginal, hmirrors⟩

/-- An entry that reverses nothing can be replaced while what reverses it still mirrors it. -/
theorem Paired.put {s : Store} {e : Entry} (hs : s.Paired) (hplain : e.reversalOf = none)
    (he : ∀ twinId twin, s.find? twinId = some twin → twin.reversalOf = some e.groupId →
      twin.Mirrors e) : (s.put e).Paired := by
  intro twinId twin groupId hheld hreverses
  rw [find?_put] at hheld
  split at hheld
  · obtain rfl := Option.some.inj hheld
    cases hplain.symm.trans hreverses
  · rw [find?_put]
    split
    · rename_i hid
      subst hid
      exact ⟨e, rfl, he twinId twin hheld hreverses⟩
    · exact hs twinId twin groupId hheld hreverses

theorem Paired.markReversed? {s t : Store} {groupId : String} {moment : Instant} (hs : s.Paired)
    (h : s.markReversed? groupId moment = some t) : t.Paired := by
  intro twinId twin groupId' hheld hreverses
  -- The twin before the flag has the same sides, and so has the entry after it.
  have htwin : ∃ before, s.find? twinId = some before ∧ before.reversalOf = some groupId' ∧
      twin.debit = before.debit ∧ twin.credit = before.credit := by
    rw [find?_markReversed? h] at hheld
    split at hheld
    · obtain ⟨before, hbefore, rfl⟩ := Option.map_eq_some_iff.1 hheld
      exact ⟨before, hbefore, hreverses, rfl, rfl⟩
    · exact ⟨twin, hheld, hreverses, rfl, rfl⟩
  obtain ⟨before, hbefore, hof, hdebit, hcredit⟩ := htwin
  obtain ⟨e, he, hmirrors⟩ := hs twinId before groupId' hbefore hof
  have hnow : ∃ flag, t.find? groupId' = some { e with reversed := flag } := by
    rw [find?_markReversed? h, he]
    split
    · exact ⟨some moment, rfl⟩
    · exact ⟨e.reversed, rfl⟩
  obtain ⟨flag, hflag⟩ := hnow
  refine ⟨_, hflag, ?_, ?_⟩
  · rw [hdebit, hmirrors.debit]
  · rw [hcredit, hmirrors.credit]

end Store

/-! ## Runs -/

theorem Entry.Written.paired {s : Session} {e : Entry} {kind : WriteKind} {tolerance : Tolerance}
    {outcome : Except Failure Unit} {store : Store}
    (h : Entry.Written s e kind tolerance outcome store) (hs : s.store.Paired)
    (hplain : e.reversalOf = none)
    (he : kind = .upsert → ∀ twinId twin, s.store.find? twinId = some twin →
      twin.reversalOf = some e.groupId → twin.Mirrors e) : store.Paired := by
  cases h with
  | stored _ accepted unmet done =>
      cases kind with
      | insert =>
          refine hs.insert? done ?_
          intro groupId hreverses
          cases hplain.symm.trans hreverses
      | upsert =>
          cases done
          exact hs.put hplain (he rfl)
  | _ => exact hs

theorem Cancelling.Cancelled.paired {s : Session} {c : Cancelling}
    {outcome : Except Failure Entry} {store : Store} (h : Cancelled s c outcome store)
    (hs : s.store.Paired) (hkeyed : s.store.Keyed) : store.Paired := by
  have htwin : ∀ target, c.Targets s.store target → ∀ groupId,
      (c.twin target).reversalOf = some groupId →
      ∃ original, s.store.find? groupId = some original ∧ (c.twin target).Mirrors original := by
    intro target targets groupId hof
    obtain rfl : target.groupId = groupId := Option.some.inj hof
    rw [targets.groupId_eq hkeyed]
    exact ⟨target, targets.held, c.mirrors_twin target⟩
  cases h with
  | stopped failure => exact hs
  | halfway failure target targets _ added => exact hs.insert? added (htwin target targets)
  | stored target targets between added _ marked =>
      exact Store.Paired.markReversed? (hs.insert? added (htwin target targets)) marked
  | recovered target targets taken named twin held reverses _ marked =>
      exact hs.markReversed? marked

/--
A move that writes no reversal by hand and does not replace an entry by one with other sides than
what reverses it mirrors.
-/
def Move.Undisturbing (s : Session) : Move → Prop
  | .calling (.save e _) => e.reversalOf = none
  | .calling (.upsert e _) => e.reversalOf = none ∧
    ∀ twinId twin, s.store.find? twinId = some twin → twin.reversalOf = some e.groupId →
      twin.Mirrors e
  | _ => True

theorem Move.paired_apply {s : Session} {move : Move} (hmove : move.Undisturbing s)
    (hs : s.store.Paired) (hkeyed : s.store.Keyed) : (move.apply s).store.Paired := by
  cases move with
  | failing outages => exact hs
  | calling call =>
      cases call with
      | save e tolerance =>
          have hwritten : Entry.Written s e .insert tolerance _ _ := Entry.written_of_run rfl
          refine hwritten.paired hs hmove ?_
          intro hkind
          cases hkind
      | upsert e tolerance =>
          have hwritten : Entry.Written s e .upsert tolerance _ _ := Entry.written_of_run rfl
          exact hwritten.paired hs hmove.1 fun _ => hmove.2
      | cancel c => exact (Cancelling.cancelled_of_run rfl).paired hs hkeyed

namespace Session

def Undisturbed : Session → List Move → Prop
  | _, [] => True
  | s, move :: rest => move.Undisturbing s ∧ Undisturbed (move.apply s) rest

theorem paired_after {s : Session} (hs : s.store.Paired) (hkeyed : s.store.Keyed)
    {moves : List Move} (hmoves : s.Undisturbed moves) : (s.after moves).store.Paired := by
  induction moves generalizing s with
  | nil => exact hs
  | cons move rest ih =>
      obtain ⟨hmove, hrest⟩ := hmoves
      exact ih (move.paired_apply hmove hs hkeyed) (move.keyed_apply hkeyed) hrest

end Session

namespace Cancelling

/--
An answer mirrors the document that is stored under the id of the call, unless a twin was there
before that did not. An answer that mirrors it offsets it; and along a run that writes no reversals
by hand, and replaces no entry by one that its twin does not mirror, every answer does.
-/
theorem answer_mirrors_iff {s t : Session} {c : Cancelling} {answer : Entry} (hs : s.Reachable)
    (h : s.run c.run = (.ok answer, t)) :
    ∃ stored, t.store.find? c.groupId = some stored ∧
      t.store.find? answer.groupId = some answer ∧
      (answer.Mirrors stored ↔
        ∀ twin, s.store.find? answer.groupId = some twin → twin.Mirrors stored) ∧
      (answer.Mirrors stored → answer.Offsets stored) ∧
      ∀ moves, s = Session.fresh.after moves → Session.fresh.Undisturbed moves →
        answer.Mirrors stored := by
  obtain ⟨target, targets, -, hflagged, htwin, hreverses, horigin⟩ :=
    (cancelled_of_run h).answer_held hs.keyed
  refine ⟨_, hflagged, htwin, ?_, Entry.Mirrors.offsets, ?_⟩
  · constructor
    · intro hmirrors twin hheld
      rcases horigin with hbefore | ⟨hnone, -⟩
      · obtain rfl := Option.some.inj (hheld.symm.trans hbefore)
        exact hmirrors
      · cases hheld.symm.trans hnone
    · intro hbefore
      rcases horigin with hheld | ⟨-, rfl⟩
      · exact hbefore answer hheld
      · exact (c.mirrors_twin target).flag _
  · rintro moves rfl hmoves
    rcases horigin with hheld | ⟨-, rfl⟩
    · have hpaired := Session.paired_after Store.paired_empty Store.keyed_empty hmoves
      obtain ⟨e, he, hmirrors⟩ := hpaired _ _ _ hheld hreverses
      obtain rfl := Option.some.inj (targets.held.symm.trans he)
      exact hmirrors.flag _
    · exact (c.mirrors_twin target).flag _

/-- The deposit is cancelled as far as the twin, and then replaced by one of a single HIVE. -/
private def replacedBetweenAttempts : Session :=
  let smaller : Entry :=
    { Entry.sampleDeposit with
      debit := { Entry.sampleDeposit.debit with amount := .one }
      credit := { Entry.sampleDeposit.credit with amount := .one } }
  let deposited := WritingCall.apply .fresh (.save Entry.sampleDeposit .standard)
  let failing := { deposited with outages := Outages.none.queue .mark 1 .idNotFound }
  let halfway := WritingCall.apply failing (.cancel ⟨"deposit", ⟨1⟩, .standard⟩)
  WritingCall.apply halfway (.upsert smaller .standard)

private def secondAttempt : Cancelling :=
  ⟨"deposit", ⟨2⟩, .standard⟩

/-- The second attempt answers with the twin of ten HIVE, where a single one is stored. -/
theorem replaced_entry_not_mirrored :
    ∃ answer t stored, replacedBetweenAttempts.run secondAttempt.run = (.ok answer, t) ∧
      t.store.find? "deposit" = some stored ∧ answer.debit.amount = .ten ∧
      stored.credit.amount = .one ∧ ¬ answer.Mirrors stored := by
  have hreachable : replacedBetweenAttempts.Reachable :=
    .called (.upsert _ _) (.called (.cancel _) (.failing _ (.called (.save _ _) .fresh)))
  have hanswered : (replacedBetweenAttempts.run secondAttempt.run).1.toOption.map
      (·.debit.amount) = some .ten := by
    decide +kernel
  have hstored : ((replacedBetweenAttempts.run secondAttempt.run).2.store.find? "deposit").map
      (·.credit.amount) = some .one := by
    decide +kernel
  cases hrun : replacedBetweenAttempts.run secondAttempt.run with
  | mk outcome t =>
      rw [hrun] at hanswered hstored
      cases outcome with
      | error failure => cases hanswered
      | ok answer =>
          obtain ⟨stored, hheld, -⟩ := answer_mirrors_iff hreachable hrun
          obtain ⟨held, hheld', hone⟩ := Option.map_eq_some_iff.1 hstored
          obtain rfl := Option.some.inj (hheld.symm.trans hheld')
          have hten : answer.debit.amount = .ten := Option.some.inj hanswered
          refine ⟨answer, t, stored, rfl, hheld, hten, hone, ?_⟩
          intro hmirrors
          rw [hmirrors.debit, hone] at hten
          exact absurd hten (by decide)

end Cancelling

end DoubleEntry
