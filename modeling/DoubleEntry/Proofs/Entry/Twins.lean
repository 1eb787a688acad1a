import DoubleEntry.Entry.Cancelling

/-!
# Twins

What the reversal of an entry is, and when there is one. The twin that is stored
is the reversal with the flag of the call's time on it.
-/

namespace DoubleEntry

namespace Entry

/-- An entry of two legs is refused for a blank id or a negative amount, and for nothing else. -/
theorem ofLegs_eq_ok_iff {groupId : String} {category : Category} {timestamp : Instant}
    {debit credit : Leg} {e : Entry} :
    ofLegs groupId category timestamp debit credit = .ok e ↔
      (Text.isAllBlank groupId = false ∧ debit.amount.isNegative = false ∧
        credit.amount.isNegative = false) ∧
      e = {
        groupId := groupId
        shortId := shortIdOf groupId
        timestamp := timestamp
        category := category
        description := ""
        userMemo := ""
        custId := ""
        debit := .ofLeg debit
        credit := .ofLeg credit
        metadata := none
        reversed := none
        reversalOf := none } := by
  unfold ofLegs draft attach
  cases Text.isAllBlank groupId with
  | true => simp [bind, Except.bind]
  | false =>
      cases debit.amount.isNegative with
      | true => simp [bind, Except.bind]
      | false =>
          cases credit.amount.isNegative with
          | true => simp [bind, Except.bind, withPosting]
          | false => simp [bind, Except.bind, withPosting, eq_comm]

theorem isAllBlank_reversalId (groupId : String) :
    Text.isAllBlank (reversalId groupId) = false := by
  have hword : "_reversal".toList.all Text.isBlank = false := by decide
  rw [Text.isAllBlank, reversalId, String.toList_append, List.all_append, hword, Bool.and_false]

theorem reversalId_ne (groupId : String) : reversalId groupId ≠ groupId := by
  intro h
  have hlength := congrArg String.length h
  rw [reversalId, String.length_append] at hlength
  have hword : "_reversal".length = 9 := by decide
  omega

private theorem parts_of_leg? {p : Posting} {leg : Leg} (h : p.leg? = some leg) :
    Posting.ofLeg leg = p ∧ leg.amount = p.amount ∧ p.account.isSome = true := by
  unfold Posting.leg? at h
  cases hp : p.account with
  | none => simp [hp] at h
  | some account =>
      rw [hp] at h
      obtain rfl := Option.some.inj h
      cases p
      simp_all [Posting.ofLeg]

private theorem account_of_leg?_none {p : Posting} (h : p.leg? = none) :
    p.account.isSome = false := by
  unfold Posting.leg? at h
  simpa using h

/-! ## The reversal -/

/-- Both sides are set, and neither amount is negative. -/
structure Reversible (e : Entry) : Prop where
  debit_set : e.debit.account.isSome = true
  credit_set : e.credit.account.isSome = true
  debit_amount : e.debit.amount.isNegative = false
  credit_amount : e.credit.amount.isNegative = false

/-- The reversal of an entry, field by field. -/
def mirrored (e : Entry) (timestamp : Instant) : Entry :=
  { groupId := reversalId e.groupId
    shortId := shortIdOf (reversalId e.groupId)
    timestamp := timestamp
    category := .reversal
    description := "Reversal of " ++ e.shortId ++ ": " ++ e.description
    userMemo := ""
    custId := e.custId
    debit := e.credit
    credit := e.debit
    metadata := none
    reversed := none
    reversalOf := some e.groupId }

theorem reversal_eq_ok_iff {e r : Entry} {timestamp : Instant} :
    e.reversal timestamp = .ok r ↔ e.Reversible ∧ r = e.mirrored timestamp := by
  unfold reversal
  cases hdebit : e.debit.leg? with
  | none =>
      have hopen := account_of_leg?_none hdebit
      constructor
      · intro h
        cases h
      · rintro ⟨hrev, -⟩
        rw [hrev.debit_set] at hopen
        cases hopen
  | some debit =>
      cases hcredit : e.credit.leg? with
      | none =>
          have hopen := account_of_leg?_none hcredit
          constructor
          · intro h
            cases h
          · rintro ⟨hrev, -⟩
            rw [hrev.credit_set] at hopen
            cases hopen
      | some credit =>
          obtain ⟨hdebitLeg, hdebitAmount, hdebitSet⟩ := parts_of_leg? hdebit
          obtain ⟨hcreditLeg, hcreditAmount, hcreditSet⟩ := parts_of_leg? hcredit
          constructor
          · intro h
            dsimp only at h
            cases hlegs : ofLegs (reversalId e.groupId) .reversal timestamp credit debit with
            | error error =>
                rw [hlegs] at h
                cases h
            | ok twin =>
                rw [hlegs] at h
                cases h
                obtain ⟨⟨-, hcreditOk, hdebitOk⟩, rfl⟩ := ofLegs_eq_ok_iff.1 hlegs
                rw [hcreditAmount] at hcreditOk
                rw [hdebitAmount] at hdebitOk
                refine ⟨⟨hdebitSet, hcreditSet, hdebitOk, hcreditOk⟩, ?_⟩
                simp only [mirrored, hdebitLeg, hcreditLeg]
          · rintro ⟨hrev, rfl⟩
            have hamounts : credit.amount.isNegative = false ∧ debit.amount.isNegative = false := by
              rw [hcreditAmount, hdebitAmount]
              exact ⟨hrev.credit_amount, hrev.debit_amount⟩
            dsimp only
            rw [ofLegs_eq_ok_iff.2 ⟨⟨isAllBlank_reversalId e.groupId, hamounts⟩, rfl⟩]
            simp only [mirrored, ← hdebitLeg, ← hcreditLeg]
            rfl

def sampleDeposit : Entry :=
  let worth : Conversion := ⟨{ Amounts.zero with hive := .ten, usd := .one }, .epoch, ""⟩
  { groupId := "deposit", shortId := "", timestamp := ⟨0⟩, category := .deposit
    description := "", userMemo := "", custId := "alice"
    debit := .ofLeg ⟨.plain .asset "Treasury" "", .ten, .hive, worth⟩
    credit := .ofLeg ⟨.plain .liability "Customer" "alice", .ten, .hive, worth⟩
    metadata := none, reversed := none, reversalOf := none }

end Entry

/-! ## The stored twin -/

namespace Cancelling

/-- The twin that a call stores: the reversal, flagged with the time of the call. -/
def twin (c : Cancelling) (target : Entry) : Entry :=
  { target.mirrored c.moment with reversed := some c.moment }

theorem twinOf_eq_ok_iff {c : Cancelling} {target twin : Entry} :
    c.twinOf target = .ok twin ↔ target.Reversible ∧ twin = c.twin target := by
  unfold twinOf
  cases hreversal : target.reversal c.moment with
  | error error =>
      constructor
      · intro h
        cases h
      · rintro ⟨hrev, -⟩
        rw [Entry.reversal_eq_ok_iff.2 ⟨hrev, rfl⟩] at hreversal
        cases hreversal
  | ok r =>
      obtain ⟨hrev, rfl⟩ := Entry.reversal_eq_ok_iff.1 hreversal
      constructor
      · intro h
        cases h
        exact ⟨hrev, rfl⟩
      · rintro ⟨-, rfl⟩
        rfl

end Cancelling

end DoubleEntry
