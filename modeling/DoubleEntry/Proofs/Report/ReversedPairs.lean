import DoubleEntry.Proofs.Entry.MirroredTwins
import DoubleEntry.Proofs.Report.Conservation

/-!
# Reversed pairs

An entry and its reversal put the same two legs on a ledger twice, once on either
side, so under every account the signed legs of the two cancel, whatever is booked
in between. The pair can only show in that its accounts are listed, with nothing
on them. Reversing the reversal exchanges the sides once more.
-/

namespace DoubleEntry

/-! ## The pair -/

namespace Entry

/-- An account of the books stands on a side of the entry, shown as contra or not. -/
def Touches (e : Entry) (key : Account) : Prop :=
  ∃ side account, (e.posting side).account = some account ∧ account.withoutContra = key

theorem exists_leg_iff (e : Entry) (key : Account) :
    (∃ leg ∈ e.legs, leg.key = key) ↔ e.Touches key := by
  constructor
  · rintro ⟨leg, hmem, rfl⟩
    obtain ⟨posted, hposted, hleg⟩ := Option.map_eq_some_iff.1 ((mem_legs_iff e leg).1 hmem)
    obtain ⟨account, hon, rfl⟩ := Option.map_eq_some_iff.1 hposted
    exact ⟨leg.side, account, hon, by rw [← hleg]; rfl⟩
  · rintro ⟨side, account, hon, rfl⟩
    let leg : BookedLeg :=
      { account := account, amount := (e.posting side).amount
        currency := (e.posting side).currency, conversion := (e.posting side).conversion
        side := side }
    have hleg : e.leg? side = some leg := by
      rw [leg?, Posting.leg?, hon]
      rfl
    exact ⟨leg, (mem_legs_iff e leg).2 hleg, rfl⟩

theorem Mirrors.posting {e r : Entry} (h : r.Mirrors e) (side : Side) :
    r.posting side = e.posting side.opposite := by
  cases side with
  | debit => exact h.debit
  | credit => exact h.credit

theorem Mirrors.touches_iff {e r : Entry} (h : r.Mirrors e) (key : Account) :
    r.Touches key ↔ e.Touches key := by
  constructor
  · rintro ⟨side, account, hon, hkey⟩
    exact ⟨side.opposite, account, by rw [← h.posting, hon], hkey⟩
  · rintro ⟨side, account, hon, hkey⟩
    exact ⟨side.opposite, account, by rw [h.posting, Side.opposite_opposite, hon], hkey⟩

theorem mirrors_of_reversal {e r : Entry} {moment : Instant} (h : e.reversal moment = .ok r) :
    r.Mirrors e := by
  obtain ⟨-, rfl⟩ := reversal_eq_ok_iff.1 h
  exact ⟨rfl, rfl⟩

theorem Reversible.of_mirrors {e r : Entry} (he : e.Reversible) (h : r.Mirrors e) :
    r.Reversible where
  debit_set := by rw [h.debit, he.credit_set]
  credit_set := by rw [h.credit, he.debit_set]
  debit_amount := by rw [h.debit, he.credit_amount]
  credit_amount := by rw [h.credit, he.debit_amount]

/-- A reversal can be reversed at any time, and the sides are then where they were. -/
theorem exists_reversal_of_reversal {e r : Entry} {moment : Instant}
    (h : e.reversal moment = .ok r) (later : Instant) :
    ∃ back, r.reversal later = .ok back ∧ ∀ side, back.posting side = e.posting side := by
  have hmirrors := mirrors_of_reversal h
  obtain ⟨hreversible, -⟩ := reversal_eq_ok_iff.1 h
  have hback : r.reversal later = .ok (r.mirrored later) :=
    reversal_eq_ok_iff.2 ⟨hreversible.of_mirrors hmirrors, rfl⟩
  refine ⟨_, hback, fun side => ?_⟩
  rw [(mirrors_of_reversal hback).posting, hmirrors.posting, Side.opposite_opposite]

end Entry

/-! ## The pair among other entries -/

namespace LedgerTotals

variable {e r : Entry} {others ledger : List Entry} {before after : LedgerTotals}

theorem legsOf_perm (h : ledger.Perm (e :: r :: others)) :
    (legsOf ledger fun _ => true).Perm
      ((e.legs ++ r.legs) ++ legsOf others fun _ => true) := by
  have hflat := h.flatMap_right Entry.legs
  rw [List.flatMap_cons, List.flatMap_cons, ← List.append_assoc] at hflat
  unfold legsOf
  rwa [List.filter_eq_self.2 fun _ _ => rfl, List.filter_eq_self.2 fun _ _ => rfl]

/-- Under an account the pair adds nothing to a figure that legs add with their signs. -/
theorem figure_of_pair (hmirrors : r.Mirrors e) (hledger : ledger.Perm (e :: r :: others))
    (value : Leg → Rat) {figure : AccountTotals → Rat}
    (hadd : AccountTotals.Additive figure fun leg => value leg.toLeg * leg.sign.value)
    (hbefore : Groups true (legsOf others fun _ => true) before)
    (hafter : Groups true (legsOf ledger fun _ => true) after) (key : Account) :
    figure (after.totalOf key) = figure (before.totalOf key) := by
  have hperm := ((legsOf_perm hledger).filter fun leg => leg.key = key).map
    fun leg => value leg.toLeg * leg.sign.value
  have hpair : (((e.legs ++ r.legs).filter fun leg => leg.key = key).map
      fun leg => value leg.toLeg * leg.sign.value).sum = 0 :=
    hmirrors.sum_signed (fun account => account.withoutContra = key) value
  rw [hafter.figure_totalOf hadd, hbefore.figure_totalOf hadd]
  unfold legsUnder
  rw [hperm.sum_eq, List.filter_append, List.map_append, List.sum_append, hpair, zero_add]

theorem mem_keys_of_pair (hmirrors : r.Mirrors e) (hledger : ledger.Perm (e :: r :: others))
    (hbefore : Groups true (legsOf others fun _ => true) before)
    (hafter : Groups true (legsOf ledger fun _ => true) after) (key : Account) :
    key ∈ after.map Prod.fst ↔ key ∈ before.map Prod.fst ∨ e.Touches key := by
  rw [hafter.mem_keys_iff, hbefore.mem_keys_iff]
  simp only [(legsOf_perm hledger).mem_iff, List.mem_append, or_and_right, exists_or,
    Entry.exists_leg_iff, hmirrors.touches_iff, or_self]
  exact or_comm

theorem Groups.totalOf_of_not_mem {legs : List BookedLeg} {totals : LedgerTotals}
    {exactly : Bool} (h : Groups exactly legs totals) {key : Account}
    (hkey : key ∉ totals.map Prod.fst) : totals.totalOf key = .empty key := by
  have hnone : List.lookup key totals = none := by
    rw [← Option.not_isSome_iff_eq_none, h.found_iff, ← h.mem_keys_iff]
    exact hkey
  rw [totalOf, hnone, Option.getD_none]

/--
An entry and its reversal net to nothing. Put anywhere among other entries, the two change no
account's holdings and no account's conversions; they list no other accounts than the entry's own,
and those with nothing on them; and the reversal, reversed, is the entry's legs again.
-/
theorem net_of_reversed_pair {e r : Entry} {moment : Instant} (h : e.reversal moment = .ok r) :
    (∀ others ledger before after, ledger.Perm (e :: r :: others) →
      (ofEntries others fun _ => true).Exactly before →
      (ofEntries ledger fun _ => true).Exactly after →
      (∀ key c, ((after.totalOf key).native.amount c).value =
          ((before.totalOf key).native.amount c).value ∧
        ((after.totalOf key).converted.get c).value =
          ((before.totalOf key).converted.get c).value) ∧
      (∀ key, key ∈ after.map Prod.fst ↔ key ∈ before.map Prod.fst ∨ e.Touches key) ∧
      ∀ p ∈ after, p.1 ∉ before.map Prod.fst →
        ∀ c, (p.2.native.amount c).value = 0 ∧ (p.2.converted.get c).value = 0) ∧
    ∀ later, ∃ back, r.reversal later = .ok back ∧
      ∀ side, back.posting side = e.posting side := by
  have hmirrors := Entry.mirrors_of_reversal h
  refine ⟨?_, Entry.exists_reversal_of_reversal h⟩
  intro others ledger before after hledger hothers hall
  have hbefore := groups_ofEntries ((Calc.ends_true_iff _ _).2 hothers)
  have hafter := groups_ofEntries ((Calc.ends_true_iff _ _).2 hall)
  have hnative : ∀ key c, ((after.totalOf key).native.amount c).value =
      ((before.totalOf key).native.amount c).value :=
    fun key c => figure_of_pair hmirrors hledger (fun leg => leg.amountIn c)
      (AccountTotals.additive_native c) hbefore hafter key
  have hconverted : ∀ key c, ((after.totalOf key).converted.get c).value =
      ((before.totalOf key).converted.get c).value :=
    fun key c => figure_of_pair hmirrors hledger (fun leg => leg.worthIn c)
      (AccountTotals.additive_converted c) hbefore hafter key
  refine ⟨fun key c => ⟨hnative key c, hconverted key c⟩,
    mem_keys_of_pair hmirrors hledger hbefore hafter, ?_⟩
  intro p hp hnew c
  rw [← hafter.totalOf_of_mem hp, hnative, hconverted, hbefore.totalOf_of_not_mem hnew]
  simp [AccountTotals.empty]

private def treasury : Account :=
  .plain .asset "Treasury" ""

private def funding : Entry :=
  .sampleTransfer 0 treasury (.plain .equity "Owner" "") .ten .hive

private def payout : Entry :=
  { Entry.sampleTransfer 1 (.plain .liability "Customer" "alice") treasury .one .hive with
    credit := .ofLeg ⟨treasury.asContra, .ten, .hbd, .zero .epoch ""⟩ }

/-- The reversal is booked first, the payout last; the customer is listed with nothing. -/
theorem net_of_reversed_payout :
    ∃ r before after, payout.reversal ⟨9⟩ = .ok r ∧ [r, funding, payout].Perm [payout, r, funding] ∧
      (ofEntries [funding] fun _ => true).Exactly before ∧
      (ofEntries [r, funding, payout] fun _ => true).Exactly after ∧
      ((after.totalOf treasury).native.amount .hbd).value =
        ((before.totalOf treasury).native.amount .hbd).value ∧
      (∃ p ∈ after, p.1 = .plain .liability "Customer" "alice" ∧
        (p.2.native.amount .hive).value = 0 ∧ (p.2.converted.get .usd).value = 0) ∧
      ∃ back, r.reversal ⟨10⟩ = .ok back ∧ ∀ side, back.posting side = payout.posting side := by
  have hreversal : payout.reversal ⟨9⟩ = .ok (payout.mirrored ⟨9⟩) :=
    Entry.reversal_eq_ok_iff.2 ⟨⟨rfl, rfl, rfl, rfl⟩, rfl⟩
  have hperm : [payout.mirrored ⟨9⟩, funding, payout].Perm
      [payout, payout.mirrored ⟨9⟩, funding] :=
    List.perm_append_singleton payout [payout.mirrored ⟨9⟩, funding]
  have hothers : (ofEntries [funding] fun _ => true).isExact = true := by decide +kernel
  have hall : (ofEntries [payout.mirrored ⟨9⟩, funding, payout] fun _ => true).isExact = true := by
    decide +kernel
  obtain ⟨before, hbefore⟩ := Calc.exists_exactly hothers
  obtain ⟨after, hafter⟩ := Calc.exists_exactly hall
  have hlisted : (ofEntries [funding] fun _ => true).outcome.map (List.map Prod.fst) =
      .ok [treasury, .plain .equity "Owner" ""] := by
    decide +kernel
  obtain ⟨hpair, hback⟩ := net_of_reversed_pair hreversal
  obtain ⟨hfigures, hkeys, hnothing⟩ := hpair _ _ _ _ hperm hbefore hafter
  have hnew : Account.plain .liability "Customer" "alice" ∉ before.map Prod.fst := by
    rw [show (ofEntries [funding] fun _ => true) = .done before false from hbefore] at hlisted
    rw [Except.ok.inj hlisted]
    decide
  have htouched : payout.Touches (.plain .liability "Customer" "alice") :=
    ⟨.debit, _, rfl, rfl⟩
  obtain ⟨p, hp, hcustomer⟩ := List.mem_map.1 ((hkeys _).2 (Or.inr htouched))
  rw [← hcustomer] at hnew
  exact ⟨_, before, after, hreversal, hperm, hbefore, hafter, (hfigures treasury .hbd).1,
    ⟨p, hp, hcustomer, (hnothing p hp hnew .hive).1, (hnothing p hp hnew .usd).2⟩, hback ⟨10⟩⟩

end LedgerTotals

end DoubleEntry
