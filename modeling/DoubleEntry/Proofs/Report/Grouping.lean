import DoubleEntry.Proofs.Account.Order
import DoubleEntry.Proofs.Calculations
import DoubleEntry.Report.Totals
import Mathlib

/-!
# Totals by account, grouped

Totals are observed by looking an account up. Adding a leg changes what stands
under its key and nothing else, so what stands under a key is what the legs of
that key come to, added up in their order, however many others came in between.
That holds of runs that round as well. A sum over accounts is then a sum over legs,
since every leg has one key.
-/

namespace DoubleEntry

def BookedLeg.key (leg : BookedLeg) : Account :=
  leg.account.withoutContra

@[simp] theorem BookedLeg.key_type (leg : BookedLeg) : leg.key.type = leg.account.type :=
  rfl

@[simp] theorem BookedLeg.key_name (leg : BookedLeg) : leg.key.name = leg.account.name :=
  rfl

variable {exactly : Bool}

theorem AccountTotals.ends_addLeg_iff (t : AccountTotals) (leg : BookedLeg) (t' : AccountTotals) :
    (t.addLeg leg).Ends exactly t' ↔
      ∃ amount, leg.amountSigned.Ends exactly amount ∧
      ∃ native, (t.native.addTo leg.currency amount).Ends exactly native ∧
      ∃ amounts, leg.amountsSigned.Ends exactly amounts ∧
      ∃ converted, (Amounts.add t.converted amounts).Ends exactly converted ∧
        ⟨if leg.account.contra && !t.account.contra then leg.account else t.account,
          native, converted, t.legCount + 1⟩ = t' := by
  simp only [addLeg, Calc.ends_bind_iff, Calc.ends_pure_iff]

namespace LedgerTotals

def totalOf (totals : LedgerTotals) (key : Account) : AccountTotals :=
  (List.lookup key totals).getD (.empty key)

/-! ## One leg -/

theorem keys_addLeg {key : Account} {leg : BookedLeg} {totals totals' : LedgerTotals}
    (h : (totals.addLeg key leg).Ends exactly totals') :
    totals'.map Prod.fst = Account.insertSorted key (totals.map Prod.fst) := by
  induction totals generalizing totals' with
  | nil =>
      simp only [addLeg, Calc.ends_bind_iff, Calc.ends_pure_iff] at h
      obtain ⟨fresh, -, rfl⟩ := h
      rfl
  | cons p rest ih =>
      obtain ⟨k, t⟩ := p
      unfold addLeg at h
      rw [List.map_cons, Account.insertSorted]
      cases hcmp : key.compare k with
      | lt =>
          simp only [hcmp, Calc.ends_bind_iff, Calc.ends_pure_iff] at h
          obtain ⟨fresh, -, rfl⟩ := h
          rfl
      | eq =>
          simp only [hcmp, Calc.ends_bind_iff, Calc.ends_pure_iff] at h
          obtain ⟨more, -, rfl⟩ := h
          rfl
      | gt =>
          simp only [hcmp, Calc.ends_bind_iff, Calc.ends_pure_iff] at h
          obtain ⟨others, hothers, rfl⟩ := h
          rw [List.map_cons, ih hothers]

theorem lookup_cons (key k : Account) (t : AccountTotals) (rest : LedgerTotals) :
    List.lookup key ((k, t) :: rest) = if key = k then some t else List.lookup key rest := by
  by_cases h : key = k
  · simp [h]
  · have hkey : (key == k) = false := by simpa using h
    simp [List.lookup_cons, hkey, h]

theorem lookup_eq_none_of_lt {key : Account} {totals : LedgerTotals}
    (h : ∀ k ∈ totals.map Prod.fst, key.compare k = .lt) : List.lookup key totals = none := by
  rw [List.lookup_eq_none_iff]
  intro p hp
  have hlt := h p.1 (List.mem_map_of_mem hp)
  rw [bne_iff_ne]
  intro heq
  rw [(Account.compare_eq_iff key p.1).2 heq] at hlt
  cases hlt

theorem totalOf_cons_of_lt {key k : Account} {t : AccountTotals} {rest : LedgerTotals}
    (horder : Account.InOrder (((k, t) :: rest).map Prod.fst)) (hcmp : key.compare k = .lt) :
    totalOf ((k, t) :: rest) key = .empty key := by
  rw [totalOf, lookup_eq_none_of_lt, Option.getD_none]
  intro k' hk'
  rcases List.mem_cons.1 hk' with rfl | hk'
  · exact hcmp
  · exact Account.compare_lt_trans hcmp ((List.pairwise_cons.1 horder).1 k' hk')

theorem totalOf_cons_of_ne {key k : Account} (t : AccountTotals) (rest : LedgerTotals)
    (hne : key ≠ k) : totalOf ((k, t) :: rest) key = totalOf rest key := by
  rw [totalOf, lookup_cons, if_neg hne, totalOf]

theorem totalOf_cons_self (key : Account) (t : AccountTotals) (rest : LedgerTotals) :
    totalOf ((key, t) :: rest) key = t := by
  rw [totalOf, lookup_cons, if_pos rfl, Option.getD_some]

/-- A leg is added to what stands under its key, and nothing else changes. -/
theorem lookup_addLeg {key : Account} {leg : BookedLeg} {totals totals' : LedgerTotals}
    (horder : Account.InOrder (totals.map Prod.fst))
    (h : (totals.addLeg key leg).Ends exactly totals') :
    ∃ t, ((totals.totalOf key).addLeg leg).Ends exactly t ∧
      ∀ k, List.lookup k totals' = if k = key then some t else List.lookup k totals := by
  induction totals generalizing totals' with
  | nil =>
      simp only [addLeg, Calc.ends_bind_iff, Calc.ends_pure_iff] at h
      obtain ⟨fresh, hfresh, rfl⟩ := h
      exact ⟨fresh, hfresh, fun k => lookup_cons k key fresh []⟩
  | cons p rest ih =>
      obtain ⟨k₀, t₀⟩ := p
      unfold addLeg at h
      -- The key goes before the first account, on it, or further on.
      cases hcmp : key.compare k₀ with
      | lt =>
          simp only [hcmp, Calc.ends_bind_iff, Calc.ends_pure_iff] at h
          obtain ⟨fresh, hfresh, rfl⟩ := h
          rw [totalOf_cons_of_lt horder hcmp]
          exact ⟨fresh, hfresh, fun k => lookup_cons k key fresh _⟩
      | eq =>
          simp only [hcmp, Calc.ends_bind_iff, Calc.ends_pure_iff] at h
          obtain ⟨more, hmore, rfl⟩ := h
          obtain rfl := (Account.compare_eq_iff key k₀).1 hcmp
          rw [totalOf_cons_self]
          refine ⟨more, hmore, fun k => ?_⟩
          rw [lookup_cons, lookup_cons]
          split <;> rfl
      | gt =>
          simp only [hcmp, Calc.ends_bind_iff, Calc.ends_pure_iff] at h
          obtain ⟨others, hothers, rfl⟩ := h
          have hne := Account.ne_of_compare_gt hcmp
          obtain ⟨t, ht, hlookup⟩ := ih (List.pairwise_cons.1 horder).2 hothers
          rw [totalOf_cons_of_ne t₀ rest hne]
          refine ⟨t, ht, fun k => ?_⟩
          rw [lookup_cons, lookup_cons, hlookup]
          by_cases hk : k = k₀
          · subst hk
            simp [hne.symm]
          · simp [hk]

/-! ## All legs -/

def legsUnder (key : Account) (legs : List BookedLeg) : List BookedLeg :=
  legs.filter fun leg => leg.key = key

/-- Every leg has one key, so a sum over keys and the legs of each is a sum over legs. -/
theorem sum_legsUnder (weight : Account → Rat) (share : BookedLeg → Rat) {keys : List Account}
    (hnodup : keys.Nodup) {legs : List BookedLeg} (hkeys : ∀ leg ∈ legs, leg.key ∈ keys) :
    (keys.map fun key => weight key * ((legsUnder key legs).map share).sum).sum =
      (legs.map fun leg => weight leg.key * share leg).sum := by
  induction legs with
  | nil => simp [legsUnder]
  | cons leg rest ih =>
      obtain ⟨hleg, hrest⟩ := List.forall_mem_cons.1 hkeys
      have hsplit : ∀ key, weight key * ((legsUnder key (leg :: rest)).map share).sum =
          (if key = leg.key then weight leg.key * share leg else 0) +
            weight key * ((legsUnder key rest).map share).sum := by
        intro key
        by_cases hkey : key = leg.key
        · subst hkey
          simp [legsUnder, mul_add]
        · simp [legsUnder, hkey, Ne.symm hkey]
      have hone : (keys.map fun key =>
          if key = leg.key then weight leg.key * share leg else 0).sum =
            weight leg.key * share leg := by
        rw [List.sum_map_ite_eq, List.count_eq_one_of_mem hnodup hleg]
        simp
      simp only [hsplit, List.sum_map_add, hone, ih hrest, List.map_cons, List.sum_cons]

/-- Under each account stand its own legs, added up in their order, and nothing else. -/
structure Groups (exactly : Bool) (legs : List BookedLeg) (totals : LedgerTotals) : Prop where
  inOrder : Account.InOrder (totals.map Prod.fst)
  found_iff : ∀ key, (List.lookup key totals).isSome = true ↔ ∃ leg ∈ legs, leg.key = key
  total : ∀ key,
    ((legsUnder key legs).foldlM AccountTotals.addLeg (.empty key)).Ends exactly
      (totals.totalOf key)

theorem groups_nil : Groups exactly [] [] where
  inOrder := List.Pairwise.nil
  found_iff key := by simp
  total key := (Calc.ends_pure_iff _ _).2 rfl

theorem Groups.addLeg {legs : List BookedLeg} {leg : BookedLeg} {totals totals' : LedgerTotals}
    (hgroups : Groups exactly legs totals)
    (h : (totals.addLeg leg.key leg).Ends exactly totals') :
    Groups exactly (legs ++ [leg]) totals' := by
  obtain ⟨t, ht, hlookup⟩ := lookup_addLeg hgroups.inOrder h
  refine ⟨?_, fun key => ?_, fun key => ?_⟩
  · rw [keys_addLeg h]
    exact hgroups.inOrder.insertSorted leg.key
  · rw [hlookup]
    by_cases hkey : key = leg.key
    · simp [hkey]
    · simp [hkey, hgroups.found_iff, eq_comm]
  · rw [legsUnder, List.filter_append, totalOf, hlookup]
    by_cases hkey : key = leg.key
    · subst hkey
      rw [if_pos rfl, List.foldlM_append, Calc.ends_bind_iff]
      have hone : [leg].filter (fun leg' => leg'.key = leg.key) = [leg] := by simp
      refine ⟨_, hgroups.total leg.key, ?_⟩
      rw [hone, List.foldlM_cons, Calc.ends_bind_iff]
      exact ⟨t, ht, (Calc.ends_pure_iff _ _).2 rfl⟩
    · have hnone : [leg].filter (fun leg => leg.key = key) = [] := by
        simpa using fun h' => hkey h'.symm
      rw [if_neg hkey, hnone, List.append_nil]
      exact hgroups.total key

theorem groups_ofEntries {entries : List Entry} {keep : BookedLeg → Bool} {totals : LedgerTotals}
    (h : (ofEntries entries keep).Ends exactly totals) :
    Groups exactly (legsOf entries keep) totals := by
  have hstep : ∀ (done : List BookedLeg) (totals : LedgerTotals) (leg : BookedLeg) totals',
      Groups exactly done totals →
      (totals.addLeg leg.account.withoutContra leg).Ends exactly totals' →
      Groups exactly (done ++ [leg]) totals' :=
    fun _ _ _ _ hdone hleg => hdone.addLeg hleg
  exact Calc.Ends.foldlM_inv hstep groups_nil h

namespace Groups

variable {legs : List BookedLeg} {totals : LedgerTotals}

theorem nodup_keys (h : Groups exactly legs totals) : (totals.map Prod.fst).Nodup :=
  h.inOrder.nodup

theorem lookup_of_mem (h : Groups exactly legs totals) {p : Account × AccountTotals}
    (hp : p ∈ totals) : List.lookup p.1 totals = some p.2 := by
  have hkeys := h.nodup_keys
  clear h
  induction totals with
  | nil => cases hp
  | cons q rest ih =>
      rw [List.map_cons, List.nodup_cons] at hkeys
      rw [lookup_cons]
      rcases List.mem_cons.1 hp with rfl | hrest
      · rw [if_pos rfl]
      · rw [if_neg, ih hrest hkeys.2]
        intro heq
        exact hkeys.1 (heq ▸ List.mem_map_of_mem hrest)

theorem totalOf_of_mem (h : Groups exactly legs totals) {p : Account × AccountTotals}
    (hp : p ∈ totals) : totals.totalOf p.1 = p.2 := by
  rw [totalOf, h.lookup_of_mem hp, Option.getD_some]

theorem mem_keys_iff (h : Groups exactly legs totals) (key : Account) :
    key ∈ totals.map Prod.fst ↔ ∃ leg ∈ legs, leg.key = key := by
  rw [← h.found_iff]
  constructor
  · intro hkey
    obtain ⟨p, hp, rfl⟩ := List.mem_map.1 hkey
    rw [h.lookup_of_mem hp, Option.isSome_some]
  · intro hfound
    obtain ⟨t, ht⟩ := Option.isSome_iff_exists.1 hfound
    obtain ⟨before, after, rfl, -⟩ := List.lookup_eq_some_iff.1 ht
    simp

/-- A total is shown as its key, or as the contra account of that key. -/
theorem withoutContra_account (h : Groups exactly legs totals) {p : Account × AccountTotals}
    (hp : p ∈ totals) : p.2.account.withoutContra = p.1 := by
  obtain ⟨first, -, hfirst⟩ := (h.mem_keys_iff p.1).1 (List.mem_map_of_mem hp)
  have hplain : p.1.withoutContra = p.1 := by
    rw [← hfirst, BookedLeg.key, Account.withoutContra_withoutContra]
  have hstep : ∀ (done : List BookedLeg) (t : AccountTotals) (leg : BookedLeg) t',
      ((∀ leg ∈ done, leg.key = p.1) → t.account.withoutContra = p.1) →
      (t.addLeg leg).Ends exactly t' →
      (∀ leg' ∈ done ++ [leg], leg'.key = p.1) → t'.account.withoutContra = p.1 := by
    intro done t leg t' hdone hleg hkeys
    obtain ⟨_, -, _, -, _, -, _, -, rfl⟩ := (t.ends_addLeg_iff leg t').1 hleg
    dsimp only
    split
    · exact hkeys leg (by simp)
    · exact hdone fun leg' hleg' => hkeys leg' (List.mem_append_left _ hleg')
  have htotal := h.total p.1
  rw [h.totalOf_of_mem hp] at htotal
  have hstart : (∀ leg ∈ ([] : List BookedLeg), leg.key = p.1) →
      (AccountTotals.empty p.1).account.withoutContra = p.1 := fun _ => hplain
  apply Calc.Ends.foldlM_inv hstep hstart htotal
  intro leg hleg
  exact of_decide_eq_true (List.mem_filter.1 hleg).2

/-- What is summed by account is summed by leg. -/
theorem sum_eq (h : Groups exactly legs totals) (weight : Account → Rat)
    {figure : AccountTotals → Rat} {share : BookedLeg → Rat}
    (hfigure : ∀ key, figure (totals.totalOf key) = ((legsUnder key legs).map share).sum) :
    (totals.map fun p => weight p.1 * figure p.2).sum =
      (legs.map fun leg => weight leg.key * share leg).sum := by
  have hkeys : ∀ leg ∈ legs, leg.key ∈ totals.map Prod.fst :=
    fun leg hleg => (h.mem_keys_iff leg.key).2 ⟨leg, hleg, rfl⟩
  rw [← sum_legsUnder weight share h.nodup_keys hkeys, List.map_map]
  congr 1
  apply List.map_congr_left
  intro p hp
  rw [Function.comp_apply, ← hfigure, h.totalOf_of_mem hp]

end Groups

end LedgerTotals

def Entry.sampleTransfer (nanos : Int) (debit credit : Account) (amount : Decimal)
    (currency : Currency) : Entry :=
  let worth : Conversion := ⟨{ Amounts.zero with hive := amount, usd := amount }, .epoch, ""⟩
  { groupId := "", shortId := "", timestamp := ⟨nanos⟩, category := .adjustment, description := ""
    userMemo := "", custId := "", debit := .ofLeg ⟨debit, amount, currency, worth⟩
    credit := .ofLeg ⟨credit, amount, currency, worth⟩, metadata := none, reversed := none
    reversalOf := none }

end DoubleEntry
