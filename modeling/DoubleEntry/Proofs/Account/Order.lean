import DoubleEntry.Account

/-!
# The order of accounts

`Account.compare` is a strict total order: lexicographic, with equality only of
equal accounts. A list of accounts in this order is therefore fixed by its
members, and so is `sortDistinct`, whatever the order and the number of times in
which accounts were met.
-/

namespace DoubleEntry

theorem AccountType.rank_injective {a b : AccountType} (h : a.rank = b.rank) : a = b := by
  cases a <;> cases b <;> first | rfl | contradiction

namespace Account

/-! ## The comparison -/

theorem compare_eq_compareLex :
    Account.compare =
      compareLex (compareOn fun a => a.type.rank)
        (compareLex (compareOn Account.name)
          (compareLex (compareOn Account.sub) (compareOn Account.contra))) :=
  rfl

instance : Std.TransCmp Account.compare := by
  rw [compare_eq_compareLex]
  infer_instance

instance : Std.LawfulEqCmp Account.compare where
  eq_of_compare {a b} h := by
    simp only [compare, Ordering.then_eq_eq, Std.LawfulEqOrd.compare_eq_iff_eq] at h
    obtain ⟨htype, hname, hsub, hcontra⟩ := h
    cases a
    cases b
    simp only [mk.injEq]
    exact ⟨AccountType.rank_injective htype, hname, hsub, hcontra⟩

theorem compare_eq_iff (a b : Account) : a.compare b = .eq ↔ a = b :=
  Std.LawfulEqCmp.compare_eq_iff_eq

theorem compare_lt_trans {a b c : Account} (hab : a.compare b = .lt) (hbc : b.compare c = .lt) :
    a.compare c = .lt :=
  Std.TransCmp.lt_trans hab hbc

theorem ne_of_compare_gt {a b : Account} (h : a.compare b = .gt) : a ≠ b := by
  intro heq
  rw [(compare_eq_iff a b).2 heq] at h
  cases h

theorem lt_of_compare_gt {a b : Account} (h : a.compare b = .gt) : b.compare a = .lt :=
  Std.OrientedCmp.lt_of_gt h

/-! ## Lists in order -/

/-- Strictly in order, so no account comes twice. -/
def InOrder (accounts : List Account) : Prop :=
  accounts.Pairwise fun a b => a.compare b = .lt

theorem InOrder.nodup {accounts : List Account} (h : InOrder accounts) : accounts.Nodup := by
  refine List.Pairwise.imp ?_ h
  intro a b hlt heq
  rw [(compare_eq_iff a b).2 heq] at hlt
  cases hlt

/-- A list in order is fixed by its members. -/
theorem InOrder.eq_of_mem_iff {xs ys : List Account} (hxs : InOrder xs) (hys : InOrder ys)
    (h : ∀ a, a ∈ xs ↔ a ∈ ys) : xs = ys := by
  have hperm : xs.Perm ys := (List.perm_ext_iff_of_nodup hxs.nodup hys.nodup).2 h
  refine List.Perm.eq_of_pairwise ?_ hxs hys hperm
  intro a b _ _ hab hba
  have hself := compare_lt_trans hab hba
  rw [(compare_eq_iff a a).2 rfl] at hself
  cases hself

theorem mem_insertSorted (a x : Account) (sorted : List Account) :
    x ∈ insertSorted a sorted ↔ x = a ∨ x ∈ sorted := by
  induction sorted with
  | nil => simp [insertSorted]
  | cons b rest ih =>
      unfold insertSorted
      cases h : a.compare b with
      | lt => simp
      | eq =>
          obtain rfl := (compare_eq_iff a b).1 h
          simp
      | gt =>
          simp only [List.mem_cons, ih]
          exact or_left_comm

theorem InOrder.insertSorted (a : Account) {sorted : List Account} (h : InOrder sorted) :
    InOrder (insertSorted a sorted) := by
  induction sorted with
  | nil => simp [Account.insertSorted, InOrder]
  | cons b rest ih =>
      have hcons := List.pairwise_cons.1 h
      unfold Account.insertSorted
      cases hab : a.compare b with
      | lt =>
          refine List.pairwise_cons.2 ⟨?_, h⟩
          intro x hx
          rcases List.mem_cons.1 hx with rfl | hx
          · exact hab
          · exact compare_lt_trans hab (hcons.1 x hx)
      | eq => exact h
      | gt =>
          refine List.pairwise_cons.2 ⟨?_, ih hcons.2⟩
          intro x hx
          rcases (mem_insertSorted a x rest).1 hx with rfl | hx
          · exact lt_of_compare_gt hab
          · exact hcons.1 x hx

/-! ## The different accounts of a list -/

private theorem foldl_insertSorted (accounts sorted : List Account) (h : InOrder sorted) :
    InOrder (accounts.foldl (fun sorted a => insertSorted a sorted) sorted) ∧
      ∀ x, x ∈ accounts.foldl (fun sorted a => insertSorted a sorted) sorted ↔
        x ∈ accounts ∨ x ∈ sorted := by
  induction accounts generalizing sorted with
  | nil => exact ⟨h, by simp⟩
  | cons a rest ih =>
      obtain ⟨horder, hmem⟩ := ih (insertSorted a sorted) (h.insertSorted a)
      refine ⟨horder, fun x => ?_⟩
      rw [List.foldl_cons, hmem, mem_insertSorted, List.mem_cons]
      exact or_left_comm.trans or_assoc.symm

theorem inOrder_sortDistinct (accounts : List Account) : InOrder (sortDistinct accounts) :=
  (foldl_insertSorted accounts [] List.Pairwise.nil).1

theorem mem_sortDistinct (x : Account) (accounts : List Account) :
    x ∈ sortDistinct accounts ↔ x ∈ accounts := by
  simpa [sortDistinct] using (foldl_insertSorted accounts [] List.Pairwise.nil).2 x

end Account

end DoubleEntry
