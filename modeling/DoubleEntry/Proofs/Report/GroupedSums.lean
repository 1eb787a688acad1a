import DoubleEntry.Proofs.Report.Statements

/-!
# Totals as grouped sums

Totals by account are made leg by leg, and what they are made into is a grouping: one
place for each account that a leg is on, and in it sums over the legs of that account
alone. A fold over legs ends just when these sums do, so no leg overflows because of the
legs of another account. Sums that round depend on the order of the legs; exact ones do
not, and those of two lists of entries add up to those of both.
-/

namespace DoubleEntry

variable {exactly : Bool}

/-! ## The sums of one account -/

namespace AccountTotals

/-- What legs move of a currency, added up from the left. -/
def nativeSum (legs : List BookedLeg) (c : Currency) : Calc Decimal :=
  Decimal.sumOf BookedLeg.amountSigned (legs.filter fun leg => leg.currency = c)

def convertedSum (legs : List BookedLeg) : Calc Amounts :=
  legs.foldlM (fun total leg => do Amounts.add total (← leg.amountsSigned)) .zero

/-- What the legs of an account come to, shown as contra when one of them is. -/
structure Collects (exactly : Bool) (key : Account) (legs : List BookedLeg)
    (t : AccountTotals) : Prop where
  account : t.account = { key with contra := legs.any fun leg => leg.account.contra }
  legCount : t.legCount = legs.length
  held_iff : ∀ c, (t.native.get c).isSome = true ↔ ∃ leg ∈ legs, leg.currency = c
  native : ∀ c, (nativeSum legs c).Ends exactly (t.native.amount c)
  converted : (convertedSum legs).Ends exactly t.converted

variable {key : Account} {legs : List BookedLeg} {t : AccountTotals}

theorem account_of_foldlM (hplain : key.contra = false) (hkeys : ∀ leg ∈ legs, leg.key = key)
    (h : (legs.foldlM addLeg (empty key)).Ends exactly t) :
    t.account = { key with contra := legs.any fun leg => leg.account.contra } := by
  have hstep : ∀ (done : List BookedLeg) (t : AccountTotals) (leg : BookedLeg) t',
      ((∀ leg ∈ done, leg.key = key) →
        t.account = { key with contra := done.any fun leg => leg.account.contra }) →
      (t.addLeg leg).Ends exactly t' →
      (∀ leg' ∈ done ++ [leg], leg'.key = key) →
        t'.account = { key with contra := (done ++ [leg]).any fun leg => leg.account.contra } := by
    intro done t leg t' hdone hleg hkeys
    obtain ⟨_, -, _, -, _, -, _, -, rfl⟩ := (t.ends_addLeg_iff leg t').1 hleg
    have hshown := hdone fun leg' hleg' => hkeys leg' (List.mem_append_left _ hleg')
    have hkey : leg.account.withoutContra = key := hkeys leg (by simp)
    subst hkey
    -- What is shown changes with the first contra leg only.
    cases hcontra : leg.account.contra <;>
      cases hany : done.any fun leg => leg.account.contra <;>
        simp [hshown, hany, hcontra, Account.withoutContra]
    simp [← hcontra]
  have hstart : (∀ leg ∈ ([] : List BookedLeg), leg.key = key) →
      (empty key).account =
        { key with contra := ([] : List BookedLeg).any fun leg => leg.account.contra } := by
    intro _
    simp [empty, ← hplain]
  exact Calc.Ends.foldlM_inv hstep hstart h hkeys

theorem nativeSum_of_foldlM (h : (legs.foldlM addLeg (empty key)).Ends exactly t) (c : Currency) :
    (nativeSum legs c).Ends exactly (t.native.amount c) := by
  have hnothing : Decimal.zero = (empty key).native.amount c := by simp [empty]
  rw [nativeSum, Decimal.sumOf, List.foldlM_filter, hnothing]
  refine Calc.Ends.foldlM_view (fun held => Holdings.amount held c) ?_ (native_of_foldlM h)
  intro held leg held' hleg
  obtain ⟨amount, hamount, total, htotal, rfl⟩ := (held.ends_addLeg_iff leg held').1 hleg
  by_cases hc : leg.currency = c
  · subst hc
    simp only [decide_true, if_true, Calc.ends_bind_iff]
    exact ⟨amount, hamount, by simpa [Holdings.amount] using htotal⟩
  · simp only [hc, decide_false, Bool.false_eq_true, if_false, Calc.ends_pure_iff]
    simp [Holdings.amount, PerCurrency.get_set_of_ne _ _ (Ne.symm hc)]

theorem convertedSum_of_foldlM (h : (legs.foldlM addLeg (empty key)).Ends exactly t) :
    (convertedSum legs).Ends exactly t.converted := by
  refine Calc.Ends.foldlM_view AccountTotals.converted ?_ h
  intro t leg t' hleg
  obtain ⟨_, -, _, -, amounts, hamounts, converted, hconverted, rfl⟩ :=
    (t.ends_addLeg_iff leg t').1 hleg
  exact (Calc.ends_bind_iff _ _ _).2 ⟨amounts, hamounts, hconverted⟩

theorem collects_of_foldlM (hplain : key.contra = false) (hkeys : ∀ leg ∈ legs, leg.key = key)
    (h : (legs.foldlM addLeg (empty key)).Ends exactly t) : t.Collects exactly key legs where
  account := account_of_foldlM hplain hkeys h
  legCount := legCount_of_foldlM h
  held_iff := Holdings.isSome_get_of_foldlM (native_of_foldlM h)
  native := nativeSum_of_foldlM h
  converted := convertedSum_of_foldlM h

/-! ## Legs that can be added up -/

theorem ends_nativeSum_concat (legs : List BookedLeg) (leg : BookedLeg) (x : Decimal) :
    (nativeSum (legs ++ [leg]) leg.currency).Ends exactly x ↔
      ∃ total, (nativeSum legs leg.currency).Ends exactly total ∧
        ∃ amount, leg.amountSigned.Ends exactly amount ∧ (total.add amount).Ends exactly x := by
  have hone : [leg].filter (fun leg' => leg'.currency = leg.currency) = [leg] := by simp
  rw [nativeSum, List.filter_append, hone]
  simp only [nativeSum, Decimal.sumOf, Calc.ends_foldlM_concat_iff, Calc.ends_bind_iff]

theorem nativeSum_concat_of_ne (legs : List BookedLeg) {leg : BookedLeg} {c : Currency}
    (hc : leg.currency ≠ c) : nativeSum (legs ++ [leg]) c = nativeSum legs c := by
  have hnone : [leg].filter (fun leg => leg.currency = c) = [] := by simp [hc]
  rw [nativeSum, List.filter_append, hnone, List.append_nil, nativeSum]

theorem ends_convertedSum_concat (legs : List BookedLeg) (leg : BookedLeg) (x : Amounts) :
    (convertedSum (legs ++ [leg])).Ends exactly x ↔
      ∃ total, (convertedSum legs).Ends exactly total ∧
        ∃ amounts, leg.amountsSigned.Ends exactly amounts ∧
          (Amounts.add total amounts).Ends exactly x := by
  simp only [convertedSum, Calc.ends_foldlM_concat_iff, Calc.ends_bind_iff]

/-- Legs have a total when their sums have ends. -/
theorem exists_foldlM_of_sums (key : Account)
    (hnative : ∀ c, ∃ x, (nativeSum legs c).Ends exactly x)
    (hconverted : ∃ x, (convertedSum legs).Ends exactly x) :
    ∃ t, (legs.foldlM addLeg (empty key)).Ends exactly t := by
  induction legs using List.reverseRecOn with
  | nil => exact ⟨empty key, (Calc.ends_pure_iff _ _).2 rfl⟩
  | append_singleton legs leg ih =>
      have hbefore : ∀ c, ∃ x, (nativeSum legs c).Ends exactly x := by
        intro c
        obtain ⟨x, hx⟩ := hnative c
        by_cases hc : leg.currency = c
        · subst hc
          obtain ⟨total, htotal, -⟩ := (ends_nativeSum_concat legs leg x).1 hx
          exact ⟨total, htotal⟩
        · exact ⟨x, nativeSum_concat_of_ne legs hc ▸ hx⟩
      obtain ⟨sum, hsum⟩ := hnative leg.currency
      obtain ⟨total, htotal, amount, hamount, hadd⟩ := (ends_nativeSum_concat legs leg sum).1 hsum
      obtain ⟨converted, hconverted⟩ := hconverted
      obtain ⟨worth, hworth, amounts, hamounts, hmore⟩ :=
        (ends_convertedSum_concat legs leg converted).1 hconverted
      obtain ⟨t, ht⟩ := ih hbefore ⟨worth, hworth⟩
      -- The total so far holds what the sums so far end with, so it goes on as they do.
      obtain rfl := htotal.yields.unique (nativeSum_of_foldlM ht leg.currency).yields
      obtain rfl := hworth.yields.unique (convertedSum_of_foldlM ht).yields
      have hheld : (t.native.addTo leg.currency amount).Ends exactly
          (t.native.set leg.currency (some sum)) := by
        rw [Holdings.addTo, Calc.ends_bind_iff]
        exact ⟨sum, hadd, (Calc.ends_pure_iff _ _).2 rfl⟩
      have hlast := (t.ends_addLeg_iff leg _).2
        ⟨amount, hamount, _, hheld, amounts, hamounts, converted, hmore, rfl⟩
      exact ⟨_, (Calc.ends_foldlM_concat_iff _ _ _ _ _).2 ⟨t, ht, hlast⟩⟩

/-! ## Exact totals -/

structure Agrees (t t' : AccountTotals) : Prop where
  account : t.account = t'.account
  legCount : t.legCount = t'.legCount
  held : ∀ c, (t.native.get c).isSome = (t'.native.get c).isSome
  native : ∀ c, (t.native.amount c).value = (t'.native.amount c).value
  converted : ∀ c, (t.converted.get c).value = (t'.converted.get c).value

structure IsSum (t first last : AccountTotals) : Prop where
  account : t.account =
    { first.account with contra := first.account.contra || last.account.contra }
  legCount : t.legCount = first.legCount + last.legCount
  held : ∀ c, (t.native.get c).isSome =
    ((first.native.get c).isSome || (last.native.get c).isSome)
  native : ∀ c, (t.native.amount c).value =
    (first.native.amount c).value + (last.native.amount c).value
  converted : ∀ c, (t.converted.get c).value =
    (first.converted.get c).value + (last.converted.get c).value

theorem Collects.value_native (h : t.Collects true key legs) (c : Currency) :
    (t.native.amount c).value =
      ((legs.filter fun leg => leg.currency = c).map fun leg =>
        leg.amount.value * leg.sign.value).sum := by
  refine Decimal.value_of_sumOf ?_ ((Calc.ends_true_iff _ _).1 (h.native c))
  intro leg amount hamount
  exact Decimal.value_of_mul hamount

theorem Collects.value_converted (h : t.Collects true key legs) (c : Currency) :
    (t.converted.get c).value =
      (legs.map fun leg => (leg.conversion.amounts.get c).value * leg.sign.value).sum := by
  have hstep : ∀ (total : Amounts) (leg : BookedLeg) total',
      (do Amounts.add total (← leg.amountsSigned) : Calc Amounts).Exactly total' →
      (total'.get c).value =
        (total.get c).value + (leg.conversion.amounts.get c).value * leg.sign.value := by
    intro total leg total' hleg
    obtain ⟨amounts, hamounts, hadd⟩ := (Calc.exactly_bind_iff _ _ _).1 hleg
    rw [Amounts.value_of_add hadd c, Amounts.value_of_scale hamounts c]
    rfl
  have hrun := (Calc.ends_true_iff _ _).1 h.converted
  rw [Calc.measure_foldlM hstep hrun, Amounts.get_zero, Decimal.value_zero, zero_add]

theorem Collects.agrees {legs' : List BookedLeg} {t' : AccountTotals}
    (h : t.Collects true key legs) (h' : t'.Collects true key legs') (hperm : legs.Perm legs') :
    t.Agrees t' where
  account := by rw [h.account, h'.account, hperm.any_eq]
  legCount := by rw [h.legCount, h'.legCount, hperm.length_eq]
  held c := by
    rw [Bool.eq_iff_iff, h.held_iff, h'.held_iff]
    simp only [hperm.mem_iff]
  native c := by
    rw [h.value_native, h'.value_native]
    exact ((hperm.filter _).map _).sum_eq
  converted c := by
    rw [h.value_converted, h'.value_converted]
    exact (hperm.map _).sum_eq

theorem Collects.isSum {xs ys : List BookedLeg} {first last : AccountTotals}
    (h : t.Collects true key (xs ++ ys)) (hfirst : first.Collects true key xs)
    (hlast : last.Collects true key ys) : t.IsSum first last where
  account := by rw [h.account, hfirst.account, hlast.account, List.any_append]
  legCount := by rw [h.legCount, hfirst.legCount, hlast.legCount, List.length_append]
  held c := by
    rw [Bool.eq_iff_iff, Bool.or_eq_true_iff, h.held_iff, hfirst.held_iff, hlast.held_iff]
    simp only [List.mem_append, or_and_right, exists_or]
  native c := by
    rw [h.value_native, hfirst.value_native, hlast.value_native, List.filter_append,
      List.map_append, List.sum_append]
  converted c := by
    rw [h.value_converted, hfirst.value_converted, hlast.value_converted, List.map_append,
      List.sum_append]

end AccountTotals

/-! ## The grouping -/

namespace LedgerTotals

variable {legs : List BookedLeg} {totals : LedgerTotals}

theorem legsUnder_append (key : Account) (xs ys : List BookedLeg) :
    legsUnder key (xs ++ ys) = legsUnder key xs ++ legsUnder key ys :=
  List.filter_append xs ys

theorem legsUnder_concat_self (legs : List BookedLeg) (leg : BookedLeg) :
    legsUnder leg.key (legs ++ [leg]) = legsUnder leg.key legs ++ [leg] := by
  rw [legsUnder_append]
  simp [legsUnder]

theorem legsUnder_concat_of_ne (legs : List BookedLeg) {leg : BookedLeg} {key : Account}
    (hkey : leg.key ≠ key) : legsUnder key (legs ++ [leg]) = legsUnder key legs := by
  rw [legsUnder_append]
  simp [legsUnder, hkey]

/-- A leg is added to the totals when it can be added to what stands under its key. -/
theorem exists_addLeg {key : Account} {leg : BookedLeg}
    (horder : Account.InOrder (totals.map Prod.fst))
    (h : ∃ t, ((totals.totalOf key).addLeg leg).Ends exactly t) :
    ∃ totals', (totals.addLeg key leg).Ends exactly totals' := by
  induction totals with
  | nil => exact Calc.exists_ends_bind_pure _ h
  | cons p rest ih =>
      obtain ⟨k, t₀⟩ := p
      unfold addLeg
      cases hcmp : key.compare k with
      | lt =>
          rw [totalOf_cons_of_lt horder hcmp] at h
          exact Calc.exists_ends_bind_pure _ h
      | eq =>
          obtain rfl := (Account.compare_eq_iff key k).1 hcmp
          rw [totalOf_cons_self] at h
          exact Calc.exists_ends_bind_pure _ h
      | gt =>
          rw [totalOf_cons_of_ne t₀ rest (Account.ne_of_compare_gt hcmp)] at h
          exact Calc.exists_ends_bind_pure _ (ih (List.pairwise_cons.1 horder).2 h)

/-- Legs have totals when those of each key have one. -/
theorem exists_foldlM_of_keys
    (h : ∀ key, ∃ t, ((legsUnder key legs).foldlM AccountTotals.addLeg (.empty key)).Ends
      exactly t) :
    ∃ totals, (legs.foldlM (fun (totals : LedgerTotals) leg =>
      totals.addLeg leg.account.withoutContra leg) []).Ends exactly totals ∧
        Groups exactly legs totals := by
  induction legs using List.reverseRecOn with
  | nil => exact ⟨[], (Calc.ends_pure_iff _ _).2 rfl, groups_nil⟩
  | append_singleton legs leg ih =>
      have hown := h leg.key
      simp only [legsUnder_concat_self, Calc.ends_foldlM_concat_iff] at hown
      obtain ⟨t, before, hbefore, ht⟩ := hown
      have hfirst : ∀ key, ∃ t, ((legsUnder key legs).foldlM AccountTotals.addLeg
          (.empty key)).Ends exactly t := by
        intro key
        by_cases hkey : leg.key = key
        · exact hkey ▸ ⟨before, hbefore⟩
        · exact legsUnder_concat_of_ne legs hkey ▸ h key
      obtain ⟨totals, htotals, hgroups⟩ := ih hfirst
      obtain rfl := hbefore.yields.unique (hgroups.total leg.key).yields
      obtain ⟨totals', htotals'⟩ := exists_addLeg hgroups.inOrder ⟨t, ht⟩
      exact ⟨totals', (Calc.ends_foldlM_concat_iff _ _ _ _ _).2 ⟨totals, htotals, htotals'⟩,
        hgroups.addLeg htotals'⟩

theorem Groups.collects (h : Groups exactly legs totals) {key : Account}
    (hplain : key.contra = false) :
    (totals.totalOf key).Collects exactly key (legsUnder key legs) := by
  refine AccountTotals.collects_of_foldlM hplain ?_ (h.total key)
  intro leg hleg
  exact of_decide_eq_true (List.mem_filter.1 hleg).2

theorem Groups.plain_of_mem (h : Groups exactly legs totals) {key : Account}
    (hkey : key ∈ totals.map Prod.fst) : key.contra = false := by
  obtain ⟨leg, -, rfl⟩ := (h.mem_keys_iff key).1 hkey
  rfl

/-- No leg is lost or counted twice. -/
theorem Groups.sum_legCount (h : Groups exactly legs totals) :
    (totals.map fun p => p.2.legCount).sum = legs.length := by
  have hsum := @Groups.sum_eq _ _ _ h (fun _ => 1) (fun t => t.legCount) (fun _ => 1)
    h.legCount_totalOf
  rw [← Nat.cast_inj (R := Rat), Nat.cast_list_sum, List.map_map]
  simpa [Function.comp_def] using hsum

variable {entries : List Entry} {keep : BookedLeg → Bool}

/-- The totals end just when the sums of every account do. -/
theorem exists_ofEntries_iff (entries : List Entry) (keep : BookedLeg → Bool) :
    (∃ totals, (ofEntries entries keep).Ends exactly totals) ↔
      ∀ leg ∈ legsOf entries keep,
        (∀ c, ∃ x, (AccountTotals.nativeSum (legsUnder leg.key (legsOf entries keep)) c).Ends
          exactly x) ∧
        ∃ x, (AccountTotals.convertedSum (legsUnder leg.key (legsOf entries keep))).Ends
          exactly x := by
  constructor
  · rintro ⟨totals, htotals⟩ leg -
    have hplain : leg.key.contra = false := rfl
    have hcollects := (groups_ofEntries htotals).collects hplain
    exact ⟨fun c => ⟨_, hcollects.native c⟩, _, hcollects.converted⟩
  · intro h
    have hkeys : ∀ key, ∃ t, ((legsUnder key (legsOf entries keep)).foldlM AccountTotals.addLeg
        (.empty key)).Ends exactly t := by
      intro key
      by_cases hsome : ∃ leg ∈ legsOf entries keep, leg.key = key
      · obtain ⟨leg, hleg, rfl⟩ := hsome
        exact AccountTotals.exists_foldlM_of_sums _ (h leg hleg).1 (h leg hleg).2
      · have hnone : legsUnder key (legsOf entries keep) = [] := by
          rw [legsUnder, List.filter_eq_nil_iff]
          intro leg hleg hkey
          exact hsome ⟨leg, hleg, of_decide_eq_true hkey⟩
        rw [hnone]
        exact ⟨_, (Calc.ends_pure_iff _ _).2 rfl⟩
    obtain ⟨totals, htotals, -⟩ := exists_foldlM_of_keys hkeys
    exact ⟨totals, htotals⟩

/-! ## Entries in another order, and more entries -/

theorem perm_legsOf {entries entries' : List Entry} (hperm : entries.Perm entries')
    (keep : BookedLeg → Bool) : (legsOf entries keep).Perm (legsOf entries' keep) :=
  (hperm.flatMap_right Entry.legs).filter keep

theorem legsOf_append (front back : List Entry) (keep : BookedLeg → Bool) :
    legsOf (front ++ back) keep = legsOf front keep ++ legsOf back keep := by
  simp [legsOf]

def Agree (totals totals' : LedgerTotals) : Prop :=
  totals.map Prod.fst = totals'.map Prod.fst ∧
    ∀ key ∈ totals.map Prod.fst, (totals.totalOf key).Agrees (totals'.totalOf key)

def IsSum (totals first last : LedgerTotals) : Prop :=
  (∀ key, key ∈ totals.map Prod.fst ↔ key ∈ first.map Prod.fst ∨ key ∈ last.map Prod.fst) ∧
    ∀ key ∈ totals.map Prod.fst,
      (totals.totalOf key).IsSum (first.totalOf key) (last.totalOf key)

theorem Groups.agree {legs' : List BookedLeg} {totals' : LedgerTotals}
    (h : Groups true legs totals) (h' : Groups true legs' totals') (hperm : legs.Perm legs') :
    totals.Agree totals' := by
  constructor
  · refine h.inOrder.eq_of_mem_iff h'.inOrder fun key => ?_
    rw [h.mem_keys_iff, h'.mem_keys_iff]
    simp only [hperm.mem_iff]
  · intro key hkey
    have hplain := h.plain_of_mem hkey
    exact (h.collects hplain).agrees (h'.collects hplain) (hperm.filter _)

theorem Groups.isSum {xs ys : List BookedLeg} {first last : LedgerTotals}
    (h : Groups true (xs ++ ys) totals) (hfirst : Groups true xs first)
    (hlast : Groups true ys last) : totals.IsSum first last := by
  constructor
  · intro key
    rw [h.mem_keys_iff, hfirst.mem_keys_iff, hlast.mem_keys_iff]
    simp only [List.mem_append, or_and_right, exists_or]
  · intro key hkey
    have hplain := h.plain_of_mem hkey
    have hall := h.collects hplain
    rw [legsUnder_append] at hall
    exact hall.isSum (hfirst.collects hplain) (hlast.collects hplain)

/--
The totals of some entries group their legs and add them up. They end just when the sums of each
account on a leg do; then they have those accounts in order, under each what its own legs collect,
and count every leg once. Exact totals are the same for every order of the entries, and those of
two lists of entries add up to those of the lists one after the other.
-/
theorem groups_and_sums (entries : List Entry) (keep : BookedLeg → Bool) :
    ((∃ totals, (ofEntries entries keep).Yields totals) ↔
      ∀ leg ∈ legsOf entries keep,
        (∀ c, ∃ x, (AccountTotals.nativeSum (legsUnder leg.key (legsOf entries keep)) c).Yields
          x) ∧
        ∃ x, (AccountTotals.convertedSum (legsUnder leg.key (legsOf entries keep))).Yields x) ∧
    (∀ totals, (ofEntries entries keep).Yields totals →
      Account.InOrder (totals.map Prod.fst) ∧
      (∀ key, key ∈ totals.map Prod.fst ↔
        ∃ leg ∈ legsOf entries keep, leg.account.withoutContra = key) ∧
      (∀ p ∈ totals, p.2.Collects false p.1 (legsUnder p.1 (legsOf entries keep))) ∧
      (totals.map fun p => p.2.legCount).sum = (legsOf entries keep).length) ∧
    (∀ entries' totals totals', entries.Perm entries' →
      (ofEntries entries keep).Exactly totals → (ofEntries entries' keep).Exactly totals' →
      totals.Agree totals') ∧
    ∀ front back totals first last, entries = front ++ back →
      (ofEntries entries keep).Exactly totals → (ofEntries front keep).Exactly first →
      (ofEntries back keep).Exactly last → totals.IsSum first last := by
  simp only [← Calc.ends_false_iff, ← Calc.ends_true_iff]
  refine ⟨exists_ofEntries_iff entries keep, ?_, ?_, ?_⟩
  · intro totals htotals
    have hgroups := groups_ofEntries htotals
    refine ⟨hgroups.inOrder, hgroups.mem_keys_iff, fun p hp => ?_, hgroups.sum_legCount⟩
    rw [← hgroups.totalOf_of_mem hp]
    exact hgroups.collects (hgroups.plain_of_mem (List.mem_map_of_mem hp))
  · intro entries' totals totals' hperm htotals htotals'
    exact (groups_ofEntries htotals).agree (groups_ofEntries htotals') (perm_legsOf hperm keep)
  · rintro front back totals first last rfl htotals hfirst hlast
    have hgroups := groups_ofEntries htotals
    rw [legsOf_append] at hgroups
    exact hgroups.isSum (groups_ofEntries hfirst) (groups_ofEntries hlast)

private def mixedVault : Account :=
  .plain .asset "Vault" "hot"

private def mixedFront : List Entry :=
  [.sampleTransfer 0 mixedVault (.plain .liability "Customer" "alice") (.ofByte 9) .hive]

private def mixedBack : List Entry :=
  [.sampleTransfer 1 (.plain .expense "Fees" "") mixedVault.asContra (.ofByte 2) .hive,
    .sampleTransfer 2 mixedVault mixedVault (.ofByte 5) .hbd]

theorem groups_and_sums_of_mixed_legs :
    ∃ totals first last,
      (ofEntries (mixedFront ++ mixedBack) fun _ => true).Exactly totals ∧
      (ofEntries mixedFront fun _ => true).Exactly first ∧
      (ofEntries mixedBack fun _ => true).Exactly last ∧
      (totals.map fun p => p.2.legCount).sum = 6 ∧ totals.IsSum first last ∧
      ∃ t, (mixedVault, t) ∈ totals ∧ t.account = mixedVault.asContra ∧ t.legCount = 4 := by
  have hall : (ofEntries (mixedFront ++ mixedBack) fun _ => true).isExact = true := by
    decide +kernel
  have hfront : (ofEntries mixedFront fun _ => true).isExact = true := by decide +kernel
  have hback : (ofEntries mixedBack fun _ => true).isExact = true := by decide +kernel
  obtain ⟨totals, htotals⟩ := Calc.exists_exactly hall
  obtain ⟨first, hfirst⟩ := Calc.exists_exactly hfront
  obtain ⟨last, hlast⟩ := Calc.exists_exactly hback
  obtain ⟨-, hyields, -, happend⟩ := groups_and_sums (mixedFront ++ mixedBack) fun _ => true
  obtain ⟨-, hkeys, hcollects, hcount⟩ := hyields totals htotals.yields
  have hsix : (legsOf (mixedFront ++ mixedBack) fun _ => true).length = 6 := by decide +kernel
  have hvault : mixedVault ∈ totals.map Prod.fst := (hkeys _).2 (by decide +kernel)
  obtain ⟨⟨key, t⟩, ht, hkey⟩ := List.mem_map.1 hvault
  obtain rfl : key = mixedVault := hkey
  have hlegs : t.Collects false mixedVault
      (legsUnder mixedVault (legsOf (mixedFront ++ mixedBack) fun _ => true)) := hcollects _ ht
  refine ⟨totals, first, last, htotals, hfirst, hlast, hcount.trans hsix,
    happend _ _ _ _ _ rfl htotals hfirst hlast, t, ht, ?_, ?_⟩
  · rw [hlegs.account]
    decide +kernel
  · rw [hlegs.legCount]
    decide +kernel

end LedgerTotals

end DoubleEntry
