import DoubleEntry.Amounts
import Mathlib

/-!
# Values of exact runs

A run that took no rounded step computes with the numbers that its decimals stand
for. Each operation has one lemma here that reads the value of its result off an
exact run; `Calc.measure_foldlM` carries such readings through a fold, whatever
is being added up. Nothing is said about runs that round or fault.
-/

namespace DoubleEntry

/-! ## Folds and tables -/

namespace Calc

def isExact : Calc α → Bool
  | .fault _ => false
  | .done _ rounded => !rounded

theorem exists_exactly {run : Calc α} (h : run.isExact = true) : ∃ x, run.Exactly x := by
  cases run with
  | fault reason => cases h
  | done x rounded =>
      refine ⟨x, ?_⟩
      simpa [isExact, Exactly] using h

/-- What each step of a fold adds to a measure of its state is added up by the fold. -/
theorem measure_foldlM {step : β → α → Calc β} {measure : β → Rat} {added : α → Rat}
    (hstep : ∀ b x b', (step b x).Exactly b' → measure b' = measure b + added x)
    {xs : List α} {b out : β} (h : (xs.foldlM step b).Exactly out) :
    measure out = measure b + (xs.map added).sum := by
  induction xs generalizing b with
  | nil =>
      rw [List.foldlM_nil, exactly_pure_iff] at h
      rw [h, List.map_nil, List.sum_nil, add_zero]
  | cons x rest ih =>
      rw [List.foldlM_cons, exactly_bind_iff] at h
      obtain ⟨next, hfirst, hrest⟩ := h
      rw [ih hrest, hstep b x next hfirst, List.map_cons, List.sum_cons, add_assoc]

end Calc

theorem PerCurrency.exactly_build {f : Currency → Calc α} {table : PerCurrency α}
    (h : (PerCurrency.build f).Exactly table) (c : Currency) : (f c).Exactly (table.get c) := by
  simp only [PerCurrency.build, Calc.exactly_bind_iff, Calc.exactly_pure_iff] at h
  obtain ⟨hive, h₁, hbd, h₂, usd, h₃, btc, h₄, sats, h₅, msats, h₆, rfl⟩ := h
  cases c <;> assumption

/-! ## Decimals -/

namespace Decimal

def ofByte (n : UInt8) : Decimal :=
  .ofNat n.toNat (Nat.lt_trans n.toNat_lt (by decide))

@[simp] theorem value_zero : zero.value = 0 := by
  simp [value, zero, ofNat, signed]

@[simp] theorem value_one : one.value = 1 := by
  rfl

@[simp] theorem value_neg (a : Decimal) : a.neg.value = -a.value := by
  unfold value neg signed
  cases a.negative <;> simp [Rat.neg_mkRat]

@[simp] theorem value_minusOne : minusOne.value = -1 := by
  rw [show minusOne = one.neg from rfl, value_neg, value_one]

theorem value_of_isZero {a : Decimal} (h : a.isZero = true) : a.value = 0 := by
  simp only [isZero, beq_iff_eq] at h
  simp [value, signed, h]

/-- The flag compares with the exact result, so without it the result is exact. -/
theorem value_of_settle {overflow : Fault} {exact : Rat} {fitted : Option Decimal} {c : Decimal}
    (h : (settle overflow exact fitted).Exactly c) : c.value = exact := by
  unfold settle at h
  split at h
  · cases h
  · simp only [Calc.Exactly, Calc.done.injEq, bne_eq_false_iff_eq] at h
    rw [← h.1]
    exact h.2

theorem value_of_add {a b c : Decimal} (h : (a.add b).Exactly c) :
    c.value = a.value + b.value := by
  unfold add at h
  split at h
  · rename_i ha
    rw [Calc.exactly_pure_iff] at h
    rw [← h, value_of_isZero ha, zero_add]
  · split at h
    · rename_i hb
      rw [Calc.exactly_pure_iff] at h
      rw [← h, value_of_isZero hb, add_zero]
    · exact value_of_settle h

theorem value_of_sub {a b c : Decimal} (h : (a.sub b).Exactly c) :
    c.value = a.value - b.value := by
  unfold sub at h
  split at h
  · rename_i ha
    rw [Calc.exactly_pure_iff] at h
    rw [← h, value_of_isZero ha, zero_sub]
    split
    · rename_i hb
      rw [value_of_isZero hb, neg_zero]
    · exact value_neg b
  · split at h
    · rename_i hb
      rw [Calc.exactly_pure_iff] at h
      rw [← h, value_of_isZero hb, sub_zero]
    · rw [value_of_settle h, value_neg, sub_eq_add_neg]

theorem value_of_mul {a b c : Decimal} (h : (a.mul b).Exactly c) :
    c.value = a.value * b.value := by
  unfold mul at h
  split at h
  · rename_i hzero
    rw [Calc.exactly_pure_iff] at h
    rw [← h, value_zero]
    rcases Bool.or_eq_true_iff.1 hzero with ha | hb
    · rw [value_of_isZero ha, zero_mul]
    · rw [value_of_isZero hb, mul_zero]
  · dsimp only at h
    split at h <;> exact value_of_settle h

theorem value_of_sumOf {f : α → Calc Decimal} {figure : α → Rat}
    (hf : ∀ x y, (f x).Exactly y → y.value = figure x) {xs : List α} {total : Decimal}
    (h : (sumOf f xs).Exactly total) : total.value = (xs.map figure).sum := by
  have hstep : ∀ (sum : Decimal) x sum', (do let y ← f x; sum.add y).Exactly sum' →
      sum'.value = sum.value + figure x := by
    intro sum x sum' hx
    obtain ⟨y, hy, hsum⟩ := (Calc.exactly_bind_iff _ _ _).1 hx
    rw [value_of_add hsum, hf x y hy]
  rw [Calc.measure_foldlM hstep h, value_zero, zero_add]

end Decimal

/-! ## Amounts -/

namespace Amounts

@[simp] theorem get_zero (c : Currency) : Amounts.zero.get c = .zero := by
  simp [Amounts.zero]

theorem value_of_add {a b total : Amounts} (h : (Amounts.add a b).Exactly total) (c : Currency) :
    (total.get c).value = (a.get c).value + (b.get c).value :=
  Decimal.value_of_add (PerCurrency.exactly_build h c)

theorem value_of_sub {a b rest : Amounts} (h : (Amounts.sub a b).Exactly rest) (c : Currency) :
    (rest.get c).value = (a.get c).value - (b.get c).value := by
  rw [value_of_add h c, Amounts.neg, PerCurrency.get_map, Decimal.value_neg, sub_eq_add_neg]

theorem value_of_scale {factor : Decimal} {a scaled : Amounts}
    (h : (Amounts.scale factor a).Exactly scaled) (c : Currency) :
    (scaled.get c).value = (a.get c).value * factor.value :=
  Decimal.value_of_mul (PerCurrency.exactly_build h c)

end Amounts

/-! ## Holdings -/

namespace Holdings

@[simp] theorem amount_empty (c : Currency) : empty.amount c = .zero := by
  simp [amount, empty]

theorem value_of_addTo {h h' : Holdings} {c : Currency} {x : Decimal}
    (hadd : (h.addTo c x).Exactly h') (d : Currency) :
    (h'.amount d).value = (h.amount d).value + if d = c then x.value else 0 := by
  simp only [addTo, Calc.exactly_bind_iff, Calc.exactly_pure_iff] at hadd
  obtain ⟨total, htotal, rfl⟩ := hadd
  by_cases hd : d = c
  · subst hd
    simpa [amount] using Decimal.value_of_add htotal
  · simp [amount, PerCurrency.get_set_of_ne, hd]

theorem sum_entries (h : Holdings) (c : Currency) (factor : Rat) :
    (h.entries.map fun p => if c = p.1 then p.2.value * factor else 0).sum =
      (h.amount c).value * factor := by
  have hplaces : ∀ cs : List Currency,
      ((cs.filterMap fun d => (h.get d).map (d, ·)).map fun p =>
        if c = p.1 then p.2.value * factor else 0).sum =
        (cs.map fun d => if c = d then (h.amount c).value * factor else 0).sum := by
    intro cs
    induction cs with
    | nil => rfl
    | cons d rest ih =>
        rw [List.filterMap_cons, List.map_cons, List.sum_cons, ← ih]
        by_cases hd : c = d
        · subst hd
          cases hget : h.get c <;> simp [amount, hget]
        · cases h.get d <;> simp [hd]
  have hentries : h.entries = Currency.all.filterMap fun d => (h.get d).map (d, ·) := by
    rw [entries, PerCurrency.toList, List.filterMap_map]
    rfl
  rw [hentries, hplaces]
  cases c <;> simp [Currency.all]

/-- Every figure is added, whether it was held before or not. -/
theorem value_of_merge {h more h' : Holdings} {factor : Decimal}
    (hmerge : (h.merge more factor).Exactly h') (c : Currency) :
    (h'.amount c).value = (h.amount c).value + (more.amount c).value * factor.value := by
  have hstep : ∀ (total : Holdings) (p : Currency × Decimal) (total' : Holdings),
      (do total.addTo p.1 (← p.2.mul factor)).Exactly total' →
      (total'.amount c).value =
        (total.amount c).value + if c = p.1 then p.2.value * factor.value else 0 := by
    intro total p total' hp
    obtain ⟨x, hx, htotal⟩ := (Calc.exactly_bind_iff _ _ _).1 hp
    rw [value_of_addTo htotal c, Decimal.value_of_mul hx]
  rw [Calc.measure_foldlM hstep hmerge, sum_entries]

end Holdings

end DoubleEntry
