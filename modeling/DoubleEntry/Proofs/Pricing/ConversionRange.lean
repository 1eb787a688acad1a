import DoubleEntry.Proofs.Decimal.Accuracy
import DoubleEntry.Proofs.Decimal.LongDivision
import DoubleEntry.Proofs.Pricing.Figures

/-!
# Conversions in range

A conversion is a chain of products and quotients, each of which could overflow. Whole
bounds go through the chain unchanged by rounding, except at its start: the worth in
dollars is rounded before it is divided by the rates. A rate is one unit of the 28th
place at least, so that rounding costs a quotient one more at most, and figures that
are within half of what a decimal holds leave room for it.
-/

namespace DoubleEntry

/-! ## Rounded dividends -/

namespace Decimal

theorem one_le_value_mul_tenTo {a : Decimal} (h : 0 < a.value) : 1 ≤ a.value * tenTo 28 := by
  have hpos := mul_pos h (tenTo_cast_pos 28)
  rw [value_mul_tenTo a.scale_le] at hpos ⊢
  exact_mod_cast Int.add_one_le_of_lt (Int.cast_pos.1 hpos)

theorem abs_div_le_of_near {x y : Rat} {rate : Decimal} (hrate : 0 < rate.value)
    (hnear : |y - x| * tenTo 28 ≤ |x| + 1) :
    |y / rate.value| ≤ |x / rate.value| + |x / rate.value| / tenTo 28 + 1 := by
  have hunit := one_le_value_mul_tenTo hrate
  have hplaces := tenTo_cast_pos 28
  have hapart : |y| ≤ |x| + |y - x| := by
    have := abs_add_le x (y - x)
    rwa [add_sub_cancel] at this
  rw [abs_div, abs_div, abs_of_pos hrate, div_le_iff₀ hrate]
  have hoff : |y - x| ≤ |x| / tenTo 28 + rate.value := by
    rw [← sub_le_iff_le_add', ← mul_le_mul_iff_of_pos_right hplaces, sub_mul,
      div_mul_cancel₀ _ hplaces.ne']
    linarith
  calc |y| ≤ |x| + (|x| / tenTo 28 + rate.value) := by linarith
    _ = (|x| / rate.value + |x| / rate.value / tenTo 28 + 1) * rate.value := by
        field_simp
        ring

end Decimal

/-! ## Quotes that cannot be used -/

theorem Quote.exists_problem_of_not_usable {q : Quote} (h : ¬ q.Usable) :
    ∃ cause, q.validate = .error (.quote cause) := by
  rw [← q.validate_eq_ok_iff] at h
  unfold validate at h ⊢
  cases hproblem : q.problem? with
  | none => simp [hproblem] at h
  | some cause => exact ⟨cause, rfl⟩

namespace Conversion

theorem ofQuote_of_error {q : Quote} {error : LedgerError} (h : q.validate = .error error)
    (amount : Decimal) (c : Currency) : ofQuote amount c q = .error error := by
  unfold ofQuote
  rw [h]
  rfl

theorem ofQuote_of_usable {q : Quote} (h : q.Usable) (amount : Decimal) (c : Currency) :
    ofQuote amount c q = .ok (priced amount c q) := by
  unfold ofQuote
  rw [(q.validate_eq_ok_iff).2 h]
  rfl

/-! ## Figures with room -/

/-- An amount and its worth are within half of what a decimal holds, in every currency. -/
structure InRange (q : Quote) (amount rate : Decimal) : Prop where
  usd : |amount.value * rate.value| < 2 ^ 95
  hive : |amount.value * rate.value / q.hiveUsd.value| < 2 ^ 95
  hbd : |amount.value * rate.value / q.hbdUsd.value| < 2 ^ 95
  msats : 10 ^ 11 * |amount.value * rate.value / q.btcUsd.value| < 2 ^ 95
  native : 1000 * |amount.value| < 2 ^ 95

variable {q : Quote} {amount rate : Decimal} {c : Currency}

/-- Satoshis and their thousandths are worked out from the amount itself. -/
theorem exists_yields_keepNative (h : 1000 * |amount.value| < 2 ^ 95) (c : Currency)
    (converted : Amounts) : ∃ amounts, (keepNative amount c converted).Yields amounts := by
  have hnonneg := abs_nonneg amount.value
  cases c with
  | sats =>
      have hbound : |amount.value * msatsPerSat.value| ≤ ((2 ^ 95 : Nat) : Rat) := by
        rw [value_msatsPerSat, abs_mul, abs_of_pos (by norm_num : (0 : Rat) < 1000)]
        push_cast
        linarith
      obtain ⟨msats, hmsats, -⟩ := Decimal.exists_yields_mul (by decide) hbound
      exact ⟨_, (Calc.yields_bind_iff _ _ _).2 ⟨msats, hmsats, rfl⟩⟩
  | msats =>
      have hbound : |amount.value / msatsPerSat.value| ≤ ((2 ^ 95 : Nat) : Rat) := by
        rw [value_msatsPerSat, abs_div, abs_of_pos (by norm_num : (0 : Rat) < 1000)]
        push_cast
        linarith
      obtain ⟨sats, hsats, -⟩ := Decimal.exists_yields_div rfl (by decide) hbound
      exact ⟨_, (Calc.yields_bind_iff _ _ _).2 ⟨sats, hsats, rfl⟩⟩
  | _ => exact ⟨_, rfl⟩

/-- Dollars per unit are worked out at every quote that can be used. -/
theorem exists_yields_usdPer (q : Quote) (c : Currency) : ∃ rate, (q.usdPer c).Yields rate := by
  have hdiv : ∀ {units : Decimal}, 1 ≤ units.value →
      ∃ rate, (q.btcUsd.div units).Yields rate := by
    intro units hunits
    have hnonzero : units.isZero = false := by
      apply Decimal.isZero_of_pos
      rw [Decimal.lt_iff, Decimal.value_zero]
      linarith
    have hbound : |q.btcUsd.value / units.value| ≤ q.btcUsd.coefficient := by
      rw [abs_div, abs_of_pos (by linarith : 0 < units.value)]
      exact (div_le_self (abs_nonneg _) hunits).trans q.btcUsd.abs_value_le_coefficient
    obtain ⟨rate, hrate, -⟩ := Decimal.exists_yields_div hnonzero q.btcUsd.coefficient_lt hbound
    exact ⟨rate, hrate⟩
  cases c with
  | sats => exact hdiv (by rw [value_satsPerBtc]; norm_num)
  | msats => exact hdiv (by rw [value_msatsPerBtc]; norm_num)
  | _ => exact ⟨_, rfl⟩

/-- Whole bounds pass through the units of bitcoin, whatever is rounded on the way. -/
theorem exists_yields_units {usd btcUsd : Decimal} {bound : Nat} (hbtc : btcUsd.isZero = false)
    (hroom : bound * 100000000000 < Decimal.coefficientLimit)
    (h : |usd.value / btcUsd.value| ≤ bound) :
    ∃ btc sats msats, (usd.div btcUsd).Yields btc ∧ (btc.mul satsPerBtc).Yields sats ∧
      (sats.mul msatsPerSat).Yields msats := by
  have hone : bound < Decimal.coefficientLimit := by omega
  have hfewer : bound * 100000000 < Decimal.coefficientLimit :=
    Nat.lt_of_le_of_lt (Nat.mul_le_mul_left bound (by norm_num)) hroom
  obtain ⟨btc, hbtc, hbtcLe⟩ := Decimal.exists_yields_div hbtc hone h
  have hsats : |btc.value * satsPerBtc.value| ≤ ((bound * 100000000 : Nat) : Rat) := by
    rw [value_satsPerBtc, abs_mul, abs_of_pos (by norm_num : (0 : Rat) < 100000000)]
    push_cast
    linarith
  obtain ⟨sats, hsats, hsatsLe⟩ := Decimal.exists_yields_mul hfewer hsats
  have hmsats : |sats.value * msatsPerSat.value| ≤ ((bound * 100000000000 : Nat) : Rat) := by
    rw [value_msatsPerSat, abs_mul, abs_of_pos (by norm_num : (0 : Rat) < 1000)]
    push_cast at hsatsLe ⊢
    linarith
  obtain ⟨msats, hmsats, -⟩ := Decimal.exists_yields_mul hroom hmsats
  exact ⟨btc, sats, msats, hbtc, hsats, hmsats⟩

theorem exists_yields_priced (hq : q.Usable) (hrate : (q.usdPer c).Yields rate)
    (h : InRange q amount rate) : ∃ conversion, (priced amount c q).Yields conversion := by
  obtain ⟨-, hhive, hhbd, hbtc⟩ := hq
  rw [Decimal.lt_iff, Decimal.value_zero] at hhive hhbd hbtc
  have husdBound : |amount.value * rate.value| ≤ ((2 ^ 95 : Nat) : Rat) := by
    push_cast
    exact h.usd.le
  obtain ⟨usd, husd, -⟩ := Decimal.exists_yields_mul (by decide) husdBound
  have hnear := Decimal.abs_mul_sub_le husd
  have hplaces : (tenTo 28 : Rat) = 10 ^ 28 := by norm_num [tenTo]
  have hquotient : ∀ {divisor : Decimal}, 0 < divisor.value →
      |amount.value * rate.value / divisor.value| < 2 ^ 95 →
      ∃ quotient, (usd.div divisor).Yields quotient := by
    intro divisor hdivisor hroom
    have hbound : |usd.value / divisor.value| ≤ ((2 ^ 95 + 5 : Nat) : Rat) := by
      have hle := Decimal.abs_div_le_of_near hdivisor hnear
      rw [hplaces] at hle
      push_cast
      linarith
    obtain ⟨quotient, hquotient, -⟩ :=
      Decimal.exists_yields_div (Decimal.isZero_of_pos hdivisor) (by decide) hbound
    exact ⟨quotient, hquotient⟩
  obtain ⟨hive, hhive⟩ := hquotient hhive h.hive
  obtain ⟨hbd, hhbd⟩ := hquotient hhbd h.hbd
  -- The least whole number of bitcoins that leaves room for the rounding of the dollars.
  have hbtcBound : |usd.value / q.btcUsd.value| ≤ ((396140812571321690 : Nat) : Rat) := by
    have hle := Decimal.abs_div_le_of_near hbtc hnear
    have hroom := h.msats
    rw [hplaces] at hle
    push_cast
    linarith
  obtain ⟨btc, sats, msats, hbtc, hsats, hmsats⟩ :=
    exists_yields_units (Decimal.isZero_of_pos hbtc) (by decide) hbtcBound
  let full : Amounts := ⟨hive, hbd, usd, btc, sats, msats⟩
  obtain ⟨amounts, hkept⟩ := exists_yields_keepNative h.native c
    (PerCurrency.ofFn fun d => (full.get d).roundTo (roundedPlaces d))
  simp only [priced, Calc.yields_bind_iff]
  exact ⟨_, rate, hrate, usd, husd, btc, hbtc, sats, hsats, hive, hhive, hbd, hhbd, msats, hmsats,
    amounts, hkept, rfl⟩

/--
A quote that cannot be used is refused as such. At one that can, dollars per unit are worked out
and nothing is divided by zero; and every amount in range at those dollars is converted.
-/
theorem ofQuote_in_range (amount : Decimal) (c : Currency) (q : Quote) :
    (¬ q.Usable → ∃ cause, q.validate = .error (.quote cause) ∧
      ofQuote amount c q = .error (.quote cause)) ∧
    (q.Usable → q.validate = .ok () ∧ ∃ run rate, ofQuote amount c q = .ok run ∧
      (q.usdPer c).Yields rate ∧ run ≠ .fault .divisionByZero ∧
      (InRange q amount rate → ∃ conversion, run.Yields conversion)) := by
  constructor
  · intro hq
    obtain ⟨cause, hcause⟩ := Quote.exists_problem_of_not_usable hq
    exact ⟨cause, hcause, ofQuote_of_error hcause amount c⟩
  · intro hq
    obtain ⟨rate, hrate⟩ := exists_yields_usdPer q c
    exact ⟨(q.validate_eq_ok_iff).2 hq, priced amount c q, rate, ofQuote_of_usable hq amount c,
      hrate, priced_ne_divisionByZero hq amount c, exists_yields_priced hq hrate⟩

private def tinyRate : Quote :=
  { hiveUsd := .unitAt 25, hbdUsd := .one, btcUsd := .ofNat 90000, hiveHbd := .one
    fetchDate := ⟨0⟩, source := "market", error := none }

private def sixTenThousandths : Decimal :=
  ⟨false, 6, 4, by decide, by decide⟩

/-- Here the worth is below the last place, so its rounding is all that is divided. -/
theorem ofQuote_in_range_at_tiny_rate :
    ¬ { tinyRate with hiveUsd := .zero }.Usable ∧
      (∃ cause, ofQuote sixTenThousandths .hive { tinyRate with hiveUsd := .zero } =
        .error (.quote cause)) ∧
      tinyRate.Usable ∧ InRange tinyRate sixTenThousandths (.unitAt 25) ∧
      ∃ run conversion, ofQuote sixTenThousandths .hive tinyRate = .ok run ∧
        run.Yields conversion := by
  have hunusable : ¬ { tinyRate with hiveUsd := .zero }.Usable := by
    rw [← Quote.validate_eq_ok_iff]
    decide +kernel
  have husable : tinyRate.Usable := by
    rw [← Quote.validate_eq_ok_iff]
    decide +kernel
  have hrange : InRange tinyRate sixTenThousandths (.unitAt 25) := by
    constructor <;> decide +kernel
  obtain ⟨cause, -, hrefused⟩ := (ofQuote_in_range sixTenThousandths .hive _).1 hunusable
  obtain ⟨-, run, rate, hrun, hrate, -, hyields⟩ :=
    (ofQuote_in_range sixTenThousandths .hive tinyRate).2 husable
  obtain rfl : Decimal.unitAt 25 = rate := (Calc.yields_pure_iff _ _).1 hrate
  obtain ⟨conversion, hconversion⟩ := hyields hrange
  exact ⟨hunusable, ⟨cause, hrefused⟩, husable, hrange, run, conversion, hrun, hconversion⟩

end Conversion

end DoubleEntry
