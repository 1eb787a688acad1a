import DoubleEntry.Conversion
import DoubleEntry.Proofs.Decimal.RoundedValues
import DoubleEntry.Proofs.Pricing.HeldQuotes

/-!
# Figures of a conversion

At a quote every currency is worth a number of dollars. An amount has a figure in
each currency: itself in its own, the exact multiple between satoshis and
millisatoshis, and elsewhere the quotient of the rates at the places to which
conversions round. A conversion is true to the quote when its figures are these
numbers; one whose calculation took no other rounded step is. How far an amount
drifts when it is converted and read back is a matter of these numbers alone.
-/

namespace DoubleEntry

/-! ## Quotients -/

namespace Decimal

@[simp] theorem value_ofNat (n : Nat) (h : n < coefficientLimit) : (ofNat n h).value = n := by
  simp [value_eq_div, ofNat, signed]

theorem value_of_div {a b c : Decimal} (h : (a.div b).Exactly c) :
    c.value = a.value / b.value := by
  unfold div at h
  split at h
  · cases h
  · split at h
    · rename_i ha
      rw [Calc.exactly_pure_iff] at h
      rw [← h, value_zero, value_of_isZero ha, zero_div]
    · exact value_of_settle h

end Decimal

@[simp] theorem value_satsPerBtc : satsPerBtc.value = 100000000 := by
  simp [satsPerBtc]

@[simp] theorem value_msatsPerSat : msatsPerSat.value = 1000 := by
  simp [msatsPerSat]

@[simp] theorem value_msatsPerBtc : msatsPerBtc.value = 100000000000 := by
  simp [msatsPerBtc]

/-! ## Rates and figures -/

namespace Quote

variable {q : Quote}

def rate (q : Quote) : Currency → Rat
  | .hive => q.hiveUsd.value
  | .hbd => q.hbdUsd.value
  | .usd => 1
  | .btc => q.btcUsd.value
  | .sats => q.btcUsd.value / 100000000
  | .msats => q.btcUsd.value / 100000000000

theorem rate_sats (q : Quote) : q.rate .sats = q.rate .btc / 100000000 :=
  rfl

theorem rate_msats (q : Quote) : q.rate .msats = q.rate .btc / 100000000000 :=
  rfl

theorem Usable.rate_pos (h : q.Usable) (c : Currency) : 0 < q.rate c := by
  obtain ⟨-, hhive, hhbd, hbtc⟩ := h
  rw [Decimal.lt_iff, Decimal.value_zero] at hhive hhbd hbtc
  cases c with
  | hive => exact hhive
  | hbd => exact hhbd
  | usd => exact one_pos
  | btc => exact hbtc
  | sats => exact div_pos hbtc (by norm_num)
  | msats => exact div_pos hbtc (by norm_num)

theorem value_of_usdPer {c : Currency} {rate : Decimal} (h : (q.usdPer c).Exactly rate) :
    rate.value = q.rate c := by
  cases c with
  | sats => simpa [Quote.rate] using Decimal.value_of_div h
  | msats => simpa [Quote.rate] using Decimal.value_of_div h
  | usd =>
      rw [← (Calc.exactly_pure_iff _ _).1 h]
      exact Decimal.value_one
  | _ => rw [← (Calc.exactly_pure_iff _ _).1 h]; rfl

/-- The figure of `x` units of one currency in another, rounded where conversions round. -/
def figure (q : Quote) (x : Rat) : Currency → Currency → Rat
  | .sats, .msats => x * 1000
  | .msats, .sats => x / 1000
  | c, d => if d = c then x else roundedAt (Conversion.roundedPlaces d) (x * q.rate c / q.rate d)

@[simp] theorem figure_self (q : Quote) (x : Rat) (c : Currency) : q.figure x c c = x := by
  cases c <;> rfl

theorem figure_of_ne {x : Rat} {c d : Currency} (hne : d ≠ c)
    (hsats : ¬ (c = .sats ∧ d = .msats)) (hmsats : ¬ (c = .msats ∧ d = .sats)) :
    q.figure x c d = roundedAt (Conversion.roundedPlaces d) (x * q.rate c / q.rate d) := by
  unfold figure
  split
  · exact absurd ⟨rfl, rfl⟩ hsats
  · exact absurd ⟨rfl, rfl⟩ hmsats
  · exact if_neg hne

theorem Usable.figure_nonneg (h : q.Usable) {x : Rat} (hx : 0 ≤ x) (c d : Currency) :
    0 ≤ q.figure x c d := by
  unfold figure
  split
  · exact mul_nonneg hx (by norm_num)
  · exact div_nonneg hx (by norm_num)
  · split
    · exact hx
    · exact roundedAt_nonneg _ (div_nonneg (mul_nonneg hx (h.rate_pos c).le) (h.rate_pos d).le)

end Quote

/-! ## True conversions -/

namespace Conversion

def TrueTo (c : Conversion) (q : Quote) (amount : Decimal) (currency : Currency) : Prop :=
  ∀ d, (c.amounts.get d).value = q.figure amount.value currency d

variable {q : Quote} {amount : Decimal} {currency : Currency}

/-- A table whose two satoshi places are replaced keeps the figures of the others. -/
private theorem value_of_satoshis {converted : Amounts} {sats msats : Decimal}
    (hconverted : ∀ d, (converted.get d).value =
      roundedAt (roundedPlaces d) (amount.value * q.rate currency / q.rate d))
    (hcurrency : currency = .sats ∨ currency = .msats)
    (hsats : sats.value = q.figure amount.value currency .sats)
    (hmsats : msats.value = q.figure amount.value currency .msats) (d : Currency) :
    (({ converted with sats := sats, msats := msats } : Amounts).get d).value =
      q.figure amount.value currency d := by
  have hother : d ≠ .sats → d ≠ .msats →
      q.figure amount.value currency d = (converted.get d).value := by
    intro hs hm
    rw [hconverted, Quote.figure_of_ne _ (fun h => hm h.2) (fun h => hs h.2)]
    rcases hcurrency with rfl | rfl
    · exact hs
    · exact hm
  cases d with
  | hive => exact (hother (by decide) (by decide)).symm
  | hbd => exact (hother (by decide) (by decide)).symm
  | usd => exact (hother (by decide) (by decide)).symm
  | btc => exact (hother (by decide) (by decide)).symm
  | sats => exact hsats
  | msats => exact hmsats

theorem value_of_keepNative {converted amounts : Amounts}
    (hconverted : ∀ d, (converted.get d).value =
      roundedAt (roundedPlaces d) (amount.value * q.rate currency / q.rate d))
    (h : (keepNative amount currency converted).Exactly amounts) (d : Currency) :
    (amounts.get d).value = q.figure amount.value currency d := by
  by_cases hsats : currency = .sats
  · subst hsats
    simp only [keepNative, Calc.exactly_bind_iff, Calc.exactly_pure_iff] at h
    obtain ⟨msats, hmsats, rfl⟩ := h
    have hvalue := Decimal.value_of_mul hmsats
    rw [value_msatsPerSat] at hvalue
    exact value_of_satoshis hconverted (Or.inl rfl) rfl hvalue d
  by_cases hmsats : currency = .msats
  · subst hmsats
    simp only [keepNative, Calc.exactly_bind_iff, Calc.exactly_pure_iff] at h
    obtain ⟨sats, hsats, rfl⟩ := h
    have hvalue := Decimal.value_of_div hsats
    rw [value_msatsPerSat] at hvalue
    exact value_of_satoshis hconverted (Or.inr rfl) hvalue rfl d
  have hset : keepNative amount currency converted = pure (converted.set currency amount) := by
    cases currency <;> simp_all [keepNative]
  rw [hset, Calc.exactly_pure_iff] at h
  subst h
  by_cases hd : d = currency
  · rw [hd, PerCurrency.get_set_self, Quote.figure_self]
  · rw [PerCurrency.get_set_of_ne _ _ hd, hconverted,
      Quote.figure_of_ne hd (fun h => hsats h.1) (fun h => hmsats h.1)]

/-- Without any other rounded step the figures are the announced ones. -/
theorem trueTo_of_exactly {c : Conversion} (h : (priced amount currency q).Exactly c) :
    c.TrueTo q amount currency := by
  simp only [priced, Calc.exactly_bind_iff, Calc.exactly_pure_iff] at h
  obtain ⟨rate, hrate, usd, husd, btc, hbtc, sats, hsats, hive, hhive, hbd, hhbd, msats, hmsats,
    amounts, hkept, rfl⟩ := h
  have husdValue := Decimal.value_of_mul husd
  have hbtcValue := Decimal.value_of_div hbtc
  have hsatsValue := Decimal.value_of_mul hsats
  have hmsatsValue := Decimal.value_of_mul hmsats
  rw [Quote.value_of_usdPer hrate] at husdValue
  rw [value_satsPerBtc, hbtcValue, husdValue] at hsatsValue
  rw [value_msatsPerSat, hsatsValue] at hmsatsValue
  rw [husdValue] at hbtcValue
  have hfull : ∀ d, ((⟨hive, hbd, usd, btc, sats, msats⟩ : Amounts).get d).value =
      amount.value * q.rate currency / q.rate d := by
    intro d
    cases d with
    | hive => rw [← husdValue]; exact Decimal.value_of_div hhive
    | hbd => rw [← husdValue]; exact Decimal.value_of_div hhbd
    | usd => rw [← husdValue]; exact (div_one _).symm
    | btc => exact hbtcValue
    | sats =>
        change sats.value = _
        rw [hsatsValue, Quote.rate, div_div_eq_mul_div]
        ring
    | msats =>
        change msats.value = _
        rw [hmsatsValue, Quote.rate, div_div_eq_mul_div]
        ring
  refine value_of_keepNative (fun d => ?_) hkept
  rw [PerCurrency.get_ofFn, Decimal.value_roundTo, hfull]

theorem trueTo_of_ofQuote {run : Calc Conversion} {c : Conversion}
    (h : ofQuote amount currency q = .ok run) (hrun : run.Exactly c) :
    c.TrueTo q amount currency := by
  unfold ofQuote at h
  cases hvalid : q.validate with
  | error error =>
      rw [hvalid] at h
      cases h
  | ok _ =>
      rw [hvalid] at h
      obtain rfl : priced amount currency q = run := Except.ok.inj h
      exact trueTo_of_exactly hrun

end Conversion

/-! ## There and back -/

namespace Quote

variable {q : Quote}

/-- What `x` units are worth in millisatoshis, unrounded. -/
def msatsWorth (q : Quote) (x : Rat) (c : Currency) : Rat :=
  x * q.rate c / q.rate .msats

/-- A figure is off by half a unit of its last place at most. -/
theorem Usable.abs_figure_sub_le (h : q.Usable) (x : Rat) (c d : Currency) :
    |q.figure x c d - x * q.rate c / q.rate d| * tenTo (Conversion.roundedPlaces d) ≤ 1 / 2 := by
  have hbtc := (h.rate_pos .btc).ne'
  have hexact : ∀ y : Rat, y = x * q.rate c / q.rate d →
      |y - x * q.rate c / q.rate d| * tenTo (Conversion.roundedPlaces d) ≤ 1 / 2 := by
    rintro y rfl
    rw [sub_self, abs_zero, zero_mul]
    norm_num
  unfold figure
  split
  · apply hexact
    rw [rate_sats, rate_msats]
    field_simp
    ring
  · apply hexact
    rw [rate_sats, rate_msats]
    field_simp
    ring
  · split
    · rename_i hsame
      subst hsame
      exact hexact x (mul_div_cancel_right₀ x (h.rate_pos d).ne').symm
    · rw [abs_sub_comm]
      exact abs_sub_roundedAt_le _ _

theorem Usable.abs_msatsWorth_sub_le (h : q.Usable) (x : Rat) (c : Currency) :
    |q.figure x c .msats - q.msatsWorth x c| ≤ 1 / 2 := by
  have hoff := h.abs_figure_sub_le x c .msats
  rwa [show tenTo (Conversion.roundedPlaces .msats) = 1 from rfl, Nat.cast_one, mul_one] at hoff

/-- Half a unit of the last place of a currency, in millisatoshis. -/
def slack (q : Quote) (d : Currency) : Rat :=
  q.rate d / q.rate .msats / tenTo (Conversion.roundedPlaces d) / 2

/-- Reading a figure back moves the worth by the slack of its currency at most. -/
theorem Usable.abs_msatsWorth_figure_sub_le (h : q.Usable) (x : Rat) (c d : Currency) :
    |q.msatsWorth x c - q.msatsWorth (q.figure x c d) d| ≤ q.slack d := by
  have hd := h.rate_pos d
  have hmsats := h.rate_pos .msats
  have hplaces := tenTo_cast_pos (Conversion.roundedPlaces d)
  have hworth : q.msatsWorth x c - q.msatsWorth (q.figure x c d) d =
      -(q.figure x c d - x * q.rate c / q.rate d) * (q.rate d / q.rate .msats) := by
    unfold msatsWorth
    field_simp
    ring
  have hoff := h.abs_figure_sub_le x c d
  rw [hworth, abs_mul, abs_neg, abs_of_pos (div_pos hd hmsats)]
  have hscaled := mul_le_mul_of_nonneg_right hoff (div_pos hd hmsats).le
  rw [slack, div_div, le_div_iff₀ (by positivity)]
  linarith

theorem Usable.slack_of_six (h : q.Usable) {d : Currency} (hd : Conversion.roundedPlaces d = 6) :
    q.slack d = 50000 * q.rate d / q.rate .btc := by
  have hbtc := (h.rate_pos .btc).ne'
  rw [slack, hd, show tenTo 6 = 1000000 from rfl, rate_msats]
  push_cast
  field_simp
  ring

/-- The last place of bitcoin and of satoshis is one millisatoshi. -/
theorem Usable.slack_of_msat (h : q.Usable) {d : Currency} (hd : d = .btc ∨ d = .sats) :
    q.slack d = 1 / 2 := by
  have hmsat : q.rate d / tenTo (Conversion.roundedPlaces d) = q.rate .msats := by
    rcases hd with rfl | rfl
    · rw [show tenTo (Conversion.roundedPlaces .btc) = 100000000000 from rfl, rate_msats]
      push_cast
      rfl
    · rw [show tenTo (Conversion.roundedPlaces .sats) = 1000 from rfl, rate_sats, rate_msats]
      push_cast
      ring
  rw [slack, div_right_comm _ (q.rate .msats), hmsat, div_self (h.rate_pos .msats).ne']

/-- A figure in bitcoin is a whole number of millisatoshis. -/
theorem Usable.figure_btc_msats (h : q.Usable) (x : Rat) {c : Currency} (hc : c ≠ .btc) :
    q.figure (q.figure x c .btc) .btc .msats = q.msatsWorth (q.figure x c .btc) .btc := by
  have hbtc := (h.rate_pos .btc).ne'
  rw [figure_of_ne hc.symm (by simp) (by simp), figure_of_ne (by decide) (by decide) (by decide)]
  apply roundedAt_of_eq (n := halfEven (x * q.rate c / q.rate .btc * tenTo 11))
  rw [← roundedAt_mul, rate_msats]
  simp only [Conversion.roundedPlaces]
  rw [show tenTo 11 = 100000000000 from rfl, tenTo_zero]
  push_cast
  field_simp

theorem Usable.figure_sats_msats (h : q.Usable) (x : Rat) :
    q.figure x .sats .msats = q.msatsWorth x .sats := by
  have hbtc := (h.rate_pos .btc).ne'
  rw [figure, msatsWorth, rate_sats, rate_msats]
  field_simp
  ring

/-- How far an amount can be apart from its figure in a currency, in millisatoshis. -/
def gapBound (q : Quote) : Currency → Rat
  | .btc | .sats | .msats => 1
  | d => 1 + 50000 * q.rate d / q.rate .btc

/--
An amount and its figure in another currency are nearly the same in millisatoshis. Both are
rounded to whole ones, and the figure to its own places; in bitcoin and satoshis it is already
a whole number of millisatoshis, so that it is not rounded again.
-/
theorem Usable.abs_gap_le (h : q.Usable) (x : Rat) (c d : Currency) :
    |q.figure x c .msats - q.figure (q.figure x c d) d .msats| ≤ q.gapBound d := by
  have hfirst := h.abs_msatsWorth_sub_le x c
  have hback := h.abs_msatsWorth_figure_sub_le x c d
  have hsecond := h.abs_msatsWorth_sub_le (q.figure x c d) d
  have htriangle : |q.figure x c .msats - q.figure (q.figure x c d) d .msats| ≤
      |q.figure x c .msats - q.msatsWorth x c| +
        |q.msatsWorth x c - q.msatsWorth (q.figure x c d) d| +
        |q.figure (q.figure x c d) d .msats - q.msatsWorth (q.figure x c d) d| := by
    rw [abs_sub_comm (q.figure (q.figure x c d) d .msats)]
    have hleft := abs_sub_le (q.figure x c .msats) (q.msatsWorth x c)
      (q.msatsWorth (q.figure x c d) d)
    have hright := abs_sub_le (q.figure x c .msats) (q.msatsWorth (q.figure x c d) d)
      (q.figure (q.figure x c d) d .msats)
    linarith
  -- Without the second rounding the first one and the slack are left.
  have hunrounded : q.figure (q.figure x c d) d .msats = q.msatsWorth (q.figure x c d) d →
      |q.figure x c .msats - q.figure (q.figure x c d) d .msats| ≤ 1 / 2 + q.slack d := by
    intro heq
    rw [heq, sub_self, abs_zero] at htriangle
    rw [heq]
    linarith
  have hrounded : Conversion.roundedPlaces d = 6 →
      |q.figure x c .msats - q.figure (q.figure x c d) d .msats| ≤
        1 + 50000 * q.rate d / q.rate .btc := by
    intro hsix
    rw [← h.slack_of_six hsix]
    linarith
  cases d with
  | hive => exact hrounded rfl
  | hbd => exact hrounded rfl
  | usd => exact hrounded rfl
  | btc =>
      by_cases hc : c = .btc
      · subst hc
        rw [figure_self, sub_self, abs_zero]
        exact zero_le_one
      · have hgap := hunrounded (h.figure_btc_msats x hc)
        rw [h.slack_of_msat (Or.inl rfl)] at hgap
        simp only [gapBound]
        linarith
  | sats =>
      have hgap := hunrounded (h.figure_sats_msats _)
      rw [h.slack_of_msat (Or.inr rfl)] at hgap
      simp only [gapBound]
      linarith
  | msats =>
      rw [figure_self, sub_self, abs_zero]
      exact zero_le_one

end Quote

end DoubleEntry
