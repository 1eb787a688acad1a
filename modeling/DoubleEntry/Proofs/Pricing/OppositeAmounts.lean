import DoubleEntry.Proofs.Decimal.Opposites
import DoubleEntry.Proofs.Decimal.Signs
import DoubleEntry.Proofs.Pricing.ConversionRange

/-!
# Opposite amounts

A conversion is a chain of products and quotients by the rates, rounded at the places
of each currency; none of these steps looks at the sign. So the conversion of the
opposite amount is the opposite conversion, to the last digit and whatever is rounded
or overflows on the way, and a flow and its return at one quote cancel out.
-/

namespace DoubleEntry

namespace Conversion

/-- Opposite figures in every currency, taken at one quote. -/
structure Opposite (c d : Conversion) : Prop where
  amounts : ∀ currency, (c.amounts.get currency).Opposite (d.amounts.get currency)
  fetchDate_eq : d.fetchDate = c.fetchDate
  source_eq : d.source = c.source

structure Equals (c d : Conversion) : Prop where
  value_eq : ∀ currency, (c.amounts.get currency).value = (d.amounts.get currency).value
  fetchDate_eq : c.fetchDate = d.fetchDate
  source_eq : c.source = d.source

/-! ## Opposite conversions -/

theorem alike_keepNative {amount amount' : Decimal} {converted converted' : Amounts}
    (hamount : amount.Opposite amount')
    (hconverted : ∀ d, (converted.get d).Opposite (converted'.get d)) (c : Currency) :
    (keepNative amount c converted).Alike
      (fun amounts amounts' => ∀ d, (amounts.get d).Opposite (amounts'.get d))
      (keepNative amount' c converted') := by
  have hset : ∀ d,
      ((converted.set c amount).get d).Opposite ((converted'.set c amount').get d) := by
    intro d
    by_cases hd : d = c
    · subst hd
      simpa only [PerCurrency.get_set_self] using hamount
    · simpa only [PerCurrency.get_set_of_ne _ _ hd] using hconverted d
  have hsisters : ∀ {sats sats' msats msats' : Decimal}, sats.Opposite sats' →
      msats.Opposite msats' → ∀ d,
        (({ converted with sats := sats, msats := msats } : Amounts).get d).Opposite
          (({ converted' with sats := sats', msats := msats' } : Amounts).get d) := by
    intro sats sats' msats msats' hsats hmsats d
    cases d with
    | sats => exact hsats
    | msats => exact hmsats
    | hive => exact hconverted .hive
    | hbd => exact hconverted .hbd
    | usd => exact hconverted .usd
    | btc => exact hconverted .btc
  cases c with
  | sats =>
      exact (hamount.mul msatsPerSat).bind fun _ _ hmsats =>
        Calc.alike_pure (hsisters hamount hmsats)
  | msats =>
      exact (hamount.div msatsPerSat).bind fun _ _ hsats =>
        Calc.alike_pure (hsisters hsats hamount)
  | hive => exact Calc.alike_pure hset
  | hbd => exact Calc.alike_pure hset
  | usd => exact Calc.alike_pure hset
  | btc => exact Calc.alike_pure hset

/-- The rates are the same, so step by step the figures stay opposite. -/
theorem alike_priced {amount amount' : Decimal} (h : amount.Opposite amount') (c : Currency)
    (q : Quote) : (priced amount c q).Alike Opposite (priced amount' c q) := by
  unfold priced
  refine (Calc.alike_refl (q.usdPer c)).bind fun rate _ hrate => ?_
  subst hrate
  refine (h.mul rate).bind fun usd usd' husd => ?_
  refine (husd.div q.btcUsd).bind fun btc btc' hbtc => ?_
  refine (hbtc.mul satsPerBtc).bind fun sats sats' hsats => ?_
  refine (husd.div q.hiveUsd).bind fun hive hive' hhive => ?_
  refine (husd.div q.hbdUsd).bind fun hbd hbd' hhbd => ?_
  refine (hsats.mul msatsPerSat).bind fun msats msats' hmsats => ?_
  have hrounded : ∀ d,
      ((PerCurrency.ofFn fun d => ((⟨hive, hbd, usd, btc, sats, msats⟩ : Amounts).get d).roundTo
        (roundedPlaces d)).get d).Opposite
      ((PerCurrency.ofFn fun d => ((⟨hive', hbd', usd', btc', sats', msats'⟩ : Amounts).get
        d).roundTo (roundedPlaces d)).get d) := by
    intro d
    rw [PerCurrency.get_ofFn, PerCurrency.get_ofFn]
    apply Decimal.Opposite.roundTo
    cases d <;> assumption
  exact (alike_keepNative h hrounded c).bind fun amounts amounts' hamounts =>
    Calc.alike_pure ⟨hamounts, rfl, rfl⟩

/-! ## Turned signs -/

def negated (c : Conversion) : Conversion :=
  { c with amounts := c.amounts.neg }

@[simp] theorem value_negated (c : Conversion) (currency : Currency) :
    (c.negated.amounts.get currency).value = -(c.amounts.get currency).value := by
  rw [negated, Amounts.neg, PerCurrency.get_map, Decimal.value_neg]

theorem Opposite.equals_negated {c d : Conversion} (h : c.Opposite d) : d.Equals c.negated where
  value_eq currency := by rw [(h.amounts currency).value_eq, value_negated]
  fetchDate_eq := h.fetchDate_eq
  source_eq := h.source_eq

namespace Equals

variable {c d e : Conversion}

theorem symm (h : c.Equals d) : d.Equals c :=
  ⟨fun currency => (h.value_eq currency).symm, h.fetchDate_eq.symm, h.source_eq.symm⟩

theorem trans (h : c.Equals d) (h' : d.Equals e) : c.Equals e :=
  ⟨fun currency => (h.value_eq currency).trans (h'.value_eq currency),
    h.fetchDate_eq.trans h'.fetchDate_eq, h.source_eq.trans h'.source_eq⟩

theorem negated (h : c.Equals d.negated) : c.negated.Equals d where
  value_eq currency := by rw [value_negated, h.value_eq, value_negated, neg_neg]
  fetchDate_eq := h.fetchDate_eq
  source_eq := h.source_eq

end Equals

/-- Multiplying by minus one turns every sign, is never rounded and never overflows. -/
theorem exists_yields_signed (c : Conversion) :
    ∃ turned, (c.signed .minusOne).Yields turned ∧ turned.Equals c.negated := by
  obtain ⟨amounts, hamounts⟩ := PerCurrency.exists_exactly_build fun d =>
    Decimal.exists_exactly_mul (a := c.amounts.get d) (Or.inr rfl)
  have hturned : (c.signed .minusOne).Exactly { c with amounts := amounts } :=
    (Calc.exactly_bind_iff _ _ _).2 ⟨amounts, hamounts, rfl⟩
  refine ⟨_, hturned.yields, fun d => ?_, rfl, rfl⟩
  rw [Amounts.value_of_scale hamounts, Decimal.value_minusOne, mul_neg_one, value_negated]

/--
At a quote that can be used the opposite amount faults exactly when the amount does, and for the
same reason. Otherwise its conversion has, in every currency, the figures of the amount's conversion
multiplied by minus one, which are those with every sign turned; date and source stay. And turning
the signs of any conversion twice in this way gives it back.
-/
theorem ofQuote_neg {q : Quote} (hq : q.validate = .ok ()) (amount : Decimal) (c : Currency) :
    (∃ run run', ofQuote amount c q = .ok run ∧ ofQuote amount.neg c q = .ok run' ∧
      (∀ reason, run' = .fault reason ↔ run = .fault reason) ∧
      ∀ conversion, run.Yields conversion →
        ∃ opposite turned, run'.Yields opposite ∧ (conversion.signed .minusOne).Yields turned ∧
          opposite.Equals turned ∧ opposite.Equals conversion.negated) ∧
    ∀ conversion : Conversion, ∃ turned back, (conversion.signed .minusOne).Yields turned ∧
      (turned.signed .minusOne).Yields back ∧ back.Equals conversion := by
  have husable := (q.validate_eq_ok_iff).1 hq
  have hruns := alike_priced (Decimal.opposite_neg amount) c q
  constructor
  · refine ⟨_, _, ofQuote_of_usable husable amount c, ofQuote_of_usable husable amount.neg c,
      hruns.eq_fault_iff, fun conversion hconversion => ?_⟩
    obtain ⟨opposite, hyields, hopposite⟩ := hruns.exists_yields hconversion
    obtain ⟨turned, hturned, hequals⟩ := exists_yields_signed conversion
    exact ⟨opposite, turned, hyields, hturned,
      hopposite.equals_negated.trans hequals.symm, hopposite.equals_negated⟩
  · intro conversion
    obtain ⟨turned, hturned, honce⟩ := exists_yields_signed conversion
    obtain ⟨back, hback, htwice⟩ := exists_yields_signed turned
    exact ⟨turned, back, hturned, hback, htwice.trans honce.negated⟩

private def fraction (n : UInt8) (places : Fin 29) : Decimal :=
  { Decimal.ofByte n with scale := places, scale_le := Nat.le_of_lt_succ places.isLt }

private def quarterDollar : Quote :=
  { hiveUsd := fraction 25 2, hbdUsd := .one, btcUsd := .ofByte 90, hiveHbd := .one
    fetchDate := ⟨0⟩, source := "market", error := none }

private def millionths (n : UInt8) : Decimal :=
  fraction n 6

/-- One and a half millionths of a dollar are a tie, which goes to the even two either way. -/
theorem ofQuote_neg_at_tie :
    quarterDollar.validate = .ok () ∧
      ∃ (run : Calc Conversion) (conversion opposite turned : Conversion),
        ofQuote (millionths 6).neg .hive quarterDollar = .ok run ∧ run.Yields opposite ∧
        (priced (millionths 6) .hive quarterDollar).Yields conversion ∧
        conversion.amounts.usd = millionths 2 ∧
        (conversion.signed .minusOne).Yields turned ∧ opposite.Equals turned ∧
        opposite.amounts.usd.value = -(millionths 2).value := by
  have hvalid : quarterDollar.validate = .ok () := by decide +kernel
  have hfigure : ((priced (millionths 6) .hive quarterDollar) >>= fun conversion =>
      pure conversion.amounts.usd).Yields (millionths 2) := by
    unfold Calc.Yields
    decide +kernel
  simp only [Calc.yields_bind_iff, Calc.yields_pure_iff] at hfigure
  obtain ⟨conversion, hconversion, hdollars⟩ := hfigure
  obtain ⟨⟨run, run', hrun, hrun', -, hopposite⟩, -⟩ := ofQuote_neg hvalid (millionths 6) .hive
  obtain rfl : priced (millionths 6) .hive quarterDollar = run :=
    Except.ok.inj ((ofQuote_of_usable ((Quote.validate_eq_ok_iff _).1 hvalid) _ _).symm.trans hrun)
  obtain ⟨opposite, turned, hyields, hturned, hequals, hnegated⟩ := hopposite conversion hconversion
  refine ⟨hvalid, run', conversion, opposite, turned, hrun', hyields, hconversion, hdollars,
    hturned, hequals, ?_⟩
  rw [← hdollars]
  exact (hnegated.value_eq .usd).trans (value_negated conversion .usd)

end Conversion

end DoubleEntry
