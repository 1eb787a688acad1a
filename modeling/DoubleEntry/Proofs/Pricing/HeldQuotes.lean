import DoubleEntry.Pricing
import DoubleEntry.Proofs.Calculations
import DoubleEntry.Proofs.ExactValues

/-!
# Held quotes

A desk holds a quote that can be used, from the first one on and whatever its
provider answers later. What one piece of work does to a desk is one of two or three
things (`Refreshed`, `Checked`), and only the ones that end well replace the quote,
by one that was checked. So what is held can always be divided by, and an
assignment before the check would show as a case that is not on the list.
-/

namespace DoubleEntry

/-! ## Usable quotes -/

/-- No error was reported, and the rates that conversions divide by are positive. -/
structure Quote.Usable (q : Quote) : Prop where
  unreported : q.error = none
  hive_pos : Decimal.zero < q.hiveUsd
  hbd_pos : Decimal.zero < q.hbdUsd
  btc_pos : Decimal.zero < q.btcUsd

theorem Quote.validate_eq_ok_iff (q : Quote) : q.validate = .ok () ↔ q.Usable := by
  have hrate : ∀ rate : Decimal, ¬rate ≤ Decimal.zero ↔ Decimal.zero < rate := by
    intro rate
    rw [Decimal.le_iff, Decimal.lt_iff, not_le]
  have hproblem : q.problem? = none ↔ q.Usable := by
    unfold problem?
    cases herror : q.error with
    | some error => exact ⟨fun h => by simp at h, fun h => by simp [h.unreported] at herror⟩
    | none =>
        simp only [Option.map_eq_none_iff, List.find?_eq_none, dividingRates, List.mem_cons,
          List.not_mem_nil, or_false, forall_eq_or_imp, forall_eq, decide_eq_true_eq, hrate]
        exact ⟨fun ⟨hhive, hhbd, hbtc⟩ => ⟨herror, hhive, hhbd, hbtc⟩,
          fun h => ⟨h.hive_pos, h.hbd_pos, h.btc_pos⟩⟩
  unfold validate
  rw [← hproblem]
  cases q.problem? <;> simp

/-! ## Divisions -/

namespace Decimal

theorem isZero_of_pos {a : Decimal} (h : zero < a) : a.isZero = false := by
  rw [← Bool.not_eq_true]
  intro hzero
  rw [lt_iff, value_of_isZero hzero, value_zero] at h
  exact lt_irrefl 0 h

theorem div_ne_divisionByZero (a : Decimal) {b : Decimal} (h : b.isZero = false) :
    a.div b ≠ .fault .divisionByZero := by
  unfold div settle
  rw [h, if_neg Bool.false_ne_true]
  split
  · simp
  · cases (quotient? a b).map (withSign (a.negative != b.negative)) <;> simp

theorem mul_ne_divisionByZero (a b : Decimal) : a.mul b ≠ .fault .divisionByZero := by
  have hsettle : ∀ exact fitted,
      settle .multiplicationOverflow exact fitted ≠ .fault .divisionByZero := by
    intro exact fitted
    cases fitted <;> simp [settle]
  unfold mul
  split
  · simp
  · dsimp only
    split
    · exact hsettle _ _
    · exact hsettle _ _

end Decimal

namespace Conversion

theorem keepNative_ne_divisionByZero (amount : Decimal) (c : Currency) (converted : Amounts) :
    keepNative amount c converted ≠ .fault .divisionByZero := by
  cases c with
  | sats =>
      exact Calc.bind_ne_fault (Decimal.mul_ne_divisionByZero _ _) fun _ => by simp
  | msats =>
      exact Calc.bind_ne_fault (Decimal.div_ne_divisionByZero _ rfl) fun _ => by simp
  | _ => simp [keepNative]

/-- At a quote that can be used no division is by zero. -/
theorem priced_ne_divisionByZero {q : Quote} (hq : q.Usable) (amount : Decimal) (c : Currency) :
    priced amount c q ≠ .fault .divisionByZero := by
  have hhive := Decimal.isZero_of_pos hq.hive_pos
  have hhbd := Decimal.isZero_of_pos hq.hbd_pos
  have hbtc := Decimal.isZero_of_pos hq.btc_pos
  have hrate : q.usdPer c ≠ .fault .divisionByZero := by
    cases c with
    | sats => exact Decimal.div_ne_divisionByZero _ rfl
    | msats => exact Decimal.div_ne_divisionByZero _ rfl
    | _ => simp [Quote.usdPer]
  refine Calc.bind_ne_fault hrate fun rate => ?_
  refine Calc.bind_ne_fault (Decimal.mul_ne_divisionByZero _ _) fun usd => ?_
  refine Calc.bind_ne_fault (Decimal.div_ne_divisionByZero _ hbtc) fun btc => ?_
  refine Calc.bind_ne_fault (Decimal.mul_ne_divisionByZero _ _) fun sats => ?_
  refine Calc.bind_ne_fault (Decimal.div_ne_divisionByZero _ hhive) fun hive => ?_
  refine Calc.bind_ne_fault (Decimal.div_ne_divisionByZero _ hhbd) fun hbd => ?_
  refine Calc.bind_ne_fault (Decimal.mul_ne_divisionByZero _ _) fun msats => ?_
  refine Calc.bind_ne_fault (keepNative_ne_divisionByZero _ _ _) fun amounts => ?_
  simp

end Conversion

/-! ## What work does to a desk -/

namespace Desk

theorem run_bind (d : Desk) (first : DeskWork α) (next : α → DeskWork β) :
    d.run (first >>= next) =
      match d.run first with
      | (.ok x, d') => d'.run (next x)
      | (.error error, d') => (.error error, d') := by
  unfold run
  rw [ExceptT.run_bind, StateT.run_bind]
  rcases StateT.run (ExceptT.run first) d with ⟨r, d'⟩
  cases r <;> rfl

theorem run_tryCatch (d : Desk) (work : DeskWork α) (handle : LedgerError → DeskWork α) :
    d.run (tryCatch work handle) =
      match d.run work with
      | (.ok x, d') => (.ok x, d')
      | (.error error, d') => d'.run (handle error) := by
  unfold run
  rw [ExceptT.run_tryCatch, StateT.run_bind]
  rcases StateT.run (ExceptT.run work) d with ⟨r, d'⟩
  cases r <;> rfl

@[simp] theorem run_get (d : Desk) : d.run (get : DeskWork Desk) = (.ok d, d) :=
  rfl

@[simp] theorem run_set (d d' : Desk) : d.run (set d' : DeskWork PUnit) = (.ok ⟨⟩, d') :=
  rfl

theorem run_ask (d : Desk) (provider : QuoteProvider) :
    d.run (ask provider) = (provider d.asked, { d with asked := d.asked + 1 }) := by
  simp only [ask, run_bind, run_get, run_set]
  cases provider d.asked <;> rfl

variable {provider : QuoteProvider} {d d' : Desk}

/-- How a refresh ends: the provider or its quote fails, or the quote is held from now on. -/
inductive Refreshed (provider : QuoteProvider) (d : Desk) : Except LedgerError Unit × Desk → Prop where
  | failed (error : LedgerError) :
      Refreshed provider d (.error error, { d with asked := d.asked + 1 })
  | replaced (quote : Quote) (answered : provider d.asked = .ok quote) (usable : quote.Usable) :
      Refreshed provider d (.ok (), { d with held := ⟨quote⟩, asked := d.asked + 1 })

theorem refreshed (provider : QuoteProvider) (d : Desk) :
    Refreshed provider d (d.run (refresh provider)) := by
  rw [refresh, run_bind, run_ask]
  cases hanswer : provider d.asked with
  | error error => exact .failed error
  | ok quote =>
      dsimp only
      cases hvalid : quote.validate with
      | error error => exact .failed error
      | ok _ => exact .replaced quote hanswer ((Quote.validate_eq_ok_iff quote).1 hvalid)

inductive Checked (provider : QuoteProvider) (maxAge : Span) (now : Instant) (d : Desk) :
    Except LedgerError Bool × Desk → Prop where
  | fresh (young : d.held.quote.age now ≤ maxAge) : Checked provider maxAge now d (.ok false, d)
  | failed (aged : ¬d.held.quote.age now ≤ maxAge) (error : LedgerError) :
      Checked provider maxAge now d (.error error,
        { d with asked := d.asked + 1, journal := d.journal ++ [.refreshFailed] })
  | replaced (aged : ¬d.held.quote.age now ≤ maxAge) (quote : Quote)
      (answered : provider d.asked = .ok quote) (usable : quote.Usable) :
      Checked provider maxAge now d
        (.ok true, { d with held := ⟨quote⟩, asked := d.asked + 1 })

theorem checked (provider : QuoteProvider) (maxAge : Span) (now : Instant) (d : Desk) :
    Checked provider maxAge now d (d.run (ensureFresh provider maxAge now)) := by
  rw [ensureFresh, run_bind, run_get]
  dsimp only
  by_cases hage : d.held.quote.age now ≤ maxAge
  · rw [if_pos hage]
    exact .fresh hage
  · rw [if_neg hage, run_bind]
    have hrefresh := refreshed provider d
    rw [run_tryCatch]
    generalize d.run (refresh provider) = ended at hrefresh ⊢
    cases hrefresh with
    | failed error => exact .failed hage error
    | replaced quote answered usable => exact .replaced hage quote answered usable

end Desk

/-! ## Sequences of calls -/

inductive DeskCall where
  | refresh
  | ensureFresh (maxAge : Span) (now : Instant)
deriving DecidableEq, Repr

namespace Desk

def call (provider : QuoteProvider) (d : Desk) : DeskCall → Desk
  | .refresh => (d.run (refresh provider)).2
  | .ensureFresh maxAge now => (d.run (ensureFresh provider maxAge now)).2

def after (provider : QuoteProvider) (d : Desk) (calls : List DeskCall) : Desk :=
  calls.foldl (call provider) d

/-- What is held was given or fetched as the first quote. -/
def HoldsFirst (d : Desk) : Prop :=
  (∃ quote, Pricing.ofQuote quote = .ok d.held) ∨
    ∃ answer, (Pricing.fetch answer).2 = .ok d.held

theorem HoldsFirst.usable {d : Desk} (h : d.HoldsFirst) : d.held.quote.Usable := by
  have hquote : ∀ quote, Pricing.ofQuote quote = .ok d.held → d.held.quote.Usable := by
    intro quote hfirst
    unfold Pricing.ofQuote at hfirst
    cases hvalid : quote.validate with
    | error error =>
        rw [hvalid] at hfirst
        cases hfirst
    | ok _ =>
        rw [hvalid] at hfirst
        have hheld : (⟨quote⟩ : Pricing) = d.held := Except.ok.inj hfirst
        rw [← hheld]
        exact (Quote.validate_eq_ok_iff quote).1 hvalid
  rcases h with ⟨quote, hfirst⟩ | ⟨answer, hfirst⟩
  · exact hquote quote hfirst
  · cases answer with
    | error error => cases hfirst
    | ok quote => exact hquote quote hfirst

theorem usable_call (provider : QuoteProvider) {d : Desk} (h : d.held.quote.Usable)
    (c : DeskCall) : (d.call provider c).held.quote.Usable := by
  cases c with
  | refresh =>
      have hrefresh := refreshed provider d
      change (d.run (refresh provider)).2.held.quote.Usable
      generalize d.run (refresh provider) = ended at hrefresh ⊢
      cases hrefresh with
      | failed error => exact h
      | replaced quote answered usable => exact usable
  | ensureFresh maxAge now =>
      have hcheck := checked provider maxAge now d
      change (d.run (ensureFresh provider maxAge now)).2.held.quote.Usable
      generalize d.run (ensureFresh provider maxAge now) = ended at hcheck ⊢
      cases hcheck with
      | fresh young => exact h
      | failed aged error => exact h
      | replaced aged quote answered usable => exact usable

theorem usable_after (provider : QuoteProvider) {d : Desk} (h : d.held.quote.Usable)
    (calls : List DeskCall) : (d.after provider calls).held.quote.Usable := by
  induction calls generalizing d with
  | nil => exact h
  | cons c rest ih => exact ih (usable_call provider h c)

end Desk

theorem Pricing.convert_of_usable {p : Pricing} (h : p.quote.Usable) (amount : Decimal)
    (c : Currency) :
    ∃ run, p.convert amount c = .ok run ∧ run ≠ .fault .divisionByZero := by
  refine ⟨Conversion.priced amount c p.quote, ?_, Conversion.priced_ne_divisionByZero h amount c⟩
  rw [convert, Conversion.ofQuote, (Quote.validate_eq_ok_iff p.quote).2 h]
  rfl

theorem Pricing.leg_of_usable {p : Pricing} (h : p.quote.Usable) (account : Account)
    (amount : Decimal) (c : Currency) :
    ∃ run, p.leg account amount c = .ok run ∧ run ≠ .fault .divisionByZero := by
  obtain ⟨run, hrun, hdivides⟩ := convert_of_usable h amount c
  refine ⟨(fun conversion => ⟨account, amount, c, conversion⟩) <$> run, ?_, ?_⟩
  · rw [leg, hrun]
    rfl
  · rw [map_eq_pure_bind]
    exact Calc.bind_ne_fault hdivides fun _ => by simp

namespace Desk

/--
A desk never holds a quote that cannot be used. After any calls, whatever the provider answers, the
held quote reports no error and has positive rates, so conversions and legs at it are refused for
nothing and divide by nothing that is zero. A call that fails keeps what is held. A check of the age
answers that nothing was due, and leaves the provider alone, exactly when the held quote is young
enough. A call that answers that it replaced the quote holds the provider's.
-/
theorem holds_usable {d : Desk} (first : d.HoldsFirst) (provider : QuoteProvider)
    (calls : List DeskCall) :
    let reached := d.after provider calls
    reached.held.quote.Usable ∧
      (∀ amount c, ∃ run, reached.held.convert amount c = .ok run ∧
        run ≠ .fault .divisionByZero) ∧
      (∀ account amount c, ∃ run, reached.held.leg account amount c = .ok run ∧
        run ≠ .fault .divisionByZero) ∧
      (∀ answer next, reached.run (refresh provider) = (answer, next) →
        (∀ error, answer = .error error → next.held = reached.held) ∧
        (answer = .ok () → provider reached.asked = .ok next.held.quote)) ∧
      ∀ maxAge now answer next, reached.run (ensureFresh provider maxAge now) = (answer, next) →
        (∀ error, answer = .error error → next.held = reached.held) ∧
        (answer = .ok false ↔ reached.held.quote.age now ≤ maxAge) ∧
        (next.asked = reached.asked ↔ reached.held.quote.age now ≤ maxAge) ∧
        (answer = .ok false → next = reached) ∧
        (answer = .ok true → provider reached.asked = .ok next.held.quote) := by
  intro reached
  have husable : reached.held.quote.Usable := usable_after provider first.usable calls
  refine ⟨husable, Pricing.convert_of_usable husable, Pricing.leg_of_usable husable, ?_, ?_⟩
  · intro answer next hrun
    have hrefresh := refreshed provider reached
    rw [hrun] at hrefresh
    cases hrefresh with
    | failed error => exact ⟨fun _ _ => rfl, nofun⟩
    | replaced quote answered usable => exact ⟨nofun, fun _ => answered⟩
  · intro maxAge now answer next hrun
    have hcheck := checked provider maxAge now reached
    rw [hrun] at hcheck
    cases hcheck with
    | fresh young => exact ⟨nofun, by simp [young], by simp [young], fun _ => rfl, nofun⟩
    | failed aged error => exact ⟨fun _ _ => rfl, by simp [aged], by simp [aged], nofun, nofun⟩
    | replaced aged quote answered usable =>
        exact ⟨nofun, by simp [aged], by simp [aged], by simp, fun _ => answered⟩

private def quoteAt (nanos : Int) (hiveUsd : Decimal) (error : Option String) : Quote :=
  { hiveUsd := hiveUsd, hbdUsd := .one, btcUsd := .ofNat 100000, hiveHbd := hiveUsd
    fetchDate := ⟨nanos⟩, source := "market", error := error }

/-- Fails, then reports an error, then has no rate for HIVE, then answers well. -/
private def unsteadyProvider : QuoteProvider
  | 0 => .error (.persistence "timeout")
  | 1 => .ok (quoteAt 10 .one (some "closed"))
  | 2 => .ok (quoteAt 20 .zero none)
  | _ => .ok (quoteAt 30 .ten none)

private def firstQuote : Desk :=
  opened ⟨quoteAt 0 .one none⟩

private def badAnswers : List DeskCall :=
  [.refresh, .ensureFresh ⟨5⟩ ⟨15⟩, .ensureFresh ⟨5⟩ ⟨25⟩]

private def goodAnswer : List DeskCall :=
  [.ensureFresh ⟨5⟩ ⟨32⟩, .ensureFresh ⟨5⟩ ⟨35⟩]

/-- Three bad answers pass over a quote that has aged; the fourth replaces it and is young. -/
theorem holds_usable_while_unsteady :
    let reached := firstQuote.after unsteadyProvider badAnswers
    let later := firstQuote.after unsteadyProvider (badAnswers ++ goodAnswer)
    firstQuote.HoldsFirst ∧ reached.held = firstQuote.held ∧ reached.asked = 3 ∧
      reached.held.quote.Usable ∧ later.held.quote = quoteAt 30 .ten none ∧
      later.asked = 4 ∧ later.held.quote.Usable := by
  intro reached later
  have first : firstQuote.HoldsFirst := Or.inl ⟨quoteAt 0 .one none, rfl⟩
  have hreached : reached.held = firstQuote.held ∧ reached.asked = 3 := by decide +kernel
  have hlater : later.held.quote = quoteAt 30 .ten none ∧ later.asked = 4 := by
    decide +kernel
  obtain ⟨husable, -⟩ := holds_usable first unsteadyProvider badAnswers
  obtain ⟨husableLater, -⟩ := holds_usable first unsteadyProvider (badAnswers ++ goodAnswer)
  exact ⟨first, hreached.1, hreached.2, husable, hlater.1, hlater.2, husableLater⟩

end Desk

end DoubleEntry
