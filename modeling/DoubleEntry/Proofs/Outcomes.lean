import DoubleEntry.Currency

/-!
# Outcomes of readings

A reading ends with a result or with an error. An `Outcome` says something of both,
and a sequence has the outcome that its last step has after the results of the steps
before it, if all of them fail in the same way.
-/

namespace DoubleEntry

/-- A result is `good`, an error `bad`. -/
inductive Outcome (bad : ε → Prop) (good : α → Prop) : Except ε α → Prop where
  | ok {x : α} (h : good x) : Outcome bad good (.ok x)
  | error {e : ε} (h : bad e) : Outcome bad good (.error e)

namespace Outcome

variable {bad : ε → Prop} {good : α → Prop} {run : Except ε α}

theorem good_of_ok {x : α} (h : Outcome bad good (.ok x)) : good x := by
  cases h with
  | ok hx => exact hx

theorem bad_of_error {e : ε} (h : Outcome bad good (.error e : Except ε α)) : bad e := by
  cases h with
  | error he => exact he

theorem pure {x : α} (h : good x) : Outcome bad good (Pure.pure x : Except ε α) :=
  .ok h

theorem self (run : Except ε α) : Outcome (fun _ => True) (fun x => run = .ok x) run := by
  cases run with
  | ok x => exact .ok rfl
  | error e => exact .error trivial

theorem bind {next : α → Except ε β} {better : β → Prop} (h : Outcome bad good run)
    (hnext : ∀ x, good x → Outcome bad better (next x)) : Outcome bad better (run >>= next) := by
  cases h with
  | ok hx => exact hnext _ hx
  | error he => exact .error he

theorem mono {better : α → Prop} (h : Outcome bad good run) (himp : ∀ x, good x → better x) :
    Outcome bad better run := by
  cases h with
  | ok hx => exact .ok (himp _ hx)
  | error he => exact .error he

theorem eq_ok_or_eq_error (h : Outcome bad good run) :
    (∃ x, run = .ok x ∧ good x) ∨ ∃ e, run = .error e ∧ bad e := by
  cases h with
  | ok hx => exact .inl ⟨_, rfl, hx⟩
  | error he => exact .inr ⟨_, rfl, he⟩

theorem build {fill : Currency → Except ε α} {good : Currency → α → Prop}
    (h : ∀ c, Outcome bad (good c) (fill c)) :
    Outcome bad (fun table => ∀ c, good c (table.get c)) (PerCurrency.build fill) := by
  refine (h .hive).bind fun hive hhive => (h .hbd).bind fun hbd hhbd =>
    (h .usd).bind fun usd husd => (h .btc).bind fun btc hbtc =>
    (h .sats).bind fun sats hsats => (h .msats).bind fun msats hmsats => .pure fun c => ?_
  cases c <;> assumption

end Outcome

end DoubleEntry
