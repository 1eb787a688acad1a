import DoubleEntry.Decimal.Printer
import DoubleEntry.Decimal.Reader
import DoubleEntry.Text.Whole
import Mathlib

/-!
# Written numbers

Whole numbers and decimals are read back from the text that is written for them.
What a decimal prints fits its own coefficient and scale, so a reader never comes
to the rounding; only the sign of a zero is lost.
-/

namespace DoubleEntry

/-! ## Whole numbers -/

namespace Text

theorem digitsValue?_eq {cs : List Char} (hne : cs ≠ []) (hdigits : ∀ c ∈ cs, c.isDigit) :
    digitsValue? cs = some (Nat.ofDigitChars 10 cs 0) := by
  have hempty : cs.isEmpty = false := by simpa using hne
  have hall : cs.all Char.isDigit = true := List.all_eq_true.2 hdigits
  simp only [digitsValue?, hempty, hall, Nat.ofDigitChars, Nat.mul_comm 10]
  rfl

theorem isDigit_of_mem_toDigits {n : Nat} {c : Char} (h : c ∈ Nat.toDigits 10 n) : c.isDigit :=
  Nat.isDigit_of_mem_toDigits (by decide) (by decide) h

theorem digitsValue?_toDigits (n : Nat) : digitsValue? (Nat.toDigits 10 n) = some n := by
  rw [digitsValue?_eq Nat.toDigits_ne_nil fun _ => isDigit_of_mem_toDigits,
    Nat.ofDigitChars_ten_toDigits]

theorem whole?_of_digits {cs : List Char} (hdigits : ∀ c ∈ cs, c.isDigit) :
    whole? cs = (digitsValue? cs).map fun n => (n : Int) := by
  unfold whole?
  split
  · have := hdigits '-' List.mem_cons_self
    contradiction
  · have := hdigits '+' List.mem_cons_self
    contradiction
  · rfl

theorem whole?_toString (n : Int) : whole? (toString n).toList = some n := by
  cases n with
  | ofNat n =>
      have htext : (toString (Int.ofNat n)).toList = Nat.toDigits 10 n := Nat.toList_repr
      rw [htext, whole?_of_digits fun _ => isDigit_of_mem_toDigits, digitsValue?_toDigits]
      rfl
  | negSucc n =>
      have htext : (toString (Int.negSucc n)).toList = '-' :: Nat.toDigits 10 (n + 1) := by
        change ("-" ++ Nat.repr (n + 1)).toList = _
        simp
      rw [htext]
      simp only [whole?, digitsValue?_toDigits]
      rfl

/-- Every number of a signed 64-bit word is read back from its text. -/
theorem whole64?_toString {n : Int} (h : -0x8000000000000000 ≤ n ∧ n < 0x8000000000000000) :
    whole64? (toString n) = some n := by
  rw [whole64?, wholeWithin?, whole?_toString, Option.bind_some, if_pos h]

end Text

/-! ## Decimals -/

namespace Decimal

/-- The same figure with the same digits, a zero without its sign. -/
def unsignedZero (a : Decimal) : Decimal :=
  a.withSign a.negative

@[simp] theorem value_unsignedZero (a : Decimal) : a.unsignedZero.value = a.value := by
  have hsigned : a.unsignedZero.signed = a.signed := by
    cases hzero : a.isZero with
    | true =>
        have hcoefficient : a.coefficient = 0 := by simpa [isZero] using hzero
        simp [unsignedZero, withSign, signed, hzero, hcoefficient]
    | false => simp [unsignedZero, withSign, signed, hzero]
  rw [value, hsigned]
  rfl

@[simp] theorem scale_unsignedZero (a : Decimal) : a.unsignedZero.scale = a.scale :=
  rfl

theorem unsignedZero_of_negative {a : Decimal} (h : a.negative → ¬ a.isZero) :
    a.unsignedZero = a := by
  obtain ⟨negative, coefficient, scale, hcoefficient, hscale⟩ := a
  cases negative with
  | false => simp [unsignedZero, withSign]
  | true => simpa [unsignedZero, withSign] using h

theorem digit?_of_isDigit {c : Char} (h : c.isDigit) : digit? c = some (c.toNat - '0'.toNat) := by
  have hrange := Char.isDigit_iff_toNat.1 h
  rw [digit?, if_pos]
  exact hrange

/-- A digit that fits is taken, unless others follow it in the last place of all. -/
theorem readDigits_digit {c : Char} (hc : c.isDigit) (rest : List Char) (a : Decimal)
    (seen point : Bool)
    (hfits : 10 * a.coefficient + (c.toNat - '0'.toNat) < coefficientLimit)
    (hscale : (if point then a.scale + 1 else a.scale) ≤ 28)
    (hroom : point → rest ≠ [] → a.scale + 1 < 28) :
    readDigits a seen point (c :: rest) =
      readDigits
        ⟨false, 10 * a.coefficient + (c.toNat - '0'.toNat),
          if point then a.scale + 1 else a.scale, hfits, hscale⟩ true point rest := by
  have hparts : ofParts? false (a.coefficient * 10 + (c.toNat - '0'.toNat))
      (if point then a.scale + 1 else a.scale) =
      some ⟨false, 10 * a.coefficient + (c.toNat - '0'.toNat),
        if point then a.scale + 1 else a.scale, hfits, hscale⟩ := by
    rw [Nat.mul_comm a.coefficient, ofParts?, dif_pos ⟨hfits, hscale⟩]
  rw [readDigits, digit?_of_isDigit hc]
  simp only [hparts]
  rw [if_neg]
  intro hlast
  simp only [Bool.and_eq_true, Bool.not_eq_true', List.isEmpty_eq_false_iff,
    beq_iff_eq] at hlast
  obtain ⟨⟨hrest, hpoint⟩, hfull⟩ := hlast
  have := hroom hpoint hrest
  rw [if_pos hpoint] at hfull
  omega

theorem le_ofDigitChars (cs : List Char) (n : Nat) : n ≤ Nat.ofDigitChars 10 cs n := by
  rw [Nat.ofDigitChars_eq_ofDigitChars_zero]
  have := Nat.le_mul_of_pos_left n (Nat.pow_pos (n := cs.length) (show 0 < 10 by decide))
  omega

theorem readDigits_whole {cs : List Char} (hdigits : ∀ c ∈ cs, c.isDigit) (rest : List Char)
    (a : Decimal) (seen : Bool) (ha : a.negative = false)
    (hfits : Nat.ofDigitChars 10 cs a.coefficient < coefficientLimit) :
    readDigits a seen false (cs ++ rest) =
      readDigits ⟨false, Nat.ofDigitChars 10 cs a.coefficient, a.scale, hfits, a.scale_le⟩
        (seen || !cs.isEmpty) false rest := by
  induction cs generalizing a seen with
  | nil =>
      obtain ⟨negative, coefficient, scale, hcoefficient, hscale⟩ := a
      simp only at ha
      simp [ha]
  | cons c cs ih =>
      obtain ⟨hc, hcs⟩ := List.forall_mem_cons.1 hdigits
      simp only [Nat.ofDigitChars_cons] at hfits ⊢
      have hnext := Nat.lt_of_le_of_lt (le_ofDigitChars cs _) hfits
      rw [List.cons_append, readDigits_digit hc _ a seen false hnext a.scale_le (by simp),
        ih hcs _ true rfl hfits]
      simp

theorem readDigits_fraction {cs : List Char} (hdigits : ∀ c ∈ cs, c.isDigit) (rest : List Char)
    (a : Decimal) (ha : a.negative = false) (hscale : a.scale + cs.length ≤ 28)
    (hroom : rest ≠ [] → a.scale + cs.length < 28)
    (hfits : Nat.ofDigitChars 10 cs a.coefficient < coefficientLimit) :
    readDigits a true true (cs ++ rest) =
      readDigits ⟨false, Nat.ofDigitChars 10 cs a.coefficient, a.scale + cs.length, hfits, hscale⟩
        true true rest := by
  induction cs generalizing a with
  | nil =>
      obtain ⟨negative, coefficient, scale, hcoefficient, hscale⟩ := a
      simp only at ha
      simp [ha]
  | cons c cs ih =>
      obtain ⟨hc, hcs⟩ := List.forall_mem_cons.1 hdigits
      simp only [Nat.ofDigitChars_cons, List.length_cons] at hfits hscale hroom ⊢
      have hnext := Nat.lt_of_le_of_lt (le_ofDigitChars cs _) hfits
      have hplace : a.scale + 1 ≤ 28 := by omega
      have hmore : cs ++ rest ≠ [] → a.scale + 1 < 28 := by
        intro hne
        rw [← List.length_pos_iff, List.length_append] at hne
        by_cases hrest : rest = []
        · rw [hrest, List.length_nil] at hne
          omega
        · have := hroom hrest
          omega
      have hrest : rest ≠ [] → a.scale + 1 + cs.length < 28 := by
        intro hne
        have := hroom hne
        omega
      rw [List.cons_append, readDigits_digit hc _ a true true hnext hplace (fun _ => hmore)]
      rw [ih hcs _ rfl (by simp; omega) (by simpa using hrest) hfits]
      simp [Nat.add_assoc, Nat.add_comm 1]

/-! ### The digits that are printed -/

theorem isDigit_of_mem_digits {a : Decimal} {c : Char} (h : c ∈ a.digits) : c.isDigit := by
  rcases List.mem_append.1 h with h | h
  · rw [List.eq_of_mem_replicate h]
    decide
  · exact Text.isDigit_of_mem_toDigits h

theorem ofDigitChars_digits (a : Decimal) : Nat.ofDigitChars 10 a.digits 0 = a.coefficient := by
  rw [digits, Nat.ofDigitChars_append]
  simp

theorem scale_lt_length_digits (a : Decimal) : a.scale < a.digits.length := by
  simp only [digits, List.length_append, List.length_replicate]
  omega

theorem length_fractionDigits (a : Decimal) : a.fractionDigits.length = a.scale := by
  have := a.scale_lt_length_digits
  rw [fractionDigits, List.length_drop]
  omega

theorem wholeDigits_ne_nil (a : Decimal) : a.wholeDigits ≠ [] := by
  have := a.scale_lt_length_digits
  refine List.ne_nil_of_length_pos ?_
  rw [wholeDigits, List.length_take]
  omega

theorem wholeDigits_append_fractionDigits (a : Decimal) :
    a.wholeDigits ++ a.fractionDigits = a.digits :=
  List.take_append_drop _ _

/-! ### Reading what was printed -/

/-- Whatever follows the digits of `a` is read on from there, if it leaves the last place free. -/
theorem readDigits_textOf (a : Decimal) (rest : List Char) (hroom : rest ≠ [] → a.scale < 28) :
    readDigits zero false false (textOf false a.wholeDigits (a.fractionDigits ++ rest)) =
      readDigits a.abs true true rest := by
  have hwhole : ∀ c ∈ a.wholeDigits, c.isDigit :=
    fun c hc => isDigit_of_mem_digits (List.mem_of_mem_take hc)
  have hfraction : ∀ c ∈ a.fractionDigits, c.isDigit :=
    fun c hc => isDigit_of_mem_digits (List.mem_of_mem_drop hc)
  have hall : Nat.ofDigitChars 10 a.fractionDigits (Nat.ofDigitChars 10 a.wholeDigits 0) =
      a.coefficient := by
    rw [← Nat.ofDigitChars_append, wholeDigits_append_fractionDigits, ofDigitChars_digits]
  have hfits : Nat.ofDigitChars 10 a.wholeDigits 0 < coefficientLimit := by
    refine Nat.lt_of_le_of_lt (le_ofDigitChars a.fractionDigits _) ?_
    rw [hall]
    exact a.coefficient_lt
  have hseen : (false || !a.wholeDigits.isEmpty) = true := by
    simpa using a.wholeDigits_ne_nil
  rw [textOf, if_neg Bool.false_ne_true, List.nil_append,
    readDigits_whole hwhole _ zero false rfl hfits, hseen]
  by_cases hpoint : a.fractionDigits ++ rest = []
  · obtain ⟨hnone, rfl⟩ := List.append_eq_nil_iff.1 hpoint
    have hscale : a.scale = 0 := by
      rw [← a.length_fractionDigits, hnone, List.length_nil]
    rw [hnone, Nat.ofDigitChars_nil] at hall
    simp [hnone, readDigits, abs, hall, hscale, zero, ofNat]
  · have hplaces : 0 + a.fractionDigits.length ≤ 28 := by
      rw [Nat.zero_add, a.length_fractionDigits]
      exact a.scale_le
    have hmore : rest ≠ [] → 0 + a.fractionDigits.length < 28 := by
      rwa [Nat.zero_add, a.length_fractionDigits]
    have hdot : digit? '.' = none := by decide
    rw [if_neg (by simpa using hpoint), readDigits, hdot]
    simp only [true_and, if_true]
    rw [readDigits_fraction hfraction rest _ rfl hplaces hmore (hall.trans_lt a.coefficient_lt)]
    simp [hall, length_fractionDigits, abs, zero, ofNat]

theorem readPlain_of_isDigit {c : Char} (hc : c.isDigit) (cs : List Char) :
    readPlain (c :: cs) = readDigits zero false false (c :: cs) := by
  unfold readPlain
  split
  · contradiction
  · rename_i heq
    obtain ⟨rfl, -⟩ := List.cons.inj heq
    contradiction
  · rename_i heq
    obtain ⟨rfl, -⟩ := List.cons.inj heq
    contradiction
  · rfl

theorem readPlain_textOf (a : Decimal) {fraction : List Char} {d : Decimal}
    (h : readDigits zero false false (textOf false a.wholeDigits fraction) = .ok d)
    (hd : d.negative = false) :
    readPlain (textOf a.negative a.wholeDigits fraction) = .ok (d.withSign a.negative) := by
  cases hnegative : a.negative with
  | true =>
      simp only [textOf, if_true, if_neg Bool.false_ne_true, List.nil_append, List.cons_append,
        readPlain] at h ⊢
      rw [h]
      rfl
  | false =>
      have hself : d.withSign false = d := by
        obtain ⟨negative, coefficient, scale, hcoefficient, hscale⟩ := d
        simp only at hd
        simp [withSign, hd]
      obtain ⟨c, cs, hcs⟩ := List.exists_cons_of_ne_nil a.wholeDigits_ne_nil
      have hc : c ∈ a.wholeDigits := by
        rw [hcs]
        exact List.mem_cons_self
      have hdigit : c.isDigit := isDigit_of_mem_digits (List.mem_of_mem_take hc)
      rw [hself, ← h]
      simp only [textOf, if_neg Bool.false_ne_true, List.nil_append, hcs, List.cons_append]
      exact readPlain_of_isDigit hdigit _

/-- A decimal is read back from its text, with the same value and scale. -/
theorem ofText_text (a : Decimal) : ofText a.text = .ok a.unsignedZero := by
  have hdigits := a.readDigits_textOf [] (by simp)
  rw [List.append_nil] at hdigits
  have hplain := a.readPlain_textOf (hdigits.trans rfl) a.abs_negative
  rw [ofText, text, String.toList_ofList]
  simp only [hplain]
  rfl

end Decimal

end DoubleEntry
