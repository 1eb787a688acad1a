import DoubleEntry.Proofs.Decimal.Accuracy
import DoubleEntry.Proofs.Text.Numbers

/-!
# Figures with a given number of places

A figure is rounded and then filled up with zeros, so it may have more digits than a
coefficient can hold. A reader drops the zeros that do not fit, and as they are zeros
this rounds nothing: what is read back is the rounded number. How wide a figure gets
depends on its magnitude alone, since rounding adds at most one whole digit.
-/

namespace DoubleEntry

namespace Decimal

variable {a : Decimal} {places count : Nat} {text : String}

/-! ## Whole digits -/

theorem isZero_iff (a : Decimal) : a.isZero = true ↔ a.value = 0 := by
  have hscale := ne_of_gt (tenTo_cast_pos a.scale)
  rw [← abs_eq_zero, abs_value, div_eq_zero_iff, Nat.cast_eq_zero, or_iff_left hscale]
  exact beq_iff_eq

theorem abs_value_lt_iff (a : Decimal) (bound : Nat) :
    |a.value| < bound ↔ a.coefficient < bound * tenTo a.scale := by
  rw [abs_value, div_lt_iff₀ (tenTo_cast_pos a.scale)]
  exact_mod_cast Iff.rfl

/-- One digit stands before the point at least, and no more than the magnitude calls for. -/
theorem length_wholeDigits_le (hcount : 0 < count) (h : |a.value| < (10 ^ count : Nat)) :
    a.wholeDigits.length ≤ count := by
  rw [abs_value_lt_iff] at h
  have hlength : (Nat.toDigits 10 a.coefficient).length ≤ count + a.scale := by
    refine Nat.toDigits_length 10 _ _ (by omega) ?_
    rwa [Nat.pow_add]
  simp only [wholeDigits, digits, List.length_take, List.length_append, List.length_replicate]
  omega

theorem abs_roundedAt_lt {x : Rat} (h : |x| < (10 ^ count : Nat)) :
    |roundedAt places x| < (10 ^ (count + 1) : Nat) := by
  have hone : (1 : Rat) ≤ tenTo places := Nat.one_le_cast.2 (tenTo_pos places)
  have hhalf : |x - roundedAt places x| ≤ 1 / 2 :=
    (le_mul_of_one_le_right (abs_nonneg _) hone).trans (abs_sub_roundedAt_le places x)
  have hnear : |roundedAt places x| ≤ |x| + |x - roundedAt places x| := by
    have htriangle := abs_sub x (x - roundedAt places x)
    rwa [sub_sub_cancel] at htriangle
  have hroom : ((10 ^ count : Nat) : Rat) + 1 ≤ (10 ^ (count + 1) : Nat) := by
    have hpos : 0 < 10 ^ count := Nat.pow_pos (by decide)
    rw [pow_succ]
    exact_mod_cast (by omega : 10 ^ count + 1 ≤ 10 ^ count * 10)
  linarith

/-! ## Reading the zeros behind a figure -/

/-- A zero that fits is one more place of the same number, and one that does not is dropped. -/
theorem readDigits_zeros (ha : a.negative = false) (hroom : a.scale + count < 28) :
    ∃ d, readDigits a true true (List.replicate count '0') = .ok d ∧ d.negative = false ∧
      d.value = a.value := by
  induction count generalizing a with
  | zero => exact ⟨a, rfl, ha, rfl⟩
  | succ count ih =>
      rw [List.replicate_succ]
      by_cases hfits : 10 * a.coefficient < coefficientLimit
      · let longer : Decimal := ⟨false, 10 * a.coefficient, a.scale + 1, hfits, by omega⟩
        have hlonger : longer.value = a.value := by
          have hpos := tenTo_cast_pos a.scale
          simp only [value_eq_div, signed, ha, longer, tenTo_succ, Bool.false_eq_true, if_false]
          push_cast
          field_simp
        obtain ⟨d, hread, hd, hvalue⟩ := ih (a := longer) rfl (by simp only [longer]; omega)
        refine ⟨d, ?_, hd, hvalue.trans hlonger⟩
        have hplace : a.scale + 1 ≤ 28 := by omega
        have hmore : a.scale + 1 < 28 := by omega
        have hdigit : '0'.isDigit = true := rfl
        rw [readDigits_digit hdigit _ a true true hfits hplace fun _ _ => hmore]
        exact hread
      · have hzero : digit? '0' = some 0 := by decide
        have hfull : ofParts? false (a.coefficient * 10 + 0) (a.scale + 1) = none :=
          dif_neg fun h => hfits (by omega)
        have hrest : (List.replicate count '0').find?
            (fun c => (digit? c).isNone && c != '_') = none := by
          rw [List.find?_eq_none]
          intro c hc
          rw [List.eq_of_mem_replicate hc, hzero]
          decide
        refine ⟨a, ?_, ha, rfl⟩
        simp only [readDigits, hzero, if_true, hfull, roundOff, hrest]
        rfl

/-! ## Figures -/

/--
`text` is digits with a point before the last `places` of them, perhaps after a sign, and reads back
as `a` rounded half to even to those places. Without places there is no point.
-/
structure IsFixedText (places : Nat) (a : Decimal) (text : String) : Prop where
  written : ∃ sign whole fraction,
    text.toList = sign ++ whole ++ (if places = 0 then [] else '.' :: fraction) ∧
      sign ∈ [[], ['-']] ∧ whole ≠ [] ∧ (∀ c ∈ whole ++ fraction, c.isDigit) ∧
      fraction.length = places
  readBack : ∃ d, ofText text = .ok d ∧ d.value = roundedAt places a.value

def paddedText (places : Nat) (a : Decimal) : String :=
  String.ofList (textOf a.negative a.wholeDigits
    (a.fractionDigits ++ List.replicate (places - a.scale) '0'))

theorem isDigit_of_mem_padded {c : Char} (padding : Nat)
    (h : c ∈ a.wholeDigits ++ (a.fractionDigits ++ List.replicate padding '0')) : c.isDigit := by
  rw [← List.append_assoc, wholeDigits_append_fractionDigits, List.mem_append] at h
  rcases h with h | h
  · exact isDigit_of_mem_digits h
  · rw [List.eq_of_mem_replicate h]
    rfl

theorem ofText_paddedText (hscale : a.scale ≤ places) (hplaces : places < 28) :
    ∃ d, ofText (a.paddedText places) = .ok d ∧ d.value = a.value := by
  have hroom : a.abs.scale + (places - a.scale) < 28 := by
    change a.scale + (places - a.scale) < 28
    omega
  obtain ⟨d, hread, hd, hvalue⟩ := readDigits_zeros a.abs_negative hroom
  have hdigits := a.readDigits_textOf (List.replicate (places - a.scale) '0') fun _ => by omega
  have hplain := a.readPlain_textOf (hdigits.trans hread) hd
  refine ⟨d.withSign a.negative, ?_, ?_⟩
  · rw [ofText, paddedText, String.toList_ofList]
    simp only [hplain]
  · calc (d.withSign a.negative).value
        = (if a.negative then -1 else 1) * d.value := value_of_signed hd true a.negative
      _ = (if a.negative then -1 else 1) * (a.coefficient / tenTo a.scale) := by
          rw [hvalue, value_abs, abs_value]
      _ = a.value := (value_eq_sign_mul a).symm

theorem isFixedText_paddedText (a : Decimal) (hplaces : places < 28) :
    IsFixedText places a ((a.roundTo places).paddedText places) := by
  have hscale := roundTo_scale_le places a
  constructor
  · have hlength : ((a.roundTo places).fractionDigits ++
        List.replicate (places - (a.roundTo places).scale) '0').length = places := by
      rw [List.length_append, length_fractionDigits, List.length_replicate]
      omega
    refine ⟨if (a.roundTo places).negative then ['-'] else [], _, _, ?_, ?_, wholeDigits_ne_nil _,
      fun c hc => isDigit_of_mem_padded _ hc, hlength⟩
    · rw [paddedText, String.toList_ofList, textOf]
      simp only [List.isEmpty_iff, ← List.length_eq_zero_iff, hlength]
    · split <;> simp
  · rw [← value_roundTo]
    exact ofText_paddedText hscale hplaces

/-- A figure is written if its digits leave room for the point and one digit more. -/
theorem exists_fixed (hplaces : places < 28) (hroom : count + places + 2 ≤ figureLimit)
    (h : |a.value| < (10 ^ count : Nat)) :
    ∃ text, (a.fixed places).Yields text ∧ IsFixedText places a text := by
  have hrounded : |(a.roundTo places).value| < (10 ^ (count + 1) : Nat) := by
    rw [value_roundTo]
    exact abs_roundedAt_lt h
  have hwhole := length_wholeDigits_le count.succ_pos hrounded
  have hwidth : (a.roundTo places).wholeDigits.length + (if places = 0 then 0 else places + 1) ≤
      figureLimit := by
    split <;> omega
  refine ⟨_, ?_, a.isFixedText_paddedText hplaces⟩
  rw [fixed, if_pos hwidth, Calc.yields_pure_iff]
  rfl

end Decimal

end DoubleEntry
