import DoubleEntry.Proofs.Outcomes
import DoubleEntry.Proofs.Text.Numbers
import DoubleEntry.Proofs.Text.Words
import DoubleEntry.UserText

/-!
# Written amounts

An amount with its currency is a pair of words, a decimal and a spelling of the
currency in any ASCII case, and is read from nothing else. Neither word has a blank
inside, so the trimming that each of them goes through again takes nothing away; and a
printed decimal is such a word, so what is written with any blanks around the two
words is read back.
-/

namespace DoubleEntry

/-- The words that stand for a currency, in capitals. -/
def Currency.spellings : Currency → List String
  | .hive => ["HIVE"]
  | .hbd => ["HBD"]
  | .usd => ["USD"]
  | .btc => ["BTC"]
  | .sats => ["SATS", "SAT"]
  | .msats => ["MSATS", "MSAT"]

theorem Currency.code_mem_spellings (c : Currency) : c.code ∈ c.spellings := by
  cases c <;> decide

namespace Text

/-! ## Pairs of words -/

def IsPair (text first second : String) : Prop :=
  IsWord first.toList ∧ IsWord second.toList ∧
    ∃ before between after : String,
      isAllBlank before ∧ isAllBlank between ∧ between ≠ "" ∧ isAllBlank after ∧
        text = before ++ first ++ between ++ second ++ after

theorem isAllBlank_iff (text : String) :
    isAllBlank text = true ↔ ∀ c ∈ text.toList, isBlank c = true :=
  List.all_eq_true

theorem words_of_isPair {text first second : String} (h : IsPair text first second) :
    words text = [first, second] := by
  obtain ⟨hfirst, hsecond, before, between, after, hbefore, hbetween, hne, hafter, rfl⟩ := h
  rw [isAllBlank_iff] at hbefore hbetween hafter
  have hends : EndsWord (between.toList ++ (second.toList ++ after.toList)) := by
    cases hgap : between.toList with
    | nil => exact absurd (String.toList_eq_nil_iff.1 hgap) hne
    | cons b gap =>
        rintro c ⟨rfl⟩
        exact hbetween b (by rw [hgap]; exact List.mem_cons_self)
  simp only [words_eq_map, String.toList_append, List.append_assoc]
  rw [wordsOf_blanks_append hbefore, wordsOf_append hfirst hends, wordsOf_blanks_append hbetween,
    wordsOf_append hsecond (endsWord_of_blank hafter), (wordsOf_eq_nil_iff _).2 hafter]
  simp

theorem isPair_of_words {text first second : String} (h : words text = [first, second]) :
    IsPair text first second := by
  have hchars : wordsOf text.toList = [first.toList, second.toList] := by
    have hlists := congrArg (List.map String.toList) h
    simpa [words_eq_map, Function.comp_def] using hlists
  obtain ⟨before, rest, hbefore, hfirst, hends, htext, hrest⟩ := wordsOf_eq_cons_iff.1 hchars
  obtain ⟨between, after, hbetween, hsecond, -, rfl, hafter⟩ := wordsOf_eq_cons_iff.1 hrest
  rw [wordsOf_eq_nil_iff] at hafter
  -- The first word has ended, so the second one cannot follow at once.
  have hgap : between ≠ [] := by
    rintro rfl
    rw [List.nil_append] at hends
    exact hsecond.not_endsWord_append after hends
  refine ⟨hfirst, hsecond, .ofList before, .ofList between, .ofList after, ?_, ?_, ?_, ?_, ?_⟩
  · simpa [isAllBlank_iff] using hbefore
  · simpa [isAllBlank_iff] using hbetween
  · simpa [← String.toList_inj] using hgap
  · simpa [isAllBlank_iff] using hafter
  · rw [← String.toList_inj, htext]
    simp

/-! ## Trimmed words -/

theorem trim_of_not_blank {text : String} (h : ∀ c ∈ text.toList, isBlank c = false) :
    trim text = text := by
  have hkeep : ∀ {cs : List Char}, (∀ c ∈ cs, isBlank c = false) → cs.dropWhile isBlank = cs := by
    intro cs hcs
    refine List.dropWhile_eq_self_iff.2 fun hpos => ?_
    rw [hcs _ (List.getElem_mem hpos)]
    exact Bool.false_ne_true
  rw [trim, trimmed, hkeep h, hkeep (by simpa using h), List.reverse_reverse, String.ofList_toList]

theorem toUpper_of_isBlank {c : Char} (h : isBlank c = true) : c.toUpper = c := by
  rw [Char.toUpper, dif_neg]
  rintro ⟨hlow, hhigh⟩
  have hletter : 97 ≤ c.toNat ∧ c.toNat ≤ 122 := ⟨hlow, hhigh⟩
  simp only [isBlank, Bool.or_eq_true, Bool.and_eq_true, decide_eq_true_eq, beq_iff_eq] at h
  omega

theorem isWord_of_upperAscii {text : String} {c : Currency} (h : upperAscii text = c.code) :
    IsWord text.toList := by
  have hchars : text.toList.map Char.toUpper = c.code.toList := by
    rw [← h, upperAscii, String.toList_ofList]
  have hcode : c.code.toList ≠ [] ∧ ∀ d ∈ c.code.toList, isBlank d = false := by
    cases c <;> simp [Currency.code, isBlank]
  constructor
  · intro hnil
    rw [hnil] at hchars
    exact hcode.1 hchars.symm
  · intro d hd
    by_contra hblank
    -- Raising letters leaves a blank as it is, and no code has one.
    rw [Bool.not_eq_false] at hblank
    have hraised : d ∈ c.code.toList := by
      rw [← hchars, List.mem_map]
      exact ⟨d, hd, toUpper_of_isBlank hblank⟩
    rw [hcode.2 d hraised] at hblank
    cases hblank

end Text

namespace Decimal

theorem isBlank_of_isDigit {c : Char} (h : c.isDigit) : Text.isBlank c = false := by
  rw [Char.isDigit_iff_toNat] at h
  have hrange : 48 ≤ c.toNat ∧ c.toNat ≤ 57 := h
  by_contra hblank
  simp only [Bool.not_eq_false, Text.isBlank, Bool.or_eq_true, Bool.and_eq_true,
    decide_eq_true_eq, beq_iff_eq] at hblank
  omega

/-- What is printed has digits, a sign and a point, and nothing else. -/
theorem isWord_text (a : Decimal) : Text.IsWord a.text.toList := by
  have hdigits : ∀ c ∈ a.wholeDigits ++ a.fractionDigits, Text.isBlank c = false := by
    rw [wholeDigits_append_fractionDigits]
    exact fun c hc => isBlank_of_isDigit (isDigit_of_mem_digits hc)
  obtain ⟨hwhole, hfraction⟩ := List.forall_mem_append.1 hdigits
  rw [text, String.toList_ofList, textOf]
  constructor
  · simp [a.wholeDigits_ne_nil]
  · simp only [List.forall_mem_append]
    refine ⟨⟨?_, hwhole⟩, ?_⟩
    · split <;> simp [Text.isBlank]
    · split
      · simp
      · exact List.forall_mem_cons.2 ⟨by decide, hfraction⟩

end Decimal

/-! ## Reading -/

def LedgerError.IsInvalid (error : LedgerError) : Prop :=
  ∃ cause, error = .validation cause

theorem Currency.outcome_ofText (text : String) :
    Outcome LedgerError.IsInvalid (fun c => Text.upperAscii (Text.trim text) ∈ c.spellings)
      (Currency.ofText text) := by
  unfold Currency.ofText
  dsimp only
  generalize Text.upperAscii (Text.trim text) = word
  split
  · next hsat => exact .ok (by simp [hsat, spellings])
  split
  · next hmsat => exact .ok (by simp [hmsat, spellings])
  split
  · next c hcode =>
    rw [Currency.ofCode?] at hcode
    have hword := List.find?_some hcode
    rw [beq_iff_eq] at hword
    exact .ok (hword ▸ c.code_mem_spellings)
  · exact .error ⟨_, rfl⟩

theorem Currency.ofText_of_mem_spellings {text : String} {c : Currency}
    (h : Text.upperAscii (Text.trim text) ∈ c.spellings) : Currency.ofText text = .ok c := by
  unfold Currency.ofText
  dsimp only
  generalize Text.upperAscii (Text.trim text) = word at h
  cases c <;> simp only [spellings, List.mem_cons, List.not_mem_nil, or_false] at h <;>
    first
      | subst h; rfl
      | obtain rfl | rfl := h <;> rfl

theorem outcome_readAmount (text : String) :
    Outcome LedgerError.IsInvalid (fun d => Decimal.ofText (Text.trim text) = .ok d)
      (readAmount text) := by
  unfold readAmount
  split
  · next d hd => exact .ok hd
  · exact .error ⟨_, rfl⟩

def IsAmountPair (text : String) (d : Decimal) (c : Currency) : Prop :=
  ∃ amount unit, Text.IsPair text amount unit ∧ Decimal.ofText amount = .ok d ∧
    Text.upperAscii unit ∈ c.spellings

theorem outcome_readAmountWithCurrency (text : String) :
    Outcome LedgerError.IsInvalid (fun read => IsAmountPair text read.1 read.2)
      (readAmountWithCurrency text) := by
  unfold readAmountWithCurrency
  split
  · next amount unit hwords =>
    have hpair := Text.isPair_of_words hwords
    refine (outcome_readAmount amount).bind fun d hd =>
      (Currency.outcome_ofText unit).bind fun c hc => .pure ⟨amount, unit, hpair, ?_, ?_⟩
    · rwa [Text.trim_of_not_blank hpair.1.not_blank] at hd
    · rwa [Text.trim_of_not_blank hpair.2.1.not_blank] at hc
  · exact .error ⟨_, rfl⟩

theorem IsAmountPair.readAmountWithCurrency {text : String} {d : Decimal} {c : Currency}
    (h : IsAmountPair text d c) : readAmountWithCurrency text = .ok (d, c) := by
  obtain ⟨amount, unit, hpair, hamount, hunit⟩ := h
  have hd : readAmount amount = .ok d := by
    rw [readAmount, Text.trim_of_not_blank hpair.1.not_blank, hamount]
  have hc : Currency.ofText unit = .ok c := by
    refine Currency.ofText_of_mem_spellings ?_
    rwa [Text.trim_of_not_blank hpair.2.1.not_blank]
  rw [DoubleEntry.readAmountWithCurrency, Text.words_of_isPair hpair]
  simp only [hd, hc]
  rfl

/-- A printed decimal and a code in any case are read back from between any blanks. -/
theorem isAmountPair_printed (d : Decimal) {c : Currency} {before between unit after : String}
    (hbefore : Text.isAllBlank before) (hbetween : Text.isAllBlank between) (hne : between ≠ "")
    (hafter : Text.isAllBlank after) (hunit : Text.upperAscii unit = c.code) :
    IsAmountPair (before ++ d.text ++ between ++ unit ++ after) d.unsignedZero c :=
  ⟨d.text, unit,
    ⟨d.isWord_text, Text.isWord_of_upperAscii hunit, before, between, after, hbefore, hbetween,
      hne, hafter, rfl⟩,
    d.ofText_text, hunit ▸ c.code_mem_spellings⟩

/--
An amount is read with its currency from just those texts that are a decimal and a spelling
of the currency with blanks between them and perhaps around them, and any other text is invalid.
What is printed for a decimal, blanks and a code in any case are such a text, and give the value,
the scale and the currency back.
-/
theorem readAmountWithCurrency_exact :
    (∀ text d c, readAmountWithCurrency text = .ok (d, c) ↔ IsAmountPair text d c) ∧
      (∀ text, (¬ ∃ d c, IsAmountPair text d c) →
        ∃ cause, readAmountWithCurrency text = .error (.validation cause)) ∧
      ∀ (d : Decimal) (c : Currency) (before between unit after : String),
        Text.isAllBlank before → Text.isAllBlank between → between ≠ "" → Text.isAllBlank after →
          Text.upperAscii unit = c.code →
            ∃ read, readAmountWithCurrency (before ++ d.text ++ between ++ unit ++ after) =
                .ok (read, c) ∧
              read.value = d.value ∧ read.scale = d.scale := by
  refine ⟨fun text d c => ⟨fun hread => ?_, fun h => h.readAmountWithCurrency⟩, ?_, ?_⟩
  · have houtcome := outcome_readAmountWithCurrency text
    rw [hread] at houtcome
    exact houtcome.good_of_ok
  · intro text hnone
    obtain ⟨read, -, hpair⟩ | ⟨error, herror, cause, rfl⟩ :=
      (outcome_readAmountWithCurrency text).eq_ok_or_eq_error
    · exact absurd ⟨_, _, hpair⟩ hnone
    · exact ⟨cause, herror⟩
  · intro d c before between unit after hbefore hbetween hne hafter hunit
    refine ⟨d.unsignedZero, ?_, d.value_unsignedZero, d.scale_unsignedZero⟩
    exact (isAmountPair_printed d hbefore hbetween hne hafter hunit).readAmountWithCurrency

/-- Seven digits before the point and twenty-two behind it, between an em space and others. -/
theorem readAmountWithCurrency_exact_at_odd_blanks :
    ∃ read, readAmountWithCurrency
        "\u2003-7922816.2514264337593543950335\u3000\tmSats\n" = .ok (read, .msats) ∧
      read.value = -79228162514264337593543950335 / 10 ^ 22 ∧ read.scale = 22 := by
  obtain ⟨read, hread, hvalue, hscale⟩ := readAmountWithCurrency_exact.2.2
    ⟨true, 79228162514264337593543950335, 22, by decide, by decide⟩ .msats "\u2003" "\u3000\t"
    "mSats" "\n" (by decide) (by decide) (by decide) (by decide) (by decide)
  refine ⟨read, hread, hvalue.trans ?_, hscale⟩
  norm_num [Decimal.value, Decimal.signed, tenTo]

end DoubleEntry
