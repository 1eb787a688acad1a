import DoubleEntry.Text.Blank
import Mathlib.Data.List.TakeWhile

/-!
# Words and blanks

The words of a text are what it was put together from: nothing but blanks in front of
the first word, behind the last one, and between any two, where there is at least one.
Taken apart and put together agree both ways, so a text has no other words.
-/

namespace DoubleEntry

namespace Text

/-- Characters of which none is blank, one at least. -/
structure IsWord (cs : List Char) : Prop where
  ne_nil : cs ≠ []
  not_blank : ∀ c ∈ cs, isBlank c = false

def EndsWord (rest : List Char) : Prop :=
  ∀ c ∈ rest.head?, isBlank c = true

theorem IsWord.not_endsWord_append {w : List Char} (hw : IsWord w) (rest : List Char) :
    ¬ EndsWord (w ++ rest) := by
  obtain ⟨c, cs, rfl⟩ := List.exists_cons_of_ne_nil hw.ne_nil
  intro hends
  have hblank : isBlank c = true := hends c rfl
  rw [hw.not_blank c List.mem_cons_self] at hblank
  cases hblank

theorem endsWord_of_blank {cs : List Char} (h : ∀ c ∈ cs, isBlank c = true) : EndsWord cs :=
  fun c hc => h c (List.mem_of_mem_head? hc)

def wordsOf (cs : List Char) : List (List Char) :=
  (pieces isBlank cs).filter fun piece => !piece.isEmpty

theorem words_eq_map (text : String) : words text = (wordsOf text.toList).map String.ofList :=
  rfl

/-! ## Pieces -/

theorem wordsOf_blank_cons {c : Char} (hc : isBlank c = true) (cs : List Char) :
    wordsOf (c :: cs) = wordsOf cs := by
  simp [wordsOf, pieces, hc]

theorem wordsOf_blanks_append {bs : List Char} (hbs : ∀ c ∈ bs, isBlank c = true)
    (cs : List Char) : wordsOf (bs ++ cs) = wordsOf cs := by
  induction bs with
  | nil => rfl
  | cons b bs ih =>
      obtain ⟨hb, hrest⟩ := List.forall_mem_cons.1 hbs
      rw [List.cons_append, wordsOf_blank_cons hb, ih hrest]

theorem pieces_append {w rest : List Char} (hw : ∀ c ∈ w, isBlank c = false)
    (hrest : EndsWord rest) : pieces isBlank (w ++ rest) = w :: (pieces isBlank rest).tail := by
  induction w with
  | nil =>
      cases rest with
      | nil => rfl
      | cons b rest => simp [pieces, hrest b rfl]
  | cons c w ih =>
      obtain ⟨hc, hlater⟩ := List.forall_mem_cons.1 hw
      simp [pieces, hc, ih hlater]

theorem wordsOf_append {w rest : List Char} (hw : IsWord w) (hrest : EndsWord rest) :
    wordsOf (w ++ rest) = w :: wordsOf rest := by
  have hnonempty : w.isEmpty = false := List.isEmpty_eq_false_iff.2 hw.ne_nil
  have htail : (pieces isBlank rest).tail.filter (fun piece => !piece.isEmpty) = wordsOf rest := by
    cases rest with
    | nil => rfl
    | cons b rest => simp [wordsOf, pieces, hrest b rfl]
  rw [wordsOf, pieces_append hw.not_blank hrest, List.filter_cons, hnonempty, htail]
  rfl

/-! ## The words of a text -/

/-- The first word is what blanks, the text's end or both bound, and the others are behind it. -/
theorem exists_first_word {cs : List Char} (h : ¬ ∀ c ∈ cs, isBlank c = true) :
    ∃ before w rest, (∀ c ∈ before, isBlank c = true) ∧ IsWord w ∧ EndsWord rest ∧
      cs = before ++ w ++ rest := by
  have hcore : cs.dropWhile isBlank ≠ [] := fun hnil => h (List.dropWhile_eq_nil_iff.1 hnil)
  have hhead := List.head_dropWhile_not isBlank hcore
  generalize hrest : cs.dropWhile isBlank = core at hcore hhead
  refine ⟨cs.takeWhile isBlank, core.takeWhile fun c => !isBlank c,
    core.dropWhile fun c => !isBlank c, fun c => List.mem_takeWhile_imp, ⟨?_, ?_⟩, ?_, ?_⟩
  · cases core with
    | nil => exact absurd rfl hcore
    | cons c core =>
        have hc : isBlank c = false := hhead
        simp [hc]
  · intro c hc
    simpa using List.mem_takeWhile_imp hc
  · intro c hc
    have hstop := List.head?_dropWhile_not (fun c => !isBlank c) core
    rw [hc] at hstop
    simpa using hstop
  · rw [List.append_assoc, List.takeWhile_append_dropWhile, ← hrest,
      List.takeWhile_append_dropWhile]

theorem wordsOf_eq_nil_iff (cs : List Char) : wordsOf cs = [] ↔ ∀ c ∈ cs, isBlank c = true := by
  constructor
  · intro hnone
    by_contra hsome
    obtain ⟨before, w, rest, hbefore, hw, hrest, rfl⟩ := exists_first_word hsome
    rw [List.append_assoc, wordsOf_blanks_append hbefore, wordsOf_append hw hrest] at hnone
    cases hnone
  · intro hblank
    have happend := wordsOf_blanks_append hblank []
    rwa [List.append_nil] at happend

theorem wordsOf_eq_cons_iff {cs w : List Char} {ws : List (List Char)} :
    wordsOf cs = w :: ws ↔
      ∃ before rest, (∀ c ∈ before, isBlank c = true) ∧ IsWord w ∧ EndsWord rest ∧
        cs = before ++ w ++ rest ∧ wordsOf rest = ws := by
  constructor
  · intro hwords
    have hsome : ¬ ∀ c ∈ cs, isBlank c = true := by
      rw [← wordsOf_eq_nil_iff, hwords]
      exact List.cons_ne_nil w ws
    obtain ⟨before, first, rest, hbefore, hfirst, hrest, rfl⟩ := exists_first_word hsome
    rw [List.append_assoc, wordsOf_blanks_append hbefore, wordsOf_append hfirst hrest] at hwords
    obtain ⟨rfl, rfl⟩ := List.cons.inj hwords
    exact ⟨before, rest, hbefore, hfirst, hrest, rfl, rfl⟩
  · rintro ⟨before, rest, hbefore, hw, hrest, rfl, rfl⟩
    rw [List.append_assoc, wordsOf_blanks_append hbefore, wordsOf_append hw hrest]

end Text

end DoubleEntry
