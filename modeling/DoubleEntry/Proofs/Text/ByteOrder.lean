import Mathlib.Tactic.SplitIfs

/-!
# Texts in byte order

Texts are compared character by character. Bytes of UTF-8 come in the same order: of
two characters the greater has the greater first byte, or the same first byte and then
a greater one where they first differ.
-/

namespace DoubleEntry

namespace Text

def bytes (s : String) : List UInt8 :=
  s.toByteArray.data.toList

theorem bytes_eq_flatMap (s : String) : bytes s = s.toList.flatMap String.utf8EncodeChar := by
  have hencoded := String.toByteArray_ofList (l := s.toList)
  rw [String.ofList_toList] at hencoded
  rw [bytes, hencoded, List.utf8Encode, List.toList_data_toByteArray]

/-- Whatever follows, a greater character is encoded to greater bytes. -/
theorem utf8EncodeChar_append_lt {c d : Char} (h : c < d) (xs ys : List UInt8) :
    String.utf8EncodeChar c ++ xs < String.utf8EncodeChar d ++ ys := by
  have hlt : c.val.toNat < d.val.toNat := UInt32.lt_iff_toNat_lt.1 h
  have hmost : d.val.toNat < 0x110000 := by
    rcases d.valid with hd | ⟨-, hd⟩
    · omega
    · exact hd
  unfold String.utf8EncodeChar
  dsimp only
  generalize c.val.toNat = m at hlt ⊢
  generalize d.val.toNat = n at hlt hmost ⊢
  split_ifs <;> simp (disch := omega) only [List.cons_append, List.nil_append,
    List.cons_lt_cons_iff, UInt8.lt_iff_toNat_lt, ← UInt8.toNat_inj, UInt8.toNat_ofNat',
    Nat.reducePow, Nat.mod_eq_of_lt] <;> omega

theorem flatMap_utf8EncodeChar_lt {cs ds : List Char} (h : cs < ds) :
    cs.flatMap String.utf8EncodeChar < ds.flatMap String.utf8EncodeChar := by
  induction h with
  | nil =>
      rename_i d ds
      obtain ⟨byte, rest, hd⟩ :=
        List.exists_cons_of_ne_nil (String.utf8EncodeChar_ne_nil (c := d))
      rw [List.flatMap_cons, hd]
      exact List.nil_lt_cons _ _
  | rel hlt => exact utf8EncodeChar_append_lt hlt _ _
  | cons _ ih => exact List.append_left_lt ih

theorem lt_iff_bytes_lt (a b : String) : a < b ↔ bytes a < bytes b := by
  have hbytes : ∀ {a b : String}, a < b → bytes a < bytes b := by
    intro a b h
    rw [bytes_eq_flatMap, bytes_eq_flatMap]
    exact flatMap_utf8EncodeChar_lt h
  constructor
  · exact hbytes
  · intro h
    by_cases heq : a = b
    · subst heq
      exact absurd h (List.lt_irrefl _)
    · rw [← String.not_le]
      intro hle
      have hlt : b < a := by
        rw [← String.not_le]
        exact fun hge => heq (String.le_antisymm hge hle)
      exact List.lt_asymm h (hbytes hlt)

end Text

end DoubleEntry
