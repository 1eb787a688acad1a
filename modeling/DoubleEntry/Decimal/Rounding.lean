/-!
# Rounding a quotient

Results are rounded by `roundHalfEven`: a tie goes to the even neighbour. Only
the reading of text rounds a tie up.
-/

namespace DoubleEntry

/-- `m / d` to the nearest whole number; a tie goes to the even one. -/
def roundHalfEven (m d : Nat) : Nat :=
  if d < 2 * (m % d) ∨ (2 * (m % d) = d ∧ m / d % 2 = 1) then m / d + 1 else m / d

theorem roundHalfEven_one (m : Nat) : roundHalfEven m 1 = m := by
  simp [roundHalfEven, Nat.mod_one]

theorem roundHalfEven_floor_or_next (m d : Nat) :
    roundHalfEven m d = m / d ∨ (roundHalfEven m d = m / d + 1 ∧ m % d ≠ 0) := by
  unfold roundHalfEven
  split
  · rename_i h
    by_cases hr : m % d = 0
    · have hd : d = 0 := by omega
      subst hd
      simp at h
      omega
    · exact Or.inr ⟨rfl, hr⟩
  · exact Or.inl rfl

theorem roundHalfEven_le (m d : Nat) (hd : 2 ≤ d) : roundHalfEven m d ≤ m := by
  have hfloor := Nat.div_add_mod m d
  have hgrow : 2 * (m / d) ≤ d * (m / d) := Nat.mul_le_mul_right _ hd
  rcases roundHalfEven_floor_or_next m d with h | ⟨h, hne⟩ <;> rw [h] <;> omega

def roundHalfUp (m d : Nat) : Nat :=
  (m + d / 2) / d

theorem roundHalfUp_lt {m d bound : Nat} (hm : m < bound) (hd : 0 < d) :
    roundHalfUp m d < bound := by
  unfold roundHalfUp
  rw [Nat.div_lt_iff_lt_mul hd]
  obtain ⟨b, rfl⟩ : ∃ b, bound = b + 1 := ⟨bound - 1, by omega⟩
  have hgrow : b ≤ b * d := Nat.le_mul_of_pos_right b hd
  have hhalf : d / 2 < d := Nat.div_lt_self hd (by decide)
  rw [Nat.add_mul, Nat.one_mul]
  omega

end DoubleEntry
