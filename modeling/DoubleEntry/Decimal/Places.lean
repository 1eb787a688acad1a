/-!
# Places

A digit is worth ten times as much as the one behind it. `tenTo` is the factor
that moving a number by some places comes to.
-/

namespace DoubleEntry

def tenTo (places : Nat) : Nat :=
  Nat.pow 10 places

@[simp] theorem tenTo_zero : tenTo 0 = 1 :=
  rfl

theorem tenTo_succ (places : Nat) : tenTo (places + 1) = tenTo places * 10 :=
  rfl

theorem tenTo_pos (places : Nat) : 0 < tenTo places :=
  Nat.pow_pos (by decide)

theorem two_le_tenTo {places : Nat} (h : 0 < places) : 2 ≤ tenTo places := by
  obtain ⟨n, rfl⟩ : ∃ n, places = n + 1 := ⟨places - 1, by omega⟩
  have := tenTo_pos n
  rw [tenTo_succ]
  omega

theorem tenTo_le_tenTo {m n : Nat} (h : m ≤ n) : tenTo m ≤ tenTo n :=
  Nat.pow_le_pow_right (by decide) h

end DoubleEntry
