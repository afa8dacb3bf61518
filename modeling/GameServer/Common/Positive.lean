import Mathlib.Algebra.GroupWithZero.Nat
/-!
# Sizes

The sizes a number stands for a place of. Each is positive by a fact with
a name, so that a literal means the same wherever it is written.
-/

namespace GameServer

instance neZero_one : NeZero (1 : ℕ) := ⟨by decide⟩

instance neZero_two : NeZero (2 : ℕ) := ⟨by decide⟩

instance neZero_three : NeZero (3 : ℕ) := ⟨by decide⟩

instance neZero_four : NeZero (4 : ℕ) := ⟨by decide⟩

instance neZero_nine : NeZero (9 : ℕ) := ⟨by decide⟩

instance neZero_ten : NeZero (10 : ℕ) := ⟨by decide⟩

end GameServer
