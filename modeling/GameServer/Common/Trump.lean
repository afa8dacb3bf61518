import Mathlib.Order.Basic
import Mathlib.Tactic.Common
/-!
# Orders with trumps

What a play is worth where some kinds of play beat all others: its power,
and within one power its kind and its rank. Plays of the same power but of
different kinds are not comparable. The order is strict
(`Standing.irrefl`, `Standing.trans`).
-/

namespace GameServer

/-- The standing of a play: higher power wins, and of one power and one
kind the higher rank. -/
structure Standing (κ π ρ : Type*) where
  power : π
  kind : κ
  rank : ρ

namespace Standing

variable {κ π ρ : Type*} [Preorder π] [Preorder ρ] {a b c : Standing κ π ρ}

/-- `a` is beaten by `b`. -/
def Below (a b : Standing κ π ρ) : Prop :=
  a.power < b.power ∨ (a.power = b.power ∧ a.kind = b.kind ∧ a.rank < b.rank)

theorem irrefl (a : Standing κ π ρ) : ¬ a.Below a := by
  rintro (h | ⟨-, -, h⟩)
  · exact lt_irrefl _ h
  · exact lt_irrefl _ h

theorem Below.trans (hab : a.Below b) (hbc : b.Below c) : a.Below c := by
  rcases hab with hab | ⟨hpower, hkind, hab⟩
  · rcases hbc with hbc | ⟨hpower', -, -⟩
    · exact .inl (hab.trans hbc)
    · exact .inl (hpower' ▸ hab)
  · rcases hbc with hbc | ⟨hpower', hkind', hbc⟩
    · exact .inl (hpower ▸ hbc)
    · exact .inr ⟨hpower.trans hpower', hkind.trans hkind', hab.trans hbc⟩

theorem Below.asymm (hab : a.Below b) : ¬ b.Below a := fun hba => a.irrefl (hab.trans hba)

end Standing

end GameServer
