import GameServer.OxBattle.Model.GameLogic
/-!
# Ox battle — multiples

Five cards always have a type (`getCardType_ne_error`), and a comparison
of two hands reports a multiple from 1 to 10 (`compareCard_multiple`).
-/

namespace GameServer.OxBattle

theorem length_sortCardList (cards : List UInt8) : (sortCardList cards).length = cards.length :=
  (bubbleSort_perm _ _).length_eq

theorem retType_ne_error (type : ℕ) : retType type ≠ .error := by
  unfold retType
  split <;> nofun

theorem jokerNiu_ne_error (joker : UInt8) : jokerNiu joker ≠ .error := by
  unfold jokerNiu
  split_ifs <;> nofun

theorem fiveCards_ne_error (cards : List UInt8) : fiveCards cards ≠ .error := by
  unfold fiveCards
  split
  · nofun
  · nofun
  · exact retType_ne_error _

theorem fourCards_ne_error (a : UInt8) (four : List UInt8) : fourCards a four ≠ .error := by
  unfold fourCards
  split_ifs
  · exact retType_ne_error _
  · exact jokerNiu_ne_error a
  · split
    · nofun
    · exact fiveCards_ne_error _
    · exact retType_ne_error _

theorem niuType_ne_error (a b c d e : UInt8) : niuType a b c d e ≠ .error := by
  unfold niuType
  simp only
  split_ifs
  · nofun
  · exact jokerNiu_ne_error a
  · exact retType_ne_error _
  · nofun
  · exact fourCards_ne_error _ _
  · exact retType_ne_error _
  · exact jokerNiu_ne_error a
  · nofun
  · split
    · nofun
    · exact fourCards_ne_error _ _
    · exact retType_ne_error _
  · exact fourCards_ne_error _ _
  · exact fiveCards_ne_error _

/-- **Five cards have a type.** -/
theorem getCardType_ne_error {cards : List UInt8} (h : cards.length = 5) :
    getCardType cards ≠ .error := by
  have hlength := (length_sortCardList cards).trans h
  unfold getCardType
  split
  · unfold sortedType
    simp only
    split_ifs
    · nofun
    · nofun
    · nofun
    · nofun
    · nofun
    · exact niuType_ne_error _ _ _ _ _
  · rename_i hne
    match hsort : sortCardList cards, hlength with
    | [a, b, c, d, e], _ => exact absurd hsort (hne a b c d e)

/-- A hand that is better than points wins 1 to 10 times the stake. -/
theorem multipleOf_bounds {type : CardType} (herror : type ≠ .error) (hpoint : type ≠ .point) :
    1 ≤ multipleOf type ∧ multipleOf type ≤ 10 := by
  cases type <;> first
    | exact absurd rfl herror
    | exact absurd rfl hpoint
    | decide

theorem ne_point_of_lt {a b : CardType} (ha : a ≠ .error) (hlt : a.toNat < b.toNat) :
    b ≠ .error ∧ b ≠ .point := by
  have hpos : 1 ≤ a.toNat := by
    cases a <;> first
      | exact absurd rfl ha
      | decide
  constructor
  · rintro rfl
    exact absurd hlt (Nat.not_lt_zero _)
  · rintro rfl
    have : CardType.point.toNat = 1 := rfl
    omega

theorem toNat_injective {a b : CardType} (h : a.toNat = b.toNat) : a = b := by
  cases a <;> cases b <;> first
    | rfl
    | exact absurd h (by decide)

/-- **A comparison reports a multiple from 1 to 10**, if it starts with
one. -/
theorem compareCard_multiple (firstCards nextCards : List UInt8) {multiple : ℕ}
    (h : 1 ≤ multiple ∧ multiple ≤ 10) :
    1 ≤ (compareCard firstCards nextCards multiple).2 ∧
      (compareCard firstCards nextCards multiple).2 ≤ 10 := by
  unfold compareCard
  by_cases hlength : ¬ (firstCards.length = 5 ∧ nextCards.length = 5)
  · rw [if_pos hlength]
    exact h
  · rw [not_not] at hlength
    have hfirst := getCardType_ne_error hlength.1
    have hnext := getCardType_ne_error hlength.2
    simp only
    split_ifs with hne hlt hpoint
    · obtain ⟨herror, hpoint⟩ := ne_point_of_lt hfirst hlt
      exact multipleOf_bounds herror hpoint
    · have hlt' : (getCardType nextCards).toNat < (getCardType firstCards).toNat := by
        have hneq : (getCardType firstCards).toNat ≠ (getCardType nextCards).toNat :=
          fun heq => hne (toNat_injective heq)
        omega
      obtain ⟨herror, hpoint⟩ := ne_point_of_lt hnext hlt'
      exact multipleOf_bounds herror hpoint
    · exact multipleOf_bounds hfirst hpoint
    · exact h

end GameServer.OxBattle
