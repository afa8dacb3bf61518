import GameServer.Ox.Model.GameLogic
import Mathlib.Algebra.BigOperators.Group.List.Basic
import Mathlib.Data.List.GetD
import Mathlib.Data.List.NodupEquivFin
import Mathlib.Data.List.Perm.Subperm
/-!
# Ox — the order of hands

A hand has an ox when three of its cards make a multiple of ten. What the
other two then make is read off the sum of all five (`points_of_split`),
so that neither the type nor the ox depends on where the cards lie
(`getCardType_eq`, `getOxCard_iff`). The comparison goes by one number of
each hand (`compareCard_iff`), which two hands of one deck never share.
-/

namespace GameServer.Ox

variable {cards cards' triple pair a b c : List UInt8} {i j : ℕ}

/-- Five different cards of the deck. -/
structure IsHand (cards : List UInt8) : Prop where
  length : cards.length = maxCount
  nodup : cards.Nodup
  deck : ∀ card ∈ cards, card ∈ cardListData

/-- The logic values of some cards, added up. -/
def logicSum (cards : List UInt8) : ℕ := (cards.map getCardLogicValue).sum

/-- Three cards that make a multiple of ten, and the other two. -/
structure Split (cards triple pair : List UInt8) : Prop where
  perm : (triple ++ pair).Perm cards
  three : triple.length = 3
  two : pair.length = 2
  ten : logicSum triple % 10 = 0

/-- What the other two are worth. -/
def points (pair : List UInt8) : ℕ :=
  if logicSum pair > 10 then logicSum pair - 10 else logicSum pair

/-! ## The two loops -/

theorem mem_loopPairs {n : ℕ} : (i, j) ∈ loopPairs n ↔ i < j ∧ j < n := by
  simp only [loopPairs, List.mem_flatMap, List.mem_range, List.mem_map, List.mem_range'_1,
    Prod.mk.injEq]
  constructor
  · omega
  · rintro ⟨hij, hj⟩
    exact ⟨i, by omega, j, by omega, rfl, rfl⟩

def others (cards : List UInt8) (i j : ℕ) : List UInt8 :=
  ((List.range cards.length).filter fun k => k ≠ i ∧ k ≠ j).map (cards.getD · 0)

theorem map_getD_range (cards : List UInt8) :
    (List.range cards.length).map (cards.getD · 0) = cards := by
  refine List.ext_getElem (by simp) fun n h₁ h₂ => ?_
  rw [List.getElem_map, List.getElem_range, List.getD_eq_getElem _ _ h₂]

theorem others_perm (hij : i < j) (hj : j < cards.length) :
    (others cards i j ++ [cards.getD i 0, cards.getD j 0]).Perm cards := by
  have hplaces : ((List.range cards.length).filter (fun k => k ≠ i ∧ k ≠ j) ++ [i, j]).Perm
      (List.range cards.length) := by
    refine (List.perm_ext_iff_of_nodup ?_ List.nodup_range).2 fun k => ?_
    · refine List.Nodup.append (List.nodup_range.filter _) (by simp [hij.ne]) ?_
      intro k hk hk'
      simp only [List.mem_filter, decide_eq_true_eq] at hk
      simp only [List.mem_cons, List.not_mem_nil, or_false] at hk'
      omega
    · simp only [List.mem_append, List.mem_filter, List.mem_range, decide_eq_true_eq,
        List.mem_cons, List.not_mem_nil, or_false]
      omega
  have hmap := hplaces.map (cards.getD · 0)
  rwa [List.map_append, map_getD_range] at hmap

theorem logicSum_perm (h : cards.Perm cards') : logicSum cards = logicSum cards' :=
  (h.map getCardLogicValue).sum_eq

@[simp] theorem logicSum_append (a b : List UInt8) : logicSum (a ++ b) = logicSum a + logicSum b := by
  simp [logicSum]

theorem getD_logic (cards : List UInt8) (i : ℕ) :
    (cards.map getCardLogicValue).getD i 0 = getCardLogicValue (cards.getD i 0) :=
  List.getD_map cards 0 getCardLogicValue

theorem logicSum_others (hij : i < j) (hj : j < cards.length) :
    logicSum (others cards i j) =
      logicSum cards - getCardLogicValue (cards.getD i 0) - getCardLogicValue (cards.getD j 0) := by
  have hsum := logicSum_perm (others_perm hij hj)
  simp only [logicSum_append] at hsum
  simp only [logicSum, List.map_cons, List.map_nil, List.sum_cons, List.sum_nil] at hsum ⊢
  omega

/-- Two cards of a hand beside the others lie at two places of it. -/
theorem exists_places {x y : UInt8} (h : (triple ++ [x, y]).Perm cards) :
    ∃ i j, i < j ∧ j < cards.length ∧ [cards.getD i 0, cards.getD j 0].Perm [x, y] := by
  have hsub : List.Subperm [x, y] cards := ((List.sublist_append_right triple [x, y]).subperm).trans h.subperm
  obtain ⟨l, hl, hsublist⟩ := hsub
  obtain ⟨p, q, rfl⟩ := List.length_eq_two.1 hl.length_eq
  obtain ⟨f, hf⟩ := List.sublist_iff_exists_fin_orderEmbedding_get_eq.1 hsublist
  have hp := hf ⟨0, by simp⟩
  have hq := hf ⟨1, by simp⟩
  refine ⟨f ⟨0, by simp⟩, f ⟨1, by simp⟩, f.strictMono (by simp), (f _).2, ?_⟩
  rw [List.getD_eq_getElem _ _ (f ⟨0, by simp⟩).2, List.getD_eq_getElem _ _ (f ⟨1, by simp⟩).2]
  simp only [List.get_eq_getElem] at hp hq
  rw [← hp, ← hq]
  exact hl

/-! ## The ox of a hand -/

theorem findOx_eq_some (h : findOx cards = some (i, j)) :
    i < j ∧ j < cards.length ∧ logicSum (others cards i j) % 10 = 0 := by
  obtain ⟨hij, hj⟩ := mem_loopPairs.1 (List.mem_of_find?_eq_some h)
  have hten := List.find?_some h
  simp only [getD_logic, decide_eq_true_eq, ← logicSum.eq_1] at hten
  exact ⟨hij, hj, (congrArg (· % 10) (logicSum_others hij hj)).trans hten⟩

theorem findOx_eq_none (h : findOx cards = none) (hij : i < j) (hj : j < cards.length) :
    logicSum (others cards i j) % 10 ≠ 0 := by
  have hten := List.find?_eq_none.1 h (i, j) (mem_loopPairs.2 ⟨hij, hj⟩)
  simp only [getD_logic, decide_eq_true_eq, ← logicSum.eq_1] at hten
  rwa [logicSum_others hij hj]

theorem split_of_findOx (hlength : cards.length = maxCount) (h : findOx cards = some (i, j)) :
    Split cards (others cards i j) [cards.getD i 0, cards.getD j 0] := by
  obtain ⟨hij, hj, hten⟩ := findOx_eq_some h
  have hperm := others_perm hij hj
  have hcount := hperm.length_eq
  rw [List.length_append, hlength] at hcount
  exact ⟨hperm, Nat.add_right_cancel hcount, rfl, hten⟩

/-- **A hand that splits is found.** -/
theorem findOx_isSome_iff (hlength : cards.length = maxCount) :
    (findOx cards).isSome ↔ ∃ triple pair, Split cards triple pair := by
  constructor
  · intro h
    obtain ⟨⟨i, j⟩, hfind⟩ := Option.isSome_iff_exists.1 h
    exact ⟨_, _, split_of_findOx hlength hfind⟩
  · rintro ⟨triple, pair, hperm, -, htwo, hten⟩
    obtain ⟨x, y, rfl⟩ := List.length_eq_two.1 htwo
    obtain ⟨i, j, hij, hj, hpair⟩ := exists_places hperm
    by_contra hnone
    refine findOx_eq_none (Option.not_isSome_iff_eq_none.1 hnone) hij hj ?_
    have hall := logicSum_perm ((others_perm hij hj).trans hperm.symm)
    rw [logicSum_append, logicSum_append, logicSum_perm hpair] at hall
    rw [Nat.add_right_cancel hall, hten]

theorem getOxCard_iff (hlength : cards.length = maxCount) :
    (getOxCard cards).1 = true ↔ ∃ triple pair, Split cards triple pair := by
  rw [← findOx_isSome_iff hlength, getOxCard]
  cases findOx cards <;> simp

/-- **`GetOxCard` only moves the cards.** -/
theorem getOxCard_perm (cards : List UInt8) : (getOxCard cards).2.Perm cards := by
  rw [getOxCard]
  split
  · rename_i hfind
    obtain ⟨hij, hj, -⟩ := findOx_eq_some hfind
    exact others_perm hij hj
  · exact List.Perm.refl _

/-! ## The type of a hand -/

theorem IsHand.perm (h : IsHand cards) (hperm : cards'.Perm cards) : IsHand cards' :=
  ⟨hperm.length_eq.trans h.length, hperm.nodup_iff.2 h.nodup,
    fun card hcard => h.deck card (hperm.subset hcard)⟩

theorem logicValue_bounds {card : UInt8} (h : card ∈ cardListData) :
    1 ≤ getCardLogicValue card ∧ getCardLogicValue card ≤ 10 := by
  have hall : ∀ card ∈ cardListData,
      1 ≤ getCardLogicValue card ∧ getCardLogicValue card ≤ 10 := by decide +kernel
  exact hall card h

/-- **Every split gives the same points**: those of the sum of all five. -/
theorem points_of_split (hcards : IsHand cards) (h : Split cards triple pair) :
    points pair = (logicSum cards + 9) % 10 + 1 := by
  obtain ⟨x, y, rfl⟩ := List.length_eq_two.1 h.two
  have hx := logicValue_bounds (hcards.deck x (h.perm.subset (by simp)))
  have hy := logicValue_bounds (hcards.deck y (h.perm.subset (by simp)))
  have hsum := logicSum_perm h.perm
  have hten := h.ten
  have hpair : logicSum [x, y] = getCardLogicValue x + getCardLogicValue y := by simp [logicSum]
  rw [logicSum_append, hpair] at hsum
  rw [points, hpair]
  split_ifs <;> omega

/-- The pictures of a hand, and its tens. -/
def pictures (cards : List UInt8) : ℕ := cards.countP fun card => getCardValue card > 10

/-- A hand of pictures only, or of four and a ten. -/
def Great (cards : List UInt8) : Prop :=
  pictures cards = maxCount ∨
    pictures cards = maxCount - 1 ∧ (cards.countP fun card => getCardValue card = 10) = 1

/-- **The type of a hand** with an ox. -/
theorem getCardType_of_split (hcards : IsHand cards) (h : Split cards triple pair)
    (hgreat : ¬ Great cards) : getCardType cards = points pair := by
  obtain ⟨⟨i, j⟩, hfind⟩ :=
    Option.isSome_iff_exists.1 ((findOx_isSome_iff hcards.length).2 ⟨triple, pair, h⟩)
  rw [points_of_split hcards h, ← points_of_split hcards (split_of_findOx hcards.length hfind)]
  rw [Great, not_or, pictures] at hgreat
  rw [getCardType]
  simp only [if_neg hgreat.1, if_neg hgreat.2, hfind, getD_logic]
  simp only [points, logicSum, List.map_cons, List.map_nil, List.sum_cons, List.sum_nil, add_zero]

theorem getCardType_of_no_split (hlength : cards.length = maxCount)
    (h : ¬ ∃ triple pair, Split cards triple pair) (hgreat : ¬ Great cards) :
    getCardType cards = oxValue0 := by
  have hfind := Option.not_isSome_iff_eq_none.1 (mt (findOx_isSome_iff hlength).1 h)
  rw [Great, not_or, pictures] at hgreat
  rw [getCardType]
  simp only [if_neg hgreat.1, if_neg hgreat.2, hfind]

theorem getCardType_of_great (h : Great cards) :
    getCardType cards = if pictures cards = maxCount then oxFiveKing else oxFourKing := by
  rw [getCardType]
  obtain hfive | ⟨hfour, hten⟩ := h
  · rw [pictures] at hfive ⊢
    simp only [hfive, if_true]
  · rw [pictures] at hfour ⊢
    simp only [hfour, hten]
    rfl

theorem Great.perm (hperm : cards'.Perm cards) : Great cards' ↔ Great cards := by
  rw [Great, Great, pictures, pictures, hperm.countP_eq, hperm.countP_eq]

theorem Split.of_perm (hperm : cards'.Perm cards) (h : Split cards triple pair) :
    Split cards' triple pair := ⟨h.perm.trans hperm.symm, h.three, h.two, h.ten⟩

/-- **The type does not depend on the order of the cards.** -/
theorem getCardType_perm (hcards : IsHand cards) (hperm : cards'.Perm cards) :
    getCardType cards' = getCardType cards := by
  by_cases hgreat : Great cards
  · rw [getCardType_of_great hgreat, getCardType_of_great ((Great.perm hperm).2 hgreat), pictures,
      pictures, hperm.countP_eq]
  · have hgreat' := mt (Great.perm hperm).1 hgreat
    by_cases h : ∃ triple pair, Split cards triple pair
    · obtain ⟨triple, pair, hsplit⟩ := h
      rw [getCardType_of_split hcards hsplit hgreat,
        getCardType_of_split (hcards.perm hperm) (hsplit.of_perm hperm) hgreat']
    · have h' : ¬ ∃ triple pair, Split cards' triple pair :=
        fun ⟨triple, pair, hsplit⟩ => h ⟨triple, pair, hsplit.of_perm hperm.symm⟩
      rw [getCardType_of_no_split hcards.length h hgreat,
        getCardType_of_no_split (hcards.perm hperm).length h' hgreat']

/-! ## The comparison -/

/-- The greatest card of a hand, as `SortCardList` finds it. -/
def maxCard (cards : List UInt8) : UInt8 := (sortCardList cards).getD 0 0

theorem maxCard_mem (hcards : IsHand cards) : maxCard cards ∈ cards := by
  have hperm : (sortCardList cards).Perm cards := bubbleSort_perm _ _
  have hpos : 0 < (sortCardList cards).length := by
    rw [hperm.length_eq, hcards.length]
    decide
  rw [maxCard, List.getD_eq_getElem _ _ hpos]
  exact hperm.subset (List.getElem_mem hpos)

/-- No hand is four or three of a kind for `GetCardType`. -/
theorem getCardType_range (hcards : IsHand cards) :
    getCardType cards ≤ 10 ∨ getCardType cards = oxFourKing ∨ getCardType cards = oxFiveKing := by
  by_cases hgreat : Great cards
  · rw [getCardType_of_great hgreat]
    split_ifs
    · exact .inr (.inr rfl)
    · exact .inr (.inl rfl)
  · by_cases h : ∃ triple pair, Split cards triple pair
    · obtain ⟨triple, pair, hsplit⟩ := h
      rw [getCardType_of_split hcards hsplit hgreat, points_of_split hcards hsplit]
      omega
    · rw [getCardType_of_no_split hcards.length h hgreat]
      exact .inl (by decide)

/-- A card by value, then by colour. -/
def cardRank (card : UInt8) : ℕ := getCardValue card * 256 + getCardColor card

theorem cardRank_lt (card : UInt8) : getCardColor card < 256 ∧ cardRank card < 4096 := by
  have := card.toNat_lt
  rw [cardRank, getCardValue, getCardColor]
  omega

theorem cardRank_injective {card card' : UInt8} (h : cardRank card = cardRank card') :
    card = card' := by
  have := card.toNat_lt
  have := card'.toNat_lt
  rw [cardRank, cardRank, getCardValue, getCardColor, getCardValue, getCardColor] at h
  exact UInt8.toNat_inj.1 (by omega)

/-- The class of a hand: zero without an ox, and above every type with
one. -/
def handClass (cards : List UInt8) : ℕ :=
  if (getOxCard cards).1 = true then getCardType cards + 1 else 0

/-- What a hand is compared by: its class, then its greatest card. -/
def handScore (cards : List UInt8) : ℕ := handClass cards * 4096 + cardRank (maxCard cards)

/-- The first hand wins, by the true ox of both. -/
def Beats (first next : List UInt8) : Prop :=
  compareCard first next (getOxCard first).1 (getOxCard next).1 = true

instance (first next : List UInt8) : Decidable (Beats first next) :=
  inferInstanceAs (Decidable (_ = true))

theorem compareMax_iff (first next : List UInt8) : compareMax first next = true ↔
    cardRank (maxCard next) < cardRank (maxCard first) := by
  have hfirst := (cardRank_lt (maxCard first)).1
  have hnext := (cardRank_lt (maxCard next)).1
  rw [compareMax, cardRank, cardRank]
  simp only [← maxCard.eq_1]
  split_ifs <;> simp only [decide_eq_true_eq] <;> omega

/-- **The comparison goes by one number.** -/
theorem beats_iff (hb : IsHand b) : Beats a b ↔ handScore b < handScore a := by
  have hrank := (cardRank_lt (maxCard a)).2
  have hrank' := (cardRank_lt (maxCard b)).2
  have htype : ¬ (getCardType b = oxFourSame ∨ getCardType b = oxThreeSame) := by
    have := getCardType_range hb
    simp only [oxFourKing, oxFiveKing, oxFourSame, oxThreeSame] at this ⊢
    omega
  have hmax := compareMax_iff a b
  rw [Beats, compareCard, handScore, handScore, handClass, handClass]
  cases (getOxCard a).1 <;> cases (getOxCard b).1
  · simp only [ne_eq, not_true_eq_false, if_false, Bool.false_eq_true, hmax]
    omega
  · simp only [ne_eq, Bool.false_eq_true, not_false_eq_true, if_true, if_false, false_iff, not_lt]
    omega
  · simp only [ne_eq, Bool.true_eq_false, not_false_eq_true, if_true, Bool.false_eq_true, if_false,
      true_iff]
    omega
  · simp only [ne_eq, not_true_eq_false, if_false, if_true, if_neg htype]
    by_cases heq : getCardType a = getCardType b
    · rw [if_neg (not_not.2 heq), hmax, heq]
      omega
    · rw [if_pos heq, decide_eq_true_eq]
      omega

theorem handScore_ne (ha : IsHand a) (hb : IsHand b) (hab : a.Disjoint b) :
    handScore a ≠ handScore b := by
  intro heq
  have hrank := (cardRank_lt (maxCard a)).2
  have hrank' := (cardRank_lt (maxCard b)).2
  rw [handScore, handScore] at heq
  have hsame : maxCard a = maxCard b := cardRank_injective (by omega)
  exact hab (maxCard_mem ha) (hsame ▸ maxCard_mem hb)

/-- **The order of hands.** -/
theorem hand_order :
    (∀ cards, IsHand cards →
      (∀ cards', cards'.Perm cards → getCardType cards' = getCardType cards) ∧
      (∀ triple pair, Split cards triple pair → ¬ Great cards →
        getCardType cards = points pair) ∧
      (∀ triple pair triple' pair', Split cards triple pair → Split cards triple' pair' →
        points pair = points pair') ∧
      ((getOxCard cards).1 = true ↔ ∃ triple pair, Split cards triple pair) ∧
      (getOxCard cards).2.Perm cards) ∧
    ∀ a b c, IsHand a → IsHand b → IsHand c →
      ¬ Beats a a ∧ (Beats a b → ¬ Beats b a) ∧ (Beats a b → Beats b c → Beats a c) ∧
      (a.Disjoint b → Beats a b ∨ Beats b a) := by
  constructor
  · intro cards hcards
    refine ⟨fun cards' => getCardType_perm hcards, fun triple pair => getCardType_of_split hcards,
      fun triple pair triple' pair' h h' => ?_, getOxCard_iff hcards.length, getOxCard_perm cards⟩
    rw [points_of_split hcards h, points_of_split hcards h']
  · intro a b c ha hb hc
    rw [beats_iff ha, beats_iff hb, beats_iff ha, beats_iff hc, beats_iff hc]
    refine ⟨lt_irrefl _, fun h => h.asymm, fun h h' => h'.trans h, fun hab => ?_⟩
    exact (handScore_ne ha hb hab).lt_or_gt.symm

/-- Five pictures, an ox of eight and no ox, in this order. -/
theorem hand_order_three :
    (getOxCard [0x19, 0x0A, 0x09, 0x1A, 0x2A]).2.Perm [0x19, 0x0A, 0x09, 0x1A, 0x2A] ∧
      ([0x0B, 0x0C, 0x0D, 0x1B, 0x1C] : List UInt8).Disjoint [0x19, 0x0A, 0x09, 0x1A, 0x2A] ∧
      (Beats [0x0B, 0x0C, 0x0D, 0x1B, 0x1C] [0x19, 0x0A, 0x09, 0x1A, 0x2A] ∨
        Beats [0x19, 0x0A, 0x09, 0x1A, 0x2A] [0x0B, 0x0C, 0x0D, 0x1B, 0x1C]) ∧
      Beats [0x0B, 0x0C, 0x0D, 0x1B, 0x1C] [0x01, 0x02, 0x03, 0x05, 0x07] := by
  have hgreat : IsHand [0x0B, 0x0C, 0x0D, 0x1B, 0x1C] := ⟨rfl, by decide +kernel, by decide +kernel⟩
  have height : IsHand [0x19, 0x0A, 0x09, 0x1A, 0x2A] := ⟨rfl, by decide +kernel, by decide +kernel⟩
  have hnone : IsHand [0x01, 0x02, 0x03, 0x05, 0x07] := ⟨rfl, by decide +kernel, by decide +kernel⟩
  have hdisjoint : ([0x0B, 0x0C, 0x0D, 0x1B, 0x1C] : List UInt8).Disjoint
      [0x19, 0x0A, 0x09, 0x1A, 0x2A] := List.disjoint_left.2 (by decide +kernel)
  exact ⟨(hand_order.1 _ height).2.2.2.2, hdisjoint,
    (hand_order.2 _ _ _ hgreat height hnone).2.2.2 hdisjoint,
    (hand_order.2 _ _ _ hgreat height hnone).2.2.1 (by decide +kernel) (by decide +kernel)⟩

end GameServer.Ox
