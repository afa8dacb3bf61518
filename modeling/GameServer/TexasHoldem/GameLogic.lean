import GameServer.TexasHoldem.Model.GameLogic
import Mathlib.Data.List.Sort
import Mathlib.Data.List.Sublists
/-!
# Texas hold'em — hands in order

Five cards have a rank, their type and then the values the type is
decided by, and `CompareCard` compares ranks as words are compared
(`compareCard_eq_two_iff`, `compareCard_eq_zero_iff`). So it orders all
hands, and `SelectMaxUser` lists exactly the chairs with a best one, the
smallest bet first (`selectMaxUser_spec`), and no five of seven cards beat
those of `FiveFromSeven` (`fiveFromSeven_best`).
-/

namespace GameServer.TexasHoldem

variable {a b : List UInt8} {firsts nexts : List ℕ}
variable {center : List UInt8}

/-- What a hand of one type is compared by. -/
def rankKeys (cardData : List UInt8) : CardType → List ℕ
  | .single | .tongHua => cardData.map getCardLogicValue
  | .oneLong | .twoLong =>
      (analysebCardData cardData).longLogicValue ++ (analysebCardData cardData).signedLogicValue
  | .threeTiao =>
      (analysebCardData cardData).threeLogicValue.headD 0 ::
        (analysebCardData cardData).signedLogicValue
  | .huLu =>
      [(analysebCardData cardData).threeLogicValue.headD 0,
        (analysebCardData cardData).longLogicValue.headD 0]
  | .tieZhi =>
      [(analysebCardData cardData).fourLogicValue.headD 0,
        (analysebCardData cardData).signedLogicValue.headD 0]
  | .shunZi | .tongHuaShun =>
      [if getCardLogicValue (cardData.headD 0) = getCardLogicValue (cardData.getD 1 0) + 9
        then 0 else 1, getCardLogicValue (cardData.headD 0)]
  | .kingTongHuaShun => []

/-- The rank of a hand; greater is better. -/
def handRank (cardData : List UInt8) : List ℕ :=
  (getCardType cardData).toByte :: rankKeys cardData (getCardType cardData)

/-! ## Comparing values -/

/-- Two arrays that a walk over the first decides: as long as each other,
or different at once. -/
def Comparable (firsts nexts : List ℕ) : Prop :=
  firsts.length = nexts.length ∨ (firsts ≠ [] ∧ nexts ≠ [] ∧ firsts.headD 0 ≠ nexts.headD 0)

theorem compareValues_cons (x y : ℕ) :
    compareValues (x :: firsts) (y :: nexts) =
      if x > y then 2 else if x < y then 1 else compareValues firsts nexts := rfl

theorem compareValues_append {firsts' nexts' : List ℕ} : ∀ {firsts nexts : List ℕ},
    firsts.length = nexts.length →
      compareValues (firsts ++ firsts') (nexts ++ nexts') =
        if compareValues firsts nexts ≠ 0 then compareValues firsts nexts
        else compareValues firsts' nexts' := by
  intro firsts
  induction firsts with
  | nil =>
    intro nexts h
    rw [List.length_nil] at h
    rw [List.length_eq_zero_iff.1 h.symm]
    rfl
  | cons x firsts ih =>
    intro nexts h
    obtain ⟨y, nexts, rfl⟩ := List.exists_cons_of_length_eq_add_one h.symm
    rw [List.cons_append, List.cons_append, compareValues_cons, compareValues_cons,
      ih (Nat.succ.inj h)]
    split_ifs <;> simp_all

theorem compareValues_singleton (x y : ℕ) : compareValues [x] [y] = 0 ↔ x = y := by
  rw [compareValues_cons]
  rcases Nat.lt_trichotomy x y with h | rfl | h
  · rw [if_neg (by omega), if_pos h]
    exact ⟨nofun, by omega⟩
  · simp [compareValues]
  · rw [if_pos h]
    exact ⟨nofun, by omega⟩

theorem compareValues_head_tail (x y : ℕ) :
    (if x ≠ y then compareValues [x] [y] else compareValues firsts nexts) =
      compareValues (x :: firsts) (y :: nexts) := by
  have happend : compareValues ([x] ++ firsts) ([y] ++ nexts) = _ := compareValues_append rfl
  simp only [List.singleton_append, ne_eq, compareValues_singleton] at happend
  exact happend.symm

theorem compareValues_straight (firstMin nextMin : Bool) (firstValue nextValue : ℕ) :
    (if firstMin && !nextMin then 1 else if !firstMin && nextMin then 2
      else if firstValue = nextValue then 0 else if firstValue > nextValue then 2 else 1) =
      compareValues [if firstMin then 0 else 1, firstValue] [if nextMin then 0 else 1, nextValue] := by
  simp only [compareValues]
  cases firstMin <;> cases nextMin <;> simp <;> split_ifs <;> omega

/-- **Values are compared as words are.** -/
theorem compareValues_spec (h : Comparable firsts nexts) :
    (compareValues firsts nexts = 2 ↔ nexts < firsts) ∧
      (compareValues firsts nexts = 1 ↔ firsts < nexts) ∧
      (compareValues firsts nexts = 0 ↔ firsts = nexts) := by
  induction firsts generalizing nexts with
  | nil =>
    have hn : nexts = [] := by
      rcases h with h | h
      · exact List.length_eq_zero_iff.1 h.symm
      · exact absurd rfl h.1
    subst hn
    simp [compareValues]
  | cons x firsts ih =>
    have hn : nexts ≠ [] := by
      rcases h with h | h
      · rintro rfl
        simp at h
      · exact h.2.1
    obtain ⟨y, nexts, rfl⟩ := List.exists_cons_of_ne_nil hn
    rw [compareValues_cons, List.cons_lt_cons_iff, List.cons_lt_cons_iff]
    rcases Nat.lt_trichotomy x y with hxy | rfl | hxy
    · rw [if_neg (by omega), if_pos hxy]
      refine ⟨⟨nofun, ?_⟩, ⟨fun _ => .inl hxy, fun _ => rfl⟩, ⟨nofun, ?_⟩⟩
      · rintro (h | h) <;> omega
      · intro h
        injection h
        omega
    · have hlen : Comparable firsts nexts := by
        rcases h with h | h
        · exact .inl (Nat.succ.inj h)
        · exact absurd rfl h.2.2
      rw [if_neg (by omega), if_neg (by omega)]
      simpa using ih hlen
    · rw [if_pos hxy]
      refine ⟨⟨fun _ => .inl hxy, fun _ => rfl⟩, ⟨nofun, ?_⟩, ⟨nofun, ?_⟩⟩
      · rintro (h | h) <;> omega
      · intro h
        injection h
        omega

/-! ## The types -/

theorem length_runValues_cons (count : ℕ) (run : List ℕ) (runs : List (List ℕ)) :
    (runValues count (run :: runs)).length =
      (if run.length = count then 1 else 0) + (runValues count runs).length := by
  unfold runValues
  rw [List.filter_cons]
  split_ifs with h₁ h₂ h₂ <;> simp_all
  omega

theorem runValues_weight : ∀ {runs : List (List ℕ)}, [] ∉ runs → runs.flatten.length ≤ 4 →
    4 * (runValues 4 runs).length + 3 * (runValues 3 runs).length +
      2 * (runValues 2 runs).length + (runValues 1 runs).length = runs.flatten.length := by
  intro runs
  induction runs with
  | nil => intro _ _; rfl
  | cons run runs ih =>
    intro hnil hlen
    rw [List.flatten_cons, List.length_append] at hlen ⊢
    have hrun : run.length ≠ 0 := by
      intro h
      exact hnil (List.length_eq_zero_iff.1 h ▸ List.mem_cons_self)
    have := ih (fun h => hnil (List.mem_cons_of_mem _ h)) (by omega)
    simp only [length_runValues_cons]
    split_ifs <;> omega

/-- Five cards lie in runs of one to four, unless they are all of one
value. -/
theorem analysebCardData_counts (h : a.length = 5) :
    4 * (analysebCardData a).fourLogicValue.length + 3 * (analysebCardData a).threeLogicValue.length +
        2 * (analysebCardData a).longLogicValue.length +
        (analysebCardData a).signedLogicValue.length = 5 ∨
      ((analysebCardData a).fourLogicValue.length = 0 ∧
        (analysebCardData a).threeLogicValue.length = 0 ∧
        (analysebCardData a).longLogicValue.length = 0) := by
  have hlen : (sameRuns a).flatten.length = 5 := by
    rw [sameRuns, List.flatten_splitBy, List.length_map, h]
  have hnil : [] ∉ sameRuns a := List.nil_notMem_splitBy _ _
  cases hr : sameRuns a with
  | nil => simp [hr] at hlen
  | cons run runs =>
    rw [hr, List.flatten_cons, List.length_append] at hlen
    rw [hr] at hnil
    have hrun : run.length ≠ 0 := by
      intro h
      exact hnil (List.length_eq_zero_iff.1 h ▸ List.mem_cons_self)
    have := runValues_weight (fun h => hnil (List.mem_cons_of_mem _ h)) (by omega)
    simp only [analysebCardData, hr, length_runValues_cons]
    split_ifs <;> omega

def TypeCounts (r : AnalyseResult) : CardType → Prop
  | .tieZhi => r.fourLogicValue.length = 1
  | .huLu => r.fourLogicValue.length = 0 ∧ r.threeLogicValue.length = 1
  | .threeTiao => r.fourLogicValue.length = 0 ∧ r.threeLogicValue.length = 1 ∧
      r.signedLogicValue.length = 2
  | .twoLong => r.fourLogicValue.length = 0 ∧ r.threeLogicValue.length = 0 ∧
      r.longLogicValue.length = 2 ∧ r.signedLogicValue.length = 1
  | .oneLong => r.fourLogicValue.length = 0 ∧ r.threeLogicValue.length = 0 ∧
      r.longLogicValue.length = 1 ∧ r.signedLogicValue.length = 3
  | _ => True

theorem typeCounts_getCardType (h : a.length = 5) :
    TypeCounts (analysebCardData a) (getCardType a) := by
  have := analysebCardData_counts h
  dsimp only [getCardType]
  split_ifs <;> simp only [TypeCounts] <;> omega

theorem length_rankKeys {t : CardType} (ha : a.length = 5) (hb : b.length = 5)
    (hta : getCardType a = t) (htb : getCardType b = t) :
    (rankKeys a t).length = (rankKeys b t).length := by
  have hca := typeCounts_getCardType ha
  have hcb := typeCounts_getCardType hb
  rw [hta] at hca
  rw [htb] at hcb
  cases t <;> simp only [TypeCounts] at hca hcb <;>
    simp only [rankKeys, List.length_map, List.length_append, List.length_cons, List.length_nil,
      ha, hb] <;> omega

theorem CardType.toByte_inj {t t' : CardType} : t.toByte = t'.toByte ↔ t = t' := by
  cases t <;> cases t' <;> decide

section

variable (ha : a.length = 5) (hb : b.length = 5)
include ha hb

theorem comparable_handRank : Comparable (handRank a) (handRank b) := by
  by_cases h : getCardType a = getCardType b
  · refine .inl ?_
    simp only [handRank, List.length_cons]
    rw [← h, length_rankKeys ha hb rfl h.symm]
  · exact .inr ⟨nofun, nofun, fun h' => h (CardType.toByte_inj.1 h')⟩

theorem compareCard_of_type {t : CardType} (hta : getCardType a = t) (htb : getCardType b = t) :
    compareCard a b = compareValues (rankKeys a t) (rankKeys b t) := by
  have hca := typeCounts_getCardType ha
  have hcb := typeCounts_getCardType hb
  rw [hta] at hca
  rw [htb] at hcb
  rw [compareCard]
  simp only [hta, htb, gt_iff_lt, Nat.lt_irrefl, if_false]
  cases t with
  | single => rfl
  | tongHua => rfl
  | kingTongHuaShun => rfl
  | tieZhi =>
    simp only [TypeCounts] at hca
    rw [if_pos (by omega)]
    rfl
  | huLu =>
    simp only [TypeCounts] at hca
    simp only [if_true]
    rw [if_neg (by omega), if_pos (by omega)]
    exact compareValues_head_tail _ _
  | threeTiao =>
    simp only [TypeCounts] at hca
    simp only [reduceCtorEq, if_false]
    rw [if_neg (by omega), if_pos (by omega)]
    exact compareValues_head_tail _ _
  | twoLong =>
    simp only [TypeCounts] at hca hcb
    rw [if_neg (by omega), if_neg (by omega)]
    exact (compareValues_append (by omega)).symm
  | oneLong =>
    simp only [TypeCounts] at hca hcb
    rw [if_neg (by omega), if_neg (by omega)]
    exact (compareValues_append (by omega)).symm
  | shunZi =>
    rw [compareValues_straight]
    simp only [rankKeys, beq_iff_eq]
  | tongHuaShun =>
    rw [compareValues_straight]
    simp only [rankKeys, beq_iff_eq]

theorem compareCard_eq : compareCard a b = compareValues (handRank a) (handRank b) := by
  rw [handRank, handRank, compareValues_cons]
  by_cases h : getCardType a = getCardType b
  · rw [h, if_neg (by omega), if_neg (by omega)]
    exact compareCard_of_type ha hb h rfl
  · have hne : (getCardType a).toByte ≠ (getCardType b).toByte :=
      fun h' => h (CardType.toByte_inj.1 h')
    rw [compareCard]
    rcases Nat.lt_or_gt_of_ne hne with h | h
    · simp only [if_neg (show ¬ (getCardType a).toByte > (getCardType b).toByte by omega), if_pos h]
    · simp only [if_pos h]

/-- **`CompareCard` orders the hands.** -/
theorem compareCard_eq_two_iff : compareCard a b = 2 ↔ handRank b < handRank a := by
  rw [compareCard_eq ha hb]
  exact (compareValues_spec (comparable_handRank ha hb)).1

theorem compareCard_eq_zero_iff : compareCard a b = 0 ↔ handRank a = handRank b := by
  rw [compareCard_eq ha hb]
  exact (compareValues_spec (comparable_handRank ha hb)).2.2

end

theorem compareValues_le_two : ∀ (firsts nexts : List ℕ), compareValues firsts nexts ≤ 2
  | [], _ => by
    rw [compareValues]
    omega
  | first :: firsts, nexts => by
    rw [compareValues]
    split_ifs
    · exact Nat.le_refl 2
    · omega
    · exact compareValues_le_two firsts nexts.tail

/-! ## The best hands -/

variable {cardData : Chair → List UInt8} {handData : Chair → UInt8 × UInt8} {addScore : Chair → ℤ}
variable {l : List Chair}

def HasCards (cardData : Chair → List UInt8) (i : Chair) : Prop := (cardData i).headD 0 ≠ 0

instance (cardData : Chair → List UInt8) : DecidablePred (HasCards cardData) := fun i =>
  inferInstanceAs (Decidable ((cardData i).headD 0 ≠ 0))

/-- A chair with cards that no other one beats. -/
def BestHand (cardData : Chair → List UInt8) (i : Chair) : Prop :=
  HasCards cardData i ∧ ∀ j, HasCards cardData j → handRank (cardData j) ≤ handRank (cardData i)

variable (handData) in
theorem betterUser_spec (hcards : ∀ i, HasCards cardData i → (cardData i).length = 5)
    {winner : Chair} (hw : HasCards cardData winner) (j : Chair) :
    HasCards cardData (betterUser cardData handData winner j) ∧
      handRank (cardData winner) ≤ handRank (cardData (betterUser cardData handData winner j)) ∧
      (HasCards cardData j →
        handRank (cardData j) ≤ handRank (cardData (betterUser cardData handData winner j))) := by
  unfold betterUser
  by_cases hj : (cardData j).headD 0 = 0
  · rw [if_pos hj]
    exact ⟨hw, le_rfl, fun h => absurd hj h⟩
  rw [if_neg hj]
  have htwo := compareCard_eq_two_iff (hcards j hj) (hcards winner hw)
  have hzero := compareCard_eq_zero_iff (hcards j hj) (hcards winner hw)
  have hle := compareValues_le_two (handRank (cardData j)) (handRank (cardData winner))
  rw [← compareCard_eq (hcards j hj) (hcards winner hw)] at hle
  by_cases h : compareCard (cardData j) (cardData winner) > 1
  · rw [if_pos h]
    exact ⟨hj, (htwo.1 (by omega)).le, fun _ => le_rfl⟩
  rw [if_neg h]
  have hle : handRank (cardData j) ≤ handRank (cardData winner) :=
    not_lt.1 fun hlt => h (by rw [htwo.2 hlt]; decide)
  by_cases h₀ : compareCard (cardData j) (cardData winner) ≤ 0
  · have heq := hzero.1 (by omega)
    rw [if_pos h₀]
    split_ifs
    · exact ⟨hj, heq.ge, fun _ => le_rfl⟩
    · exact ⟨hw, le_rfl, fun _ => hle⟩
  · rw [if_neg h₀]
    exact ⟨hw, le_rfl, fun _ => hle⟩

variable (handData) in
/-- The winner has cards and is not beaten by any chair looked at. -/
theorem foldl_betterUser (hcards : ∀ i, HasCards cardData i → (cardData i).length = 5) :
    ∀ (turn : List Chair) {winner : Chair}, HasCards cardData winner →
      HasCards cardData (turn.foldl (betterUser cardData handData) winner) ∧
      handRank (cardData winner) ≤
        handRank (cardData (turn.foldl (betterUser cardData handData) winner)) ∧
      ∀ j ∈ turn, HasCards cardData j →
        handRank (cardData j) ≤
          handRank (cardData (turn.foldl (betterUser cardData handData) winner)) := by
  intro turn
  induction turn with
  | nil =>
    intro winner hw
    exact ⟨hw, le_rfl, nofun⟩
  | cons i turn ih =>
    intro winner hw
    obtain ⟨hnext, hle, hi⟩ := betterUser_spec handData hcards hw i
    obtain ⟨hlast, hle', hrest⟩ := ih hnext
    refine ⟨hlast, hle.trans hle', fun j hj hcard => ?_⟩
    rcases List.mem_cons.1 hj with rfl | hj
    · exact (hi hcard).trans hle'
    · exact hrest j hj hcard

theorem mem_turn (first i : Chair) : i = first ∨
    i ∈ ((List.range gamePlayer).drop 1).map fun k => Fin.ofNat gamePlayer (k + first) := by
  revert first i
  decide

theorem selectWinner_best (hcards : ∀ i, HasCards cardData i → (cardData i).length = 5)
    {first : Chair} (hfirst : HasCards cardData first) :
    BestHand cardData (selectWinner cardData handData first) := by
  obtain ⟨hw, hle, hturn⟩ := foldl_betterUser handData hcards
    (((List.range gamePlayer).drop 1).map fun k => Fin.ofNat gamePlayer (k + first)) hfirst
  refine ⟨hw, fun j hj => ?_⟩
  rcases mem_turn first j with rfl | hmem
  · exact hle
  · exact hturn j hmem hj

/-- **`SelectMaxUser` lists the chairs with a best hand**, each once, the
smallest bet first. -/
theorem selectMaxUser_spec (hcards : ∀ i, HasCards cardData i → (cardData i).length = 5)
    (h : selectMaxUser cardData handData addScore = some l) :
    l ≠ [] ∧ l.Nodup ∧ (∀ i, i ∈ l ↔ BestHand cardData i) ∧
      l.Pairwise fun i j => addScore i ≤ addScore j := by
  obtain ⟨first, hfirst, rfl⟩ := Option.map_eq_some_iff.1 h
  have hbest : BestHand cardData (selectWinner cardData handData first) :=
    selectWinner_best hcards (by simpa [HasCards] using List.find?_some hfirst)
  generalize selectWinner cardData handData first = winner at *
  have hperm := exchangeSort_perm (fun i j => decide (addScore j < addScore i))
    (winner :: chairs.filter fun i => i ≠ winner ∧ (cardData i).headD 0 ≠ 0 ∧
      compareCard (cardData i) (cardData winner) = 0)
  refine ⟨fun hnil => ?_, hperm.nodup_iff.2 ?_, fun i => hperm.mem_iff.trans ?_, ?_⟩
  · rw [hnil] at hperm
    exact absurd hperm.symm.eq_nil (List.cons_ne_nil _ _)
  · refine List.nodup_cons.2 ⟨by simp, (List.nodup_finRange _).filter _⟩
  · simp only [chairs, List.mem_cons, List.mem_filter, List.mem_finRange, true_and,
      decide_eq_true_eq]
    constructor
    · rintro (rfl | ⟨-, hi, heq⟩)
      · exact hbest
      · rw [compareCard_eq_zero_iff (hcards i hi) (hcards winner hbest.1)] at heq
        exact ⟨hi, fun j hj => heq ▸ hbest.2 j hj⟩
    · intro hi
      by_cases hiw : i = winner
      · exact .inl hiw
      · refine .inr ⟨hiw, hi.1, ?_⟩
        rw [compareCard_eq_zero_iff (hcards i hi.1) (hcards winner hbest.1)]
        exact le_antisymm (hbest.2 i hi.1) (hi.2 winner hbest.1)
  · have : IsTrans Chair fun i j => addScore i ≤ addScore j := ⟨fun _ _ _ => le_trans⟩
    refine sorted_exchangeSort ?_ ?_ _
    · intro i j hij
      exact (of_decide_eq_true hij).le
    · intro i j hij
      exact not_lt.1 (of_decide_eq_false hij)

theorem selectMaxUser_eq_none :
    selectMaxUser cardData handData addScore = none ↔ ∀ i, ¬ HasCards cardData i := by
  simp [selectMaxUser, chairs, HasCards, List.find?_eq_none]

theorem center_length_king : ([0x0D, 0x1B, 0x29, 0x08, 0x02] : List UInt8).length = maxCenterCount :=
  rfl

theorem center_ne_king : ∀ c ∈ ([0x0D, 0x1B, 0x29, 0x08, 0x02] : List UInt8), c ≠ 0 := by simp

/-! ## Five of seven -/

theorem mem_fiveOfSeven {places : List ℕ} (h : places ∈ fiveOfSeven) :
    places.length = 5 ∧ ∀ i ∈ places, i < 7 := by
  revert places
  decide

def cardOrder (card : UInt8) : ℕ := getCardLogicValue card * 256 + card.toNat

theorem cardOrder_injective : Function.Injective cardOrder := by
  intro x y h
  have hx := x.toNat_lt
  have hy := y.toNat_lt
  rw [cardOrder, cardOrder] at h
  exact UInt8.toNat_inj.1 (by omega)

theorem pairwise_sortCardList (cards : List UInt8) :
    (sortCardList cards).Pairwise fun x y => cardOrder y ≤ cardOrder x := by
  have htrans : IsTrans UInt8 fun x y => cardOrder y ≤ cardOrder x :=
    ⟨fun _ _ _ hab hbc => hbc.trans hab⟩
  refine sorted_bubbleSort (fun x y h => ?_) (fun x y h => ?_) cards
  · have hx := x.toNat_lt
    have hy := y.toNat_lt
    simp only [decide_eq_true_eq, UInt8.lt_iff_toNat_lt] at h
    rw [cardOrder, cardOrder]
    omega
  · have hx := x.toNat_lt
    have hy := y.toNat_lt
    simp only [decide_eq_false_iff_not, UInt8.lt_iff_toNat_lt] at h
    rw [cardOrder, cardOrder]
    omega

theorem better_spec {last five : List UInt8} (hlast : last.length = 5) (hfive : five.length = 5) :
    (if compareCard five last = 2 then five else last).length = 5 ∧
      handRank last ≤ handRank (if compareCard five last = 2 then five else last) ∧
      handRank five ≤ handRank (if compareCard five last = 2 then five else last) := by
  have htwo := compareCard_eq_two_iff hfive hlast
  split_ifs with h
  · exact ⟨hfive, (htwo.1 h).le, le_rfl⟩
  · exact ⟨hlast, le_rfl, not_lt.1 fun hlt => h (htwo.2 hlt)⟩

/-- What the loop ends with is no worse than any candidate. -/
theorem foldl_better {α : Type} (five : α → List UInt8) :
    ∀ (turn : List α) (last : List UInt8), last.length = 5 →
      (∀ x ∈ turn, (five x).length = 5) → ∃ best, turn.foldl (fun last x =>
        if compareCard (five x) last = 2 then five x else last) last = best ∧ best.length = 5 ∧
        (best = last ∨ ∃ x ∈ turn, best = five x) ∧ handRank last ≤ handRank best ∧
        ∀ x ∈ turn, handRank (five x) ≤ handRank best := by
  intro turn
  induction turn with
  | nil =>
    intro last hlast _
    exact ⟨last, rfl, hlast, .inl rfl, le_rfl, nofun⟩
  | cons y turn ih =>
    intro last hlast hlen
    obtain ⟨hnext, hle, hy⟩ := better_spec hlast (hlen y List.mem_cons_self)
    obtain ⟨best, hbest, hlength, hfrom, hle', hrest⟩ :=
      ih _ hnext fun x hx => hlen x (List.mem_cons_of_mem _ hx)
    refine ⟨best, hbest, hlength, ?_, hle.trans hle', fun x hx => ?_⟩
    · obtain rfl | ⟨x, hx, rfl⟩ := hfrom
      · split_ifs
        · exact .inr ⟨y, List.mem_cons_self, rfl⟩
        · exact .inl rfl
      · exact .inr ⟨x, List.mem_cons_of_mem _ hx, rfl⟩
    · obtain rfl | hx := List.mem_cons.1 hx
      · exact hy.trans hle'
      · exact hrest x hx

theorem fiveOfSeven_eq : ∀ places, places ∈ fiveOfSeven ↔
    places ∈ List.sublistsLen 5 (List.range 7) := by
  have hperm : fiveOfSeven.Perm (List.sublistsLen 5 (List.range 7)) := by decide
  exact fun places => hperm.mem_iff

/-- The candidates of the loops are the fives of the sorted seven. -/
theorem sublist_iff_places {seven five : List UInt8} (hseven : seven.length = 7) :
    five.Sublist seven ∧ five.length = 5 ↔
      ∃ places ∈ fiveOfSeven, five = places.map (seven.getD · 0) := by
  have hmap : (List.range 7).map (seven.getD · 0) = seven := by
    refine List.ext_getElem (by simp [hseven]) fun i h₁ h₂ => ?_
    simp [List.getD_eq_getElem?_getD, List.getElem?_eq_getElem h₂]
  rw [← List.mem_sublistsLen]
  conv_lhs => rw [← hmap]
  simp only [fiveOfSeven_eq, List.mem_sublistsLen, List.sublist_map_iff]
  constructor
  · rintro ⟨⟨places, hsub, rfl⟩, hlen⟩
    rw [List.length_map] at hlen
    exact ⟨places, ⟨hsub, hlen⟩, rfl⟩
  · rintro ⟨places, ⟨hsub, hlen⟩, rfl⟩
    exact ⟨⟨places, hsub, rfl⟩, by rw [List.length_map, hlen]⟩

/-- The loops end with five of the sorted seven that no candidate beats. -/
theorem fiveFromSeven_eq (hand : UInt8 × UInt8) (hlen : center.length = maxCenterCount) :
    (sortCardList ([hand.1, hand.2] ++ center)).length = 7 ∧
      (fiveFromSeven hand center).length = 5 ∧
      (fiveFromSeven hand center).Sublist (sortCardList ([hand.1, hand.2] ++ center)) ∧
      ∀ five : List UInt8, five.Sublist (sortCardList ([hand.1, hand.2] ++ center)) →
        five.length = 5 → handRank five ≤ handRank (fiveFromSeven hand center) := by
  have hseven : (sortCardList ([hand.1, hand.2] ++ center)).length = 7 := by
    rw [sortCardList, (bubbleSort_perm _ _).length_eq, List.length_append, hlen]
    rfl
  refine ⟨hseven, ?_⟩
  rw [fiveFromSeven]
  generalize sortCardList ([hand.1, hand.2] ++ center) = seven at *
  obtain ⟨best, hbest, hlength, hfrom, -, hmax⟩ := foldl_better (fun places : List ℕ =>
    places.map (seven.getD · 0)) fiveOfSeven (seven.take maxCenterCount)
    (by rw [List.length_take, hseven]; rfl) fun places hplaces => by
      rw [List.length_map, (mem_fiveOfSeven hplaces).1]
  simp only
  rw [hbest]
  refine ⟨hlength, ?_, fun five hsub hfive => ?_⟩
  · obtain rfl | ⟨places, hplaces, rfl⟩ := hfrom
    · exact List.take_sublist _ _
    · exact ((sublist_iff_places hseven).2 ⟨places, hplaces, rfl⟩).1
  · obtain ⟨places, hplaces, rfl⟩ := (sublist_iff_places hseven).1 ⟨hsub, hfive⟩
    exact hmax places hplaces

theorem fiveFromSeven_spec {hand : UInt8 × UInt8} (hlen : center.length = 5)
    (hhand : hand.1 ≠ 0 ∧ hand.2 ≠ 0) (hcenter : ∀ c ∈ center, c ≠ 0) :
    (fiveFromSeven hand center).length = 5 ∧ ∀ c ∈ fiveFromSeven hand center, c ≠ 0 := by
  obtain ⟨-, hlength, hsub, -⟩ := fiveFromSeven_eq hand hlen
  refine ⟨hlength, fun c hc => ?_⟩
  have hmem : c ∈ [hand.1, hand.2] ++ center := (bubbleSort_perm _ _).subset (hsub.subset hc)
  simp only [List.cons_append, List.nil_append, List.mem_cons] at hmem
  rcases hmem with rfl | rfl | hc
  · exact hhand.1
  · exact hhand.2
  · exact hcenter c hc

/-- **No five of the seven beat those of `FiveFromSeven`.** -/
theorem fiveFromSeven_best (hand : UInt8 × UInt8) (hlen : center.length = maxCenterCount) :
    (fiveFromSeven hand center).Subperm (hand.1 :: hand.2 :: center) ∧
      (fiveFromSeven hand center).length = 5 ∧
      ∀ five : List UInt8, five.Subperm (hand.1 :: hand.2 :: center) → five.length = 5 →
        compareCard (sortCardList five) (fiveFromSeven hand center) ≠ 2 := by
  obtain ⟨-, hlength, hsub, hmax⟩ := fiveFromSeven_eq hand hlen
  have hperm : (sortCardList ([hand.1, hand.2] ++ center)).Perm (hand.1 :: hand.2 :: center) :=
    bubbleSort_perm _ _
  refine ⟨hsub.subperm.trans hperm.subperm, hlength, fun five hfive hcount htwo => ?_⟩
  -- five cards of the seven lie in the sorted seven in order
  have hfive' : (sortCardList five).Perm five := bubbleSort_perm _ _
  have hanti : Std.Antisymm fun x y => cardOrder y ≤ cardOrder x :=
    ⟨fun x y hxy hyx => cardOrder_injective (le_antisymm hyx hxy)⟩
  have hsub' : (sortCardList five).Sublist (sortCardList ([hand.1, hand.2] ++ center)) :=
    List.sublist_of_subperm_of_pairwise ((hfive'.subperm.trans hfive).trans hperm.symm.subperm)
      (pairwise_sortCardList five) (pairwise_sortCardList _)
  have hlength' : (sortCardList five).length = 5 := by rw [hfive'.length_eq, hcount]
  rw [compareCard_eq_two_iff hlength' hlength] at htwo
  exact not_lt.2 (hmax _ hsub' hlength') htwo

/-- The board plays: nothing in hand is better than its straight. -/
theorem fiveFromSeven_best_board :
    fiveFromSeven (0x02, 0x13) [0x0D, 0x1C, 0x2B, 0x0A, 0x19] = [0x0D, 0x1C, 0x2B, 0x0A, 0x19] ∧
      ∀ five : List UInt8, five.Subperm [0x02, 0x13, 0x0D, 0x1C, 0x2B, 0x0A, 0x19] →
        five.length = 5 → compareCard (sortCardList five) [0x0D, 0x1C, 0x2B, 0x0A, 0x19] ≠ 2 := by
  have hboard : fiveFromSeven (0x02, 0x13) [0x0D, 0x1C, 0x2B, 0x0A, 0x19] =
      [0x0D, 0x1C, 0x2B, 0x0A, 0x19] := by decide +kernel
  refine ⟨hboard, fun five hfive hlen => ?_⟩
  have hbest := (fiveFromSeven_best (0x02, 0x13) rfl).2.2 five hfive hlen
  rwa [hboard] at hbest

end GameServer.TexasHoldem
