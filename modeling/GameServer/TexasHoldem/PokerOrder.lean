import GameServer.TexasHoldem.GameLogic
import Mathlib.Data.List.Dedup
/-!
# Texas hold'em — the order of poker hands

Five cards of a deck have the usual key: their class, then their values,
those that occur most often first; of a straight only its highest value
counts, which is five with an ace below a two. `CompareCard` is the
comparison of keys (`compareCard_is_poker_order`).
-/

namespace GameServer.TexasHoldem

variable {a b c : List UInt8}

/-- Five different cards of a deck, in the order of `SortCardList`. -/
structure Five (cards : List UInt8) : Prop where
  deck : cards ⊆ cardData
  nodup : cards.Nodup
  length : cards.length = 5
  sorted : sortCardList cards = cards

/-! ## The key -/

/-- The values that occur `count` times, greatest first. -/
def valuesOf (count : ℕ) (values : List ℕ) : List ℕ := values.dedup.filter (values.count · = count)

/-- The highest value of a straight. -/
def straightHigh (values : List ℕ) : Option ℕ :=
  if values = [14, 5, 4, 3, 2] then some 5
  else if values = (List.range 5).map (values.headD 0 - ·) then some (values.headD 0) else none

/-- The class of five values that are no straight: one pair is 2, four of a
kind 8. -/
def pokerClass (flush : Bool) (values : List ℕ) : ℕ :=
  if (valuesOf 4 values).length = 1 then 8
  else if (valuesOf 3 values).length = 1 ∧ (valuesOf 2 values).length = 1 then 7
  else if flush then 6
  else if (valuesOf 3 values).length = 1 then 4
  else if (valuesOf 2 values).length = 2 then 3
  else if (valuesOf 2 values).length = 1 then 2
  else 1

def flush (cards : List UInt8) : Bool :=
  (cards.drop 1).all fun c => getCardColor c == getCardColor (cards.headD 0)

/-- The key of five cards. -/
def pokerKey (cards : List UInt8) : List ℕ :=
  let values := cards.map getCardLogicValue
  match straightHigh values with
  | some high => [if flush cards then 9 else 5, high]
  | none => pokerClass (flush cards) values ::
      (valuesOf 4 values ++ valuesOf 3 values ++ valuesOf 2 values ++ valuesOf 1 values)

/-! ## Five cards -/

theorem mem_valuesOf {count v : ℕ} {values : List ℕ} :
    v ∈ valuesOf count values ↔ v ∈ values ∧ values.count v = count := by
  rw [valuesOf, List.mem_filter, List.mem_dedup, decide_eq_true_eq]

theorem runValues_eq {v₁ v₂ v₃ v₄ v₅ : ℕ} (h₁ : v₂ ≤ v₁) (h₂ : v₃ ≤ v₂) (h₃ : v₄ ≤ v₃)
    (h₄ : v₅ ≤ v₄) (count : ℕ) :
    runValues count ([v₁, v₂, v₃, v₄, v₅].splitBy (· == ·)) =
      valuesOf count [v₁, v₂, v₃, v₄, v₅] := by
  have hbeq : ∀ {x y : ℕ}, y < x → (x == y) = false := fun h => beq_false_of_ne (Nat.ne_of_gt h)
  have hne : ∀ {x y : ℕ}, y < x → (x = y) = False := fun h => eq_false (Nat.ne_of_gt h)
  have hne' : ∀ {x y : ℕ}, x < y → (x = y) = False := fun h => eq_false (Nat.ne_of_lt h)
  -- neighbours are equal or not: sixteen shapes
  rcases Nat.eq_or_lt_of_le h₁ with rfl | h₁ <;> rcases Nat.eq_or_lt_of_le h₂ with rfl | h₂ <;>
    rcases Nat.eq_or_lt_of_le h₃ with rfl | h₃ <;> rcases Nat.eq_or_lt_of_le h₄ with rfl | h₄ <;>
    simp (disch := omega) [runValues, valuesOf, List.splitBy, List.splitBy.loop,
      List.dedup_cons, List.count_cons, List.filter_cons, hbeq, hne, hne'] <;>
    split_ifs <;> rfl

theorem cardData_card : ∀ c ∈ cardData, 2 ≤ getCardLogicValue c ∧ getCardLogicValue c ≤ 14 := by
  decide +kernel

theorem card_ext : ∀ c ∈ cardData, ∀ d ∈ cardData, getCardLogicValue c = getCardLogicValue d →
    getCardColor c = getCardColor d → c = d := by decide +kernel

theorem value_le_of_cardOrder {x y : UInt8} (h : cardOrder y ≤ cardOrder x) :
    getCardLogicValue y ≤ getCardLogicValue x := by
  have hx := x.toNat_lt
  rw [cardOrder, cardOrder] at h
  omega

theorem Five.cards (h : Five a) : ∃ c₁ c₂ c₃ c₄ c₅, a = [c₁, c₂, c₃, c₄, c₅] ∧
    getCardLogicValue c₂ ≤ getCardLogicValue c₁ ∧ getCardLogicValue c₃ ≤ getCardLogicValue c₂ ∧
    getCardLogicValue c₄ ≤ getCardLogicValue c₃ ∧ getCardLogicValue c₅ ≤ getCardLogicValue c₄ ∧
    2 ≤ getCardLogicValue c₅ ∧ getCardLogicValue c₁ ≤ 14 := by
  obtain ⟨c₁, rest, rfl⟩ := List.exists_cons_of_length_eq_add_one h.length
  obtain ⟨c₂, c₃, c₄, c₅, rfl⟩ := List.length_eq_four.1 (Nat.succ.inj h.length)
  have hpair := pairwise_sortCardList [c₁, c₂, c₃, c₄, c₅]
  rw [h.sorted] at hpair
  have hmono := hpair.imp value_le_of_cardOrder
  have hrange := fun c hc => cardData_card c (h.deck hc)
  simp only [List.pairwise_cons, List.mem_cons, List.not_mem_nil, or_false, forall_eq_or_imp,
    forall_eq] at hmono hrange
  exact ⟨c₁, c₂, c₃, c₄, c₅, rfl, hmono.1.1, hmono.2.1.1, hmono.2.2.1.1, hmono.2.2.2.1,
    hrange.2.2.2.2.1, hrange.1.2⟩

theorem Five.runValues (h : Five a) (count : ℕ) :
    runValues count (sameRuns a) = valuesOf count (a.map getCardLogicValue) := by
  obtain ⟨c₁, c₂, c₃, c₄, c₅, rfl, h₁, h₂, h₃, h₄, -⟩ := h.cards
  exact runValues_eq h₁ h₂ h₃ h₄ count

theorem Five.nodup_of_flush (h : Five a) (hflush : flush a = true) :
    (a.map getCardLogicValue).Nodup := by
  have hcolor : ∀ c ∈ a, getCardColor c = getCardColor (a.headD 0) := by
    intro c hc
    cases a with
    | nil => cases hc
    | cons d rest =>
      obtain rfl | hc := List.mem_cons.1 hc
      · rfl
      · simpa using List.all_eq_true.1 hflush c hc
  refine h.nodup.map_on fun c hc d hd hvalue => ?_
  exact card_ext c (h.deck hc) d (h.deck hd) hvalue ((hcolor c hc).trans (hcolor d hd).symm)

theorem valuesOf_of_nodup {values : List ℕ} (h : values.Nodup) (count : ℕ) :
    valuesOf count values = if count = 1 then values else [] := by
  rw [valuesOf, h.dedup]
  split_ifs with hcount
  · rw [List.filter_eq_self]
    intro v hv
    simp [List.count_eq_one_of_mem h hv, hcount]
  · rw [List.filter_eq_nil_iff]
    intro v hv
    simp [List.count_eq_one_of_mem h hv, Ne.symm hcount]

/-! ## Straights -/

def lineCard (cards : List UInt8) : Bool :=
  lineCards 0 cards || (getCardLogicValue (cards.headD 0) == 14 && lineCards 8 cards)

theorem getCardType_of_line (h : lineCard a = true) : getCardType a =
    if flush a then
      if getCardLogicValue (a.getD 1 0) = 13 then .kingTongHuaShun else .tongHuaShun
    else .shunZi := by
  rw [lineCard] at h
  rw [getCardType, flush]
  simp only [h]
  cases (a.drop 1).all fun c => getCardColor c == getCardColor (a.headD 0) <;> simp

def straightKey (flush : Bool) (high : ℕ) : List ℕ := [if flush then 9 else 5, high]

def straightRank (flush : Bool) (high : ℕ) : List ℕ :=
  if flush ∧ high = 14 then [10]
  else [if flush then 9 else 5, if high = 5 then 0 else 1, if high = 5 then 14 else high]

theorem straightRank_lt {f f' : Bool} {v w : ℕ} (hv : 5 ≤ v) (hv' : v < 15) (hw : 5 ≤ w)
    (hw' : w < 15) : straightRank f v < straightRank f' w ↔ straightKey f v < straightKey f' w := by
  have hall : ∀ (f f' : Bool) (v w : Fin 10), straightRank f (v + 5) < straightRank f' (w + 5) ↔
      straightKey f (v + 5) < straightKey f' (w + 5) := by
    decide +kernel
  obtain ⟨v, rfl⟩ := Nat.exists_eq_add_of_le' hv
  obtain ⟨w, rfl⟩ := Nat.exists_eq_add_of_le' hw
  exact hall f f' ⟨v, by omega⟩ ⟨w, by omega⟩

/-- What is a straight to `GetCardType` is one. -/
theorem Five.straight (h : Five a) :
    (∃ high, straightHigh (a.map getCardLogicValue) = some high ∧ 5 ≤ high ∧ high < 15 ∧
        handRank a = straightRank (flush a) high) ∨
      straightHigh (a.map getCardLogicValue) = none ∧ lineCard a = false := by
  obtain ⟨c₁, c₂, c₃, c₄, c₅, ha, -, -, -, -, hmin, hmax⟩ := h.cards
  have hhead : getCardLogicValue (a.headD 0) = getCardLogicValue c₁ := by rw [ha]; rfl
  have hsecond : getCardLogicValue (a.getD 1 0) = getCardLogicValue c₂ := by rw [ha]; rfl
  have hvalues : a.map getCardLogicValue = [getCardLogicValue c₁, getCardLogicValue c₂,
    getCardLogicValue c₃, getCardLogicValue c₄, getCardLogicValue c₅] := by rw [ha]; rfl
  have hline : ∀ gap, lineCards gap a = true ↔
      getCardLogicValue c₁ = getCardLogicValue c₂ + 1 + gap ∧
      getCardLogicValue c₁ = getCardLogicValue c₃ + 2 + gap ∧
      getCardLogicValue c₁ = getCardLogicValue c₄ + 3 + gap ∧
      getCardLogicValue c₁ = getCardLogicValue c₅ + 4 + gap := by
    intro gap
    rw [ha]
    simp [lineCards]
  generalize getCardLogicValue c₁ = v₁, getCardLogicValue c₂ = v₂, getCardLogicValue c₃ = v₃,
    getCardLogicValue c₄ = v₄, getCardLogicValue c₅ = v₅ at *
  have hrank : lineCard a = true → handRank a = if flush a ∧ v₂ = 13 then [10]
      else [if flush a then 9 else 5, if v₁ = v₂ + 9 then 0 else 1, v₁] := by
    intro htrue
    rw [handRank, getCardType_of_line htrue, hsecond]
    cases flush a <;> by_cases hking : v₂ = 13 <;>
      simp only [hking, rankKeys, CardType.toByte, hhead, hsecond, Bool.false_eq_true, if_true,
        if_false, and_self, and_false, false_and]
  rw [hvalues]
  by_cases hlow : lineCards 8 a = true ∧ v₁ = 14
  · -- the ace is below the two
    obtain ⟨h₂, h₃, h₄, h₅⟩ := (hline 8).1 hlow.1
    have htrue : lineCard a = true := by
      rw [lineCard, hhead, hlow.1, hlow.2, beq_self_eq_true, Bool.true_and, Bool.or_true]
    refine .inl ⟨5, ?_, by omega, by omega, ?_⟩
    · obtain rfl : v₁ = 14 := hlow.2
      obtain ⟨rfl, rfl, rfl, rfl⟩ : v₂ = 5 ∧ v₃ = 4 ∧ v₄ = 3 ∧ v₅ = 2 := by omega
      rfl
    · rw [hrank htrue, straightRank, if_neg (show ¬(flush a = true ∧ v₂ = 13) by omega),
        if_neg (show ¬(flush a = true ∧ 5 = 14) by omega), if_pos (show v₁ = v₂ + 9 by omega),
        hlow.2]
      rfl
  · by_cases hhigh : lineCards 0 a = true
    · obtain ⟨h₂, h₃, h₄, h₅⟩ := (hline 0).1 hhigh
      have htrue : lineCard a = true := by rw [lineCard, hhigh, Bool.true_or]
      refine .inl ⟨v₁, ?_, by omega, by omega, ?_⟩
      · rw [straightHigh, if_neg, if_pos]
        · rfl
        · have hlist : [v₁, v₂, v₃, v₄, v₅] = [v₁ - 0, v₁ - 1, v₁ - 2, v₁ - 3, v₁ - 4] := by
            simp only [List.cons.injEq, and_true]
            omega
          exact hlist
        · simp only [List.cons.injEq]
          omega
      · rw [hrank htrue, straightRank, if_neg (show ¬v₁ = v₂ + 9 by omega),
          if_neg (show ¬v₁ = 5 by omega), if_neg (show ¬v₁ = 5 by omega)]
        exact if_congr (and_congr_right fun _ => by omega) rfl rfl
    · refine .inr ⟨?_, ?_⟩
      · rw [straightHigh, if_neg, if_neg]
        · intro heq'
          have hlist : [v₁, v₂, v₃, v₄, v₅] = [v₁ - 0, v₁ - 1, v₁ - 2, v₁ - 3, v₁ - 4] := heq'
          simp only [List.cons.injEq, and_true] at hlist
          exact hhigh ((hline 0).2 (by omega))
        · intro heq'
          simp only [List.cons.injEq, and_true] at heq'
          exact hlow ⟨(hline 8).2 (by omega), heq'.1⟩
      · rw [Bool.eq_false_iff, lineCard, hhead, ne_eq, Bool.or_eq_true, Bool.and_eq_true,
          beq_iff_eq]
        rintro (h | ⟨h14, h⟩)
        · exact hhigh h
        · exact hlow ⟨h, h14⟩

/-! ## The comparison -/

theorem Five.count_le (h : Five a) (v : ℕ) : (a.map getCardLogicValue).count v ≤ 4 := by
  have hdeck : ∀ c ∈ cardData, (cardData.filter fun d =>
      getCardLogicValue d == getCardLogicValue c).length ≤ 4 := by decide +kernel
  by_cases hv : v ∈ a.map getCardLogicValue
  · obtain ⟨c, hc, rfl⟩ := List.mem_map.1 hv
    rw [List.count, List.countP_map, List.countP_eq_length_filter]
    exact ((h.nodup.subperm h.deck).filter _).length_le.trans (hdeck c (h.deck hc))
  · rw [List.count_eq_zero_of_not_mem hv]
    omega

/-- A hand that is no straight. -/
theorem Five.handRank_eq (h : Five a) (hline : lineCard a = false)
    (hnone : straightHigh (a.map getCardLogicValue) = none) :
    handRank a = pokerKey a ∧ (handRank a).headD 0 ≠ 5 ∧ (handRank a).headD 0 < 9 := by
  have htype : getCardType a = if flush a then .tongHua
      else if (valuesOf 4 (a.map getCardLogicValue)).length = 1 then .tieZhi
      else if (valuesOf 2 (a.map getCardLogicValue)).length = 2 then .twoLong
      else if (valuesOf 2 (a.map getCardLogicValue)).length = 1 ∧
        (valuesOf 3 (a.map getCardLogicValue)).length = 1 then .huLu
      else if (valuesOf 3 (a.map getCardLogicValue)).length = 1 ∧
        (valuesOf 2 (a.map getCardLogicValue)).length = 0 then .threeTiao
      else if (valuesOf 2 (a.map getCardLogicValue)).length = 1 ∧
        (valuesOf 1 (a.map getCardLogicValue)).length = 3 then .oneLong
      else .single := by
    rw [getCardType]
    simp only [← lineCard.eq_1, ← flush.eq_1, hline, analysebCardData, h.runValues]
    cases flush a <;> simp
  have hkey : pokerKey a = pokerClass (flush a) (a.map getCardLogicValue) ::
      (valuesOf 4 (a.map getCardLogicValue) ++ valuesOf 3 (a.map getCardLogicValue) ++
        valuesOf 2 (a.map getCardLogicValue) ++ valuesOf 1 (a.map getCardLogicValue)) := by
    rw [pokerKey]
    simp only [hnone]
  have hcounts := analysebCardData_counts h.length
  simp only [analysebCardData, h.runValues] at hcounts
  rw [handRank, hkey, htype, pokerClass]
  cases hflush : flush a with
  | true =>
    simp [valuesOf_of_nodup (h.nodup_of_flush hflush), rankKeys, CardType.toByte]
  | false =>
    generalize hF : valuesOf 4 (a.map getCardLogicValue) = four at *
    generalize hT : valuesOf 3 (a.map getCardLogicValue) = three at *
    generalize hL : valuesOf 2 (a.map getCardLogicValue) = long at *
    generalize hS : valuesOf 1 (a.map getCardLogicValue) = signed at *
    simp only [Bool.false_eq_true, if_false]
    by_cases hfour : four.length = 1
    · -- four of a kind
      obtain ⟨v, rfl⟩ := List.length_eq_one_iff.1 hfour
      obtain rfl : three = [] := List.eq_nil_of_length_eq_zero (by omega)
      obtain rfl : long = [] := List.eq_nil_of_length_eq_zero (by omega)
      obtain ⟨w, rfl⟩ := List.length_eq_one_iff.1 (show signed.length = 1 by omega)
      simp [rankKeys, CardType.toByte, analysebCardData, h.runValues, hF, hS]
    obtain rfl : four = [] := List.eq_nil_of_length_eq_zero (by omega)
    by_cases hlong : long.length = 2
    · -- two pairs
      obtain rfl : three = [] := List.eq_nil_of_length_eq_zero (by omega)
      simp [rankKeys, CardType.toByte, analysebCardData, h.runValues, hL, hS, hlong]
    by_cases hthree : three.length = 1
    · obtain ⟨v, rfl⟩ := List.length_eq_one_iff.1 hthree
      by_cases hpair : long.length = 1
      · -- a full house
        obtain ⟨w, rfl⟩ := List.length_eq_one_iff.1 hpair
        obtain rfl : signed = [] := List.eq_nil_of_length_eq_zero (by omega)
        simp [rankKeys, CardType.toByte, analysebCardData, h.runValues, hL, hT]
      · obtain rfl : long = [] := List.eq_nil_of_length_eq_zero (by omega)
        simp [rankKeys, CardType.toByte, analysebCardData, h.runValues, hT, hS]
    obtain rfl : three = [] := List.eq_nil_of_length_eq_zero (by omega)
    by_cases hpair : long.length = 1
    · have hsigned : signed.length = 3 := by omega
      simp [rankKeys, CardType.toByte, analysebCardData, h.runValues, hL, hS, hpair, hsigned]
    obtain rfl : long = [] := List.eq_nil_of_length_eq_zero (by omega)
    -- all values are different
    have hnodup : (a.map getCardLogicValue).Nodup := by
      refine List.nodup_iff_count_le_one.2 fun v => ?_
      by_contra hcount
      have hv : v ∈ a.map getCardLogicValue := List.count_pos_iff.1 (by omega)
      have hle := h.count_le v
      obtain heq | heq | heq : (a.map getCardLogicValue).count v = 2 ∨
          (a.map getCardLogicValue).count v = 3 ∨ (a.map getCardLogicValue).count v = 4 := by
        omega
      · exact absurd (mem_valuesOf.2 ⟨hv, heq⟩) (hL ▸ List.not_mem_nil)
      · exact absurd (mem_valuesOf.2 ⟨hv, heq⟩) (hT ▸ List.not_mem_nil)
      · exact absurd (mem_valuesOf.2 ⟨hv, heq⟩) (hF ▸ List.not_mem_nil)
    rw [valuesOf_of_nodup hnodup, if_pos rfl] at hS
    simp [rankKeys, CardType.toByte, hS]

theorem cons_lt_cons_of_ne {x y : ℕ} (h : x ≠ y) (xs ys : List ℕ) : x :: xs < y :: ys ↔ x < y := by
  rw [List.cons_lt_cons_iff]
  exact ⟨fun h' => h'.resolve_right fun h' => h h'.1, .inl⟩

theorem Five.handRank_lt (ha : Five a) (hb : Five b) :
    handRank a < handRank b ↔ pokerKey a < pokerKey b := by
  have hkey : ∀ {x : List UInt8} {high : ℕ},
      straightHigh (x.map getCardLogicValue) = some high →
        pokerKey x = straightKey (flush x) high := by
    intro x high h
    rw [pokerKey, straightKey]
    simp only [h]
  have hhead : ∀ (f : Bool) (high : ℕ), ∃ w rest, straightRank f high = w :: rest ∧
      (w = 5 ∧ straightKey f high = [5, high] ∨ 9 ≤ w ∧ straightKey f high = [9, high]) := by
    intro f high
    rw [straightRank, straightKey]
    cases f <;> split_ifs <;> simp_all
  have hother : ∀ {x : List UInt8}, Five x → straightHigh (x.map getCardLogicValue) = none →
      lineCard x = false → ∃ v rest, handRank x = v :: rest ∧ pokerKey x = v :: rest ∧ v ≠ 5 ∧
        v < 9 := by
    intro x hx hnone hline
    obtain ⟨heq, hne, hlt⟩ := hx.handRank_eq hline hnone
    exact ⟨_, _, rfl, heq ▸ rfl, hne, hlt⟩
  obtain ⟨v, hv, hv₁, hv₂, hva⟩ | ⟨hna, hla⟩ := ha.straight <;>
    obtain ⟨w, hw, hw₁, hw₂, hwb⟩ | ⟨hnb, hlb⟩ := hb.straight
  · rw [hva, hwb, hkey hv, hkey hw]
    exact straightRank_lt hv₁ hv₂ hw₁ hw₂
  · obtain ⟨x, rest, hrank, hxkey⟩ := hhead (flush a) v
    obtain ⟨y, rest', hb₁, hb₂, hne, hlt⟩ := hother hb hnb hlb
    rw [hva, hkey hv, hrank, hb₁, hb₂]
    obtain ⟨rfl, hx⟩ | ⟨hle, hx⟩ := hxkey
    · rw [hx, cons_lt_cons_of_ne hne.symm, cons_lt_cons_of_ne hne.symm]
    · rw [hx, cons_lt_cons_of_ne (by omega), cons_lt_cons_of_ne (by omega)]
      omega
  · obtain ⟨x, rest, hrank, hxkey⟩ := hhead (flush b) w
    obtain ⟨y, rest', ha₁, ha₂, hne, hlt⟩ := hother ha hna hla
    rw [hwb, hkey hw, hrank, ha₁, ha₂]
    obtain ⟨rfl, hx⟩ | ⟨hle, hx⟩ := hxkey
    · rw [hx, cons_lt_cons_of_ne hne, cons_lt_cons_of_ne hne]
    · rw [hx, cons_lt_cons_of_ne (by omega), cons_lt_cons_of_ne (by omega)]
      omega
  · rw [(ha.handRank_eq hla hna).1, (hb.handRank_eq hlb hnb).1]

/-- **`CompareCard` is the order of poker hands**: it compares the keys, so
it turns round with its arguments, is transitive, and finds equal exactly
what has one key. -/
theorem compareCard_is_poker_order (ha : Five a) (hb : Five b) (hc : Five c) :
    (compareCard a b = 2 ↔ pokerKey b < pokerKey a) ∧
      (compareCard a b = 1 ↔ pokerKey a < pokerKey b) ∧
      (compareCard a b = 0 ↔ pokerKey a = pokerKey b) ∧
      (compareCard a b = 2 ↔ compareCard b a = 1) ∧
      (compareCard a b = 2 → compareCard b c = 2 → compareCard a c = 2) := by
  have hspec : ∀ {x y}, Five x → Five y → (compareCard x y = 2 ↔ pokerKey y < pokerKey x) ∧
      (compareCard x y = 1 ↔ pokerKey x < pokerKey y) ∧
      (compareCard x y = 0 ↔ pokerKey x = pokerKey y) := by
    intro x y hx hy
    obtain ⟨htwo, hone, hzero⟩ := compareValues_spec (comparable_handRank hx.length hy.length)
    rw [compareCard_eq hx.length hy.length]
    refine ⟨htwo.trans (hy.handRank_lt hx), hone.trans (hx.handRank_lt hy), hzero.trans ?_⟩
    rw [eq_iff_le_not_lt, eq_iff_le_not_lt, ← not_lt, ← not_lt, hx.handRank_lt hy,
      hy.handRank_lt hx]
  refine ⟨(hspec ha hb).1, (hspec ha hb).2.1, (hspec ha hb).2.2, ?_, fun hab hbc => ?_⟩
  · rw [(hspec ha hb).1, (hspec hb ha).2.1]
  · rw [(hspec ha hb).1] at hab
    rw [(hspec hb hc).1] at hbc
    exact (hspec ha hc).1.2 (hbc.trans hab)

theorem five_straight : Five [0x0D, 0x1C, 0x2B, 0x0A, 0x19] where
  deck := by decide
  nodup := by decide
  length := rfl
  sorted := by decide

theorem five_lowStraight : Five [0x31, 0x25, 0x04, 0x13, 0x02] where
  deck := by decide
  nodup := by decide
  length := rfl
  sorted := by decide

theorem five_trips : Five [0x21, 0x11, 0x01, 0x1C, 0x09] where
  deck := by decide
  nodup := by decide
  length := rfl
  sorted := by decide

/-- A straight to the king beats the one from the ace, and that beats
three aces. -/
theorem compareCard_is_poker_order_straights :
    compareCard [0x0D, 0x1C, 0x2B, 0x0A, 0x19] [0x21, 0x11, 0x01, 0x1C, 0x09] = 2 :=
  (compareCard_is_poker_order five_straight five_lowStraight five_trips).2.2.2.2
    (by decide +kernel) (by decide +kernel)

end GameServer.TexasHoldem
