import GameServer.TexasHoldem.Chips
import Mathlib.Data.Fin.VecNotation
/-!
# Texas hold'em — how a betting round ends

The end of a round is decided by counting. The counts agree with the bets
as long as nobody puts in less than he is told to and no raise is sent as
a pass: whoever sits far enough behind the current player has answered
the last raise, and no more players than these are counted as passing
(`Answered`). Then a round ends with everybody's bet matched
(`run_keeps_matched`).
-/

namespace GameServer.TexasHoldem

open Finset

/-- Everybody who can bet has put in what there is to match. -/
def AllMatched (h : Hand) : Prop :=
  ∀ i, h.canBet i = true → h.tableScore i = h.balanceScore

/-- Who sits more than `t` places behind `c` has matched the bet, and only
these have been counted as passing. One of them is still in, or else a
player who is all in. -/
structure Answered (h : Hand) (c : Chair) (t : ℕ) : Prop where
  lt : t < gamePlayer
  matched : ∀ i, h.canBet i = true → t < placesBehind c i → h.tableScore i = h.balanceScore
  passed : h.passCardCount ≤ #{i | h.canBet i = true ∧ t < placesBehind c i}
  top : ∃ j, h.playStatus j = true ∧ (h.showHand j = true ∨ t < placesBehind c j)

/-- **What betting keeps.** -/
structure Betting (h : Hand) : Prop where
  le : ∀ i, h.tableScore i ≤ h.balanceScore
  balance_lt : h.balanceScore < 2 ^ 31
  less_le : h.turnLessScore ≤ h.balanceScore
  less_le_current : ∀ c, h.wCurrentUser = some c →
    h.turnLessScore ≤ h.balanceScore - h.tableScore c
  less_ge : ∀ c, h.wCurrentUser = some c → h.playStatus c = true →
    h.balanceScore - h.tableScore c ≤ max 0 h.turnLessScore ∨
      h.userMaxScore c - h.totalScore c ≤ max 0 h.turnLessScore
  allIn : ∀ i, h.playStatus i = true → h.showHand i = true → h.userMaxScore i ≤ h.totalScore i
  turn : AllMatched h ∨ ∀ c, h.wCurrentUser = some c → h.canBet c = true ∧ ∃ t, Answered h c t

theorem ne_of_play {h : Hand} (hplay : h.playStatus chair = false) (i : Chair)
    (hi : h.playStatus i = true) : i ≠ chair := by
  rintro rfl
  rw [hplay] at hi
  cases hi

/-- What is brought does not matter to the betting, but for who is told less
than the bet and who is all in. -/
theorem Betting.of_gold {h : Hand} {gold max' : Chair → ℤ} (hb : Betting h)
    (less_ge : ∀ c, h.wCurrentUser = some c → h.playStatus c = true →
      h.balanceScore - h.tableScore c ≤ max 0 h.turnLessScore ∨
        max' c - h.totalScore c ≤ max 0 h.turnLessScore)
    (allIn : ∀ i, h.playStatus i = true → h.showHand i = true → max' i ≤ h.totalScore i) :
    Betting { h with userTakeGold := gold, userMaxScore := max' } where
  le := hb.le
  balance_lt := hb.balance_lt
  less_le := hb.less_le
  less_le_current := hb.less_le_current
  less_ge := less_ge
  allIn := allIn
  turn := hb.turn.imp_right fun hturn c hc =>
    have ⟨hcan, t, ht⟩ := hturn c hc
    ⟨hcan, t, ht.lt, ht.matched, ht.passed, ht.top⟩

namespace TableSink

variable {opt : ServiceOption} {s s' q p : TableSink} {c chair : Chair} {l lScore ante : ℤ}
  {out : List Output} {e : TableEvent}

/-- A bet of `l` that answers the bet there is: it is matched or everything,
a raise is not sent as a pass, and nobody ends the round over others who
have less in. -/
structure Answers (q : TableSink) (c : Chair) (l : ℤ) : Prop where
  le : ∀ i, q.tableScore i ≤ q.balanceScore
  turn : (∀ i, i ≠ c → q.canBet i = true → q.tableScore i = q.balanceScore) ∨
    (q.canBet c = true ∨ q.chipTypeID = .giveUp ∨ q.chipTypeID = .over) ∧ ∃ t, Answered q.toHand c t
  covers : q.canBet c = true → q.goesAllIn c l ∨ q.balanceScore ≤ q.tableScore c + l
  plays : q.playStatus c = true ∨ l = 0
  raises : q.tableScore c + l ≤ q.balanceScore ∨ q.goesAllIn c l ∨
    q.chipTypeID ≠ .pass ∧ q.chipTypeID ≠ .giveUp
  ends : q.chipTypeID = .over → q.goesAllIn c l ∨
    (∀ i, i ≠ c → q.canBet i = true →
      q.tableScore i = max q.balanceScore (q.tableScore c + l)) ∨ q.playCount < 2

theorem Placed.canBet_of_ne (hp : Placed q c l p) {i : Chair} (hi : i ≠ c) :
    p.canBet i = q.canBet i := by
  rw [Hand.canBet, Hand.canBet, hp.playStatus, hp.showHand, Function.update_of_ne hi]

theorem Placed.canBet_self (hp : Placed q c l p) :
    p.canBet c = (q.canBet c && !decide (q.goesAllIn c l)) := by
  rw [Hand.canBet, Hand.canBet, hp.playStatus, hp.showHand, Function.update_self]
  cases q.playStatus c <;> cases q.showHand c <;> rfl

/-- How a bet changes the passes counted: not at all by a fold, by one if it
is a pass, and else they start again. -/
theorem passCardCount_countBet (hp : Placed q c l p) :
    (p.countBet c l).passCardCount = 0 ∨
      ¬ q.goesAllIn c l ∧ q.chipTypeID = .giveUp ∧
        (p.countBet c l).passCardCount = q.passCardCount ∨
      ¬ q.goesAllIn c l ∧ (q.chipTypeID = .pass ∨
        (q.chipTypeID = .add ∨ q.chipTypeID = .gen) ∧ l = 0) ∧
        (p.countBet c l).passCardCount = q.passCardCount + 1 := by
  have htype := hp.chipTypeID
  simp only [countBet, hp.passCardCount]
  by_cases hall : q.goesAllIn c l
  · rw [if_pos hall] at htype
    simp [htype]
  · rw [if_neg hall] at htype
    rw [htype]
    by_cases hl : l = 0
    · subst hl
      cases hq : q.chipTypeID <;> simp [hall]
    · cases hq : q.chipTypeID <;> simp [hall, hl]

theorem Answers.le_placed (ha : Answers q c l) (hp : Placed q c l p) (i : Chair) :
    p.tableScore i ≤ p.balanceScore := by
  have := ha.le i
  rw [hp.tableScore, hp.balanceScore]
  by_cases hi : i = c
  · rw [hi, Function.update_self]
    exact le_max_right _ _
  · rw [Function.update_of_ne hi]
    exact this.trans (le_max_left _ _)

theorem Answers.matched_self (ha : Answers q c l) (hp : Placed q c l p) (hc : p.canBet c = true) :
    p.tableScore c = p.balanceScore := by
  rw [hp.canBet_self, Bool.and_eq_true, Bool.not_eq_true', decide_eq_false_iff_not] at hc
  have := (ha.covers hc.1).resolve_left hc.2
  rw [hp.tableScore, hp.balanceScore, Function.update_self, max_eq_right this]

theorem ne_of_placesBehind {i : Chair} {t : ℕ} (h : t < placesBehind c i) : i ≠ c := by
  rintro rfl
  rw [placesBehind_eq_zero.2 rfl] at h
  omega

/-- **After a bet**, either everybody has matched, or again everybody more
than `t` places behind, and the one who has bet. -/
theorem Answers.answered (ha : Answers q c l) (hp : Placed q c l p) :
    AllMatched p.toHand ∨ ∃ t < gamePlayer,
      (∀ i, p.canBet i = true → t < placesBehind c i → p.tableScore i = p.balanceScore) ∧
      (p.countBet c l).passCardCount ≤
        #{i | p.canBet i = true ∧ (t < placesBehind c i ∨ i = c)} ∧
      ∃ j, p.playStatus j = true ∧ (p.showHand j = true ∨ t < placesBehind c j ∨ j = c) := by
  by_cases hraise : q.tableScore c + l ≤ q.balanceScore
  · have hbal : p.balanceScore = q.balanceScore := hp.balanceScore.trans (max_eq_left hraise)
    have htable : ∀ i, i ≠ c → p.tableScore i = q.tableScore i := fun i hi => by
      rw [hp.tableScore, Function.update_of_ne hi]
    rcases ha.turn with hall | ⟨hcur, t, ht⟩
    · refine .inl fun i hi => ?_
      by_cases hic : i = c
      · subst hic
        exact ha.matched_self hp hi
      · rw [htable i hic, hbal]
        exact hall i hic (hp.canBet_of_ne hic ▸ hi)
    · refine .inr ⟨t, ht.lt, fun i hi hlt => ?_, ?_, ?_⟩
      · have hic := ne_of_placesBehind hlt
        rw [htable i hic, hbal]
        exact ht.matched i (hp.canBet_of_ne hic ▸ hi) hlt
      · have hsub : ({i | q.canBet i = true ∧ t < placesBehind c i} : Finset Chair) ⊆
            ({i | p.canBet i = true ∧ (t < placesBehind c i ∨ i = c)} : Finset Chair) := by
          intro i hi
          simp only [mem_filter, mem_univ, true_and] at hi ⊢
          exact ⟨(hp.canBet_of_ne (ne_of_placesBehind hi.2)).trans hi.1, .inl hi.2⟩
        rcases passCardCount_countBet hp with h | ⟨-, -, h⟩ | ⟨hnot, htype, h⟩
        · omega
        · rw [h]
          exact ht.passed.trans (card_le_card hsub)
        · -- who passes can bet, so he is one more that has answered
          have hc : q.canBet c = true := by
            rcases hcur with h | h | h
            · exact h
            · simp [h] at htype
            · simp [h] at htype
          have hself : c ∈ ({i | p.canBet i = true ∧ (t < placesBehind c i ∨ i = c)} :
              Finset Chair) := by
            simp [hp.canBet_self, hc, hnot]
          have hnew : c ∉ ({i | q.canBet i = true ∧ t < placesBehind c i} : Finset Chair) := by
            simp [placesBehind_eq_zero.2]
          have := card_le_card (insert_subset hself hsub)
          rw [card_insert_of_notMem hnew] at this
          have := ht.passed
          omega
      · obtain ⟨j, hplay, hj⟩ := ht.top
        refine ⟨j, by rwa [hp.playStatus], hj.imp (fun hshow => ?_) .inl⟩
        rw [hp.showHand]
        by_cases hjc : j = c
        · rw [hjc] at hshow ⊢
          rw [Function.update_self, hshow, Bool.true_or]
        · rwa [Function.update_of_ne hjc]
  · have hzero : (p.countBet c l).passCardCount = 0 := by
      rcases passCardCount_countBet hp with h | ⟨hnot, htype, -⟩ | ⟨hnot, htype, -⟩
      · exact h
      · rcases ha.raises with h | h | h
        · exact absurd h hraise
        · exact absurd h hnot
        · exact absurd htype h.2
      · have hle := ha.le c
        rcases htype with htype | ⟨-, rfl⟩
        · rcases ha.raises with h | h | h
          · exact absurd h hraise
          · exact absurd h hnot
          · exact absurd htype h.1
        · omega
    refine .inr ⟨8, by decide, fun i _ hlt => ?_, by omega, c, ?_, .inr (.inr rfl)⟩
    · have := placesBehind_lt c i
      simp only [gamePlayer] at this
      omega
    · rw [hp.playStatus]
      have := ha.le c
      exact ha.plays.resolve_right (by omega)

theorem countBet_over (hp : Placed q c l p) (h : (p.countBet c l).chipTypeID = .over) :
    q.chipTypeID = .over ∧ ¬ q.goesAllIn c l := by
  have htype := hp.chipTypeID
  simp only [countBet] at h
  split_ifs at h htype with h₁ h₂
  · rw [htype] at h
    cases h
  · exact ⟨htype.symm.trans h, by assumption⟩

/-- **A round ends with the bets matched.** -/
theorem Answers.closed (ha : Answers q c l) (hp : Placed q c l p)
    (hfinish : (p.countBet c l).finishTurn (chairBehind c (p.nextHops c)) = true) :
    AllMatched p.toHand := by
  obtain ⟨-, -, hnext, -⟩ := nextHops_spec p c
  have hle := ha.le_placed hp
  have hplay := p.playCount_eq
  have hmatch : ∀ i, p.canBet i = true → p.balanceScore ≤ p.tableScore i →
      p.tableScore i = p.balanceScore := fun i _ h => le_antisymm (hle i) h
  simp only [finishTurn, Bool.or_eq_true, Bool.and_eq_true, decide_eq_true_eq] at hfinish
  rcases hfinish with ((⟨-, hall⟩ | ⟨-, hpass⟩) | ⟨hone, hbet⟩) | hover
  · -- the bets were compared
    intro i hi
    rw [List.all_eq_true] at hall
    have := hall i (List.mem_finRange i)
    have hi' : (p.countBet c l).canBet i = true := hi
    rw [hi', Bool.true_and, Bool.not_eq_true', decide_eq_false_iff_not, not_lt] at this
    exact hmatch i hi this
  · -- as many have passed as can bet
    rcases ha.answered hp with h | ⟨t, -, hmatched, hcount, -⟩
    · exact h
    · have hcount' : #{i | p.canBet i = true} ≤
          #{i | p.canBet i = true ∧ (t < placesBehind c i ∨ i = c)} := by
        have : (p.countBet c l).playCount = p.playCount := rfl
        have : (p.countBet c l).showCount = p.showCount := rfl
        omega
      have heq := eq_of_subset_of_card_le (fun i hi => by
        simp only [mem_filter, mem_univ, true_and] at hi ⊢
        exact hi.1) hcount'
      intro i hi
      have hmem : i ∈ ({i | p.canBet i = true} : Finset Chair) := by simpa using hi
      rw [← heq] at hmem
      simp only [mem_filter, mem_univ, true_and] at hmem
      rcases hmem.2 with h | rfl
      · exact hmatched i hi h
      · exact ha.matched_self hp hi
  · -- one can bet, and if it is not he who has bet it is the next one
    have hcard : #{i | p.canBet i = true} = 1 := by
      have : (p.countBet c l).playCount = p.playCount := rfl
      have : (p.countBet c l).showCount = p.showCount := rfl
      omega
    intro i hi
    by_cases hic : i = c
    · subst hic
      exact ha.matched_self hp hi
    · have hcan : p.canBet (chairBehind c (p.nextHops c)) = true := by
        rcases hnext with h | h
        · exact h
        · rw [h i hic] at hi
          cases hi
      have heq : i = chairBehind c (p.nextHops c) :=
        card_le_one.1 hcard.le i (by simpa using hi) _ (by simpa using hcan)
      rw [heq]
      exact hmatch _ hcan hbet
  · -- somebody has said so
    obtain ⟨htype, hnot⟩ := countBet_over hp hover
    rcases (ha.ends htype).resolve_left hnot with hothers | hfew
    · intro i hi
      by_cases hic : i = c
      · subst hic
        exact ha.matched_self hp hi
      · rw [hp.tableScore, Function.update_of_ne hic, hp.balanceScore]
        exact hothers i hic (hp.canBet_of_ne hic ▸ hi)
    · -- the last one in the hand has made the bet, or has answered it
      have hone : p.playCount < 2 := by rwa [Hand.playCount, hp.playStatus]
      rw [Hand.playCount, countP_chairs] at hone
      rcases ha.answered hp with h | ⟨t, -, hmatched, -, j, hplay, hj⟩
      · exact h
      · intro i hi
        have hi' : p.playStatus i = true ∧ p.showHand i = false := by
          simpa [Hand.canBet] using hi
        obtain rfl : i = j := card_le_one.1 (Nat.le_of_lt_succ hone) i (by simpa using hi'.1) j
          (by simpa using hplay)
        rcases hj with hshow | hlt | rfl
        · rw [hi'.2] at hshow
          cases hshow
        · exact hmatched i hi hlt
        · exact ha.matched_self hp hi

/-- **The turn goes on** to a player who can bet, and the places are counted
from there. -/
theorem Answers.continued (ha : Answers q c l) (hp : Placed q c l p) :
    AllMatched p.toHand ∨ p.canBet (chairBehind c (p.nextHops c)) = true ∧
      ∃ t, Answered ((p.countBet c l).continueTurn (chairBehind c (p.nextHops c))).toHand
        (chairBehind c (p.nextHops c)) t := by
  obtain ⟨hone, hlt, hnext, hbetween⟩ := nextHops_spec p c
  rcases ha.answered hp with h | ⟨t, ht, hmatched, hcount, j, hplay, hj⟩
  · exact .inl h
  have hself : p.canBet c = true → p.tableScore c = p.balanceScore := ha.matched_self hp
  by_cases hcan : p.canBet (chairBehind c (p.nextHops c)) = true
  swap
  · -- nobody else can bet
    refine .inl fun i hi => ?_
    by_cases hic : i = c
    · exact hic ▸ hself (hic ▸ hi)
    · rw [hnext.resolve_left hcan i hic] at hi
      cases hi
  by_cases hwrap : t < p.nextHops c
  · -- everybody who can bet sits behind the next one
    refine .inl fun i hi => ?_
    by_cases hic : i = c
    · exact hic ▸ hself (hic ▸ hi)
    · refine hmatched i hi ?_
      by_contra hnot
      rw [hbetween i hic (by omega)] at hi
      cases hi
  · have hplaces : ∀ i, p.canBet i = true →
        (t < placesBehind c i ∨ i = c ↔
          t - p.nextHops c < placesBehind (chairBehind c (p.nextHops c)) i) := by
      intro i hi
      have := placesBehind_lt c i
      simp only [gamePlayer] at *
      by_cases hic : i = c
      · subst hic
        have hzero : placesBehind i i = 0 := placesBehind_eq_zero.2 rfl
        rw [placesBehind_next_of_lt (by omega) hlt, hzero, gamePlayer]
        simp only [or_true, true_iff]
        omega
      · have hle : p.nextHops c ≤ placesBehind c i := by
          by_contra hnot
          rw [hbetween i hic (by omega)] at hi
          cases hi
        rw [placesBehind_next_of_le hle]
        simp only [hic, or_false]
        omega
    refine .inr ⟨hcan, t - p.nextHops c, by omega, fun i hi hi' => ?_, hcount.trans ?_,
      j, hplay, hj.imp_right fun hj => ?_⟩
    · rcases (hplaces i hi).2 hi' with h | rfl
      · exact hmatched i hi h
      · exact hself hi
    · refine card_le_card fun i hi => ?_
      simp only [mem_filter, mem_univ, true_and] at hi ⊢
      exact ⟨hi.1, (hplaces i hi.1).1 hi.2⟩
    · have := placesBehind_lt c j
      simp only [gamePlayer] at *
      rcases hj with hlt' | rfl
      · rw [placesBehind_next_of_le (by omega)]
        omega
      · have hzero : placesBehind j j = 0 := placesBehind_eq_zero.2 rfl
        rw [placesBehind_next_of_lt (by omega) (by simpa only [gamePlayer] using hlt), hzero, gamePlayer]
        omega

theorem Placed.allIn (hp : Placed q c l p) (hl : 0 ≤ l)
    (h : ∀ i, q.playStatus i = true → q.showHand i = true → q.userMaxScore i ≤ q.totalScore i)
    (i : Chair) (hplay : p.playStatus i = true) (hshow : p.showHand i = true) :
    p.userMaxScore i ≤ p.totalScore i := by
  rw [hp.playStatus] at hplay
  rw [hp.userMaxScore, hp.totalScore]
  rw [hp.showHand] at hshow
  by_cases hi : i = c
  · subst hi
    rw [Function.update_self, Bool.or_eq_true, decide_eq_true_eq] at hshow
    rw [Function.update_self]
    split_ifs with hall
    · exact le_rfl
    · have := h i hplay (hshow.resolve_right hall)
      omega
  · rw [Function.update_of_ne hi] at hshow ⊢
    exact h i hplay hshow

/-- The bets an output shows are matched: by the player who has bet, and at
the end of a round by everybody who still has chips. -/
def Matched : Output → Prop
  | .writeUserScore .. => True
  | .addScore chair bets => bets.playStatus chair = true →
      bets.totalScore chair < bets.userMaxScore chair → bets.tableScore chair = bets.balanceScore
  | .turnOver bets => 2 ≤ chairs.countP bets.playStatus → ∀ i, bets.playStatus i = true →
      bets.totalScore i < bets.userMaxScore i → bets.tableScore i = bets.balanceScore

instance : DecidablePred Matched
  | .writeUserScore .. => isTrue trivial
  | .addScore .. => inferInstanceAs (Decidable (_ → _ → _))
  | .turnOver _ => inferInstanceAs (Decidable (_ → _))

/-- A bet that answers keeps the betting in order. -/
theorem Answers.betting (ha : Answers q c l) (hs : Chips ante q.toHand) (hst : Stake q c l)
    (hp : Placed q c l p) (hbal : q.balanceScore < 2 ^ 31)
    (hallIn : ∀ i, q.playStatus i = true → q.showHand i = true →
      q.userMaxScore i ≤ q.totalScore i)
    (h : p.afterBet c l = (s', out)) : Betting s'.toHand ∧ ∀ o ∈ out, Matched o := by
  have hallIn' := hp.allIn hst.nonneg hallIn
  have hchips := hp.chips hs hst
  have hle := ha.le_placed hp
  have hbal' : p.balanceScore < 2 ^ 31 := by
    have := hs.table_le c
    have := hs.max_lt c
    have := hst.le
    rw [hp.balanceScore]
    omega
  -- who has chips is not all in
  have hcan : ∀ i, p.playStatus i = true → p.totalScore i < p.userMaxScore i → p.canBet i = true := by
    intro i hplay hlt
    rw [Hand.canBet, hplay, Bool.true_and, Bool.not_eq_true', ← Bool.not_eq_true]
    intro hshow
    have := hallIn' i hplay hshow
    omega
  have hadd : Matched (.addScore c p.tableBets) := fun hplay hlt =>
    ha.matched_self hp (hcan c hplay hlt)
  rcases afterBet_cases h with ⟨hfinish, rfl, rfl⟩ | ⟨-, rfl, rfl⟩
  · constructor
    · rw [closeRound_hand]
      exact
        { le := fun i => le_rfl
          balance_lt := (by decide : (0 : ℤ) < 2 ^ 31)
          less_le := le_rfl
          less_le_current := fun c _ => le_rfl
          less_ge := fun c _ _ => .inl le_rfl
          allIn := hallIn'
          turn := .inl fun i _ => rfl }
    · intro o ho
      simp only [List.mem_cons, List.not_mem_nil, or_false] at ho
      rcases ho with rfl | rfl
      · exact hadd
      · exact fun _ i hplay hlt => ha.closed hp hfinish i (hcan i hplay hlt)
  · constructor
    · have hless : ((p.countBet c l).continueTurn (chairBehind c (p.nextHops c))).turnLessScore =
          min (p.balanceScore - p.tableScore (chairBehind c (p.nextHops c)))
            (p.userMaxScore (chairBehind c (p.nextHops c)) -
              p.totalScore (chairBehind c (p.nextHops c))) := by
        have h₁ := hle (chairBehind c (p.nextHops c))
        have h₂ := hchips.table_nonneg (chairBehind c (p.nextHops c))
        have h₃ := hchips.table_le (chairBehind c (p.nextHops c))
        have h₄ := hchips.total_lt (chairBehind c (p.nextHops c))
        have h₅ := hchips.max_nonneg (chairBehind c (p.nextHops c))
        have h₆ := hchips.max_lt (chairBehind c (p.nextHops c))
        exact congrArg₂ min
          (int32_of_range (x := p.balanceScore - p.tableScore _) (by omega) (by omega))
          (int32_of_range (x := p.userMaxScore _ - p.totalScore _) (by omega) (by omega))
      have hnonneg := hchips.table_nonneg (chairBehind c (p.nextHops c))
      have hcurrent : ∀ c', ((p.countBet c l).continueTurn
          (chairBehind c (p.nextHops c))).wCurrentUser = some c' →
            c' = chairBehind c (p.nextHops c) := fun c' h => (Option.some.inj h).symm
      exact
        { le := hle
          balance_lt := hbal'
          less_le := by
            rw [hless]
            have : ((p.countBet c l).continueTurn
              (chairBehind c (p.nextHops c))).balanceScore = p.balanceScore := rfl
            omega
          less_le_current := fun c' hc' => by
            rw [hless, hcurrent c' hc']
            exact min_le_left _ _
          less_ge := fun c' hc' _ => by
            rw [hless, hcurrent c' hc']
            rcases min_choice (p.balanceScore - p.tableScore (chairBehind c (p.nextHops c)))
              (p.userMaxScore (chairBehind c (p.nextHops c)) -
                p.totalScore (chairBehind c (p.nextHops c))) with h | h
            · rw [h]
              exact .inl (le_max_right _ _)
            · rw [h]
              exact .inr (le_max_right _ _)
          allIn := hallIn'
          turn := by
            rcases ha.continued hp with h | ⟨h, t, ht⟩
            · exact .inl h
            · refine .inr fun c' hc' => ?_
              obtain rfl := hcurrent c' hc'
              exact ⟨h, t, ht⟩ }
    · intro o ho
      rw [List.mem_singleton] at ho
      exact ho ▸ hadd

/-! ## Every event -/

/-- A message that keeps to the betting: no less than `m_lTurnLessScore` or
all in, no raise under the name of a pass or a fold, and
`CHIP_TYPE_OVER` not before everybody else has the same in. -/
structure Honest (q : TableSink) (c : Chair) (l : ℤ) : Prop where
  covers : q.goesAllIn c l ∨ q.turnLessScore ≤ l
  raises : q.goesAllIn c l ∨ l ≤ max 0 q.turnLessScore ∨
    q.chipTypeID ≠ .pass ∧ q.chipTypeID ≠ .giveUp
  ends : q.chipTypeID = .over → q.goesAllIn c l ∨ ∀ i, i ≠ c → q.canBet i = true →
    q.tableScore i = max q.balanceScore (q.tableScore c + l)

/-- **An orderly event**: an honest message if it is a bet that is taken; at
the start the big blind is the highest bet; a card is dealt when no bet
is on the table; and gold is not brought to who is all in, nor to who is
told less than the bet because he has no more. -/
def Orderly (opt : ServiceOption) (s : TableSink) : TableEvent → Prop
  | .startGame _ => s.gameStarted = false →
      2 ≤ chairs.countP (fun i => (s.userItem i).isSome) → ∀ i, s.seats i = true →
        min (post opt s i) (s.brings i) ≤ min (post opt s s.big) (s.brings s.big)
  | .addScore chair lScore type =>
      let q := { s with chipTypeID := type }
      let l := q.chipIn chair (int32 lScore)
      s.wCurrentUser = some chair → 0 ≤ l → l ≤ s.userTakeGold chair → Honest q chair l
  | .timer .addBuffer => s.balanceScore = 0
  | .addTakeGold chair lookon _ => lookon = true ∨ s.inGame chair = false →
      s.playStatus chair = true → s.showHand chair = false ∧ (s.wCurrentUser = some chair →
        s.balanceScore - s.tableScore chair ≤ max 0 s.turnLessScore)
  | _ => True

instance : Decidable (Honest q c l) :=
  decidable_of_iff ((q.goesAllIn c l ∨ q.turnLessScore ≤ l) ∧
      (q.goesAllIn c l ∨ l ≤ max 0 q.turnLessScore ∨
        q.chipTypeID ≠ .pass ∧ q.chipTypeID ≠ .giveUp) ∧
      (q.chipTypeID = .over → q.goesAllIn c l ∨ ∀ i, i ≠ c → q.canBet i = true →
        q.tableScore i = max q.balanceScore (q.tableScore c + l)))
    ⟨fun ⟨h₁, h₂, h₃⟩ => ⟨h₁, h₂, h₃⟩, fun h => ⟨h.covers, h.raises, h.ends⟩⟩

instance : ∀ e, Decidable (Orderly opt s e)
  | .startGame _ => inferInstanceAs (Decidable (_ → _ → _))
  | .addScore chair _ type => inferInstanceAs (Decidable (_ → _ → _ →
      Honest { s with chipTypeID := type } chair _))
  | .timer .addBuffer => inferInstanceAs (Decidable (_ = _))
  | .addTakeGold .. => inferInstanceAs (Decidable (_ → _ → _))
  | .timer .game | .timer .normalEnd | .timer .sendCard | .timer .noPlayer | .sitDown ..
  | .giveUp _ | .lookCard | .lookNoCard | .gameOver | .playEnd .. | .standUp _ | .dismiss
  | .userScore .. | .offLine _ | .onLine _ => isTrue trivial

theorem matched_writeScores {score revenue : Chair → ℤ} :
    ∀ o ∈ s.writeScores score revenue, Matched o := by
  intro o ho
  simp only [writeScores, List.mem_map] at ho
  obtain ⟨i, -, rfl⟩ := ho
  trivial

theorem Idle.betting {h : Hand} (hidle : Idle h) : Betting h := by
  rw [Idle] at hidle
  rw [hidle]
  exact
    { le := fun i => le_rfl
      balance_lt := (by decide : (0 : ℤ) < 2 ^ 31)
      less_le := le_rfl
      less_le_current := (by simp)
      less_ge := (by simp)
      allIn := (by simp)
      turn := .inr (by simp) }

/-- Nobody has answered the blinds but the big blind himself. -/
theorem Dealt.answered {t : TableSink} (ht : Dealt opt s t)
    (two : 2 ≤ chairs.countP fun i => (s.userItem i).isSome) (hc : t.wCurrentUser = some c) :
    ∃ n, Answered t.toHand c n := by
  have hpass : t.passCardCount ≤ 0 := ht.passCardCount.le
  rw [ht.wCurrentUser] at hc
  split_ifs at hc with hshow
  · -- the third chair is all in, and somebody else begins
    refine ⟨8, by decide, fun i _ hlt => ?_, by omega, s.third, ?_, .inl hshow⟩
    · have := placesBehind_lt c i
      simp only [gamePlayer] at this
      omega
    · rw [ht.playStatus]
      exact seats_third two
  · cases hc
    -- nobody sits between the big blind and the third chair
    obtain ⟨-, hne, hbetween⟩ := nextPlaying_spec (s := { s with playStatus := s.seats })
      (exists_other_seat two s.big)
    have hne' : s.third ≠ s.big := hne
    have hpos : placesBehind s.big s.third ≠ 0 := fun h => hne' (placesBehind_eq_zero.1 h)
    have hlt := placesBehind_lt s.big s.third
    have hself : placesBehind s.big s.big = 0 := placesBehind_eq_zero.2 rfl
    have hplace : ∀ i, placesBehind s.big i < placesBehind s.big s.third →
        placesBehind s.third i = placesBehind s.big i + gamePlayer - placesBehind s.big s.third := by
      intro i hi
      have := placesBehind_next_of_lt hi hlt
      rwa [chairBehind_placesBehind] at this
    have hplace' : ∀ i, placesBehind s.big s.third ≤ placesBehind s.big i →
        placesBehind s.third i = placesBehind s.big i - placesBehind s.big s.third := by
      intro i hi
      have := placesBehind_next_of_le hi
      rwa [chairBehind_placesBehind] at this
    refine ⟨8 - placesBehind s.big s.third, by simp only [gamePlayer]; omega, fun i hi hi' => ?_, by omega,
      s.big, ?_, .inr ?_⟩
    · have hseat : s.seats i = true := by
        have : (t.playStatus i && !t.showHand i) = true := hi
        rw [Bool.and_eq_true, ht.playStatus] at this
        exact this.1
      have hbig : i = s.big := by
        by_contra hib
        by_cases hle : placesBehind s.big s.third ≤ placesBehind s.big i
        · have := placesBehind_lt s.big i
          rw [hplace' i hle] at hi'
          simp only [gamePlayer] at *
          omega
        · have hempty : s.seats i = false := hbetween i hib (not_le.1 hle)
          rw [hseat] at hempty
          cases hempty
      rw [hbig]
      exact ht.balanceScore.symm
    · rw [ht.playStatus]
      exact seats_big two
    · rw [hplace s.big (by omega), hself]
      simp only [gamePlayer] at *
      omega

theorem Dealt.betting {t : TableSink} (ht : Dealt opt s t) (hfit : FitStart opt s)
    (two : 2 ≤ chairs.countP fun i => (s.userItem i).isSome)
    (hbig : ∀ i, s.seats i = true →
      min (post opt s i) (s.brings i) ≤ min (post opt s s.big) (s.brings s.big)) :
    Betting t.toHand := by
  have hchips := ht.chips hfit
  have htable : ∀ i, s.seats i = true → t.tableScore i = min (post opt s i) (s.brings i) :=
    fun i hi => by rw [ht.tableScore, if_pos hi]
  have hcan : ∀ c, t.wCurrentUser = some c → t.canBet c = true := by
    intro c hc
    rw [ht.wCurrentUser] at hc
    split_ifs at hc with hshow
    · exact List.find?_some hc
    · cases hc
      rw [Hand.canBet, ht.playStatus, seats_third two]
      simpa using hshow
  have hless : ∀ c, t.wCurrentUser = some c → t.turnLessScore = t.balanceScore - t.tableScore c := by
    intro c hc
    rw [ht.turnLessScore, hc, Option.map_some, Option.getD_some, ht.totalScore]
  exact
    { le := fun i => by
        rw [ht.balanceScore, htable s.big (seats_big two)]
        cases hi : s.seats i with
        | false =>
          rw [ht.tableScore, hi, if_neg Bool.false_ne_true]
          have := hfit.post s.big
          have := hfit.blind s.big
          have := hfit.ante
          have := hfit.brings s.big
          have : post opt s s.big = blind opt s s.big + setScore opt 3 := rfl
          omega
        | true =>
          rw [htable i hi]
          exact hbig i hi
      balance_lt := by
        have := hchips.table_le s.big
        have := hchips.total_lt s.big
        rw [ht.balanceScore]
        omega
      less_le := by
        rw [ht.turnLessScore]
        cases t.wCurrentUser with
        | none => exact (sub_zero _).le
        | some c =>
          have := hchips.table_nonneg c
          have := hchips.table_le c
          rw [Option.map_some, Option.getD_some]
          omega
      less_le_current := fun c hc => (hless c hc).le
      less_ge := fun c hc _ => .inl (by rw [hless c hc]; exact le_max_right _ _)
      allIn := fun i hplay hshow => by
        rw [ht.playStatus] at hplay
        rw [ht.showHand, hplay, Bool.true_and, decide_eq_true_eq] at hshow
        rw [ht.userMaxScore, ht.totalScore, htable i hplay, min_eq_right hshow]
      turn := .inr fun c hc => ⟨hcan c hc, ht.answered two hc⟩ }

theorem canBet_outOf_of_ne {i : Chair} (hi : i ≠ chair) : (s.outOf chair).canBet i = s.canBet i := by
  have hplay : (s.outOf chair).playStatus i = s.playStatus i := Function.update_of_ne hi _ _
  have hshow : (s.outOf chair).showHand i = s.showHand i := Function.update_of_ne hi _ _
  rw [Hand.canBet, Hand.canBet, hplay, hshow]

theorem canBet_outOf_self : (s.outOf chair).canBet chair = false := by
  rw [Hand.canBet, outOf_playStatus, Bool.false_and]

theorem outOf_type_cases (s : TableSink) (chair : Chair) :
    (s.outOf chair).chipTypeID = .giveUp ∨
      (s.outOf chair).chipTypeID = .over ∧ (s.outOf chair).playCount < 2 := by
  have hcount : (s.outOf chair).chipTypeID =
      if (s.outOf chair).playCount ≥ 2 then .giveUp else .over := rfl
  rw [hcount]
  split_ifs with h
  · exact .inl rfl
  · exact .inr ⟨rfl, by omega⟩

/-- A fold answers: who is out has nothing to match. -/
theorem answers_outOf (hb : Betting s.toHand) (hcur : s.wCurrentUser = some chair) :
    Answers (s.outOf chair) chair 0 where
  le := hb.le
  turn := by
    rcases hb.turn with hall | hturn
    · exact .inl fun i hi hcan => hall i (canBet_outOf_of_ne hi ▸ hcan)
    · obtain ⟨hcan, t, ht⟩ := hturn chair hcur
      refine .inr ⟨.inr ((outOf_type_cases s chair).imp_right And.left), t, ht.lt,
        fun i hcan hlt => ?_, ?_, ?_⟩
      · exact ht.matched i (canBet_outOf_of_ne (ne_of_placesBehind hlt) ▸ hcan) hlt
      · refine ht.passed.trans (card_le_card fun i hi => ?_)
        simp only [mem_filter, mem_univ, true_and] at hi ⊢
        exact ⟨(canBet_outOf_of_ne (ne_of_placesBehind hi.2)).trans hi.1, hi.2⟩
      · obtain ⟨j, hplay, hj⟩ := ht.top
        have hne : j ≠ chair := by
          rintro rfl
          have hshow : s.playStatus j = true ∧ s.showHand j = false := by
            simpa [Hand.canBet] using hcan
          rw [hshow.2, placesBehind_eq_zero.2 rfl] at hj
          rcases hj with h | h
          · cases h
          · omega
        exact ⟨j, (Function.update_of_ne hne _ _).trans hplay,
          hj.imp_left (Function.update_of_ne hne _ _).trans⟩
  covers h := by
    rw [canBet_outOf_self] at h
    cases h
  plays := .inr rfl
  raises := .inl ((add_zero _).trans_le (hb.le chair))
  ends h := by
    rcases outOf_type_cases s chair with h' | ⟨-, hfew⟩
    · rw [h] at h'
      cases h'
    · exact .inr (.inr hfew)

/-- The fold of a player in the hand is never refused. -/
theorem not_refused_outOf (hs : Chips ante s.toHand) (hplay : s.playStatus chair = true) :
    0 ≤ (s.outOf chair).chipIn chair 0 ∧ (s.outOf chair).chipIn chair 0 ≤ s.userTakeGold chair := by
  have htotal := hs.total_le chair hplay
  have hgold := hs.gold_nonneg chair hplay
  have := hs.total_lt chair
  have := hs.table_nonneg chair
  have := hs.table_le chair
  have hzero : (s.outOf chair).chipIn chair 0 = 0 := by
    obtain ⟨h₁, h₂⟩ := outOf_type s chair
    have htot : (s.outOf chair).totalScore chair = s.totalScore chair := rfl
    have hmax : (s.outOf chair).userMaxScore chair = s.userMaxScore chair := rfl
    rw [TableSink.chipIn, askedScore, if_neg h₁, if_neg h₂, zero_add, htot, hmax,
      int32_of_range (by omega) (by omega), if_neg (by omega)]
  omega

theorem Folds.betting (hf : Folds s chair s' out) (hs : Chips ante s.toHand)
    (hb : Betting s.toHand) : Betting s'.toHand ∧ ∀ o ∈ out, Matched o := by
  obtain ⟨s₁, hcase, rfl⟩ := hf.after
  have hout : ∀ i, (s.outOf chair).playStatus i = true → s.playStatus i = true ∧ i ≠ chair := by
    intro i hi
    by_cases h : i = chair
    · rw [h, outOf_playStatus] at hi
      cases hi
    · exact ⟨(Function.update_of_ne h _ _).symm.trans hi, h⟩
  have hallIn : ∀ i, (s.outOf chair).playStatus i = true → (s.outOf chair).showHand i = true →
      s.userMaxScore i ≤ s.totalScore i := fun i hplay hshow =>
    hb.allIn i (hout i hplay).1 ((Function.update_of_ne (hout i hplay).2 _ _).symm.trans hshow)
  have hkey : Betting s₁.toHand ∧ ∀ o ∈ out, Matched o := by
    rcases hcase with ⟨l, hbets⟩ | ⟨rfl, rfl, hno⟩
    · obtain ⟨rfl, hst⟩ := hbets.stake_zero (chips_outOf hs) (outOf_type s chair)
      exact (answers_outOf hb hf.current).betting (chips_outOf hs) hst
        (placed_bet (chips_outOf hs) hst) hb.balance_lt hallIn hbets.after
    · -- only who is out already is refused, and then nobody has anything to match
      have hplay : s.playStatus chair = false := by
        rw [← Bool.not_eq_true]
        exact fun h => hno (not_refused_outOf hs h)
      refine ⟨?_, nofun⟩
      exact
        { le := hb.le
          balance_lt := hb.balance_lt
          less_le := hb.less_le
          less_le_current := hb.less_le_current
          less_ge := fun c hc hc' => hb.less_ge c hc (hout c hc').1
          allIn := hallIn
          turn := by
            rcases hb.turn with hall | hturn
            · refine .inl fun i hi => ?_
              by_cases hic : i = chair
              · rw [hic, canBet_outOf_self] at hi
                cases hi
              · exact hall i (canBet_outOf_of_ne hic ▸ hi)
            · have := (hturn chair hf.current).1
              rw [Hand.canBet, hplay] at this
              cases this }
  refine ⟨?_, hkey.2⟩
  split_ifs
  · exact hkey.1
  · exact hkey.1

theorem answers_honest {type : ChipType} (hb : Betting s.toHand) (hcur : s.wCurrentUser = some c)
    (hplay : s.playStatus c = true) (hl : 0 ≤ l)
    (h : Honest { s with chipTypeID := type } c l) : Answers { s with chipTypeID := type } c l where
  le := hb.le
  turn := by
    rcases hb.turn with hall | hturn
    · exact .inl fun i _ hcan => hall i hcan
    · obtain ⟨hcan, t, ht⟩ := hturn c hcur
      exact .inr ⟨.inl hcan, t, ht⟩
  covers _ := by
    rcases h.covers with hall | hless
    · exact .inl hall
    · rcases hb.less_ge c hcur hplay with h' | h'
      · refine .inr ?_
        have : s.turnLessScore ≤ l := hless
        dsimp only
        omega
      · refine .inl (.inl ?_)
        have : s.turnLessScore ≤ l := hless
        dsimp only
        omega
  plays := .inl hplay
  raises := by
    rcases h.raises with hall | hless | htype
    · exact .inr (.inl hall)
    · have := hb.less_le_current c hcur
      have := hb.le c
      have : l ≤ max 0 s.turnLessScore := hless
      refine .inl ?_
      dsimp only
      omega
    · exact .inr (.inr htype)
  ends hover := (h.ends hover).imp_right .inl

/-- A pass on the clock is honest: it is made for who has nothing to match. -/
theorem answers_pass (hb : Betting s.toHand) (hcur : s.wCurrentUser = some c)
    (hfree : s.turnLessScore = 0) :
    Answers { s.killGameTimer .game with chipTypeID := .pass } c 0 where
  le := hb.le
  turn := by
    rcases hb.turn with hall | hturn
    · exact .inl fun i _ hcan => hall i hcan
    · obtain ⟨hcan, t, ht⟩ := hturn c hcur
      exact .inr ⟨.inl hcan, t, ht⟩
  covers hcan := by
    have hplay : s.playStatus c = true := by
      have : (s.playStatus c && !s.showHand c) = true := hcan
      rw [Bool.and_eq_true] at this
      exact this.1
    have := hb.less_ge c hcur hplay
    rw [hfree, max_self] at this
    rcases this with h | h
    · exact .inr (by dsimp only [killGameTimer]; omega)
    · exact .inl (.inl (by dsimp only [killGameTimer]; omega))
  plays := .inr rfl
  raises := .inl ((add_zero _).trans_le (hb.le c))
  ends := nofun

/-- **Every orderly event keeps the betting in order**, and what it shows is
matched. -/
theorem step_keeps_betting (hs : Sound opt s) (hb : Betting s.toHand) (hfits : Fits opt s e)
    (horder : Orderly opt s e) (h : step opt s e = some (s', out)) :
    Betting s'.toHand ∧ ∀ o ∈ out, Matched o := by
  cases step_change h with
  | quiet hand _ _ _ => exact ⟨hand ▸ hb, nofun⟩
  | start idle two =>
    exact ⟨(dealt_startGame (hfits idle two) idle two _).betting (hfits idle two) two
      (horder idle two), nofun⟩
  | @bet chair lScore type l _ _ _ play bets =>
    have hchips : Chips (setScore opt 3) { s with chipTypeID := type }.toHand := hs.chips
    have hstake := bets.stake hchips play
    have hcur : s.wCurrentUser = some chair := bets.current
    have hhonest : Honest { s with chipTypeID := type } chair l := by
      have := horder hcur
      rw [bets.chipIn] at this
      exact this bets.nonneg bets.gold
    exact (answers_honest hb hcur play bets.nonneg hhonest).betting hchips hstake
      (placed_bet hchips hstake) hb.balance_lt hb.allIn bets.after
  | @pass chair l _ _ free bets =>
    have hchips : Chips (setScore opt 3)
        { s.killGameTimer .game with chipTypeID := .pass }.toHand := hs.chips
    obtain ⟨rfl, hstake⟩ := bets.stake_zero hchips ⟨nofun, nofun⟩
    exact (answers_pass hb bets.current free).betting hchips hstake (placed_bet hchips hstake)
      hb.balance_lt hb.allIn bets.after
  | fold hand _ folds =>
    rcases hand with rfl | rfl
    · exact folds.betting hs.chips hb
    · exact folds.betting hs.chips hb
  | leave seated =>
    rcases seated with ⟨rfl, rfl, -⟩ | folds
    · exact ⟨hb, nofun⟩
    · exact folds.betting hs.chips hb
  | @sit chair userScore _ _ =>
    have hplay : s.playStatus chair = false := hfits.2
    have hne := ne_of_play (h := s.toHand) hplay
    refine ⟨hb.of_gold (fun c hc hc' => ?_) fun i hi hi' => ?_, nofun⟩
    · rw [Function.update_of_ne (hne c hc')]
      exact hb.less_ge c hc hc'
    · rw [Function.update_of_ne (hne i hi)]
      exact hb.allIn i hi hi'
  | @take chair lookon lAddTake u user free =>
    obtain ⟨hand, -⟩ := onUserAddTakeGold_kept opt s chair u.trusteeScore (int32 lAddTake)
    have hmax := userMaxScore_onUserAddTakeGold opt s chair u.trusteeScore (int32 lAddTake)
    rw [hand]
    refine ⟨hb.of_gold (fun c hc hc' => ?_) fun i hi hi' => ?_, nofun⟩
    · by_cases hcc : c = chair
      · subst hcc
        exact .inl ((horder free hc').2 hc)
      · rw [hmax c hcc]
        exact hb.less_ge c hc hc'
    · by_cases hic : i = chair
      · subst hic
        rw [(horder free hi).1] at hi'
        cases hi'
      · rw [hmax i hic]
        exact hb.allIn i hi hi'
  | deal hand _ _ _ =>
    have hzero : s.balanceScore = 0 := horder
    have htable : s.tableScore = fun _ => 0 := by
      funext i
      have := hb.le i
      have := hs.chips.table_nonneg i
      omega
    have hless := hb.less_le
    rw [hzero] at hless
    refine ⟨?_, nofun⟩
    rw [hand]
    exact
      { le := fun i => hzero.ge
        balance_lt := hb.balance_lt
        less_le := hb.less_le
        less_le_current := fun c _ => by
          dsimp only
          omega
        less_ge := fun c _ _ => .inl (by dsimp only; omega)
        allIn := hb.allIn
        turn := .inl fun i _ => hzero.symm }
  | normal _ notOver concludes concluded =>
    refine ⟨((concluded.sound hs).idle concluded.gameStarted).betting, ?_⟩
    rw [concludeNormal_writes concludes notOver]
    exact matched_writeScores
  | noPlayer _ writes concluded =>
    refine ⟨((concluded.sound hs).idle concluded.gameStarted).betting, ?_⟩
    rw [writes, concludeNoPlayer_writes]
    split_ifs
    · exact nofun
    · exact matched_writeScores
  | reset concluded => exact ⟨((concluded.sound hs).idle concluded.gameStarted).betting, nofun⟩

/-- **Every round ends with the bets matched**, and nobody stays in with less
than the bet he faces, in every run of orderly events. -/
theorem run_keeps_matched {es : List TableEvent} {r : TableSink × List Output}
    (hes : Machine.Along (step opt) (fun s e => Fits opt s e ∧ Orderly opt s e) {} es)
    (h : Machine.run (step opt) {} es = some r) : ∀ o ∈ r.2, Matched o := by
  have hinit : Betting ({} : TableSink).toHand := Idle.betting rfl
  refine (Machine.inv_run_traced
    (P := fun s (history : List Output) => (Sound opt s ∧ Betting s.toHand) ∧ ∀ o ∈ history, Matched o)
    (fun s history e s' out hinv hok hstep => ?_) es {} [] r ⟨⟨sound_init opt, hinit⟩, nofun⟩ hes h).2
  obtain ⟨⟨hs, hb⟩, hout⟩ := hinv
  obtain ⟨hb', hout'⟩ := step_keeps_betting hs hb hok.1 hok.2 hstep
  refine ⟨⟨step_keeps_sound hs hok.1 hstep, hb'⟩, fun o ho => ?_⟩
  rcases List.mem_append.1 ho with ho | ho
  · exact hout o ho
  · exact hout' o ho

def smallTable : ServiceOption where
  cellScore := 10
  setDJPK := ![5, 10, 10, 0]
  revenueRatio := 50
  lowPutScore := 0
  defPutScore := 1000

def someCards : HandCards where
  hand _ := (0x01, 0x11)
  center := [0x0D, 0x1B, 0x29, 0x08, 0x02]
  center_length := center_length_king
  center_ne := center_ne_king
  hand_ne := by decide

/-- Two players sit down with a hundred chips each, and the hand begins. -/
def headsUp : List TableEvent :=
  [.sitDown 0 100 100, .sitDown 1 100 100, .startGame someCards]

/-- The small blind calls, the big blind checks, and the round is over. -/
theorem run_keeps_matched_headsUp : ∃ r,
    Machine.run (step smallTable) {} (headsUp ++ [.addScore 1 0 .gen, .addScore 0 0 .pass]) = some r ∧
      r.1.balanceCount = 1 ∧ r.2.length = 3 ∧ ∀ o ∈ r.2, Matched o := by
  have hrun : (Machine.run (step smallTable) {}
      (headsUp ++ [.addScore 1 0 .gen, .addScore 0 0 .pass])).map
        (fun r => (r.1.balanceCount, r.2.length)) = some (1, 3) := by decide +kernel
  obtain ⟨r, hr, heq⟩ := Option.map_eq_some_iff.1 hrun
  obtain ⟨h₁, h₂⟩ := Prod.mk.inj heq
  exact ⟨r, hr, h₁, h₂, run_keeps_matched (by decide +kernel) hr⟩

/-- **Two passes end a round that nobody has matched.** The small blind
faces five chips and passes, and so does the big blind. -/
theorem passes_end_round : ∃ r,
    Machine.run (step smallTable) {} (headsUp ++ [.addScore 1 0 .pass, .addScore 0 0 .pass]) = some r ∧
      r.1.balanceCount = 1 ∧ ¬ ∀ o ∈ r.2, Matched o := by
  have hrun : (Machine.run (step smallTable) {}
      (headsUp ++ [.addScore 1 0 .pass, .addScore 0 0 .pass])).map
        (fun r => (r.1.balanceCount, decide (∀ o ∈ r.2, Matched o))) = some (1, false) := by
    decide +kernel
  obtain ⟨r, hr, heq⟩ := Option.map_eq_some_iff.1 hrun
  obtain ⟨h₁, h₂⟩ := Prod.mk.inj heq
  exact ⟨r, hr, h₁, by simpa using h₂⟩

end TableSink

end GameServer.TexasHoldem
