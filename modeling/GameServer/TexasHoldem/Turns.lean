import GameServer.TexasHoldem.Betting
/-!
# Texas hold'em — whose turn it is

While a betting round is open it is the turn of a player who is at the
table, in the hand and not all in (`OnTurn`), and what a player has left
and what he has in make up what he has brought. The first player of a
hand is looked for at a few of the chairs only, the search for the next
one ends at a chair in any case, and a player who leaves keeps his place
in the hand unless it is his turn; where these matter, an event is not
`TurnSafe`. All others keep the turns in order (`run_keeps_turns`).
-/

namespace GameServer.TexasHoldem

open Finset

namespace TableSink

variable {opt : ServiceOption} {s s' q p : TableSink} {c chair : Chair} {l lScore ante : ℤ}
  {out : List Output} {e : TableEvent}

/-- A round is closed with nothing bet since, and the next card or the end
of the hand is waited for. -/
def Waiting (s : TableSink) : Prop :=
  s.balanceScore = 0 ∧ (.addBuffer ∈ s.timers ∧ s.operaCount = 0 ∨
    .normalEnd ∈ s.timers ∧ #{i | s.canBet i = true} ≤ 1)

/-- A hand is running and a betting round is open. -/
def Open (s : TableSink) : Prop := s.gameStarted = true ∧ s.gameOver = false ∧ ¬ s.Waiting

instance : Decidable s.Waiting := inferInstanceAs (Decidable (_ ∧ (_ ∨ _)))

instance : Decidable s.Open := inferInstanceAs (Decidable (_ ∧ _ ∧ _))

/-- It is the turn of a chair whose player is there and has chips to bet. -/
def OnTurn (s : TableSink) (c : Chair) : Prop :=
  s.wCurrentUser = some c ∧ s.inGame c = true ∧ s.playStatus c = true ∧ s.showHand c = false ∧
    s.totalScore c < s.userMaxScore c

instance : Decidable (s.OnTurn c) := inferInstanceAs (Decidable (_ ∧ _))

/-- **What the chairs of a hand keep.** -/
structure Stacks (s : TableSink) : Prop where
  gold : ∀ i, s.playStatus i = true → s.userTakeGold i + s.totalScore i = s.userMaxScore i
  chips : ∀ i, s.canBet i = true → s.totalScore i < s.userMaxScore i
  allIn : ∀ i, s.showHand i = true → s.playStatus i = true
  seated : s.gameOver = false → ∀ i, s.canBet i = true → s.inGame i = true

/-- The turn is a player's who can bet, while a round is open. -/
def Turn (s : TableSink) : Prop := s.Open → ∃ c, s.wCurrentUser = some c ∧ s.canBet c = true

theorem Stacks.onTurn (hs : Stacks s) (ht : Turn s) (h : s.Open) : ∃ c, s.OnTurn c := by
  obtain ⟨c, hcur, hcan⟩ := ht h
  have hplay : s.playStatus c = true ∧ s.showHand c = false := by
    simpa [Hand.canBet] using hcan
  exact ⟨c, hcur, hs.seated h.2.1 c hcan, hplay.1, hplay.2, hs.chips c hcan⟩

theorem Waiting.of_kept (h : s.Waiting) (balance : s'.balanceScore = 0)
    (opera : s'.operaCount = 0 ∨ s'.operaCount = s.operaCount)
    (timers : ∀ t, t = .addBuffer ∨ t = .normalEnd → t ∈ s.timers → t ∈ s'.timers)
    (can : ∀ i, s'.canBet i = true → s.canBet i = true) : s'.Waiting := by
  refine ⟨balance, h.2.imp (fun ⟨hmem, hzero⟩ => ⟨timers _ (.inl rfl) hmem, by omega⟩)
    fun ⟨hmem, hcard⟩ => ⟨timers _ (.inr rfl) hmem, (card_le_card fun i hi => ?_).trans hcard⟩⟩
  simp only [mem_filter, mem_univ, true_and] at hi ⊢
  exact can i hi

/-! ## A bet -/

/-- A bet keeps the stacks, unless it makes a chair all in that is out. -/
theorem Stacks.bet (ht : Stacks q) (hs : Chips ante q.toHand) (hst : Stake q c l)
    (hplay : q.goesAllIn c l → q.playStatus c = true)
    (h : (q.bet c l).afterBet c l = (s', out)) : Stacks s' := by
  have hp := placed_bet hs hst
  obtain ⟨huser, hkept, hplay', hshow, htotal, hgold, hmax⟩ := afterBet_table h
  obtain ⟨huser', -, -, hkept'⟩ := bet_table q c l
  have hcan : ∀ i, s'.canBet i = (q.bet c l).canBet i := fun i => by
    rw [Hand.canBet, Hand.canBet, hplay', hshow]
  have hcan' : ∀ i, s'.canBet i = true → q.canBet i = true ∧ (i = c → ¬ q.goesAllIn c l) := by
    intro i hi
    rw [hcan] at hi
    by_cases hic : i = c
    · subst hic
      rw [hp.canBet_self, Bool.and_eq_true, Bool.not_eq_true', decide_eq_false_iff_not] at hi
      exact ⟨hi.1, fun _ => hi.2⟩
    · rw [hp.canBet_of_ne hic] at hi
      exact ⟨hi, fun h => absurd h hic⟩
  constructor
  · intro i hi
    rw [hplay', hp.playStatus] at hi
    have := ht.gold i hi
    rw [hgold, hp.userTakeGold, htotal, hp.totalScore, hmax, hp.userMaxScore]
    by_cases hic : i = c
    · subst hic
      have := hst.nonneg
      have := hst.gold hi
      have := hs.gold_le i hi
      have := hs.max_add_lt i hi
      have := hs.table_nonneg i
      have := hs.table_le i
      rw [Function.update_self, Function.update_self]
      split_ifs
      · exact zero_add _
      · rw [int32_of_range (by omega) (by omega)]
        omega
    · rwa [Function.update_of_ne hic, Function.update_of_ne hic]
  · intro i hi
    obtain ⟨hq, hnot⟩ := hcan' i hi
    have := ht.chips i hq
    rw [htotal, hp.totalScore, hmax, hp.userMaxScore]
    by_cases hic : i = c
    · have hall : ¬ q.goesAllIn c l := hnot hic
      have hlt := mt Or.inl hall
      rw [hic, Function.update_self, if_neg hall]
      exact not_le.1 hlt
    · rwa [Function.update_of_ne hic]
  · intro i hi
    rw [hshow, hp.showHand] at hi
    rw [hplay', hp.playStatus]
    by_cases hic : i = c
    · subst hic
      rw [Function.update_self, Bool.or_eq_true, decide_eq_true_eq] at hi
      exact hi.elim (ht.allIn i) hplay
    · rw [Function.update_of_ne hic] at hi
      exact ht.allIn i hi
  · intro hov i hi
    have := ht.seated (hkept'.gameOver.symm.trans (hkept.gameOver.symm.trans hov)) i (hcan' i hi).1
    rwa [inGame, hasStatus, hasStatus, huser, huser']

/-- The round ends, and with a pause. -/
def Closes (p : TableSink) (c : Chair) (l : ℤ) : Prop :=
  (p.countBet c l).finishTurn (chairBehind c (p.nextHops c)) = true ∧
    (p.countBet c l).chipTypeID ≠ .over

/-- **After a bet** the turn is a player's who can bet, if there is another
one or the round ends. -/
theorem turn_bet (hs : Chips ante q.toHand) (hst : Stake q c l) (hcur : q.wCurrentUser = some c)
    (hturn : q.chipTypeID = .over → q.Open → q.canBet c = true)
    (hnext : (∃ i, i ≠ c ∧ q.canBet i = true) ∨ Closes (q.bet c l) c l)
    (h : (q.bet c l).afterBet c l = (s', out)) : Turn s' := by
  have hp := placed_bet hs hst
  intro hopen
  obtain ⟨hstart, hover⟩ := afterBet_started h
  obtain ⟨-, hcur', htimers, hkept'⟩ := bet_table q c l
  rcases afterBet_cases h with ⟨-, rfl, -⟩ | ⟨hgo, rfl, -⟩
  · have hand := closeRound_hand ((q.bet c l).countBet c l)
    obtain ⟨-, hkept, hpause, -⟩ := closeRound_table ((q.bet c l).countBet c l)
    have hzero : ((q.bet c l).countBet c l).closeRound.balanceScore = 0 ∧
        ((q.bet c l).countBet c l).closeRound.operaCount = 0 := by
      rw [hand]
      exact ⟨rfl, rfl⟩
    have htype : ((q.bet c l).countBet c l).chipTypeID = .over := by
      by_contra hne
      exact hopen.2.2 ⟨hzero.1, .inl ⟨hpause hne, hzero.2⟩⟩
    obtain ⟨hq, hnot⟩ := countBet_over hp htype
    have hcan : ∀ i, ((q.bet c l).countBet c l).closeRound.canBet i = (q.bet c l).canBet i := by
      intro i
      rw [hand]
      rfl
    -- nothing is waited for, so the round was open before
    have hq' : q.Open := by
      refine ⟨hkept'.gameStarted.symm.trans (hstart.symm.trans hopen.1),
        hkept'.gameOver.symm.trans (hover.symm.trans hopen.2.1), fun hwait => hopen.2.2 ?_⟩
      refine hwait.of_kept hzero.1 (.inl hzero.2) (fun t ht hmem => hkept t ?_) fun i hi => ?_
      · have : t ∈ (q.bet c l).timers := by
          rw [htimers, mem_killGameTimer]
          exact ⟨hmem, by rcases ht with rfl | rfl <;> decide⟩
        exact this
      · rw [hcan] at hi
        by_cases hic : i = c
        · subst hic
          rw [hp.canBet_self, Bool.and_eq_true] at hi
          exact hi.1
        · rwa [hp.canBet_of_ne hic] at hi
    refine ⟨c, ?_, ?_⟩
    · rw [hand]
      exact hcur'.trans hcur
    · rw [hcan, hp.canBet_self, hturn hq hq', Bool.true_and, Bool.not_eq_true',
        decide_eq_false_iff_not]
      exact hnot
  · refine ⟨_, rfl, ?_⟩
    have hother : ∃ i, i ≠ c ∧ q.canBet i = true := by
      refine hnext.resolve_right fun hclose => ?_
      rw [hclose.1] at hgo
      cases hgo
    obtain ⟨i, hic, hi⟩ := hother
    obtain ⟨-, -, hcan | hnone, -⟩ := nextHops_spec (q.bet c l) c
    · exact hcan
    · have := hnone i hic
      rw [hp.canBet_of_ne hic, hi] at this
      cases this

/-- A bet that ends the round when nobody else can bet: a pass, or with a
bet to answer a call or all the player has. The counter of moves has to
have been counted on, and not to wrap around. -/
def Settles (q : TableSink) (c : Chair) (l : ℤ) : Prop :=
  ¬ q.goesAllIn c l ∧ (q.chipTypeID = .pass ∨ (q.chipTypeID = .add ∨ q.chipTypeID = .gen) ∧ l = 0) ∨
    (1 ≤ q.operaCount ∧ q.operaCount + 8 < 2 ^ 16) ∧ 0 < max q.balanceScore (q.tableScore c + l) ∧
      (q.goesAllIn c l ∨ q.balanceScore ≤ q.tableScore c + l ∧ q.chipTypeID ≠ .over)

instance : Decidable (Settles q c l) := inferInstanceAs (Decidable (_ ∧ (_ ∨ _) ∨ _ ∧ _ ∧ (_ ∨ _)))

theorem Placed.alone (hp : Placed q c l p) (hlone : ∀ i, i ≠ c → q.canBet i = false) (i : Chair)
    (hi : p.canBet i = true) : i = c ∧ ¬ q.goesAllIn c l := by
  by_cases hic : i = c
  · subst hic
    rw [hp.canBet_self, Bool.and_eq_true, Bool.not_eq_true', decide_eq_false_iff_not] at hi
    exact ⟨rfl, hi.2⟩
  · rw [hp.canBet_of_ne hic, hlone i hic] at hi
    cases hi

theorem Settles.closes (hq : Settles q c l) (hp : Placed q c l p)
    (hlone : ∀ i, i ≠ c → q.canBet i = false) : Closes p c l := by
  have htype := hp.chipTypeID
  have hcard : #{i | p.canBet i = true} ≤ 1 := by
    refine card_le_one.2 fun i hi j hj => ?_
    rw [(hp.alone hlone i (mem_filter.1 hi).2).1, (hp.alone hlone j (mem_filter.1 hj).2).1]
  have hplay := p.playCount_eq
  rcases hq with ⟨hnot, hpass⟩ | ⟨⟨hopera, hwrap⟩, hpos, hall⟩
  · rw [if_neg hnot] at htype
    have htype' : (p.countBet c l).chipTypeID = .pass := by
      simp only [countBet, htype]
      rcases hpass with h | ⟨h, hl⟩
      · rw [h, if_neg (by simp)]
      · rw [if_pos ⟨h, hl⟩]
    have hcount : (p.countBet c l).passCardCount = p.passCardCount + 1 := by
      have hdef : (p.countBet c l).passCardCount =
          if (p.countBet c l).chipTypeID = .pass then p.passCardCount + 1
          else if (p.countBet c l).chipTypeID = .giveUp then p.passCardCount else 0 := rfl
      rw [hdef, if_pos htype']
    have hcount' : (p.countBet c l).playCount = p.playCount := rfl
    have hshow : (p.countBet c l).showCount = p.showCount := rfl
    refine ⟨?_, by rw [htype']; decide⟩
    simp only [finishTurn, Bool.or_eq_true, decide_eq_true_eq]
    exact .inl (.inl (.inr ⟨.inl htype', by omega⟩))
  · have hothers : ∀ i, i ≠ c → p.canBet i = false := fun i hi => by
      rw [hp.canBet_of_ne hi, hlone i hi]
    have hnine : (p.countBet c l).operaCount ≥ gamePlayer := by
      have hdef : (p.countBet c l).operaCount = word (p.operaCount + p.nextHops c) := rfl
      rw [hdef, nextHops_eq_of_none hothers, hp.operaCount, word, gamePlayer]
      omega
    have hbalance : (p.countBet c l).balanceScore > 0 := hp.balanceScore.symm ▸ hpos
    refine ⟨?_, fun h => ?_⟩
    · simp only [finishTurn, Bool.or_eq_true, Bool.and_eq_true, decide_eq_true_eq, List.all_eq_true]
      refine .inl (.inl (.inl ⟨⟨hnine, hbalance⟩, fun i _ => ?_⟩))
      rw [Bool.not_eq_true', Bool.and_eq_false_iff, decide_eq_false_iff_not]
      by_cases hi : p.canBet i = true
      · obtain ⟨rfl, hnot⟩ := hp.alone hlone i hi
        have hcall := (hall.resolve_left hnot).1
        have htable : (p.countBet i l).tableScore i = q.tableScore i + l := by
          have : (p.countBet i l).tableScore = p.tableScore := rfl
          rw [this, hp.tableScore, Function.update_self]
        have hbal : (p.countBet i l).balanceScore = max q.balanceScore (q.tableScore i + l) :=
          hp.balanceScore
        exact .inr (by omega)
      · have hsame : (p.countBet c l).canBet i = p.canBet i := rfl
        exact .inl (by simpa [hsame] using hi)
    · obtain ⟨hover, hnot⟩ := countBet_over hp h
      exact (hall.resolve_left hnot).2 hover

/-- A fold ends the round if nobody else can bet. -/
theorem closes_outOf (hp : Placed (s.outOf c) c 0 p) (htwo : (s.outOf c).playCount ≥ 2)
    (hnot : ¬ (s.outOf c).goesAllIn c 0) (hlone : ∀ i, i ≠ c → s.canBet i = false) :
    Closes p c 0 := by
  have htype : p.chipTypeID = .giveUp := by
    rw [hp.chipTypeID, if_neg hnot]
    exact if_pos htwo
  have hzero : #{i | p.canBet i = true} = 0 := by
    rw [card_eq_zero, filter_eq_empty_iff]
    intro i _ hi
    by_cases hic : i = c
    · rw [hic, hp.canBet_self, canBet_outOf_self] at hi
      cases hi
    · rw [hp.canBet_of_ne hic, canBet_outOf_of_ne hic, hlone i hic] at hi
      cases hi
  have hplay := p.playCount_eq
  have htype' : (p.countBet c 0).chipTypeID = .giveUp := by
    simp only [countBet, htype]
    decide
  have hcount : (p.countBet c 0).playCount = p.playCount := rfl
  have hshow : (p.countBet c 0).showCount = p.showCount := rfl
  refine ⟨?_, by rw [htype']; decide⟩
  simp only [finishTurn, Bool.or_eq_true, decide_eq_true_eq]
  exact .inl (.inl (.inr ⟨.inr htype', by omega⟩))

/-! ## A fold -/

theorem Stacks.outOf (ht : Stacks s) (chair : Chair) : Stacks (s.outOf chair) := by
  have hcan : ∀ i, (s.outOf chair).canBet i = true → i ≠ chair ∧ s.canBet i = true := by
    intro i hi
    by_cases hic : i = chair
    · rw [hic, canBet_outOf_self] at hi
      cases hi
    · exact ⟨hic, canBet_outOf_of_ne hic ▸ hi⟩
  have hplay : ∀ i, i ≠ chair → (s.outOf chair).playStatus i = s.playStatus i := fun i hi =>
    Function.update_of_ne hi _ _
  constructor
  · intro i hi
    by_cases hic : i = chair
    · rw [hic, outOf_playStatus] at hi
      cases hi
    · exact ht.gold i (hplay i hic ▸ hi)
  · exact fun i hi => ht.chips i (hcan i hi).2
  · intro i hi
    by_cases hic : i = chair
    · have : (s.outOf chair).showHand chair = false := Function.update_self ..
      rw [hic, this] at hi
      cases hi
    · rw [hplay i hic]
      exact ht.allIn i ((Function.update_of_ne hic _ _).symm.trans hi)
  · exact fun hov i hi => ht.seated hov i (hcan i hi).2

/-- **A fold keeps the turns in order**, of a player who is not all in. -/
theorem Folds.turns (hf : Folds s chair s' out) (hs : Chips ante s.toHand) (ht : Stacks s)
    (hturn : Turn s) (hless : s.totalScore chair < s.userMaxScore chair) :
    Stacks s' ∧ Turn s' ∧ s'.canBet chair = false := by
  obtain ⟨s₁, hcase, rfl⟩ := hf.after
  have hnot : ¬ (s.outOf chair).goesAllIn chair 0 := by
    rintro (h | h)
    · have h' : s.userMaxScore chair ≤ s.totalScore chair + 0 := h
      omega
    · exact (outOf_type s chair).2 h
  have hkey : Stacks s₁ ∧ ((s.outOf chair).playCount ≥ 2 → Turn s₁) ∧ s₁.canBet chair = false := by
    rcases hcase with ⟨l, hb⟩ | ⟨rfl, -, hno⟩
    · obtain ⟨rfl, hst⟩ := hb.stake_zero (chips_outOf hs) (outOf_type s chair)
      have hp := placed_bet (chips_outOf hs) hst
      refine ⟨(ht.outOf chair).bet (chips_outOf hs) hst (fun h => absurd h hnot) hb.after,
        fun htwo => turn_bet (chips_outOf hs) hst hb.current (fun hover => ?_) ?_ hb.after, ?_⟩
      · have htype : (s.outOf chair).chipTypeID = .giveUp := if_pos htwo
        rw [hover] at htype
        cases htype
      · by_cases hother : ∃ i, i ≠ chair ∧ s.canBet i = true
        · obtain ⟨i, hi, hcan⟩ := hother
          exact .inl ⟨i, hi, (canBet_outOf_of_ne hi).trans hcan⟩
        · exact .inr (closes_outOf hp htwo hnot (by simpa using hother))
      · obtain ⟨-, -, hplay, hshow, -⟩ := afterBet_table hb.after
        rw [Hand.canBet, hplay, hp.playStatus, outOf_playStatus, Bool.false_and]
    · -- who is refused was out already, so it was nobody's turn
      have hplay : s.playStatus chair = false := by
        rw [← Bool.not_eq_true]
        exact fun h => hno (not_refused_outOf hs h)
      refine ⟨ht.outOf chair, fun _ hopen => ?_, canBet_outOf_self⟩
      have hopen' : s.Open := by
        refine ⟨hopen.1, hopen.2.1, fun hwait => hopen.2.2 ?_⟩
        refine hwait.of_kept hwait.1 (.inr rfl) (fun t ht' hmem => ?_) fun i hi => ?_
        · exact mem_killGameTimer.2 ⟨hmem, by rcases ht' with rfl | rfl <;> decide⟩
        · by_cases hic : i = chair
          · rw [hic, canBet_outOf_self] at hi
            cases hi
          · exact canBet_outOf_of_ne hic ▸ hi
      obtain ⟨c, hcur, hcan⟩ := hturn hopen'
      rw [hf.current] at hcur
      cases hcur
      rw [Hand.canBet, hplay] at hcan
      cases hcan
  split_ifs with htwo
  · exact ⟨hkey.1, hkey.2.1 htwo, hkey.2.2⟩
  · refine ⟨⟨hkey.1.gold, hkey.1.chips, hkey.1.allIn, fun h => ?_⟩, fun h => ?_, hkey.2.2⟩
    · cases h
    · cases h.2.1

/-! ## The start -/

/-- A chair that has chips left when it has posted. -/
def stacked (opt : ServiceOption) (s : TableSink) (i : Chair) : Bool :=
  s.seats i && decide (post opt s i < s.brings i)

theorem Dealt.turns {t : TableSink} (hd : Dealt opt s t)
    (two : 2 ≤ chairs.countP fun i => (s.userItem i).isSome) (hante : setScore opt 3 = 0)
    (hfirst : ∃ k < gamePlayer, stacked opt s (chairBehind s.third (k * (k + 1) / 2)) = true) :
    Stacks t ∧ Turn t := by
  have hcan : ∀ i, t.canBet i = stacked opt s i := by
    intro i
    rw [Hand.canBet, hd.playStatus, hd.showHand, stacked]
    cases s.seats i with
    | false => rfl
    | true => simp only [Bool.true_and, ← decide_not, not_le]
  have htotal : ∀ i, s.seats i = true → t.totalScore i = min (post opt s i) (s.brings i) :=
    fun i hi => by rw [hd.totalScore, hd.tableScore, if_pos hi]
  have hpost : ∀ i, post opt s i = blind opt s i := fun i => by rw [post, hante, add_zero]
  refine ⟨⟨fun i hi => ?_, fun i hi => ?_, fun i hi => ?_, fun _ i hi => ?_⟩, fun _ => ?_⟩
  · rw [hd.playStatus] at hi
    rw [hd.userTakeGold i hi, hd.showHand, hi, Bool.true_and, htotal i hi, hpost, hd.userMaxScore]
    simp only [decide_eq_true_eq]
    split_ifs <;> omega
  · rw [hcan, stacked, Bool.and_eq_true, decide_eq_true_eq] at hi
    rw [htotal i hi.1, hd.userMaxScore]
    omega
  · rw [hd.showHand, Bool.and_eq_true] at hi
    rw [hd.playStatus]
    exact hi.1
  · rw [hcan, stacked, Bool.and_eq_true] at hi
    rw [hd.inGame]
    exact hi.1
  · obtain ⟨k, hk, hstack⟩ := hfirst
    rw [hd.wCurrentUser]
    split_ifs with hshow
    · -- the third chair is all in, so it is not the one that is found
      have hpos : k ≠ 0 := by
        rintro rfl
        have hzero : chairBehind s.third (0 * (0 + 1) / 2) = s.third := by
          ext
          simp only [chairBehind, Fin.ofNat, gamePlayer]
          omega
        rw [hzero, ← hcan, Hand.canBet, hshow, Bool.not_true, Bool.and_false] at hstack
        cases hstack
      obtain ⟨c, hc⟩ : ∃ c, (((List.range gamePlayer).drop 1).map fun i =>
          chairBehind s.third (i * (i + 1) / 2)).find? t.canBet = some c := by
        rw [← Option.isSome_iff_exists, List.find?_isSome]
        refine ⟨_, List.mem_map.2 ⟨k, ?_, rfl⟩, (hcan _).trans hstack⟩
        rw [List.mem_drop_iff_getElem]
        exact ⟨k - 1, by simp; omega, by simp; omega⟩
      exact ⟨c, hc, List.find?_some hc⟩
    · refine ⟨s.third, rfl, ?_⟩
      rw [Hand.canBet, hd.playStatus, seats_third two, Bool.true_and, Bool.not_eq_true',
        ← Bool.not_eq_true]
      exact hshow

/-! ## Every event -/

/-- **An event that keeps the turns in order.** A hand begins without an
ante, and a chair the first player is looked for at has chips; a bet
that nobody else can answer settles the round; who folds, or is timed
out, is not all in, unless he passes and there is another player; and
nobody leaves who can bet, unless it is his turn. -/
def TurnSafe (opt : ServiceOption) (s : TableSink) : TableEvent → Prop
  | .startGame _ => s.gameStarted = false →
      2 ≤ chairs.countP (fun i => (s.userItem i).isSome) → setScore opt 3 = 0 ∧
        ∃ k < gamePlayer, stacked opt s (chairBehind s.third (k * (k + 1) / 2)) = true
  | .addScore chair lScore type =>
      let q := { s with chipTypeID := type }
      let l := q.chipIn chair (int32 lScore)
      s.wCurrentUser = some chair → s.gameOver = false → 0 ≤ l → l ≤ s.userTakeGold chair →
        (∃ i, i ≠ chair ∧ s.canBet i = true) ∨ Settles q chair l
  | .giveUp chair => s.wCurrentUser = some chair → s.gameOver = false →
      s.playStatus chair = true → s.totalScore chair < s.userMaxScore chair
  | .timer .game => ∀ c, s.wCurrentUser = some c → s.gameOver = false →
      s.totalScore c < s.userMaxScore c ∨
        s.turnLessScore = 0 ∧ s.playStatus c = true ∧ ∃ i, i ≠ c ∧ s.canBet i = true
  | .standUp chair => s.gameOver = false →
      if s.wCurrentUser = some chair then s.totalScore chair < s.userMaxScore chair
      else s.canBet chair = false
  | _ => True

instance : ∀ e, Decidable (TurnSafe opt s e)
  | .startGame _ => inferInstanceAs (Decidable (_ → _ → _ ∧ _))
  | .addScore chair _ type => inferInstanceAs (Decidable (_ → _ → _ → _ →
      _ ∨ Settles { s with chipTypeID := type } chair _))
  | .giveUp _ => inferInstanceAs (Decidable (_ → _ → _ → _))
  | .timer .game => inferInstanceAs (Decidable (∀ _, _ → _ → _))
  | .standUp _ => inferInstanceAs (Decidable (_ → _))
  | .timer .addBuffer | .timer .normalEnd | .timer .sendCard | .timer .noPlayer | .sitDown ..
  | .lookCard | .lookNoCard | .gameOver | .playEnd .. | .dismiss | .addTakeGold ..
  | .userScore .. | .offLine _ | .onLine _ => isTrue trivial

/-- The turn and the bets of a round do not matter to the stacks. -/
theorem Stacks.of_hand (ht : Stacks s) (hand : s'.toHand =
    { s.toHand with wCurrentUser := s'.wCurrentUser, tableScore := s'.tableScore })
    (kept : Kept s s') (seats : SeatsKept s s') : Stacks s' := by
  refine ⟨?_, fun i hi => ?_, ?_, fun hov i hi => ?_⟩
  · rw [hand]
    exact ht.gold
  · rw [hand] at hi ⊢
    exact ht.chips i hi
  · rw [hand]
    exact ht.allIn
  · rw [hand] at hi
    rw [seats.inGame]
    exact ht.seated (kept.gameOver.symm.trans hov) i hi

theorem Idle.turns (hidle : Idle s.toHand) (hstart : s.gameStarted = false) : Stacks s ∧ Turn s := by
  have hplay : s.playStatus = fun _ => false := by rw [hidle]
  have hshow : s.showHand = fun _ => false := by rw [hidle]
  have hcan : ∀ i, s.canBet i = false := fun i => by
    rw [Hand.canBet, hplay]
    rfl
  refine ⟨⟨fun i hi => ?_, fun i hi => ?_, fun i hi => ?_, fun _ i hi => ?_⟩, fun h => ?_⟩
  · rw [hplay] at hi
    cases hi
  · rw [hcan] at hi
    cases hi
  · rw [hshow] at hi
    cases hi
  · rw [hcan] at hi
    cases hi
  · have := h.1
    rw [hstart] at this
    cases this

/-- Gold that is brought later keeps the stacks. -/
theorem Stacks.onUserAddTakeGold {trusteeScore addTake : ℤ} (ht : Stacks s)
    (hs : Chips (setScore opt 3) s.toHand) (htrustee : 0 ≤ int32 trusteeScore)
    (hsum : int32 trusteeScore + setScore opt 3 < 2 ^ 31) :
    Stacks (s.onUserAddTakeGold opt chair trusteeScore addTake) := by
  rcases onUserAddTakeGold_cases hs htrustee with h | ⟨hpos, -, gold, hgold, h⟩
  · rwa [h]
  · rw [h]
    refine ⟨fun i hi => ?_, fun i hi => ?_, ht.allIn, ht.seated⟩
    · have := ht.gold i hi
      dsimp only
      by_cases hic : i = chair
      · subst hic
        rw [Function.update_self, Function.update_self, hgold hi hsum]
        omega
      · rwa [Function.update_of_ne hic, Function.update_of_ne hic]
    · have := ht.chips i hi
      dsimp only
      by_cases hic : i = chair
      · subst hic
        rw [Function.update_self]
        omega
      · rwa [Function.update_of_ne hic]

/-- When a card is dealt there are two players who can bet, and the search
finds one of them. -/
theorem exists_deal {d : ℕ} (htwo : 2 ≤ #{i | s.canBet i = true})
    (hseat : ∀ i, s.canBet i = true → (s.userItem i).isSome = true) :
    ∃ c, (((List.range gamePlayer).drop 1).map fun i => Fin.ofNat gamePlayer (d + i)).find?
      (fun i => (s.userItem i).isSome && s.canBet i) = some c ∧ s.canBet c = true := by
  obtain ⟨i, hi, hne⟩ := exists_mem_ne (lt_of_lt_of_le one_lt_two htwo) (Fin.ofNat gamePlayer d)
  have hcan : s.canBet i = true := (mem_filter.1 hi).2
  obtain ⟨c, hc⟩ : ∃ c, (((List.range gamePlayer).drop 1).map fun i =>
      Fin.ofNat gamePlayer (d + i)).find? (fun i => (s.userItem i).isSome && s.canBet i) = some c := by
    rw [← Option.isSome_iff_exists, List.find?_isSome]
    have hpos : placesBehind (Fin.ofNat gamePlayer d) i ≠ 0 := fun h => hne (placesBehind_eq_zero.1 h)
    have hlt := placesBehind_lt (Fin.ofNat gamePlayer d) i
    refine ⟨i, List.mem_map.2 ⟨placesBehind (Fin.ofNat gamePlayer d) i, ?_, ?_⟩, ?_⟩
    · rw [List.mem_drop_iff_getElem]
      refine ⟨placesBehind (Fin.ofNat gamePlayer d) i - 1, ?_, ?_⟩
      · rw [List.length_range]
        omega
      · rw [List.getElem_range]
        omega
    · ext
      simp only [placesBehind, Fin.ofNat, gamePlayer]
      omega
    · rw [hseat i hcan, hcan, Bool.and_self]
  have := List.find?_some hc
  rw [Bool.and_eq_true] at this
  exact ⟨c, hc, this.2⟩

theorem inGame_update {i : Chair} {u : Option TableUser} (hi : i ≠ chair) :
    { s with userItem := Function.update s.userItem chair u }.inGame i = s.inGame i := by
  rw [inGame, inGame, hasStatus, hasStatus, hasStatus, hasStatus]
  dsimp only
  rw [Function.update_of_ne hi]

theorem Stacks.leave (ht : Stacks s) (h : s.gameOver = false → s.canBet chair = false) :
    Stacks { s with userItem := Function.update s.userItem chair none } := by
  refine ⟨ht.gold, ht.chips, ht.allIn, fun hov i hi => ?_⟩
  have hic : i ≠ chair := by
    rintro rfl
    have hi' : s.canBet i = true := hi
    rw [h hov] at hi'
    cases hi'
  rw [inGame_update hic]
  exact ht.seated hov i hi

/-- The turn stays where it is as long as the hand does not change. -/
theorem Turn.of_hand (ht : Turn s) (hand : s'.toHand = s.toHand)
    (started : s'.gameStarted = s.gameStarted) (going : s'.gameOver = s.gameOver)
    (timers : ∀ t, t = .addBuffer ∨ t = .normalEnd → t ∈ s.timers → t ∈ s'.timers ∨ s.gameOver = true) :
    Turn s' := by
  intro hopen
  have hover : s.gameOver = false := going.symm.trans hopen.2.1
  rw [hand]
  refine ht ⟨started.symm.trans hopen.1, hover, fun hwait => hopen.2.2 ?_⟩
  refine hwait.of_kept (by rw [hand]; exact hwait.1) (.inr (by rw [hand])) (fun t ht' hmem => ?_)
    fun i hi => by rwa [hand] at hi
  refine (timers t ht' hmem).resolve_right fun h => ?_
  rw [hover] at h
  cases h

/-- **Every such event keeps the turns in order.** -/
theorem step_keeps_turns (hs : Sound opt s) (ht : Stacks s) (hturn : Turn s) (hfits : Fits opt s e)
    (hsafe : TurnSafe opt s e) (h : step opt s e = some (s', out)) : Stacks s' ∧ Turn s' := by
  cases step_change h with
  | quiet hand kept seats timers =>
    exact ⟨ht.of_hand (by rw [hand]) kept seats,
      hturn.of_hand hand kept.gameStarted kept.gameOver timers⟩
  | start idle two =>
    obtain ⟨hante, hfirst⟩ := hsafe idle two
    exact (dealt_startGame (hfits idle two) idle two _).turns two hante hfirst
  | @bet chair lScore type l _ _ _ play bets =>
    have hchips : Chips (setScore opt 3) { s with chipTypeID := type }.toHand := hs.chips
    have hstake := bets.stake hchips play
    have hp := placed_bet hchips hstake
    have hstacks : Stacks { s with chipTypeID := type } := ⟨ht.gold, ht.chips, ht.allIn, ht.seated⟩
    have hcur : s.wCurrentUser = some chair := bets.current
    refine ⟨hstacks.bet hchips hstake (fun _ => play) bets.after,
      turn_bet hchips hstake bets.current (fun _ hopen => ?_) ?_ bets.after⟩
    · obtain ⟨c, hc, hcan⟩ := hturn hopen
      rw [hcur] at hc
      cases hc
      exact hcan
    · have := hsafe hcur bets.notOver
      rw [bets.chipIn] at this
      by_cases hother : ∃ i, i ≠ chair ∧ s.canBet i = true
      · exact .inl hother
      · have hq := (this bets.nonneg bets.gold).resolve_left hother
        exact .inr (hq.closes hp (by simpa using hother))
  | @pass chair l _ _ free bets =>
    have hchips : Chips (setScore opt 3)
        { s.killGameTimer .game with chipTypeID := .pass }.toHand := hs.chips
    obtain ⟨rfl, hstake⟩ := bets.stake_zero hchips ⟨nofun, nofun⟩
    have hp := placed_bet hchips hstake
    have hstacks : Stacks { s.killGameTimer .game with chipTypeID := .pass } :=
      ⟨ht.gold, ht.chips, ht.allIn, ht.seated⟩
    have hcase := hsafe chair bets.current bets.notOver
    have hall : ∀ (hall : { s.killGameTimer .game with chipTypeID := .pass }.goesAllIn chair 0),
        s.playStatus chair = true ∧ ∃ i, i ≠ chair ∧ s.canBet i = true := by
      rintro (hle | htype)
      · have hle' : s.userMaxScore chair ≤ s.totalScore chair + 0 := hle
        exact (hcase.resolve_left (by omega)).2
      · cases htype
    refine ⟨hstacks.bet hchips hstake (fun h => (hall h).1) bets.after,
      turn_bet hchips hstake bets.current nofun ?_ bets.after⟩
    by_cases hother : ∃ i, i ≠ chair ∧ s.canBet i = true
    · exact .inl hother
    · have hq : Settles { s.killGameTimer .game with chipTypeID := .pass } chair 0 :=
        .inl ⟨fun h => hother (hall h).2, .inl rfl⟩
      rw [not_exists] at hother
      refine .inr (hq.closes hp fun i hi => ?_)
      have := hother i
      rw [not_and, Bool.not_eq_true] at this
      exact this hi
  | @fold _ s₀ chair _ _ hand event folds =>
    have hcur : s.wCurrentUser = some chair := by
      rcases hand with rfl | rfl <;> exact folds.current
    have hover : s.gameOver = false := by
      rcases hand with rfl | rfl <;> exact folds.notOver
    have hless : s.totalScore chair < s.userMaxScore chair := by
      rcases event with ⟨rfl, hplay⟩ | ⟨rfl, hfree⟩
      · exact hsafe hcur hover hplay
      · exact (hsafe chair hcur hover).resolve_right fun h => hfree h.1
    have hkey : Stacks s₀ ∧ Turn s₀ := by
      rcases hand with rfl | rfl
      · exact ⟨ht, hturn⟩
      · refine ⟨⟨ht.gold, ht.chips, ht.allIn, ht.seated⟩,
          hturn.of_hand rfl rfl rfl fun t ht' hmem => .inl ?_⟩
        exact mem_killGameTimer.2 ⟨hmem, by rcases ht' with rfl | rfl <;> decide⟩
    have hchips : Chips (setScore opt 3) s₀.toHand := by rcases hand with rfl | rfl <;> exact hs.chips
    obtain ⟨h₁, h₂, -⟩ := folds.turns hchips hkey.1 hkey.2
      (by rcases hand with rfl | rfl <;> exact hless)
    exact ⟨h₁, h₂⟩
  | @leave chair s₁ out seated =>
    rcases seated with ⟨rfl, -, hno⟩ | folds
    · refine ⟨ht.leave fun hov => ?_, hturn.of_hand rfl rfl rfl fun _ _ => .inl⟩
      rcases hno with hstart | hout | hov' | hcur
      · have hidle := hs.idle hstart
        rw [Hand.canBet, hidle]
        rfl
      · rw [← Bool.not_eq_true]
        intro hcan
        rw [ht.seated hov chair hcan] at hout
        cases hout
      · rw [hov] at hov'
        cases hov'
      · have := hsafe hov
        rwa [if_neg hcur] at this
    · have hless := hsafe folds.notOver
      rw [if_pos folds.current] at hless
      obtain ⟨h₁, h₂, h₃⟩ := folds.turns hs.chips ht hturn hless
      exact ⟨h₁.leave fun _ => h₃, h₂.of_hand rfl rfl rfl fun _ _ => .inl⟩
  | @sit chair userScore trusteeScore empty =>
    have hplay : s.playStatus chair = false := hfits.2
    have hne := ne_of_play (h := s.toHand) hplay
    have hne' : ∀ i, s.canBet i = true → i ≠ chair := fun i hi =>
      hne i (Bool.and_eq_true .. ▸ hi : _ ∧ _).1
    refine ⟨⟨fun i hi => ?_, fun i hi => ?_, ht.allIn, fun hov i hi => ?_⟩, fun hopen => ?_⟩
    · dsimp only
      rw [Function.update_of_ne (hne i hi), Function.update_of_ne (hne i hi)]
      exact ht.gold i hi
    · dsimp only
      rw [Function.update_of_ne (hne' i hi)]
      exact ht.chips i hi
    · exact (inGame_update (s := s) (hne' i hi)).trans (ht.seated hov i hi)
    · exact hturn hopen
  | @take chair lookon lAddTake u user free =>
    obtain ⟨hscore, hsum⟩ := hfits free u user
    obtain ⟨hand, kept, huser, htimers⟩ :=
      onUserAddTakeGold_kept opt s chair u.trusteeScore (int32 lAddTake)
    refine ⟨ht.onUserAddTakeGold hs.chips hscore hsum, fun hopen => ?_⟩
    rw [hand]
    refine hturn ⟨kept.gameStarted ▸ hopen.1, kept.gameOver ▸ hopen.2.1, fun hwait => hopen.2.2 ?_⟩
    refine hwait.of_kept (by rw [hand]; exact hwait.1) (.inr (by rw [hand]))
      (fun t _ hmem => htimers ▸ hmem) fun i hi => by rwa [hand] at hi
  | deal hand kept seats current =>
    have hcan : ∀ i, s'.canBet i = s.canBet i := fun i => by rw [hand]; rfl
    refine ⟨ht.of_hand (by rw [hand]) kept seats, fun hopen => ?_⟩
    · have hover : s.gameOver = false := kept.gameOver.symm.trans hopen.2.1
      have hplay := s.playCount_eq
      rw [countP_chairs] at current
      have hshow : s.showCount ≤ #{i | s.showHand i = true} := by
        rw [Hand.showCount, countP_chairs]
        refine card_le_card fun i hi => ?_
        simp only [mem_filter, mem_univ, true_and, Bool.and_eq_true] at hi ⊢
        exact hi.2
      rcases current with ⟨hcur, hend, hfew⟩ | ⟨hmany, d, hcur⟩
      · -- the turn does not change, if it has been anybody's
        rw [hcur]
        simp only [hcan]
        refine hturn ⟨kept.gameStarted ▸ hopen.1, hover, fun hwait => hopen.2.2 ?_⟩
        refine ⟨by rw [hand]; exact hwait.1, .inr ⟨hend, ?_⟩⟩
        have hshow' : #{i | s.showHand i = true} = s.showCount := by
          rw [Hand.showCount, countP_chairs]
          congr 1
          ext i
          simp only [mem_filter, mem_univ, true_and, Bool.and_eq_true]
          exact ⟨fun h => ⟨ht.allIn i h, h⟩, fun h => h.2⟩
        simp only [hcan]
        have hdef : s.playCount = #{i | s.playStatus i = true} := countP_chairs _
        omega
      · have hdef : s.playCount = #{i | s.playStatus i = true} := countP_chairs _
        obtain ⟨c, hc, hcan'⟩ := exists_deal (s := s) (d := d) (by omega)
          fun i hi => inGame_isSome (ht.seated hover i hi)
        rw [hc, Option.some_or] at hcur
        exact ⟨c, hcur, (hcan c).trans hcan'⟩
  | normal _ _ _ concluded => exact ((concluded.sound hs).idle concluded.gameStarted).turns concluded.gameStarted
  | noPlayer _ _ concluded => exact ((concluded.sound hs).idle concluded.gameStarted).turns concluded.gameStarted
  | reset concluded => exact ((concluded.sound hs).idle concluded.gameStarted).turns concluded.gameStarted

/-- **It is the turn of a player with chips** whenever a round is open, and
what he has left and what he has in are what he has brought, in every run
of such events. -/
theorem run_keeps_turns {es : List TableEvent} {r : TableSink × List Output}
    (hes : Machine.Along (step opt) (fun s e => Fits opt s e ∧ TurnSafe opt s e) {} es)
    (h : Machine.run (step opt) {} es = some r) :
    (r.1.Open → ∃ c, r.1.OnTurn c) ∧ ∀ i, r.1.playStatus i = true →
      r.1.userTakeGold i + r.1.totalScore i = r.1.userMaxScore i := by
  have hinit : Stacks ({} : TableSink) ∧ Turn ({} : TableSink) := Idle.turns rfl rfl
  obtain ⟨-, ht, hturn⟩ := Machine.inv_run
    (P := fun s => Sound opt s ∧ Stacks s ∧ Turn s)
    (fun s e s' out ⟨hs, ht, hturn⟩ hok hstep =>
      ⟨step_keeps_sound hs hok.1 hstep, step_keeps_turns hs ht hturn hok.1 hok.2 hstep⟩)
    es {} r ⟨sound_init opt, hinit⟩ hes h
  exact ⟨ht.onTurn hturn, ht.gold⟩

/-- The small blind raises all he has, and it is the big blind's turn, who
is the only one left with chips. -/
theorem run_keeps_turns_headsUp : ∃ r,
    Machine.run (step smallTable) {} (headsUp ++ [.addScore 1 0 .allIn]) = some r ∧ r.1.Open ∧
      (∃ c, r.1.OnTurn c) ∧ ∀ i, r.1.playStatus i = true →
        r.1.userTakeGold i + r.1.totalScore i = r.1.userMaxScore i := by
  have hrun : (Machine.run (step smallTable) {} (headsUp ++ [.addScore 1 0 .allIn])).map
      (fun r => decide r.1.Open) = some true := by decide +kernel
  obtain ⟨r, hr, heq⟩ := Option.map_eq_some_iff.1 hrun
  have hopen := of_decide_eq_true heq
  obtain ⟨hturn, hgold⟩ := run_keeps_turns (by decide +kernel) hr
  exact ⟨r, hr, hopen, hturn hopen, hgold⟩

def anteTable : ServiceOption := { smallTable with setDJPK := ![5, 10, 10, 10] }

/-- **Nobody is found to begin.** The dealer is first to bet and all in with
the ante; the two others sit two and four chairs behind him, where the
search does not look. What they have left does not account for the ante. -/
theorem first_player_missed : ∃ r,
    Machine.run (step anteTable) {}
        [.sitDown 0 10 10, .sitDown 2 100 100, .sitDown 4 100 100, .startGame someCards] = some r ∧
      r.1.Open ∧ (¬ ∃ c, r.1.OnTurn c) ∧ r.1.canBet 2 = true ∧ r.1.canBet 4 = true ∧
      ¬ ∀ i, r.1.playStatus i = true →
        r.1.userTakeGold i + r.1.totalScore i = r.1.userMaxScore i := by
  have hrun : (Machine.run (step anteTable) {}
      [.sitDown 0 10 10, .sitDown 2 100 100, .sitDown 4 100 100, .startGame someCards]).map
        (fun r => decide (r.1.Open ∧ (¬ ∃ c, r.1.OnTurn c) ∧ r.1.canBet 2 = true ∧
          r.1.canBet 4 = true ∧ ¬ ∀ i, r.1.playStatus i = true →
            r.1.userTakeGold i + r.1.totalScore i = r.1.userMaxScore i)) = some true := by
    decide +kernel
  obtain ⟨r, hr, heq⟩ := Option.map_eq_some_iff.1 hrun
  exact ⟨r, hr, of_decide_eq_true heq⟩

end TableSink

end GameServer.TexasHoldem
