import GameServer.TexasHoldem.Model.TableFrameSink
import GameServer.TexasHoldem.Payout
/-!
# Texas hold'em — what an event does to a table

The ways a table changes (`Change`), read off the step function once, the
places around the table, and what the chips of every chair keep
(`Chips`): nobody has more in than he has brought, and the clipping of a
bet never wraps around.
-/

namespace GameServer.TexasHoldem

open Finset

variable {c i : Chair} {t : Timer}

/-! ## Around the table -/

theorem countP_chairs (ok : Chair → Bool) : chairs.countP ok = #{i | ok i = true} := by
  rw [chairs, List.countP_eq_length_filter,
    ← List.toFinset_card_of_nodup ((List.nodup_finRange _).filter _)]
  congr 1
  ext i
  simp

theorem sum_chairs_filter (p : Chair → Bool) (f : Chair → ℤ) :
    ((chairs.filter p).map f).sum = ∑ i, if p i = true then f i else 0 := by
  rw [chairs, ← List.sum_toFinset _ ((List.nodup_finRange _).filter _), ← sum_filter]
  congr 1
  ext i
  simp

/-- How many places `i` sits behind `c`. -/
def placesBehind (c i : Chair) : ℕ := (i + (gamePlayer - c)) % gamePlayer

theorem placesBehind_lt (c i : Chair) : placesBehind c i < gamePlayer := Nat.mod_lt _ (by decide)

theorem chairBehind_placesBehind (c i : Chair) : chairBehind c (placesBehind c i) = i := by
  ext
  simp only [chairBehind, placesBehind, Fin.ofNat, gamePlayer]
  omega

theorem placesBehind_chairBehind (c : Chair) {h : ℕ} (hh : h < gamePlayer) :
    placesBehind c (chairBehind c h) = h := by
  simp only [chairBehind, placesBehind, Fin.ofNat, gamePlayer] at *
  omega

theorem placesBehind_eq_zero : placesBehind c i = 0 ↔ i = c := by
  rw [Fin.ext_iff]
  simp only [placesBehind, gamePlayer]
  omega

theorem placesBehind_next_of_le {h : ℕ} (hh : h ≤ placesBehind c i) :
    placesBehind (chairBehind c h) i = placesBehind c i - h := by
  simp only [chairBehind, placesBehind, Fin.ofNat, gamePlayer] at *
  omega

theorem placesBehind_next_of_lt {h : ℕ} (hh : placesBehind c i < h) (hlt : h < gamePlayer) :
    placesBehind (chairBehind c h) i = placesBehind c i + gamePlayer - h := by
  simp only [chairBehind, placesBehind, Fin.ofNat, gamePlayer] at *
  omega

theorem searchChair_eq_some {first last k : ℕ} {ok : Chair → Bool}
    (h : searchChair c first last ok = some k) :
    first ≤ k ∧ k ≤ last ∧ ok (chairBehind c k) = true ∧
      ∀ j, first ≤ j → j < k → ok (chairBehind c j) = false := by
  obtain ⟨hk, n, hn, heq, hlt⟩ := List.find?_eq_some_iff_getElem.1 h
  have hlen : n < last + 1 - first := by simpa using hn
  have hget : ∀ m, (hm : m < ((List.range (last + 1)).drop first).length) →
      ((List.range (last + 1)).drop first)[m] = first + m := by
    intro m hm
    rw [List.getElem_drop, List.getElem_range]
  rw [hget] at heq
  refine ⟨by omega, by omega, hk, fun j hj hjk => ?_⟩
  have := hlt (j - first) (by omega)
  rw [hget, Nat.add_sub_cancel' hj] at this
  simpa using this

theorem searchChair_eq_none {first last : ℕ} {ok : Chair → Bool}
    (h : searchChair c first last ok = none) :
    ∀ j, first ≤ j → j ≤ last → ok (chairBehind c j) = false := by
  intro j hj hjl
  rw [searchChair, List.find?_eq_none] at h
  have hmem : j ∈ (List.range (last + 1)).drop first := by
    rw [List.mem_drop_iff_getElem]
    exact ⟨j - first, by simp; omega, by simp; omega⟩
  simpa using h j hmem

theorem Hand.playCount_eq (h : Hand) : h.playCount = h.showCount + #{i | h.canBet i = true} := by
  rw [playCount, showCount, countP_chairs, countP_chairs, ← card_union_of_disjoint]
  · congr 1
    ext i
    simp only [canBet, mem_filter, mem_univ, true_and, mem_union, Bool.and_eq_true,
      Bool.not_eq_true']
    cases h.showHand i <;> simp
  · rw [disjoint_filter]
    intro i _ hi
    simp only [canBet, Bool.and_eq_true, Bool.not_eq_true'] at hi ⊢
    simp [hi.2]

namespace TableSink

theorem nextHops_eq_of_none {s : TableSink} {chair : Chair}
    (h : ∀ i, i ≠ chair → s.canBet i = false) : s.nextHops chair = gamePlayer - 1 := by
  unfold nextHops
  cases hsearch : searchChair chair 1 (gamePlayer - 1) s.canBet with
  | none => rfl
  | some k =>
    obtain ⟨h₁, h₂, hok, -⟩ := searchChair_eq_some hsearch
    have hne : chairBehind chair k ≠ chair := by
      intro heq
      have := placesBehind_chairBehind chair (h := k) (by simp only [gamePlayer] at *; omega)
      rw [heq, placesBehind_eq_zero.2 rfl] at this
      omega
    rw [h _ hne] at hok
    cases hok

/-- The next chair that can bet, and that all chairs on the way to it cannot. -/
theorem nextHops_spec (s : TableSink) (chair : Chair) :
    1 ≤ s.nextHops chair ∧ s.nextHops chair < gamePlayer ∧
      (s.canBet (chairBehind chair (s.nextHops chair)) = true ∨ ∀ i, i ≠ chair → s.canBet i = false) ∧
      ∀ i, i ≠ chair → placesBehind chair i < s.nextHops chair → s.canBet i = false := by
  unfold nextHops
  cases h : searchChair chair 1 (gamePlayer - 1) s.canBet with
  | none =>
    have hnone : ∀ i, i ≠ chair → s.canBet i = false := by
      intro i hi
      have hpos : placesBehind chair i ≠ 0 := fun h0 => hi (placesBehind_eq_zero.1 h0)
      have := placesBehind_lt chair i
      rw [← chairBehind_placesBehind chair i]
      exact searchChair_eq_none h _ (by omega) (by omega)
    exact ⟨by decide, by decide, .inr hnone, fun i hi _ => hnone i hi⟩
  | some k =>
    obtain ⟨h₁, h₂, hok, hbefore⟩ := searchChair_eq_some h
    rw [Option.getD_some]
    refine ⟨h₁, by simp only [gamePlayer] at *; omega, .inl hok, fun i hi hlt => ?_⟩
    have hpos : placesBehind chair i ≠ 0 := fun h0 => hi (placesBehind_eq_zero.1 h0)
    rw [← chairBehind_placesBehind chair i]
    exact hbefore _ (by omega) hlt

/-! ## The ways a table changes -/

/-- A user of the hand at a chair, connected or not. -/
def inGame (s : TableSink) (i : Chair) : Bool := s.hasStatus i .playing || s.hasStatus i .offline

/-- `OnUserAddScore` takes a bet of `l`. -/
structure Bets (s : TableSink) (chair : Chair) (lScore l : ℤ) (s' : TableSink)
    (out : List Output) : Prop where
  current : s.wCurrentUser = some chair
  notOver : s.gameOver = false
  chipIn : s.chipIn chair lScore = l
  nonneg : 0 ≤ l
  gold : l ≤ s.userTakeGold chair
  after : (s.bet chair l).afterBet chair l = (s', out)

/-- `OnUserGiveUp` of the current player. The bet of nothing is refused to a
chair with more in than it has. -/
structure Folds (s : TableSink) (chair : Chair) (s' : TableSink) (out : List Output) : Prop where
  current : s.wCurrentUser = some chair
  notOver : s.gameOver = false
  after : ∃ s₁, ((∃ l, Bets (s.outOf chair) chair 0 l s₁ out) ∨ s₁ = s.outOf chair ∧ out = [] ∧
      ¬ (0 ≤ (s.outOf chair).chipIn chair 0 ∧
        (s.outOf chair).chipIn chair 0 ≤ s.userTakeGold chair)) ∧
    s' = if (s.outOf chair).playCount ≥ 2 then s₁
      else { s₁ with gameOver := true }.setGameTimer .noPlayer

/-- What most events keep besides the chips. -/
structure Kept (s s' : TableSink) : Prop where
  gameStarted : s'.gameStarted = s.gameStarted
  gameOver : s'.gameOver = s.gameOver
  fristPlayStatus : s'.fristPlayStatus = s.fristPlayStatus
  handCardData : s'.handCardData = s.handCardData
  centerCardData : s'.centerCardData = s.centerCardData

/-- The users of the hand keep their chairs. -/
structure SeatsKept (s s' : TableSink) : Prop where
  seated : ∀ i, (s'.userItem i).isSome = (s.userItem i).isSome
  inGame : ∀ i, s'.inGame i = s.inGame i

/-- The hand is over, and the chips on the table are gone. -/
structure Concluded (s s' : TableSink) : Prop where
  gameStarted : s'.gameStarted = false
  gameOver : s'.gameOver = false
  idle : s.gameStarted = true → s'.toHand =
    { userTakeGold := s'.userTakeGold, showHandBuffer := s'.showHandBuffer }
  gold : s.gameStarted = false → s'.toHand =
    { s.toHand with userTakeGold := s'.userTakeGold, userMaxScore := s'.userMaxScore }
  userMaxScore : ∀ i, s'.userMaxScore i = s.userMaxScore i ∨ s'.userMaxScore i = 0

/-- **What an event does to a table**: nothing to the chips, or one of the
moves of a hand. -/
inductive Change (opt : ServiceOption) (s : TableSink) :
    TableEvent → TableSink → List Output → Prop
  | quiet {e s'} (hand : s'.toHand = s.toHand) (kept : Kept s s') (seats : SeatsKept s s')
      (timers : ∀ t, t = .addBuffer ∨ t = .normalEnd → t ∈ s.timers →
        t ∈ s'.timers ∨ s.gameOver = true) : Change opt s e s' []
  | start {cards} (idle : s.gameStarted = false)
      (two : 2 ≤ chairs.countP fun i => (s.userItem i).isSome) :
      Change opt s (.startGame cards) (s.startGame opt cards) []
  | bet {chair lScore type l s' out} (status : s.hasStatus chair .playing = true)
      (play : s.playStatus chair = true)
      (bets : Bets { s with chipTypeID := type } chair (int32 lScore) l s' out) :
      Change opt s (.addScore chair lScore type) s' out
  | pass {chair l s' out} (free : s.turnLessScore = 0)
      (bets : Bets { s.killGameTimer .game with chipTypeID := .pass } chair 0 l s' out) :
      Change opt s (.timer .game) s' out
  | fold {e s₀ chair s' out} (hand : s₀ = s ∨ s₀ = s.killGameTimer .game)
      (event : e = .giveUp chair ∧ s.playStatus chair = true ∨
        e = .timer .game ∧ s.turnLessScore ≠ 0)
      (folds : Folds s₀ chair s' out) : Change opt s e s' out
  | leave {chair s₁ out} (seated : s₁ = s ∧ out = [] ∧ (s.gameStarted = false ∨
        s.inGame chair = false ∨ s.gameOver = true ∨ s.wCurrentUser ≠ some chair) ∨
        Folds s chair s₁ out) :
      Change opt s (.standUp chair) { s₁ with userItem := Function.update s₁.userItem chair none } out
  | sit {chair userScore trusteeScore} (empty : s.userItem chair = none) :
      Change opt s (.sitDown chair userScore trusteeScore)
        { s with
          userItem := Function.update s.userItem chair
            (some { userScore, trusteeScore, userStatus := .sit })
          userTakeGold := Function.update s.userTakeGold chair (int32 userScore)
          userMaxScore := Function.update s.userMaxScore chair (int32 userScore) } []
  | take {chair lookon lAddTake u} (user : s.userItem chair = some u)
      (free : lookon = true ∨ s.inGame chair = false) :
      Change opt s (.addTakeGold chair lookon lAddTake)
        (s.onUserAddTakeGold opt chair u.trusteeScore (int32 lAddTake)) []
  | deal {s'} (hand : s'.toHand = { s.toHand with
        wCurrentUser := s'.wCurrentUser, tableScore := fun _ => 0 })
      (kept : Kept s s') (seats : SeatsKept s s')
      (current : s'.wCurrentUser = s.wCurrentUser ∧ .normalEnd ∈ s'.timers ∧
          chairs.countP s.showHand + 1 ≥ s.playCount ∨
        ¬ chairs.countP s.showHand + 1 ≥ s.playCount ∧ ∃ d : ℕ, s'.wCurrentUser = ((((List.range gamePlayer).drop 1).map fun i =>
          Fin.ofNat gamePlayer (d + i)).find? fun i =>
            (s.userItem i).isSome && s.canBet i).or s.wCurrentUser) :
      Change opt s (.timer .addBuffer) s' []
  | normal {t s' out} (timer : t = .normalEnd ∨ t = .addBuffer ∧ s.balanceCount = 4) (notOver : s.gameOver = false)
      (concludes : (s.killGameTimer t).concludeNormal opt = some (s', out))
      (concluded : Concluded s s') : Change opt s (.timer t) s' out
  | noPlayer {e s' out} (event : e = .lookNoCard ∨ e = .timer .noPlayer)
      (writes : out = (s.concludeNoPlayer opt).2) (concluded : Concluded s s') :
      Change opt s e s' out
  | reset {e s'} (concluded : Concluded s s') : Change opt s e s' []

variable {opt : ServiceOption} {s s' : TableSink} {chair : Chair} {l lScore : ℤ}
  {out : List Output} {e : TableEvent}

theorem onUserAddScore_cases (h : s.onUserAddScore chair lScore = some (s', out)) :
    (s' = s ∧ out = [] ∧ (s.wCurrentUser ≠ some chair ∨ s.gameOver = true ∨
      ¬ (0 ≤ s.chipIn chair lScore ∧ s.chipIn chair lScore ≤ s.userTakeGold chair))) ∨
      ∃ l, Bets s chair lScore l s' out := by
  simp only [onUserAddScore] at h
  split_ifs at h with h₁ h₂ h₃
  · cases h
    exact .inl ⟨rfl, rfl, h₁.imp_right .inl⟩
  · cases h
    exact .inl ⟨rfl, rfl, .inr (.inr (by omega))⟩
  · rw [not_or, not_not, Bool.not_eq_true] at h₁
    exact .inr ⟨_, h₁.1, h₁.2, rfl, by omega, by omega, Option.some.inj h⟩

theorem onUserGiveUp_cases (h : s.onUserGiveUp chair = some (s', out)) :
    (s' = s ∧ out = [] ∧ (s.gameOver = true ∨ s.wCurrentUser ≠ some chair)) ∨
      Folds s chair s' out := by
  unfold onUserGiveUp at h
  by_cases h₁ : s.gameOver = true ∨ s.wCurrentUser ≠ some chair
  · rw [if_pos h₁] at h
    cases h
    exact .inl ⟨rfl, rfl, h₁⟩
  · rw [if_neg h₁] at h
    rw [not_or, not_not, Bool.not_eq_true] at h₁
    rw [Option.map_eq_some_iff] at h
    obtain ⟨⟨s₁, out'⟩, hadd, heq⟩ := h
    obtain ⟨hs', rfl⟩ := Prod.mk.inj heq
    refine .inr ⟨h₁.2, h₁.1, s₁, ?_, hs'.symm⟩
    rcases onUserAddScore_cases hadd with ⟨hs₁, hout, hno⟩ | hbets
    · refine .inr ⟨hs₁, hout, ?_⟩
      rcases hno with hcur | hover | hno
      · exact absurd h₁.2 hcur
      · have : (s.outOf chair).gameOver = s.gameOver := rfl
        rw [this, h₁.1] at hover
        cases hover
      · exact hno
    · exact .inl hbets

theorem Concluded.concludeGame {t : TableSink} (going : t.gameOver = false)
    (started : t.gameStarted = s.gameStarted)
    (hand : t.toHand =
      { s.toHand with userTakeGold := t.userTakeGold, userMaxScore := t.userMaxScore })
    (max : ∀ i, t.userMaxScore i = s.userMaxScore i ∨ t.userMaxScore i = 0) :
    Concluded s t.concludeGame := by
  unfold TableSink.concludeGame
  by_cases h : t.gameStarted = false
  · rw [if_pos h]
    refine ⟨h, going, fun h' => ?_, fun _ => hand, max⟩
    rw [← started, h] at h'
    cases h'
  · rw [if_neg h]
    refine ⟨rfl, going, fun _ => rfl, fun h' => ?_, fun i => .inr rfl⟩
    rw [started] at h
    exact absurd h' h

theorem concluded_bookGold (s t : TableSink) (going : t.gameOver = false)
    (started : t.gameStarted = s.gameStarted) (hand : t.toHand = s.toHand) (written : Chair → Bool)
    (score : Chair → ℤ) : Concluded s (t.bookGold written score).concludeGame := by
  refine .concludeGame going started (by simp only [bookGold, hand]) fun i => ?_
  have hmax : t.userMaxScore = s.userMaxScore := congrArg Hand.userMaxScore hand
  rw [← hmax]
  by_cases h : written i = true
  · exact .inr (if_pos h)
  · exact .inl (if_neg h)

theorem concludeNormal_cases (h : s.concludeNormal opt = some (s', out)) :
    (s.gameOver = true ∧ s' = s ∧ out = []) ∨ (s.gameOver = false ∧ Concluded s s') := by
  unfold concludeNormal at h
  by_cases hover : s.gameOver = true
  · rw [if_pos hover] at h
    cases h
    exact .inl ⟨hover, rfl, rfl⟩
  · rw [if_neg hover] at h
    by_cases hpools : (s.shownPools.any fun pool => pool.handChair.all fun i => !s.playStatus i) = true
    · rw [if_pos hpools] at h
      cases h
    · rw [if_neg hpools] at h
      cases h
      rw [Bool.not_eq_true] at hover
      exact .inr ⟨hover, concluded_bookGold s s.killTimerAll hover rfl rfl _ _⟩

theorem concluded_concludeNoPlayer (opt : ServiceOption) (s : TableSink) :
    Concluded s (s.concludeNoPlayer opt).1 := by
  unfold concludeNoPlayer
  dsimp only
  split_ifs
  · exact .concludeGame rfl rfl rfl fun i => .inl rfl
  · exact concluded_bookGold s { s.killTimerAll with gameOver := false } rfl rfl rfl _ _

theorem Concluded.of_hand {t : TableSink} (h : Concluded t s') (hand : t.toHand = s.toHand)
    (started : t.gameStarted = s.gameStarted) : Concluded s s' where
  gameStarted := h.gameStarted
  gameOver := h.gameOver
  idle h' := h.idle (started.trans h')
  gold h' := by
    rw [h.gold (started.trans h'), hand]
  userMaxScore i := by
    have := h.userMaxScore i
    rwa [hand] at this

theorem Change.unchanged (e : TableEvent) : Change opt s e s [] :=
  .quiet rfl ⟨rfl, rfl, rfl, rfl, rfl⟩ ⟨fun _ => rfl, fun _ => rfl⟩ fun _ _ => .inl

theorem seatsKept_changeUser {change : TableUser → TableUser}
    (h : ∀ u, (change u).userStatus = .playing ∨ (change u).userStatus = .offline ↔
      u.userStatus = .playing ∨ u.userStatus = .offline) :
    SeatsKept s (s.changeUser chair change) := by
  have hother : ∀ i, i ≠ chair → (s.changeUser chair change).userItem i = s.userItem i :=
    fun i hi => Function.update_of_ne hi _ _
  have hself : (s.changeUser chair change).userItem chair = (s.userItem chair).map change :=
    Function.update_self ..
  refine ⟨fun i => ?_, fun i => ?_⟩
  · by_cases hi : i = chair
    · rw [hi, hself, Option.isSome_map]
    · rw [hother i hi]
  · unfold inGame hasStatus
    by_cases hi : i = chair
    · rw [hi, hself]
      cases hu : s.userItem chair with
      | none => rfl
      | some u =>
        have := h u
        simp only [Option.map_some, Option.any_some, ← Bool.decide_or, this]
    · rw [hother i hi]

theorem inGame_isSome (h : s.inGame i = true) : (s.userItem i).isSome = true := by
  rw [inGame, hasStatus, hasStatus] at h
  cases hu : s.userItem i with
  | none =>
    rw [hu] at h
    cases h
  | some u => rfl

theorem mem_killGameTimer {t' : Timer} : t ∈ (s.killGameTimer t').timers ↔ t ∈ s.timers ∧ t ≠ t' := by
  simp [killGameTimer]

theorem mem_setGameTimer {t' : Timer} : t ∈ (s.setGameTimer t').timers ↔ t ∈ s.timers ∨ t = t' := by
  simp only [setGameTimer, List.mem_cons, List.mem_filter, decide_eq_true_eq]
  by_cases h : t = t' <;> simp [h]

theorem concludeNormal_writes (h : s.concludeNormal opt = some (s', out))
    (going : s.gameOver = false) :
    let us := normalUserScore s.playStatus s.handCardData s.centerCardData s.totalScore
    let tax := fun i => if opt.revenueRatio > 0 then gameTax opt (us i) else 0
    out = s.writeScores (fun i => int32 (us i - tax i)) tax := by
  unfold concludeNormal at h
  rw [going, if_neg Bool.false_ne_true] at h
  by_cases hpools : (s.shownPools.any fun pool => pool.handChair.all fun i => !s.playStatus i) = true
  · rw [if_pos hpools] at h
    cases h
  · rw [if_neg hpools] at h
    cases h
    rfl

theorem concludeNoPlayer_writes (opt : ServiceOption) (s : TableSink) :
    (s.concludeNoPlayer opt).2 = if s.playCount = 0 then [] else s.writeScores
      (fun i => int32 (s.noPlayerScore i - gameTax opt (s.noPlayerScore i)))
      fun i => gameTax opt (s.noPlayerScore i) := by
  unfold concludeNoPlayer
  dsimp only
  by_cases h : s.playCount = 0
  · have h' : s.killTimerAll.playCount = 0 := h
    rw [if_pos h, if_pos h']
  · have h' : ¬ s.killTimerAll.playCount = 0 := h
    rw [if_neg h, if_neg h']
    rfl

theorem change_noPlayer (he : e = .lookNoCard ∨ e = .timer .noPlayer)
    (h : (s.killGameTimer .noPlayer).concludeNoPlayer opt = (s', out)) : Change opt s e s' out := by
  have hconc := concluded_concludeNoPlayer opt (s.killGameTimer .noPlayer)
  have hout : (s.concludeNoPlayer opt).2 = ((s.killGameTimer .noPlayer).concludeNoPlayer opt).2 := by
    rw [concludeNoPlayer_writes, concludeNoPlayer_writes]
    rfl
  rw [h] at hconc hout
  exact .noPlayer he hout.symm (hconc.of_hand rfl rfl)

theorem change_timer (ht : t ∈ s.timers) (h : s.onTimerMessage opt t = some (s', out)) :
    Change opt s (.timer t) s' out := by
  cases t with
  | game =>
    have hquiet : ∀ type, Change opt s (.timer .game)
        { s.killGameTimer .game with chipTypeID := type } [] := fun type =>
      .quiet rfl ⟨rfl, rfl, rfl, rfl, rfl⟩ ⟨fun _ => rfl, fun _ => rfl⟩ fun t ht hmem =>
        .inl (mem_killGameTimer.2 ⟨hmem, by rcases ht with rfl | rfl <;> decide⟩)
    simp only [onTimerMessage] at h
    split at h
    · cases h
      exact hquiet s.chipTypeID
    · split_ifs at h with h₁ h₂
      · cases h
        exact hquiet s.chipTypeID
      · rcases onUserAddScore_cases h with ⟨rfl, rfl, -⟩ | ⟨l, hbets⟩
        · exact hquiet .pass
        · exact .pass h₂ hbets
      · rcases onUserGiveUp_cases h with ⟨rfl, rfl, -⟩ | hfolds
        · exact hquiet s.chipTypeID
        · exact .fold (.inr rfl) (.inr ⟨rfl, h₂⟩) hfolds
  | normalEnd =>
    rcases concludeNormal_cases h with ⟨hover, rfl, rfl⟩ | ⟨hover, hconc⟩
    · exact .quiet rfl ⟨rfl, rfl, rfl, rfl, rfl⟩ ⟨fun _ => rfl, fun _ => rfl⟩ fun _ _ _ => .inr hover
    · exact .normal (.inl rfl) hover h (hconc.of_hand rfl rfl)
  | addBuffer =>
    simp only [onTimerMessage, onChipRendEnd] at h
    by_cases hfour : (s.killGameTimer .addBuffer).balanceCount = 4
    · rw [if_pos hfour] at h
      rcases concludeNormal_cases h with ⟨hover, rfl, rfl⟩ | ⟨hover, hconc⟩
      · exact .quiet rfl ⟨rfl, rfl, rfl, rfl, rfl⟩ ⟨fun _ => rfl, fun _ => rfl⟩ fun _ _ _ => .inr hover
      · exact .normal (.inr ⟨rfl, hfour⟩) hover h (hconc.of_hand rfl rfl)
    · rw [if_neg hfour] at h
      split_ifs at h with hshow _
      · cases h
        exact .deal rfl ⟨rfl, rfl, rfl, rfl, rfl⟩ ⟨fun _ => rfl, fun _ => rfl⟩
          (.inl ⟨rfl, mem_setGameTimer.2 (.inr rfl), hshow.1⟩)
      · cases h
        exact .deal rfl ⟨rfl, rfl, rfl, rfl, rfl⟩ ⟨fun _ => rfl, fun _ => rfl⟩
          (.inr ⟨fun h => hshow ⟨h, by omega⟩, _, rfl⟩)
  | sendCard =>
    cases h
    refine .quiet rfl ⟨rfl, rfl, rfl, rfl, rfl⟩ ⟨fun _ => rfl, fun _ => rfl⟩ fun t ht hmem => .inl ?_
    exact mem_setGameTimer.2 (.inl (mem_killGameTimer.2
      ⟨hmem, by rcases ht with rfl | rfl <;> decide⟩))
  | noPlayer =>
    exact change_noPlayer (.inr rfl) (Option.some.inj h)

/-- **Every event makes one of these changes.** -/
theorem step_change (h : step opt s e = some (s', out)) : Change opt s e s' out := by
  cases e with
  | startGame cards =>
    cases h
    by_cases hstart : s.gameStarted = true ∨ chairs.countP (fun i => (s.userItem i).isSome) < 2
    · rw [startGame, if_pos hstart]
      exact .unchanged _
    · rw [not_or, not_lt, Bool.not_eq_true] at hstart
      exact .start hstart.1 hstart.2
  | addScore chair lScore type =>
    simp only [step] at h
    split_ifs at h with hplay
    · rcases onUserAddScore_cases h with ⟨rfl, rfl, -⟩ | ⟨l, hbets⟩
      · exact .quiet rfl ⟨rfl, rfl, rfl, rfl, rfl⟩ ⟨fun _ => rfl, fun _ => rfl⟩ fun _ _ => .inl
      · exact .bet hplay.1 hplay.2 hbets
    · cases h
      exact .unchanged _
  | giveUp chair =>
    simp only [step] at h
    split_ifs at h with hplay
    · rcases onUserGiveUp_cases h with ⟨rfl, rfl, -⟩ | hfolds
      · exact .unchanged _
      · exact .fold (.inl rfl) (.inl ⟨rfl, hplay.2⟩) hfolds
    · cases h
      exact .unchanged _
  | lookCard =>
    cases h
    exact .quiet rfl ⟨rfl, rfl, rfl, rfl, rfl⟩ ⟨fun _ => rfl, fun _ => rfl⟩ fun t ht hmem =>
      .inl (mem_killGameTimer.2 ⟨hmem, by rcases ht with rfl | rfl <;> decide⟩)
  | lookNoCard => exact change_noPlayer (.inl rfl) (Option.some.inj h)
  | gameOver =>
    simp only [step] at h
    split_ifs at h with hover
    · cases h
      exact .reset (.concludeGame rfl rfl rfl fun i => .inl rfl)
    · cases h
      exact .unchanged _
  | playEnd chair playId android =>
    simp only [step, onPlayEnd] at h
    split_ifs at h with hplay hskip hall
    · cases h
      exact .unchanged _
    · cases h
      refine .quiet rfl ⟨rfl, rfl, rfl, rfl, rfl⟩ ⟨fun _ => rfl, fun _ => rfl⟩ fun t ht hmem => .inl ?_
      exact mem_setGameTimer.2 (.inl (mem_killGameTimer.2
        ⟨hmem, by rcases ht with rfl | rfl <;> decide⟩))
    · cases h
      exact .quiet rfl ⟨rfl, rfl, rfl, rfl, rfl⟩ ⟨fun _ => rfl, fun _ => rfl⟩ fun _ _ => .inl
    · cases h
      exact .unchanged _
  | addTakeGold chair lookon lAddTake =>
    cases hu : s.userItem chair with
    | none =>
      simp only [step, hu] at h
      split_ifs at h
      cases h
      exact .unchanged _
    | some u =>
      simp only [step, hu] at h
      split_ifs at h with hplay
      · cases h
        exact .unchanged _
      · cases h
        refine .take hu ?_
        rw [not_and_or, Bool.not_eq_false, not_or] at hplay
        simpa [inGame, hasStatus, hu] using hplay
  | timer t =>
    simp only [step] at h
    split_ifs at h with ht
    · exact change_timer ht h
    · cases h
      exact .unchanged _
  | sitDown chair userScore trusteeScore =>
    simp only [step] at h
    split_ifs at h with hsome
    · cases h
      exact .unchanged _
    · cases h
      exact .sit (by simpa using hsome)
  | standUp chair =>
    simp only [step, performStandUpAction] at h
    by_cases hgame : s.gameStarted = true ∧ (s.hasStatus chair .playing = true ∨
        s.hasStatus chair .offline = true)
    · rw [if_pos hgame, Option.map_eq_some_iff] at h
      obtain ⟨⟨s₁, out'⟩, hgive, heq⟩ := h
      cases heq
      rcases onUserGiveUp_cases hgive with ⟨rfl, rfl, hno⟩ | hfolds
      · exact .leave (.inl ⟨rfl, rfl, .inr (.inr hno)⟩)
      · exact .leave (.inr hfolds)
    · rw [if_neg hgame] at h
      cases h
      refine .leave (.inl ⟨rfl, rfl, ?_⟩)
      rw [not_and_or, ← Bool.or_eq_true, Bool.not_eq_true, Bool.not_eq_true] at hgame
      exact hgame.imp_right .inl
  | dismiss =>
    simp only [step, concludeDismiss] at h
    split_ifs at h with hstart hover
    · cases h
      exact .unchanged _
    · cases h
      rw [Bool.not_eq_true] at hover
      exact .reset (.concludeGame hover rfl rfl fun i => .inl rfl)
    · cases h
      exact .unchanged _
  | userScore chair userScore trusteeScore =>
    cases h
    exact .quiet rfl ⟨rfl, rfl, rfl, rfl, rfl⟩ (seatsKept_changeUser fun u => Iff.rfl)
      fun _ _ => .inl
  | offLine chair =>
    cases h
    refine .quiet rfl ⟨rfl, rfl, rfl, rfl, rfl⟩ (seatsKept_changeUser fun u => ?_)
      fun _ _ => .inl
    split_ifs with hu <;> simp [hu]
  | onLine chair =>
    cases h
    refine .quiet rfl ⟨rfl, rfl, rfl, rfl, rfl⟩ (seatsKept_changeUser fun u => ?_)
      fun _ _ => .inl
    split_ifs with hu <;> simp [hu]

end TableSink

end GameServer.TexasHoldem
