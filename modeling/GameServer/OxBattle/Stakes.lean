import GameServer.OxBattle.Banker
import GameServer.OxBattle.GameLogic
import Mathlib.Algebra.Order.BigOperators.Group.Finset
/-!
# Ox battle — stakes are covered

A stake is taken only if ten times everything the player has staked stays
within his score, and ten times everything on the table within the
banker's (`getUserMaxJetton_covers`). What a player who leaves had staked
goes off the table again. So the stakes are covered tenfold as long as
the stage lasts (`Staked`), and since no comparison reports more than ten
times the stake, nobody is settled a loss that he does not have
(`stakes_are_covered`).
-/

namespace GameServer.OxBattle

open Function Table

variable {n : ℕ} {cfg : RoomConfig} {s s' start : Table n} {c : Fin n} {u : TableUser}
variable {a : Area} {lJettonScore : ℤ} {t : Table n}

/-! ## Sums -/

theorem sum_update_eq {ι : Type*} [Fintype ι] [DecidableEq ι] (f : ι → ℤ) (i : ι) (x : ℤ) :
    ∑ j, update f i x j = ∑ j, f j - f i + x := by
  rw [Finset.sum_update_of_mem (Finset.mem_univ i), ← Finset.add_sum_erase _ f (Finset.mem_univ i),
    Finset.sdiff_singleton_eq_erase]
  omega

/-! ## The limits -/

theorem mul_le_of_le_tdiv {x j : ℤ} (hj : 0 < j) (h : j ≤ x.tdiv 10) : 10 * j ≤ x := by
  rcases Int.le_total 0 x with hx | hx
  · rw [Int.tdiv_eq_ediv_of_nonneg hx] at h
    omega
  · have hneg : x.tdiv 10 ≤ 0 := Int.tdiv_le_tdiv (by decide) hx
    omega

/-- **A stake within the limit is covered tenfold**, by the player and by
the banker. -/
theorem getUserMaxJetton_covers (hu : s.tableUserItem c = some u)
    (hpos : 0 < lJettonScore) (h : lJettonScore ≤ s.getUserMaxJetton cfg c a) :
    10 * (s.jettonCount c + lJettonScore) ≤ u.lScore ∧
      (s.currentBanker.isSome → 10 * (∑ a, s.allJettonScore a + lJettonScore) ≤ s.bankerScore) := by
  unfold Table.getUserMaxJetton at h
  rw [hu] at h
  have hmax := (le_max_iff.1 h).resolve_right (by omega)
  obtain ⟨hrest, hbanker⟩ := le_min_iff.1 hmax
  have hplayer := (le_min_iff.1 (le_min_iff.1 hrest).1).1
  have hplayer := mul_le_of_le_tdiv hpos hplayer
  have hbanker := mul_le_of_le_tdiv hpos hbanker
  refine ⟨by omega, fun hsome => ?_⟩
  rw [if_pos hsome, ← Finset.sum_mul] at hbanker
  omega

/-! ## What the calls do -/

/-- A robot that is refused leaves the table as it was, and one that is
let through only his counts. -/
theorem robotLimit_eq_some {beyond allowed : Bool}
    (h : s.robotLimit cfg c a lJettonScore beyond = some (allowed, s')) :
    if allowed then ∃ chips robots, s' = { s with chipRobotCount := chips, robotAreaScore := robots }
    else s' = s := by
  unfold Table.robotLimit at h
  split_ifs at h
  all_goals
    obtain ⟨rfl, rfl⟩ := Prod.mk.inj (Option.some.inj h)
  · exact ⟨_, _, rfl⟩
  · rfl
  · exact ⟨_, _, rfl⟩

/-- A call of `OnUserPlaceJetton` changes nothing, or it saves a stake
within the limit of a player who is not the banker. -/
theorem onUserPlaceJetton_cases (cfg : RoomConfig) (s : Table n) (c : Fin n) (jettonArea : UInt8)
    (lJettonScore : ℤ) (beyond : Bool) :
    (s.onUserPlaceJetton cfg c jettonArea lJettonScore beyond).1 = s ∨
      ∃ a u chips robots, s.gameStatus = .placeJetton ∧ s.currentBanker ≠ some c ∧
        s.tableUserItem c = some u ∧ 0 < lJettonScore ∧
        lJettonScore ≤ s.getUserMaxJetton cfg c a ∧
        (s.onUserPlaceJetton cfg c jettonArea lJettonScore beyond).1 =
          { s.saveJetton c a lJettonScore with chipRobotCount := chips, robotAreaScore := robots } := by
  unfold Table.onUserPlaceJetton
  split
  · exact .inl rfl
  rename_i a _
  by_cases hpos : lJettonScore ≤ 0
  · rw [if_pos hpos]
    exact .inl rfl
  rw [if_neg hpos]
  by_cases hstage : s.gameStatus ≠ .placeJetton
  · rw [if_pos hstage]
    exact .inl rfl
  rw [if_neg hstage]
  by_cases hbanker : s.currentBanker = some c
  · rw [if_pos hbanker]
    exact .inl rfl
  rw [if_neg hbanker]
  by_cases hsystem : cfg.enableSysBanker = false ∧ s.currentBanker = none
  · rw [if_pos hsystem]
    exact .inl rfl
  rw [if_neg hsystem]
  match hu : s.tableUserItem c with
  | none => exact .inl rfl
  | some u =>
    rw [not_not] at hstage
    rw [not_le] at hpos
    simp only
    split_ifs with hscore hlimit hmax hrobot
    · exact .inl rfl
    · exact .inl rfl
    · match hlimit : s.robotLimit cfg c a lJettonScore beyond with
      | none => exact .inl rfl
      | some (false, s') => exact .inl (robotLimit_eq_some hlimit)
      | some (true, s') =>
        obtain ⟨chips, robots, rfl⟩ := robotLimit_eq_some hlimit
        exact .inr ⟨a, u, chips, robots, hstage, hbanker, rfl, hpos, hmax, rfl⟩
    · exact .inr ⟨a, u, s.chipRobotCount, s.robotAreaScore, hstage, hbanker, rfl, hpos, hmax, rfl⟩
    · exact .inl rfl

/-! ## A stake is saved, or taken back -/

theorem sum_saveJetton (c : Fin n) (a b : Area) (lJettonScore : ℤ) :
    ∑ i, (s.saveJetton c a lJettonScore).userJettonScore b i =
      ∑ i, s.userJettonScore b i + if b = a then lJettonScore else 0 := by
  by_cases hb : b = a
  · subst hb
    simp only [Table.saveJetton, update_self, sum_update_eq, if_true]
    omega
  · simp only [Table.saveJetton, update_of_ne hb, if_neg hb]
    omega

theorem allJettonScore_saveJetton (c : Fin n) (a b : Area) (lJettonScore : ℤ) :
    (s.saveJetton c a lJettonScore).allJettonScore b =
      s.allJettonScore b + if b = a then lJettonScore else 0 := by
  by_cases hb : b = a
  · subst hb
    simp only [Table.saveJetton, update_self, if_true]
  · simp only [Table.saveJetton, update_of_ne hb, if_neg hb]
    omega

theorem sum_allJettonScore_saveJetton (c : Fin n) (a : Area) (lJettonScore : ℤ) :
    ∑ b, (s.saveJetton c a lJettonScore).allJettonScore b =
      ∑ b, s.allJettonScore b + lJettonScore := by
  simp only [Table.saveJetton, sum_update_eq]
  omega

theorem userJettonScore_saveJetton (c i : Fin n) (a b : Area) (lJettonScore : ℤ) :
    (s.saveJetton c a lJettonScore).userJettonScore b i =
      s.userJettonScore b i + if b = a ∧ i = c then lJettonScore else 0 := by
  by_cases hb : b = a
  · subst hb
    by_cases hi : i = c
    · subst hi
      simp [Table.saveJetton]
    · simp [Table.saveJetton, hi]
  · simp [Table.saveJetton, hb]

theorem jettonCount_saveJetton (c i : Fin n) (a : Area) (lJettonScore : ℤ) :
    (s.saveJetton c a lJettonScore).jettonCount i =
      s.jettonCount i + if i = c then lJettonScore else 0 := by
  unfold Table.jettonCount
  simp only [userJettonScore_saveJetton, Finset.sum_add_distrib]
  by_cases hi : i = c
  · simp [hi]
  · simp [hi]

/-! ## The invariant -/

/-- A table between two rounds: nothing is staked, and nobody owes
anything. Who enters a room with a negative score is sent away. -/
structure Waiting (t : Table n) : Prop where
  free : t.gameStatus = .free
  userJettonScore_eq : ∀ a c, t.userJettonScore a c = 0
  allJettonScore_eq : ∀ a, t.allJettonScore a = 0
  lScore_nonneg : ∀ c u, t.tableUserItem c = some u → 0 ≤ u.lScore

/-- **Stakes are covered tenfold** at a table where a round began with
`start`. -/
structure Staked (start s : Table n) : Prop where
  stage : s.gameStatus = .placeJetton
  total : ∀ a, s.allJettonScore a = ∑ c, s.userJettonScore a c
  nonneg : ∀ a c, 0 ≤ s.userJettonScore a c
  covered : ∀ c u, s.tableUserItem c = some u → 10 * s.jettonCount c ≤ u.lScore
  bankerCovered : s.currentBanker.isSome → 10 * ∑ a, s.allJettonScore a ≤ s.bankerScore
  sameScore : ∀ c u, s.tableUserItem c = some u → start.userScore c = u.lScore
  bankerScore_eq : ∀ b, s.currentBanker = some b → start.userScore b = s.bankerScore
  active : ∀ c u, s.tableUserItem c = some u → u.userStatus = .playing ∨ u.userStatus = .offline

theorem userScore_eq (hu : s.tableUserItem c = some u) : s.userScore c = u.lScore := by
  unfold Table.userScore
  rw [hu]
  rfl

theorem bankerScore_onTimerFree {b : Fin n}
    (hb : t.onTimerFree.currentBanker = some b) : t.onTimerFree.bankerScore = t.userScore b := by
  have hb' : t.currentBanker = some b := hb
  simp only [Table.onTimerFree, Table.startGame, hb']

theorem Waiting.userScore_nonneg (h : Waiting t) (c : Fin n) : 0 ≤ t.userScore c := by
  unfold Table.userScore
  match hu : t.tableUserItem c with
  | none => exact le_rfl
  | some u => exact h.lScore_nonneg c u hu

theorem Staked.onTimerFree (h : Waiting t) : Staked t t.onTimerFree where
  stage := rfl
  total a := by
    change t.allJettonScore a = ∑ c, t.userJettonScore a c
    rw [h.allJettonScore_eq, Finset.sum_eq_zero fun c _ => h.userJettonScore_eq a c]
  nonneg a c := (h.userJettonScore_eq a c).ge
  covered c u hu := by
    change 10 * ∑ a, t.userJettonScore a c ≤ u.lScore
    rw [Finset.sum_eq_zero fun a _ => h.userJettonScore_eq a c]
    obtain ⟨v, hv, rfl⟩ := Option.map_eq_some_iff.1 hu
    have := h.lScore_nonneg c v hv
    split_ifs
    · omega
    · simp only
      omega
  bankerCovered hbanker := by
    obtain ⟨b, hb⟩ := Option.isSome_iff_exists.1 hbanker
    change 10 * ∑ a, t.allJettonScore a ≤ t.onTimerFree.bankerScore
    rw [Finset.sum_eq_zero fun a _ => h.allJettonScore_eq a, bankerScore_onTimerFree hb]
    have := h.userScore_nonneg b
    omega
  sameScore c u hu := by
    obtain ⟨v, hv, rfl⟩ := Option.map_eq_some_iff.1 hu
    rw [userScore_eq hv]
    split_ifs <;> rfl
  bankerScore_eq b hb := (bankerScore_onTimerFree hb).symm
  active c u hu := by
    obtain ⟨v, hv, rfl⟩ := Option.map_eq_some_iff.1 hu
    split_ifs with hoffline
    · exact .inr hoffline
    · exact .inl rfl

/-- A stake is taken from a player who is not the banker. -/
theorem Staked.saveJetton (h : Staked start s)
    (hu : s.tableUserItem c = some u) (hpos : 0 < lJettonScore)
    (hmax : lJettonScore ≤ s.getUserMaxJetton cfg c a) :
    Staked start (s.saveJetton c a lJettonScore) := by
  obtain ⟨hplayer, hbanker⟩ := getUserMaxJetton_covers hu hpos hmax
  constructor
  · exact h.stage
  · intro b
    rw [sum_saveJetton, allJettonScore_saveJetton, h.total]
  · intro b i
    rw [userJettonScore_saveJetton]
    have := h.nonneg b i
    split_ifs
    · omega
    · omega
  · intro i v hv
    rw [jettonCount_saveJetton]
    have := h.covered i v hv
    split_ifs with hi
    · subst hi
      cases hv.symm.trans hu
      omega
    · omega
  · intro hsome
    rw [sum_allJettonScore_saveJetton]
    exact hbanker hsome
  · exact h.sameScore
  · exact h.bankerScore_eq
  · exact h.active

/-- Stakes are given back. -/
theorem Staked.returnJetton (h : Staked start s) (c : Fin n) : Staked start (s.returnJetton c).1 := by
  have hjetton : ∀ a i, (s.returnJetton c).1.userJettonScore a i =
      if i = c then 0 else s.userJettonScore a i := fun a i => update_apply _ _ _ _
  constructor
  · exact h.stage
  · intro a
    change s.allJettonScore a - s.userJettonScore a c = ∑ i, update (s.userJettonScore a) c 0 i
    rw [sum_update_eq, h.total]
    omega
  · intro a i
    rw [hjetton]
    have := h.nonneg a i
    split_ifs
    · omega
    · omega
  · intro i v hv
    have hle : (s.returnJetton c).1.jettonCount i ≤ s.jettonCount i := by
      refine Finset.sum_le_sum fun a _ => ?_
      rw [hjetton]
      have := h.nonneg a i
      split_ifs
      · omega
      · omega
    have := h.covered i v hv
    omega
  · intro hsome
    have hle : ∑ a, (s.returnJetton c).1.allJettonScore a ≤ ∑ a, s.allJettonScore a := by
      refine Finset.sum_le_sum fun a _ => ?_
      have := h.nonneg a c
      change s.allJettonScore a - s.userJettonScore a c ≤ s.allJettonScore a
      omega
    have := h.bankerCovered hsome
    change 10 * ∑ a, (s.returnJetton c).1.allJettonScore a ≤ s.bankerScore
    omega
  · exact h.sameScore
  · exact h.bankerScore_eq
  · exact h.active

/-- Users leave or change their status, and the banker may be taken
off. -/
theorem Staked.withBanker (h : Staked start s) {users : Fin n → Option TableUser}
    {banker : Option (Fin n)} (turns : Turns n)
    (hbanker : ∀ b, banker = some b → s.currentBanker = some b)
    (husers : ∀ c v, users c = some v → (v.userStatus = .playing ∨ v.userStatus = .offline) ∧
      ∃ u, s.tableUserItem c = some u ∧ u.lScore = v.lScore) :
    Staked start (withBanker { s with tableUserItem := users } banker turns) := by
  constructor
  · exact h.stage
  · exact h.total
  · exact h.nonneg
  · intro i v hv
    obtain ⟨-, u, hu, hscore⟩ := husers i v hv
    rw [← hscore]
    exact h.covered i u hu
  · intro hsome
    obtain ⟨b, hb⟩ := Option.isSome_iff_exists.1 hsome
    exact h.bankerCovered (Option.isSome_iff_exists.2 ⟨b, hbanker b hb⟩)
  · intro i v hv
    obtain ⟨-, u, hu, hscore⟩ := husers i v hv
    rw [← hscore]
    exact h.sameScore i u hu
  · intro b hb
    exact h.bankerScore_eq b (hbanker b hb)
  · intro i v hv
    exact (husers i v hv).1

/-- A player leaves. The banker ends the stage. -/
theorem Staked.performStandUpAction (cfg : RoomConfig) (h : Staked start s) (c : Fin n)
    (hands : Hands) : Staked start (s.performStandUpAction cfg c hands).1 ∨
      (s.performStandUpAction cfg c hands).1.gameStatus = .gameEnd := by
  match hu : s.tableUserItem c with
  | none =>
    unfold Table.performStandUpAction
    rw [hu]
    exact .inl h
  | some u =>
    rw [performStandUpAction_eq cfg hands hu (by rw [h.stage]; nofun) (h.active c u hu)]
    by_cases hbanker : s.currentBanker = some c
    · right
      have hend : (s.concludeLeave cfg c hands).1.gameStatus = .gameEnd := by
        rw [Table.concludeLeave, if_pos hbanker]
        exact gameStatus_bankerLeave cfg s c hands
      obtain ⟨turns, hstand⟩ := onActionUserStandUp_eq cfg c (by rw [hend]; nofun)
      rw [hstand]
      exact hend
    · left
      rw [Table.concludeLeave, if_neg hbanker, if_pos h.stage]
      have hreturn := h.returnJetton c
      obtain ⟨turns, hstand⟩ := onActionUserStandUp_eq cfg c (by rw [hreturn.stage]; nofun)
      rw [hstand]
      refine hreturn.withBanker turns (fun b hb => (bankerWithout_eq_some.1 hb).1) fun i v hv => ?_
      by_cases hi : i = c
      · rw [hi, update_self] at hv
        cases hv
      · rw [update_of_ne hi] at hv
        exact ⟨hreturn.active i v hv, v, hv, rfl⟩

theorem Staked.onEventUserOffLine (cfg : RoomConfig) (h : Staked start s) (c : Fin n)
    (hands : Hands) : Staked start (s.onEventUserOffLine cfg c hands).1 ∨
      (s.onEventUserOffLine cfg c hands).1.gameStatus = .gameEnd := by
  unfold Table.onEventUserOffLine
  match hu : s.tableUserItem c with
  | none => exact .inl h
  | some u =>
    simp only
    split_ifs
    · exact .inl h
    · left
      have hstage : (s.setUserStatus c u .offline).gameStatus ≠ .free := by
        change s.gameStatus ≠ .free
        rw [h.stage]
        nofun
      obtain ⟨turns, hoff⟩ := onActionUserOffLine_eq cfg c hstage
      rw [hoff]
      refine h.withBanker turns (fun b hb => (bankerWithout_eq_some.1 hb).1) fun i v hv => ?_
      by_cases hi : i = c
      · rw [hi, update_self] at hv
        cases hv
        exact ⟨.inr rfl, u, hi ▸ hu, rfl⟩
      · rw [update_of_ne hi] at hv
        exact ⟨h.active i v hv, v, hv, rfl⟩
    · exact h.performStandUpAction cfg c hands

/-! ## The stage -/

/-- What happens in the stage: stakes, and players who leave or go off
line. -/
inductive StakeEvent (n : ℕ) where
  | placeJetton (c : Fin n) (jettonArea : UInt8) (lJettonScore : ℤ) (beyond : Bool)
  | standUp (c : Fin n) (hands : Hands)
  | offLine (c : Fin n) (hands : Hands)

def StakeEvent.toEvent : StakeEvent n → Event n
  | placeJetton c jettonArea lJettonScore beyond => .placeJetton c jettonArea lJettonScore beyond
  | standUp c hands => .standUp c hands
  | offLine c hands => .offLine c hands

def stakeStep (cfg : RoomConfig) : TotalMachine (Table n) (StakeEvent n) (Output n) :=
  fun s e => s.step cfg e.toEvent

/-- One event of the stage keeps the stakes covered, or ends it. -/
theorem Staked.step (cfg : RoomConfig) (h : Staked start s) (e : StakeEvent n) :
    Staked start (stakeStep cfg s e).1 ∨ (stakeStep cfg s e).1.gameStatus = .gameEnd := by
  cases e with
  | placeJetton c jettonArea lJettonScore beyond =>
    left
    simp only [stakeStep, StakeEvent.toEvent, Table.step]
    match hu : s.tableUserItem c with
    | none => exact h
    | some u =>
      simp only
      split_ifs
      · rcases onUserPlaceJetton_cases cfg s c jettonArea lJettonScore beyond with heq |
          ⟨a, v, chips, robots, -, -, hv, hpos, hmax, heq⟩
        · rw [heq]
          exact h
        · rw [heq]
          have hsave := h.saveJetton hv hpos hmax
          exact ⟨hsave.stage, hsave.total, hsave.nonneg, hsave.covered, hsave.bankerCovered,
            hsave.sameScore, hsave.bankerScore_eq, hsave.active⟩
      · exact h
  | standUp c hands => exact h.performStandUpAction cfg c hands
  | offLine c hands => exact h.onEventUserOffLine cfg c hands

/-- A stage that is over is not entered again. -/
theorem gameStatus_stakeStep (cfg : RoomConfig) (h : s.gameStatus = .gameEnd) (e : StakeEvent n) :
    (stakeStep cfg s e).1.gameStatus = .gameEnd := by
  cases e with
  | placeJetton c jettonArea lJettonScore beyond =>
    simp only [stakeStep, StakeEvent.toEvent, Table.step]
    match hu : s.tableUserItem c with
    | none => exact h
    | some u =>
      simp only
      split_ifs
      · rcases onUserPlaceJetton_cases cfg s c jettonArea lJettonScore beyond with heq |
          ⟨a, v, chips, robots, hstage, -⟩
        · rw [heq]
          exact h
        · rw [h] at hstage
          cases hstage
      · exact h
  | standUp c hands => exact gameStatus_performStandUpAction cfg c hands h
  | offLine c hands => exact gameStatus_onEventUserOffLine cfg c hands h

/-- **The stakes are covered in every state of the stage.** -/
theorem Staked.run (cfg : RoomConfig) (h : Waiting start) (es : List (StakeEvent n))
    (hstage : ((stakeStep cfg).run start.onTimerFree es).1.gameStatus = .placeJetton) :
    Staked start ((stakeStep cfg).run start.onTimerFree es).1 := by
  have hinv := @TotalMachine.inv_run_traced _ _ _ (stakeStep cfg)
    (fun s _ => Staked start s ∨ s.gameStatus = .gameEnd) (by
      rintro s - e (hs | hs)
      · exact hs.step cfg e
      · exact .inr (gameStatus_stakeStep cfg hs e)) es start.onTimerFree [] (.inl (.onTimerFree h))
  rcases hinv with hs | hend
  · exact hs
  · rw [hend] at hstage
    cases hstage

/-! ## The loss of a round -/

theorem deduceWinner_le (hands : Hands) (a : Area) : (deduceWinner hands a).2 ≤ 10 :=
  (compareCard_multiple hands.banker (hands.area a) ⟨le_rfl, by decide⟩).2

section

variable (h : ∀ a, 0 ≤ s.userJettonScore a c) (hands : Hands)
include h

/-- What a part of the stakes is multiplied to is at most ten times the
stakes. -/
theorem sum_multiple_le (part : Area → Bool) :
    ∑ a, (if part a then s.userJettonScore a c * (deduceWinner hands a).2 else 0) ≤
      10 * s.jettonCount c := by
  unfold Table.jettonCount
  rw [Finset.mul_sum]
  refine Finset.sum_le_sum fun a _ => ?_
  have hmultiple : ((deduceWinner hands a).2 : ℤ) ≤ 10 := by exact_mod_cast deduceWinner_le hands a
  have := Int.mul_le_mul_of_nonneg_left hmultiple (h a)
  have := h a
  split_ifs
  · omega
  · omega

theorem lostScore_le : s.lostScore hands c ≤ 10 * s.jettonCount c := by
  refine le_of_eq_of_le ?_ (sum_multiple_le h hands fun a => !(deduceWinner hands a).1)
  refine Finset.sum_congr rfl fun a _ => ?_
  cases (deduceWinner hands a).1 <;> rfl

theorem wonScore_le : s.wonScore hands c ≤ 10 * s.jettonCount c :=
  sum_multiple_le h hands fun a => (deduceWinner hands a).1

theorem wonScore_nonneg : 0 ≤ s.wonScore hands c := by
  refine Finset.sum_nonneg fun a _ => ?_
  split_ifs
  · exact Int.mul_nonneg (h a) (Int.natCast_nonneg _)
  · exact le_rfl

theorem lostScore_nonneg : 0 ≤ s.lostScore hands c := by
  refine Finset.sum_nonneg fun a _ => ?_
  split_ifs
  · exact le_rfl
  · exact Int.mul_nonneg (h a) (Int.natCast_nonneg _)

end

theorem min_le_taxed (cfg : RoomConfig) (x : ℤ) : min x 0 ≤ x - revenueOf cfg x := by
  unfold revenueOf
  split_ifs with hpos
  · have := cfg.revenue_le x hpos
    omega
  · omega

/-- What the bettors win is at most ten times all stakes. -/
theorem Staked.bankerGain_ge (h : Staked start s) (hands : Hands) :
    -(10 * ∑ a, s.allJettonScore a) ≤ s.bankerGain hands := by
  have htotal : ∑ a, s.allJettonScore a = ∑ c, s.jettonCount c := by
    simp only [h.total]
    exact Finset.sum_comm
  rw [htotal, Finset.mul_sum, ← Finset.sum_neg_distrib]
  refine Finset.sum_le_sum fun c _ => ?_
  have hwon := wonScore_le (fun a => h.nonneg a c) hands
  have hwon_nonneg := wonScore_nonneg (fun a => h.nonneg a c) hands
  have hlost := lostScore_nonneg (fun a => h.nonneg a c) hands
  split_ifs
  · omega
  · omega

/-- **No score that is computed is a loss greater than the player's
score.** -/
theorem Staked.userWinScore_ge (cfg : RoomConfig) (h : Staked start s) (hands : Hands)
    (hu : s.tableUserItem c = some u) :
    -u.lScore ≤ (s.calculateScore cfg hands).userWinScore c := by
  simp only [Table.calculateScore]
  by_cases hbanker : s.currentBanker = some c
  · have hnot : s.isBettor c = false := by
      unfold Table.isBettor
      simp [hbanker]
    rw [hnot, if_neg (by decide), if_pos hbanker]
    have hcovered := h.bankerCovered (by rw [hbanker]; rfl)
    have hscore := h.bankerScore_eq c hbanker
    rw [h.sameScore c u hu] at hscore
    have hgain := h.bankerGain_ge hands
    have htaxed := min_le_taxed cfg (s.bankerGain hands)
    have hcount := h.covered c u hu
    have hcount_nonneg : 0 ≤ s.jettonCount c := Finset.sum_nonneg fun a _ => h.nonneg a c
    omega
  · have hbettor : s.isBettor c = true := by
      unfold Table.isBettor
      simp [hbanker, hu]
    rw [if_pos hbettor]
    have hlost := lostScore_le (fun a => h.nonneg a c) hands
    have hwon := wonScore_nonneg (fun a => h.nonneg a c) hands
    have htaxed := min_le_taxed cfg (s.wonScore hands c)
    have hcovered := h.covered c u hu
    omega

/-- A banker who leaves in the stage: everybody's score is computed, and
his is written. -/
theorem performStandUpAction_banker (cfg : RoomConfig) (h : Staked start s) (hands : Hands)
    (hbanker : s.currentBanker = some c) (hu : s.tableUserItem c = some u) :
    (∀ i, i ≠ c → (s.performStandUpAction cfg c hands).1.userWinScore i =
        (s.calculateScore cfg hands).userWinScore i) ∧
      (s.performStandUpAction cfg c hands).2 =
        [.writeTableScore fun i =>
          if i = c then some ((s.calculateScore cfg hands).scoreInfo c) else none] := by
  have hcompared : compared cfg s hands =
      ({ s with gameStatus := .gameEnd } : Table n).calculateScore cfg hands :=
    if_neg (by rw [h.stage]; nofun)
  obtain ⟨turns, hleave⟩ := bankerLeave_eq cfg s c hands
  have hend : (s.bankerLeave cfg c hands).1.gameStatus ≠ .free := by
    rw [gameStatus_bankerLeave]
    nofun
  obtain ⟨turns', hstand⟩ := onActionUserStandUp_eq cfg c hend
  have hconclude : s.concludeLeave cfg c hands = s.bankerLeave cfg c hands := if_pos hbanker
  rw [performStandUpAction_eq cfg hands hu (by rw [h.stage]; nofun) (h.active c u hu), hconclude,
    hstand, hleave, hcompared]
  refine ⟨fun i hi => ?_, rfl⟩
  exact update_of_ne hi _ _

/-- **Nobody can lose what he does not have.** In every state of the stage
an area's stakes add up, a player's stakes are covered tenfold by his
score and all stakes by the banker's, and whatever is dealt, no score that
is computed or written when the stage ends, by its timer or because the
banker leaves, takes more from a player than he had when the round
began. -/
theorem stakes_are_covered (cfg : RoomConfig) (start : { t : Table n // Waiting t })
    (es : List (StakeEvent n)) (s : Table n)
    (hs : ((stakeStep cfg).run start.1.onTimerFree es).1 = s)
    (hstage : s.gameStatus = .placeJetton) :
    (∀ a, s.allJettonScore a = ∑ c, s.userJettonScore a c) ∧
      (∀ c u, s.tableUserItem c = some u → 10 * s.jettonCount c ≤ u.lScore) ∧
      (s.currentBanker.isSome → 10 * ∑ a, s.allJettonScore a ≤ s.bankerScore) ∧
      ∀ hands c u, s.tableUserItem c = some u →
        -start.1.userScore c ≤ (s.onTimerPlaceJetton cfg hands).userWinScore c ∧
        ∀ b v, s.currentBanker = some b → s.tableUserItem b = some v →
          (c ≠ b →
            -start.1.userScore c ≤ (s.performStandUpAction cfg b hands).1.userWinScore c) ∧
          ∀ info i, .writeTableScore info ∈ (s.performStandUpAction cfg b hands).2 →
            info c = some i → -start.1.userScore c ≤ i.lScore := by
  subst hs
  have h := Staked.run cfg start.2 es hstage
  refine ⟨h.total, h.covered, h.bankerCovered, fun hands c u hu => ?_⟩
  have hge := h.userWinScore_ge cfg hands hu
  rw [← h.sameScore c u hu] at hge
  refine ⟨hge, fun b v hb hv => ?_⟩
  obtain ⟨hwin, hout⟩ := performStandUpAction_banker cfg h hands hb hv
  constructor
  · intro hcb
    rw [hwin c hcb]
    exact hge
  · intro info i hmem hinfo
    rw [hout, List.mem_singleton, Output.writeTableScore.injEq] at hmem
    rw [hmem] at hinfo
    simp only at hinfo
    split_ifs at hinfo with hcb
    subst hcb
    cases hinfo
    exact hge

def fivePercent : RoomConfig where
  revenue w := w * 50 / 1000
  revenue_nonneg w hw := by omega
  revenue_le w hw := by omega

/-- A banker with 1000, and two players with 500. -/
def threePlayers : Table 3 where
  tableUserItem := ![some { userID := 1, lScore := 1000 }, some { userID := 2, lScore := 500 },
    some { userID := 3, lScore := 500 }]
  jettonTime := true
  currentBanker := some 0

theorem waiting_threePlayers : Waiting threePlayers where
  free := rfl
  userJettonScore_eq _ _ := rfl
  allJettonScore_eq _ := rfl
  lScore_nonneg c u hu := by
    match c with
    | 0 => cases hu; decide
    | 1 => cases hu; decide
    | 2 => cases hu; decide

/-- Four tens win against five low cards. -/
def tens : Hands where
  banker := [0x01, 0x02, 0x03, 0x04, 0x05]
  area _ := [0x0A, 0x1A, 0x2A, 0x3A, 0x05]

/-- A player stakes 20, another one 50 and leaves. The first loses at most
the 500 that he has. -/
theorem stakes_are_covered_threePlayers :
    -500 ≤ (((stakeStep fivePercent).run threePlayers.onTimerFree
      [.placeJetton 1 1 20 false, .placeJetton 2 3 50 false, .standUp 2 tens]).1.onTimerPlaceJetton
        fivePercent tens).userWinScore 1 :=
  ((stakes_are_covered fivePercent ⟨threePlayers, waiting_threePlayers⟩
    [.placeJetton 1 1 20 false, .placeJetton 2 3 50 false, .standUp 2 tens] _ rfl
    rfl).2.2.2 tens 1 { userID := 2, lScore := 500, userStatus := .playing } rfl).1

end GameServer.OxBattle
