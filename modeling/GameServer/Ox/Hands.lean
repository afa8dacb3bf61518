import GameServer.Ox.Timer
/-!
# Ox — runs of the table

Users sit down, stand up in the middle of a hand and act in any order.
Every event leads from a stage to a stage (`Stage.step`), so every run
does (`run_stage`).
-/

namespace GameServer.Ox.TableSink

variable {s s' : TableSink} {chair banker i : Chair} {bankerScore : ℤ} {n : ℕ}

/-! ## Who sits, and who leaves -/

theorem Seated.congr (hs : s.Seated) (hplaying : ∀ i, s'.Playing i ↔ s.Playing i)
    (husers : ∀ i, s.Playing i → s'.users i = s.users i) (htable : s'.tableScore = s.tableScore)
    (hexit : s'.exitScore = s.exitScore) : s'.Seated := by
  refine ⟨?_, fun i hi => ?_, fun i => ?_, ?_⟩
  · rw [userCount_eq]
    simp only [hplaying]
    exact hs.two
  · rw [husers i ((hplaying i).1 hi)]
    exact hs.present i ((hplaying i).1 hi)
  · rw [htable]
    exact hs.stakes i
  · rw [hexit, htable, hs.exits]
    exact Finset.sum_congr rfl fun i _ => if_congr (hplaying i).symm rfl rfl

theorem Banked.congr (hb : s.Banked banker bankerScore n)
    (hplaying : ∀ i, s'.Playing i ↔ s.Playing i)
    (husers : ∀ i, s.Playing i → s'.users i = s.users i) (hbanker : s'.bankerUser = s.bankerUser)
    (htable : s'.tableScore = s.tableScore) (hmax : s'.turnMaxScore = s.turnMaxScore) :
    s'.Banked banker bankerScore n := by
  refine ⟨hbanker.trans hb.user, (hplaying banker).2 hb.plays,
    (husers banker hb.plays).trans hb.score, ?_, ?_, ?_, fun i hi => ?_⟩
  · rw [htable, hb.stake]
  · rw [hmax, hb.limit]
  · rw [userCount_eq]
    simp only [hplaying]
    exact hb.count
  · have hidle : s.idle banker i := ⟨hi.1, (hplaying i).1 hi.2⟩
    rw [husers i hidle.2, htable, hmax]
    exact hb.limits i hidle

/-- **A chair whose user does not play** changes hands. -/
theorem Stage.reseat {status : PlayStatus} (hs : s.Stage)
    (hout : s.gameStatus = .free ∨ ¬ s.Playing chair)
    (hstatus : status ≠ .playing) (user : Option ℤ) :
    ({ s with
      users := Function.update s.users chair user
      playStatus := Function.update s.playStatus chair status } : TableSink).Stage := by
  obtain hfree | hhand := hs
  · exact .inl ⟨hfree.status, hfree.exits, hfree.stakes, hfree.called, hfree.closed, hfree.limits⟩
  have hout : ¬ s.Playing chair := by
    refine hout.resolve_left ?_
    obtain hs | hs | hs := hhand
    · obtain ⟨first, current, ht, -⟩ := hs.turn
      rw [ht.status]
      decide
    · rw [hs.betting.status]
      decide
    · rw [hs.showing.status]
      decide
  have hplaying (i : Chair) : TableSink.Playing { s with
      users := Function.update s.users chair user
      playStatus := Function.update s.playStatus chair status } i ↔ s.Playing i := by
    show Function.update s.playStatus chair status i = .playing ↔ _
    obtain rfl | hi := eq_or_ne i chair
    · rw [Function.update_self]
      exact iff_of_false hstatus hout
    · rw [Function.update_of_ne hi]
      rfl
  have husers (i : Chair) (hi : s.Playing i) :
      Function.update s.users chair user i = s.users i := by
    refine Function.update_of_ne ?_ _ _
    rintro rfl
    exact hout hi
  obtain ⟨hseated, first, current, ht, hcurrent⟩ | ⟨hbetting, i, hi, hne, hzero⟩ |
    ⟨hshowing, i, hi, hnone⟩ := hhand
  · exact .inr (.inl ⟨hseated.congr hplaying husers rfl rfl, first, current,
      ⟨ht.status, ht.firstCall, ht.caller, fun i hi => ht.called i ((hplaying i).1 hi), ht.stakes,
        ht.limits, ht.closed⟩, (hplaying current).2 hcurrent⟩)
  · obtain ⟨banker, bankerScore, n, hb⟩ := hbetting.banked
    exact .inr (.inr (.inl ⟨⟨hbetting.status, hbetting.seated.congr hplaying husers rfl rfl,
      ⟨banker, bankerScore, n, hb.congr hplaying husers rfl rfl rfl⟩, hbetting.closed⟩,
      i, (hplaying i).2 hi, hne, hzero⟩))
  · obtain ⟨banker, bankerScore, n, hb, hall⟩ := hshowing.banked
    exact .inr (.inr (.inr ⟨⟨hshowing.status, hshowing.seated.congr hplaying husers rfl rfl,
      banker, bankerScore, n, hb.congr hplaying husers rfl rfl rfl,
      fun i hi => hall i ⟨hi.1, (hplaying i).1 hi.2⟩⟩, i, (hplaying i).2 hi, hnone⟩))

/-- One who leaves plays no more. -/
def absent (s : TableSink) (chair : Chair) : TableSink :=
  { s with
    playStatus := Function.update s.playStatus chair .null
    turnMaxScore := Function.update s.turnMaxScore chair 0 }

/-- What he loses goes to the pot. -/
def leftBehind (s : TableSink) (chair : Chair) : TableSink :=
  { s.absent chair with
    exitScore := if 0 < s.tableScore chair then s.exitScore + (s.absent chair).exitStake chair
      else s.exitScore
    tableScore := Function.update s.tableScore chair ((s.absent chair).exitStake chair) }

theorem onUserLeave_eq (s : TableSink) (chair : Chair) (rand : ℕ → ℕ) :
    s.onUserLeave chair rand =
      (if s.gameStatus = .score ∨ s.gameStatus = .playing then
        if s.bankerUser = some chair then some ((s.absent chair).concludeGame, [.gameOver])
        else if (s.leftBehind chair).userCount = 1 then
          some ((s.leftBehind chair).concludeGame, [.gameOver])
        else if s.gameStatus = .score then
          if s.tableScore chair = 0 then some ((s.leftBehind chair).onUserAddScore chair 0 rand)
          else some (s.leftBehind chair, [])
        else if s.oxCard chair = none then (s.leftBehind chair).onUserOpenCard chair 0
        else some (s.leftBehind chair, [])
      else if (s.absent chair).userCount = 1 then some ((s.absent chair).concludeGame, [.gameOver])
      else if s.currentUser = some chair then (s.absent chair).onUserCallBanker chair 0
      else some (s.absent chair, [])).map fun r => (r.1, .playerExit chair :: r.2) := rfl

theorem playing_absent (s : TableSink) (chair i : Chair) :
    (s.absent chair).Playing i ↔ i ≠ chair ∧ s.Playing i := by
  show Function.update s.playStatus chair .null i = .playing ↔ _
  obtain rfl | hi := eq_or_ne i chair
  · rw [Function.update_self]
    exact iff_of_false nofun fun h => h.1 rfl
  · rw [Function.update_of_ne hi]
    exact (and_iff_right hi).symm

theorem userCount_absent (hplays : s.Playing chair) :
    (s.absent chair).userCount + 1 = s.userCount := by
  have hupdate := count_pos_update (fun i => decide (s.Playing i)) chair (decide_eq_true hplays)
  rw [userCount_eq, userCount_eq, ← hupdate]
  congr 2
  funext i
  obtain rfl | hi := eq_or_ne i chair
  · rw [Function.update_self]
    exact decide_eq_false fun h => ((playing_absent s i i).1 h).1 rfl
  · rw [Function.update_of_ne hi]
    exact decide_eq_decide.2 ((playing_absent s chair i).trans (and_iff_right hi))

theorem exitStake_nonneg (h : 0 ≤ s.tableScore chair) : 0 ≤ s.exitStake chair := by
  rw [exitStake]
  split
  · dsimp only
    split
    · split
      · omega
      · exact mul_nonneg (Int.natCast_nonneg _) (mul_nonneg h (Int.natCast_nonneg _))
    · omega
  · exact h

theorem exitStake_zero (h : s.tableScore chair = 0) : s.exitStake chair = 0 := by
  rw [exitStake, if_neg (by omega), h]

theorem exitScore_leftBehind (h : 0 ≤ s.tableScore chair) :
    (s.leftBehind chair).exitScore = s.exitScore + (s.absent chair).exitStake chair := by
  show (if 0 < s.tableScore chair then _ else _) = _
  split_ifs with hpos
  · rfl
  · rw [exitStake_zero (s := s.absent chair) (le_antisymm (not_lt.1 hpos) h), add_zero]

theorem Seated.absent (hs : s.Seated) (hplays : s.Playing chair) (hzero : s.tableScore chair = 0)
    (hone : (s.absent chair).userCount ≠ 1) : (s.absent chair).Seated := by
  have hcount := userCount_absent hplays
  refine ⟨?_, fun i hi => hs.present i ((playing_absent s chair i).1 hi).2, hs.stakes, ?_⟩
  · have := hs.two
    omega
  · refine hs.exits.trans (Finset.sum_congr rfl fun i _ => ?_)
    show _ = if (s.absent chair).Playing i then 0 else s.tableScore i
    obtain rfl | hi := eq_or_ne i chair
    · rw [hzero, ite_self, ite_self]
    · exact if_congr ((playing_absent s chair i).trans (and_iff_right hi)).symm rfl rfl

/-- The pot takes what was left behind. -/
theorem Seated.leftBehind (hs : s.Seated) (hplays : s.Playing chair)
    (hone : (s.leftBehind chair).userCount ≠ 1) : (s.leftBehind chair).Seated := by
  have hcount : (s.leftBehind chair).userCount + 1 = s.userCount := userCount_absent hplays
  refine ⟨?_, fun i hi => hs.present i ((playing_absent s chair i).1 hi).2, fun i => ?_, ?_⟩
  · have := hs.two
    omega
  · show 0 ≤ Function.update s.tableScore chair _ i
    obtain rfl | hi := eq_or_ne i chair
    · rw [Function.update_self]
      exact exitStake_nonneg (s := s.absent i) (hs.stakes i)
    · rw [Function.update_of_ne hi]
      exact hs.stakes i
  · have hupdate : (fun i => if (s.leftBehind chair).Playing i then 0
          else (s.leftBehind chair).tableScore i) =
        Function.update (fun i => if s.Playing i then 0 else s.tableScore i) chair
          ((s.absent chair).exitStake chair) := by
      funext i
      show (if (s.absent chair).Playing i then 0
        else Function.update s.tableScore chair ((s.absent chair).exitStake chair) i) = _
      obtain rfl | hi := eq_or_ne i chair
      · rw [Function.update_self, Function.update_self,
          if_neg fun h => ((playing_absent s i i).1 h).1 rfl]
      · rw [Function.update_of_ne hi, Function.update_of_ne hi]
        exact if_congr ((playing_absent s chair i).trans (and_iff_right hi)) rfl rfl
    rw [exitScore_leftBehind (hs.stakes chair), hs.exits, hupdate,
      Finset.sum_update_of_mem (Finset.mem_univ chair),
      Finset.sum_eq_add_sum_sdiff_singleton_of_mem (Finset.mem_univ chair), if_pos hplays, zero_add,
      add_comm]

theorem Banked.leftBehind (hb : s.Banked banker bankerScore n) (hplays : s.Playing chair)
    (hne : banker ≠ chair) : (s.leftBehind chair).Banked banker bankerScore n := by
  have hcount : (s.leftBehind chair).userCount + 1 = s.userCount := userCount_absent hplays
  have hn := hb.count
  refine ⟨hb.user, (playing_absent s chair banker).2 ⟨hne, hb.plays⟩, hb.score,
    (Function.update_of_ne hne _ s.tableScore).trans hb.stake,
    (Function.update_of_ne hne _ s.turnMaxScore).trans hb.limit, by omega, fun i hi => ?_⟩
  obtain ⟨hi', hplays'⟩ := (playing_absent s chair i).1 hi.2
  show ∃ own, s.users i = some own ∧
    Function.update s.turnMaxScore chair 0 i = turnMax bankerScore n own ∧
      (0 < Function.update s.tableScore chair _ i → Function.update s.tableScore chair _ i ≤
        Function.update s.turnMaxScore chair 0 i)
  rw [Function.update_of_ne hi', Function.update_of_ne hi']
  exact hb.limits i ⟨hi.1, hplays'⟩

theorem Leads.leave {r : Option (TableSink × List Output)} (h : (s.absent chair).Leads r) :
    ∃ s' out, r.map (fun r => (r.1, Output.playerExit chair :: r.2)) = some (s', out) ∧
      s'.Stage ∧ ¬ s'.Playing chair ∧ ∀ o ∈ out, o.Solvent := by
  obtain ⟨s', out, rfl, hkept⟩ := h
  exact ⟨s', .playerExit chair :: out, rfl, hkept.stage,
    fun hplays => ((playing_absent s chair chair).1 (hkept.playing _ hplays)).1 rfl,
    List.forall_mem_cons.2 ⟨trivial, hkept.solvent⟩⟩

theorem Leads.of_leftBehind {r : Option (TableSink × List Output)}
    (h : (s.leftBehind chair).Leads r) : (s.absent chair).Leads r := by
  obtain ⟨s', out, hr, hkept⟩ := h
  exact ⟨s', out, hr, hkept.stage, hkept.playing, hkept.solvent⟩

/-- A leaver's empty stake may be the last one missing. -/
theorem Betting.addNothing (hs : s.Betting) (hout : ¬ s.Playing chair) (rand : ℕ → ℕ) :
    s.Leads (some (s.onUserAddScore chair 0 rand)) := by
  have haccept : s.onUserAddScore chair 0 rand =
      if (List.finRange gamePlayer).countP (fun i =>
        0 < s.tableScore i ∧ s.playStatus i = .playing ∨ s.playStatus i ≠ .playing ∨
          some i = s.bankerUser) = gamePlayer
      then (s.sendCard rand, [.sendCard]) else (s, []) := by
    rw [onUserAddScore, if_neg (not_not.2 hs.status), if_neg fun h => hout h.1,
      if_neg fun h => h.2 rfl]
    rfl
  rw [haccept]
  split_ifs with hall
  · exact ⟨_, _, rfl, .inr (.inr (.inr (hs.sendCard ((stakes_in_iff s).1 hall) rand))),
      fun _ => id, List.forall_mem_cons.2 ⟨trivial, (by simp)⟩⟩
  · rw [stakes_in_iff] at hall
    push Not at hall
    obtain ⟨i, hi, hne, hzero⟩ := hall
    exact Stage.leads (.inr (.inr (.inl ⟨hs, i, hi, hne, le_antisymm hzero (hs.seated.stakes i)⟩)))

theorem Showing.leads_openCard {ox : UInt8} (hs : s.Showing) (hclosed : s.oxCard chair = none)
    (hox : ¬ ox > 1) (htype : ¬ (ox = 1 ∧ getCardType (s.handCardData chair) = 0)) :
    s.Leads (s.onUserOpenCard chair ox) := by
  obtain ⟨shown, ⟨hopen, hopening⟩ | ⟨banker, bankerScore, score, hopen, hle, -⟩⟩ :=
    hs.openCard hclosed hox htype
  · exact ⟨_, _, hopen, .inr (.inr (.inr hopening)), fun _ => id,
      List.forall_mem_cons.2 ⟨trivial, nofun⟩⟩
  · exact ⟨_, _, hopen, .inl (free_concludeGame _), nofun,
      List.forall_mem_cons.2 ⟨trivial, List.forall_mem_cons.2 ⟨hle, nofun⟩⟩⟩

theorem Calling.leave (hs : s.Calling) (hplays : s.Playing chair) (rand : ℕ → ℕ) :
    ∃ s' out, s.onUserLeave chair rand = some (s', out) ∧ s'.Stage ∧ ¬ s'.Playing chair ∧
      ∀ o ∈ out, o.Solvent := by
  obtain ⟨first, current, ht, hcurrent⟩ := hs.turn
  have hturn : (s.absent chair).Turn first current := by
    refine ⟨ht.status, ht.firstCall, ht.caller, fun i hi =>
      ht.called i ((playing_absent s chair i).1 hi).2, ht.stakes, fun i => ?_, ht.closed⟩
    show Function.update s.turnMaxScore chair 0 i = 0
    obtain rfl | hi := eq_or_ne i chair
    · rw [Function.update_self]
    · rw [Function.update_of_ne hi, ht.limits]
  have hseated := hs.seated.absent hplays (ht.stakes chair)
  rw [onUserLeave_eq, if_neg (by rw [ht.status]; decide)]
  refine Leads.leave (s := s) ?_
  split_ifs with hone hcaller
  · exact leads_gameOver _
  · obtain rfl : current = chair := Option.some.inj (ht.caller.symm.trans hcaller)
    obtain ⟨s', out, hcall, hkept, -⟩ := hturn.call (hseated hone) 0
    exact ⟨s', out, hcall, hkept⟩
  · have hne : current ≠ chair := by
      rintro rfl
      exact hcaller ht.caller
    exact Stage.leads (.inr (.inl ⟨hseated hone, first, current, hturn,
      (playing_absent s chair current).2 ⟨hne, hcurrent⟩⟩))

theorem Staking.leave (hs : s.Staking) (hplays : s.Playing chair) (rand : ℕ → ℕ) :
    ∃ s' out, s.onUserLeave chair rand = some (s', out) ∧ s'.Stage ∧ ¬ s'.Playing chair ∧
      ∀ o ∈ out, o.Solvent := by
  obtain ⟨banker, bankerScore, n, hb⟩ := hs.betting.banked
  rw [onUserLeave_eq, if_pos (.inl hs.betting.status), if_pos hs.betting.status]
  refine Leads.leave (s := s) ?_
  split_ifs with hbanker hone hzero
  · exact leads_gameOver _
  · exact (leads_gameOver (s.leftBehind chair)).of_leftBehind
  all_goals
    have hne : banker ≠ chair := fun heq => hbanker (hb.user.trans (congrArg some heq))
    have hbetting : (s.leftBehind chair).Betting := ⟨hs.betting.status,
      hs.betting.seated.leftBehind hplays hone, ⟨banker, bankerScore, n, hb.leftBehind hplays hne⟩,
      hs.betting.closed⟩
  · exact (hbetting.addNothing (fun h => ((playing_absent s chair chair).1 h).1 rfl)
      rand).of_leftBehind
  · obtain ⟨i, hi, hi', hnone⟩ := hs.waiting
    have hichair : i ≠ chair := by
      rintro rfl
      exact hzero hnone
    exact (Stage.leads (.inr (.inr (.inl ⟨hbetting, i, (playing_absent s chair i).2 ⟨hichair, hi⟩,
      hi', (Function.update_of_ne hichair _ s.tableScore).trans hnone⟩)))).of_leftBehind

/-- A player leaves while the cards are opened. -/
theorem Opening.leave (hs : s.Opening) (hplays : s.Playing chair) (rand : ℕ → ℕ) :
    ∃ s' out, s.onUserLeave chair rand = some (s', out) ∧ s'.Stage ∧ ¬ s'.Playing chair ∧
      ∀ o ∈ out, o.Solvent := by
  obtain ⟨banker, bankerScore, n, hb, hall⟩ := hs.showing.banked
  have hstatus : s.gameStatus ≠ .score := by
    rw [hs.showing.status]
    decide
  rw [onUserLeave_eq, if_pos (.inr hs.showing.status), if_neg hstatus]
  refine Leads.leave (s := s) ?_
  split_ifs with hbanker hone hclosed
  · exact leads_gameOver _
  · exact (leads_gameOver (s.leftBehind chair)).of_leftBehind
  all_goals
    have hne : banker ≠ chair := fun heq => hbanker (hb.user.trans (congrArg some heq))
    have hshowing : (s.leftBehind chair).Showing := by
      refine ⟨hs.showing.status, hs.showing.seated.leftBehind hplays hone, banker, bankerScore, n,
        hb.leftBehind hplays hne, fun i hi => ?_⟩
      obtain ⟨hichair, hi'⟩ := (playing_absent s chair i).1 hi.2
      exact (hall i ⟨hi.1, hi'⟩).trans_eq (Function.update_of_ne hichair _ s.tableScore).symm
  · exact (hshowing.leads_openCard hclosed (by decide) fun h =>
      absurd h.1 (by decide)).of_leftBehind
  · obtain ⟨i, hi, hnone⟩ := hs.waiting
    have hichair : i ≠ chair := by
      rintro rfl
      exact hclosed hnone
    exact (Stage.leads (.inr (.inr (.inr ⟨hshowing, i,
      (playing_absent s chair i).2 ⟨hichair, hi⟩, hnone⟩)))).of_leftBehind

/-! ## Every event -/

theorem Stage.free (hs : s.Stage) (h : s.gameStatus = .free) : s.Free := by
  obtain hs | hs | hs | hs := hs
  · exact hs
  · obtain ⟨first, current, ht, -⟩ := hs.turn
    exact absurd (h.symm.trans ht.status) (by decide)
  · exact absurd (h.symm.trans hs.betting.status) (by decide)
  · exact absurd (h.symm.trans hs.showing.status) (by decide)

theorem Stage.calling (hs : s.Stage) (h : s.gameStatus = .call) : s.Calling := by
  obtain hs | hs | hs | hs := hs
  · exact absurd (h.symm.trans hs.status) (by decide)
  · exact hs
  · exact absurd (h.symm.trans hs.betting.status) (by decide)
  · exact absurd (h.symm.trans hs.showing.status) (by decide)

theorem Stage.staking (hs : s.Stage) (h : s.gameStatus = .score) : s.Staking := by
  obtain hs | hs | hs | hs := hs
  · exact absurd (h.symm.trans hs.status) (by decide)
  · obtain ⟨first, current, ht, -⟩ := hs.turn
    exact absurd (h.symm.trans ht.status) (by decide)
  · exact hs
  · exact absurd (h.symm.trans hs.showing.status) (by decide)

theorem Stage.opening (hs : s.Stage) (h : s.gameStatus = .playing) : s.Opening := by
  obtain hs | hs | hs | hs := hs
  · exact absurd (h.symm.trans hs.status) (by decide)
  · obtain ⟨first, current, ht, -⟩ := hs.turn
    exact absurd (h.symm.trans ht.status) (by decide)
  · exact absurd (h.symm.trans hs.betting.status) (by decide)
  · exact hs

theorem Stage.present (hs : s.Stage) (hfree : s.gameStatus ≠ .free) (hplays : s.Playing i) :
    s.users i ≠ none := by
  obtain hs | hs | hs | hs := hs
  · exact absurd hs.status hfree
  · exact hs.seated.present i hplays
  · exact hs.betting.seated.present i hplays
  · exact hs.showing.seated.present i hplays

theorem Stage.leads_callBanker (hs : s.Stage) (chair : Chair) (banker : UInt8) :
    s.Leads (s.onUserCallBanker chair banker) := by
  by_cases hrefused : s.gameStatus ≠ .call ∨ s.currentUser ≠ some chair
  · rw [onUserCallBanker, if_pos hrefused]
    exact hs.leads
  · rw [not_or, not_not, not_not] at hrefused
    obtain ⟨hseated, first, current, ht, -⟩ := hs.calling hrefused.1
    obtain rfl : current = chair := Option.some.inj (ht.caller.symm.trans hrefused.2)
    obtain ⟨s', out, hcall, hkept, -⟩ := ht.call hseated banker
    exact ⟨s', out, hcall, hkept⟩

theorem Stage.leads_addScore (hs : s.Stage) (hplays : s.Playing chair) (score : ℤ)
    (rand : ℕ → ℕ) : s.Leads (some (s.onUserAddScore chair score rand)) := by
  by_cases hstatus : s.gameStatus = .score
  · obtain ⟨hbetting, -⟩ := hs.staking hstatus
    by_cases hrefused : score ≤ 0 ∨ s.turnMaxScore chair < score
    · rw [addScore_refused hplays hrefused]
      exact hs.leads
    · rw [not_or, not_le, not_lt] at hrefused
      obtain ⟨hadd, hstaking⟩ | ⟨hadd, hopening, -⟩ :=
        hbetting.addScore hplays hrefused.1 hrefused.2 rand
      · rw [hadd]
        exact ⟨_, _, rfl, .inr (.inr (.inl hstaking)), fun _ => id,
          List.forall_mem_cons.2 ⟨trivial, nofun⟩⟩
      · rw [hadd]
        exact ⟨_, _, rfl, .inr (.inr (.inr hopening)), fun _ => id,
          List.forall_mem_cons.2 ⟨trivial, List.forall_mem_cons.2 ⟨trivial, nofun⟩⟩⟩
  · rw [onUserAddScore, if_pos hstatus]
    exact hs.leads

theorem Stage.leads_openCard (hs : s.Stage) (chair : Chair) (ox : UInt8) :
    s.Leads (s.onUserOpenCard chair ox) := by
  by_cases hrefused : s.gameStatus ≠ .playing ∨ s.oxCard chair ≠ none
  · rw [onUserOpenCard, if_pos hrefused]
    exact hs.leads
  by_cases hox : ox > 1
  · rw [onUserOpenCard, if_neg hrefused, if_pos hox]
    exact hs.leads
  by_cases htype : ox = 1 ∧ getCardType (s.handCardData chair) = 0
  · rw [onUserOpenCard, if_neg hrefused, if_neg hox, if_pos htype]
    exact hs.leads
  rw [not_or, not_not, not_not] at hrefused
  exact (hs.opening hrefused.1).showing.leads_openCard hrefused.2 hox htype

/-- **A hand starts** with two users at least. -/
theorem Free.start (hs : s.Free) {users : Chair → Option ℤ}
    (htwo : 2 ≤ (List.finRange gamePlayer).countP fun i => (users i).isSome) (rand : ℕ) :
    ∃ s' out, { s with users }.onEventGameStart rand = some (s', out) ∧ s'.Stage ∧
      ∀ o ∈ out, o.Solvent := by
  obtain ⟨t, ht⟩ : ∃ t : TableSink, t = { s with
      users
      gameStatus := .call
      playStatus := fun i => if users i = none then .null else .playing } := ⟨_, rfl⟩
  obtain ⟨start, hstart⟩ : ∃ start, { s with users }.onEventGameStart rand =
      (t.seek start).map fun chair =>
        ({ t with firstCallUser := some chair, currentUser := some chair }, [.callBanker chair]) := by
    rw [ht]
    exact ⟨_, rfl⟩
  have hplaying (i : Chair) : t.Playing i ↔ (users i).isSome := by
    rw [ht]
    show (if users i = none then PlayStatus.null else .playing) = .playing ↔ _
    split_ifs with hnone
    · rw [hnone]
      exact iff_of_false (by simp) (by simp)
    · exact iff_of_true rfl (Option.isSome_iff_ne_none.2 hnone)
  have hcount : 2 ≤ t.userCount := by
    rw [userCount_eq]
    simp only [hplaying, Bool.decide_eq_true]
    exact htwo
  obtain ⟨i, -, hi⟩ := exists_other (fun i => (users i).isSome) htwo 0
  obtain ⟨chair, hseek, hchair⟩ := seek_spec start ⟨i, (hplaying i).2 hi⟩
  rw [hseek] at hstart
  subst ht
  refine ⟨_, _, hstart, .inr (.inl ⟨⟨hcount, fun i hi => ?_, fun i => ?_, ?_⟩,
    chair, chair, ⟨rfl, rfl, rfl, fun i _ => ?_, hs.stakes, hs.limits, hs.closed⟩, hchair⟩),
    List.forall_mem_singleton.2 trivial⟩
  · exact Option.isSome_iff_ne_none.1 ((hplaying i).1 hi)
  · exact (hs.stakes i).ge
  · refine hs.exits.trans (Finset.sum_eq_zero fun i _ => ?_).symm
    split_ifs
    · rfl
    · exact hs.stakes i
  · rw [hs.called]
    exact iff_of_false (by simp) (not_before i chair)

/-- **The end of the time**: the next one is asked or the banker is found,
the stakes end if all limits allow the default ones, and the cards are
settled. -/
theorem Stage.timer (hs : s.Stage) (hfree : s.gameStatus ≠ .free) (rand : ℕ → ℕ) :
    ∃ s' out, s.onTimerMessage rand = some (s', out) ∧ s'.Stage ∧ (∀ o ∈ out, o.Solvent) ∧
      (s.gameStatus = .call → s'.Staking ∨ s'.Calling ∧ ∃ current next,
        s.currentUser = some current ∧ s'.currentUser = some next ∧ next ≠ current ∧
          s.Playing next ∧ s.callStatus next = false ∧ s'.callStatus current = true) ∧
      (s.gameStatus = .score → (s'.gameStatus = .playing ↔ ∀ i, s.Due i → 8 ≤ s.turnMaxScore i)) ∧
      (s.gameStatus = .playing → s'.gameStatus = .free ∧
        ∃ banker bankerScore score, Output.gameEnd banker bankerScore score ∈ out) := by
  cases hstatus : s.gameStatus with
  | free => exact absurd hstatus hfree
  | call =>
    obtain ⟨hseated, first, current, ht, -⟩ := hs.calling hstatus
    obtain ⟨s', out, hcall, hkept, hnext⟩ := ht.call hseated 0
    refine ⟨s', out, ?_, hkept.stage, hkept.solvent, fun _ => ?_, (by simp), (by simp)⟩
    · rw [onTimerMessage, hstatus]
      simp only [ht.caller]
      exact hcall
    · exact hnext.imp_right fun h => ⟨h.1, current, h.2.imp fun _ h => ⟨ht.caller, h⟩⟩
  | score =>
    obtain ⟨s', out, hrun, hsolvent, hend⟩ :=
      (hs.staking hstatus).run_autoScore rand (List.finRange gamePlayer)
    refine ⟨s', out, (onTimerMessage_score hstatus rand).trans hrun, ?_, hsolvent, (by simp),
      fun _ => ?_, (by simp)⟩
    · exact hend.elim (fun h => .inr (.inr (.inr h.1))) fun h => .inr (.inr (.inl h.1))
    · obtain ⟨hopening, hall⟩ | ⟨hstaking, i, hi, hlow⟩ := hend
      · exact iff_of_true hopening.showing.status fun i hi => (hall i hi).2
      · refine iff_of_false ?_ fun hall => ?_
        · rw [hstaking.betting.status]
          decide
        · exact absurd (hall i hi) (not_le.2 (hlow.resolve_left (not_not.2 (List.mem_finRange i))))
  | playing =>
    obtain ⟨s', out, hrun, hsolvent, hend⟩ :=
      (hs.opening hstatus).run_autoOpen (List.finRange gamePlayer)
    refine ⟨s', out, (onTimerMessage_playing hstatus rand).trans hrun, ?_, hsolvent, (by simp), (by simp),
      fun _ => ?_⟩
    · exact hend.elim (fun h => .inl h.1) fun h => .inr (.inr (.inr h.1))
    · obtain ⟨hdone, -, hend, -⟩ | ⟨-, i, -, hi⟩ := hend
      · exact ⟨hdone.status, hend⟩
      · exact absurd (List.mem_finRange i) hi

/-- **What every event keeps**: the table is in a stage, and no settlement
costs the banker more than he has. -/
theorem Stage.step (hs : s.Stage) (e : Event) :
    ∃ s' out, s.step e = some (s', out) ∧ s'.Stage ∧ ∀ o ∈ out, o.Solvent := by
  have hleads {r : Option (TableSink × List Output)} (h : s.Leads r) :
      ∃ s' out, r = some (s', out) ∧ s'.Stage ∧ ∀ o ∈ out, o.Solvent := by
    obtain ⟨s', out, hr, hkept⟩ := h
    exact ⟨s', out, hr, hkept.stage, hkept.solvent⟩
  cases e with
  | gameStart users rand =>
    rw [TableSink.step]
    split_ifs with hstart
    · exact (hs.free hstart.1).start hstart.2 rand
    · exact hleads hs.leads
  | sitDown chair score =>
    rw [TableSink.step]
    split_ifs with hempty hhand
    · exact ⟨_, [], rfl, hs.reseat (.inr fun hplays => hs.present hhand hplays hempty)
        (show PlayStatus.dynamic ≠ .playing from nofun) (some score), nofun⟩
    · have hs := hs.free (not_not.1 hhand)
      exact ⟨_, [], rfl,
        .inl ⟨hs.status, hs.exits, hs.stakes, hs.called, hs.closed, hs.limits⟩, nofun⟩
    · exact hleads hs.leads
  | standUp chair rand =>
    have hnull : PlayStatus.null ≠ .playing := nofun
    rw [TableSink.step]
    split_ifs with hhand
    · have hleave : ∃ s' out, s.onUserLeave chair rand = some (s', out) ∧ s'.Stage ∧
          ¬ s'.Playing chair ∧ ∀ o ∈ out, o.Solvent := by
        obtain hs | hs | hs | hs := hs
        · exact absurd hs.status hhand.1
        · exact hs.leave hhand.2 rand
        · exact hs.leave hhand.2 rand
        · exact hs.leave hhand.2 rand
      obtain ⟨s', out, hleave, hstage, hout, hsolvent⟩ := hleave
      rw [hleave]
      exact ⟨_, _, rfl, hstage.reseat (.inr hout) hnull none, hsolvent⟩
    · refine ⟨_, _, rfl, hs.reseat ?_ hnull none, nofun⟩
      exact (not_and_or.1 hhand).imp_left not_not.1
  | callBanker chair playing banker =>
    rw [TableSink.step]
    split_ifs
    · exact hleads (hs.leads_callBanker chair banker)
    · exact hleads hs.leads
  | addScore chair playing score rand =>
    rw [TableSink.step]
    split_ifs with hplays
    · exact hleads (hs.leads_addScore hplays.2 score rand)
    · exact hleads hs.leads
  | openCard chair playing ox =>
    rw [TableSink.step]
    split_ifs
    · exact hleads (hs.leads_openCard chair ox)
    · exact hleads hs.leads
  | timer rand =>
    by_cases hfree : s.gameStatus = .free
    · rw [TableSink.step, onTimerMessage, hfree]
      exact hleads hs.leads
    · obtain ⟨s', out, htimer, hstage, hsolvent, -⟩ := hs.timer hfree rand
      exact ⟨s', out, htimer, hstage, hsolvent⟩

/-- **Every run** goes from stage to stage. -/
theorem run_stage (events : List Event) : ∃ r, Machine.run step {} events = some r ∧ r.1.Stage ∧
    ∀ o ∈ r.2, o.Solvent := by
  have hstep (s : TableSink) (h : List Output) (e : Event) (hs : s.Stage ∧ ∀ o ∈ h, o.Solvent)
      (_ : True) : ∃ s' out, s.step e = some (s', out) ∧
        s'.Stage ∧ ∀ o ∈ h ++ out, o.Solvent := by
    obtain ⟨s', out, he, hstage, hsolvent⟩ := hs.1.step e
    exact ⟨s', out, he, hstage, List.forall_mem_append.2 ⟨hs.2, hsolvent⟩⟩
  exact Machine.inv_run_total hstep events {} [] ⟨.inl (free_concludeGame {}), nofun⟩
    (Machine.along_of_forall (fun _ _ => trivial) _ _)

end GameServer.Ox.TableSink
