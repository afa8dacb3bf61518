import GameServer.PrivateService.Independence
import GameServer.PrivateService.Registry
/-!
# PrivateService — rooms over runs

Every event keeps the registry of rooms where its condition holds, so a
run all of whose events meet it does. Where a vote is still written down
when a room has ended, the timer closes the room once more.
-/

namespace GameServer.PrivateService

open PrivateGame ServiceCore

variable {opt : ServiceOption} {s s' : PrivateGame} {u : UserID} {t : ℕ} {given : Given}

/-! ## Hands, and closing after them -/

theorem tableInfo_createPrivateCost (s : PrivateGame) (t : ℕ) :
    (s.createPrivateCost opt t).tableInfo = s.tableInfo := by
  have hevery : ∀ divideCost, (s.everyOnePrivateCost opt t divideCost).tableInfo = s.tableInfo := by
    intro divideCost
    rw [everyOnePrivateCost]
    split
    · rfl
    · rfl
  rw [createPrivateCost]
  split
  · split
    · exact hevery true
    · rfl
  · exact hevery false

theorem concludeGame_eq (s : PrivateGame) (t : ℕ) (dismissed : Bool) (given : Given)
    (hgame : (s.tableFrame t).gameStarted = true) :
    ∃ s', Quiet s s' ∧ s'.tableInfo = s.tableInfo ∧
      s.concludeGame opt t dismissed given = s'.onEventGameEnd opt t gameStatusFree given := by
  have hseats := @onlySeats_leaveOffLine opt
    (s.setFrame t { s.tableFrame t with gameStarted := false }) t given.offLine
  refine ⟨_, ?_, ?_, by rw [concludeGame, if_pos hgame]⟩
  · exact (quiet_onlySeats ((onlySeats_setFrame ..).trans hseats)).trans
      (quiet_emit _ (by simp [Effect.registers]))
  · exact hseats.tableInfo

theorem onEventGameEnd_open (s : PrivateGame) (t reason : ℕ) (given : Given)
    (htype : (s.tableInfo t).roomType = .typePrivate) (hend : given.privateEnd t = false) :
    Quiet s (s.onEventGameEnd opt t reason given) ∧
      (s.onEventGameEnd opt t reason given).tableInfo = s.tableInfo := by
  rw [onEventGameEnd, htype, hend]
  dsimp only
  rw [if_neg Bool.false_ne_true]
  split
  · exact ⟨quiet_createPrivateCost .., tableInfo_createPrivateCost ..⟩
  · exact ⟨.refl s, rfl⟩

/-- The end of a hand that closes the room. -/
theorem Registry.onEventGameEnd (hs : Registry opt s) (ht : t < opt.tableCount) (reason : ℕ)
    (hok : ((s.tableInfo t).roomType = .typePublic ∨ given.privateEnd t = true) →
      (s.tableInfo t).createrUserID ≠ 0) :
    Registry opt (s.onEventGameEnd opt t reason given) := by
  rw [PrivateGame.onEventGameEnd]
  split
  · dsimp only
    have hcost : Quiet s (if reason ≠ gerDismiss ∧ (s.tableInfo t).startPlayCout = 1 then
        s.createPrivateCost opt t else s) := by
      split
      · exact quiet_createPrivateCost ..
      · exact .refl s
    split
    · rename_i hend
      refine (hs.quiet hcost).closes ht ?_ (closes_closeRoom _ t)
      rw [hcost.createrUserID]
      exact hok (.inr hend)
    · exact hs.quiet hcost
  · rename_i htype
    have hcost := @quiet_createPrivateCost opt s t
    have hclose := @closes_closeRoom opt (s.createPrivateCost opt t) t
    refine Registry.quiet ?_ (quiet_clearIdle hclose.createrUserID)
    refine (hs.quiet hcost).closes ht ?_ hclose
    rw [hcost.createrUserID]
    exact hok (.inl htype)

/-- **The end of a hand.** -/
theorem Registry.concludeGame (hs : Registry opt s) (ht : t < opt.tableCount) (dismissed : Bool)
    (hok : HandEndOk (s.tableInfo t) (s.tableFrame t) (given.privateEnd t)) :
    Registry opt (s.concludeGame opt t dismissed given) := by
  by_cases hgame : (s.tableFrame t).gameStarted = true
  · obtain ⟨s₁, hquiet, hinfo, heq⟩ := @concludeGame_eq opt s t dismissed given hgame
    rw [heq]
    refine (hs.quiet hquiet).onEventGameEnd ht _ ?_
    rw [hinfo]
    exact hok hgame
  · rw [concludeGame_of_idle (Bool.eq_false_iff.2 hgame)]
    exact hs

theorem concludeGame_open (s : PrivateGame) (t : ℕ) (dismissed : Bool) (given : Given)
    (h : (s.tableFrame t).gameStarted = true →
      (s.tableInfo t).roomType = .typePrivate ∧ given.privateEnd t = false) :
    Quiet s (s.concludeGame opt t dismissed given) ∧
      (s.concludeGame opt t dismissed given).tableInfo = s.tableInfo := by
  by_cases hgame : (s.tableFrame t).gameStarted = true
  · obtain ⟨htype, hend⟩ := h hgame
    obtain ⟨s₁, hquiet, hinfo, heq⟩ := @concludeGame_eq opt s t dismissed given hgame
    obtain ⟨hquiet', hinfo'⟩ := @onEventGameEnd_open opt s₁ t gameStatusFree given
      (by rw [hinfo, htype]) hend
    rw [heq]
    exact ⟨hquiet.trans hquiet', hinfo'.trans hinfo⟩
  · rw [concludeGame_of_idle (Bool.eq_false_iff.2 hgame)]
    exact ⟨.refl s, rfl⟩

/-- **An open room is dismissed.** -/
theorem Registry.dismissRoom (hs : Registry opt s) (ht : t < opt.tableCount)
    (hok : Dismissable (s.tableInfo t) (s.tableFrame t) (given.privateEnd t)) :
    Registry opt (s.dismissRoom opt t given) ∧
      ((s.dismissRoom opt t given).tableInfo t).createrUserID = 0 := by
  obtain ⟨hquiet, hinfo⟩ := @concludeGame_open opt s t true given hok.2
  have hclose := @closes_closeRoom opt (s.concludeGame opt t true given) t
  refine ⟨(hs.quiet hquiet).closes ht ?_ hclose, hclose.createrUserID⟩
  rw [hinfo]
  exact hok.1

/-- A room that has not started leaves no vote when it is dismissed. -/
theorem dismissChairID_dismissRoom (hstart : (s.tableInfo t).start = false)
    (hok : Dismissable (s.tableInfo t) (s.tableFrame t) (given.privateEnd t)) :
    ((s.dismissRoom opt t given).tableInfo t).dismissChairID = [] := by
  obtain ⟨-, hinfo⟩ := @concludeGame_open opt s t true given hok.2
  obtain ⟨s₁, hseats, hclear⟩ := @clearIdle_eq opt
    ((s.concludeGame opt t true given).delPRMRedisKey t) t
  rw [PrivateGame.dismissRoom, closeRoom, hinfo, hstart, if_neg Bool.false_ne_true, hclear]
  show (Function.update s₁.tableInfo t _ t).dismissChairID = []
  rw [Function.update_self]
  rfl

theorem Registry.performStandUpAction (hs : Registry opt s) (u : UserID) (ht : t < opt.tableCount)
    (hok : given.leaveConcludes = true →
      HandEndOk (s.tableInfo t) (s.tableFrame t) (given.privateEnd t)) :
    Registry opt (s.performStandUpAction opt u t given) := by
  refine Registry.quiet ?_ (quiet_onlySeats (onlySeats_leaveTable ..))
  split
  · rename_i hleave
    exact hs.concludeGame ht false (hok hleave)
  · exact hs

/-! ## Clearing a table -/

/-- All users leave a table, where the hand they leave does not close its
room. -/
theorem leaveAll_open (hok : given.leaveConcludes = true → (s.tableFrame t).gameStarted = true →
      (s.tableInfo t).roomType = .typePrivate ∧ given.privateEnd t = false) (cs : List ℕ) :
    Quiet s (leaveChairs opt (fun s u => s.performStandUpAction opt u t given) t cs s) := by
  have hkeeps := @leaveChairs_keeps opt
    (fun s' => Quiet s s' ∧ s'.tableInfo = s.tableInfo ∧
      ((s'.tableFrame t).gameStarted = true → (s.tableFrame t).gameStarted = true))
    (fun s u => s.performStandUpAction opt u t given) ?_ t cs s ⟨.refl s, rfl, id⟩
  · exact hkeeps.1
  · intro s' u ⟨hquiet, hinfo, hgame⟩
    rw [PrivateGame.performStandUpAction, gameStarted_leaveTable]
    have hseats := @onlySeats_leaveTable opt (if given.leaveConcludes = true then
      s'.concludeGame opt t false given else s') u t
    rw [hseats.tableInfo]
    by_cases hleave : given.leaveConcludes = true
    · -- the first user concludes the hand
      rw [if_pos hleave] at hseats ⊢
      obtain ⟨hopen, hinfo'⟩ := @concludeGame_open opt s' t false given (by
        rw [hinfo]
        exact fun h => hok hleave (hgame h))
      refine ⟨(hquiet.trans hopen).trans (quiet_onlySeats hseats), hinfo'.trans hinfo, fun h => ?_⟩
      have hidle := @idle_concludeGame opt s' t false given
      rw [Idle, h] at hidle
      cases hidle
    · rw [if_neg hleave] at hseats ⊢
      exact ⟨hquiet.trans (quiet_onlySeats hseats), hinfo, hgame⟩

theorem leaveChairs_of_empty {leave : PrivateGame → UserID → PrivateGame}
    (h : ∀ c < opt.chairCount, (s.tableFrame t).tableUserItem c = none) (cs : List ℕ) :
    leaveChairs opt leave t cs s = s := by
  induction cs with
  | nil => rfl
  | cons c cs ih =>
    have hnone : s.getTableUserItem opt t c = none := by
      rw [getTableUserItem]
      split
      · rename_i hc
        exact h c hc
      · rfl
    rw [leaveChairs, hnone]
    exact ih

/-- A table whose room is not open is cleared, also while a game runs. -/
theorem quiet_clearRoom (hclosed : (s.tableInfo t).createrUserID = 0)
    (hok : given.leaveConcludes = true →
      (∃ c < opt.chairCount, (s.tableFrame t).tableUserItem c ≠ none) →
      HandEndOk (s.tableInfo t) (s.tableFrame t) (given.privateEnd t)) :
    Quiet s (s.clearRoom opt t given) := by
  have hleave : Quiet s (leaveChairs opt (fun s u => s.performStandUpAction opt u t given) t
      (List.range opt.chairCount) s) := by
    by_cases hseated : ∃ c < opt.chairCount, (s.tableFrame t).tableUserItem c ≠ none
    · refine leaveAll_open (fun hconcludes hgame => ?_) _
      -- the end of the hand does not close a room that is not open
      have hnot := fun hcloses => hok hconcludes hseated hgame hcloses hclosed
      constructor
      · cases htype : (s.tableInfo t).roomType with
        | typePrivate => rfl
        | typePublic => exact absurd (.inl htype) hnot
      · exact Bool.eq_false_iff.2 fun hend => hnot (.inr hend)
    · push Not at hseated
      rw [leaveChairs_of_empty hseated]
      exact .refl s
  refine hleave.trans (quiet_restValue ?_)
  rw [hleave.createrUserID]
  exact hclosed

/-! ## The timer -/

/-- A room that has ended waits, or is cleared. -/
theorem Registry.timerAgain (hs : Registry opt s)
    (hok : Cleared (s.tableInfo t) → given.leaveConcludes = true →
      (∃ c < opt.chairCount, (s.tableFrame t).tableUserItem c ≠ none) →
      HandEndOk (s.tableInfo t) (s.tableFrame t) (given.privateEnd t)) :
    Registry opt (s.timerAgain opt t given) := by
  rw [PrivateGame.timerAgain]
  split
  · rename_i hend
    have hquiet := quiet_modifyInfo s t
      (fun info => { info with againPastTime := info.againPastTime + 5 }) rfl (fun _ => rfl) id
    dsimp only
    refine hs.quiet (hquiet.trans ?_)
    split
    · rename_i hdue
      rw [tableInfo_modifyInfo] at hdue
      refine quiet_clearRoom ?_ ?_
      · rw [hquiet.createrUserID]
        exact hs.ended t hend
      · rw [tableInfo_modifyInfo]
        exact hok ⟨hend, hdue⟩
    · exact .refl _
  · exact hs

/-- A room that has not started waits, or is dismissed. -/
theorem Registry.timerCreate (hs : Registry opt s) (ht : t < opt.tableCount)
    (hok : Expired (s.tableInfo t) →
      Dismissable (s.tableInfo t) (s.tableFrame t) (given.privateEnd t)) :
    Registry opt (s.timerCreate opt t given) := by
  rw [PrivateGame.timerCreate]
  split
  · rename_i hopen
    have hquiet := quiet_modifyInfo s t
      (fun info => { info with createTime := info.createTime + 5 }) rfl (fun _ => rfl) id
    dsimp only
    split
    · rename_i hdue
      refine ((hs.quiet hquiet).dismissRoom ht ?_).1
      rw [tableInfo_modifyInfo] at hdue ⊢
      exact hok ⟨Nat.pos_iff_ne_zero.1 hopen.1, hopen.2, hdue⟩
    · exact hs.quiet hquiet
  · exact hs

theorem Registry.timerDismiss (hs : Registry opt s) (ht : t < opt.tableCount)
    (hok : VoteDue (s.tableInfo t) →
      Dismissable (s.tableInfo t) (s.tableFrame t) (given.privateEnd t)) :
    Registry opt (s.timerDismiss opt t given) := by
  rw [PrivateGame.timerDismiss]
  split
  · rename_i hvote
    have hquiet := quiet_modifyInfo s t
      (fun info => { info with dismissPastTime := info.dismissPastTime + 5 }) rfl (fun _ => rfl) id
    dsimp only
    split
    · rename_i hdue
      refine ((hs.quiet hquiet).dismissRoom ht ?_).1
      rw [tableInfo_modifyInfo] at hdue ⊢
      exact hok ⟨hvote, hdue⟩
    · exact hs.quiet hquiet
  · exact hs

/-- After the room that has ended had its turn. -/
theorem timerAgain_cases (s : PrivateGame) (t : ℕ) (given : Given) :
    (Cleared (s.tableInfo t) ∧ ((s.timerAgain opt t given).tableInfo t).createrUserID = 0 ∧
        ((s.timerAgain opt t given).tableInfo t).dismissChairID = []) ∨
      (¬Cleared (s.tableInfo t) ∧
        (s.timerAgain opt t given).tableFrame t = s.tableFrame t ∧
        ∃ againPastTime, (s.timerAgain opt t given).tableInfo t =
          { s.tableInfo t with againPastTime }) := by
  rw [PrivateGame.timerAgain]
  split
  · rename_i hend
    dsimp only
    rw [tableInfo_modifyInfo]
    split
    · rename_i hdue
      rw [clearRoom, tableInfo_modifyInfo]
      exact .inl ⟨⟨hend, hdue⟩, rfl, rfl⟩
    · rename_i hdue
      exact .inr ⟨fun h => hdue h.2, rfl, _, tableInfo_modifyInfo ..⟩
  · rename_i hend
    exact .inr ⟨fun h => hend h.1, rfl, _, rfl⟩

/-- After the room that has not started had its turn. -/
theorem timerCreate_cases (s : PrivateGame) (t : ℕ) (given : Given)
    (hok : Expired (s.tableInfo t) →
      Dismissable (s.tableInfo t) (s.tableFrame t) (given.privateEnd t)) :
    ((s.timerCreate opt t given).tableInfo t).dismissChairID = [] ∨
      (¬Expired (s.tableInfo t) ∧
        (s.timerCreate opt t given).tableFrame t = s.tableFrame t ∧
        ∃ createTime, (s.timerCreate opt t given).tableInfo t =
          { s.tableInfo t with createTime }) := by
  rw [PrivateGame.timerCreate]
  split
  · rename_i hopen
    dsimp only
    rw [tableInfo_modifyInfo]
    split
    · rename_i hdue
      refine .inl (dismissChairID_dismissRoom ?_ ?_)
      · rw [tableInfo_modifyInfo]
        exact hopen.2
      · rw [tableInfo_modifyInfo]
        exact hok ⟨Nat.pos_iff_ne_zero.1 hopen.1, hopen.2, hdue⟩
    · rename_i hdue
      exact .inr ⟨fun h => hdue h.2.2, rfl, _, tableInfo_modifyInfo ..⟩
  · rename_i hopen
    exact .inr ⟨fun h => hopen ⟨Nat.pos_of_ne_zero h.1, h.2.1⟩, rfl, _, rfl⟩

theorem timerCreate_of_closed (h : (s.tableInfo t).createrUserID = 0) :
    s.timerCreate opt t given = s := by
  rw [PrivateGame.timerCreate, h]
  exact if_neg fun hlt => absurd hlt.1 (Nat.lt_irrefl 0)

theorem timerDismiss_of_nil (h : (s.tableInfo t).dismissChairID = []) :
    s.timerDismiss opt t given = s := by
  rw [PrivateGame.timerDismiss, h]
  exact if_neg fun hne => hne rfl

/-- **The timer at a table.** At most one of the three closes its room. -/
theorem Registry.timerTable (hs : Registry opt s) (ht : t < opt.tableCount)
    (hok : TimerOk opt given (s.tableInfo t) (s.tableFrame t) t) :
    Registry opt (s.timerTable opt t given) := by
  obtain ⟨hclear, hcreate, hvote⟩ := hok
  have hagain := hs.timerAgain hclear
  rw [PrivateGame.timerTable]
  rcases @timerAgain_cases opt s t given with ⟨-, hclosed, hnil⟩ | ⟨hnot, hframe, _, hinfo⟩
  · rw [timerCreate_of_closed hclosed, timerDismiss_of_nil hnil]
    exact hagain
  · have hok₁ : Expired ((s.timerAgain opt t given).tableInfo t) →
        Dismissable ((s.timerAgain opt t given).tableInfo t)
          ((s.timerAgain opt t given).tableFrame t) (given.privateEnd t) := by
      rw [hinfo, hframe]
      exact hcreate
    have hcreated := hagain.timerCreate ht hok₁
    rcases @timerCreate_cases opt (s.timerAgain opt t given) t given hok₁ with
      hnil | ⟨hnot₁, hframe₁, _, hinfo₁⟩
    · rw [timerDismiss_of_nil hnil]
      exact hcreated
    · refine hcreated.timerDismiss ht ?_
      rw [hinfo₁, hframe₁, hinfo, hframe]
      rw [hinfo] at hnot₁
      exact fun hdue => hvote hdue hnot hnot₁

/-! ## Creating a room -/

theorem seatable_of_joinPrivateRoom {admits : Bool}
    (h : (s.joinPrivateRoom opt u t admits).2 = true) :
    Seatable opt s u t admits := by
  rw [joinPrivateRoom] at h
  split at h
  · rename_i hseated
    exact .inl hseated
  · refine .inr ?_
    split at h
    · cases h
    · rename_i c hfind
      have hnone := List.find?_some hfind
      have hlt := List.mem_range.1 (List.mem_of_find?_eq_some hfind)
      refine ⟨⟨c, hlt, Option.isNone_iff_eq_none.1 hnone⟩, ?_⟩
      split at h
      · rename_i t' htable
        exact .inl (by rw [htable, eq_of_beq h])
      · rename_i htable
        split at h
        · rename_i hadmits
          exact .inr ⟨htable, hadmits⟩
        · cases h

/-- **A room is opened** at a table without one, with a number that is
left. -/
theorem Registry.enterRoom (hs : Registry opt s) (ht : t < opt.tableCount)
    (hfree : (s.tableInfo t).createrUserID = 0) (hend : (s.tableInfo t).inEnd = false)
    {request : CreatePrivateResult} (hok : NumberLeft opt s u t given) :
    Registry opt (s.enterRoom opt u request t given) := by
  rw [PrivateGame.enterRoom]
  have hquiet := quiet_sits (@sits_joinPrivateRoom opt s u t given.admits)
  have hjoined := hs.quiet hquiet
  split
  · rename_i hsat
    refine Registry.quiet ?_ (quiet_sits (sits_onActionUserSitDown ..))
    refine hjoined.opens ht ?_ ?_ (opens_storeRoom _ u request t given.time ?_)
    · rw [hquiet.createrUserID]
      exact hfree
    · rw [hquiet.allocationID]
      exact hok (seatable_of_joinPrivateRoom hsat.1) hsat.2
    · refine Bool.eq_false_iff.2 fun h => ?_
      rw [hquiet.inEnd t h] at hend
      cases hend
  · exact hjoined

theorem getTableInfoByCreaterID_takeTable (h : (s.tableInfo t).createrUserID = 0) (c : ℕ) :
    (s.takeTable opt t).getTableInfoByCreaterID opt c = s.getTableInfoByCreaterID opt c := by
  have hreset : Quiet (s.emit [.takeTable t (s.tableInfo t).createrUserID]) (s.takeTable opt t) :=
    quiet_restValue h
  have hcreater : ∀ t', ((s.takeTable opt t).tableInfo t').createrUserID =
      (s.tableInfo t').createrUserID := hreset.createrUserID
  rw [getTableInfoByCreaterID, getTableInfoByCreaterID]
  simp only [hcreater]

theorem Registry.onEventCreatePrivate (hs : Registry opt s) {request : CreatePrivateResult}
    (hok : CreateOk opt s u request given) :
    Registry opt (s.onEventCreatePrivate opt u request given) := by
  rw [PrivateGame.onEventCreatePrivate]
  split
  · exact hs
  · rename_i hserved
    rw [not_or, Bool.not_eq_false, not_le] at hserved
    replace hok := hok hserved.1 hserved.2
    split
    · -- the room is created again
      rename_i t hagain
      rw [hagain] at hok
      split
      · exact hs
      · rename_i hlt
        rw [not_le] at hlt
        split
        · exact hs.quiet (quiet_sits (sits_joinPrivateRoom ..))
        · rename_i hend
          rw [Bool.not_eq_false] at hend
          have hquiet := quiet_modifyInfo s t
            (PrivateTableInfo.restAgainValue opt.toTableAttrib) rfl (fun _ => rfl) (by rintro ⟨⟩)
          refine (hs.quiet hquiet).enterRoom hlt ?_ ?_ (hok hlt hend)
          · rw [hquiet.createrUserID]
            exact hs.ended t hend
          · rw [tableInfo_modifyInfo]
            rfl
    · rename_i hagain
      rw [hagain] at hok
      split
      · exact hs
      · rename_i t hfind
        obtain ⟨hfree, hleft⟩ := hok t hfind
        have hlt := List.mem_range.1 (List.mem_of_find?_eq_some hfind)
        have htaken := hs.takeTable hfree
        dsimp only
        rw [getTableInfoByCreaterID_takeTable hfree]
        split
        · exact htaken
        · rename_i hnone
          have hinfo : (s.takeTable opt t).tableInfo t =
            PrivateTableInfo.restValue opt.toTableAttrib (s.tableInfo t) := tableInfo_modifyInfo ..
          refine htaken.enterRoom hlt ?_ ?_ (hleft (by simpa using hnone))
          · rw [hinfo]
            rfl
          · rw [hinfo]
            rfl

/-! ## Voting -/

theorem vote_some {chairID : ℕ} {dismiss : Bool} {info info' : PrivateTableInfo}
    (h : vote u chairID dismiss info = some info') :
    ∃ dismissChairID notAgreeChairID, info' = { info with dismissChairID, notAgreeChairID } := by
  rw [vote] at h
  split at h
  · cases h
  · split at h
    · cases h
    · split at h
      · cases h
      · split at h
        · split at h
          · cases h
          · exact ⟨_, _, (Option.some.inj h).symm⟩
        · split at h
          · cases h
          · exact ⟨_, _, (Option.some.inj h).symm⟩

theorem rejectVote_eq (info : PrivateTableInfo) :
    ∃ dismissChairID notAgreeChairID dismissPastTime,
      rejectVote info = { info with dismissChairID, notAgreeChairID, dismissPastTime } := by
  rw [rejectVote]
  split
  · exact ⟨_, _, _, rfl⟩
  · exact ⟨_, _, _, rfl⟩

theorem Registry.onTCPNetworkSubDismissPrivate (hs : Registry opt s) {dismiss : Bool}
    (hok : RegistryOk opt s (.dismiss u dismiss given)) :
    Registry opt (s.onTCPNetworkSubDismissPrivate opt u dismiss given) := by
  rw [PrivateGame.onTCPNetworkSubDismissPrivate]
  split
  · exact hs
  · rename_i t htable
    have ht : t < opt.tableCount := of_decide_eq_true (Option.filter_eq_some_iff.1 htable).2
    split
    · exact hs
    · rename_i info hvote
      obtain ⟨_, _, hinfo⟩ := vote_some hvote
      obtain ⟨_, _, _, hreject⟩ := rejectVote_eq info
      have hquiet : Quiet s (s.modifyInfo t fun _ => rejectVote info) :=
        quiet_modifyInfo s t _ (by rw [hreject, hinfo]) (fun _ => by rw [hreject, hinfo])
          (by rw [hreject, hinfo]; exact id)
      split
      · rename_i hdismisses
        have hopen : Dismissable ((s.modifyInfo t fun _ => rejectVote info).tableInfo t)
            ((s.modifyInfo t fun _ => rejectVote info).tableFrame t) (given.privateEnd t) := by
          rw [tableInfo_modifyInfo, hreject, hinfo]
          exact hok t htable info hvote hdismisses
        have hdismiss := (hs.quiet hquiet).dismissRoom ht hopen
        rw [clearRoom_of_idle (idle_dismissRoom ..)]
        exact hdismiss.1.quiet (quiet_clearIdle hdismiss.2)
      · exact hs.quiet hquiet

/-! ## Every event, and a run -/

theorem writeSocre_eq (lScore : List ℤ) (time : ℕ) (info : PrivateTableInfo) :
    ∃ playerWinLose totalRecord,
      info.writeSocre lScore time = { info with playerWinLose, totalRecord } := by
  rw [PrivateTableInfo.writeSocre]
  split
  · exact ⟨_, _, rfl⟩
  · split
    · exact ⟨_, _, rfl⟩
    · exact ⟨_, _, rfl⟩

theorem quiet_writeTableScore (s : PrivateGame) (t : ℕ) (lScore : List ℤ) (time : ℕ) :
    Quiet s (s.writeTableScore t lScore time) := by
  obtain ⟨_, _, heq⟩ := writeSocre_eq lScore time (s.tableInfo t)
  refine quiet_modifyInfo s t _ ?_ (fun _ => ?_) ?_
  all_goals rw [heq]
  exact id

/-- **What one event keeps.** -/
theorem Registry.handle (hs : Registry opt s) (e : Event) (hok : RegistryOk opt s e) :
    Registry opt (s.handle opt e) := by
  cases e with
  | create u request given => exact hs.onEventCreatePrivate hok
  | join u roomNum given =>
    show Registry opt (s.onTCPNetworkSubJoinPrivate opt u roomNum given)
    rw [onTCPNetworkSubJoinPrivate]
    split
    · exact hs
    · dsimp only
      split
      · exact hs
      · exact hs.quiet (quiet_sits (sits_joinPrivateRoom ..))
  | dismiss u dismiss given => exact hs.onTCPNetworkSubDismissPrivate hok
  | standUp u given =>
    rw [PrivateGame.handle]
    split
    · exact hs
    · rename_i t htable
      have ht : t < opt.tableCount := of_decide_eq_true (Option.filter_eq_some_iff.1 htable).2
      exact hs.performStandUpAction u ht fun hleave => hok hleave t htable
  | ready u => exact hs.quiet (quiet_sits (sits_onActionUserOnReady ..))
  | gameStart t time =>
    show Registry opt (s.startGame opt t time)
    rw [startGame]
    split
    · refine hs.quiet (((quiet_onlySeats (onlySeats_setFrame ..)).trans
        (quiet_emit _ (by simp [Effect.registers]))).trans
          (quiet_modifyInfo _ t _ rfl (fun _ => rfl) id))
    · exact hs
  | gameEnd t given =>
    rw [PrivateGame.handle]
    split
    · rename_i ht
      exact hs.concludeGame ht false (hok ht)
    · exact hs
  | writeScore t lScore time => exact hs.quiet (quiet_writeTableScore ..)
  | addPlayCout t cout =>
    show Registry opt (s.addPrivatePlayCout t cout)
    exact hs.quiet (quiet_modifyInfo s t _ rfl (fun _ => rfl) id)
  | timer given =>
    exact @timer_keeps opt s given _ (TimerOk opt given) (fun _ _ h => h.timerTable) hs hok
  | privateInfo info => exact hs.quiet ⟨fun _ => rfl, fun _ _ => rfl, fun _ h => h, rfl, rfl, rfl⟩
  | singleRecord createrUserID recordID =>
    show Registry opt (s.singleRecord opt createrUserID recordID)
    rw [singleRecord]
    split
    · exact hs
    · exact hs.quiet (quiet_modifyInfo s _ _ rfl (fun _ => rfl) id)

theorem registry_init (opt : ServiceOption) (order : Shuffle) (memory : ℕ → ℕ × ℤ)
    (userItem : UserID → UserItem) : Registry opt (init opt order memory userItem) := by
  have hnone : openTables opt (init opt order memory userItem) = ∅ := by
    refine Finset.eq_empty_of_forall_notMem fun t ht => ?_
    exact (mem_openTables.1 ht).2 rfl
  have hholders : ∀ n, holders opt (init opt order memory userItem) n = ∅ := by
    intro n
    rw [holders, hnone, Finset.filter_empty]
  exact
    { distinct := fun t ht => by simp [hnone] at ht
      nonzero := fun t ht => by simp [hnone] at ht
      givenBack := fun n => by
        rw [hholders]
        rfl
      curTable := by
        rw [hnone]
        rfl
      dismissed := nofun
      taken := nofun
      inUse := fun t ht => by simp [hnone] at ht
      ended := fun _ _ => rfl }

/-- **The rooms of a run.** Where each event that is handled meets the
condition, the rooms are registered in every state the run goes through. -/
theorem registered_prefixes (opt : ServiceOption) (es : List Event) (order : Shuffle)
    (memory : ℕ → ℕ × ℤ) (userItem : UserID → UserItem)
    (hok : (step opt).Along (fun s e => s.fault = false → RegistryOk opt s e)
      (init opt order memory userItem) es) (n : ℕ) :
    Registered opt ((step opt).run (init opt order memory userItem) (es.take n)).1 := by
  have hstep : ∀ s e, Registry opt s → (s.fault = false → RegistryOk opt s e) →
      Registry opt (step opt s e).1 := by
    intro s e hs hok
    rw [PrivateGame.step]
    split
    · exact hs
    · rename_i hfault
      exact hs.handle e (hok (Bool.eq_false_iff.2 hfault))
  exact (TotalMachine.inv_prefixes hstep es _ (registry_init opt order memory userItem) hok
    n).toRegistered

/-- A room that its creator dismisses. -/
theorem registered_plainRoom :
    Registered smallServer ((step smallServer).run (init smallServer orderly (fun _ => (0, 0))
      fun _ => {}) ([Event.create 1 {} {}, .dismiss 1 true {}].take 2)).1 := by
  refine registered_prefixes smallServer [Event.create 1 {} {}, .dismiss 1 true {}] orderly
    (fun _ => (0, 0)) (fun _ => {}) ⟨fun _ => ?_, fun _ => ?_, trivial⟩ 2
  · intro _ _ t hfree
    have hfirst : freeTable smallServer (init smallServer orderly (fun _ => (0, 0)) fun _ => {}) =
        some 0 := by decide +kernel
    exact ⟨rfl, fun _ _ _ => by decide +kernel⟩
  · intro t htable info _ _
    have hplace : userTable smallServer (step smallServer (init smallServer orderly
        (fun _ => (0, 0)) fun _ => {}) (.create 1 {} {})).1 1 = some 0 := by decide +kernel
    cases hplace.symm.trans htable
    exact ⟨by decide +kernel, fun hgame => absurd hgame (by decide +kernel)⟩

/-- A creator goes back to the lobby, and his table is given to the next. -/
theorem not_registered_emptyChairs :
    ¬∀ (opt : ServiceOption) (es : List Event) (order : Shuffle) (memory : ℕ → ℕ × ℤ)
      (userItem : UserID → UserItem) (n : ℕ),
      Registered opt ((step opt).run (init opt order memory userItem) (es.take n)).1 := by
  intro h
  have htaken := (h smallServer [.create 1 {} {}, .standUp 1 {}, .create 2 {} {}] orderly
    (fun _ => (0, 0)) (fun _ => {}) 3).taken 0 1 (by decide +kernel)
  cases htaken

end GameServer.PrivateService
