import GameServer.PrivateService.Seats
/-!
# PrivateService — one table and the others

What is done at one table leaves the records and the chairs of the others
alone (`Apart`), so the timer may be followed table by table
(`timer_keeps`). A room is closed while no game runs at its table.
-/

namespace GameServer.PrivateService

open PrivateGame

variable {opt : ServiceOption} {s s' : PrivateGame} {u : UserID} {t : ℕ} {given : Given}
variable {s₁ s₂ s₃ : PrivateGame}

structure Apart (t : ℕ) (s s' : PrivateGame) : Prop where
  others : ∀ t', t' ≠ t → s'.tableInfo t' = s.tableInfo t' ∧ s'.tableFrame t' = s.tableFrame t'

theorem Apart.refl (t : ℕ) (s : PrivateGame) : Apart t s s := ⟨fun _ _ => ⟨rfl, rfl⟩⟩

theorem Apart.trans (h : Apart t s₁ s₂) (h' : Apart t s₂ s₃) :
    Apart t s₁ s₃ where
  others t' ht :=
    ⟨(h'.others t' ht).1.trans (h.others t' ht).1, (h'.others t' ht).2.trans (h.others t' ht).2⟩

theorem apart_emit (t : ℕ) (s : PrivateGame) (effects : List Effect) :
    Apart t s (s.emit effects) := ⟨fun _ _ => ⟨rfl, rfl⟩⟩

theorem apart_modifyInfo (t : ℕ) (s : PrivateGame) (f : PrivateTableInfo → PrivateTableInfo) :
    Apart t s (s.modifyInfo t f) := ⟨fun _ ht => ⟨Function.update_of_ne ht .., rfl⟩⟩

theorem apart_setFrame (t : ℕ) (s : PrivateGame) (frame : TableFrame) :
    Apart t s (s.setFrame t frame) := ⟨fun _ ht => ⟨rfl, Function.update_of_ne ht ..⟩⟩

theorem apart_leaveTable (s : PrivateGame) (u : UserID) (t : ℕ) :
    Apart t s (s.leaveTable opt u t) := by
  rw [leaveTable]
  split
  · exact ⟨fun t' ht => ⟨rfl, Function.update_of_ne ht ..⟩⟩
  · exact .refl t s

theorem apart_leaveChairs {leave : PrivateGame → UserID → PrivateGame}
    (hleave : ∀ s u, Apart t s (leave s u)) (cs : List ℕ) (s : PrivateGame) :
    Apart t s (leaveChairs opt leave t cs s) :=
  leaveChairs_keeps (fun _ u hs => hs.trans (hleave _ u)) t cs s (.refl t s)

section

variable (s : PrivateGame)

theorem apart_clearIdle (t : ℕ) : Apart t s (s.clearIdle opt t) :=
  (apart_leaveChairs (fun s u => apart_leaveTable s u t) _ s).trans (apart_modifyInfo ..)

theorem apart_closeRoom (t : ℕ) : Apart t s (s.closeRoom opt t) := by
  have hpush : ∀ s' : PrivateGame, Apart t s s' →
      Apart t s (s'.pushValue ((s.tableInfo t).roomNum % 10000)) :=
    fun s' h => h.trans ⟨fun _ _ => ⟨rfl, rfl⟩⟩
  have hdel : Apart t s (s.delPRMRedisKey t) := ⟨fun _ _ => ⟨rfl, rfl⟩⟩
  refine hpush _ ?_
  split
  · exact hdel.trans (apart_modifyInfo ..)
  · exact hdel.trans (apart_clearIdle ..)

theorem apart_everyOnePrivateCost (t : ℕ) (divideCost : Bool) (t' : ℕ) :
    Apart t' s (s.everyOnePrivateCost opt t divideCost) := by
  rw [everyOnePrivateCost]
  split
  · exact ⟨fun _ _ => ⟨rfl, rfl⟩⟩
  · exact apart_emit ..

theorem apart_createPrivateCost (t t' : ℕ) : Apart t' s (s.createPrivateCost opt t) := by
  rw [createPrivateCost]
  split
  · split
    · exact apart_everyOnePrivateCost ..
    · exact apart_emit ..
  · exact apart_everyOnePrivateCost ..

theorem apart_onEventGameEnd (t reason : ℕ) (given : Given) :
    Apart t s (s.onEventGameEnd opt t reason given) := by
  rw [onEventGameEnd]
  split
  · dsimp only
    have hcost : Apart t s (if reason ≠ gerDismiss ∧ (s.tableInfo t).startPlayCout = 1 then
        s.createPrivateCost opt t else s) := by
      split
      · exact apart_createPrivateCost ..
      · exact .refl t s
    split
    · exact hcost.trans (apart_closeRoom ..)
    · exact hcost
  · exact ((apart_createPrivateCost s t t).trans (apart_closeRoom ..)).trans (apart_clearIdle ..)

theorem apart_leaveOffLine (t : ℕ) (offLine : List UserID) :
    Apart t s (s.leaveOffLine opt t offLine) := by
  refine apart_leaveChairs (fun s u => ?_) _ s
  split
  · exact apart_leaveTable ..
  · exact .refl t s

theorem apart_concludeGame (t : ℕ) (dismissed : Bool) (given : Given) :
    Apart t s (s.concludeGame opt t dismissed given) := by
  rw [concludeGame]
  split
  · exact (((apart_setFrame ..).trans (apart_leaveOffLine ..)).trans (apart_emit ..)).trans
      (apart_onEventGameEnd ..)
  · exact .refl t s

theorem apart_dismissRoom (t : ℕ) (given : Given) : Apart t s (s.dismissRoom opt t given) :=
  (apart_concludeGame ..).trans (apart_closeRoom ..)

theorem apart_performStandUpAction (u : UserID) (t : ℕ) (given : Given) :
    Apart t s (s.performStandUpAction opt u t given) := by
  rw [performStandUpAction]
  split
  · exact (apart_concludeGame ..).trans (apart_leaveTable ..)
  · exact apart_leaveTable ..

theorem apart_clearRoom (t : ℕ) (given : Given) : Apart t s (s.clearRoom opt t given) :=
  (apart_leaveChairs (fun s u => apart_performStandUpAction s u t given) _ s).trans
    (apart_modifyInfo ..)

theorem apart_timerAgain (t : ℕ) (given : Given) : Apart t s (s.timerAgain opt t given) := by
  rw [timerAgain]
  split
  · dsimp only
    split
    · exact (apart_modifyInfo ..).trans (apart_clearRoom ..)
    · exact apart_modifyInfo ..
  · exact .refl t s

theorem apart_timerCreate (t : ℕ) (given : Given) : Apart t s (s.timerCreate opt t given) := by
  rw [timerCreate]
  split
  · dsimp only
    split
    · exact (apart_modifyInfo ..).trans (apart_dismissRoom ..)
    · exact apart_modifyInfo ..
  · exact .refl t s

theorem apart_timerDismiss (t : ℕ) (given : Given) : Apart t s (s.timerDismiss opt t given) := by
  rw [timerDismiss]
  split
  · dsimp only
    split
    · exact (apart_modifyInfo ..).trans (apart_dismissRoom ..)
    · exact apart_modifyInfo ..
  · exact .refl t s

theorem apart_timerTable (t : ℕ) (given : Given) : Apart t s (s.timerTable opt t given) :=
  ((apart_timerAgain ..).trans (apart_timerCreate ..)).trans (apart_timerDismiss ..)

end

/-- **The timer, table by table.** A condition on each table's record and
chairs that holds before the timer holds when its turn comes. -/
theorem timer_keeps {P : PrivateGame → Prop} {ok : PrivateTableInfo → TableFrame → ℕ → Prop}
    (htable : ∀ s t, P s → t < opt.tableCount → ok (s.tableInfo t) (s.tableFrame t) t →
      P (s.timerTable opt t given)) (h : P s)
    (hok : ∀ t, t < opt.tableCount → ok (s.tableInfo t) (s.tableFrame t) t) :
    P (s.onEventTimer opt given) := by
  have hfold : ∀ (ts : List ℕ) (s : PrivateGame), ts.Nodup → P s →
      (∀ t ∈ ts, t < opt.tableCount ∧ ok (s.tableInfo t) (s.tableFrame t) t) →
      P (ts.foldl (fun s t => s.timerTable opt t given) s) := by
    intro ts
    induction ts with
    | nil => exact fun s _ h _ => h
    | cons t ts ih =>
      intro s hnodup h hok
      obtain ⟨hnot, hnodup⟩ := List.nodup_cons.1 hnodup
      obtain ⟨ht, hokt⟩ := hok t List.mem_cons_self
      refine ih _ hnodup (htable s t h ht hokt) fun t' ht' => ?_
      obtain ⟨hinfo, hframe⟩ := (apart_timerTable s t given).others t'
        (ne_of_mem_of_not_mem ht' hnot)
      rw [hinfo, hframe]
      exact hok t' (List.mem_cons_of_mem _ ht')
  exact hfold _ s List.nodup_range h fun t ht => ⟨List.mem_range.1 ht, hok t (List.mem_range.1 ht)⟩

/-! ## Who leaves only leaves a chair -/

structure OnlySeats (s s' : PrivateGame) : Prop where
  tableInfo : s'.tableInfo = s.tableInfo
  allocationID : s'.allocationID = s.allocationID
  curTable : s'.curTable = s.curTable
  fault : s'.fault = s.fault
  log : s'.log = s.log

theorem OnlySeats.refl (s : PrivateGame) : OnlySeats s s := ⟨rfl, rfl, rfl, rfl, rfl⟩

theorem OnlySeats.trans (h : OnlySeats s₁ s₂) (h' : OnlySeats s₂ s₃) :
    OnlySeats s₁ s₃ where
  tableInfo := h'.tableInfo.trans h.tableInfo
  allocationID := h'.allocationID.trans h.allocationID
  curTable := h'.curTable.trans h.curTable
  fault := h'.fault.trans h.fault
  log := h'.log.trans h.log

theorem onlySeats_leaveTable (s : PrivateGame) (u : UserID) (t : ℕ) :
    OnlySeats s (s.leaveTable opt u t) := by
  rw [leaveTable]
  split
  · exact ⟨rfl, rfl, rfl, rfl, rfl⟩
  · exact .refl s

theorem onlySeats_leaveChairs {leave : PrivateGame → UserID → PrivateGame}
    (hleave : ∀ s u, OnlySeats s (leave s u)) (t : ℕ) (cs : List ℕ) (s : PrivateGame) :
    OnlySeats s (leaveChairs opt leave t cs s) :=
  leaveChairs_keeps (fun _ u hs => hs.trans (hleave _ u)) t cs s (.refl s)

theorem onlySeats_leaveOffLine (s : PrivateGame) (t : ℕ) (offLine : List UserID) :
    OnlySeats s (s.leaveOffLine opt t offLine) := by
  refine onlySeats_leaveChairs (fun s u => ?_) t _ s
  split
  · exact onlySeats_leaveTable ..
  · exact .refl s

theorem clearIdle_eq (s : PrivateGame) (t : ℕ) :
    ∃ s', OnlySeats s s' ∧
      s.clearIdle opt t = s'.modifyInfo t (PrivateTableInfo.restValue opt.toTableAttrib) :=
  ⟨_, onlySeats_leaveChairs (fun s u => onlySeats_leaveTable s u t) t _ s, rfl⟩

/-! ## Who sits down may have his score written -/

/-- Nothing but seats and scores. -/
structure Sits (s s' : PrivateGame) : Prop where
  tableInfo : s'.tableInfo = s.tableInfo
  allocationID : s'.allocationID = s.allocationID
  curTable : s'.curTable = s.curTable
  fault : s'.fault = s.fault
  log : ∃ scores : List (UserID × ℤ),
    s'.log = s.log ++ scores.map fun score => .writeUserScore score.1 score.2

theorem Sits.refl (s : PrivateGame) : Sits s s := ⟨rfl, rfl, rfl, rfl, [], (List.append_nil _).symm⟩

theorem Sits.trans (h : Sits s₁ s₂) (h' : Sits s₂ s₃) : Sits s₁ s₃ where
  tableInfo := h'.tableInfo.trans h.tableInfo
  allocationID := h'.allocationID.trans h.allocationID
  curTable := h'.curTable.trans h.curTable
  fault := h'.fault.trans h.fault
  log := by
    obtain ⟨scores, hlog⟩ := h.log
    obtain ⟨scores', hlog'⟩ := h'.log
    exact ⟨scores ++ scores', by rw [hlog', hlog, List.append_assoc, List.map_append]⟩

theorem OnlySeats.sits (h : OnlySeats s s') : Sits s s' :=
  ⟨h.tableInfo, h.allocationID, h.curTable, h.fault, [],
    h.log.trans (List.append_nil _).symm⟩

theorem onlySeats_setFrame (s : PrivateGame) (t : ℕ) (frame : TableFrame) :
    OnlySeats s (s.setFrame t frame) := ⟨rfl, rfl, rfl, rfl, rfl⟩

theorem onlySeats_modifyUser (s : PrivateGame) (u : UserID) (f : UserItem → UserItem) :
    OnlySeats s (s.modifyUser u f) := ⟨rfl, rfl, rfl, rfl, rfl⟩

theorem sits_initScore (s : PrivateGame) (u : UserID) (t : ℕ) : Sits s (s.initScore u t) :=
  ⟨rfl, rfl, rfl, rfl, [(u, _)], rfl⟩

theorem sits_onActionUserSitDown (s : PrivateGame) (u : UserID) :
    Sits s (s.onActionUserSitDown opt u) := by
  rw [onActionUserSitDown]
  split
  · exact .refl s
  · split
    · exact .refl s
    · split
      · exact sits_initScore ..
      · exact .refl s

theorem sits_onActionUserOnReady (s : PrivateGame) (u : UserID) :
    Sits s (s.onActionUserOnReady opt u) := by
  rw [onActionUserOnReady]
  split
  · exact .refl s
  · split
    · exact .refl s
    · split
      · exact sits_initScore ..
      · exact .refl s

theorem sits_joinPrivateRoom (s : PrivateGame) (u : UserID) (t : ℕ) (admits : Bool) :
    Sits s (s.joinPrivateRoom opt u t admits).1 := by
  rw [joinPrivateRoom]
  split
  · exact .refl s
  · split
    · exact .refl s
    · split
      · exact .refl s
      · split
        · exact ((onlySeats_setFrame ..).trans (onlySeats_modifyUser ..)).sits.trans
            (sits_onActionUserSitDown ..)
        · exact .refl s

/-! ## No game runs -/

/-- No game runs at the table. -/
def Idle (s : PrivateGame) (t : ℕ) : Prop := (s.tableFrame t).gameStarted = false

theorem gameStarted_leaveTable (s : PrivateGame) (u : UserID) (t : ℕ) :
    ((s.leaveTable opt u t).tableFrame t).gameStarted = (s.tableFrame t).gameStarted := by
  rw [PrivateGame.leaveTable]
  split
  · show (Function.update s.tableFrame t _ t).gameStarted = _
    rw [Function.update_self]
  · rfl

theorem Idle.leaveTable (h : Idle s t) (u : UserID) : Idle (s.leaveTable opt u t) t :=
  (gameStarted_leaveTable s u t).trans h

theorem Idle.clearIdle (h : Idle s t) : Idle (s.clearIdle opt t) t :=
  leaveChairs_keeps (P := fun s => Idle s t) (fun _ u hs => hs.leaveTable u) t _ s h

theorem Idle.closeRoom (h : Idle s t) : Idle (s.closeRoom opt t) t := by
  have hpush : ∀ s' : PrivateGame, Idle s' t → ∀ n, Idle (s'.pushValue n) t := fun _ h _ => h
  have hdel : Idle (s.delPRMRedisKey t) t := h
  refine hpush _ ?_ _
  split
  · exact h
  · exact hdel.clearIdle

theorem Idle.everyOnePrivateCost (h : Idle s t) (t' : ℕ) (divideCost : Bool) :
    Idle (s.everyOnePrivateCost opt t' divideCost) t := by
  rw [PrivateGame.everyOnePrivateCost]
  split
  · exact h
  · exact h

theorem Idle.createPrivateCost (h : Idle s t) (t' : ℕ) :
    Idle (s.createPrivateCost opt t') t := by
  rw [PrivateGame.createPrivateCost]
  split
  · split
    · exact h.everyOnePrivateCost ..
    · exact h
  · exact h.everyOnePrivateCost ..

theorem Idle.onEventGameEnd (h : Idle s t) (reason : ℕ) (given : Given) :
    Idle (s.onEventGameEnd opt t reason given) t := by
  rw [PrivateGame.onEventGameEnd]
  split
  · dsimp only
    have hcost : Idle (if reason ≠ gerDismiss ∧ (s.tableInfo t).startPlayCout = 1 then
        s.createPrivateCost opt t else s) t := by
      split
      · exact h.createPrivateCost t
      · exact h
    split
    · exact hcost.closeRoom
    · exact hcost
  · exact (h.createPrivateCost t).closeRoom.clearIdle

theorem Idle.leaveOffLine (h : Idle s t) (offLine : List UserID) :
    Idle (s.leaveOffLine opt t offLine) t := by
  refine leaveChairs_keeps (P := fun s => Idle s t) (fun s u hs => ?_) t _ s h
  split
  · exact hs.leaveTable u
  · exact hs

/-- **A hand that is concluded has ended.** -/
theorem idle_concludeGame (s : PrivateGame) (t : ℕ) (dismissed : Bool) (given : Given) :
    Idle (s.concludeGame opt t dismissed given) t := by
  rw [concludeGame]
  split
  · refine Idle.onEventGameEnd ?_ ..
    have hset : Idle (s.setFrame t { s.tableFrame t with gameStarted := false }) t := by
      show (Function.update s.tableFrame t _ t).gameStarted = false
      rw [Function.update_self]
    exact hset.leaveOffLine given.offLine
  · rename_i h
    exact Bool.eq_false_iff.2 h

theorem idle_dismissRoom (s : PrivateGame) (t : ℕ) (given : Given) :
    Idle (s.dismissRoom opt t given) t := (idle_concludeGame ..).closeRoom

theorem concludeGame_of_idle (h : Idle s t) (dismissed : Bool) (given : Given) :
    s.concludeGame opt t dismissed given = s := by
  rw [concludeGame, h]
  rfl

theorem performStandUpAction_of_idle (h : Idle s t) (u : UserID) (given : Given) :
    s.performStandUpAction opt u t given = s.leaveTable opt u t := by
  rw [performStandUpAction, concludeGame_of_idle h, ite_self]

theorem clearRoom_of_idle (h : Idle s t) (given : Given) :
    s.clearRoom opt t given = s.clearIdle opt t := by
  have hleave : ∀ (cs : List ℕ) (s : PrivateGame), Idle s t →
      leaveChairs opt (fun s u => s.performStandUpAction opt u t given) t cs s =
        leaveChairs opt (fun s u => s.leaveTable opt u t) t cs s := by
    intro cs
    induction cs with
    | nil => exact fun _ _ => rfl
    | cons c cs ih =>
      intro s hs
      rw [leaveChairs, leaveChairs]
      cases s.getTableUserItem opt t c with
      | none => exact ih s hs
      | some u =>
        dsimp only
        split
        · rw [performStandUpAction_of_idle hs]
          exact ih _ (hs.leaveTable u)
        · exact ih s hs
  rw [clearRoom, hleave _ s h]
  rfl

end GameServer.PrivateService
