import GameServer.PrivateService.Model.PrivateGame
/-!
# PrivateService — seats

A user is at the chair his item names and nowhere else (`Seats`), in every
state of a run.
-/

namespace GameServer.PrivateService

open PrivateGame

variable {opt : ServiceOption} {s s' : PrivateGame} {u : UserID} {t c : ℕ}

/-- Whoever is at a chair knows it. -/
structure Seats (s : PrivateGame) : Prop where
  place : ∀ t c u, (s.tableFrame t).tableUserItem c = some u →
    (s.userItem u).tableID = some t ∧ (s.userItem u).chairID = c

/-- A step that moves nobody. -/
structure Stay (s s' : PrivateGame) : Prop where
  chairs : ∀ t, (s'.tableFrame t).tableUserItem = (s.tableFrame t).tableUserItem
  tableID : ∀ u, (s'.userItem u).tableID = (s.userItem u).tableID
  chairID : ∀ u, (s'.userItem u).chairID = (s.userItem u).chairID

theorem Seats.stay (h : Seats s) (hstay : Stay s s') : Seats s' where
  place t c u hu := by
    rw [hstay.chairs] at hu
    rw [hstay.tableID, hstay.chairID]
    exact h.place t c u hu

theorem Stay.refl (s : PrivateGame) : Stay s s := ⟨fun _ => rfl, fun _ => rfl, fun _ => rfl⟩

theorem Stay.trans {s₁ s₂ s₃ : PrivateGame} (h : Stay s₁ s₂) (h' : Stay s₂ s₃) : Stay s₁ s₃ where
  chairs t := (h'.chairs t).trans (h.chairs t)
  tableID u := (h'.tableID u).trans (h.tableID u)
  chairID u := (h'.chairID u).trans (h.chairID u)

/-! ## What moves nobody -/

section

variable (s : PrivateGame)

theorem stay_emit (effects : List Effect) : Stay s (s.emit effects) :=
  ⟨fun _ => rfl, fun _ => rfl, fun _ => rfl⟩

theorem tableInfo_modifyInfo (t : ℕ) (f : PrivateTableInfo → PrivateTableInfo) :
    (s.modifyInfo t f).tableInfo t = f (s.tableInfo t) := Function.update_self ..

theorem stay_modifyInfo (t : ℕ) (f : PrivateTableInfo → PrivateTableInfo) :
    Stay s (s.modifyInfo t f) := ⟨fun _ => rfl, fun _ => rfl, fun _ => rfl⟩

theorem stay_writeUserScore (u : UserID) (lScore : ℤ) :
    Stay s (s.writeUserScore u lScore) where
  chairs _ := rfl
  tableID v := by
    show (Function.update s.userItem u _ v).tableID = _
    by_cases hv : v = u
    · rw [hv, Function.update_self]
    · rw [Function.update_of_ne hv]
  chairID v := by
    show (Function.update s.userItem u _ v).chairID = _
    by_cases hv : v = u
    · rw [hv, Function.update_self]
    · rw [Function.update_of_ne hv]

theorem stay_setFrame (t : ℕ) (gameStarted : Bool) :
    Stay s (s.setFrame t { s.tableFrame t with gameStarted }) where
  chairs t' := by
    show (Function.update s.tableFrame t _ t').tableUserItem = _
    by_cases ht : t' = t
    · rw [ht, Function.update_self]
    · rw [Function.update_of_ne ht]
  tableID _ := rfl
  chairID _ := rfl

theorem stay_onActionUserSitDown (u : UserID) : Stay s (s.onActionUserSitDown opt u) := by
  rw [onActionUserSitDown]
  split
  · exact .refl s
  · split
    · exact .refl s
    · split
      · exact stay_writeUserScore ..
      · exact .refl s

theorem stay_onActionUserOnReady (u : UserID) : Stay s (s.onActionUserOnReady opt u) := by
  rw [onActionUserOnReady]
  split
  · exact .refl s
  · split
    · exact .refl s
    · split
      · exact stay_writeUserScore ..
      · exact .refl s

theorem stay_pushValue (number : ℕ) : Stay s (s.pushValue number) :=
  ⟨fun _ => rfl, fun _ => rfl, fun _ => rfl⟩

theorem stay_everyOnePrivateCost (t : ℕ) (divideCost : Bool) :
    Stay s (s.everyOnePrivateCost opt t divideCost) := by
  rw [everyOnePrivateCost]
  split
  · exact ⟨fun _ => rfl, fun _ => rfl, fun _ => rfl⟩
  · exact stay_emit ..

theorem stay_createPrivateCost (t : ℕ) : Stay s (s.createPrivateCost opt t) := by
  rw [createPrivateCost]
  split
  · split
    · exact stay_everyOnePrivateCost ..
    · exact stay_emit ..
  · exact stay_everyOnePrivateCost ..

theorem stay_storeRoom (u : UserID) (request : CreatePrivateResult) (t time : ℕ) :
    Stay s (s.storeRoom opt u request t time) := ⟨fun _ => rfl, fun _ => rfl, fun _ => rfl⟩

end

/-! ## Who sits down and who leaves -/

/-- A user who is nowhere sits down at a chair. -/
theorem Seats.sitDown (h : Seats s) (hu : (s.userItem u).tableID = none) :
    Seats (s.sitDown opt u t c) := by
  refine Seats.stay ?_ (stay_onActionUserSitDown _ u)
  constructor
  intro t' c' v hv
  have hne : ∀ t' c', (s.tableFrame t').tableUserItem c' ≠ some u := by
    intro t' c' hu'
    rw [(h.place t' c' u hu').1] at hu
    cases hu
  show (Function.update s.userItem u _ v).tableID = _ ∧
    (Function.update s.userItem u _ v).chairID = _
  replace hv : (Function.update s.tableFrame t _ t').tableUserItem c' = some v := hv
  by_cases hplace : t' = t ∧ c' = c
  · obtain ⟨rfl, rfl⟩ := hplace
    rw [Function.update_self] at hv
    dsimp only at hv
    rw [Function.update_self] at hv
    cases hv
    rw [Function.update_self]
    exact ⟨rfl, rfl⟩
  · have hold : (s.tableFrame t').tableUserItem c' = some v := by
      by_cases ht : t' = t
      · subst ht
        rw [Function.update_self] at hv
        dsimp only at hv
        rwa [Function.update_of_ne fun hc => hplace ⟨rfl, hc⟩] at hv
      · rwa [Function.update_of_ne ht] at hv
    have hvu : v ≠ u := fun heq => hne t' c' (heq ▸ hold)
    rw [Function.update_of_ne hvu]
    exact h.place t' c' v hold

theorem Seats.leaveTable (h : Seats s) (u : UserID) (t : ℕ) : Seats (s.leaveTable opt u t) := by
  rw [PrivateGame.leaveTable]
  split
  · constructor
    intro t' c' v hv
    replace hv : (Function.update s.tableFrame t _ t').tableUserItem c' = some v := hv
    have hold : (s.tableFrame t').tableUserItem c' = some v ∧
        ¬(t' = t ∧ c' = (s.userItem u).chairID) := by
      by_cases ht : t' = t
      · subst ht
        rw [Function.update_self] at hv
        dsimp only at hv
        by_cases hc : c' = (s.userItem u).chairID
        · rw [hc, Function.update_self] at hv
          cases hv
        · rw [Function.update_of_ne hc] at hv
          exact ⟨hv, fun hp => hc hp.2⟩
      · rw [Function.update_of_ne ht] at hv
        exact ⟨hv, fun hp => ht hp.1⟩
    have hplace := h.place t' c' v hold.1
    -- the user who leaves is only at the chair he leaves
    have hvu : v ≠ u := by
      rintro rfl
      rename_i hchair
      rw [getTableUserItem] at hchair
      split at hchair
      · exact hold.2 ⟨Option.some.inj (hplace.1.symm.trans (h.place _ _ _ hchair).1), hplace.2.symm⟩
      · cases hchair
    show (Function.update s.userItem u _ v).tableID = _ ∧
      (Function.update s.userItem u _ v).chairID = _
    rw [Function.update_of_ne hvu]
    exact hplace
  · exact h

theorem leaveChairs_keeps {P : PrivateGame → Prop} {leave : PrivateGame → UserID → PrivateGame}
    (hleave : ∀ s u, P s → P (leave s u)) (t : ℕ) :
    ∀ (cs : List ℕ) (s : PrivateGame), P s → P (leaveChairs opt leave t cs s) := by
  intro cs
  induction cs with
  | nil => exact fun s h => h
  | cons c cs ih =>
    intro s h
    refine ih _ ?_
    split
    · exact h
    · split
      · exact hleave _ _ h
      · exact h

section

variable (h : Seats s)
include h

theorem Seats.clearIdle (t : ℕ) : Seats (s.clearIdle opt t) :=
  Seats.stay (leaveChairs_keeps (fun _ u hs => hs.leaveTable u t) t _ s h) (stay_modifyInfo ..)

theorem Seats.closeRoom (t : ℕ) : Seats (s.closeRoom opt t) := by
  refine Seats.stay ?_ (stay_pushValue ..)
  have hstay : Seats (s.delPRMRedisKey t) := h.stay ⟨fun _ => rfl, fun _ => rfl, fun _ => rfl⟩
  split
  · exact hstay.stay (stay_modifyInfo ..)
  · exact hstay.clearIdle t

theorem Seats.onEventGameEnd (t reason : ℕ) (given : Given) :
    Seats (s.onEventGameEnd opt t reason given) := by
  rw [PrivateGame.onEventGameEnd]
  split
  · dsimp only
    have hcost : Seats (if reason ≠ gerDismiss ∧ (s.tableInfo t).startPlayCout = 1 then
        s.createPrivateCost opt t else s) := by
      split
      · exact h.stay (stay_createPrivateCost ..)
      · exact h
    split
    · exact hcost.closeRoom t
    · exact hcost
  · exact ((h.stay (stay_createPrivateCost ..)).closeRoom t).clearIdle t

theorem Seats.concludeGame (t : ℕ) (dismissed : Bool) (given : Given) :
    Seats (s.concludeGame opt t dismissed given) := by
  rw [PrivateGame.concludeGame]
  split
  · refine Seats.onEventGameEnd (Seats.stay ?_ (stay_emit ..)) ..
    refine leaveChairs_keeps (fun s u hs => ?_) t _ _ (h.stay (stay_setFrame s t false))
    split
    · exact hs.leaveTable u t
    · exact hs
  · exact h

theorem Seats.dismissRoom (t : ℕ) (given : Given) :
    Seats (s.dismissRoom opt t given) := (h.concludeGame t true given).closeRoom t

theorem Seats.performStandUpAction (u : UserID) (t : ℕ) (given : Given) :
    Seats (s.performStandUpAction opt u t given) := by
  rw [PrivateGame.performStandUpAction]
  split
  · exact (h.concludeGame t false given).leaveTable u t
  · exact h.leaveTable u t

theorem Seats.clearRoom (t : ℕ) (given : Given) : Seats (s.clearRoom opt t given) :=
  Seats.stay (leaveChairs_keeps (fun _ u hs => hs.performStandUpAction u t given) t _ s h)
    (stay_modifyInfo ..)

theorem Seats.joinPrivateRoom (u : UserID) (t : ℕ) (admits : Bool) :
    Seats (s.joinPrivateRoom opt u t admits).1 := by
  rw [PrivateGame.joinPrivateRoom]
  split
  · exact h
  · split
    · exact h
    · split
      · exact h
      · rename_i htable
        split
        · exact h.sitDown htable
        · exact h

theorem Seats.enterRoom (u : UserID) (request : CreatePrivateResult) (t : ℕ) (given : Given) :
    Seats (s.enterRoom opt u request t given) := by
  have hjoin : Seats (s.joinPrivateRoom opt u t given.admits).1 := h.joinPrivateRoom ..
  rw [PrivateGame.enterRoom]
  split
  · exact hjoin.stay ((stay_storeRoom ..).trans (stay_onActionUserSitDown ..))
  · exact hjoin

theorem Seats.onEventCreatePrivate (u : UserID) (request : CreatePrivateResult) (given : Given) :
    Seats (s.onEventCreatePrivate opt u request given) := by
  rw [PrivateGame.onEventCreatePrivate]
  split
  · exact h
  · split
    · split
      · exact h
      · split
        · exact h.joinPrivateRoom ..
        · exact (h.stay (stay_modifyInfo ..)).enterRoom ..
    · split
      · exact h
      · rename_i t _
        have htake : Seats (s.takeTable opt t) :=
          h.stay ((stay_emit ..).trans (stay_modifyInfo ..))
        dsimp only
        split
        · exact htake
        · exact htake.enterRoom ..

theorem Seats.timerAgain (t : ℕ) (given : Given) : Seats (s.timerAgain opt t given) := by
  rw [PrivateGame.timerAgain]
  split
  · dsimp only
    split
    · exact (h.stay (stay_modifyInfo ..)).clearRoom t given
    · exact h.stay (stay_modifyInfo ..)
  · exact h

theorem Seats.timerCreate (t : ℕ) (given : Given) : Seats (s.timerCreate opt t given) := by
  rw [PrivateGame.timerCreate]
  split
  · dsimp only
    split
    · exact (h.stay (stay_modifyInfo ..)).dismissRoom t given
    · exact h.stay (stay_modifyInfo ..)
  · exact h

theorem Seats.timerDismiss (t : ℕ) (given : Given) : Seats (s.timerDismiss opt t given) := by
  rw [PrivateGame.timerDismiss]
  split
  · dsimp only
    split
    · exact (h.stay (stay_modifyInfo ..)).dismissRoom t given
    · exact h.stay (stay_modifyInfo ..)
  · exact h

theorem Seats.timerTable (t : ℕ) (given : Given) : Seats (s.timerTable opt t given) :=
  ((h.timerAgain t given).timerCreate t given).timerDismiss t given

end

theorem onEventTimer_keeps {P : PrivateGame → Prop} {given : Given}
    (htable : ∀ s t, P s → P (s.timerTable opt t given)) (h : P s) :
    P (s.onEventTimer opt given) := by
  rw [onEventTimer]
  induction List.range opt.tableCount generalizing s with
  | nil => exact h
  | cons t ts ih => exact ih (htable s t h)

theorem seats_handle (h : Seats s) (e : Event) : Seats (s.handle opt e) := by
  cases e with
  | create => exact h.onEventCreatePrivate ..
  | join =>
    rw [handle, onTCPNetworkSubJoinPrivate]
    split
    · exact h
    · dsimp only
      split
      · exact h
      · exact h.joinPrivateRoom ..
  | dismiss =>
    rw [handle, onTCPNetworkSubDismissPrivate]
    split
    · exact h
    · split
      · exact h
      · split
        · exact ((h.stay (stay_modifyInfo ..)).dismissRoom ..).clearRoom ..
        · exact h.stay (stay_modifyInfo ..)
  | standUp =>
    rw [handle]
    split
    · exact h
    · exact h.performStandUpAction ..
  | ready => exact h.stay (stay_onActionUserOnReady ..)
  | gameStart t =>
    rw [handle, startGame]
    split
    · exact h.stay ((stay_setFrame s t true).trans ((stay_emit ..).trans (stay_modifyInfo ..)))
    · exact h
  | gameEnd =>
    rw [handle]
    split
    · exact h.concludeGame ..
    · exact h
  | writeScore => exact h.stay ⟨fun _ => rfl, fun _ => rfl, fun _ => rfl⟩
  | addPlayCout => exact h.stay ⟨fun _ => rfl, fun _ => rfl, fun _ => rfl⟩
  | timer => exact onEventTimer_keeps (fun s t hs => hs.timerTable t _) h
  | privateInfo => exact h.stay ⟨fun _ => rfl, fun _ => rfl, fun _ => rfl⟩
  | singleRecord =>
    rw [handle, PrivateGame.singleRecord]
    split
    · exact h
    · exact h.stay (stay_modifyInfo ..)

theorem seats_step (s : PrivateGame) (e : Event) (h : Seats s) : Seats (step opt s e).1 := by
  rw [step]
  split
  · exact h
  · exact seats_handle h e

theorem seats_init (order : ServiceCore.Shuffle) (memory : ℕ → ℕ × ℤ)
    (userItem : UserID → UserItem) : Seats (init opt order memory userItem) :=
  ⟨nofun⟩

/-- **The seats of a run.** -/
theorem seats_run (opt : ServiceOption) (es : List Event) (order : ServiceCore.Shuffle)
    (memory : ℕ → ℕ × ℤ) (userItem : UserID → UserItem) :
    Seats ((step opt).run (init opt order memory userItem) es).1 :=
  @TotalMachine.inv_run_traced _ _ _ (step opt) (fun s _ => Seats s)
    (fun s _ e hs => seats_step s e hs) es _ [] (seats_init order memory userItem)

end GameServer.PrivateService
