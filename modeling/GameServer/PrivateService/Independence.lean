import GameServer.PrivateService.Seats
/-!
# PrivateService — a room and the rooms before it

What a new room inherits from the rooms played at its table before. The
reset of a table's record leaves the score type and the initial score, and
the creator sits down before the new ones are stored (`Leftover`). A room
that is created again keeps the time of the old one as well.
-/

namespace GameServer.PrivateService

open PrivateGame ServiceCore

variable {opt : ServiceOption} {s s₁ s₂ : PrivateGame} {u : UserID} {t : ℕ}
variable {request : CreatePrivateResult} {given : Given}

/-- The event creates a room of the user at the table. -/
def Creates (opt : ServiceOption) (s : PrivateGame) (u : UserID) (request : CreatePrivateResult)
    (given : Given) (t : ℕ) : Prop :=
  ∃ roomType cardAA playCost,
    Effect.createRoom t u roomType cardAA playCost ∈ (step opt s (.create u request given)).2

def scoreChanges (effects : List Effect) : List (UserID × ℤ) :=
  effects.filterMap fun
    | .writeUserScore u lScore => some (u, lScore)
    | _ => none

def sitChanges (opt : ServiceOption) (s : PrivateGame) (v : UserID) (t c : ℕ) :
    List (UserID × ℤ) :=
  scoreChanges ((s.sitDown opt v t c).log.drop s.log.length)

/-- The creator has the same score, and the room will have the same number
and the same hands and cost. -/
structure SameCreation (s₁ s₂ : PrivateGame) (u : UserID) : Prop where
  score : (s₁.userItem u).score = (s₂.userItem u).score
  number : s₁.allocationID.popValue.1 = s₂.allocationID.popValue.1
  privateInfo : s₁.privateInfo = s₂.privateInfo

/-- A creation after one history is as after another: what is stored for
the room, and the score changes of its creator and of those who then sit
down. -/
structure Independent (opt : ServiceOption) (s₁ s₂ : PrivateGame) (u : UserID)
    (request : CreatePrivateResult) (given : Given) (t : ℕ) : Prop where
  info : (step opt s₁ (.create u request given)).1.tableInfo t =
    (step opt s₂ (.create u request given)).1.tableInfo t
  creater : scoreChanges (step opt s₁ (.create u request given)).2 =
    scoreChanges (step opt s₂ (.create u request given)).2
  joiners : ∀ v c, ((step opt s₁ (.create u request given)).1.userItem v).score =
      ((step opt s₂ (.create u request given)).1.userItem v).score →
    sitChanges opt (step opt s₁ (.create u request given)).1 v t c =
      sitChanges opt (step opt s₂ (.create u request given)).1 v t c

/-- The creator's score is set as the type and the initial score of the new
room prescribe, and not otherwise. -/
def Prescribed (opt : ServiceOption) (s : PrivateGame) (u : UserID) (request : CreatePrivateResult)
    (given : Given) : Prop :=
  scoreChanges (step opt s (.create u request given)).2 =
    if request.enterRoomScoreType.testBit 1 then
      [(u, request.initEnterRoomScore - (s.userItem u).score)]
    else []

/-- **What a room may inherit.** The creator comes to the table, and its
record still holds that scores are set once. -/
def Leftover (opt : ServiceOption) (s : PrivateGame) (u : UserID) (t : ℕ) : Prop :=
  u ∉ s.seated opt t ∧ (s.userItem u).tableID = none ∧
    (s.tableInfo t).isSetOneTimeRoomScoreType = true

instance : Decidable (Leftover opt s u t) := inferInstanceAs (Decidable (_ ∧ _ ∧ _))

instance : Decidable (Prescribed opt s u request given) := inferInstanceAs (Decidable (_ = _))

def scoreBefore (opt : ServiceOption) (s : PrivateGame) (u : UserID) (t : ℕ) : ℤ :=
  if Leftover opt s u t then (s.tableInfo t).initEnterRoomScore else (s.userItem u).score

/-- What sitting down does to the creator. -/
def leftoverEffects (opt : ServiceOption) (s : PrivateGame) (u : UserID) (t : ℕ) : List Effect :=
  if Leftover opt s u t then
    [.writeUserScore u ((s.tableInfo t).initEnterRoomScore - (s.userItem u).score)]
  else []

/-! ## Sitting down -/

theorem onActionUserSitDown_eq (h : s.userTable opt u = some t)
    (hend : (s.tableInfo t).inEnd = false) :
    s.onActionUserSitDown opt u =
      if (s.tableInfo t).isSetOneTimeRoomScoreType then s.initScore u t else s := by
  rw [onActionUserSitDown, h]
  simp only [hend, Bool.false_eq_true, if_false]

theorem userTable_of_tableID (ht : t < opt.tableCount) (h : (s.userItem u).tableID = some t) :
    s.userTable opt u = some t := by
  rw [userTable, h, Option.filter_some, decide_eq_true ht, if_pos rfl]

/-- A user is at a chair of a table. -/
def placed (s : PrivateGame) (u : UserID) (t c : ℕ) : PrivateGame :=
  (s.setFrame t { s.tableFrame t with
    tableUserItem := Function.update (s.tableFrame t).tableUserItem c (some u) }).modifyUser u
      fun item => { item with tableID := some t, chairID := c }

theorem placed_self (s : PrivateGame) (u : UserID) (t c : ℕ) :
    (placed s u t c).userItem u = { s.userItem u with tableID := some t, chairID := c } :=
  Function.update_self ..

theorem sitDown_eq (ht : t < opt.tableCount) (hend : (s.tableInfo t).inEnd = false) (c : ℕ) :
    s.sitDown opt u t c =
      if (s.tableInfo t).isSetOneTimeRoomScoreType then (placed s u t c).initScore u t
      else placed s u t c :=
  onActionUserSitDown_eq (s := placed s u t c)
    (userTable_of_tableID ht (by rw [placed_self])) hend

/-- What a user finds after he has joined a room. -/
structure Joined (opt : ServiceOption) (s s' : PrivateGame) (u : UserID) (t : ℕ) : Prop where
  tableInfo : s'.tableInfo = s.tableInfo
  allocationID : s'.allocationID = s.allocationID
  privateInfo : s'.privateInfo = s.privateInfo
  log : s'.log = s.log ++ leftoverEffects opt s u t
  score : (s'.userItem u).score = scoreBefore opt s u t
  tableID : (s'.userItem u).tableID = some t

/-- Nothing of the room reaches a user who was at the table. -/
theorem Joined.of_at (hnot : ¬Leftover opt s u t) (h : (s.userItem u).tableID = some t) :
    Joined opt s s u t where
  tableInfo := rfl
  allocationID := rfl
  privateInfo := rfl
  log := by rw [leftoverEffects, if_neg hnot, List.append_nil]
  score := by rw [scoreBefore, if_neg hnot]
  tableID := h

theorem Joined.sitDown (ht : t < opt.tableCount) (hend : (s.tableInfo t).inEnd = false)
    (hseat : u ∉ s.seated opt t) (hfree : (s.userItem u).tableID = none) (c : ℕ) :
    Joined opt s (s.sitDown opt u t c) u t := by
  have hself := placed_self s u t c
  rw [sitDown_eq ht hend]
  by_cases hone : (s.tableInfo t).isSetOneTimeRoomScoreType = true
  · have hleft : Leftover opt s u t := ⟨hseat, hfree, hone⟩
    have hscore : ((placed s u t c).userItem u).score = (s.userItem u).score := by rw [hself]
    have hitem : ((placed s u t c).initScore u t).userItem u =
        { (placed s u t c).userItem u with
          score := ((placed s u t c).userItem u).score +
            ((s.tableInfo t).initEnterRoomScore - ((placed s u t c).userItem u).score) } :=
      Function.update_self ..
    rw [if_pos hone]
    exact
      { tableInfo := rfl
        allocationID := rfl
        privateInfo := rfl
        log := by
          rw [leftoverEffects, if_pos hleft, ← hscore]
          rfl
        score := by
          rw [hitem, scoreBefore, if_pos hleft]
          dsimp only
          omega
        tableID := by rw [hitem, hself] }
  · have hleft : ¬Leftover opt s u t := fun h => hone h.2.2
    rw [if_neg hone]
    exact
      { tableInfo := rfl
        allocationID := rfl
        privateInfo := rfl
        log := by
          rw [leftoverEffects, if_neg hleft, List.append_nil]
          rfl
        score := by rw [hself, scoreBefore, if_neg hleft]
        tableID := by rw [hself] }

theorem mem_seated : u ∈ s.seated opt t ↔ ∃ c, s.getTableUserItem opt t c = some u := by
  rw [seated, List.mem_filterMap]
  refine ⟨fun h => h.imp fun _ hc => hc.2, fun h => ?_⟩
  obtain ⟨c, hc⟩ := h
  refine ⟨c, ?_, hc⟩
  rw [getTableUserItem] at hc
  split at hc
  · rename_i hlt
    exact List.mem_range.2 hlt
  · cases hc

theorem Seats.of_mem_seated (h : Seats s) (hu : u ∈ s.seated opt t) :
    (s.userItem u).tableID = some t := by
  obtain ⟨c, hc⟩ := mem_seated.1 hu
  rw [getTableUserItem] at hc
  split at hc
  · exact (h.place t c u hc).1
  · cases hc

/-- **Joining a room.** -/
theorem joined_of_joinPrivateRoom (hs : Seats s) (ht : t < opt.tableCount)
    (hend : (s.tableInfo t).inEnd = false) {admits : Bool}
    (h : (s.joinPrivateRoom opt u t admits).2 = true) :
    Joined opt s (s.joinPrivateRoom opt u t admits).1 u t := by
  generalize hr : s.joinPrivateRoom opt u t admits = r at h ⊢
  rw [joinPrivateRoom] at hr
  split at hr
  · rename_i hseat
    subst hr
    exact .of_at (fun hl => hl.1 hseat) (hs.of_mem_seated hseat)
  · rename_i hseat
    split at hr
    · subst hr
      cases h
    · rename_i c _
      split at hr
      · rename_i t' ht'
        subst hr
        have heq : t' = t := by simpa using h
        exact .of_at (fun hl => by rw [hl.2.1] at ht'; cases ht') (heq ▸ ht')
      · rename_i hfree
        split at hr
        · subst hr
          exact .sitDown ht hend hseat hfree c
        · subst hr
          cases h

/-! ## A creation -/

def resetInfo (opt : ServiceOption) (request : CreatePrivateResult) (info : PrivateTableInfo) :
    PrivateTableInfo :=
  if request.againTable.isSome then info.restAgainValue opt.toTableAttrib
  else info.restValue opt.toTableAttrib

def newInfo (opt : ServiceOption) (info : PrivateInfo) (number : ℕ) (u : UserID)
    (request : CreatePrivateResult) (time createTime : ℕ) : PrivateTableInfo where
  createrUserID := u
  roomNum := (opt.serverID + 10) * 10000 + number
  playCout := info.playCout request.playCoutIdex
  playCost := requestCost info request
  start := false
  inEnd := false
  againPastTime := 0
  createTime := createTime
  httpChannel := ""
  roomType := request.roomType
  startPlayCout := 0
  finishPlayCout := 0
  playCoutIdex := request.playCoutIdex
  gameTypeIdex := request.gameTypeIdex
  gameRuleIdex := request.gameRuleIdex
  enterRoomScoreType := request.enterRoomScoreType
  initEnterRoomScore := request.initEnterRoomScore
  playerWinLose _ := 0
  dismissPastTime := 0
  dismissChairID := []
  notAgreeChairID := []
  totalRecord :=
    { kindID := opt.kindID
      version := opt.clientVersion
      roomNum := toInt ((opt.serverID + 10) * 10000 + number : ℕ)
      recordID := if request.againTable.isNone then toInt request.recordID else 0
      score := List.replicate opt.chairCount 0
      userID := List.replicate opt.chairCount 0
      nickName := List.replicate opt.chairCount ""
      playTime := time }

def createEffects (opt : ServiceOption) (s : PrivateGame) (u : UserID)
    (request : CreatePrivateResult) (t : ℕ) : List Effect :=
  leftoverEffects opt s u t ++
    [.popValue s.allocationID.popValue.1,
      .createRoom t u request.roomType (request.gameRuleIdex.testBit 0)
        (requestCost s.privateInfo request)] ++
    if request.enterRoomScoreType.testBit 1 then
      [.writeUserScore u (request.initEnterRoomScore - scoreBefore opt s u t)]
    else []

structure Created (opt : ServiceOption) (s s' : PrivateGame) (u : UserID)
    (request : CreatePrivateResult) (given : Given) (t : ℕ) : Prop where
  info : s'.tableInfo t = newInfo opt s.privateInfo s.allocationID.popValue.1 u request given.time
    (if request.againTable.isSome then (s.tableInfo t).createTime else 0)
  log : s'.log = s.log ++ createEffects opt s u request t ∨
    s'.log = s.log ++ [.takeTable t (s.tableInfo t).createrUserID] ++
      createEffects opt s u request t
  lt : t < opt.tableCount

variable {s₀ : PrivateGame}

/-- A table with a user who has joined becomes his room. -/
theorem storeRoom_created {r : PrivateGame} (ht : t < opt.tableCount)
    (hjoined : Joined opt s₀ r u t)
    (hinfo : s₀.tableInfo t = resetInfo opt request (s.tableInfo t))
    (hpool : s₀.allocationID = s.allocationID) (hprivate : s₀.privateInfo = s.privateInfo)
    (hleft : leftoverEffects opt s₀ u t = leftoverEffects opt s u t)
    (hscore : scoreBefore opt s₀ u t = scoreBefore opt s u t) :
    let s' := (r.storeRoom opt u request t given.time).setCreaterScore opt u
    s'.tableInfo t = newInfo opt s.privateInfo s.allocationID.popValue.1 u request given.time
        (if request.againTable.isSome then (s.tableInfo t).createTime else 0) ∧
      s'.log = s₀.log ++ createEffects opt s u request t := by
  have hstored : (r.storeRoom opt u request t given.time).tableInfo t =
      newInfo opt s.privateInfo s.allocationID.popValue.1 u request given.time
        (if request.againTable.isSome then (s.tableInfo t).createTime else 0) := by
    rw [storeRoom]
    show Function.update r.tableInfo t _ t = _
    rw [Function.update_self, hjoined.tableInfo, hinfo, hjoined.allocationID, hpool,
      hjoined.privateInfo, hprivate, resetInfo]
    cases hagain : request.againTable with
    | none =>
      simp only [newInfo, PrivateTableInfo.setRoomNum, PrivateTableInfo.restValue,
        PrivateTableInfo.restAgainValue, hagain, Option.isSome_none, Option.isNone_none,
        Bool.false_eq_true, if_false, if_true]
    | some t' =>
      simp only [newInfo, PrivateTableInfo.setRoomNum,
        PrivateTableInfo.restAgainValue, hagain, Option.isSome_some, Option.isNone_some,
        Bool.false_eq_true, if_false, if_true]
  have hlog : (r.storeRoom opt u request t given.time).log = s₀.log ++ leftoverEffects opt s u t ++
      [.popValue s.allocationID.popValue.1,
        .createRoom t u request.roomType (request.gameRuleIdex.testBit 0)
          (requestCost s.privateInfo request)] := by
    have hlog : (r.storeRoom opt u request t given.time).log = r.log ++
        [.popValue r.allocationID.popValue.1,
          .createRoom t u request.roomType
            ((r.storeRoom opt u request t given.time).tableInfo t).isCardAARule
            ((r.storeRoom opt u request t given.time).tableInfo t).playCost] := rfl
    rw [hlog, hstored, hjoined.log, hleft, hjoined.allocationID, hpool]
    rfl
  have hitem : (r.storeRoom opt u request t given.time).userItem = r.userItem := rfl
  have htable : (r.storeRoom opt u request t given.time).userTable opt u = some t :=
    userTable_of_tableID ht (hitem ▸ hjoined.tableID)
  have hend : ((r.storeRoom opt u request t given.time).tableInfo t).inEnd = false := by
    rw [hstored]
    rfl
  intro s'
  have hs' : s' = if request.enterRoomScoreType.testBit 1 then
      (r.storeRoom opt u request t given.time).initScore u t
      else r.storeRoom opt u request t given.time := by
    refine (onActionUserSitDown_eq htable hend).trans ?_
    rw [hstored]
    rfl
  rw [hs', createEffects]
  by_cases hone : request.enterRoomScoreType.testBit 1 = true
  · rw [if_pos hone, if_pos hone]
    refine ⟨hstored, ?_⟩
    have hwrite : ((r.storeRoom opt u request t given.time).initScore u t).log =
        (r.storeRoom opt u request t given.time).log ++ [.writeUserScore u
          (((r.storeRoom opt u request t given.time).tableInfo t).initEnterRoomScore -
            ((r.storeRoom opt u request t given.time).userItem u).score)] := rfl
    rw [hwrite, hlog, hstored, hitem, hjoined.score, hscore, List.append_assoc, List.append_assoc,
      List.append_assoc]
    rfl
  · rw [if_neg hone, if_neg hone, List.append_nil]
    exact ⟨hstored, hlog.trans (List.append_assoc ..)⟩

/-- A state whose table is reset for a request. -/
structure Reset (opt : ServiceOption) (s s₀ : PrivateGame) (request : CreatePrivateResult)
    (t : ℕ) : Prop where
  info : s₀.tableInfo t = resetInfo opt request (s.tableInfo t)
  tableFrame : s₀.tableFrame = s.tableFrame
  userItem : s₀.userItem = s.userItem
  allocationID : s₀.allocationID = s.allocationID
  privateInfo : s₀.privateInfo = s.privateInfo

theorem resetInfo_inEnd (info : PrivateTableInfo) :
    (resetInfo opt request info).inEnd = false := by
  rw [resetInfo]
  split <;> rfl

theorem resetInfo_enterRoomScoreType (info : PrivateTableInfo) :
    (resetInfo opt request info).enterRoomScoreType = info.enterRoomScoreType := by
  rw [resetInfo]
  split <;> rfl

theorem resetInfo_initEnterRoomScore (info : PrivateTableInfo) :
    (resetInfo opt request info).initEnterRoomScore = info.initEnterRoomScore := by
  rw [resetInfo]
  split <;> rfl

/-- **The reset keeps what is left over.** -/
theorem Reset.leftover (h : Reset opt s s₀ request t) : Leftover opt s₀ u t ↔ Leftover opt s u t := by
  have hseated : s₀.seated opt t = s.seated opt t := by
    show (List.range opt.chairCount).filterMap (s₀.getTableUserItem opt t) = _
    congr 1
    funext c
    rw [getTableUserItem, h.tableFrame, getTableUserItem]
  rw [Leftover, hseated, h.userItem, h.info, PrivateTableInfo.isSetOneTimeRoomScoreType,
    resetInfo_enterRoomScoreType]
  exact Iff.rfl

theorem Reset.leftoverEffects (h : Reset opt s s₀ request t) :
    leftoverEffects opt s₀ u t = leftoverEffects opt s u t := by
  simp only [PrivateService.leftoverEffects, h.leftover, h.info, resetInfo_initEnterRoomScore,
    h.userItem]

theorem Reset.scoreBefore (h : Reset opt s s₀ request t) :
    scoreBefore opt s₀ u t = scoreBefore opt s u t := by
  simp only [PrivateService.scoreBefore, h.leftover, h.info, resetInfo_initEnterRoomScore,
    h.userItem]

def NoRoom (s s' : PrivateGame) : Prop :=
  ∃ more, s'.log = s.log ++ more ∧
    ∀ t u roomType cardAA playCost, Effect.createRoom t u roomType cardAA playCost ∉ more

theorem NoRoom.of_log (h : s₁.log = s.log) : NoRoom s s₁ := ⟨[], by rw [h, List.append_nil], nofun⟩

theorem NoRoom.trans (h : NoRoom s s₁) (h' : NoRoom s₁ s₂) : NoRoom s s₂ := by
  obtain ⟨more, hlog, hno⟩ := h
  obtain ⟨more', hlog', hno'⟩ := h'
  refine ⟨more ++ more', by rw [hlog', hlog, List.append_assoc], ?_⟩
  intro t u roomType cardAA playCost hmem
  rcases List.mem_append.1 hmem with hmem | hmem
  · exact hno _ _ _ _ _ hmem
  · exact hno' _ _ _ _ _ hmem

theorem noRoom_onActionUserSitDown (s : PrivateGame) (u : UserID) :
    NoRoom s (s.onActionUserSitDown opt u) := by
  rw [onActionUserSitDown]
  split
  · exact .of_log rfl
  · split
    · exact .of_log rfl
    · split
      · exact ⟨_, rfl, by simp⟩
      · exact .of_log rfl

theorem noRoom_joinPrivateRoom (s : PrivateGame) (u : UserID) (t : ℕ) (admits : Bool) :
    NoRoom s (s.joinPrivateRoom opt u t admits).1 := by
  rw [joinPrivateRoom]
  split
  · exact .of_log rfl
  · split
    · exact .of_log rfl
    · split
      · exact .of_log rfl
      · split
        · rename_i c _ _ _ _
          have hplaced : NoRoom s (placed s u t c) := .of_log rfl
          exact hplaced.trans (noRoom_onActionUserSitDown (placed s u t c) u)
        · exact .of_log rfl

theorem eq_of_mem_createEffects {t' playCost : ℕ} {roomType : RoomType} {cardAA : Bool}
    (h : Effect.createRoom t u roomType cardAA playCost ∈ createEffects opt s u request t') :
    t = t' := by
  rw [createEffects, leftoverEffects] at h
  have hsplit : ∀ (p : Prop) [Decidable p] (lScore : ℤ),
      Effect.createRoom t u roomType cardAA playCost ∉
        (if p then [Effect.writeUserScore u lScore] else []) := by
    intro p _ lScore
    split <;> simp
  simp only [List.mem_append, hsplit, false_or, or_false, List.mem_cons, reduceCtorEq,
    Effect.createRoom.injEq, List.not_mem_nil] at h
  exact h.1

/-- What `enterRoom` does at a table that is reset. -/
theorem enterRoom_cases (hs : Seats s₀) (ht : t < opt.tableCount)
    (h : Reset opt s s₀ request t) :
    NoRoom s₀ (s₀.enterRoom opt u request t given) ∨
      ((s₀.enterRoom opt u request t given).tableInfo t =
          newInfo opt s.privateInfo s.allocationID.popValue.1 u request given.time
            (if request.againTable.isSome then (s.tableInfo t).createTime else 0) ∧
        (s₀.enterRoom opt u request t given).log = s₀.log ++ createEffects opt s u request t) := by
  have hend : (s₀.tableInfo t).inEnd = false := by rw [h.info, resetInfo_inEnd]
  rw [enterRoom]
  split
  · rename_i hjoin
    exact .inr (storeRoom_created ht (joined_of_joinPrivateRoom hs ht hend hjoin.1) h.info
      h.allocationID h.privateInfo h.leftoverEffects h.scoreBefore)
  · exact .inl (noRoom_joinPrivateRoom ..)

theorem freeTable_some (h : s.freeTable opt = some t) :
    t < opt.tableCount ∧ (s.tableInfo t).inEnd = false ∧ s.getSitUserCount opt t = 0 := by
  have hfree := List.find?_some h
  have hmem := List.mem_of_find?_eq_some h
  simp only [Bool.and_eq_true, Bool.not_eq_true', decide_eq_true_eq] at hfree
  exact ⟨List.mem_range.1 hmem, hfree.1, hfree.2⟩

theorem reset_takeTable (hagain : request.againTable = none) :
    Reset opt s (s.takeTable opt t) request t where
  info := by
    rw [resetInfo, hagain]
    exact Function.update_self ..
  tableFrame := rfl
  userItem := rfl
  allocationID := rfl
  privateInfo := rfl

theorem reset_again {t' : ℕ} (hagain : request.againTable = some t') :
    Reset opt s (s.modifyInfo t (PrivateTableInfo.restAgainValue opt.toTableAttrib)) request t where
  info := by
    rw [resetInfo, hagain]
    exact Function.update_self ..
  tableFrame := rfl
  userItem := rfl
  allocationID := rfl
  privateInfo := rfl

/-- **What a create event does**: it creates no room, or one. -/
theorem onEventCreatePrivate_cases (hs : Seats s) (opt : ServiceOption) (u : UserID)
    (request : CreatePrivateResult) (given : Given) :
    NoRoom s (s.onEventCreatePrivate opt u request given) ∨
      ∃ t, Created opt s (s.onEventCreatePrivate opt u request given) u request given t := by
  rw [onEventCreatePrivate]
  split
  · exact .inl (.of_log rfl)
  · split
    · rename_i t hagain
      split
      · exact .inl (.of_log rfl)
      · rename_i ht
        split
        · exact .inl (noRoom_joinPrivateRoom ..)
        · rcases enterRoom_cases (hs.stay (stay_modifyInfo ..)) (not_le.1 ht)
            (reset_again hagain) with hno | ⟨hinfo, hlog⟩
          · exact .inl (NoRoom.trans (.of_log rfl) hno)
          · exact .inr ⟨t, hinfo, .inl hlog, not_le.1 ht⟩
    · rename_i hagain
      split
      · exact .inl (.of_log rfl)
      · rename_i t hfree
        have ht := (freeTable_some hfree).1
        have htake : NoRoom s (s.takeTable opt t) := ⟨_, rfl, by simp⟩
        dsimp only
        split
        · exact .inl htake
        · rcases enterRoom_cases (hs.stay ((stay_emit ..).trans (stay_modifyInfo ..))) ht
            (reset_takeTable hagain) with hno | ⟨hinfo, hlog⟩
          · exact .inl (htake.trans hno)
          · exact .inr ⟨t, hinfo, .inr hlog, ht⟩

/-- **The room that is created.** -/
theorem created_of_creates (hs : Seats s) (h : Creates opt s u request given t) :
    s.fault = false ∧ Created opt s (s.onEventCreatePrivate opt u request given) u request given t := by
  obtain ⟨roomType, cardAA, playCost, hmem⟩ := h
  rw [step] at hmem
  split at hmem
  · cases hmem
  · rename_i hfault
    refine ⟨Bool.eq_false_iff.2 hfault, ?_⟩
    replace hmem : Effect.createRoom t u roomType cardAA playCost ∈
      (s.onEventCreatePrivate opt u request given).log.drop s.log.length := hmem
    rcases onEventCreatePrivate_cases hs opt u request given
      with ⟨more, hlog, hno⟩ | ⟨t', hcreated⟩
    · rw [hlog, List.drop_left] at hmem
      exact absurd hmem (hno _ _ _ _ _)
    · have ht : t = t' := by
        rcases hcreated.log with hlog | hlog
        · rw [hlog, List.drop_left] at hmem
          exact eq_of_mem_createEffects hmem
        · rw [hlog, List.append_assoc, List.drop_left, List.singleton_append, List.mem_cons] at hmem
          exact eq_of_mem_createEffects (hmem.resolve_left (by simp))
      rwa [ht]

theorem scoreChanges_createEffects :
    scoreChanges (createEffects opt s u request t) =
      (if Leftover opt s u t then
        [(u, (s.tableInfo t).initEnterRoomScore - (s.userItem u).score)] else []) ++
      if request.enterRoomScoreType.testBit 1 then
        [(u, request.initEnterRoomScore - scoreBefore opt s u t)] else [] := by
  rw [createEffects, leftoverEffects, scoreChanges, List.filterMap_append, List.filterMap_append]
  have hif : ∀ (p : Prop) [Decidable p] (lScore : ℤ),
      (if p then [Effect.writeUserScore u lScore] else []).filterMap (fun
        | .writeUserScore u lScore => some (u, lScore)
        | _ => none) = if p then [(u, lScore)] else [] := by
    intro p _ lScore
    split <;> rfl
  rw [hif, hif, List.append_assoc]
  rfl

theorem step_create (hs : Seats s) (h : Creates opt s u request given t) :
    (step opt s (.create u request given)).1.tableInfo t =
        newInfo opt s.privateInfo s.allocationID.popValue.1 u request given.time
          (if request.againTable.isSome then (s.tableInfo t).createTime else 0) ∧
      scoreChanges (step opt s (.create u request given)).2 =
        scoreChanges (createEffects opt s u request t) ∧ t < opt.tableCount := by
  obtain ⟨hfault, hcreated⟩ := created_of_creates hs h
  rw [step, if_neg (Bool.eq_false_iff.1 hfault)]
  refine ⟨hcreated.info, ?_, hcreated.lt⟩
  show scoreChanges ((s.onEventCreatePrivate opt u request given).log.drop s.log.length) = _
  rcases hcreated.log with hlog | hlog
  · rw [hlog, List.drop_left]
  · rw [hlog, List.append_assoc, List.drop_left]
    rfl

/-- A creator who inherits nothing is treated as the new room prescribes,
and no other is. -/
theorem prescribed_iff (hs : Seats s) (h : Creates opt s u request given t) :
    Prescribed opt s u request given ↔ ¬Leftover opt s u t := by
  rw [Prescribed, (step_create hs h).2.1, scoreChanges_createEffects]
  by_cases hleft : Leftover opt s u t
  · rw [if_pos hleft]
    refine ⟨fun heq => ?_, fun hno => absurd hleft hno⟩
    have hlength := congrArg List.length heq
    split at hlength <;> simp at hlength
  · rw [if_neg hleft, List.nil_append, scoreBefore, if_neg hleft]
    exact ⟨fun _ => hleft, fun _ => rfl⟩

/-- The score changes of a user who sits down, from the room's record. -/
theorem sitChanges_eq (ht : t < opt.tableCount) (hend : (s.tableInfo t).inEnd = false) (v : UserID)
    (c : ℕ) : sitChanges opt s v t c =
      if (s.tableInfo t).isSetOneTimeRoomScoreType then
        [(v, (s.tableInfo t).initEnterRoomScore - (s.userItem v).score)]
      else [] := by
  have hscore : ((placed s v t c).userItem v).score = (s.userItem v).score := by rw [placed_self]
  rw [sitChanges, sitDown_eq ht hend]
  split
  · have hlog : ((placed s v t c).initScore v t).log = s.log ++
        [.writeUserScore v ((s.tableInfo t).initEnterRoomScore -
          ((placed s v t c).userItem v).score)] := rfl
    rw [hlog, List.drop_left, hscore]
    rfl
  · have hlog : (placed s v t c).log = s.log ++ [] := (List.append_nil _).symm
    rw [hlog, List.drop_left]
    rfl

/-- **A room after two histories.** A creation treats the creator as the
new room prescribes after both, and is the same after both, exactly when
neither leaves the table to set scores once for a creator who comes to it,
and a room that is created again has lasted equally long. -/
theorem independent_iff (order₁ order₂ : Shuffle) (memory₁ memory₂ : ℕ → ℕ × ℤ)
    (userItem₁ userItem₂ : UserID → UserItem) (es₁ es₂ : List Event)
    (h₁ : Creates opt ((step opt).run (init opt order₁ memory₁ userItem₁) es₁).1 u request given t)
    (h₂ : Creates opt ((step opt).run (init opt order₂ memory₂ userItem₂) es₂).1 u request given t)
    (hsame : SameCreation ((step opt).run (init opt order₁ memory₁ userItem₁) es₁).1
      ((step opt).run (init opt order₂ memory₂ userItem₂) es₂).1 u) :
    (Independent opt ((step opt).run (init opt order₁ memory₁ userItem₁) es₁).1
        ((step opt).run (init opt order₂ memory₂ userItem₂) es₂).1 u request given t ∧
      Prescribed opt ((step opt).run (init opt order₁ memory₁ userItem₁) es₁).1 u request given ∧
      Prescribed opt ((step opt).run (init opt order₂ memory₂ userItem₂) es₂).1 u request given) ↔
    (¬Leftover opt ((step opt).run (init opt order₁ memory₁ userItem₁) es₁).1 u t ∧
      ¬Leftover opt ((step opt).run (init opt order₂ memory₂ userItem₂) es₂).1 u t ∧
      (request.againTable.isSome →
        (((step opt).run (init opt order₁ memory₁ userItem₁) es₁).1.tableInfo t).createTime =
          (((step opt).run (init opt order₂ memory₂ userItem₂) es₂).1.tableInfo t).createTime)) := by
  have hs₁ := seats_run opt es₁ order₁ memory₁ userItem₁
  have hs₂ := seats_run opt es₂ order₂ memory₂ userItem₂
  generalize ((step opt).run (init opt order₁ memory₁ userItem₁) es₁).1 = s₁ at *
  generalize ((step opt).run (init opt order₂ memory₂ userItem₂) es₂).1 = s₂ at *
  obtain ⟨hinfo₁, hchanges₁, ht⟩ := step_create hs₁ h₁
  obtain ⟨hinfo₂, hchanges₂, -⟩ := step_create hs₂ h₂
  rw [prescribed_iff hs₁ h₁, prescribed_iff hs₂ h₂]
  constructor
  · rintro ⟨hind, hno₁, hno₂⟩
    refine ⟨hno₁, hno₂, fun hagain => ?_⟩
    have hinfo := hind.info
    rw [hinfo₁, hinfo₂, if_pos hagain, if_pos hagain] at hinfo
    have htime := congrArg PrivateTableInfo.createTime hinfo
    exact htime
  · rintro ⟨hno₁, hno₂, hagain⟩
    have htime : (if request.againTable.isSome then (s₁.tableInfo t).createTime else 0) =
        if request.againTable.isSome then (s₂.tableInfo t).createTime else 0 := by
      split
      · rename_i hsome
        exact hagain hsome
      · rfl
    have hinfo : (step opt s₁ (.create u request given)).1.tableInfo t =
        (step opt s₂ (.create u request given)).1.tableInfo t := by
      rw [hinfo₁, hinfo₂, hsame.privateInfo, hsame.number, htime]
    refine ⟨⟨hinfo, ?_, fun v c hscore => ?_⟩, hno₁, hno₂⟩
    · rw [hchanges₁, hchanges₂, scoreChanges_createEffects, scoreChanges_createEffects,
        if_neg hno₁, if_neg hno₂, scoreBefore, if_neg hno₁, scoreBefore, if_neg hno₂, hsame.score]
    · have hend₁ : ((step opt s₁ (.create u request given)).1.tableInfo t).inEnd = false := by
        rw [hinfo₁]
        rfl
      rw [sitChanges_eq ht hend₁, sitChanges_eq ht (hinfo ▸ hend₁), hinfo, hscore]

def smallServer : ServiceOption :=
  { chairCount := 2, kindID := 1, clientVersion := 1, serverID := 5, tableCount := 1 }

def orderly : Shuffle := ⟨_, .refl _⟩

/-- A room that sets the scores of its users to 1000, and its end. -/
def scoreRoom : List Event :=
  [.create 2 { enterRoomScoreType := 2, initEnterRoomScore := 1000 } {}, .dismiss 2 true {}]

/-- A room that leaves the scores as they are, and its end. -/
def plainRoom : List Event := [.create 2 {} {}, .dismiss 2 true {}]

/-- A server whose number that is next is the same as after one room. -/
def turned : Shuffle :=
  ⟨List.range' 2 (defaultMaxSize - 2) ++ [1], by
    have hrange : List.range' 1 (defaultMaxSize - 1) = 1 :: List.range' 2 (defaultMaxSize - 2) := rfl
    rw [hrange]
    exact List.perm_append_singleton ..⟩

/-- The first room with given parameters may come after one without. -/
theorem independent_plainRoom :
    Independent smallServer
      ((step smallServer).run (init smallServer turned (fun _ => (0, 0)) fun _ => {}) []).1
      ((step smallServer).run (init smallServer orderly (fun _ => (0, 0)) fun _ => {}) plainRoom).1
      1 {} {} 0 :=
  ((independent_iff turned orderly (fun _ => (0, 0)) (fun _ => (0, 0)) (fun _ => {}) (fun _ => {})
    [] plainRoom ⟨.typePrivate, false, 0, by decide +kernel⟩
    ⟨.typePrivate, false, 0, by decide +kernel⟩
    ⟨by decide +kernel, by decide +kernel, rfl⟩).2
    ⟨by decide +kernel, by decide +kernel, fun hagain => absurd hagain (by decide)⟩).1

/-- A creator is given the initial score of the room before his. -/
theorem not_independent_scoreRoom :
    ¬∀ (opt : ServiceOption) (order₁ order₂ : Shuffle) (memory₁ memory₂ : ℕ → ℕ × ℤ)
      (userItem₁ userItem₂ : UserID → UserItem) (es₁ es₂ : List Event) (u : UserID)
      (request : CreatePrivateResult) (given : Given) (t : ℕ),
      Creates opt ((step opt).run (init opt order₁ memory₁ userItem₁) es₁).1 u request given t →
      Creates opt ((step opt).run (init opt order₂ memory₂ userItem₂) es₂).1 u request given t →
      SameCreation ((step opt).run (init opt order₁ memory₁ userItem₁) es₁).1
        ((step opt).run (init opt order₂ memory₂ userItem₂) es₂).1 u →
      Independent opt ((step opt).run (init opt order₁ memory₁ userItem₁) es₁).1
          ((step opt).run (init opt order₂ memory₂ userItem₂) es₂).1 u request given t ∧
        Prescribed opt ((step opt).run (init opt order₁ memory₁ userItem₁) es₁).1 u request given ∧
        Prescribed opt ((step opt).run (init opt order₂ memory₂ userItem₂) es₂).1 u request given := by
  intro h
  have hscore := (h smallServer turned orderly (fun _ => (0, 0)) (fun _ => (0, 0)) (fun _ => {})
    (fun _ => {}) [] scoreRoom 1 {} {} 0 ⟨.typePrivate, false, 0, by decide +kernel⟩
    ⟨.typePrivate, false, 0, by decide +kernel⟩ ⟨by decide +kernel, by decide +kernel, rfl⟩).1.creater
  revert hscore
  decide +kernel

end GameServer.PrivateService
