import GameServer.Common.Run
import GameServer.PrivateService.Model.PrivateTableInfo
import GameServer.ServiceCore.Model.AllocationID
/-!
# PrivateService — `PriaveteGame`

The private rooms of a game server: users create rooms at free tables and
join them by number, vote on dismissing them, and a timer clears up. The
tables belong to the server; here they are their chairs and whether a
game runs. What the tables, the games and the clock answer while an event
is handled is an argument (`Given`), and Redis always answers.

The games start when all chairs are taken and conclude with the free
status, as the four games with private rooms do. Messages to clients, the
keys in Redis other than `wCurTable`, and the records that only go to the
database are left out.
-/

namespace GameServer.PrivateService

open ServiceCore (AllocationID Shuffle)

def gerDismiss : ℕ := 1

/-- `GAME_STATUS_FREE`, `GS_MJ_FREE` and `GAME_SCENE_FREE`. -/
def gameStatusFree : ℕ := 0

def dismissWaiteTime : ℕ := 60 * 5

def againWaiteTime : ℕ := 30

def createPrivateFreeTime : ℕ := 30 * 60

/-- What is read of `tagGameServiceOption`. -/
structure ServiceOption extends TableAttrib where
  serverID : ℕ
  tableCount : ℕ

structure PrivateInfo where
  costGold : ℤ := 0
  playCout : ℕ → ℕ := fun _ => 0
  playCost : ℕ → ℤ := fun _ => 0

/-- `DBO_GR_CreatePrivateResult`; `againTable` is `none` for
`INVALID_TABLE`. -/
structure CreatePrivateResult where
  sucess : Bool := true
  roomType : RoomType := .typePrivate
  againTable : Option ℕ := none
  playCoutIdex : ℕ := 0
  gameTypeIdex : ℕ := 0
  gameRuleIdex : ℕ := 0
  enterRoomScoreType : ℕ := 1
  initEnterRoomScore : ℤ := 0
  recordID : ℕ := 0

/-- What is read of `IServerUserItem`. -/
structure UserItem where
  score : ℤ := 0
  clientAddr : ℕ := 0
  nickName : String := ""
  tableID : Option ℕ := none
  chairID : ℕ := 0

structure TableFrame where
  tableUserItem : ℕ → Option UserID := fun _ => none
  gameStarted : Bool := false

/-- What others can tell of a run. -/
inductive Effect
  /-- `WriteUserScore`. -/
  | writeUserScore (userID : UserID) (lScore : ℤ)
  /-- `DBR_GR_CREATE_PRIVAT_COST`. -/
  | privateCost (userID cost : ℕ) (costType : RoomType)
  | popValue (number : ℕ)
  | pushValue (number : ℕ)
  /-- A free table is reset for a room; who had created the one before. -/
  | takeTable (tableID createrUserID : ℕ)
  /-- 创建房间, with the cost and its rule. -/
  | createRoom (tableID createrUserID : ℕ) (roomType : RoomType) (cardAA : Bool) (playCost : ℕ)
  | startGame (tableID : ℕ)
  /-- A hand is over, for those who are still at the table. -/
  | concludeGame (tableID : ℕ) (dismissed : Bool) (seated : List UserID)
  /-- 解散房间, and who had created it. -/
  | dismissRoom (tableID createrUserID : ℕ)
  deriving DecidableEq

/-- What the others answer while an event is handled. -/
structure Given where
  /-- The rules of the table let the user sit down. -/
  admits : Bool := true
  /-- The users without a connection. -/
  offLine : List UserID := []
  /-- The game concludes a hand that a user leaves. -/
  leaveConcludes : Bool := false
  /-- `IsPrivateEnd` of each table. -/
  privateEnd : ℕ → Bool := fun _ => false
  /-- `GetLocalTime`. -/
  time : ℕ := 0

/-- `PriaveteGame`, with the tables, the users and `wCurTable`. -/
structure PrivateGame where
  tableInfo : ℕ → PrivateTableInfo
  tableFrame : ℕ → TableFrame := fun _ => {}
  userItem : UserID → UserItem
  allocationID : AllocationID
  privateInfo : PrivateInfo := {}
  curTable : ℤ := 0
  /-- The process has divided by zero. -/
  fault : Bool := false
  /-- The effects so far, latest last. -/
  log : List Effect := []

/-- The conversion of a score to `DWORD`. -/
def toDword (score : ℤ) : ℕ := (score % 2 ^ 32).toNat

namespace PrivateGame

variable (opt : ServiceOption) (s : PrivateGame)

/-! ## Parts -/

def emit (effects : List Effect) : PrivateGame := { s with log := s.log ++ effects }

def modifyInfo (t : ℕ) (f : PrivateTableInfo → PrivateTableInfo) : PrivateGame :=
  { s with tableInfo := Function.update s.tableInfo t (f (s.tableInfo t)) }

def setFrame (t : ℕ) (frame : TableFrame) : PrivateGame :=
  { s with tableFrame := Function.update s.tableFrame t frame }

def modifyUser (u : UserID) (f : UserItem → UserItem) : PrivateGame :=
  { s with userItem := Function.update s.userItem u (f (s.userItem u)) }

def getTableUserItem (t c : ℕ) : Option UserID :=
  if c < opt.chairCount then (s.tableFrame t).tableUserItem c else none

/-- The users at the chairs, in order. -/
def seated (t : ℕ) : List UserID :=
  (List.range opt.chairCount).filterMap (s.getTableUserItem opt t)

def getSitUserCount (t : ℕ) : ℕ := (s.seated opt t).length

def writeUserScore (u : UserID) (lScore : ℤ) : PrivateGame :=
  (s.modifyUser u fun item => { item with score := item.score + lScore }).emit
    [.writeUserScore u lScore]

/-- 赋值为初始积分 of the room at a table. -/
def initScore (u : UserID) (t : ℕ) : PrivateGame :=
  s.writeUserScore u ((s.tableInfo t).initEnterRoomScore - (s.userItem u).score)

/-- `getTableInfoByTableID` of the user's table. -/
def userTable (u : UserID) : Option ℕ := (s.userItem u).tableID.filter (· < opt.tableCount)

def getTableInfoByCreaterID (createrUserID : ℕ) : Option ℕ :=
  (List.range opt.tableCount).find? fun t => (s.tableInfo t).createrUserID == createrUserID

def getTableInfoByRoomID (roomNum : ℕ) : Option ℕ :=
  (List.range opt.tableCount).find? fun t => (s.tableInfo t).roomNum == roomNum

/-! ## Sitting down -/

def onActionUserSitDown (u : UserID) : PrivateGame :=
  match s.userTable opt u with
  | none => s
  | some t =>
      if (s.tableInfo t).inEnd then s
      else if (s.tableInfo t).isSetOneTimeRoomScoreType then s.initScore u t
      else s

/-- `PerformSitDownAction`, where the table lets the user sit down. -/
def sitDown (u : UserID) (t c : ℕ) : PrivateGame :=
  ((s.setFrame t { s.tableFrame t with
      tableUserItem := Function.update (s.tableFrame t).tableUserItem c (some u) }).modifyUser u
    fun item => { item with tableID := some t, chairID := c }).onActionUserSitDown opt u

def joinPrivateRoom (u : UserID) (t : ℕ) (admits : Bool) : PrivateGame × Bool :=
  if u ∈ s.seated opt t then (s, true)
  else
    match (List.range opt.chairCount).find? fun c => (s.getTableUserItem opt t c).isNone with
    | none => (s, false)
    | some c =>
        match (s.userItem u).tableID with
        | some t' => (s, t' == t)
        | none => if admits then (s.sitDown opt u t c, true) else (s, false)

/-! ## Standing up and closing

A table is left and a room is closed while no game runs; where one runs it
is concluded first. -/

/-- `PerformStandUpAction`, where no game runs. -/
def leaveTable (u : UserID) (t : ℕ) : PrivateGame :=
  let c := (s.userItem u).chairID
  if s.getTableUserItem opt t c = some u then
    (s.setFrame t { s.tableFrame t with
      tableUserItem := Function.update (s.tableFrame t).tableUserItem c none }).modifyUser u
        fun item => { item with tableID := none }
  else s

def leaveChairs (leave : PrivateGame → UserID → PrivateGame) (t : ℕ) :
    List ℕ → PrivateGame → PrivateGame
  | [], s => s
  | c :: cs, s =>
      leaveChairs leave t cs
        (match s.getTableUserItem opt t c with
        | none => s
        | some u => if (s.userItem u).tableID.isSome then leave s u else s)

/-- `ClearRoom`, where no game runs. -/
def clearIdle (t : ℕ) : PrivateGame :=
  (leaveChairs opt (fun s u => s.leaveTable opt u t) t (List.range opt.chairCount) s).modifyInfo t
    (PrivateTableInfo.restValue opt.toTableAttrib)

/-- 归还 of a number. -/
def pushValue (number : ℕ) : PrivateGame :=
  { s with allocationID := s.allocationID.pushValue number }.emit [.pushValue number]

def delPRMRedisKey (t : ℕ) : PrivateGame :=
  { s with curTable := s.curTable - 1 }.emit [.dismissRoom t (s.tableInfo t).createrUserID]

/-- A room that has started has ended. -/
def endInfo (info : PrivateTableInfo) : PrivateTableInfo :=
  { info with
    inEnd := true
    createrUserID := 0
    totalRecord := { info.totalRecord with recordChild := [] }
    start := false }

/-- `DismissRoom`, where no game runs. -/
def closeRoom (t : ℕ) : PrivateGame :=
  let info := s.tableInfo t
  let s := s.delPRMRedisKey t
  (if info.start then s.modifyInfo t endInfo else s.clearIdle opt t).pushValue
    (info.roomNum % 10000)

/-! ## The cost -/

def createrPlayerPrivateCost (t : ℕ) : PrivateGame :=
  let info := s.tableInfo t
  s.emit [.privateCost info.createrUserID info.playCost info.roomType]

/-- `EveryOnePrivateCost`. The users are counted at all chairs and looked
for at the first ones. -/
def everyOnePrivateCost (t : ℕ) (divideCost : Bool) : PrivateGame :=
  let info := s.tableInfo t
  let userCount := s.getSitUserCount opt t
  if divideCost ∧ userCount = 0 then { s with fault := true }
  else
    let cost := if divideCost then info.playCost / userCount else info.playCost
    s.emit ((List.range userCount).filterMap fun c =>
      (s.getTableUserItem opt t c).map fun u : UserID => Effect.privateCost u cost info.roomType)

def createPrivateCost (t : ℕ) : PrivateGame :=
  match (s.tableInfo t).roomType with
  | .typePrivate =>
      if (s.tableInfo t).isCardAARule then s.everyOnePrivateCost opt t true
      else s.createrPlayerPrivateCost t
  | .typePublic => s.everyOnePrivateCost opt t false

/-! ## The end of a hand -/

def onEventGameEnd (t reason : ℕ) (given : Given) : PrivateGame :=
  match (s.tableInfo t).roomType with
  | .typePrivate =>
      let s := if reason ≠ gerDismiss ∧ (s.tableInfo t).startPlayCout = 1 then
        s.createPrivateCost opt t else s
      if given.privateEnd t then s.closeRoom opt t else s
  | .typePublic => ((s.createPrivateCost opt t).closeRoom opt t).clearIdle opt t

/-- The users without a connection leave a table whose hand is over. -/
def leaveOffLine (t : ℕ) (offLine : List UserID) : PrivateGame :=
  leaveChairs opt (fun s u => if u ∈ offLine then s.leaveTable opt u t else s) t
    (List.range opt.chairCount) s

/-- `ConcludeGame`. What it tells the room is the status. -/
def concludeGame (t : ℕ) (dismissed : Bool) (given : Given) : PrivateGame :=
  if (s.tableFrame t).gameStarted then
    let s := (s.setFrame t { s.tableFrame t with gameStarted := false }).leaveOffLine opt t
      given.offLine
    (s.emit [.concludeGame t dismissed (s.seated opt t)]).onEventGameEnd opt t gameStatusFree given
  else s

def dismissRoom (t : ℕ) (given : Given) : PrivateGame :=
  (s.concludeGame opt t true given).closeRoom opt t

def performStandUpAction (u : UserID) (t : ℕ) (given : Given) : PrivateGame :=
  (if given.leaveConcludes then s.concludeGame opt t false given else s).leaveTable opt u t

def clearRoom (t : ℕ) (given : Given) : PrivateGame :=
  (leaveChairs opt (fun s u => s.performStandUpAction opt u t given) t (List.range opt.chairCount)
    s).modifyInfo t (PrivateTableInfo.restValue opt.toTableAttrib)

/-! ## Creating and joining -/

/-- 消耗点数 of a room that is requested. -/
def requestCost (info : PrivateInfo) (request : CreatePrivateResult) : ℕ :=
  match request.roomType with
  | .typePrivate => toDword (info.playCost request.playCoutIdex)
  | .typePublic => toDword info.costGold

/-- A number and the parameters for the room at a table. -/
def storeRoom (u : UserID) (request : CreatePrivateResult) (t time : ℕ) : PrivateGame :=
  let number := s.allocationID.popValue.1
  let roomNum := (opt.serverID + 10) * 10000 + number
  let s := { s with allocationID := s.allocationID.popValue.2 }.modifyInfo t fun info =>
    let info := info.setRoomNum roomNum
    { info with
      playCout := s.privateInfo.playCout request.playCoutIdex
      playCost := requestCost s.privateInfo request
      createrUserID := u
      httpChannel := ""
      roomType := request.roomType
      gameRuleIdex := request.gameRuleIdex
      gameTypeIdex := request.gameTypeIdex
      playCoutIdex := request.playCoutIdex
      enterRoomScoreType := request.enterRoomScoreType
      initEnterRoomScore := request.initEnterRoomScore
      totalRecord := { info.totalRecord with
        playTime := time
        recordID := if request.againTable.isNone then toInt request.recordID
          else info.totalRecord.recordID } }
  { s with curTable := s.curTable + 1 }.emit
    [.popValue number,
      .createRoom t u request.roomType (s.tableInfo t).isCardAARule (s.tableInfo t).playCost]

/-- 设置房主积分. -/
def setCreaterScore (u : UserID) : PrivateGame := s.onActionUserSitDown opt u

/-- `OnEventCreatePrivate` from where it has a table. -/
def enterRoom (u : UserID) (request : CreatePrivateResult) (t : ℕ) (given : Given) : PrivateGame :=
  let r := s.joinPrivateRoom opt u t given.admits
  if r.2 ∧ opt.serverID < 90 then
    (r.1.storeRoom opt u request t given.time).setCreaterScore opt u
  else r.1

/-- The first table that is free: nobody is at it. -/
def freeTable : Option ℕ :=
  (List.range opt.tableCount).find? fun t =>
    !(s.tableInfo t).inEnd && decide (s.getSitUserCount opt t = 0)

def takeTable (t : ℕ) : PrivateGame :=
  (s.emit [.takeTable t (s.tableInfo t).createrUserID]).modifyInfo t
    (PrivateTableInfo.restValue opt.toTableAttrib)

def onEventCreatePrivate (u : UserID) (request : CreatePrivateResult) (given : Given) :
    PrivateGame :=
  if request.sucess = false ∨ 4 ≤ request.playCoutIdex then s
  else
    match request.againTable with
    | some t =>
        if opt.tableCount ≤ t then s
        else if (s.tableInfo t).inEnd = false then (s.joinPrivateRoom opt u t given.admits).1
        else (s.modifyInfo t (PrivateTableInfo.restAgainValue opt.toTableAttrib)).enterRoom opt u
          request t given
    | none =>
        match s.freeTable opt with
        | none => s
        | some t =>
            -- the table is reset before it is asked whether the user has a room
            let s := s.takeTable opt t
            if (s.getTableInfoByCreaterID opt u).isSome then s
            else s.enterRoom opt u request t given

def onTCPNetworkSubJoinPrivate (u : UserID) (roomNum : ℕ) (given : Given) : PrivateGame :=
  match s.getTableInfoByRoomID opt roomNum with
  | none => s
  | some t =>
      let info := s.tableInfo t
      if s.getSitUserCount opt t = opt.chairCount ∨ info.start ∨ info.inEnd ∨
          info.isCanJoinTable (s.userItem u).clientAddr
            ((s.seated opt t).map fun v => (s.userItem v).clientAddr) = false then s
      else (s.joinPrivateRoom opt u t given.admits).1

/-! ## Voting -/

/-- A vote is written down; `none` where it does not count. -/
def vote (u : UserID) (chairID : ℕ) (dismiss : Bool) (info : PrivateTableInfo) :
    Option PrivateTableInfo :=
  if info.start = false ∧ info.createrUserID ≠ u then none
  else if info.inEnd then none
  else if info.dismissChairID = [] ∧ dismiss = false then none
  else if dismiss then
    if chairID ∈ info.dismissChairID then none
    else some { info with dismissChairID := info.dismissChairID ++ [chairID] }
  else if chairID ∈ info.notAgreeChairID then none
  else some { info with notAgreeChairID := info.notAgreeChairID ++ [chairID] }

def rejectVote (info : PrivateTableInfo) : PrivateTableInfo :=
  if 2 ≤ info.notAgreeChairID.length then
    { info with notAgreeChairID := [], dismissChairID := [], dismissPastTime := 0 }
  else info

def voteDismisses (sitUserCount : ℕ) (info : PrivateTableInfo) : Bool :=
  !info.start || decide (sitUserCount ≤ info.dismissChairID.length + 1)

/-- `OnTCPNetworkSubDismissPrivate`. The votes are counted before two
against end the vote. -/
def onTCPNetworkSubDismissPrivate (u : UserID) (dismiss : Bool) (given : Given) : PrivateGame :=
  match s.userTable opt u with
  | none => s
  | some t =>
      match vote u (s.userItem u).chairID dismiss (s.tableInfo t) with
      | none => s
      | some info =>
          let voted := s.modifyInfo t fun _ => rejectVote info
          if voteDismisses (s.getSitUserCount opt t) info then
            (voted.dismissRoom opt t given).clearRoom opt t given
          else voted

/-! ## The timer -/

/-- A room that has ended waits to be created again. -/
def timerAgain (t : ℕ) (given : Given) : PrivateGame :=
  if (s.tableInfo t).inEnd then
    let s := s.modifyInfo t fun info => { info with againPastTime := info.againPastTime + 5 }
    if againWaiteTime ≤ (s.tableInfo t).againPastTime then s.clearRoom opt t given else s
  else s

/-- 已经创建并且没有开始的桌子. -/
def timerCreate (t : ℕ) (given : Given) : PrivateGame :=
  if 0 < (s.tableInfo t).createrUserID ∧ (s.tableInfo t).start = false then
    let s := s.modifyInfo t fun info => { info with createTime := info.createTime + 5 }
    if createPrivateFreeTime ≤ (s.tableInfo t).createTime then s.dismissRoom opt t given else s
  else s

/-- A vote runs. -/
def timerDismiss (t : ℕ) (given : Given) : PrivateGame :=
  if (s.tableInfo t).dismissChairID ≠ [] then
    let s := s.modifyInfo t fun info => { info with dismissPastTime := info.dismissPastTime + 5 }
    if dismissWaiteTime ≤ (s.tableInfo t).dismissPastTime ∧
        (s.tableInfo t).notAgreeChairID.length ≤ 1 then s.dismissRoom opt t given
    else s
  else s

def timerTable (t : ℕ) (given : Given) : PrivateGame :=
  ((s.timerAgain opt t given).timerCreate opt t given).timerDismiss opt t given

def onEventTimer (given : Given) : PrivateGame :=
  (List.range opt.tableCount).foldl (fun s t => s.timerTable opt t given) s

/-! ## The game -/

def onEventGameStart (t time : ℕ) : PrivateGame :=
  s.modifyInfo t fun info =>
    PrivateTableInfo.newRandChild opt.toTableAttrib
      { info with startPlayCout := (info.startPlayCout + 1) % 2 ^ 32, start := true }
      ((s.seated opt t).map fun u => (u, (s.userItem u).nickName)) time

/-- `StartGame`, when all chairs are taken. -/
def startGame (t time : ℕ) : PrivateGame :=
  if t < opt.tableCount ∧ (s.tableFrame t).gameStarted = false ∧
      s.getSitUserCount opt t = opt.chairCount then
    ((s.setFrame t { s.tableFrame t with gameStarted := true }).emit [.startGame t]).onEventGameStart
      opt t time
  else s

def onActionUserOnReady (u : UserID) : PrivateGame :=
  match s.userTable opt u with
  | none => s
  | some t =>
      if (s.tableInfo t).inEnd then s
      else if (s.tableInfo t).isEveryTimeRoomScoreType then s.initScore u t
      else s

def writeTableScore (t : ℕ) (lScore : List ℤ) (time : ℕ) : PrivateGame :=
  s.modifyInfo t fun info =>
    let info := info.writeSocre lScore time
    { info with totalRecord := { info.totalRecord with
        recordChild := info.totalRecord.recordChild.modifyLast fun child =>
          { child with recordID := info.totalRecord.recordID } } }

def addPrivatePlayCout (t cout : ℕ) : PrivateGame :=
  s.modifyInfo t fun info =>
    { info with finishPlayCout := (info.finishPlayCout + cout) % 2 ^ 32 }

def singleRecord (createrUserID recordID : ℕ) : PrivateGame :=
  match s.getTableInfoByCreaterID opt createrUserID with
  | none => s
  | some t => s.modifyInfo t fun info =>
      { info with totalRecord := { info.totalRecord with recordID := toInt recordID } }

/-! ## Runs -/

/-- What happens at a private room server. -/
inductive Event
  | create (userID : UserID) (request : CreatePrivateResult) (given : Given)
  | join (userID : UserID) (roomNum : ℕ) (given : Given)
  | dismiss (userID : UserID) (dismiss : Bool) (given : Given)
  | standUp (userID : UserID) (given : Given)
  | ready (userID : UserID)
  | gameStart (tableID time : ℕ)
  | gameEnd (tableID : ℕ) (given : Given)
  | writeScore (tableID : ℕ) (lScore : List ℤ) (time : ℕ)
  | addPlayCout (tableID cout : ℕ)
  | timer (given : Given)
  | privateInfo (info : PrivateInfo)
  | singleRecord (createrUserID recordID : ℕ)

def handle : Event → PrivateGame
  | .create u request given => s.onEventCreatePrivate opt u request given
  | .join u roomNum given => s.onTCPNetworkSubJoinPrivate opt u roomNum given
  | .dismiss u dismiss given => s.onTCPNetworkSubDismissPrivate opt u dismiss given
  | .standUp u given =>
      match s.userTable opt u with
      | none => s
      | some t => s.performStandUpAction opt u t given
  | .ready u => s.onActionUserOnReady opt u
  | .gameStart t time => s.startGame opt t time
  | .gameEnd t given => if t < opt.tableCount then s.concludeGame opt t false given else s
  | .writeScore t lScore time => s.writeTableScore t lScore time
  | .addPlayCout t cout => s.addPrivatePlayCout t cout
  | .timer given => s.onEventTimer opt given
  | .privateInfo info => { s with privateInfo := info }
  | .singleRecord createrUserID recordID => s.singleRecord opt createrUserID recordID

/-- One event, with what it adds to the log. A process that has divided by
zero is gone. -/
def step : TotalMachine PrivateGame Event Effect := fun s e =>
  if s.fault then (s, []) else (s.handle opt e, (s.handle opt e).log.drop s.log.length)

/-- The server when it starts. `memory` is what the records held before
they were constructed. -/
def init (order : Shuffle) (memory : ℕ → ℕ × ℤ) (userItem : UserID → UserItem) : PrivateGame where
  tableInfo t := PrivateTableInfo.construct opt.toTableAttrib (memory t).1 (memory t).2
  userItem u := { userItem u with tableID := none }
  allocationID := AllocationID.reAllocate order

end PrivateGame

end GameServer.PrivateService
