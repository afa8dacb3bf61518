import GameServer.GameService.Model.ServerUser
/-!
# AttemperEngine — deposits into the bank

`CAttemperEngineSink` keeps a bind parameter for each connection, with
the socket that is open there and the user who is bound to it. A deposit
freezes its amount in the user's item and is posted to the database
under the ID of the socket it came on. The answer comes back under that
ID, and the sink looks up there whom it is for.

`Service` is the sink, the users' items and the requests that the
database has not answered yet. A bound user is known by his user ID.
Robots are left out, and so is what the tables freeze.
-/

namespace GameServer

namespace GameService

/-- `ModifyUserInsure`, as far as the score goes. The insure is not part
of a `ServerUserItem` here. -/
def ServerUserItem.modifyUserInsure (u : ServerUserItem) (lScore lInsure lRevenue : Score) :
    ServerUserItem :=
  adjustPut
    { u with
      lScore := u.lScore + lScore
      recordInfo :=
        { u.recordInfo with
          lScore := u.recordInfo.lScore + lScore
          lInsure := u.recordInfo.lInsure + lInsure
          lRevenue := u.recordInfo.lRevenue + lRevenue } }

theorem ServerUserItem.userID_ne_of_frozened (u : ServerUserItem) {lScore : Score}
    (h : (u.frozenedUserScore lScore).2) : u.userID ≠ 0 := by
  unfold frozenedUserScore at h
  split_ifs at h with hcovers
  · exact (of_decide_eq_true hcovers).1

/-- A call of a game: all but the two that freeze. -/
def ScoreCall.IsGameWrite : ScoreCall → Prop
  | .frozenedUserScore _ => False
  | .unFrozenedUserScore _ => False
  | _ => True

end GameService

namespace AttemperEngine

open GameService Function

def invalidWord : ℕ := 0xFFFF

/-- `LOWORD` of a socket ID: the index of its connection. -/
def loWord (socketID : UInt32) : ℕ := socketID.toNat % 0x10000

structure GameServiceOption where
  /-- `wServerType` has `GAME_GENRE_GOLD`. -/
  gold : Bool := true
  /-- `wServerType` is `GAME_GENRE_PRIVATE`. -/
  privateRoom : Bool := false
  maxPlayer : ℕ := 512
  lMinTableScore : Score := 0
  lDefPutScore : Score := 0
  lLowPutScore : Score := 0
  exchangeRatio : Score := 1

structure BindParameter where
  socketID : UInt32 := 0
  serverUserItem : Option UInt32 := none

/-- A user's item with his insure and his connection. `stay` tells his
stays apart: it counts the items that were inserted before this one. -/
structure UserItem where
  item : ServerUserItem
  lInsure : Score
  bindIndex : ℕ
  stay : ℕ

/-- A deposit that was accepted: `DBR_GR_UserSaveScore` with the context
it is posted under. `stay` is the item whose score it froze; it is not
part of the request. -/
structure UserSaveScore where
  contextID : UInt32
  userID : UInt32
  lSaveScore : Score
  activityGame : UInt8
  stay : ℕ
  userID_ne : userID ≠ 0
  lSaveScore_pos : 0 < lSaveScore

/-- The connections, the users and the deposits in flight. -/
structure Service where
  bindParameter : ℕ → BindParameter := fun _ => {}
  userItem : UInt32 → Option UserItem := fun _ => none
  inserted : ℕ := 0
  inFlight : List UserSaveScore := []

/-- What the sink sends to a user and posts to the database. -/
inductive Output where
  /-- `SendInsureFailure`. -/
  | insureFailure (userID : UInt32) (describe : String) (resultCode : Int) (activityGame : UInt8)
  /-- `SUB_GR_USER_INSURE_SUCCESS`. -/
  | insureSuccess (userID : UInt32) (lUserScore lUserInsure : Score) (describe : String)
      (activityGame : UInt8)
  /-- `DBR_GR_USER_SAVE_SCORE`. -/
  | userSaveScore (r : UserSaveScore)

structure SaveScoreRequest where
  activityGame : UInt8
  lSaveScore : Score

/-- What the database says of a deposit: `DBO_GR_UserInsureSuccess` or
`DBO_GR_UserInsureFailure`, less what they repeat of the request. -/
inductive InsureResult where
  | success (lSourceInsure lVariationScore lVariationInsure lInsureRevenue : Score)
      (describe : String)
  | failure (resultCode : Int) (describe : String)

structure LogonSuccess where
  userID : UInt32
  lGold : Score
  lInsure : Score

structure TablePlace where
  userStatus : UserStatus
  tableID : ℕ
  chairID : ℕ

namespace Service

variable (opt : GameServiceOption) (s : Service)

def getBindParameter (bindIndex : ℕ) : Option BindParameter :=
  if bindIndex < opt.maxPlayer ∧ bindIndex ≠ invalidWord then some (s.bindParameter bindIndex)
  else none

def setBindParameter (bindIndex : ℕ) (b : BindParameter) : Service :=
  { s with bindParameter := update s.bindParameter bindIndex b }

def setUserItem (userID : UInt32) (u : Option UserItem) : Service :=
  { s with userItem := update s.userItem userID u }

/-- `GetBindUserItem`, with the user's ID. -/
def getBindUserItem (bindIndex : ℕ) : Option (UInt32 × UserItem) := do
  let b ← s.getBindParameter opt bindIndex
  let userID ← b.serverUserItem
  let u ← s.userItem userID
  return (userID, u)

/-! ## Connections -/

/-- Taking the user off a connection, if it is he who is bound there. -/
def unbind (userID : UInt32) (bindIndex : ℕ) : Service :=
  match s.getBindParameter opt bindIndex with
  | none => s
  | some b =>
      if b.serverUserItem = some userID then
        s.setBindParameter bindIndex { b with serverUserItem := none }
      else s

/-- `SetUserStatus` with `OnEventUserItemStatus`: whoever gets `US_NULL`
is unbound and deleted. -/
def setUserStatus (userID : UInt32) (place : TablePlace) : Service :=
  match s.userItem userID with
  | none => s
  | some u =>
      if u.item.userID = 0 then s
      else if place.userStatus = .null then
        (s.unbind opt userID u.bindIndex).setUserItem userID none
      else
        s.setUserItem userID (some { u with
          item := u.item.setUserStatus place.userStatus place.tableID place.chairID })

def onEventTCPNetworkBind (socketID : UInt32) : Service :=
  match s.getBindParameter opt (loWord socketID) with
  | none => s
  | some b => s.setBindParameter (loWord socketID) { b with socketID }

/-- `DetachBindStatus`, and what a private table notes before it sets a
user off line. -/
def detach (u : UserItem) : UserItem :=
  if u.item.userID = 0 then u
  else
    { u with
      item :=
        { u.item with
          clientReady := false
          reUserStatus := if opt.privateRoom then u.item.userStatus else u.item.reUserStatus }
      bindIndex := invalidWord }

/-- The user part of `OnEventTCPNetworkShut`. A user at a table stays if
the table wants him to: `left` is the place that `OnEventUserOffLine`
gives him. -/
def loseUser (bindIndex : ℕ) (left : TablePlace) : Service :=
  match s.getBindUserItem opt bindIndex with
  | none => s
  | some (userID, u) =>
      if u.item.tableID ≠ invalidTable then
        (s.setUserItem userID (some (detach opt u))).setUserStatus opt userID left
      else s.setUserStatus opt userID ⟨.null, invalidTable, invalidChair⟩

def onEventTCPNetworkShut (socketID : UInt32) (left : TablePlace) : Service :=
  match s.getBindParameter opt (loWord socketID) with
  | none => s
  | some _ => (s.loseUser opt (loWord socketID) left).setBindParameter (loWord socketID) {}

/-- Binding a user to a connection: `SetUserParameter` and the pointer of
the bind parameter. -/
def bindUser (userID : UInt32) (u : UserItem) (bindIndex : ℕ) : Service :=
  (s.setBindParameter bindIndex
    { s.bindParameter bindIndex with serverUserItem := some userID }).setUserItem userID
      (some { u with item := { u.item with clientReady := false }, bindIndex })

/-- Back from off line. -/
def resume (userID : UInt32) (u : UserItem) : Service :=
  if u.item.userStatus = .offline then
    s.setUserStatus opt userID
      ⟨if opt.privateRoom then u.item.reUserStatus else .playing, u.item.tableID, u.item.chairID⟩
  else s

/-- `SwitchUserItemConnect`. The socket of the old connection is shut
down, which the sink learns of later. -/
def switchUserItemConnect (userID socketID : UInt32) : Service :=
  match s.userItem userID with
  | none => s
  | some u =>
      let s := if u.bindIndex ≠ invalidWord then s.unbind opt userID u.bindIndex else s
      let s := s.resume opt userID u
      match s.userItem userID with
      | none => s
      | some u => s.bindUser userID u (loWord socketID)

/-- `OnTCPNetworkSubLogonUserID` with the password of a user who is in
the room. -/
def onTCPNetworkSubLogonUserID (socketID userID : UInt32) : Service :=
  match s.getBindParameter opt (loWord socketID) with
  | none => s
  | some b =>
      if b.serverUserItem.isSome then s else s.switchUserItemConnect opt userID socketID

def insertUserItem (l : LogonSuccess) (bindIndex : ℕ) : UserItem :=
  let putScore := opt.lDefPutScore * opt.exchangeRatio
  let put : Score × Score :=
    if putScore > 0 then
      if l.lGold ≥ opt.lDefPutScore then (putScore, l.lGold - opt.lDefPutScore)
      else (l.lGold * opt.exchangeRatio, 0)
    else (l.lGold, 0)
  { item :=
      { userID := l.userID
        lScore := put.1
        trusteeScore := put.2
        defPutScore := opt.lDefPutScore
        lowPutScore := opt.lLowPutScore }
    lInsure := l.lInsure
    bindIndex
    stay := s.inserted }

/-- `OnDBLogonSuccess`, for a user who is neither kicked nor in excess.
One who is in the room is switched. -/
def onDBLogonSuccess (contextID : UInt32) (l : LogonSuccess) : Service :=
  match s.getBindParameter opt (loWord contextID) with
  | none => s
  | some b =>
      if b.serverUserItem.isSome ∨ b.socketID ≠ contextID then s
      else if (s.userItem l.userID).isSome then s.switchUserItemConnect opt l.userID contextID
      else
        { (s.setBindParameter (loWord contextID) { b with serverUserItem := some l.userID }).setUserItem
            l.userID (some (s.insertUserItem opt l (loWord contextID))) with
          inserted := s.inserted + 1 }

/-! ## Deposits -/

/-- `CTableFrame::QueryConsumeQuota`, from what the game says. -/
def queryConsumeQuota (u : ServerUserItem) (lUserConsumeQuota : Score) : Score :=
  if lUserConsumeQuota < 0 ∨ lUserConsumeQuota > u.lScore - opt.lMinTableScore then 0
  else lUserConsumeQuota + u.trusteeScore

/-- `OnTCPNetworkSubSaveScoreRequest`. `lUserConsumeQuota` is what the
game at the user's table would answer. Neither of the two flags a client
sends is let through. -/
def onTCPNetworkSubSaveScoreRequest (socketID : UInt32) (p : SaveScoreRequest)
    (lUserConsumeQuota : Score) : Service × List Output :=
  if ¬ opt.gold then (s, [])
  else if hpos : 0 < p.lSaveScore then
    match s.getBindUserItem opt (loWord socketID) with
    | none => (s, [])
    | some (userID, u) =>
        if p.activityGame = 0 then
          (s, [.insureFailure userID "此房间禁止房间存款，存入操作失败！" 0 p.activityGame])
        else if p.activityGame = 1 then
          (s, [.insureFailure userID "此房间禁止游戏存款，存入操作失败！" 0 p.activityGame])
        else
          let lUserWholeScore := u.item.lScore + u.item.trusteeScore
          let lConsumeQuota :=
            if u.item.tableID ≠ invalidTable then queryConsumeQuota opt u.item lUserConsumeQuota
            else lUserWholeScore
          if p.lSaveScore > lConsumeQuota then
            if lConsumeQuota < lUserWholeScore then
              (s, [.insureFailure userID
                s!"由于您正在游戏中，游戏币可存入额度为 {lConsumeQuota}，存入操作失败！" 0 p.activityGame])
            else
              (s, [.insureFailure userID "您的游戏币余额不足，存入操作失败！" 0 p.activityGame])
          else if hfrozen : (u.item.frozenedUserScore p.lSaveScore).2 then
            let item := (u.item.frozenedUserScore p.lSaveScore).1
            let r : UserSaveScore :=
              { contextID := socketID, userID := u.item.userID, lSaveScore := p.lSaveScore
                activityGame := p.activityGame, stay := u.stay
                userID_ne := u.item.userID_ne_of_frozened hfrozen, lSaveScore_pos := hpos }
            ({ s.setUserItem userID (some { u with item }) with inFlight := s.inFlight ++ [r] },
              [.userSaveScore r])
          else (s, [])
  else (s, [])

/-- Whom the sink finds under a context: the user bound to the socket, if
it is still open. -/
def bindTarget (contextID : UInt32) : Option (UInt32 × UserItem) :=
  match s.getBindParameter opt (loWord contextID) with
  | none => none
  | some b =>
      if b.socketID ≠ contextID ∨ b.serverUserItem = none then none
      else s.getBindUserItem opt (loWord contextID)

/-- `OnDBUserInsureSuccess` and `OnDBUserInsureFailure`. A success that
cannot be unfrozen goes no further. -/
def onDBUserInsure (r : UserSaveScore) : InsureResult → Service × List Output
  | .success lSourceInsure lVariationScore lVariationInsure lInsureRevenue describe =>
      match s.bindTarget opt r.contextID with
      | none => (s, [])
      | some (userID, u) =>
          let unfrozened := u.item.unFrozenedUserScore r.lSaveScore
          if r.lSaveScore > 0 ∧ ¬ unfrozened.2 then (s, [])
          else
            let item := if r.lSaveScore > 0 then unfrozened.1 else u.item
            let item := item.modifyUserInsure lVariationScore lVariationInsure lInsureRevenue
            (s.setUserItem userID (some { u with item, lInsure := u.lInsure + lVariationInsure }),
              [.insureSuccess userID (item.lScore + item.trusteeScore)
                (lSourceInsure + lVariationInsure) describe r.activityGame])
  | .failure resultCode describe =>
      match s.bindTarget opt r.contextID with
      | none => (s, [])
      | some (userID, u) =>
          let item :=
            if r.lSaveScore > 0 then (u.item.unFrozenedUserScore r.lSaveScore).1 else u.item
          (s.setUserItem userID (some { u with item }),
            [.insureFailure userID describe resultCode r.activityGame])

def gameWrite (userID : UInt32) (c : ScoreCall) : Service :=
  match s.userItem userID with
  | none => s
  | some u => s.setUserItem userID (some { u with item := (ServerUserItem.step u.item c).1 })

end Service

/-- What happens to the room. The database answers any of the requests in
flight, each once. -/
inductive Event where
  | networkBind (socketID : UInt32)
  | networkShut (socketID : UInt32) (left : TablePlace)
  | logonUserID (socketID userID : UInt32)
  | logonSuccess (contextID : UInt32) (l : LogonSuccess)
  | setUserStatus (userID : UInt32) (place : TablePlace)
  | gameWrite (userID : UInt32) (c : {c : ScoreCall // c.IsGameWrite})
  | saveScoreRequest (socketID : UInt32) (p : SaveScoreRequest) (lUserConsumeQuota : Score)
  | insureResult (k : ℕ) (result : InsureResult)

/-- The room as a machine. -/
def Service.step (opt : GameServiceOption) : TotalMachine Service Event Output
  | s, .networkBind socketID => (s.onEventTCPNetworkBind opt socketID, [])
  | s, .networkShut socketID left => (s.onEventTCPNetworkShut opt socketID left, [])
  | s, .logonUserID socketID userID => (s.onTCPNetworkSubLogonUserID opt socketID userID, [])
  | s, .logonSuccess contextID l => (s.onDBLogonSuccess opt contextID l, [])
  | s, .setUserStatus userID place => (s.setUserStatus opt userID place, [])
  | s, .gameWrite userID c => (s.gameWrite userID c, [])
  | s, .saveScoreRequest socketID p lUserConsumeQuota =>
      s.onTCPNetworkSubSaveScoreRequest opt socketID p lUserConsumeQuota
  | s, .insureResult k result =>
      match s.inFlight[k]? with
      | none => (s, [])
      | some r => { s with inFlight := s.inFlight.eraseIdx k }.onDBUserInsure opt r result

end AttemperEngine

end GameServer
