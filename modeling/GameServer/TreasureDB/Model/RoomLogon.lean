import GameServer.TreasureDB.Model.BankService
/-!
# TreasureDB — logons to rooms and the score lock

`GSP_GR_EfficacyUserID`, `GSP_GR_EfficacyMobile` and
`GSP_GR_LeaveGameServer`, and the `UPDATE` of `GSP_GR_WriteGameScore`. A
logon that succeeds is a session, live on its server until the procedure
of its leave is run. Each procedure is one step: the statements around the
lock are taken together.

Rights, ranks and statistics are left out, and so is what a stay in a room
is given: it is the parameter `presentScore`.
-/

namespace GameServer.TreasureDB

open Sql

/-! ## Tables -/

/-- A row of `GameScoreLocker`; its key is the user. -/
structure ScoreLocker extends GameScoreLocker where
  enterID : ℤ
  enterIP : String
  enterMachine : String

/-- What the leave of a session writes into its record. -/
structure LeaveRecord where
  leaveReason : ℤ
  clientIP : String
  machineID : String
  score : ℤ
  insure : ℤ
  revenue : ℤ
  deriving DecidableEq

structure RecordUserInout where
  userID : ℤ
  enterScore : ℤ
  enterGrade : ℤ := 0
  enterInsure : ℤ
  kindID : ℤ
  serverID : ℤ
  enterClientIP : String
  enterMachine : String
  leave : Option LeaveRecord := none
  deriving DecidableEq

/-- What the procedures write; `identity` is the next `ID` of
`RecordUserInout`. -/
structure RoomTables where
  gameScoreInfo : Table ℤ GameScore
  gameScoreLocker : Table ℤ ScoreLocker
  recordUserInout : Table ℤ RecordUserInout
  identity : ℤ

/-- What a logon reads besides: the passwords of the accounts. -/
structure LogonDatabase extends Database where
  logonPass : ℤ → Option String
  dynamicPass : ℤ → Option String

/-! ## Answers -/

/-- The amounts of the result row of a logon. -/
structure LogonReport where
  userID : ℤ
  nickName : Option String
  score : ℤ
  grade : ℤ := 0
  insure : ℤ
  inoutIndex : ℤ
  deriving DecidableEq

/-- What a logon returns. A lock without a kind is described in a result
row of its own (`describeRow`), not in the output parameter. -/
structure LogonAnswer where
  returnCode : ℤ
  errorDescribe : Option String
  describeRow : Option String := none
  report : Option LogonReport := none
  deriving DecidableEq

def Refusal.logonAnswer (r : Refusal) : LogonAnswer := ⟨r.returnCode, r.errorDescribe, none, none⟩

/-! ## Checks -/

structure LogonParam extends Caller where
  password : String

def robotIP : String := "0.0.0.0"

/-- 系统暂停 and 效验地址; the answer is the variable `@EnjoinLogon`. -/
def logonAddress (db : Database) (p : Caller) : Except Refusal (Option ℤ) := do
  let enjoinLogon := db.statusValue "EnjoinLogon" none
  refuseIf (ne enjoinLogon (some 0)) ⟨2, db.statusString "EnjoinLogon" none, failed₂⟩
  let enjoinLogon := assign enjoinLogon (db.confineAddress p.clientIP)
  refuseIf (ne enjoinLogon (some 0))
    ⟨4, some "抱歉地通知您，系统禁止了您所在的 IP 地址的游戏登录权限，请联系客户服务中心了解详细情况！", failed₄⟩
  return enjoinLogon

/-- 效验机器, with the variable the address has set. -/
def logonMachine (db : Database) (p : Caller) (enjoinLogon : Option ℤ) : Except Refusal Unit :=
  refuseIf (ne (assign enjoinLogon (db.confineMachine p.machineID)) (some 0))
    ⟨7, some "抱歉地通知您，系统禁止了您的机器的游戏登录权限，请联系客户服务中心了解详细情况！", failed₇⟩

/-- 查询用户, 帐号禁止, 帐号关闭. -/
def logonAccount (db : Database) (p : Caller) : Except Refusal AccountsInfo :=
  match db.account p.userID with
  | none => .error ⟨1, some "您的帐号不存在或者密码输入有误，请查证后再次尝试登录！", failed₁⟩
  | some account => do
      refuseIf (ne account.nullity (some 0))
        ⟨2, some "您的帐号暂时处于冻结状态，请联系客户服务中心了解详细情况！", failed₂⟩
      refuseIf (ne account.stunDown (some 0))
        ⟨2, some "您的帐号使用了安全关闭功能，必须重新开通后才能继续使用！", failed₂⟩
      return account

/-- The exits of `GSP_GR_EfficacyUserID` before its transaction. -/
def efficacyUserChecks (db : LogonDatabase) (p : LogonParam) : Except Refusal AccountsInfo := do
  let enjoinLogon ← logonAddress db.toDatabase p.toCaller
  logonMachine db.toDatabase p.toCaller enjoinLogon
  let account ← logonAccount db.toDatabase p.toCaller
  refuseIf (account.moorMachine == some 1 && db.textNe account.lastLogonMachine (some p.machineID))
    ⟨2, some "您的帐号使用固定机器登录功能，您现所使用的机器不是所指定的机器！", failed₂⟩
  refuseIf (db.textNe (db.logonPass p.userID) (some p.password))
    ⟨3, some "抱歉,由于您的帐号在其它地方登录导致验证令牌被重置,请重新登录平台后再次尝试！", failed₃⟩
  return account

/-- The exits of `GSP_GR_EfficacyMobile` before its transaction: no machine
is looked up, a moored account is refused, and a robot needs no password. -/
def efficacyMobileChecks (db : LogonDatabase) (p : LogonParam) : Except Refusal AccountsInfo := do
  let _ ← logonAddress db.toDatabase p.toCaller
  let account ← logonAccount db.toDatabase p.toCaller
  refuseIf (ne account.moorMachine (some 0))
    ⟨1, some "您的帐号使用固定机器登录功能，您不能使用手机终端进行登录！", failed₁⟩
  refuseIf (db.textNe (db.dynamicPass p.userID) (some p.password) && p.clientIP != robotIP)
    ⟨3, some "您的帐号不存在或者密码输入有误，请查证后再次尝试！", failed₃⟩
  return account

/-- 固定机器: the text that is set when the machine is moored. -/
def moorDescribe (account : AccountsInfo) : Option String :=
  if account.moorMachine = some 2 then some "您的帐号成功使用了固定机器登录功能！" else none

/-! ## The transaction of a logon -/

/-- 游戏信息, 信息判断: the row of the user, made when there is none. -/
def openScore (db : Database) (t : RoomTables) (userID : ℤ) : GameScore × RoomTables :=
  match t.gameScoreInfo.lookup userID with
  | some score => (score, t)
  | none =>
      let score : GameScore := ⟨db.defaultScore, 0, 0⟩
      (score, { t with gameScoreInfo := t.gameScoreInfo.insert userID score })

/-- 锁定解除. -/
def releaseLock (t : RoomTables) (userID serverID : ℤ) : RoomTables :=
  { t with gameScoreLocker :=
      t.gameScoreLocker.deleteWhere userID fun row => row.serverID == some serverID }

/-- 查询锁定, 锁定判断: the room the user is locked in. -/
def lockedIn (t : RoomTables) (userID : ℤ) : Option (ℤ × ℤ) := do
  let row ← t.gameScoreLocker.lookup userID
  return (← row.kindID, ← row.serverID)

/-- 查询类型: the answer to a user who is locked in a room. -/
def lockedAnswer (db : Database) (describe : Option String) (kindID serverID : ℤ) : LogonAnswer :=
  if kindID ≠ 0 then
    let kindName := (assign none (db.gameKindItem kindID)).getD "未知游戏"
    let serverName := (assign none (db.gameRoomInfo serverID)).getD "未知房间"
    { returnCode := 4
      errorDescribe := some ("您正在 [ " ++ kindName ++ " ] 的 [ " ++ serverName ++
        " ] 游戏房间中，不能同时在进入此游戏房间！") }
  else
    { returnCode := 4, errorDescribe := describe
      describeRow := some "您正在进行保险柜处理过程中，暂时无法进入此游戏房间！" }

/-- 进入记录. -/
def enterRecord (t : RoomTables) (p : Caller) (score : GameScore) : RoomTables :=
  { t with
    recordUserInout := t.recordUserInout.insert t.identity {
      userID := p.userID, enterScore := score.score, enterInsure := score.insureScore
      kindID := p.kindID, serverID := p.serverID
      enterClientIP := p.clientIP, enterMachine := p.machineID }
    identity := t.identity + 1 }

/-- 插入锁表. -/
def insertLock (t : RoomTables) (p : Caller) (inoutIndex : ℤ) : RoomTables :=
  let row : ScoreLocker :=
    ⟨⟨some p.kindID, some p.serverID⟩, inoutIndex, p.clientIP, p.machineID⟩
  { t with gameScoreLocker := t.gameScoreLocker.insert p.userID row }

/-- A logon that is live on a server. -/
structure Session where
  userID : ℤ
  serverID : ℤ
  inoutIndex : ℤ
  deriving DecidableEq

/-- How a transaction ends; what is rolled back keeps the tables, but not
the identity. -/
structure Logon where
  answer : LogonAnswer
  tables : RoomTables
  session : Option Session := none

def logonReport (account : AccountsInfo) (score : GameScore) (inoutIndex : ℤ) : LogonReport :=
  { userID := account.userID, nickName := account.nickName, score := score.score
    insure := score.insureScore, inoutIndex }

/-- 异常判断. -/
def abnormal : LogonAnswer :=
  { returnCode := 14
    errorDescribe := some "抱歉地通知你，您的游戏币数据出现了异常情况，请联系客户服务中心了解详细情况！" }

/-- The rest of a logon that takes no lock. -/
def enterFree (account : AccountsInfo) (p : Caller) (score : GameScore) (t : RoomTables) : Logon :=
  { answer := { returnCode := 0, errorDescribe := moorDescribe account
                report := some (logonReport account score t.identity) }
    tables := enterRecord t p score
    session := some ⟨p.userID, p.serverID, t.identity⟩ }

/-- The rest of a logon that takes the lock; `before` is what a rollback
goes back to. -/
def enterLocked (db : Database) (account : AccountsInfo) (describe : Option String) (p : Caller)
    (score : GameScore) (before t : RoomTables) : Logon :=
  let released := releaseLock t p.userID p.serverID
  match lockedIn released p.userID with
  | some (kindID, serverID) => ⟨lockedAnswer db describe kindID serverID, before, none⟩
  | none =>
      if p.userID ∈ released.gameScoreLocker then
        { answer := { returnCode := 14
                      errorDescribe := some "抱歉地通知你，游戏币锁定操作失败，请联系客户服务中心了解详细情况！" }
          tables := { before with identity := t.identity + 1 } }
      else
        { answer := { returnCode := 0, errorDescribe := describe
                      report := some (logonReport account score t.identity) }
          tables := insertLock (enterRecord released p score) p t.identity
          session := some ⟨p.userID, p.serverID, t.identity⟩ }

/-- `GSP_GR_EfficacyUserID`; a robot takes no lock. -/
def efficacyUserID (db : LogonDatabase) (t : RoomTables) (p : LogonParam) : Logon :=
  match efficacyUserChecks db p with
  | .error r => ⟨r.logonAnswer, t, none⟩
  | .ok account =>
      let opened := openScore db.toDatabase t p.userID
      if opened.1.score < 0 then ⟨abnormal, t, none⟩
      else if p.clientIP = robotIP then enterFree account p.toCaller opened.1 opened.2
      else enterLocked db.toDatabase account (moorDescribe account) p.toCaller opened.1 t opened.2

def efficacyMobile (db : LogonDatabase) (t : RoomTables) (p : LogonParam) : Logon :=
  match efficacyMobileChecks db p with
  | .error r => ⟨r.logonAnswer, t, none⟩
  | .ok account =>
      let opened := openScore db.toDatabase t p.userID
      if opened.1.score < 0 then ⟨abnormal, t, none⟩
      else enterLocked db.toDatabase account none p.toCaller opened.1 t opened.2

/-! ## Leaves and scores -/

/-- What a leave is given besides the session. -/
structure LeaveParam where
  presentScore : ℤ
  variationScore : ℤ
  variationInsure : ℤ
  variationRevenue : ℤ
  record : LeaveRecord

/-- `UPDATE GameScoreInfo SET Score=Score+@lVariationScore+@PresentScore, …`
on a row. -/
def GameScore.settle (p : LeaveParam) (presentScore : ℤ) (r : GameScore) : Option GameScore := do
  let score ← checked (r.score + p.variationScore)
  return ⟨← checked (score + presentScore), ← checked (r.insureScore + p.variationInsure),
    ← checked (r.revenue + p.variationRevenue)⟩

/-- 离开记录. -/
def leaveRecord (t : RoomTables) (σ : Session) (record : LeaveRecord) : RoomTables :=
  { t with recordUserInout := t.recordUserInout.update σ.inoutIndex fun row =>
      if row.userID = σ.userID then some { row with leave := some record } else none }

/-- `GSP_GR_LeaveGameServer`; a robot is given nothing and its tax is not
recorded. -/
def leaveGameServer (t : RoomTables) (σ : Session) (p : LeaveParam) : RoomTables :=
  let robot : Bool := p.record.clientIP == robotIP
  let presentScore := if robot then 0 else p.presentScore
  let written := { t with
    gameScoreInfo := t.gameScoreInfo.update σ.userID (GameScore.settle p presentScore) }
  leaveRecord (releaseLock written σ.userID σ.serverID) σ
    { p.record with revenue := if robot then 0 else p.record.revenue }

def writeGameScore (t : RoomTables) (userID variationScore variationInsure variationRevenue : ℤ) :
    RoomTables :=
  let add := GameScore.add variationScore variationInsure variationRevenue
  { t with gameScoreInfo := t.gameScoreInfo.update userID add }

/-! ## The machine -/

/-- The tables and the sessions that are live. -/
structure Rooms where
  tables : RoomTables
  live : List Session := []

/-- A call of a procedure, with what it reads. -/
inductive RoomCall
  | efficacyUserID (db : LogonDatabase) (p : LogonParam)
  | efficacyMobile (db : LogonDatabase) (p : LogonParam)
  | leaveGameServer (σ : Session) (p : LeaveParam)
  | writeGameScore (σ : Session) (variationScore variationInsure variationRevenue : ℤ)

def Rooms.enter (s : Rooms) (l : Logon) : Rooms := ⟨l.tables, l.session.toList ++ s.live⟩

/-- One call. A session is left once, and writes its scores while it is
live. -/
def roomStep : TotalMachine Rooms RoomCall LogonAnswer
  | s, .efficacyUserID db p =>
      let l := efficacyUserID db s.tables p
      (s.enter l, [l.answer])
  | s, .efficacyMobile db p =>
      let l := efficacyMobile db s.tables p
      (s.enter l, [l.answer])
  | s, .leaveGameServer σ p =>
      if σ ∈ s.live then (⟨leaveGameServer s.tables σ p, s.live.erase σ⟩, []) else (s, [])
  | s, .writeGameScore σ a b c =>
      if σ ∈ s.live then ({ s with tables := writeGameScore s.tables σ.userID a b c }, []) else (s, [])

end GameServer.TreasureDB
