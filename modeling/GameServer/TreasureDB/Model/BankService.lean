import GameServer.Common.Sql
import GameServer.Common.Run
/-!
# TreasureDB — the bank procedures

`GSP_GR_UserSaveScore`, `GSP_GR_UserTakeScore` and
`GSP_GR_UserTransferScore`, each called on its own. They write
`GameScoreInfo` and `RecordInsure`; everything else they only read
(`Database`), and it may be different at each call.

Amounts are `BIGINT`. An `UPDATE` whose sums do not fit is terminated and
the procedure goes on. What follows a tax product that does not fit is not
modelled.
-/

namespace GameServer.TreasureDB

open Sql

/-! ## Tables -/

/-- The amounts of a row of `GameScoreInfo`. -/
structure GameScore where
  score : ℤ
  insureScore : ℤ
  revenue : ℤ
  deriving DecidableEq

/-- A row of `RecordInsure`; what the statement leaves out is the column's
default. -/
structure RecordInsure where
  kindID : ℤ
  serverID : ℤ
  sourceUserID : ℤ
  sourceGold : ℤ
  sourceBank : ℤ
  target : Option (ℤ × ℤ × ℤ) := none
  swapScore : ℤ
  revenue : ℤ
  isGamePlaza : ℤ := 0
  tradeType : ℤ
  clientIP : String
  collectNote : Option String := none
  deriving DecidableEq

/-- What the procedures write. -/
structure Tables where
  gameScoreInfo : Table ℤ GameScore
  recordInsure : List RecordInsure := []

structure AccountsInfo where
  userID : ℤ
  nickName : Option String
  insurePass : Option String
  nullity : Option ℤ
  stunDown : Option ℤ
  moorMachine : Option ℤ
  memberOrder : Option ℤ
  lastLogonMachine : Option String

structure SystemStatusInfo where
  statusValue : Option ℤ
  statusString : Option String

structure GameScoreLocker where
  kindID : Option ℤ
  serverID : Option ℤ

/-- What the procedures read: tables by key, the confinements in force, the
equality of texts under the server's collation, and the default of the
column `Score` of `GameScoreInfo`; the other amounts of a row start at 0. -/
structure Database where
  accountsInfo : List AccountsInfo
  systemStatusInfo : String → Option SystemStatusInfo := fun _ => none
  confineAddress : String → Option (Option ℤ) := fun _ => none
  confineMachine : String → Option (Option ℤ) := fun _ => none
  gameScoreLocker : ℤ → Option GameScoreLocker := fun _ => none
  gameKindItem : ℤ → Option (Option String) := fun _ => none
  gameRoomInfo : ℤ → Option (Option String) := fun _ => none
  textEq : String → String → Bool := fun a b => a == b
  defaultScore : ℤ

/-- `SELECT @v=StatusValue FROM SystemStatusInfo WHERE StatusName=name`. -/
def Database.statusValue (db : Database) (name : String) (v : Option ℤ) : Option ℤ :=
  assign v ((db.systemStatusInfo name).map (·.statusValue))

/-- `SELECT @strErrorDescribe=StatusString` for the name. -/
def Database.statusString (db : Database) (name : String) (v : Option String) : Option String :=
  assign v ((db.systemStatusInfo name).map (·.statusString))

/-- `IF @a<>@b` of two texts. -/
def Database.textNe (db : Database) : Option String → Option String → Bool
  | some a, some b => !db.textEq a b
  | _, _ => false

def Database.account (db : Database) (userID : ℤ) : Option AccountsInfo :=
  (db.accountsInfo.filter (·.userID = userID)).getLast?

def Database.userOfNickName (db : Database) (nickName : String) : Option ℤ :=
  ((db.accountsInfo.filter fun a => a.nickName.any (db.textEq · nickName)).getLast?).map (·.userID)

/-! ## Numbers -/

def bigint (x : ℤ) : Bool := -2 ^ 63 ≤ x && x < 2 ^ 63

def checked (x : ℤ) : Option ℤ := if bigint x then some x else none

/-- `LTRIM(STR(x))`: ten places at most. -/
def ltrimStr (x : ℤ) : String := if (toString x).length ≤ 10 then toString x else "**********"

/-! ## Answers -/

/-- The end of a call that fails. -/
structure Refusal where
  returnCode : ℤ
  errorDescribe : Option String
  failed : returnCode ≠ 0 := by decide

/-! The codes of the refusals. -/

theorem failed₁ : (1 : ℤ) ≠ 0 := by decide

theorem failed₂ : (2 : ℤ) ≠ 0 := by decide

theorem failed₃ : (3 : ℤ) ≠ 0 := by decide

theorem failed₄ : (4 : ℤ) ≠ 0 := by decide

theorem failed₅ : (5 : ℤ) ≠ 0 := by decide

theorem failed₆ : (6 : ℤ) ≠ 0 := by decide

theorem failed₇ : (7 : ℤ) ≠ 0 := by decide

/-- The result row of a call that succeeds. -/
structure Report where
  userID : ℤ
  sourceScore : ℤ
  sourceInsure : ℤ
  variationScore : ℤ
  variationInsure : ℤ
  insureRevenue : ℤ
  kindID : Option ℤ
  serverID : Option ℤ

structure Answer where
  returnCode : ℤ
  errorDescribe : Option String
  report : Option Report

def Refusal.answer (r : Refusal) : Answer := ⟨r.returnCode, r.errorDescribe, none⟩

def Report.answer (r : Report) (describe : String) : Answer := ⟨0, some describe, some r⟩

/-- `IF c … RETURN`. -/
def refuseIf (c : Bool) (r : Refusal) : Except Refusal Unit := if c then .error r else .ok ()

/-! ## Checks -/

/-- The parameters that all three procedures have. -/
structure Caller where
  userID : ℤ
  kindID : ℤ
  serverID : ℤ
  clientIP : String
  machineID : String

/-- 系统暂停. -/
def efficacySystem (db : Database) : Except Refusal Unit :=
  refuseIf (ne (db.statusValue "EnjoinInsure" none) (some 0))
    ⟨2, db.statusString "EnjoinInsure" none, failed₂⟩

/-- 转账暂停. -/
def efficacyTransfer (db : Database) : Except Refusal Unit :=
  refuseIf (ne (db.statusValue "TransferStauts" none) (some 1))
    ⟨3, db.statusString "TransferStauts" none, failed₃⟩

/-- 效验地址 and 效验机器; both selects set one variable. -/
def efficacyConfine (db : Database) (p : Caller) : Except Refusal Unit := do
  let enjoinLogon := assign none (db.confineAddress p.clientIP)
  refuseIf (ne enjoinLogon (some 0))
    ⟨4, some "抱歉地通知您，系统禁止了您所在的 IP 地址的游戏服务权限，请联系客户服务中心了解详细情况！", failed₄⟩
  let enjoinLogon := assign enjoinLogon (db.confineMachine p.machineID)
  refuseIf (ne enjoinLogon (some 0))
    ⟨7, some "抱歉地通知您，系统禁止了您的机器的游戏服务权限，请联系客户服务中心了解详细情况！", failed₇⟩

/-- 查询用户, 帐号禁止, 帐号关闭, 固定机器; `hint` ends the first text. -/
def efficacyAccount (db : Database) (p : Caller) (hint : String) : Except Refusal AccountsInfo :=
  match db.account p.userID with
  | none => .error ⟨1, some ("您的帐号不存在或者密码输入有误，请查证后再次尝试" ++ hint ++ "！"), failed₁⟩
  | some account => do
      refuseIf (ne account.nullity (some 0))
        ⟨2, some "您的帐号暂时处于冻结状态，请联系客户服务中心了解详细情况！", failed₂⟩
      refuseIf (ne account.stunDown (some 0))
        ⟨2, some "您的帐号使用了安全关闭功能，必须重新开通后才能继续使用！", failed₂⟩
      refuseIf (account.moorMachine == some 1 &&
          db.textNe account.lastLogonMachine (some p.machineID))
        ⟨1, some "您的帐号使用固定机器登录功能，您现所使用的机器不是所指定的机器！", failed₁⟩
      return account

/-- 密码判断. -/
def efficacyPassword (db : Database) (account : AccountsInfo) (password : String) :
    Except Refusal Unit :=
  refuseIf (db.textNe account.insurePass (some password))
    ⟨3, some "您的银行密码不正确或者输入有误，请查证后再次尝试！", failed₃⟩

/-- 金币判断: the least amount, from the named status; `before` and `after`
are the texts around it. -/
def efficacyPrerequisite (db : Database) (name : String) (amount : ℤ) (before after : String) :
    Except Refusal Unit :=
  let prerequisite := (db.statusValue name none).getD 0
  refuseIf (amount < prerequisite) ⟨4, some (before ++ ltrimStr prerequisite ++ after), failed₄⟩

/-- `SELECT @LockKindID=KindID, @LockServerID=ServerID FROM GameScoreLocker`. -/
def Database.locker (db : Database) (userID : ℤ) : Option ℤ × Option ℤ :=
  ((db.gameScoreLocker userID).bind (·.kindID), (db.gameScoreLocker userID).bind (·.serverID))

/-- 锁定判断 of a deposit. -/
def efficacyLocker (db : Database) (p : Caller) (kindID serverID : ℤ) : Except Refusal Unit :=
  if (kindID ≠ 0 ∧ kindID ≠ p.kindID) ∨ (serverID ≠ 0 ∧ serverID ≠ p.serverID) then
    if kindID ≠ 0 ∧ serverID ≠ 0 then
      let kindName := (assign none (db.gameKindItem kindID)).getD "未知游戏"
      let serverName := (assign none (db.gameRoomInfo serverID)).getD "未知房间"
      .error ⟨4, some ("您正在 [ " ++ kindName ++ " ] 的 [ " ++ serverName ++
        " ] 游戏房间中，不能进行当前的银行操作！"), failed₄⟩
    else .error ⟨4, some "您正在使用网站页面进行银行处理过程中，不能进行当前的银行操作！", failed₄⟩
  else .ok ()

/-- `UPDATE GameScoreInfo SET Score=Score+a, InsureScore=InsureScore+b,
Revenue=Revenue+c` on a row. -/
def GameScore.add (a b c : ℤ) (r : GameScore) : Option GameScore := do
  return ⟨← checked (r.score + a), ← checked (r.insureScore + b), ← checked (r.revenue + c)⟩

/-! ## Deposits -/

structure SaveParam extends Caller where
  saveScore : ℤ

/-- The exits of a deposit before its update: the account, the amounts of
the row, and the adjusted lock. -/
def saveChecks (db : Database) (t : Tables) (p : SaveParam) :
    Except Refusal (AccountsInfo × GameScore × ℤ × ℤ) := do
  efficacySystem db
  efficacyConfine db p.toCaller
  let account ← efficacyAccount db p.toCaller "登录"
  efficacyPrerequisite db "BankPrerequisite" p.saveScore "存入银行的游戏币数目不能少于 " "，游戏币存入失败！"
  match t.gameScoreInfo.lookup p.userID with
  | none => .error ⟨4, some "您当前游戏币的可用余额不足，游戏币存入失败！", failed₄⟩
  | some source =>
      refuseIf (source.score < p.saveScore)
        ⟨4, some "您当前游戏币的可用余额不足，游戏币存入失败！", failed₄⟩
      let kindID := (db.locker p.userID).1.getD 0
      let serverID := (db.locker p.userID).2.getD 0
      efficacyLocker db p.toCaller kindID serverID
      return (account, source, kindID, serverID)

def userSaveScore (db : Database) (t : Tables) (p : SaveParam) : Answer × Tables :=
  match saveChecks db t p with
  | .error r => (r.answer, t)
  | .ok (account, source, kindID, serverID) =>
      let insureRevenue := 0
      let variationScore := -p.saveScore
      let variationInsure := p.saveScore
      (Report.answer ⟨p.userID, source.score, source.insureScore, variationScore, variationInsure,
          insureRevenue, some kindID, some serverID⟩ "游戏币存入银行操作成功，请查验您的帐户信息！",
        { gameScoreInfo := t.gameScoreInfo.update p.userID
            (GameScore.add variationScore variationInsure insureRevenue)
          recordInsure := t.recordInsure ++ [{
            kindID := p.kindID, serverID := p.serverID, sourceUserID := account.userID
            sourceGold := source.score, sourceBank := source.insureScore
            swapScore := p.saveScore, revenue := insureRevenue, tradeType := 1
            clientIP := p.clientIP }] })

/-! ## Withdrawals -/

structure TakeParam extends Caller where
  takeScore : ℤ
  password : String

/-- 税收调整: at most 300, then a default for a missing row. -/
def adjustRate (rate : Option ℤ) (missing : ℤ) : ℤ :=
  (if lt (some 300) rate then some 300 else rate).getD missing

/-- `@amount*@rate/1000`, when the product is a `BIGINT`. -/
def revenueOf (amount rate : ℤ) : Option ℤ := (checked (amount * rate)).map (Int.tdiv · 1000)

def takeRate (db : Database) : ℤ := adjustRate (db.statusValue "RevenueRateTake" none) 1

/-- The exits of a withdrawal before its update. -/
def takeChecks (db : Database) (t : Tables) (p : TakeParam) :
    Except Refusal (AccountsInfo × GameScore) := do
  efficacySystem db
  efficacyConfine db p.toCaller
  let account ← efficacyAccount db p.toCaller "登录"
  efficacyPassword db account p.password
  efficacyPrerequisite db "BankPrerequisite" p.takeScore "从银行取出的游戏币数目不能少于 " "，游戏币提取失败！"
  match t.gameScoreInfo.lookup p.userID with
  | none => .error ⟨4, some "您当前银行的游戏币余额不足，游戏币提取失败！", failed₄⟩
  | some source =>
      refuseIf (source.insureScore < p.takeScore)
        ⟨4, some "您当前银行的游戏币余额不足，游戏币提取失败！", failed₄⟩
      return (account, source)

def userTakeScore (db : Database) (t : Tables) (p : TakeParam) : Option (Answer × Tables) :=
  match takeChecks db t p with
  | .error r => some (r.answer, t)
  | .ok (account, source) =>
      (revenueOf p.takeScore (takeRate db)).map fun insureRevenue =>
        let variationScore := p.takeScore - insureRevenue
        let variationInsure := -p.takeScore
        (Report.answer ⟨p.userID, source.score, source.insureScore, variationScore,
            variationInsure, insureRevenue, (db.locker p.userID).1, (db.locker p.userID).2⟩
            "银行提取游戏币操作成功，请查验您的帐户信息！",
          { gameScoreInfo := t.gameScoreInfo.update p.userID
              (GameScore.add variationScore variationInsure insureRevenue)
            recordInsure := t.recordInsure ++ [{
              kindID := p.kindID, serverID := p.serverID, sourceUserID := account.userID
              sourceGold := source.score, sourceBank := source.insureScore
              swapScore := p.takeScore, revenue := insureRevenue, tradeType := 2
              clientIP := p.clientIP }] })

/-! ## Transfers -/

structure TransferParam extends Caller where
  transferScore : ℤ
  password : String
  nickName : String
  transRemark : String

/-- The exits of a transfer before a row is made for the target. -/
def transferChecks (db : Database) (p : TransferParam) : Except Refusal (AccountsInfo × ℤ) := do
  efficacySystem db
  efficacyTransfer db
  efficacyConfine db p.toCaller
  let account ← efficacyAccount db p.toCaller ""
  efficacyPassword db account p.password
  efficacyPrerequisite db "TransferPrerequisite" p.transferScore "从银行转账的游戏币数目不能少于 "
    "，游戏币转账失败！"
  match db.userOfNickName p.nickName with
  | none => .error ⟨5, some ("您所要转账的用户“" ++ p.nickName ++ "”不存在或者输入有误，请查证后再次尝试！"),
      failed₅⟩
  | some targetUserID =>
      refuseIf (targetUserID = p.userID) ⟨6, some "不能使用自己的帐号为自己转账游戏币，请查证后再次尝试！",
        failed₆⟩
      return (account, targetUserID)

/-- 插入判断: the target has a row from here on. -/
def openTarget (db : Database) (t : Tables) (targetUserID : ℤ) : Tables :=
  { t with gameScoreInfo := t.gameScoreInfo.insertNew targetUserID ⟨db.defaultScore, 0, 0⟩ }

/-- The rate of a transfer; it depends on the caller's member order. -/
def transferRate (db : Database) (memberOrder : Option ℤ) : ℤ :=
  let rate := if memberOrder = some 0 then (db.statusValue "RevenueRateTransfer" none).getD 1
    else (db.statusValue "RevenueRateTransferMember" none).getD 0
  if rate > 300 then 300 else rate

/-- 税收封顶. -/
def capRevenue (db : Database) (revenue : ℤ) : ℤ :=
  match db.statusValue "TransferMaxTax" none with
  | none => revenue
  | some maxTax => if maxTax ≠ 0 ∧ revenue > maxTax then maxTax else revenue

/-- `ISNULL(StatusValue,0)` of the row, if there is one. -/
def transferRetention (db : Database) : Option ℤ :=
  (db.systemStatusInfo "TransferRetention").map (·.statusValue.getD 0)

/-- The exits of a transfer in its transaction. -/
def balanceChecks (db : Database) (t : Tables) (p : TransferParam) : Except Refusal GameScore :=
  match t.gameScoreInfo.lookup p.userID with
  | none => .error ⟨4, some "您当前银行的游戏币余额不足，游戏币转账失败！", failed₄⟩
  | some source => do
      refuseIf (source.insureScore < p.transferScore)
        ⟨4, some "您当前银行的游戏币余额不足，游戏币转账失败！", failed₄⟩
      refuseIf (ne (transferRetention db) (some 0) &&
          lt (some (source.insureScore - p.transferScore)) (transferRetention db))
        ⟨7, some ("非常抱歉,转账后您银行的余额不能少于" ++ toString ((transferRetention db).getD 0) ++
          "金币"), failed₇⟩
      return source

/-- `UPDATE GameScoreInfo SET InsureScore=InsureScore+a, Revenue=Revenue+c` on
a row. -/
def GameScore.pay (a c : ℤ) (r : GameScore) : Option GameScore := do
  return { r with insureScore := ← checked (r.insureScore + a), revenue := ← checked (r.revenue + c) }

/-- `UPDATE GameScoreInfo SET InsureScore=InsureScore+@lTransferScore-@InsureRevenue`
on a row: the first sum is made on its own. -/
def GameScore.receive (amount revenue : ℤ) (r : GameScore) : Option GameScore := do
  let sum ← checked (r.insureScore + amount)
  return { r with insureScore := ← checked (sum - revenue) }

def userTransferScore (db : Database) (t : Tables) (p : TransferParam) :
    Option (Answer × Tables) :=
  match transferChecks db p with
  | .error r => some (r.answer, t)
  | .ok (account, targetUserID) =>
      let opened := openTarget db t targetUserID
      match balanceChecks db opened p with
      | .error r => some (r.answer, opened)
      | .ok source =>
          (revenueOf p.transferScore (transferRate db account.memberOrder)).map fun revenue =>
            let insureRevenue := capRevenue db revenue
            let variationInsure := -p.transferScore
            let target := opened.gameScoreInfo.lookup targetUserID
            (Report.answer ⟨p.userID, source.score, source.insureScore, 0, variationInsure,
                insureRevenue, (db.locker p.userID).1, (db.locker p.userID).2⟩
                ("转账 " ++ ltrimStr p.transferScore ++ " 游戏币到“" ++ p.nickName ++
                  "”的银行操作成功，请查验您的帐户信息！"),
              { gameScoreInfo := (opened.gameScoreInfo.update p.userID
                  (GameScore.pay variationInsure insureRevenue)).update targetUserID
                  (GameScore.receive p.transferScore insureRevenue)
                recordInsure := opened.recordInsure ++ [{
                  kindID := p.kindID, serverID := p.serverID, sourceUserID := account.userID
                  sourceGold := source.score, sourceBank := source.insureScore
                  target := target.map fun r => (targetUserID, r.score, r.insureScore)
                  swapScore := p.transferScore, revenue := insureRevenue, tradeType := 3
                  clientIP := p.clientIP, collectNote := some p.transRemark }] })

/-! ## The machine -/

/-- A call, with what it reads. -/
inductive Call
  | userSaveScore (db : Database) (p : SaveParam)
  | userTakeScore (db : Database) (p : TakeParam)
  | userTransferScore (db : Database) (p : TransferParam)

def step : Machine Tables Call Answer
  | t, .userSaveScore db p =>
      let (answer, t) := userSaveScore db t p
      some (t, [answer])
  | t, .userTakeScore db p => (userTakeScore db t p).map fun (answer, t) => (t, [answer])
  | t, .userTransferScore db p => (userTransferScore db t p).map fun (answer, t) => (t, [answer])

end GameServer.TreasureDB
