import GameServer.TreasureDB.Model.BankService
/-!
# TreasureDB — purchases, exchanges and properties

`GSP_GR_PurchaseMember`, `GSP_GR_ExchangeScore` and
`GSP_GR_ConsumeProperty` for one user, statement by statement: a state
holds the rows of the user and the calls that are under way, each at its
next statement. A row written in a transaction is locked until the commit;
a statement that needs it waits, one that reads it with `NOLOCK` does not.

Each call brings what it reads and nobody here writes: the account, the
member types, the properties, the rate, the lock of the user. What is left
out are the logs, the member cards and the ranks. A variable whose value
does not fit stays `NULL`.
-/

namespace GameServer.TreasureDB

open Sql

/-! ## The rows of a user -/

inductive Balance
  | currency
  | userMedal
  | insureScore
  | score
  deriving DecidableEq

/-- The rows of a user in `UserCurrencyInfo` (in hundredths),
`AccountsInfo` (the medals) and `GameScoreInfo`; the default of the column
`Score`. -/
structure Wallet where
  currency : Option ℤ
  userMedal : Option ℤ
  gameScore : Option GameScore
  defaultScore : ℤ

/-- A balance; without a row it is what the row would start with. -/
def Wallet.balance (w : Wallet) : Balance → ℤ
  | .currency => w.currency.getD 0
  | .userMedal => w.userMedal.getD 0
  | .insureScore => (w.gameScore.map (·.insureScore)).getD 0
  | .score => (w.gameScore.map (·.score)).getD w.defaultScore

/-! ## Numbers -/

def int (x : ℤ) : Bool := -2 ^ 31 ≤ x && x < 2 ^ 31

/-- The number of hundredths is a `DECIMAL(18,2)`. -/
def decimal (x : ℤ) : Bool := -10 ^ 18 < x && x < 10 ^ 18

/-- `SET @v=x` where the variable was `NULL`. -/
def fit (range : ℤ → Bool) (x : ℤ) : Option ℤ := if range x then some x else none

/-- `SET column=column+d`; a statement without a value for the column is
terminated. -/
def addTo (range : ℤ → Bool) (column : ℤ) (d : Option ℤ) : ℤ :=
  match d.bind fun d => fit range (column + d) with
  | some x => x
  | none => column

/-! ## The calls -/

structure MemberType where
  memberName : Option String
  memberPrice : ℤ
  presentScore : ℤ

structure GameProperty where
  gold : ℤ
  discount : ℤ
  sendLoveLiness : ℤ
  recvLoveLiness : ℤ

/-- The columns of the user's account that no call here writes. -/
structure ShopAccount where
  nullity : Option ℤ
  memberOrder : Option ℤ

structure PurchaseParam where
  account : Option ShopAccount
  memberType : Option MemberType
  purchaseTime : ℤ

structure ExchangeParam where
  nullity : Option ℤ
  medalExchangeRate : Option ℤ
  exchangeIngot : ℤ
  positive : 0 < exchangeIngot

/-- The row of `GameScoreLocker`, beside the identifier of the logon. -/
structure EnterLocker extends GameScoreLocker where
  enterID : Option ℤ

structure ConsumeParam where
  account : Option ShopAccount
  targetUserID : ℤ
  targetExists : Bool
  gameProperty : Option GameProperty
  propertyCount : ℤ
  consumeScore : Bool
  frozenedScore : ℤ
  locker : EnterLocker
  kindID : ℤ
  serverID : ℤ
  enterID : ℤ

/-- A purchase that passed the checks. -/
structure Purchase where
  memberPrice : ℤ
  presentScore : ℤ
  purchaseTime : ℤ

def Purchase.cost (m : Purchase) : ℤ := m.memberPrice * m.purchaseTime

def Purchase.present (m : Purchase) : ℤ := m.presentScore * m.purchaseTime

def Purchase.consumeCurrency (m : Purchase) : Option ℤ := fit decimal m.cost

def Purchase.totalPresentScore (m : Purchase) : Option ℤ := fit bigint m.present

/-- An exchange that passed the check of the medals it has read. -/
structure Exchange where
  medalExchangeRate : ℤ
  exchangeIngot : ℤ
  userIngot : ℤ
  positive : 0 < exchangeIngot
  enough : exchangeIngot ≤ userIngot

def Exchange.worth (x : Exchange) : ℤ := x.medalExchangeRate * x.exchangeIngot

/-- `@ExchangeScore`: a product of two `INT`. -/
def Exchange.exchangeScore (x : Exchange) : Option ℤ := fit int x.worth

/-- A property that is bought. -/
structure Consume where
  property : GameProperty
  memberOrder : ℤ
  propertyCount : ℤ

/-- The price: members have a discount. -/
def Consume.price (c : Consume) : ℤ :=
  if c.memberOrder = 0 then c.property.gold * c.propertyCount
  else (c.property.gold * c.propertyCount * c.property.discount).tdiv 100

def Consume.consumeGold (c : Consume) : Option ℤ := do
  let gold ← fit bigint (c.property.gold * c.propertyCount)
  if c.memberOrder = 0 then return gold
  else return (← fit bigint (gold * c.property.discount)).tdiv 100

/-- The next statement of a purchase. -/
inductive PurchaseStage
  | readScore
  | insertScore
  | rereadScore
  | payCurrency
  | presentScore
  | commit
  | readCurrScore
  | readCurrBeans (currScore : Option ℤ)

/-- The next statement of an exchange. -/
inductive ExchangeStage
  | readInsure
  | insertScore
  | creditInsure
  | writeMedal
  | readCurrScore

/-- The next statement of a consumption; a record says whether the bank
has paid. -/
inductive ConsumeStage
  | payInsure
  | commit
  | record (bank : Bool)

/-- A call and where it is; a call that has passed its checks carries what
it has read. -/
inductive ShopCall
  | purchaseMember (p : PurchaseParam)
  | purchase (m : Purchase) (stage : PurchaseStage)
  | exchangeScore (p : ExchangeParam)
  | exchangeRate (p : ExchangeParam) (userIngot : ℤ) (enough : p.exchangeIngot ≤ userIngot)
  | exchange (x : Exchange) (stage : ExchangeStage)
  | consumeProperty (p : ConsumeParam)
  | consume (c : Consume) (stage : ConsumeStage)

/-- A call that has returned 0. -/
inductive Receipt
  | member (m : Purchase)
  | ingot (x : Exchange)
  | property (c : Consume) (bank : Bool)

/-- What a call returns, with its result row. -/
inductive ShopAnswer
  | refused (r : Refusal)
  | member (notify : String) (currScore currBeans : Option ℤ)
  | ingot (notify : String) (currIngot : ℤ) (currScore : Option ℤ)
  | property (consumeGold : Option ℤ) (sendLoveLiness recvLoveLiness : ℤ)

/-- The rows, who holds the lock of the first and of the last of them, the
calls under way, and those completed. -/
structure Shop where
  wallet : Wallet
  currencyLock : Option ℕ := none
  scoreLock : Option ℕ := none
  calls : Table ℕ ShopCall := ∅
  completed : List Receipt := []

namespace Shop

/-! ## Statements -/

/-- The call goes on to its next statement. -/
def goto (s : Shop) (id : ℕ) (c : ShopCall) : Shop := { s with calls := s.calls.insert id c }

/-- The call returns an error. -/
def refuse (s : Shop) (id : ℕ) (r : Refusal) : Shop × List ShopAnswer :=
  ({ s with calls := s.calls.erase id }, [.refused r])

/-- The call returns 0. -/
def complete (s : Shop) (id : ℕ) (r : Receipt) (a : ShopAnswer) : Shop × List ShopAnswer :=
  ({ s with calls := s.calls.erase id, completed := s.completed ++ [r] }, [a])

/-- The statement needs a row that another transaction holds. -/
def waits (lock : Option ℕ) (id : ℕ) : Bool := lock.any (· != id)

/-- A row that is written in a transaction is locked. -/
def hold {ρ : Type} (row : Option ρ) (lock : Option ℕ) (id : ℕ) : Option ℕ :=
  if row.isSome then some id else lock

def release (lock : Option ℕ) (id : ℕ) : Option ℕ := if lock = some id then none else lock

/-- `INSERT INTO GameScoreInfo`, terminated when there is a row. -/
def insertScore (s : Shop) : Shop :=
  match s.wallet.gameScore with
  | some _ => s
  | none => { s with wallet := { s.wallet with gameScore := some ⟨s.wallet.defaultScore, 0, 0⟩ } }

/-- `UPDATE UserCurrencyInfo SET Currency=Currency-x`. -/
def payCurrency (s : Shop) (x : Option ℤ) : Shop :=
  { s with wallet := { s.wallet with
      currency := s.wallet.currency.map (addTo decimal · (x.map (- ·))) } }

/-- `UPDATE GameScoreInfo SET Score=Score+x`. -/
def addScore (s : Shop) (x : Option ℤ) : Shop :=
  { s with wallet := { s.wallet with
      gameScore := s.wallet.gameScore.map fun r => { r with score := addTo bigint r.score x } } }

/-- `UPDATE GameScoreInfo SET InsureScore=InsureScore+x`. -/
def addInsure (s : Shop) (x : Option ℤ) : Shop :=
  { s with wallet := { s.wallet with
      gameScore := s.wallet.gameScore.map fun r =>
        { r with insureScore := addTo bigint r.insureScore x } } }

/-- `UPDATE AccountsInfo SET UserMedal=x`. -/
def writeMedal (s : Shop) (x : ℤ) : Shop :=
  { s with wallet := { s.wallet with userMedal := s.wallet.userMedal.map fun _ => x } }

/-! ## `GSP_GR_PurchaseMember` -/

def purchaseChecks (p : PurchaseParam) : Except Refusal Purchase :=
  match p.account.bind (·.memberOrder) with
  | none => .error ⟨1, some "您的帐号不存在，请联系客户服务中心了解详细情况！", failed₁⟩
  | some _ => do
      refuseIf (ne (p.account.bind (·.nullity)) (some 0))
        ⟨2, some "您的帐号暂时处于冻结状态，请联系客户服务中心了解详细情况！", failed₂⟩
      match p.memberType.bind fun m => m.memberName.map fun _ => m with
      | none => .error ⟨4, some "抱歉地通知您，您所购买的会员不存在或者正在维护中，请联系客户服务中心了解详细情况！",
          failed₄⟩
      | some m => return ⟨m.memberPrice, m.presentScore, p.purchaseTime⟩

/-- 读取游戏豆, 游戏豆判断: `NOLOCK`, and no row counts as zero. -/
def readCurrency (s : Shop) (id : ℕ) (p : PurchaseParam) : Shop × List ShopAnswer :=
  match purchaseChecks p with
  | .error r => s.refuse id r
  | .ok m =>
      let currency := s.wallet.currency.getD 0
      if lt (some currency) m.consumeCurrency then
        s.refuse id ⟨5, some "您身上的游戏豆余额不足，请充值后再次尝试！", failed₅⟩
      else (s.goto id (.purchase m .readScore), [])

/-- A statement of the transaction, or one of the two that follow it. -/
def purchaseStep (s : Shop) (id : ℕ) (m : Purchase) : PurchaseStage → Shop × List ShopAnswer
  | .readScore =>
      match s.wallet.gameScore with
      | none => (s.goto id (.purchase m .insertScore), [])
      | some _ => (s.goto id (.purchase m .payCurrency), [])
  | .insertScore =>
      if waits s.scoreLock id then (s, [])
      else ({ s.insertScore.goto id (.purchase m .rereadScore) with
        scoreLock := if s.wallet.gameScore.isNone then some id else s.scoreLock }, [])
  | .rereadScore =>
      if waits s.scoreLock id then (s, []) else (s.goto id (.purchase m .payCurrency), [])
  | .payCurrency =>
      if waits s.currencyLock id then (s, [])
      else ({ (s.payCurrency m.consumeCurrency).goto id (.purchase m .presentScore) with
        currencyLock := hold s.wallet.currency s.currencyLock id }, [])
  | .presentScore =>
      if waits s.scoreLock id then (s, [])
      else ({ (s.addScore m.totalPresentScore).goto id (.purchase m .commit) with
        scoreLock := hold s.wallet.gameScore s.scoreLock id }, [])
  | .commit =>
      ({ s.goto id (.purchase m .readCurrScore) with
        currencyLock := release s.currencyLock id, scoreLock := release s.scoreLock id }, [])
  | .readCurrScore =>
      if waits s.scoreLock id then (s, [])
      else (s.goto id (.purchase m (.readCurrBeans (s.wallet.gameScore.map (·.score)))), [])
  | .readCurrBeans currScore =>
      if waits s.currencyLock id then (s, [])
      else s.complete id (.member m)
        (.member "恭喜您，会员购买成功！" currScore (s.wallet.currency.map (Int.tdiv · 100)))

/-! ## `GSP_GR_ExchangeScore` -/

/-- 查询会员, 用户判断, 帐号禁止, 元宝判断. -/
def readMedal (s : Shop) (id : ℕ) (p : ExchangeParam) : Shop × List ShopAnswer :=
  match s.wallet.userMedal with
  | none => s.refuse id ⟨1, some "您的帐号不存在，请联系客户服务中心了解详细情况！", failed₁⟩
  | some userIngot =>
      if ne p.nullity (some 0) then
        s.refuse id ⟨2, some "您的帐号暂时处于冻结状态，请联系客户服务中心了解详细情况！", failed₂⟩
      else if h : userIngot < p.exchangeIngot then
        s.refuse id ⟨3, some "您的元宝不足，请调整好兑换金额后再试！", failed₃⟩
      else (s.goto id (.exchangeRate p userIngot (by omega)), [])

/-- 兑换比率, 系统错误. -/
def readRate (s : Shop) (id : ℕ) (p : ExchangeParam) (userIngot : ℤ)
    (enough : p.exchangeIngot ≤ userIngot) : Shop × List ShopAnswer :=
  match p.medalExchangeRate with
  | none => s.refuse id ⟨4, some "抱歉！元宝兑换失败，请联系客户服务中心了解详细情况。", failed₄⟩
  | some rate => (s.goto id (.exchange ⟨rate, p.exchangeIngot, userIngot, p.positive, enough⟩ .readInsure), [])

/-- The statements from 查询银行 on; there is no transaction. -/
def exchangeStep (s : Shop) (id : ℕ) (x : Exchange) : ExchangeStage → Shop × List ShopAnswer
  | .readInsure =>
      if waits s.scoreLock id then (s, [])
      else match s.wallet.gameScore with
        | none => (s.goto id (.exchange x .insertScore), [])
        | some _ => (s.goto id (.exchange x .creditInsure), [])
  | .insertScore =>
      if waits s.scoreLock id then (s, []) else (s.insertScore.goto id (.exchange x .creditInsure), [])
  | .creditInsure =>
      if waits s.scoreLock id then (s, [])
      else ((s.addInsure x.exchangeScore).goto id (.exchange x .writeMedal), [])
  | .writeMedal =>
      ((s.writeMedal (x.userIngot - x.exchangeIngot)).goto id (.exchange x .readCurrScore), [])
  | .readCurrScore =>
      if waits s.scoreLock id then (s, [])
      else s.complete id (.ingot x)
        (.ingot "恭喜您，游戏币兑换成功！" (x.userIngot - x.exchangeIngot)
          (s.wallet.gameScore.map (·.score)))

/-! ## `GSP_GR_ConsumeProperty` -/

def consumeChecks (p : ConsumeParam) : Except Refusal Consume :=
  match p.account.bind (·.memberOrder) with
  | none => .error ⟨1, some "您的帐号不存在，请联系客户服务中心了解详细情况！", failed₁⟩
  | some memberOrder => do
      refuseIf (ne (p.account.bind (·.nullity)) (some 0))
        ⟨2, some "您的帐号暂时处于冻结状态，请联系客户服务中心了解详细情况！", failed₂⟩
      refuseIf (p.targetUserID != 0 && !p.targetExists)
        ⟨3, some "您所赠送的目标用户不存在，请查证后再次尝试！", failed₃⟩
      match p.gameProperty with
      | none => .error ⟨4, some "抱歉地通知您，您所购买的道具礼物不存在或者正在维护中，请联系客户服务中心了解详细情况！",
          failed₄⟩
      | some property => return ⟨property, memberOrder, p.propertyCount⟩

/-- 查询锁定, 锁定判断, 冻结判断: the score is paid in the room. -/
def lockerChecks (p : ConsumeParam) (c : Consume) : Except Refusal Unit := do
  refuseIf (ne p.locker.kindID (some p.kindID) || ne p.locker.serverID (some p.serverID) ||
      ne (some p.enterID) p.locker.enterID)
    ⟨5, some "您的房间锁定记录信息效验失败，请联系客户服务中心了解详细情况！", failed₅⟩
  refuseIf (lt (some p.frozenedScore) c.consumeGold)
    ⟨5, some "您当前的游戏币余额不足，请选择其他的购买方式或者充值后再次尝试！", failed₅⟩

/-- 读取银行, 银行判断 (`NOLOCK`), or the checks of the lock. -/
def readInsure (s : Shop) (id : ℕ) (p : ConsumeParam) : Shop × List ShopAnswer :=
  match consumeChecks p with
  | .error r => s.refuse id r
  | .ok c =>
      if p.consumeScore then
        match lockerChecks p c with
        | .error r => s.refuse id r
        | .ok _ => (s.goto id (.consume c (.record false)), [])
      else if lt (s.wallet.gameScore.map (·.insureScore)) c.consumeGold then
        s.refuse id ⟨5, some "您的保险柜游戏币余额不足，请选择其他的购买方式或者往保险柜存入足够的游戏币后再次尝试！",
          failed₅⟩
      else (s.goto id (.consume c .payInsure), [])

/-- 银行扣费, the commit, and 购买记录. -/
def consumeStep (s : Shop) (id : ℕ) (c : Consume) : ConsumeStage → Shop × List ShopAnswer
  | .payInsure =>
      if waits s.scoreLock id then (s, [])
      else ({ (s.addInsure (c.consumeGold.map (- ·))).goto id (.consume c .commit) with
        scoreLock := hold s.wallet.gameScore s.scoreLock id }, [])
  | .commit =>
      ({ s.goto id (.consume c (.record true)) with scoreLock := release s.scoreLock id }, [])
  | .record bank =>
      s.complete id (.property c bank)
        (.property c.consumeGold (c.property.sendLoveLiness * c.propertyCount)
          (c.property.recvLoveLiness * c.propertyCount))

/-! ## The machine -/

def statement (s : Shop) (id : ℕ) : ShopCall → Shop × List ShopAnswer
  | .purchaseMember p => s.readCurrency id p
  | .purchase m stage => s.purchaseStep id m stage
  | .exchangeScore p => s.readMedal id p
  | .exchangeRate p userIngot enough => s.readRate id p userIngot enough
  | .exchange x stage => s.exchangeStep id x stage
  | .consumeProperty p => s.readInsure id p
  | .consume c stage => s.consumeStep id c stage

end Shop

/-- A procedure is called, or a call runs its next statement. -/
inductive ShopEvent
  | purchaseMember (id : ℕ) (p : PurchaseParam)
  | exchangeScore (id : ℕ) (p : ExchangeParam)
  | consumeProperty (id : ℕ) (p : ConsumeParam)
  | statement (id : ℕ)

/-- A new call; no two calls under way have one name. -/
def Shop.call (s : Shop) (id : ℕ) (c : ShopCall) : Shop :=
  { s with calls := s.calls.insertNew id c }

def shopStep : TotalMachine Shop ShopEvent ShopAnswer
  | s, .purchaseMember id p => (s.call id (.purchaseMember p), [])
  | s, .exchangeScore id p => (s.call id (.exchangeScore p), [])
  | s, .consumeProperty id p => (s.call id (.consumeProperty p), [])
  | s, .statement id =>
      match s.calls.lookup id with
      | none => (s, [])
      | some c => s.statement id c

end GameServer.TreasureDB
