import GameServer.Common.Calendar
import GameServer.Common.Run
import GameServer.Common.Sql
/-!
# TreasureDB — memberships

What `GSP_GR_PurchaseMember` does once it is paid, and
`GSP_GR_ConsumeProperty` for the property cards 22 to 26: the row of the
user for that order in `AccountsMember` gets a new date, or there is a
new row, and the account is bound to the highest order.

The rows are those of one user, who has an account. All statements of a
call are run at one time.
-/

namespace GameServer.TreasureDB

open Sql

/-- A row of `AccountsMember`, under its `MemberOrder`. -/
structure AccountsMember where
  userRight : ℕ
  memberOverDate : DateTime
  deriving DecidableEq, Repr

/-- The columns of `AccountsInfo` that a membership is bound to. -/
structure MemberInfo where
  memberOrder : ℕ
  userRight : ℕ
  memberOverDate : DateTime
  memberSwitchDate : DateTime
  deriving DecidableEq, Repr

structure Memberships where
  accountsMember : Table ℕ AccountsMember := ∅
  accountsInfo : MemberInfo

namespace Memberships

variable (s : Memberships)

/-- 删除过期: of this order. -/
def deleteOverdue (memberOrder : ℕ) (now : DateTime) : Memberships :=
  { s with
    accountsMember :=
      s.accountsMember.deleteWhere memberOrder fun row => row.memberOverDate ≤ now }

/-- 更新会员: `UPDATE`, and `INSERT` if there was no row. -/
def updateMember (memberOrder memberRight : ℕ) (overDate : DateTime) : Memberships :=
  { s with
    accountsMember :=
      if (s.accountsMember.lookup memberOrder).isSome then
        s.accountsMember.update memberOrder fun row => some { row with memberOverDate := overDate }
      else s.accountsMember.insertNew memberOrder ⟨memberRight, overDate⟩ }

/-- 绑定会员 and 会员权限. Without a row there is nothing to bind to. -/
def memberInfo : Option MemberInfo := do
  let overDates := s.accountsMember.entries.map fun row => row.2.memberOverDate
  let maxMemberOrder ← s.accountsMember.keys.max?
  let memberOverDate ← overDates.max?
  let memberSwitchDate ← overDates.min?
  let row ← s.accountsMember.lookup maxMemberOrder
  return ⟨maxMemberOrder, row.userRight, memberOverDate, memberSwitchDate⟩

/-- 附加会员卡信息. -/
def bindInfo : Memberships := { s with accountsInfo := s.memberInfo.getD s.accountsInfo }

/-- The membership part of the two procedures. -/
def bindMember (memberOrder memberRight months : ℕ) (now : DateTime) : Memberships :=
  ((s.deleteOverdue memberOrder now).updateMember memberOrder memberRight
    (now.addMonths months)).bindInfo

/-- `GSP_GR_PurchaseMember`, paid. `memberRight` is that of `MemberType`. -/
def purchaseMember (cbMemberOrder purchaseTime memberRight : ℕ) (now : DateTime) : Memberships :=
  s.bindMember cbMemberOrder memberRight purchaseTime now

/-- `GSP_GR_ConsumeProperty`, paid. -/
def consumeProperty (wPropertyID wPropertyCount : ℕ) (now : DateTime) : Memberships :=
  if 22 ≤ wPropertyID ∧ wPropertyID ≤ 26 then
    s.bindMember (wPropertyID - 22 + 1) 512 (wPropertyCount * 1) now
  else s

end Memberships

/-- A call that is paid, and its time. -/
inductive MemberCall where
  /-- `GSP_GR_PurchaseMember`. -/
  | purchaseMember (cbMemberOrder purchaseTime memberRight : ℕ) (now : DateTime)
  /-- `GSP_GR_ConsumeProperty`. -/
  | consumeProperty (wPropertyID wPropertyCount : ℕ) (now : DateTime)
  deriving DecidableEq, Repr

def memberStep : TotalMachine Memberships MemberCall Empty
  | s, .purchaseMember cbMemberOrder purchaseTime memberRight now =>
      (s.purchaseMember cbMemberOrder purchaseTime memberRight now, [])
  | s, .consumeProperty wPropertyID wPropertyCount now =>
      (s.consumeProperty wPropertyID wPropertyCount now, [])

end GameServer.TreasureDB
