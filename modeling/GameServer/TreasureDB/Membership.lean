import GameServer.TreasureDB.Model.Membership
/-!
# TreasureDB — when a membership keeps its time

A purchase sets the date of the order it is for, counted from the day of
the purchase: what was left of a valid membership is not added
(`lookup_bindMember`). Then the account is bound to the highest order
there is a row for. Of the rows that have expired only those of the
order bought are gone.

`MemberOk` is the exact condition. A valid membership that is bought
again keeps its time when both dates are cut to the same end of a month.
-/

namespace GameServer.TreasureDB

open Sql

namespace Memberships

variable {s : Memberships} {memberOrder memberRight months : ℕ} {now : DateTime}

/-! ## What is asked of a purchase -/

/-- The account is bound to the highest membership that has not
expired. -/
def Highest (s : Memberships) (now : DateTime) : Prop :=
  ∃ row, s.accountsMember.lookup s.accountsInfo.memberOrder = some row ∧
    now < row.memberOverDate ∧ s.accountsInfo.userRight = row.userRight ∧
    ∀ order other, s.accountsMember.lookup order = some other → now < other.memberOverDate →
      order ≤ s.accountsInfo.memberOrder

/-- **No time is lost**: of a membership that is valid the date is not
moved back, and the months are added to it; and the account is bound to
the highest membership. -/
def Extends (s s' : Memberships) (memberOrder months : ℕ) (now : DateTime) : Prop :=
  (∀ row, s.accountsMember.lookup memberOrder = some row → now < row.memberOverDate →
    ∃ row', s'.accountsMember.lookup memberOrder = some row' ∧
      row.memberOverDate ≤ row'.memberOverDate ∧
      row'.memberOverDate = row.memberOverDate.addMonths months) ∧
  Highest s' now

/-- A valid membership of the order has the date that a new one would
have, and the highest order there is a row for, if it is higher, has not
expired. -/
def MonthsOk (s : Memberships) (memberOrder months : ℕ) (now : DateTime) : Prop :=
  (∀ row, s.accountsMember.lookup memberOrder = some row → now < row.memberOverDate →
    now.addMonths months = row.memberOverDate.addMonths months) ∧
  ∀ top row, s.accountsMember.lookup top = some row → memberOrder < top →
    (∀ order ∈ s.accountsMember.keys, order ≤ top) → now < row.memberOverDate

/-! ## The rows -/

/-- **The rows after a purchase**: that of the order has the new date,
and the others are as they were. -/
theorem lookup_bindMember (s : Memberships) (memberOrder memberRight months : ℕ) (now : DateTime) :
    (∃ row, (s.bindMember memberOrder memberRight months now).accountsMember.lookup memberOrder =
        some row ∧ row.memberOverDate = now.addMonths months) ∧
      ∀ order, order ≠ memberOrder →
        (s.bindMember memberOrder memberRight months now).accountsMember.lookup order =
          s.accountsMember.lookup order := by
  change (∃ row, ((s.deleteOverdue memberOrder now).updateMember memberOrder memberRight
      (now.addMonths months)).accountsMember.lookup memberOrder = some row ∧ _) ∧
    ∀ order, order ≠ memberOrder → ((s.deleteOverdue memberOrder now).updateMember memberOrder
      memberRight (now.addMonths months)).accountsMember.lookup order = _
  unfold updateMember
  cases hrow : (s.deleteOverdue memberOrder now).accountsMember.lookup memberOrder with
  | none =>
    rw [Option.isSome_none, if_neg Bool.false_ne_true, Table.insertNew_eq hrow]
    refine ⟨⟨_, AList.lookup_insert _, rfl⟩, fun order hne => ?_⟩
    rw [AList.lookup_insert_ne hne]
    exact Table.lookup_deleteWhere_of_ne hne
  | some row =>
    rw [Option.isSome_some, if_pos rfl]
    refine ⟨⟨_, Table.lookup_update hrow rfl, rfl⟩, fun order hne => ?_⟩
    rw [Table.lookup_update_of_ne hne]
    exact Table.lookup_deleteWhere_of_ne hne

theorem mem_keys_iff {order : ℕ} :
    order ∈ s.accountsMember.keys ↔ ∃ row, s.accountsMember.lookup order = some row := by
  rw [← AList.mem_keys, ← AList.lookup_isSome, Option.isSome_iff_exists]

/-- **What an account is bound to** when it has a row: its highest
order. -/
theorem bindInfo_spec {order : ℕ} (h : order ∈ s.accountsMember.keys) :
    ∃ row, s.accountsMember.lookup s.bindInfo.accountsInfo.memberOrder = some row ∧
      s.bindInfo.accountsInfo.userRight = row.userRight ∧
      ∀ order ∈ s.accountsMember.keys, order ≤ s.bindInfo.accountsInfo.memberOrder := by
  obtain ⟨top, htop⟩ := Option.isSome_iff_exists.1 (List.isSome_max?_of_mem h)
  obtain ⟨hmem, hle⟩ := List.max?_eq_some_iff.1 htop
  obtain ⟨row, hrow⟩ := mem_keys_iff.1 hmem
  have hdates : s.accountsMember.entries.map (fun row => row.2.memberOverDate) ≠ [] := by
    intro hnil
    rw [List.map_eq_nil_iff] at hnil
    have hkeys : s.accountsMember.keys = [] := congrArg List.keys hnil
    rw [hkeys] at h
    cases h
  obtain ⟨overDate, hover⟩ := Option.isSome_iff_exists.1 (List.isSome_max?_of_ne_nil hdates)
  have hmin : (s.accountsMember.entries.map fun row => row.2.memberOverDate).min?.isSome := by
    rw [Option.isSome_iff_ne_none, ne_eq, List.min?_eq_none_iff]
    exact hdates
  obtain ⟨switchDate, hswitch⟩ := Option.isSome_iff_exists.1 hmin
  have hinfo : s.memberInfo = some ⟨top, row.userRight, overDate, switchDate⟩ := by
    simp only [memberInfo, htop, hover, hswitch, hrow, Option.bind_eq_bind, Option.bind_some,
      Option.pure_def]
  rw [bindInfo, hinfo]
  exact ⟨row, hrow, rfl, hle⟩

/-- **To what a purchase binds the account**: the highest order of all
rows, which may have expired if it is not the one bought. -/
theorem highest_bindMember_iff (hmonths : 0 < months) :
    Highest (s.bindMember memberOrder memberRight months now) now ↔
      ∀ top row, s.accountsMember.lookup top = some row → memberOrder < top →
        (∀ order ∈ s.accountsMember.keys, order ≤ top) → now < row.memberOverDate := by
  obtain ⟨⟨bought, hbought, hdate⟩, hothers⟩ :=
    lookup_bindMember s memberOrder memberRight months now
  have hmem : memberOrder ∈ (s.bindMember memberOrder memberRight months now).accountsMember.keys :=
    mem_keys_iff.2 ⟨bought, hbought⟩
  obtain ⟨bound, hbound, hright, hle⟩ := bindInfo_spec
    (s := (s.deleteOverdue memberOrder now).updateMember memberOrder memberRight
      (now.addMonths months)) hmem
  change (s.bindMember memberOrder memberRight months now).accountsMember.lookup
    (s.bindMember memberOrder memberRight months now).accountsInfo.memberOrder = some bound at hbound
  change (s.bindMember memberOrder memberRight months now).accountsInfo.userRight = _ at hright
  change ∀ order ∈ (s.bindMember memberOrder memberRight months now).accountsMember.keys,
    order ≤ (s.bindMember memberOrder memberRight months now).accountsInfo.memberOrder at hle
  -- the rows of the other orders are in the table before and after
  have hkeys : ∀ order, order ≠ memberOrder →
      (order ∈ (s.bindMember memberOrder memberRight months now).accountsMember.keys ↔
        order ∈ s.accountsMember.keys) := by
    intro order hne
    rw [mem_keys_iff, mem_keys_iff, hothers order hne]
  generalize s.bindMember memberOrder memberRight months now = s' at *
  constructor
  · rintro ⟨row, hrow, hvalid, -, -⟩ top other hother hlt hall
    have htop : s'.accountsInfo.memberOrder = top := by
      refine Nat.le_antisymm ?_ (hle top ((hkeys top hlt.ne').2 (mem_keys_iff.2 ⟨other, hother⟩)))
      by_cases hsame : s'.accountsInfo.memberOrder = memberOrder
      · exact hsame ▸ hlt.le
      · exact hall _ ((hkeys _ hsame).1 (mem_keys_iff.2 ⟨row, hrow⟩))
    rw [htop, hothers top hlt.ne', hother] at hrow
    cases hrow
    exact hvalid
  · intro hall
    refine ⟨bound, hbound, ?_, hright, fun order other hother _ =>
      hle order (mem_keys_iff.2 ⟨other, hother⟩)⟩
    rcases (hle memberOrder hmem).eq_or_lt with hsame | hlt
    · rw [← hsame, hbought] at hbound
      cases hbound
      rw [hdate]
      exact DateTime.lt_addMonths now hmonths
    · rw [hothers _ hlt.ne'] at hbound
      refine hall _ bound hbound hlt fun order horder => ?_
      by_cases hsame : order = memberOrder
      · exact hsame ▸ hlt.le
      · exact hle order ((hkeys order hsame).2 horder)

/-- **A purchase loses no time exactly when it meets the condition.** -/
theorem extends_bindMember_iff (hmonths : 0 < months) :
    Extends s (s.bindMember memberOrder memberRight months now) memberOrder months now ↔
      MonthsOk s memberOrder months now := by
  obtain ⟨⟨bought, hbought, hdate⟩, -⟩ := lookup_bindMember s memberOrder memberRight months now
  refine and_congr ?_ (highest_bindMember_iff hmonths)
  constructor
  · intro hextends row hrow hvalid
    obtain ⟨row', hrow', -, hadded⟩ := hextends row hrow hvalid
    rw [hbought] at hrow'
    cases hrow'
    exact hdate.symm.trans hadded
  · intro hok row hrow hvalid
    have hadded := hdate.trans (hok row hrow hvalid)
    exact ⟨bought, hbought, hadded ▸ (DateTime.lt_addMonths _ hmonths).le, hadded⟩

end Memberships

/-! ## Runs -/

/-- The order, the months and the time of a membership that a call
buys. -/
def MemberCall.bought : MemberCall → Option (ℕ × ℕ × DateTime)
  | .purchaseMember cbMemberOrder purchaseTime _ now =>
      if 0 < purchaseTime then some (cbMemberOrder, purchaseTime, now) else none
  | .consumeProperty wPropertyID wPropertyCount now =>
      if 0 < wPropertyCount ∧ 22 ≤ wPropertyID ∧ wPropertyID ≤ 26 then
        some (wPropertyID - 21, wPropertyCount, now)
      else none

/-- A call loses no membership time. -/
def KeepsTime (s : Memberships) (call : MemberCall) : Prop :=
  ∀ memberOrder months now, call.bought = some (memberOrder, months, now) →
    s.Extends (memberStep s call).1 memberOrder months now

/-- The condition, for what a call buys. -/
def MemberOk (s : Memberships) (call : MemberCall) : Prop :=
  ∀ memberOrder months now, call.bought = some (memberOrder, months, now) →
    s.MonthsOk memberOrder months now

theorem keepsTime_iff (s : Memberships) (call : MemberCall) :
    KeepsTime s call ↔ MemberOk s call := by
  refine forall_congr' fun memberOrder => forall_congr' fun months => forall_congr' fun now =>
    forall_congr' fun hbought => ?_
  cases call with
  | purchaseMember cbMemberOrder purchaseTime memberRight now =>
    rw [MemberCall.bought] at hbought
    split_ifs at hbought with hpositive
    cases hbought
    exact Memberships.extends_bindMember_iff hpositive
  | consumeProperty wPropertyID wPropertyCount now =>
    rw [MemberCall.bought] at hbought
    split_ifs at hbought with hcard
    cases hbought
    have hstep : (memberStep s (.consumeProperty wPropertyID months now)).1 =
        s.bindMember (wPropertyID - 21) 512 months now := by
      change s.consumeProperty wPropertyID months now = _
      rw [Memberships.consumeProperty, if_pos hcard.2, Nat.mul_one,
        show wPropertyID - 22 + 1 = wPropertyID - 21 by omega]
    rw [hstep]
    exact Memberships.extends_bindMember_iff hcard.1

/-- **Membership time is not lost in a run of purchases** exactly when
each of them meets the condition. -/
theorem keeps_time_iff (s : Memberships) (calls : List MemberCall) :
    memberStep.Along KeepsTime s calls ↔ memberStep.Along MemberOk s calls := by
  induction calls generalizing s with
  | nil => exact Iff.rfl
  | cons call calls ih => exact and_congr (keepsTime_iff s call) (ih _)

def noMember : Memberships := { accountsInfo := ⟨0, 0, ⟨1980 * 12, 1, 0⟩, ⟨1980 * 12, 1, 0⟩⟩ }

/-- Noon on the fifteenth of January 2018. -/
def today : DateTime := ⟨2018 * 12, 15, 43200⟩

def yearAndMonth : List MemberCall := [.purchaseMember 1 12 512 today, .purchaseMember 1 1 512 today]

theorem month_costs_year : ¬ memberStep.Along KeepsTime noMember yearAndMonth := by
  rintro ⟨-, h, -⟩
  obtain ⟨row', hrow', hle, -⟩ := (h 1 1 today rfl).1 ⟨512, ⟨2019 * 12, 15, 43200⟩⟩
    (by decide +kernel) (by decide +kernel)
  have hafter : (memberStep (memberStep noMember (.purchaseMember 1 12 512 today)).1
      (.purchaseMember 1 1 512 today)).1.accountsMember.lookup 1 =
        some ⟨512, ⟨2018 * 12 + 1, 15, 43200⟩⟩ := by decide +kernel
  cases hrow'
  exact absurd hle (by decide +kernel)

end GameServer.TreasureDB
