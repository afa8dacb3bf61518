import GameServer.MatchService.Resources
import Mathlib.Data.List.Count
import Mathlib.Data.List.Flatten
/-!
# MatchService — members and fees

A user pays first and becomes a member when the database answers; whether he
may sign up is checked before both. While every answer is for a user who is
in no group and whom the current group takes in, the list of users is the
list of the members and every refund is for a member (`Enrolled`). Any other
answer takes a fee for which there is neither a place nor a refund
(`membership_and_fees_agree_iff`).
-/

namespace GameServer.MatchService

variable {o : MatchManagerParameter} {m m' : ImmediateMatch} {group group' : ImmediateGroup}
variable {userID : ℕ} {out : List Notice} {e : Event}

/-! ## Agreement -/

/-- The user is in one of the groups. -/
def IsMember (m : ImmediateMatch) (userID : ℕ) : Prop :=
  ∃ group ∈ m.groups, userID ∈ group.onMatchUserMap

instance (userID : ℕ) : Decidable (IsMember m userID) :=
  inferInstanceAs (Decidable (∃ group ∈ m.groups, userID ∈ group.onMatchUserMap))

/-- **The list of users is the list of members**, and no user is in two
groups. -/
structure MembershipAgrees (m : ImmediateMatch) : Prop where
  oneGroup : m.groups.Pairwise fun g h => ∀ u ∈ g.onMatchUserMap, u ∉ h.onMatchUserMap
  members : ∀ u, u ∈ m.onMatchUserItem ↔ IsMember m u
  once : m.onMatchUserItem.Nodup

/-- The request to pay a fee back to the user. -/
def IsRefund (userID : ℕ) : Notice → Bool
  | .posted (.matchUnsignup u _ _ _) => u = userID
  | _ => false

def refunds (userID : ℕ) (out : List Notice) : ℕ := out.countP (IsRefund userID)

def deductions (userID : ℕ) (out : List Notice) : ℕ := out.count (.deducted userID)

/-- A deduction that the event reports makes the user a member, or is
refunded. -/
def FeeSettled (o : MatchManagerParameter) (m : ImmediateMatch) (e : Event) : Prop :=
  ∀ m' out, step o m e = some (m', out) → ∀ u, Notice.deducted u ∈ out →
    (¬ IsMember m u ∧ IsMember m' u) ∨ 0 < refunds u out

/-- The users of all groups, in the order of the groups. -/
def members (m : ImmediateMatch) : List ℕ := m.groups.flatMap (·.onMatchUserMap)

theorem mem_members : userID ∈ members m ↔ IsMember m userID := List.mem_flatMap

theorem members_eq (m : ImmediateMatch) :
    members m = m.curMatchGroup.onMatchUserMap ++
      (m.matchGroup.flatMap (·.onMatchUserMap) ++ m.overMatchGroup.flatMap (·.onMatchUserMap)) := by
  rw [members, ImmediateMatch.groups, List.flatMap_cons, List.flatMap_append]

/-- **What the steps keep**: the list of users is the members, each once,
the current group has room, and no ended group is listed. -/
structure Enrolled (o : MatchManagerParameter) (m : ImmediateMatch) : Prop where
  items : m.onMatchUserItem.Perm (members m)
  nodup : (members m).Nodup
  room : m.curMatchGroup.onMatchUserMap.length < o.startUserCount
  ended : m.overMatchGroup = []

theorem Enrolled.agrees (h : Enrolled o m) : MembershipAgrees m where
  oneGroup := (List.nodup_flatMap.1 h.nodup).2.imp fun hd _ hu hu' => hd hu hu'
  members _ := h.items.mem_iff.trans mem_members
  once := h.items.nodup_iff.2 h.nodup

/-! ## What a step does to the members -/

/-- No fee is paid or given back. -/
def NoFees (out : List Notice) : Prop :=
  (∀ u, refunds u out = 0) ∧ ∀ u, Notice.deducted u ∉ out

/-- How a step changes the members and the list of users, and what it
emits. -/
inductive Moved (m m' : ImmediateMatch) (out : List Notice) : Prop
  | stays (members : (members m').Perm (members m)) (items : m'.onMatchUserItem = m.onMatchUserItem)
      (refund : ∀ u, refunds u out = 0) (deducted : ∀ u, Notice.deducted u ∉ out)
  | enters (userID : ℕ) (isNew : userID ∉ MatchService.members m)
      (members : (members m').Perm (userID :: members m))
      (items : m'.onMatchUserItem = m.onMatchUserItem ++ [userID])
      (out : out = [.deducted userID])
  | leaves (userID : ℕ) (wasMember : userID ∈ MatchService.members m)
      (members : (members m').Perm ((members m).erase userID))
      (items : m'.onMatchUserItem = m.onMatchUserItem.erase userID)
      (refund : ∀ u, refunds u out ≤ if u = userID then 1 else 0)
      (deducted : ∀ u, Notice.deducted u ∉ out)

theorem members_joined (userID : ℕ) :
    (members (joined o m userID)).Perm (userID :: members m) := by
  rw [members_eq, members_eq]
  simp only [joined, seated, List.append_assoc, List.singleton_append]
  exact List.perm_middle

theorem members_start {now : ℕ} (h : efficacyStartMatch o now m = some m') :
    (members m').Perm (members m) ∧ m'.onMatchUserItem = m.onMatchUserItem ∧
      m'.curMatchGroup.onMatchUserMap = [] ∧ m'.overMatchGroup = m.overMatchGroup := by
  obtain ⟨number, taken, -, -, hgroups, hcur, hover, hitems⟩ := efficacyStartMatch_spec h
  refine ⟨?_, hitems, by rw [hcur], hover⟩
  rw [members_eq, members_eq, hgroups, hcur, hover]
  simp only [List.flatMap_append, List.flatMap_cons, List.flatMap_nil, List.nil_append,
    List.append_nil, List.append_assoc]
  rw [← List.append_assoc, ← List.append_assoc]
  exact List.perm_append_comm.append_right _

theorem onUserQuitMatch_eq_none :
    group.onUserQuitMatch o userID = none ↔ userID ∉ group.onMatchUserMap := by
  rw [ImmediateGroup.onUserQuitMatch]
  split <;> simp_all

theorem onUserQuitMatch_spec (h : group.onUserQuitMatch o userID = some group') :
    userID ∈ group.onMatchUserMap ∧
      group'.onMatchUserMap = group.onMatchUserMap.erase userID := by
  rw [ImmediateGroup.onUserQuitMatch] at h
  split at h
  case isTrue hmem =>
    cases h
    exact ⟨hmem, rfl⟩
  case isFalse => cases h

theorem quitGroups_eq_none : ∀ {groups : List ImmediateGroup},
    quitGroups o userID groups = none → userID ∉ groups.flatMap (·.onMatchUserMap) := by
  intro groups
  induction groups with
  | nil => simp
  | cons group groups ih =>
    intro h
    rw [quitGroups] at h
    split at h
    case h_1 => cases h
    case h_2 hnone =>
      rw [List.flatMap_cons, List.mem_append, not_or]
      exact ⟨onUserQuitMatch_eq_none.1 hnone, ih (Option.map_eq_none_iff.1 h)⟩

/-- The first group that has the user loses him. -/
theorem quitGroups_spec : ∀ {groups groups' : List ImmediateGroup},
    quitGroups o userID groups = some groups' →
      userID ∈ groups.flatMap (·.onMatchUserMap) ∧
        groups'.flatMap (·.onMatchUserMap) = (groups.flatMap (·.onMatchUserMap)).erase userID := by
  intro groups
  induction groups with
  | nil => intro groups' h; cases h
  | cons group groups ih =>
    intro groups' h
    rw [quitGroups] at h
    split at h
    case h_1 g hg =>
      cases h
      obtain ⟨hmem, hmap⟩ := onUserQuitMatch_spec hg
      rw [List.flatMap_cons, List.flatMap_cons, hmap, List.erase_append_left _ hmem]
      exact ⟨List.mem_append_left _ hmem, rfl⟩
    case h_2 hnone =>
      obtain ⟨rest, hrest, rfl⟩ := Option.map_eq_some_iff.1 h
      obtain ⟨hmem, hmap⟩ := ih hrest
      rw [List.flatMap_cons, List.flatMap_cons, hmap,
        List.erase_append_right _ (onUserQuitMatch_eq_none.1 hnone)]
      exact ⟨List.mem_append_right _ hmem, rfl⟩

/-- **A leave request** takes a member out of his group and of the list; the
refund is for him. -/
theorem moved_quit (h : Enrolled o m) (userID userStatus : ℕ) :
    Moved m (onEventUserQuitMatch o m userID userStatus).1
        (onEventUserQuitMatch o m userID userStatus).2 ∧
      (onEventUserQuitMatch o m userID userStatus).1.curMatchGroup.onMatchUserMap.length ≤
        m.curMatchGroup.onMatchUserMap.length ∧
      (onEventUserQuitMatch o m userID userStatus).1.overMatchGroup = m.overMatchGroup := by
  have hstay : Moved m m [] := .stays (List.Perm.refl _) rfl (fun _ => rfl) (by simp)
  rw [onEventUserQuitMatch]
  split
  · exact ⟨hstay, Nat.le_refl _, rfl⟩
  split
  · exact ⟨hstay, Nat.le_refl _, rfl⟩
  split
  case isFalse => exact ⟨hstay, Nat.le_refl _, rfl⟩
  case isTrue hitem =>
    have hmember : userID ∈ members m := h.items.mem_iff.1 hitem
    have hmembers := hmember
    rw [members_eq, h.ended, List.flatMap_nil, List.append_nil] at hmembers
    simp only
    split
    case h_1 groups hgroups =>
      obtain ⟨hin, hmap⟩ := quitGroups_spec hgroups
      have hcur : userID ∉ m.curMatchGroup.onMatchUserMap := by
        have hnd := h.nodup
        rw [members_eq, List.nodup_append] at hnd
        exact fun hc => hnd.2.2 _ hc _ (List.mem_append_left _ hin) rfl
      refine ⟨.leaves userID hmember ?_ rfl (fun _ => Nat.zero_le _) (by simp), Nat.le_refl _, rfl⟩
      rw [members_eq, members_eq]
      simp only [hmap, h.ended, List.flatMap_nil, List.append_nil]
      rw [List.erase_append_right _ hcur]
    case h_2 hnone =>
      split
      case h_1 g hg =>
        obtain ⟨hin, hmap⟩ := onUserQuitMatch_spec hg
        refine ⟨.leaves userID hmember ?_ rfl (fun u => ?_) ?_, ?_, rfl⟩
        · rw [members_eq, members_eq]
          simp only [hmap]
          rw [List.erase_append_left _ hin]
        · split
          · by_cases hu : userID = u
            · simp [refunds, IsRefund, hu]
            · simp [refunds, IsRefund, hu]
          · exact Nat.zero_le _
        · intro u hu
          split at hu <;> simp at hu
        · rw [hmap]
          exact List.length_erase_le
      case h_2 hnone' =>
        rcases List.mem_append.1 hmembers with hc | hs
        · exact absurd hc (onUserQuitMatch_eq_none.1 hnone')
        · exact absurd hs (quitGroups_eq_none hnone)

theorem groupTimers_users (timerID : ℕ) : ∀ groups : List ImmediateGroup,
    (groupTimers o timerID groups).1.map (·.onMatchUserMap) = groups.map (·.onMatchUserMap) ∧
      NoFees (groupTimers o timerID groups).2 := by
  intro groups
  induction groups with
  | nil => exact ⟨rfl, fun _ => rfl, nofun⟩
  | cons group groups ih =>
    have hgroup : ∀ id, (group.onTimeMessage o id).1.onMatchUserMap = group.onMatchUserMap ∧
        NoFees (group.onTimeMessage o id).2 := by
      intro id
      rw [ImmediateGroup.onTimeMessage, ImmediateGroup.matchOver, NoFees]
      repeat' split
      all_goals simp [refunds, IsRefund]
    rcases hrest : groupTimers o timerID groups with ⟨rest, notices⟩
    rw [hrest] at ih
    obtain ⟨husers, hrefunds, hdeducted⟩ := ih
    simp only [groupTimers, hrest]
    split
    case isTrue =>
      obtain ⟨hu, hr, hd⟩ := hgroup (timerID - group.loopTimer * 10)
      refine ⟨by simp only [List.map_cons, husers, hu], fun u => ?_, fun u hmem => ?_⟩
      · have := hrefunds u
        have := hr u
        simp only [refunds, List.countP_append] at *
        omega
      · rcases List.mem_append.1 hmem with hmem | hmem
        · exact hdeducted u hmem
        · exact hd u hmem
    case isFalse => exact ⟨by simp only [List.map_cons, husers], hrefunds, hdeducted⟩

theorem moved_timer (h : Enrolled o m) (timerID : ℕ) :
    Moved m (onEventTimer o m timerID).1 (onEventTimer o m timerID).2 ∧
      (onEventTimer o m timerID).1.curMatchGroup = m.curMatchGroup ∧
      (onEventTimer o m timerID).1.overMatchGroup = [] := by
  rw [onEventTimer]
  split
  · obtain ⟨husers, hrefunds, hdeducted⟩ := groupTimers_users (o := o) timerID m.matchGroup
    refine ⟨.stays (.of_eq ?_) rfl hrefunds hdeducted, rfl, h.ended⟩
    simp only [members_eq, List.flatMap_def, husers]
  · split
    · refine ⟨.stays (.of_eq ?_) rfl (fun _ => rfl) (by simp), rfl, rfl⟩
      simp only [members_eq, h.ended]
    · exact ⟨.stays (List.Perm.refl _) rfl (fun _ => rfl) (by simp), rfl, h.ended⟩

/-- The user is put into the list without a group: a real user, a fee below
zero, and none of the checks fails. -/
def JoinsUnpaid (o : MatchManagerParameter) (m : ImmediateMatch) (user : JoinUser) : Prop :=
  o.forfendRoomEnter = false ∧ m.curMatchGroup.matchStatus ≠ .wait ∧
    user.userID ∉ m.onMatchUserItem ∧ m.loopTimer ≠ [] ∧ (user.free ∧ user.noTable) ∧
    ¬(o.initalScore = 0 ∧ user.userScore < o.enterScore) ∧ o.matchFee < 0 ∧
    o.isAndroidUser user.userID = false

theorem onMatchFee_notices (userID : ℕ) (fee : Option ℤ) : NoFees (onMatchFee o m userID fee) := by
  rw [onMatchFee, NoFees]
  split <;> simp [refunds, IsRefund]

/-- **A join request** asks for the fee or is turned down, a fee below zero
apart. -/
theorem onEventUserJoinMatch_cases (user : JoinUser) :
    ((onEventUserJoinMatch o m user).1 = m ∧ NoFees (onEventUserJoinMatch o m user).2) ∧
        ¬ JoinsUnpaid o m user ∨
      JoinsUnpaid o m user ∧ (onEventUserJoinMatch o m user).1 = enrolled user.userID m := by
  have hnone : (m, ([] : List Notice)).1 = m ∧ NoFees (m, ([] : List Notice)).2 :=
    ⟨rfl, fun _ => rfl, by simp⟩
  rw [onEventUserJoinMatch]
  by_cases h₁ : o.forfendRoomEnter = true
  · rw [if_pos h₁]
    exact Or.inl ⟨hnone, fun h => by rw [h.1] at h₁; cases h₁⟩
  by_cases h₂ : m.curMatchGroup.matchStatus = .wait
  · rw [if_neg h₁, if_pos h₂]
    exact Or.inl ⟨hnone, fun h => h.2.1 h₂⟩
  by_cases h₃ : user.userID ∈ m.onMatchUserItem
  · rw [if_neg h₁, if_neg h₂, if_pos h₃]
    exact Or.inl ⟨hnone, fun h => h.2.2.1 h₃⟩
  by_cases h₄ : m.loopTimer = []
  · rw [if_neg h₁, if_neg h₂, if_neg h₃, if_pos h₄]
    exact Or.inl ⟨hnone, fun h => h.2.2.2.1 h₄⟩
  by_cases h₅ : user.free ∧ user.noTable
  swap
  · rw [if_neg h₁, if_neg h₂, if_neg h₃, if_neg h₄, if_pos h₅]
    exact Or.inl ⟨hnone, fun h => h₅ h.2.2.2.2.1⟩
  rw [if_neg h₁, if_neg h₂, if_neg h₃, if_neg h₄, if_neg (not_not.2 h₅)]
  by_cases h₆ : o.initalScore = 0 ∧ user.userScore < o.enterScore
  · rw [if_pos h₆]
    exact Or.inl ⟨hnone, fun h => h.2.2.2.2.2.1 h₆⟩
  rw [if_neg h₆]
  by_cases h₇ : o.matchFee < 0 ∧ o.isAndroidUser user.userID = false
  · rw [if_neg (by omega), if_neg (by simp only [h₇.2, Bool.false_eq_true, or_false]; omega)]
    exact Or.inr ⟨⟨by simpa using h₁, h₂, h₃, h₄, h₅, h₆, h₇⟩, rfl⟩
  · have hpaid : ¬ JoinsUnpaid o m user := fun h => h₇ ⟨h.2.2.2.2.2.2.1, h.2.2.2.2.2.2.2⟩
    refine Or.inl ⟨?_, hpaid⟩
    split
    · exact hnone
    split
    · split
      · exact hnone
      · exact ⟨rfl, onMatchFee_notices user.userID (some o.matchFee)⟩
    · rename_i hasked hpays
      refine absurd ⟨?_, ?_⟩ h₇
      · rw [not_or, Bool.not_eq_true] at hpays
        simp only [hpays.2, and_true] at hasked
        omega
      · rw [not_or, Bool.not_eq_true] at hpays
        exact hpays.2

/-! ## Runs -/

/-- **The condition.** An answer that a fee was taken is for the user who
paid, who is in no group, whom the current group takes in and has a place
for, and the start that he may cause finds what it needs; nobody joins
unpaid. -/
def Enrolls (o : MatchManagerParameter) (m : ImmediateMatch) : Event → Prop
  | .signUpResult requester item true frames _ =>
      item = some requester ∧ ¬ IsMember m requester ∧ Admits o frames m requester ∧
        ¬ AndroidFull o m requester ∧ (Fills o m → StartServed o m)
  | .joinMatch user => ¬ JoinsUnpaid o m user
  | _ => True

theorem Moved.enrolled (hm : Moved m m' out) (h : Enrolled o m)
    (hroom : m'.curMatchGroup.onMatchUserMap.length < o.startUserCount)
    (hended : m'.overMatchGroup = []) : Enrolled o m' := by
  cases hm with
  | stays hmembers hitems =>
    exact ⟨by rw [hitems]; exact h.items.trans hmembers.symm, hmembers.nodup_iff.2 h.nodup,
      hroom, hended⟩
  | enters userID hnew hmembers hitems =>
    refine ⟨?_, hmembers.nodup_iff.2 (List.nodup_cons.2 ⟨hnew, h.nodup⟩), hroom, hended⟩
    rw [hitems]
    exact (List.perm_append_singleton _ _).trans ((h.items.cons userID).trans hmembers.symm)
  | leaves userID _ hmembers hitems =>
    refine ⟨?_, hmembers.nodup_iff.2 (h.nodup.erase userID), hroom, hended⟩
    rw [hitems]
    exact (h.items.erase userID).trans hmembers.symm

/-- **What a step that meets the condition does**: nobody, one new member,
or one member less. -/
theorem Enrolls.step (h : Enrolled o m) (hok : Enrolls o m e) :
    ∃ m' out, step o m e = some (m', out) ∧ Moved m m' out ∧ Enrolled o m' := by
  have hstay : Moved m m [] := .stays (List.Perm.refl _) rfl (fun _ => rfl) nofun
  cases e with
  | matchFee userID fee =>
    obtain ⟨hrefunds, hdeducted⟩ := onMatchFee_notices (o := o) (m := m) userID fee
    exact ⟨m, _, rfl, .stays (List.Perm.refl _) rfl hrefunds hdeducted, h⟩
  | unsignUpResult item resultCode =>
    have hsame : (onUnsignUpResult m item resultCode).onMatchUserItem = m.onMatchUserItem ∧
        (onUnsignUpResult m item resultCode).groups = m.groups := by
      cases item with
      | none => exact ⟨rfl, rfl⟩
      | some userID => cases resultCode <;> exact ⟨rfl, rfl⟩
    have hmoved : Moved m (onUnsignUpResult m item resultCode) [] :=
      .stays (by rw [members, members, hsame.2]) hsame.1 (fun _ => rfl) nofun
    refine ⟨_, _, rfl, hmoved, hmoved.enrolled h ?_ ?_⟩
    · rw [show (onUnsignUpResult m item resultCode).curMatchGroup = m.curMatchGroup from
        (List.cons.inj hsame.2).1]
      exact h.room
    · cases item with
      | none => exact h.ended
      | some userID => cases resultCode <;> exact h.ended
  | joinMatch user =>
    rcases onEventUserJoinMatch_cases (o := o) (m := m) user with ⟨⟨hm, hr, hd⟩, -⟩ | ⟨hbad, -⟩
    · refine ⟨(onEventUserJoinMatch o m user).1, (onEventUserJoinMatch o m user).2, rfl, ?_, ?_⟩
      · exact .stays (by rw [hm]) (by rw [hm]) hr hd
      · rw [hm]
        exact h
    · exact absurd hbad hok
  | leaveMatch userID userStatus =>
    obtain ⟨hmoved, hlen, hover⟩ := moved_quit h userID userStatus
    exact ⟨_, _, rfl, hmoved,
      hmoved.enrolled h (Nat.lt_of_le_of_lt hlen h.room) (hover.trans h.ended)⟩
  | timer timerID =>
    obtain ⟨hmoved, hcur, hover⟩ := moved_timer h timerID
    exact ⟨_, _, rfl, hmoved, hmoved.enrolled h (by rw [hcur]; exact h.room) hover⟩
  | signUpResult requester item resultCode frames now =>
    cases resultCode with
    | false =>
      refine ⟨m, [], ?_, hstay, h⟩
      cases item <;> rfl
    | true =>
      obtain ⟨rfl, hnew, hadmits, hrobot, hstart⟩ := hok
      have hnew' : requester ∉ members m := fun hmem => hnew (mem_members.1 hmem)
      have heq := onSignUpResult_eq (o := o) (m := m) frames now requester
      rw [if_neg (not_not.2 hadmits), if_neg hrobot] at heq
      by_cases hfills : Fills o m
      · obtain ⟨m₁, h₁⟩ := Option.isSome_iff_exists.1 ((efficacyStartMatch_isSome now).2
          ((startServed_joined requester).2 (hstart hfills)))
        obtain ⟨hmembers, hitems, hempty, hover⟩ := members_start h₁
        rw [if_pos hfills, h₁, Option.map_some] at heq
        have hmoved : Moved m (MatchService.enrolled requester m₁) [.deducted requester] :=
          .enters requester hnew' (hmembers.trans (members_joined requester))
            (congrArg (· ++ [requester]) hitems) rfl
        refine ⟨_, _, by rw [MatchService.step, heq]; rfl, hmoved, hmoved.enrolled h ?_ ?_⟩
        · rw [show (MatchService.enrolled requester m₁).curMatchGroup.onMatchUserMap = []
            from hempty]
          exact Nat.lt_of_le_of_lt (Nat.zero_le _) hadmits.2.1
        · exact hover.trans h.ended
      · rw [if_neg hfills] at heq
        have hmoved : Moved m (MatchService.enrolled requester (joined o m requester))
            [.deducted requester] :=
          .enters requester hnew' (members_joined requester) rfl rfl
        refine ⟨_, _, by rw [MatchService.step, heq]; rfl, hmoved, hmoved.enrolled h ?_ h.ended⟩
        rw [Fills] at hfills
        simp only [MatchService.enrolled, joined, List.length_append, List.length_singleton]
        omega

theorem Moved.feeSettled (hm : Moved m m' out)
    (h : step o m e = some (m', out)) : FeeSettled o m e := by
  intro m₁ out₁ h₁ u hu
  rw [h] at h₁
  cases h₁
  cases hm with
  | stays _ _ _ hdeducted => exact absurd hu (hdeducted u)
  | leaves _ _ _ _ _ hdeducted => exact absurd hu (hdeducted u)
  | enters userID hnew hmembers _ hout =>
    rw [hout, List.mem_singleton, Notice.deducted.injEq] at hu
    subst hu
    refine Or.inl ⟨fun hmem => hnew (mem_members.2 hmem), mem_members.1 ?_⟩
    exact hmembers.mem_iff.2 List.mem_cons_self

/-- Every refund is for a deduction: the members hold the others. -/
theorem Moved.ledger {log : List Notice} (hm : Moved m m' out)
    (h : ∀ u, refunds u log + (members m).count u ≤ deductions u log) (u : ℕ) :
    refunds u (log ++ out) + (members m').count u ≤ deductions u (log ++ out) := by
  have hu := h u
  simp only [refunds, deductions, List.countP_append, List.count_append] at hu ⊢
  cases hm with
  | stays hmembers _ hrefund _ =>
    have hr := hrefund u
    rw [refunds] at hr
    rw [hmembers.count_eq, hr]
    omega
  | enters userID _ hmembers _ hout =>
    rw [hmembers.count_eq, hout]
    by_cases heq : userID = u
    · simp only [heq, List.count_cons_self, List.count_nil, List.countP_singleton, IsRefund]
      simp only [Bool.false_eq_true, if_false]
      omega
    · simp [heq, IsRefund]
      omega
  | leaves userID hwas hmembers _ hrefund _ =>
    have hr := hrefund u
    rw [refunds] at hr
    rw [hmembers.count_eq, List.count_erase]
    have hpos := List.count_pos_iff.2 hwas
    by_cases heq : u = userID
    · subst heq
      simp only [if_true, beq_self_eq_true] at hr ⊢
      omega
    · rw [if_neg heq] at hr
      omega

/-- A user who was not put into the current group is a member of no group
only if he was one before. -/
theorem not_settled {requester : ℕ} (h : (¬ IsMember m requester ∧ IsMember m requester) ∨
    0 < refunds requester [.deducted requester]) : False := by
  rcases h with ⟨hn, hm⟩ | hr
  · exact hn hm
  · simp [refunds, IsRefund] at hr

/-- **A step that is good met the condition.** -/
theorem Enrolls.of_step (h : Enrolled o m)
    (hfee : FeeSettled o m e) (hstep : MatchService.step o m e = some (m', out))
    (hagrees : MembershipAgrees m') : Enrolls o m e := by
  cases e with
  | matchFee userID fee => trivial
  | unsignUpResult item resultCode => trivial
  | leaveMatch userID userStatus => trivial
  | timer timerID => trivial
  | joinMatch user =>
    rcases onEventUserJoinMatch_cases (o := o) (m := m) user with ⟨-, hpaid⟩ | ⟨hbad, heq⟩
    · exact hpaid
    · obtain rfl := congrArg Prod.fst (Option.some.inj hstep)
      rw [heq] at hagrees
      have hin : user.userID ∈ (enrolled user.userID m).onMatchUserItem :=
        List.mem_append_right _ List.mem_cons_self
      have hmember : IsMember m user.userID := (hagrees.members user.userID).1 hin
      exact absurd ((h.agrees.members user.userID).2 hmember) hbad.2.2.1
  | signUpResult requester item resultCode frames now =>
    cases resultCode with
    | false => trivial
    | true =>
      have hreported := hfee m' out hstep requester
      obtain ⟨m₁, hm₁, hpair⟩ := Option.map_eq_some_iff.1 hstep
      cases hpair
      have hsettled := hreported List.mem_cons_self
      cases item with
      | none =>
        cases hm₁
        exact (not_settled hsettled).elim
      | some userID =>
        rw [onSignUpResult_eq] at hm₁
        by_cases hadmits : Admits o frames m userID
        swap
        · rw [if_pos hadmits] at hm₁
          cases hm₁
          exact (not_settled hsettled).elim
        rw [if_neg (not_not.2 hadmits)] at hm₁
        by_cases hrobot : AndroidFull o m userID
        · -- the robot is in the group and not in the list
          rw [if_pos hrobot] at hm₁
          cases hm₁
          have hin : IsMember (seated m userID) userID :=
            ⟨(seated m userID).curMatchGroup, List.mem_cons_self,
              List.mem_append_right _ List.mem_cons_self⟩
          obtain ⟨group, hgroup, hu⟩ := (h.agrees.members userID).1 ((hagrees.members userID).2 hin)
          rcases List.mem_cons.1 hgroup with rfl | hgroup
          · exact absurd hu hadmits.1
          · have hpair := (List.pairwise_cons.1 hagrees.oneGroup).1 group hgroup userID
              (List.mem_append_right _ List.mem_cons_self)
            exact absurd hu hpair
        rw [if_neg hrobot] at hm₁
        -- the user is the one new member
        have hnew : ∃ m₂, (members m₂).Perm (userID :: members m) ∧
            m' = MatchService.enrolled userID m₂ ∧ (Fills o m → StartServed o m) := by
          by_cases hfills : Fills o m
          · rw [if_pos hfills] at hm₁
            obtain ⟨m₂, hm₂, rfl⟩ := Option.map_eq_some_iff.1 hm₁
            refine ⟨m₂, (members_start hm₂).1.trans (members_joined userID), rfl, fun _ => ?_⟩
            exact (startServed_joined userID).1
              ((efficacyStartMatch_isSome now).1 (by rw [hm₂]; rfl))
          · rw [if_neg hfills] at hm₁
            cases hm₁
            exact ⟨_, members_joined userID, rfl, fun hf => absurd hf hfills⟩
        obtain ⟨m₂, hmembers, rfl, hstart⟩ := hnew
        rcases hsettled with ⟨hnot, hmember⟩ | hrefund
        · have hmem : requester ∈ userID :: members m :=
            hmembers.mem_iff.1 (mem_members.2 hmember)
          rcases List.mem_cons.1 hmem with rfl | hmem
          · exact ⟨rfl, hnot, hadmits, hrobot, hstart⟩
          · exact absurd (mem_members.1 hmem) hnot
        · simp [refunds, IsRefund] at hrefund

theorem enrolled_onStartService {now : ℕ} (h : onStartService o now = some m) : Enrolled o m := by
  have hserved := (newGroup_isSome (o := o) now (List.range o.tableCount)).1 (by
    obtain ⟨p, hp, -⟩ := Option.map_eq_some_iff.1 h
    rw [hp]
    rfl)
  obtain ⟨⟨group, left⟩, hgroup, rfl⟩ := Option.map_eq_some_iff.1 h
  obtain ⟨taken, rfl, -⟩ := newGroup_spec hgroup
  refine ⟨List.Perm.refl _, List.nodup_nil, ?_, rfl⟩
  -- a group without chairs is never made
  have hchairs := hserved.1
  rw [MatchManagerParameter.groupChairCount] at hchairs
  change 0 < o.startUserCount
  split at hchairs <;> omega

/-- **When members and fees agree.** Over any run of a started service,
every event is handled, the list of users is the list of members with
nobody in two groups, no user is refunded more often than he paid, and every
deduction makes its user a member or is refunded, exactly when every step
meets the condition. -/
theorem membership_and_fees_agree_iff (o : MatchManagerParameter) (now : ℕ) (m₀ : ImmediateMatch)
    (hstart : onStartService o now = some m₀) (events : List Event) :
    ((∀ n, ∃ r, (step o).run m₀ (events.take n) = some r ∧ MembershipAgrees r.1 ∧
        ∀ u, refunds u r.2 ≤ deductions u r.2) ∧
      Machine.Along (step o) (FeeSettled o) m₀ events) ↔
    Machine.Along (step o) (Enrolls o) m₀ events := by
  have hinit := enrolled_onStartService hstart
  have hiff := Machine.prefixes_iff (I := Enrolled o) (P := MembershipAgrees) (Q := FeeSettled o)
    (fun m hm => hm.agrees)
    (fun m e hm (hok : Enrolls o m e) => by
      obtain ⟨m', out, hstep, hmoved, hm'⟩ := hok.step hm
      exact ⟨hmoved.feeSettled hstep, m', out, hstep, hm'⟩)
    (fun m e m' out hm hQ hstep hP => .of_step hm hQ hstep hP) events m₀ hinit
  constructor
  · rintro ⟨hruns, hfees⟩
    refine hiff.1 ⟨fun n => ?_, hfees⟩
    obtain ⟨r, hr, hagrees, -⟩ := hruns n
    exact ⟨r, hr, hagrees⟩
  · intro hal
    refine ⟨fun n => ?_, (hiff.2 hal).2⟩
    have hprefix : Machine.Along (step o) (Enrolls o) m₀ (events.take n) := by
      rw [← List.take_append_drop n events] at hal
      exact (Machine.along_append hal).1
    obtain ⟨r, hr, hagrees, hledger⟩ := Machine.inv_run_total
      (P := fun m log => Enrolled o m ∧
        ∀ u, refunds u log + (members m).count u ≤ deductions u log)
      (fun m log e hm (hok : Enrolls o m e) => by
        obtain ⟨m', out, hstep, hmoved, hm'⟩ := hok.step hm.1
        exact ⟨m', out, hstep, hm', hmoved.ledger hm.2⟩)
      (events.take n) m₀ [] ⟨hinit, fun u => by
        have : u ∉ members m₀ := fun hu => by
          have := hinit.items.mem_iff.2 hu
          obtain ⟨p, -, rfl⟩ := Option.map_eq_some_iff.1 hstart
          cases this
        simp [refunds, deductions, List.count_eq_zero_of_not_mem this]⟩ hprefix
    refine ⟨r, hr, hagrees.agrees, fun u => ?_⟩
    have := hledger u
    simp only [List.nil_append] at this
    omega

/-! ### Two sign-ups, and one user who pays twice -/

theorem membership_and_fees_agree_duel :
    ∃ m₀, onStartService duel 100 = some m₀ ∧
      (∀ n, ∃ r, (step duel).run m₀ (duelSignUps.take n) = some r ∧ MembershipAgrees r.1 ∧
        ∀ u, refunds u r.2 ≤ deductions u r.2) ∧
      Machine.Along (step duel) (FeeSettled duel) m₀ duelSignUps := by
  refine ⟨_, rfl, (membership_and_fees_agree_iff duel 100 _ rfl duelSignUps).2 ?_⟩
  refine Machine.along_cons rfl trivial (Machine.along_cons rfl ⟨rfl, by decide, by decide,
    by decide, fun h => absurd h (by decide)⟩ (Machine.along_cons rfl trivial
    (Machine.along_cons rfl ⟨rfl, by decide, by decide, by decide, fun _ => ⟨by decide, by decide,
      by unfold TablesServed; decide⟩⟩ trivial)))

/-- A user pays twice before the answers come: the second fee buys nothing
and is not paid back. A third one, when the match has begun, makes him a
member of the next group as well. -/
theorem second_fee_is_lost :
    ∃ m₀, onStartService duel 100 = some m₀ ∧
      ¬ Machine.Along (step duel) (FeeSettled duel) m₀
        [.matchFee 1 (some 100), .matchFee 1 (some 100),
          .signUpResult 1 (some 1) true (duelTables none) 100,
          .signUpResult 1 (some 1) true (duelTables (some 1)) 100] ∧
      ∃ r, (step duel).run m₀ (duelSignUps ++
          [.matchFee 1 (some 100), .signUpResult 1 (some 1) true (duelTables none) 102]) = some r ∧
        ¬ MembershipAgrees r.1 := by
  refine ⟨_, rfl, fun h => ?_, _, rfl, fun h => ?_⟩
  · have hsecond := (((h.2 _ _ rfl).2 _ _ rfl).2 _ _ rfl).1 _ _ rfl 1 (by decide)
    exact absurd hsecond (by decide)
  · exact absurd h.once (by decide)

end GameServer.MatchService
