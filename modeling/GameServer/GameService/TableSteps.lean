import GameServer.GameService.TableMoves
/-!
# GameService — what a table's steps are made of

One lemma for each function of the table says which moves it makes;
`step_moves` puts them together. A step is made of moves as long as
those who are given a seat come from elsewhere and the rest of the
server respects the seats (`Admissible`). What the table freezes goes
well where the score is there (`FreezeOk`); seats do not depend on it.
-/

namespace GameServer.GameService

open Function TableState

variable {opt : TableOption} {s s' : TableState} {user chairID : ℕ} {out : List TableOutput}
variable {ok : Prop}

/-! ## Small changes -/

theorem modifyUser_eq (s : TableState) (user : ℕ) (f : ServerUserItem → ServerUserItem) :
    s.modifyUser user f = s.modifyUser user fun _ => f (s.users user) := rfl

theorem moves_push {frames : List Frame} (h : leavingUsers frames = []) :
    Moves opt ok s (s.push frames) [] := by
  refine .control rfl rfl rfl rfl rfl ?_
  show leavingUsers (frames ++ s.stack) = _
  rw [leavingUsers_append, h, List.nil_append]

theorem moves_sameSeat (hinv : SeatInv opt s) {item : ServerUserItem}
    (heq : SameSeat (s.users user) item)
    (hfrozened : item.frozenedScore = (s.users user).frozenedScore) :
    Moves opt ok s (s.modifyUser user fun _ => item) [] :=
  .user (hinv.stays_of_sameSeat heq) hfrozened

theorem moves_setClientReady (hinv : SeatInv opt s) (clientReady : Bool) :
    Moves opt ok s (s.setClientReady user clientReady) [] :=
  moves_sameSeat hinv ⟨rfl, rfl, rfl, rfl, rfl⟩ rfl

theorem moves_setTrusteeUser (hinv : SeatInv opt s) :
    Moves opt ok s (s.setTrusteeUser user) [] :=
  moves_sameSeat hinv ⟨rfl, rfl, rfl, rfl, rfl⟩ rfl

theorem moves_setStatus (hinv : SeatInv opt s) (hc : s.table.tableUserItem chairID = some user)
    {userStatus : UserStatus} (hseated : Seated userStatus)
    (hre : userStatus = .offline → opt.serverType = gameGenrePrivate →
      Seated (s.users user).reUserStatus) :
    Moves opt ok s (s.setStatus user userStatus opt.tableID chairID) [] := by
  have hat := (hinv.chair chairID user hc).2
  exact .user (hinv.stays_at_chair hc (atChair_setUserStatus hat.userID hseated hre))
    (frozenedScore_setUserStatus _ _ _ _)

theorem moves_setOnline (hinv : SeatInv opt s) (hc : s.table.tableUserItem chairID = some user)
    {userStatus : UserStatus} (hseated : Seated userStatus) (hne : userStatus ≠ .offline) :
    Moves opt ok s (s.setStatus user userStatus opt.tableID chairID) [] :=
  moves_setStatus hinv hc hseated fun h => absurd h hne

theorem moves_concludeTable : Moves opt ok s (s.concludeTable opt) [] := by
  unfold concludeTable
  split_ifs
  · exact .control rfl rfl rfl rfl rfl rfl
  · exact .refl
  · exact .refl

/-! ## Freezing and releasing -/

theorem frozenedScore_putIn (u : ServerUserItem) (limit : Score) :
    (u.putIn limit).frozenedScore = u.frozenedScore := by
  unfold ServerUserItem.putIn
  simp only
  split_ifs <;> rfl

theorem frozenedScore_adjustPut (u : ServerUserItem) :
    u.adjustPut.frozenedScore = u.frozenedScore := by
  unfold ServerUserItem.adjustPut
  split_ifs
  · exact frozenedScore_putIn u _
  · exact frozenedScore_putIn u _
  · rfl

theorem frozenedScore_frozenedUserScore (u : ServerUserItem) (lScore : Score) :
    (u.frozenedUserScore lScore).1.frozenedScore =
      if u.covers lScore then u.frozenedScore + lScore else u.frozenedScore := by
  unfold ServerUserItem.frozenedUserScore
  split_ifs <;> rfl

theorem frozenedScore_writeUserScore (u : ServerUserItem) (w : ScoreWrite) :
    (u.writeUserScore w).1.frozenedScore = u.frozenedScore := by
  unfold ServerUserItem.writeUserScore
  split_ifs
  · rfl
  · exact frozenedScore_adjustPut _

theorem frozenedUserScore_snd (u : ServerUserItem) (lScore : Score) :
    (u.frozenedUserScore lScore).2 = u.covers lScore := by
  unfold ServerUserItem.frozenedUserScore
  split_ifs with h
  · exact h.symm
  · exact (Bool.eq_false_iff.2 h).symm

theorem unFrozenedUserScore_snd {u : ServerUserItem} (hid : u.userID ≠ 0) (lScore : Score) :
    (u.unFrozenedUserScore lScore).2 = true ↔ ¬ (lScore < 0 ∨ u.frozenedScore < lScore) := by
  unfold ServerUserItem.unFrozenedUserScore
  simp only [hid, false_or]
  split_ifs with h <;> simp [h]

theorem frozenedScore_unFrozenedUserScore (u : ServerUserItem) (lScore : Score) :
    (u.unFrozenedUserScore lScore).1.frozenedScore =
      if (u.unFrozenedUserScore lScore).2 then u.frozenedScore - lScore else u.frozenedScore := by
  unfold ServerUserItem.unFrozenedUserScore
  by_cases h : u.userID = 0 ∨ lScore < 0 ∨ u.frozenedScore < lScore
  · rw [if_pos h]
    rfl
  · rw [if_neg h]
    exact frozenedScore_adjustPut _

section

variable (hinv : SeatInv opt s) (hc : s.table.tableUserItem chairID = some user)
include hinv hc

/-- Freezing for a chair, with whatever else changes in the item. -/
theorem moves_freeze (hcan : ok → CanFreeze opt s chairID user) :
    Moves opt ok s (s.freeze opt chairID user).1 (s.freeze opt chairID user).2 := by
  unfold freeze
  split_ifs with hpos
  · simp only [frozenedUserScore_snd]
    refine .freeze hc hpos ?_ hcan rfl (frozenedScore_frozenedUserScore _ _)
    exact (hinv.chair chairID user hc).2.congr (sameSeat_frozenedUserScore _ _)
  · exact .refl

theorem moves_unFreeze {charges : List TableOutput}
    (hcharged : charges = [] ∨ opt.serviceScore > 0 ∧
      charges = [.charged user (min (s.table.frozenedScore chairID) opt.serviceScore)]) :
    Moves opt ok s (s.unFreeze chairID user).1 ((s.unFreeze chairID user).2 ++ charges) := by
  have hat := (hinv.chair chairID user hc).2
  exact .unFreeze hc (hat.congr (sameSeat_unFrozenedUserScore _ _))
    (unFrozenedUserScore_snd hat.userID _) (frozenedScore_unFrozenedUserScore _ _) hcharged

theorem moves_unFreezeSome :
    Moves opt ok s (s.unFreezeSome chairID user).1 (s.unFreezeSome chairID user).2 := by
  unfold unFreezeSome
  split_ifs
  · have := @moves_unFreeze opt s user chairID ok hinv hc [] (.inl rfl)
    rwa [List.append_nil] at this
  · exact .refl

end

/-- Releasing leaves the chairs and notes nothing at this one. -/
theorem unFreezeSome_table (s : TableState) (chairID user : ℕ) :
    (s.unFreezeSome chairID user).1.table.tableUserItem = s.table.tableUserItem ∧
      (s.unFreezeSome chairID user).1.table.frozenedScore chairID = 0 := by
  unfold unFreezeSome
  split_ifs with h
  · exact ⟨rfl, update_self ..⟩
  · exact ⟨rfl, not_not.1 h⟩

/-! ## Starting -/

theorem chair_of_getTableUserItem (h : s.getTableUserItem opt chairID = some user) :
    s.table.tableUserItem chairID = some user := by
  unfold getTableUserItem at h
  split_ifs at h
  exact h

/-- Where `StartGame` finds a user it may freeze for him. -/
theorem moves_startUser (hinv : SeatInv opt s)
    (hcan : ok → ∀ p, s.table.tableUserItem chairID = some p → CanFreeze opt s chairID p) :
    Moves opt ok s (s.startUser opt chairID).1 (s.startUser opt chairID).2 := by
  unfold startUser
  split
  · exact .refl
  · rename_i p hp
    have hc := chair_of_getTableUserItem hp
    have hfreeze := moves_freeze hinv hc fun h => hcan h p hc
    simp only
    split_ifs
    · refine hfreeze.behind (moves_setOnline (hfreeze.seats hinv) ?_ trivial nofun)
      unfold freeze
      split_ifs <;> exact hc
    · exact hfreeze

/-- A chair in `StartGame` leaves the other users and what is noted at
the other chairs. -/
theorem startUser_other (hinv : SeatInv opt s) {c p : ℕ} (hne : c ≠ chairID)
    (hc : s.table.tableUserItem c = some p) :
    (s.startUser opt chairID).1.users p = s.users p ∧
      (s.startUser opt chairID).1.table.frozenedScore c = s.table.frozenedScore c := by
  unfold startUser
  split
  · exact ⟨rfl, rfl⟩
  · rename_i q hq
    have hpq : p ≠ q := by
      rintro rfl
      exact hne (hinv.chair_unique hc (chair_of_getTableUserItem hq))
    have hfreeze : (s.freeze opt chairID q).1.users p = s.users p ∧
        (s.freeze opt chairID q).1.table.frozenedScore c = s.table.frozenedScore c := by
      unfold freeze
      split_ifs
      · exact ⟨update_of_ne hpq _ _, update_of_ne hne _ _⟩
      · exact ⟨rfl, rfl⟩
    simp only
    split_ifs
    · exact ⟨(update_of_ne hpq _ _).trans hfreeze.1, hfreeze.2⟩
    · exact hfreeze

theorem startUser_chairs (s : TableState) (chairID : ℕ) :
    (s.startUser opt chairID).1.table.tableUserItem = s.table.tableUserItem := by
  unfold startUser freeze
  split
  · rfl
  · simp only
    split_ifs <;> rfl

/-- The loop of `StartGame`. Each chair comes once, so what could be
frozen before the loop still can when its chair comes. -/
theorem moves_startUsers : ∀ (cs : List ℕ) (s : TableState), cs.Nodup → SeatInv opt s →
    (ok → ∀ c ∈ cs, ∀ p, s.table.tableUserItem c = some p → CanFreeze opt s c p) →
      Moves opt ok s (startUsers opt cs s).1 (startUsers opt cs s).2 := by
  intro cs
  induction cs with
  | nil => exact fun _ _ _ _ => .refl
  | cons c cs ih =>
    intro s hnodup hinv hcan
    obtain ⟨hnot, hnodup⟩ := List.nodup_cons.1 hnodup
    have hfirst := moves_startUser hinv fun h => hcan h c List.mem_cons_self
    refine hfirst.trans (ih _ hnodup (hfirst.seats hinv) fun h c' hc' p hp => ?_)
    rw [startUser_chairs] at hp
    have hne : c' ≠ c := by
      rintro rfl
      exact hnot hc'
    obtain ⟨husers, hfrozened⟩ := startUser_other hinv hne hp
    have := hcan h c' (List.mem_cons_of_mem c hc') p hp
    unfold CanFreeze at this ⊢
    rwa [husers, hfrozened]

/-- The chairs `StartGame` freezes for, if it does. -/
def StartOk (opt : TableOption) (s : TableState) : Prop :=
  s.table.drawStarted = false → s.table.gameStarted = false →
    ∀ c p, s.table.tableUserItem c = some p → CanFreeze opt s c p

theorem moves_startGame (hinv : SeatInv opt s) (hcan : ok → StartOk opt s) :
    Moves opt ok s (s.startGame opt).1 (s.startGame opt).2 := by
  -- the flags are set before the loop
  have hbegun : Moves opt ok s
      { s with
        table := { s.table with gameStarted := true, drawStarted := true, tableStarted := true } }
      [] := .control rfl rfl rfl rfl rfl rfl
  unfold startGame
  split_ifs with hdraw hgame
  · exact .refl
  · exact hbegun.before (moves_push rfl)
  · have hloop := moves_startUsers (List.range opt.chairCount) _ List.nodup_range
      (hbegun.seats hinv) fun h c _ p hp =>
        hcan h (Bool.eq_false_iff.2 hdraw) (Bool.eq_false_iff.2 hgame) c p hp
    exact hbegun.before (hloop.behind (moves_push rfl))

/-! ## Standing up -/

theorem modifyUser_modifyUser (s : TableState) (user : ℕ) (f g : ServerUserItem → ServerUserItem) :
    (s.modifyUser user f).modifyUser user g = s.modifyUser user fun u => g (f u) := by
  unfold modifyUser
  simp

theorem unFreezeSome_setChair (s : TableState) (chairID user c : ℕ) (o : Option ℕ) :
    (s.setChair c o).unFreezeSome chairID user =
      ((s.unFreezeSome chairID user).1.setChair c o, (s.unFreezeSome chairID user).2) := by
  unfold unFreezeSome
  split_ifs with h h' h' <;> first | rfl | exact absurd h h' | exact absurd h' h

theorem moves_standUpGo (hinv : SeatInv opt s) {tableUser : Option ℕ}
    (hc : tableUser = some user → s.table.tableUserItem chairID = some user)
    (userStatus : UserStatus) (initiative : Bool) :
    Moves opt ok s (s.standUpGo opt user chairID tableUser userStatus initiative).1
      (s.standUpGo opt user chairID tableUser userStatus initiative).2 := by
  unfold standUpGo
  split_ifs with hmatch htrustee hself
  · exact .refl
  · exact (moves_setTrusteeUser hinv).before (moves_push rfl)
  · have hrelease := @moves_unFreezeSome opt s user chairID ok hinv (hc hself)
    obtain ⟨hchairs, hzero⟩ := unFreezeSome_table s chairID user
    simp only [unFreezeSome_setChair]
    rw [← hchairs] at hc
    have hleave : Moves opt ok (s.unFreezeSome chairID user).1
        (((s.unFreezeSome chairID user).1.setChair chairID none).push
          [.standUpEnd user userStatus]) [] := .leave (hc hself) hzero
    have hcall : Moves opt ok _ ((((s.unFreezeSome chairID user).1.setChair chairID none).push
        [.standUpEnd user userStatus]).push [.sink]) [] := moves_push rfl
    exact hrelease.behind (hleave.before hcall)
  · exact .refl

theorem moves_performStandUpAction (hinv : SeatInv opt s) (initiative : Bool) :
    Moves opt ok s (s.performStandUpAction opt user initiative).1
      (s.performStandUpAction opt user initiative).2 := by
  unfold performStandUpAction
  simp only
  split_ifs with hlookon hmem hgame hmatch
  · rw [setClientReady, setStatus, modifyUser_modifyUser]
    exact .removeLookon hmem (frozenedScore_setUserStatus _ _ _ _)
  · exact .refl
  · exact (moves_setTrusteeUser hinv).before (moves_push rfl)
  · exact moves_push rfl
  · exact moves_standUpGo hinv chair_of_getTableUserItem _ _

/-- Who starts is decided by the users at the chairs. -/
theorem efficacyStartGame_congr (hchairs : s'.table.tableUserItem = s.table.tableUserItem)
    (hgame : s'.table.gameStarted = s.table.gameStarted)
    (husers : ∀ c p, s.table.tableUserItem c = some p → s'.users p = s.users p) (readyChairID : ℕ) :
    s'.efficacyStartGame opt readyChairID = s.efficacyStartGame opt readyChairID := by
  have hitem : ∀ c, s'.getTableUserItem opt c = s.getTableUserItem opt c := by
    intro c
    unfold getTableUserItem
    rw [hchairs]
  have hready : ∀ c, s'.chairReady opt readyChairID c = s.chairReady opt readyChairID c := by
    intro c
    unfold chairReady
    rw [hitem c]
    split
    · rfl
    · rename_i p hp
      rw [husers c p (chair_of_getTableUserItem hp)]
  unfold efficacyStartGame
  rw [hgame, getSitUserCount_congr hchairs]
  simp only [hready, hitem]

theorem concludeTable_parts (s : TableState) :
    (s.concludeTable opt).users = s.users ∧
      (s.concludeTable opt).table.tableUserItem = s.table.tableUserItem ∧
      (s.concludeTable opt).table.frozenedScore = s.table.frozenedScore ∧
      (s.concludeTable opt).table.gameStarted = s.table.gameStarted ∧
      (s.concludeTable opt).table.drawStarted = s.table.drawStarted := by
  unfold concludeTable
  split_ifs <;> exact ⟨rfl, rfl, rfl, rfl, rfl⟩

/-- Whether freezing goes well in `StartGame` is decided by the users at
the chairs. -/
theorem StartOk.congr (h : StartOk opt s) (hchairs : s'.table.tableUserItem = s.table.tableUserItem)
    (hfrozened : s'.table.frozenedScore = s.table.frozenedScore)
    (hgame : s'.table.gameStarted = s.table.gameStarted)
    (hdraw : s'.table.drawStarted = s.table.drawStarted)
    (husers : ∀ c p, s.table.tableUserItem c = some p → s'.users p = s.users p) :
    StartOk opt s' := by
  intro h₁ h₂ c p hc
  rw [hchairs] at hc
  have := h (by rw [← hdraw]; exact h₁) (by rw [← hgame]; exact h₂) c p hc
  unfold CanFreeze at this ⊢
  rwa [husers c p hc, hfrozened]

def leftItem (userStatus : UserStatus) (u : ServerUserItem) : ServerUserItem :=
  ({ u with clientReady := false } : ServerUserItem).setUserStatus
    (if userStatus = .offline then .null else .free) invalidTable invalidChair

theorem frozenedScore_leftItem (userStatus : UserStatus) (u : ServerUserItem) :
    (leftItem userStatus u).frozenedScore = u.frozenedScore :=
  frozenedScore_setUserStatus _ _ _ _

theorem standUpLeft_eq (s : TableState) (userStatus : UserStatus) :
    s.standUpLeft opt user userStatus =
      (recount opt (s.modifyUser user fun _ => leftItem userStatus (s.users user))).concludeTable
        opt := by
  unfold standUpLeft
  rw [setClientReady, setStatus, modifyUser_modifyUser]
  rfl

/-- A stand-up that ends leaves the others as they are. -/
theorem standUpLeft_parts (s : TableState) (userStatus : UserStatus) :
    (∀ p, p ≠ user → (s.standUpLeft opt user userStatus).users p = s.users p) ∧
      (s.standUpLeft opt user userStatus).table.tableUserItem = s.table.tableUserItem ∧
      (s.standUpLeft opt user userStatus).table.frozenedScore = s.table.frozenedScore ∧
      (s.standUpLeft opt user userStatus).table.gameStarted = s.table.gameStarted ∧
      (s.standUpLeft opt user userStatus).table.drawStarted = s.table.drawStarted := by
  rw [standUpLeft_eq]
  obtain ⟨husers, hrest⟩ := @concludeTable_parts opt
    (recount opt (s.modifyUser user fun _ => leftItem userStatus (s.users user)))
  refine ⟨fun p hne => ?_, hrest⟩
  rw [husers]
  exact update_of_ne hne _ _

/-- The end of a stand-up. The user who has left is at no chair, so those
who may start now are those who could before. -/
theorem moves_standUpEnd (hinv : SeatInv opt s) {userStatus : UserStatus} {stack : List Frame}
    (waits : s.stack = .standUpEnd user userStatus :: stack)
    (hstart : ok → s.efficacyStartGame opt invalidChair = true → StartOk opt s) :
    Moves opt ok s (({ s with stack } : TableState).standUpEnd opt user userStatus).1
      (({ s with stack } : TableState).standUpEnd opt user userStatus).2 := by
  have hleft : Moves opt ok s (({ s with stack } : TableState).standUpLeft opt user userStatus)
      [] := by
    have hend : Moves opt ok s (recount opt (({ s with stack } : TableState).modifyUser user
        fun _ => leftItem userStatus (s.users user))) [] :=
      .endLeave waits (frozenedScore_leftItem userStatus _)
    rw [standUpLeft_eq]
    exact hend.before moves_concludeTable
  obtain ⟨husers, hchairs, hfrozened, hgame, hdraw⟩ :=
    @standUpLeft_parts opt user ({ s with stack } : TableState) userStatus
  have hmem : user ∈ leavingUsers s.stack := by
    rw [waits, leavingUsers_standUpEnd]
    exact List.mem_cons_self
  obtain ⟨-, -, hchair⟩ := hinv.leaving user hmem
  -- so the test whether the others start reads what it read before
  have hseated : ∀ c p, s.table.tableUserItem c = some p →
      (({ s with stack } : TableState).standUpLeft opt user userStatus).users p = s.users p := by
    intro c p hc
    refine husers p ?_
    rintro rfl
    exact hchair c hc
  unfold standUpEnd
  simp only
  split_ifs with hstarts
  · rw [efficacyStartGame_congr hchairs hgame hseated] at hstarts
    refine hleft.before ((moves_startGame (hleft.seats hinv) fun h => ?_).behind (moves_push rfl))
    exact (hstart h hstarts).congr hchairs hfrozened hgame hdraw hseated
  · exact hleft.before (moves_push rfl)

/-! ## Sitting down and looking on -/

def sitItem (opt : TableOption) (clientReady : Bool) (userStatus : UserStatus) (chairID : ℕ)
    (u : ServerUserItem) : ServerUserItem :=
  ({ u with clientReady } : ServerUserItem).setUserStatus userStatus opt.tableID chairID

theorem frozenedScore_sitItem (clientReady : Bool) (userStatus : UserStatus) (u : ServerUserItem) :
    (sitItem opt clientReady userStatus chairID u).frozenedScore = u.frozenedScore :=
  frozenedScore_setUserStatus _ _ _ _

theorem covers_sitItem (clientReady : Bool) (userStatus : UserStatus) (u : ServerUserItem)
    (lScore : Score) :
    (sitItem opt clientReady userStatus chairID u).covers lScore = u.covers lScore := by
  unfold sitItem ServerUserItem.setUserStatus
  split_ifs <;> rfl

theorem atChair_sitItem {u : ServerUserItem} (hid : u.userID ≠ 0) (clientReady : Bool)
    {userStatus : UserStatus} (hseated : Seated userStatus) (hne : userStatus ≠ .offline) :
    AtChair opt (sitItem opt clientReady userStatus chairID u) chairID := by
  have hid : ({ u with clientReady } : ServerUserItem).userID ≠ 0 := hid
  exact atChair_setUserStatus hid hseated fun h => absurd h hne

theorem seated_sitStatus : Seated (sitStatus opt) ∧ sitStatus opt ≠ .offline := by
  unfold sitStatus
  split_ifs <;> exact ⟨trivial, nofun⟩

/-- Whether `PerformSitDownAction` goes through with it. -/
def SitGranted (opt : TableOption) (s : TableState) (chairID : ℕ) (refused : Bool) : Prop :=
  ¬ (refused = true ∨ (s.table.gameStarted = true ∧ opt.dynamicJoin = false) ∨
    (s.getTableUserItem opt chairID).isSome = true)

section

variable (hinv : SeatInv opt s) (hlt : chairID < opt.chairCount) (hempty : s.table.tableUserItem chairID = none)
include hinv hlt hempty

theorem moves_sit (helse : Elsewhere opt s user) (clientReady : Bool) {userStatus : UserStatus}
    (hseated : Seated userStatus) (hne : userStatus ≠ .offline) :
    Moves opt ok s (recount opt ((s.setChair chairID (some user)).modifyUser user
      fun _ => sitItem opt clientReady userStatus chairID (s.users user))) [] :=
  .sit hlt hempty (hinv.away helse.2) (atChair_sitItem helse.1 clientReady hseated hne)
    (frozenedScore_sitItem clientReady userStatus _)

/-- Sitting down in a game that runs: the user sits down first, and then
the service score is frozen. -/
theorem moves_sitFreeze (helse : Elsewhere opt s user) (hpos : opt.serviceScore > 0)
    (hcan : ok → CanFreeze opt s chairID user) :
    Moves opt ok s
      (recount opt (((s.setChair chairID (some user)).setFrozened chairID
        opt.serviceScore).modifyUser user fun _ => sitItem opt false .playing chairID
          ((s.users user).frozenedUserScore opt.serviceScore).1))
      (if (s.users user).covers opt.serviceScore then [.frozened user opt.serviceScore]
        else []) := by
  have hsit := @moves_sit opt s user chairID ok hinv hlt hempty helse false .playing trivial nofun
  generalize hseated : recount opt ((s.setChair chairID (some user)).modifyUser user fun _ =>
    sitItem opt false .playing chairID (s.users user)) = seated at hsit
  have huser : seated.users user = sitItem opt false .playing chairID (s.users user) := by
    rw [← hseated]
    exact update_self ..
  have hchair : seated.table.tableUserItem chairID = some user := by
    rw [← hseated]
    exact update_self ..
  have hcovers : (seated.users user).covers opt.serviceScore =
      (s.users user).covers opt.serviceScore := by
    rw [huser, covers_sitItem]
  have hfrozened : (seated.users user).frozenedScore = (s.users user).frozenedScore := by
    rw [huser, frozenedScore_sitItem]
  have hid : ((s.users user).frozenedUserScore opt.serviceScore).1.userID ≠ 0 := by
    rw [(sameSeat_frozenedUserScore _ _).userID]
    exact helse.1
  have hfreeze : Moves opt ok seated
      ((seated.setFrozened chairID opt.serviceScore).modifyUser user fun _ =>
        sitItem opt false .playing chairID ((s.users user).frozenedUserScore opt.serviceScore).1)
      (if (s.users user).covers opt.serviceScore then [.frozened user opt.serviceScore]
        else []) := by
    refine .freeze hchair hpos (atChair_sitItem hid false trivial nofun) (fun h => ?_)
      hcovers.symm ?_
    · unfold CanFreeze
      rw [hcovers, hfrozened, ← hseated]
      exact hcan h
    · rw [frozenedScore_sitItem, frozenedScore_frozenedUserScore, hfrozened]
  -- the count does not see the order of the two
  have hsame : (seated.setFrozened chairID opt.serviceScore).modifyUser user (fun _ =>
      sitItem opt false .playing chairID ((s.users user).frozenedUserScore opt.serviceScore).1) =
      recount opt (((s.setChair chairID (some user)).setFrozened chairID
        opt.serviceScore).modifyUser user fun _ => sitItem opt false .playing chairID
          ((s.users user).frozenedUserScore opt.serviceScore).1) := by
    rw [← hseated]
    unfold recount modifyUser setFrozened
    rw [update_idem]
    rfl
  rw [← hsame]
  exact hsit.before hfreeze

/-- What `PerformSitDownAction` does when it goes through with it. -/
theorem moves_sitDown (helse : Elsewhere opt s user)
    (hcan : ok → s.table.gameStarted = true → opt.startMode = .timeControl →
      CanFreeze opt s chairID user) :
    Moves opt ok s (((s.setChair chairID (some user)).sitDown opt chairID user).1.recount opt)
      ((s.setChair chairID (some user)).sitDown opt chairID user).2 := by
  unfold sitDown
  split_ifs with hrun
  · rw [setClientReady, setStatus, modifyUser_modifyUser]
    exact moves_sit hinv hlt hempty helse _ seated_sitStatus.1 seated_sitStatus.2
  · obtain ⟨hgame, hmode⟩ := not_or.1 hrun
    unfold freeze
    split_ifs with hpos
    · simp only [frozenedUserScore_snd, setClientReady, setStatus, modifyUser_modifyUser]
      exact moves_sitFreeze hinv hlt hempty helse hpos fun h =>
        hcan h (Bool.not_eq_false _ ▸ hgame) (not_not.1 hmode)
    · simp only [setClientReady, setStatus, modifyUser_modifyUser]
      exact moves_sit hinv hlt hempty helse false trivial nofun

end

/-- `PerformSitDownAction`, the user coming from elsewhere. -/
theorem moves_performSitDownAction (hinv : SeatInv opt s) {refused : Bool}
    (hsit : SitGranted opt s chairID refused → chairID < opt.chairCount ∧ Elsewhere opt s user)
    (hcan : ok → SitGranted opt s chairID refused → s.table.gameStarted = true →
      opt.startMode = .timeControl → CanFreeze opt s chairID user)
    (h : s.performSitDownAction opt chairID user refused = some (s', out)) :
    Moves opt ok s s' out := by
  unfold performSitDownAction at h
  split_ifs at h with hrefused hmax
  · cases h
    exact .refl
  · obtain ⟨hlt, helse⟩ := hsit hrefused
    -- only a chair of the table has been tested
    have hempty : s.table.tableUserItem chairID = none := by
      obtain ⟨-, hchair⟩ := not_or.1 (not_or.1 hrefused).2
      rwa [getTableUserItem, if_pos hlt, Bool.not_eq_true, Option.isSome_eq_false_iff,
        Option.isNone_iff_eq_none] at hchair
    cases h
    exact (moves_sitDown hinv hlt hempty helse fun h => hcan h hrefused).behind (moves_push rfl)

theorem moves_addLookon (hinv : SeatInv opt s) (helse : Elsewhere opt s user) :
    Moves opt ok s (s.addLookon opt chairID user) [] := by
  have hitem : AtLookon opt (sitItem opt true .lookon chairID (s.users user)) := by
    unfold sitItem ServerUserItem.setUserStatus
    rw [if_neg helse.1]
    exact ⟨helse.1, rfl, rfl⟩
  simp only [addLookon, setClientReady, setStatus, modifyUser_modifyUser]
  exact .addLookon (hinv.away helse.2) hitem (frozenedScore_sitItem true .lookon _)

theorem moves_performLookonAction (hinv : SeatInv opt s) {refused : Bool}
    (helse : refused = false → Elsewhere opt s user) :
    Moves opt ok s (s.performLookonAction opt chairID user refused) [] := by
  unfold performLookonAction
  split_ifs with hrefused
  · exact .refl
  · exact (moves_addLookon hinv (helse (Bool.eq_false_iff.2 hrefused))).before (moves_push rfl)

theorem moves_performRecoerLookOn (hinv : SeatInv opt s)
    (helse : chairID ≠ invalidChair → Elsewhere opt s user) :
    Moves opt ok s (s.performRecoerLookOn opt chairID user) [] := by
  unfold performRecoerLookOn
  split_ifs with hchair
  · exact .refl
  · exact moves_addLookon hinv (helse hchair)

/-! ## Concluding -/

theorem moves_concludeGame (gameStatus : UInt8) :
    Moves opt ok s (s.concludeGame gameStatus) [] := by
  unfold concludeGame
  split_ifs with hgame
  · exact .refl
  · refine .control rfl rfl rfl rfl rfl ?_
    show leavingUsers (((if _ then [] else [.concludeUsers 0]) ++ [.sink, .afterConclude]) ++
      s.stack) = _
    split_ifs <;> rfl

section

variable (hinv : SeatInv opt s)
include hinv

/-- One chair of the first loop: the score is released, and then the user
is stood up or sits on. -/
theorem moves_concludeUser :
    Moves opt ok s (s.concludeUser opt chairID).1 (s.concludeUser opt chairID).2 := by
  unfold concludeUser
  by_cases hlt : chairID < opt.chairCount
  · have hpush : Moves opt ok s (s.push [.concludeUsers (chairID + 1)]) [] := moves_push rfl
    rw [if_pos hlt]
    simp only
    split
    · exact hpush
    · rename_i p hc
      have hrelease := hpush.before (@moves_unFreezeSome opt _ p chairID ok (hpush.seats hinv) hc)
      have hc' := hc
      rw [← (unFreezeSome_table _ chairID p).1] at hc'
      have hinv' := hrelease.seats hinv
      split_ifs
      · have hnote := hrelease.behind (moves_push (rfl : leavingUsers [.concludeReStatus p] = []))
        exact hnote.trans (moves_performStandUpAction (hnote.seats hinv) false)
      · exact hrelease.trans (moves_performStandUpAction hinv' false)
      · have hready := hrelease.behind (@moves_setClientReady opt _ p ok hinv' true)
        exact hready.behind (moves_setOnline (hready.seats hinv) hc' trivial nofun)
      · exact hrelease.behind (moves_setOnline hinv' hc' trivial nofun)
  · rw [if_neg hlt]
    exact .refl

theorem moves_kickUser (leaves : Bool) :
    Moves opt ok s (s.kickUser opt chairID leaves).1 (s.kickUser opt chairID leaves).2 := by
  unfold kickUser
  by_cases hlt : chairID < opt.chairCount
  · have hpush : Moves opt ok s (s.push [.kickUsers (chairID + 1)]) [] := moves_push rfl
    rw [if_pos hlt]
    simp only
    split
    · exact hpush
    · split_ifs
      · refine hpush.before (.before (moves_push rfl) (moves_performStandUpAction ?_ false))
        exact (moves_push rfl : Moves opt True _ _ []).seats (hpush.seats hinv)
      · exact hpush.before (moves_performStandUpAction (hpush.seats hinv) false)
      · exact hpush
  · rw [if_neg hlt]
    exact moves_concludeTable

/-! ## Scores -/

theorem moves_writeItem (w : ScoreWrite) :
    Moves opt ok s (s.modifyUser user fun u => (u.writeUserScore w).1) [] := by
  rw [modifyUser_eq]
  exact moves_sameSeat hinv (sameSeat_writeUserScore (s.users user) w)
    (frozenedScore_writeUserScore (s.users user) w)

theorem moves_writeUserScore (info : ScoreInfo) (buckle : Bool) (playTimeCount : UInt32) :
    Moves opt ok s (s.writeUserScore opt chairID info buckle playTimeCount).1
      (s.writeUserScore opt chairID info buckle playTimeCount).2 := by
  unfold writeUserScore
  split
  · exact .refl
  · rename_i p hp
    have hc := chair_of_getTableUserItem hp
    by_cases hcharged : opt.serviceScore > 0 ∧ opt.serverType = gameGenreGold ∧ buckle = true
    · simp only [if_pos hcharged]
      have hrelease := @moves_unFreeze opt s p chairID ok hinv hc _ (.inr ⟨hcharged.1, rfl⟩)
      exact hrelease.behind (moves_writeItem (hrelease.seats hinv) _)
    · simp only [if_neg hcharged, List.append_nil]
      exact moves_writeItem hinv _

/-! ## Losing and finding the connection -/

theorem moves_onEventUserOffLine :
    Moves opt ok s (s.onEventUserOffLine opt user).1 (s.onEventUserOffLine opt user).2 := by
  have hpush : Moves opt ok s (s.push [.offLineEnd user]) [] := moves_push rfl
  have hleave := hpush.before
    (@moves_performStandUpAction opt _ user ok (hpush.seats hinv) true)
  unfold onEventUserOffLine
  by_cases hlookon : (s.users user).userStatus = .lookon
  · rw [if_pos hlookon]
    exact hleave
  rw [if_neg hlookon]
  by_cases hself : s.getTableUserItem opt (s.users user).chairID = some user
  swap
  · rw [if_pos hself]
    exact .refl
  rw [if_neg (not_not.2 hself)]
  have hc := chair_of_getTableUserItem hself
  have hat := (hinv.chair _ user hc).2
  split_ifs with hprivate hplaying hmatch hmatch
  · -- a private room notes the status the user comes back to
    have hnoted : AtChair opt ({ s.users user with reUserStatus := (s.users user).userStatus }
        : ServerUserItem) (s.users user).chairID :=
      ⟨hat.userID, hat.tableID, rfl, hat.status, fun _ _ => hat.status⟩
    have hnote : Moves opt ok s (s.modifyUser user fun u =>
        { u with reUserStatus := u.userStatus }) [] :=
      .user (hinv.stays_at_chair hc hnoted) rfl
    have hoff := @moves_setStatus opt _ user _ ok (hnote.seats hinv) hc .offline trivial
      fun _ _ => by
        rw [modifyUser_eq, users_modifyUser, if_pos rfl]
        exact hat.status
    exact hnote.before (hoff.before (moves_push rfl))
  all_goals try exact hleave
  all_goals
    have hready := @moves_setClientReady opt s user ok hinv false
    have hoff := hready.before (@moves_setStatus opt _ user _ ok (hready.seats hinv) hc .offline
      trivial fun _ h => absurd h hprivate)
  · exact hoff
  · exact hoff.before ((moves_setTrusteeUser (hoff.seats hinv)).before (moves_push rfl))
  · exact hoff.before (moves_push rfl)

theorem moves_offLineEnd
    (haway : ¬ (opt.serverType = gameGenreMatch ∧ (s.users user).trusteeUser = true) →
      (s.users user).tableID ≠ opt.tableID) : Moves opt ok s (s.offLineEnd opt user) [] := by
  unfold offLineEnd
  split_ifs with htrustee
  · exact .refl
  · exact .user ((hinv.away (haway htrustee)).stays _) (frozenedScore_setUserStatus _ _ _ _)

theorem moves_switchUserItemConnect : Moves opt ok s (s.switchUserItemConnect opt user) [] := by
  unfold switchUserItemConnect
  by_cases hoffline : (s.users user).userStatus = .offline
  swap
  · rw [if_neg hoffline]
    exact .refl
  rw [if_pos hoffline, setStatus, modifyUser_eq]
  refine .user ⟨fun c hc => ?_, fun hmem => ?_, fun hmem => ?_⟩ (frozenedScore_setUserStatus _ _ _ _)
  · have hat := (hinv.chair c user hc).2
    rw [hat.tableID, hat.chairID]
    -- at a chair of a private room the status to come back to is a seated one
    split_ifs with hprivate
    · exact atChair_setUserStatus hat.userID (hat.reStatus hoffline hprivate) fun _ =>
        hat.reStatus hoffline
    · exact atChair_setUserStatus hat.userID trivial nofun
  · have hlookon := (hinv.lookon user hmem).status
    rw [hoffline] at hlookon
    cases hlookon
  · have htable := (hinv.leaving user hmem).1
    unfold ServerUserItem.setUserStatus
    split_ifs <;> exact htable

end

/-! ## Steps -/

/-- **What the seats rely on.** A user who is given a chair or looks on
does not name this table yet, and the chair is one of the table's; a
user who went offline has left when `OnEventUserOffLine` goes on; and
the rest of the server leaves users where they are. -/
def Admissible (opt : TableOption) (s : TableState) : TableEvent → Prop
  | .call (.performSitDownAction chairID user refused) =>
      s.callable = true → SitGranted opt s chairID refused →
        chairID < opt.chairCount ∧ Elsewhere opt s user
  | .call (.performLookonAction _ user refused) =>
      s.callable = true → refused = false → Elsewhere opt s user
  | .call (.performRecoerLookOn chairID user) =>
      s.callable = true → chairID ≠ invalidChair → Elsewhere opt s user
  | .call _ => True
  | .resume answer =>
      match s.stack with
      | .kickLookon _ user :: _ =>
          (s.users user).androidUser = false → answer = false → Elsewhere opt s user
      | .offLineEnd user :: _ =>
          ¬ (opt.serverType = gameGenreMatch ∧ (s.users user).trusteeUser = true) →
            (s.users user).tableID ≠ opt.tableID
      | _ => True
  | .outside user item => Stays opt s user item

/-- **What freezing relies on.** Where the table freezes, the service
score can be frozen; and the rest of the server leaves what is frozen
for a chair. -/
def FreezeOk (opt : TableOption) (s : TableState) : TableEvent → Prop
  | .call .startGame => s.callable = true → StartOk opt s
  | .call (.performSitDownAction chairID user refused) =>
      s.callable = true → SitGranted opt s chairID refused → s.table.gameStarted = true →
        opt.startMode = .timeControl → CanFreeze opt s chairID user
  | .call _ => True
  | .resume _ =>
      match s.stack with
      | .standUpEnd _ _ :: _ => s.efficacyStartGame opt invalidChair = true → StartOk opt s
      | _ => True
  | .outside user item => CoversChair s user item

theorem moves_of_some {r : TableState × List TableOutput} (h : some r = some (s', out))
    (hmoves : Moves opt ok s r.1 r.2) : Moves opt ok s s' out := by
  rw [Option.some.inj h] at hmoves
  exact hmoves

theorem moves_exec (hinv : SeatInv opt s) {call : TableCall} (hcall : s.callable = true)
    (hadm : Admissible opt s (.call call)) (h : s.exec opt call = some (s', out)) :
    Moves opt (FreezeOk opt s (.call call)) s s' out := by
  cases call with
  | performSitDownAction chairID user refused =>
    exact moves_performSitDownAction hinv (hadm hcall) (fun hok => hok hcall) h
  | startGame => exact moves_of_some h (moves_startGame hinv fun hok => hok hcall)
  | concludeGame gameStatus => exact moves_of_some h (moves_concludeGame gameStatus)
  | writeUserScore chairID info buckle playTimeCount =>
    exact moves_of_some h (moves_writeUserScore hinv info buckle playTimeCount)
  | performLookonAction chairID user refused =>
    exact moves_of_some h (moves_performLookonAction hinv (hadm hcall))
  | performRecoerLookOn chairID user =>
    exact moves_of_some h (moves_performRecoerLookOn hinv (hadm hcall))
  | performStandUpAction user initiative =>
    exact moves_of_some h (moves_performStandUpAction hinv initiative)
  | onEventUserOffLine user => exact moves_of_some h (moves_onEventUserOffLine hinv)
  | switchUserItemConnect user => exact moves_of_some h (moves_switchUserItemConnect hinv)

/-- A frame is taken from the stack. Only a stand-up's counts as
leaving. -/
theorem moves_pop {frame : Frame} {stack : List Frame} (hstack : s.stack = frame :: stack)
    (hleaving : leavingUsers [frame] = []) :
    Moves opt ok s ({ s with stack } : TableState) [] := by
  refine .control rfl rfl rfl rfl rfl ?_
  rw [hstack, ← List.singleton_append, leavingUsers_append, hleaving, List.nil_append]

theorem moves_reStatus (hinv : SeatInv opt s) :
    Moves opt ok s (s.modifyUser user fun u => { u with reUserStatus := .sit }) [] := by
  refine .user ⟨fun c hc => ?_, fun hmem => ?_, fun hmem => (hinv.leaving user hmem).1⟩ rfl
  · have hat := (hinv.chair c user hc).2
    exact ⟨hat.userID, hat.tableID, hat.chairID, hat.status, fun _ _ => trivial⟩
  · have hat := hinv.lookon user hmem
    exact ⟨hat.userID, hat.tableID, hat.status⟩

theorem moves_goOn (hinv : SeatInv opt s) {frame : Frame} {stack : List Frame} {answer : Bool}
    (hstack : s.stack = frame :: stack) (hadm : Admissible opt s (.resume answer))
    (h : ({ s with stack } : TableState).goOn opt answer frame = some (s', out)) :
    Moves opt (FreezeOk opt s (.resume answer)) s s' out := by
  simp only [Admissible, hstack] at hadm
  have hpop := @moves_pop opt s (FreezeOk opt s (.resume answer)) frame stack hstack
  cases frame with
  | standUpEnd user userStatus =>
    refine moves_of_some h (moves_standUpEnd hinv hstack fun hok => ?_)
    simpa only [FreezeOk, hstack] using hok
  | sink => exact moves_of_some h (hpop rfl)
  | concludeUsers chairID =>
    exact moves_of_some h ((hpop rfl).before (moves_concludeUser ((hpop rfl).seats hinv)))
  | concludeReStatus user =>
    exact moves_of_some h ((hpop rfl).before (moves_reStatus ((hpop rfl).seats hinv)))
  | afterConclude =>
    refine moves_of_some h ((hpop rfl).before ?_)
    split_ifs
    · exact moves_concludeTable
    · exact moves_push rfl
  | kickUsers chairID =>
    exact moves_of_some h ((hpop rfl).before (moves_kickUser ((hpop rfl).seats hinv) answer))
  | kickLookon chairID user =>
    refine moves_of_some h ((hpop rfl).before ?_)
    split_ifs with handroid
    · exact .refl
    · exact moves_performLookonAction ((hpop rfl).seats hinv)
        (hadm (Bool.eq_false_iff.2 handroid))
  | standUpLeave user chairID tableUser userStatus initiative =>
    simp only [goOn] at h
    split_ifs at h with hmax hself
    · exact moves_of_some h (hpop rfl)
    · exact moves_of_some h ((hpop rfl).before
        (moves_standUpGo ((hpop rfl).seats hinv) (fun _ => not_not.1 hself) _ _))
  | offLineEnd user =>
    exact moves_of_some h ((hpop rfl).before (moves_offLineEnd ((hpop rfl).seats hinv) hadm))

/-- **Every step is made of moves.** -/
theorem step_moves (hinv : SeatInv opt s) {event : TableEvent} (hadm : Admissible opt s event)
    (h : step opt s event = some (s', out)) : Moves opt (FreezeOk opt s event) s s' out := by
  cases event with
  | call call =>
    simp only [step] at h
    split_ifs at h with hcall
    · exact moves_exec hinv hcall hadm h
    · cases h
      exact .refl
  | resume answer =>
    simp only [step] at h
    split at h
    · cases h
      exact .refl
    · rename_i frame stack hstack
      exact moves_goOn hinv hstack hadm h
  | outside user item =>
    cases h
    exact .outside hadm fun hok => hok

end GameServer.GameService
