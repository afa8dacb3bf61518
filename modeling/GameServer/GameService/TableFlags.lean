import GameServer.GameService.TableSteps
import GameServer.GameService.Model.DismissGame
import Mathlib.Order.WithBot
/-!
# GameService — flags and who plays

`ConcludeGame` clears the flag of the game and only then goes from chair
to chair, standing up users, and what it calls may start the next game.
So the users who play are told by the flag and by the chair the innermost
`ConcludeGame` has reached (`Covered`): where no game runs, who plays sits
at a chair that it comes to yet. Behind its loop nobody does.
-/

namespace GameServer.GameService

open Function TableState

variable {opt : TableOption} {s s' : TableState} {user chairID : ℕ} {out : List TableOutput}
variable {item u : ServerUserItem} {stack : List Frame}

/-! ## Flags -/

/-- A hand is part of a game, and a game of a table that has started. -/
structure FlagChain (s : TableState) : Prop where
  draw : s.table.drawStarted = true → s.table.gameStarted = true
  game : s.table.gameStarted = true → s.table.tableStarted = true

/-- The chair that the innermost `ConcludeGame` on the stack has reached,
which is behind all chairs when its first loop is over. -/
def reached : List Frame → Option (WithTop ℕ)
  | [] => none
  | .concludeUsers c :: _ => some (WithTop.some c)
  | .afterConclude :: _ => some ⊤
  | .kickUsers _ :: _ => some ⊤
  | _ :: stack => reached stack

/-- The user plays, or will when he finds the connection. -/
def Busy (opt : TableOption) (u : ServerUserItem) : Prop :=
  u.userStatus = .playing ∨
    u.userStatus = .offline ∧ (opt.serverType = gameGenrePrivate → u.reUserStatus = .playing)

/-- **Who plays where no game runs** sits at a chair that `ConcludeGame`
has not reached, and so does who is off line while it runs. -/
structure Covered (opt : TableOption) (s : TableState) : Prop where
  busy : s.table.gameStarted = false → ∀ c p, s.table.tableUserItem c = some p →
    Busy opt (s.users p) → ∃ k ∈ reached s.stack, k ≤ WithTop.some c
  offline : s.table.gameStarted = false → ∀ c p, s.table.tableUserItem c = some p →
    (s.users p).userStatus = .offline → ∀ k ∈ reached s.stack, k ≤ WithTop.some c

theorem Covered.of_gameStarted (h : s.table.gameStarted = true) : Covered opt s :=
  ⟨fun hgame => absurd (h.symm.trans hgame) (by decide),
    fun hgame => absurd (h.symm.trans hgame) (by decide)⟩

/-! ## What starts nothing -/

/-- A change that starts no game and ends none. -/
structure SameFlags (s s' : TableState) : Prop where
  game : s'.table.gameStarted = s.table.gameStarted
  draw : s'.table.drawStarted = s.table.drawStarted
  table : s'.table.tableStarted = s.table.tableStarted ∨ s.table.gameStarted = false

/-- A change that moreover makes nobody play or go off line. -/
structure Calm (opt : TableOption) (s s' : TableState) : Prop extends SameFlags s s' where
  stack : reached s'.stack = reached s.stack
  busy : ∀ c p, s'.table.tableUserItem c = some p → Busy opt (s'.users p) →
    s.table.tableUserItem c = some p ∧ Busy opt (s.users p)
  offline : ∀ c p, s'.table.tableUserItem c = some p → (s'.users p).userStatus = .offline →
    s.table.tableUserItem c = some p ∧ (s.users p).userStatus = .offline

theorem SameFlags.refl (s : TableState) : SameFlags s s := ⟨rfl, rfl, .inl rfl⟩

theorem SameFlags.trans {s'' : TableState} (h : SameFlags s s') (h' : SameFlags s' s'') :
    SameFlags s s'' where
  game := h'.game.trans h.game
  draw := h'.draw.trans h.draw
  table := by
    rcases h'.table with htable | hgame
    · rcases h.table with htable' | hgame
      · exact .inl (htable.trans htable')
      · exact .inr hgame
    · exact .inr (h.game.symm.trans hgame)

theorem Calm.refl (s : TableState) : Calm opt s s :=
  ⟨.refl s, rfl, fun _ _ hc hb => ⟨hc, hb⟩, fun _ _ hc ho => ⟨hc, ho⟩⟩

theorem Calm.trans {s'' : TableState} (h : Calm opt s s') (h' : Calm opt s' s'') :
    Calm opt s s'' where
  toSameFlags := h.toSameFlags.trans h'.toSameFlags
  stack := h'.stack.trans h.stack
  busy c p hc hb := by
    obtain ⟨hc, hb⟩ := h'.busy c p hc hb
    exact h.busy c p hc hb
  offline c p hc ho := by
    obtain ⟨hc, ho⟩ := h'.offline c p hc ho
    exact h.offline c p hc ho

theorem FlagChain.same (h : FlagChain s) (hsame : SameFlags s s') : FlagChain s' where
  draw hdraw := by
    rw [hsame.draw] at hdraw
    rw [hsame.game]
    exact h.draw hdraw
  game hgame := by
    rw [hsame.game] at hgame
    rcases hsame.table with htable | hover
    · rw [htable]
      exact h.game hgame
    · exact absurd (hgame.symm.trans hover) (by decide)

theorem Covered.calm (h : Covered opt s) (hcalm : Calm opt s s') : Covered opt s' where
  busy hgame c p hc hb := by
    obtain ⟨hc, hb⟩ := hcalm.busy c p hc hb
    rw [hcalm.stack]
    exact h.busy (hcalm.game.symm.trans hgame) c p hc hb
  offline hgame c p hc ho := by
    obtain ⟨hc, ho⟩ := hcalm.offline c p hc ho
    rw [hcalm.stack]
    exact h.offline (hcalm.game.symm.trans hgame) c p hc ho

theorem reached_append (frames stack : List Frame) :
    reached (frames ++ stack) = (reached frames).or (reached stack) := by
  induction frames with
  | nil => rfl
  | cons frame frames ih => cases frame <;> first | rfl | exact ih

theorem calm_push {frames : List Frame} (h : reached frames = none) :
    Calm opt s (s.push frames) := by
  refine ⟨⟨rfl, rfl, .inl rfl⟩, ?_, fun _ _ hc hb => ⟨hc, hb⟩, fun _ _ hc ho => ⟨hc, ho⟩⟩
  show reached (frames ++ s.stack) = _
  rw [reached_append, h, Option.none_or]

theorem calm_modifyUser (hb : Busy opt item → Busy opt (s.users user))
    (ho : item.userStatus = .offline → (s.users user).userStatus = .offline) :
    Calm opt s (s.modifyUser user fun _ => item) := by
  refine ⟨⟨rfl, rfl, .inl rfl⟩, rfl, fun c p hc hbusy => ⟨hc, ?_⟩, fun c p hc hoff => ⟨hc, ?_⟩⟩
  · rw [users_modifyUser] at hbusy
    split_ifs at hbusy with hp
    · exact hp ▸ hb hbusy
    · exact hbusy
  · rw [users_modifyUser] at hoff
    split_ifs at hoff with hp
    · exact hp ▸ ho hoff
    · exact hoff

theorem Busy.congr {u' : ServerUserItem} (h : SameSeat u u') (hb : Busy opt u') : Busy opt u := by
  rw [Busy, h.status, h.reStatus] at hb
  exact hb

theorem calm_sameSeat (h : SameSeat (s.users user) item) :
    Calm opt s (s.modifyUser user fun _ => item) :=
  calm_modifyUser (Busy.congr h) fun ho => h.status.symm.trans ho

/-- A status that is not one of a game. -/
def Idle (st : UserStatus) : Prop := st ≠ .playing ∧ st ≠ .offline

instance (st : UserStatus) : Decidable (Idle st) := inferInstanceAs (Decidable (_ ∧ _))

theorem Idle.not_busy (h : Idle u.userStatus) : ¬ Busy opt u := by
  rintro (hplaying | ⟨hoffline, -⟩)
  · exact h.1 hplaying
  · exact h.2 hoffline

theorem idle_setUserStatus (hid : u.userID ≠ 0) {st : UserStatus}
    (h : Idle st) (tableID chairID : ℕ) : Idle (u.setUserStatus st tableID chairID).userStatus := by
  rw [ServerUserItem.setUserStatus, if_neg hid]
  exact h

theorem calm_setStatus (s : TableState) (user : ℕ) {st : UserStatus} (h : Idle st)
    (tableID chairID : ℕ) : Calm opt s (s.setStatus user st tableID chairID) := by
  rw [setStatus, modifyUser_eq]
  -- an item without a user keeps its status
  by_cases hid : (s.users user).userID = 0
  · rw [ServerUserItem.setUserStatus, if_pos hid]
    exact calm_sameSeat ⟨rfl, rfl, rfl, rfl, rfl⟩
  · have hidle := idle_setUserStatus hid h tableID chairID
    exact calm_modifyUser (fun hb => absurd hb hidle.not_busy) fun ho => absurd ho hidle.2

theorem calm_setClientReady (s : TableState) (user : ℕ) (clientReady : Bool) :
    Calm opt s (s.setClientReady user clientReady) := calm_sameSeat ⟨rfl, rfl, rfl, rfl, rfl⟩

theorem calm_setTrusteeUser (s : TableState) (user : ℕ) :
    Calm opt s (s.setTrusteeUser user) := calm_sameSeat ⟨rfl, rfl, rfl, rfl, rfl⟩

theorem calm_chairs {s s' : TableState} (husers : s'.users = s.users) (hstack : s'.stack = s.stack)
    (hgame : s'.table.gameStarted = s.table.gameStarted)
    (hdraw : s'.table.drawStarted = s.table.drawStarted)
    (htable : s'.table.tableStarted = s.table.tableStarted ∨ s.table.gameStarted = false)
    (hchairs : ∀ c p, s'.table.tableUserItem c = some p → s.table.tableUserItem c = some p) :
    Calm opt s s' where
  game := hgame
  draw := hdraw
  table := htable
  stack := by rw [hstack]
  busy c p hc hb := ⟨hchairs c p hc, husers ▸ hb⟩
  offline c p hc ho := ⟨hchairs c p hc, husers ▸ ho⟩

section

variable (s : TableState)

theorem calm_setChair_none (chairID : ℕ) : Calm opt s (s.setChair chairID none) :=
  calm_chairs rfl rfl rfl rfl (.inl rfl) fun _ _ hc => (chair_of_setChair_none hc).2

theorem calm_setFrozened (chairID : ℕ) (lScore : Score) :
    Calm opt s (s.setFrozened chairID lScore) :=
  calm_chairs rfl rfl rfl rfl (.inl rfl) fun _ _ hc => hc

theorem calm_recount : Calm opt s (s.recount opt) :=
  calm_chairs rfl rfl rfl rfl (.inl rfl) fun _ _ hc => hc

theorem calm_concludeTable : Calm opt s (s.concludeTable opt) := by
  rw [concludeTable]
  split_ifs with hgame
  · exact calm_chairs rfl rfl rfl rfl (.inr hgame.1) fun _ _ hc => hc
  · exact .refl s
  · exact .refl s

theorem calm_dismissEnd : Calm opt s s.dismissEnd := by
  rw [dismissEnd]
  split_ifs with hgame
  · exact calm_chairs rfl rfl rfl rfl (.inr hgame.1) fun _ _ hc => hc
  · exact .refl s

theorem calm_unFreeze (chairID user : ℕ) : Calm opt s (s.unFreeze chairID user).1 :=
  (calm_sameSeat (sameSeat_unFrozenedUserScore _ _)).trans (calm_setFrozened _ chairID 0)

theorem calm_unFreezeSome (chairID user : ℕ) : Calm opt s (s.unFreezeSome chairID user).1 := by
  rw [unFreezeSome]
  split_ifs
  · exact calm_unFreeze s chairID user
  · exact .refl s

/-! ## Standing up, looking on and scores -/

theorem calm_standUpGo (user chairID : ℕ) (tableUser : Option ℕ) (userStatus : UserStatus)
    (initiative : Bool) :
    Calm opt s (s.standUpGo opt user chairID tableUser userStatus initiative).1 := by
  rw [standUpGo]
  split_ifs
  · exact .refl s
  · exact (calm_setTrusteeUser s user).trans (calm_push rfl)
  · exact ((calm_setChair_none s chairID).trans (calm_unFreezeSome _ chairID user)).trans
      (calm_push rfl)
  · exact .refl s

theorem calm_performStandUpAction (user : ℕ) (initiative : Bool) :
    Calm opt s (s.performStandUpAction opt user initiative).1 := by
  rw [performStandUpAction]
  split_ifs
  · have hleft : Calm opt s { s with
        table := { s.table with lookonUserItem := s.table.lookonUserItem.erase user } } :=
      calm_chairs rfl rfl rfl rfl (.inl rfl) fun _ _ hc => hc
    exact (hleft.trans (calm_setClientReady _ user false)).trans
      (calm_setStatus _ user (by decide : Idle .free) invalidTable invalidChair)
  · exact .refl s
  · exact (calm_setTrusteeUser s user).trans (calm_push rfl)
  · exact calm_push rfl
  · exact calm_standUpGo s user _ _ _ initiative

theorem calm_standUpLeft (user : ℕ) (userStatus : UserStatus) :
    Calm opt s (s.standUpLeft opt user userStatus) := by
  have hidle : Idle (if userStatus = .offline then .null else .free) := by
    split_ifs
    · decide
    · decide
  exact (((calm_setClientReady s user false).trans
    (calm_setStatus _ user hidle invalidTable invalidChair)).trans (calm_recount _)).trans
      (calm_concludeTable _)

theorem calm_addLookon (chairID user : ℕ) : Calm opt s (s.addLookon opt chairID user) := by
  have hadded : Calm opt s { s with
      table := { s.table with lookonUserItem := s.table.lookonUserItem ++ [user] } } :=
    calm_chairs rfl rfl rfl rfl (.inl rfl) fun _ _ hc => hc
  exact (hadded.trans (calm_setClientReady _ user true)).trans
    (calm_setStatus _ user (by decide : Idle .lookon) opt.tableID chairID)

theorem calm_performLookonAction (chairID user : ℕ) (refused : Bool) :
    Calm opt s (s.performLookonAction opt chairID user refused) := by
  rw [performLookonAction]
  split_ifs
  · exact .refl s
  · exact (calm_addLookon s chairID user).trans (calm_push rfl)

theorem calm_performRecoerLookOn (chairID user : ℕ) :
    Calm opt s (s.performRecoerLookOn opt chairID user) := by
  rw [performRecoerLookOn]
  split_ifs
  · exact .refl s
  · exact calm_addLookon s chairID user

theorem calm_writeItem (user : ℕ) (w : ScoreWrite) :
    Calm opt s (s.modifyUser user fun u => (u.writeUserScore w).1) := by
  rw [modifyUser_eq]
  exact calm_sameSeat (sameSeat_writeUserScore _ w)

theorem calm_writeUserScore (chairID : ℕ) (info : ScoreInfo) (buckle : Bool)
    (playTimeCount : UInt32) :
    Calm opt s (s.writeUserScore opt chairID info buckle playTimeCount).1 := by
  rw [writeUserScore]
  split
  · exact .refl s
  · rename_i p _
    by_cases hcharged : opt.serviceScore > 0 ∧ opt.serverType = gameGenreGold ∧ buckle = true
    · simp only [if_pos hcharged]
      exact (calm_unFreeze s chairID p).trans (calm_writeItem _ p _)
    · simp only [if_neg hcharged]
      exact calm_writeItem s p _

/-! ## Losing and finding the connection -/

theorem calm_offLineEnd (user : ℕ) : Calm opt s (s.offLineEnd opt user) := by
  rw [offLineEnd]
  split_ifs
  · exact .refl s
  · exact calm_setStatus s user (by decide : Idle .null) invalidTable invalidChair

theorem calm_switchUserItemConnect (user : ℕ) : Calm opt s (s.switchUserItemConnect opt user) := by
  rw [switchUserItemConnect]
  split_ifs with hoffline hprivate
  · refine calm_modifyUser (fun hb => ?_) fun _ => hoffline
    rw [ServerUserItem.setUserStatus] at hb
    split_ifs at hb with hid
    · exact hb
    · refine .inr ⟨hoffline, fun _ => ?_⟩
      rcases hb with hplaying | ⟨-, hre⟩
      · exact hplaying
      · exact hre hprivate
  · refine calm_modifyUser (fun _ => .inr ⟨hoffline, fun h => absurd h hprivate⟩) fun _ => hoffline
  · exact .refl s

end

/-- Where no game is concluded, who goes off line is not asked about. -/
theorem covered_modifyFree (h : Covered opt s) (hreached : reached s.stack = none)
    (hb : Busy opt item → Busy opt (s.users user)) :
    Covered opt (s.modifyUser user fun _ => item) := by
  have hnone : reached (s.modifyUser user fun _ => item).stack = none := hreached
  refine ⟨fun hgame c p hc hbusy => ?_, fun _ _ _ _ _ k hk => ?_⟩
  · rw [users_modifyUser] at hbusy
    split_ifs at hbusy with hp
    · exact h.busy hgame c p hc (hp ▸ hb hbusy)
    · exact h.busy hgame c p hc hbusy
  · rw [hnone] at hk
    cases hk

/-- A connection that is lost while no `ConcludeGame` runs. -/
theorem covered_onEventUserOffLine (h : Covered opt s) (hreached : reached s.stack = none) :
    Covered opt (s.onEventUserOffLine opt user).1 := by
  have hleave : Covered opt
      ((s.push [.offLineEnd user]).performStandUpAction opt user true).1 :=
    h.calm ((calm_push rfl).trans (calm_performStandUpAction _ user true))
  have hoff : ∀ tableID chairID : ℕ, (s.users user).userStatus = .playing →
      opt.serverType ≠ gameGenrePrivate →
      Covered opt ((s.setClientReady user false).setStatus user .offline tableID chairID) := by
    intro tableID chairID hplaying hprivate
    rw [setClientReady, setStatus, modifyUser_modifyUser, modifyUser_eq]
    exact covered_modifyFree h hreached fun _ => .inl hplaying
  rw [onEventUserOffLine]
  split_ifs with hlookon hchair hprivate hplaying hmatch hmatch
  · exact hleave
  · exact h
  · refine Covered.calm ?_ (calm_push rfl)
    rw [setStatus, modifyUser_modifyUser, modifyUser_eq]
    refine covered_modifyFree h hreached fun hb => ?_
    rw [ServerUserItem.setUserStatus] at hb
    -- a private room notes what he did, and he plays on if he played
    split_ifs at hb
    · rcases hb with hplaying | ⟨_, hre⟩
      · exact .inl hplaying
      · exact .inl (hre hprivate)
    · rcases hb with hplaying | ⟨_, hre⟩
      · cases hplaying
      · exact .inl (hre hprivate)
  · exact hoff _ _ hplaying hprivate
  · exact (hoff _ _ hplaying hprivate).calm ((calm_setTrusteeUser _ user).trans (calm_push rfl))
  · exact (hoff _ _ hplaying hprivate).calm (calm_push rfl)
  · exact hleave

theorem sameFlags_onEventUserOffLine (s : TableState) (user : ℕ) :
    SameFlags s (s.onEventUserOffLine opt user).1 := by
  have hleave : Calm opt s ((s.push [.offLineEnd user]).performStandUpAction opt user true).1 :=
    (calm_push rfl).trans (calm_performStandUpAction _ user true)
  rw [onEventUserOffLine]
  split_ifs
  · exact hleave.toSameFlags
  · exact .refl s
  · exact ⟨rfl, rfl, .inl rfl⟩
  · exact ⟨rfl, rfl, .inl rfl⟩
  · exact ⟨rfl, rfl, .inl rfl⟩
  · exact ⟨rfl, rfl, .inl rfl⟩
  · exact hleave.toSameFlags

/-! ## Starting -/

theorem sameFlags_freeze (opt : TableOption) (s : TableState) (chairID user : ℕ) :
    SameFlags s (s.freeze opt chairID user).1 := by
  rw [freeze]
  split_ifs
  · exact ⟨rfl, rfl, .inl rfl⟩
  · exact .refl s

theorem sameFlags_startUser (opt : TableOption) (s : TableState) (chairID : ℕ) :
    SameFlags s (s.startUser opt chairID).1 := by
  rw [startUser]
  split
  · exact .refl s
  · rename_i p _
    have hfreeze := sameFlags_freeze opt s chairID p
    dsimp only
    split_ifs
    · exact hfreeze.trans ⟨rfl, rfl, .inl rfl⟩
    · exact hfreeze

theorem sameFlags_startUsers (opt : TableOption) (cs : List ℕ) (s : TableState) :
    SameFlags s (startUsers opt cs s).1 := by
  induction cs generalizing s with
  | nil => exact .refl s
  | cons c cs ih => exact (sameFlags_startUser opt s c).trans (ih _)

/-- `StartGame` sets all flags, unless a hand runs. -/
theorem startGame_flags (opt : TableOption) (s : TableState) :
    (s.startGame opt).1 = s ∨ (s.startGame opt).1.table.gameStarted = true ∧
      (s.startGame opt).1.table.tableStarted = true := by
  rw [startGame]
  split_ifs with hdraw hgame
  · exact .inl rfl
  · exact .inr ⟨rfl, rfl⟩
  · right
    have hsame := sameFlags_startUsers opt (List.range opt.chairCount) { s with
      table := { s.table with gameStarted := true, drawStarted := true, tableStarted := true } }
    refine ⟨hsame.game, ?_⟩
    rcases hsame.table with htable | hover
    · exact htable
    · cases hover

theorem FlagChain.startGame (h : FlagChain s) : FlagChain (s.startGame opt).1 := by
  rcases startGame_flags opt s with heq | ⟨hgame, htable⟩
  · rw [heq]
    exact h
  · exact ⟨fun _ => hgame, fun _ => htable⟩

theorem Covered.startGame (h : Covered opt s) : Covered opt (s.startGame opt).1 := by
  rcases startGame_flags opt s with heq | ⟨hgame, -⟩
  · rw [heq]
    exact h
  · exact .of_gameStarted hgame

/-! ## Sitting down -/

theorem sameFlags_sitDown (opt : TableOption) (s : TableState) (chairID user : ℕ) :
    SameFlags s (s.sitDown opt chairID user).1 := by
  rw [sitDown]
  split_ifs
  · exact ⟨rfl, rfl, .inl rfl⟩
  · exact (sameFlags_freeze opt s chairID user).trans ⟨rfl, rfl, .inl rfl⟩

theorem sameFlags_performSitDownAction {refused : Bool}
    (h : s.performSitDownAction opt chairID user refused = some (s', out)) : SameFlags s s' := by
  rw [performSitDownAction] at h
  split_ifs at h
  · cases h
    exact .refl _
  · cases h
    have hsit := sameFlags_sitDown opt (s.setChair chairID (some user)) chairID user
    exact ⟨hsit.game, hsit.draw, hsit.table⟩

theorem idle_sitStatus : Idle (sitStatus opt) := by
  rw [sitStatus]
  split_ifs
  · decide
  · decide

theorem calm_sit (s : TableState) (chairID user : ℕ) (hidle : Idle item.userStatus) :
    Calm opt s ((s.setChair chairID (some user)).modifyUser user fun _ => item) := by
  have hother : ∀ c p, ((s.setChair chairID (some user)).modifyUser user
      fun _ => item).table.tableUserItem c = some p → p ≠ user →
        s.table.tableUserItem c = some p := by
    intro c p hc hp
    have hat : update s.table.tableUserItem chairID (some user) c = some p := hc
    rw [update_apply] at hat
    split_ifs at hat
    · exact absurd (Option.some.inj hat).symm hp
    · exact hat
  refine ⟨⟨rfl, rfl, .inl rfl⟩, rfl, fun c p hc hb => ?_, fun c p hc ho => ?_⟩
  · rw [users_modifyUser] at hb
    split_ifs at hb with hp
    · exact absurd hb hidle.not_busy
    · exact ⟨hother c p hc hp, hb⟩
  · rw [users_modifyUser] at ho
    split_ifs at ho with hp
    · exact absurd ho hidle.2
    · exact ⟨hother c p hc hp, ho⟩

/-- Where no game runs, who sits down does not play. -/
theorem covered_performSitDownAction (h : Covered opt s) {refused : Bool}
    (hsit : SitGranted opt s chairID refused → Elsewhere opt s user)
    (hs : s.performSitDownAction opt chairID user refused = some (s', out)) : Covered opt s' := by
  by_cases hgame : s.table.gameStarted = true
  · exact .of_gameStarted ((sameFlags_performSitDownAction hs).game.trans hgame)
  rw [performSitDownAction] at hs
  split_ifs at hs with hrefused
  · cases hs
    exact h
  · cases hs
    have hseated : Covered opt ((s.setChair chairID (some user)).sitDown opt chairID user).1 := by
      rw [sitDown, if_pos (.inl (Bool.eq_false_iff.2 hgame)), setClientReady, setStatus,
        modifyUser_modifyUser, modifyUser_eq]
      refine h.calm (calm_sit s chairID user (idle_setUserStatus ?_ idle_sitStatus _ _))
      exact (hsit hrefused).1
    exact hseated.calm ((calm_recount _).trans (calm_push rfl))

/-! ## Concluding -/

theorem FlagChain.concludeGame (h : FlagChain s) (gameStatus : UInt8) :
    FlagChain (s.concludeGame gameStatus) := by
  rw [TableState.concludeGame]
  split_ifs with hgame
  · exact h
  · exact ⟨nofun, fun _ => h.game (Bool.not_eq_false _ ▸ hgame)⟩

/-- The flag of the game falls when the loop comes to its first chair. -/
theorem Covered.concludeGame (h : Covered opt s) (gameStatus : UInt8) :
    Covered opt (s.concludeGame gameStatus) := by
  by_cases hgame : s.table.gameStarted = false
  · rw [TableState.concludeGame, if_pos hgame]
    exact h
  by_cases hgoes : gameStatus ≥ gameStatusPlay
  · rw [TableState.concludeGame, if_neg hgame]
    exact .of_gameStarted (decide_eq_true hgoes)
  have hreached : reached (s.concludeGame gameStatus).stack = some (WithTop.some 0) := by
    rw [TableState.concludeGame, if_neg hgame, decide_eq_false hgoes]
    rfl
  have hle : ∀ c : ℕ, WithTop.some 0 ≤ WithTop.some c := fun c => WithTop.coe_le_coe.2 (Nat.zero_le c)
  refine ⟨fun _ c p _ _ => ⟨_, hreached, hle c⟩, fun _ c p _ _ k hk => ?_⟩
  rw [hreached] at hk
  cases hk
  exact hle c

theorem Covered.pop_loop (h : Covered opt s) (hinv : SeatInv opt s)
    {k : WithTop ℕ} (hreached : reached s.stack = some k) (hk : WithTop.some opt.chairCount ≤ k) :
    Covered opt ({ s with stack } : TableState) := by
  have hbehind : ∀ c p, s.table.tableUserItem c = some p → ¬ k ≤ WithTop.some c := by
    intro c p hc hle
    have hlt := (hinv.chair c p hc).1
    exact absurd (WithTop.coe_le_coe.1 (hk.trans hle)) (Nat.not_le.2 hlt)
  refine ⟨fun hgame c p hc hb => ?_, fun hgame c p hc ho => ?_⟩
  · obtain ⟨k', hk', hle⟩ := h.busy hgame c p hc hb
    rw [hreached] at hk'
    cases hk'
    exact absurd hle (hbehind c p hc)
  · exact absurd (h.offline hgame c p hc ho k hreached) (hbehind c p hc)

/-- The loop comes to the next chair when nobody plays at this one. -/
theorem Covered.pass (h : Covered opt s) (hstack : s.stack = .concludeUsers chairID :: stack)
    (hcalm : Calm opt (({ s with stack } : TableState).push [.concludeUsers (chairID + 1)]) s')
    (hpassed : ∀ p, s'.table.tableUserItem chairID = some p → Idle (s'.users p).userStatus) :
    Covered opt s' := by
  have hreached : reached s'.stack = some (WithTop.some (chairID + 1)) := hcalm.stack
  have hgame : s'.table.gameStarted = s.table.gameStarted := hcalm.game
  have hnext : ∀ c : ℕ, WithTop.some chairID ≤ WithTop.some c → c ≠ chairID →
      WithTop.some (chairID + 1) ≤ WithTop.some c := by
    intro c hle hne
    have := WithTop.coe_le_coe.1 hle
    exact WithTop.coe_le_coe.2 (by omega)
  refine ⟨fun hover c p hc hb => ⟨_, hreached, ?_⟩, fun hover c p hc ho k hk => ?_⟩
  · obtain ⟨hc', hb'⟩ := hcalm.busy c p hc hb
    obtain ⟨k, hk, hle⟩ := h.busy (hgame.symm.trans hover) c p hc' hb'
    rw [hstack] at hk
    cases hk
    refine hnext c hle fun heq => ?_
    exact (hpassed p (heq ▸ hc)).not_busy hb
  · obtain ⟨hc', ho'⟩ := hcalm.offline c p hc ho
    rw [hreached] at hk
    cases hk
    refine hnext c (h.offline (hgame.symm.trans hover) c p hc' ho' _ (by rw [hstack]; rfl))
      fun heq => ?_
    exact (hpassed p (heq ▸ hc)).2 ho

/-- Where no game runs and no match, who stands up leaves his chair at
once. -/
theorem chair_performStandUpAction (hinv : SeatInv opt s) (hgame : s.table.gameStarted = false)
    (hmatch : opt.serverType ≠ gameGenreMatch) (hc : s.table.tableUserItem chairID = some user) :
    (s.performStandUpAction opt user false).1.table.tableUserItem chairID = none := by
  obtain ⟨hlt, hat⟩ := hinv.chair chairID user hc
  have hlookon : (s.users user).userStatus ≠ .lookon := by
    intro hlookon
    have hseated := hat.status
    rw [hlookon] at hseated
    exact hseated
  have hself : s.getTableUserItem opt chairID = some user := by
    rw [getTableUserItem, if_pos hlt, hc]
  rw [performStandUpAction]
  rw [if_neg hlookon, hat.chairID, if_neg fun h => absurd (hgame.symm.trans h.1) (by decide),
    hself, standUpGo, if_neg fun h => hmatch h.1, if_pos rfl]
  rw [unFreezeSome_setChair]
  exact update_self ..

theorem calm_concludeUser (s : TableState) (hlt : chairID < opt.chairCount) :
    Calm opt (s.push [.concludeUsers (chairID + 1)]) (s.concludeUser opt chairID).1 := by
  rw [concludeUser, if_pos hlt]
  dsimp only
  split
  · exact .refl _
  · rename_i p _
    refine (calm_unFreezeSome _ chairID p).trans ?_
    split_ifs
    · exact (calm_push rfl).trans (calm_performStandUpAction _ p false)
    · exact calm_performStandUpAction _ p false
    · exact (calm_setClientReady _ p true).trans
        (calm_setStatus _ p (by decide : Idle .sit) opt.tableID chairID)
    · exact calm_setStatus _ p (by decide : Idle .sit) opt.tableID chairID

/-- Who sits at the chair has stood up, or plays no more. -/
theorem idle_concludeUser (hinv : SeatInv opt s) (hgame : s.table.gameStarted = false)
    (hlt : chairID < opt.chairCount) {p : ℕ}
    (hp : (s.concludeUser opt chairID).1.table.tableUserItem chairID = some p) :
    Idle ((s.concludeUser opt chairID).1.users p).userStatus := by
  have hpush : SeatInv opt (s.push [.concludeUsers (chairID + 1)]) :=
    (moves_push rfl : Moves opt True _ _ []).seats hinv
  replace hgame : (s.push [.concludeUsers (chairID + 1)]).table.gameStarted = false := hgame
  rw [concludeUser, if_pos hlt] at hp ⊢
  generalize s.push [.concludeUsers (chairID + 1)] = s₁ at hp hpush hgame ⊢
  dsimp only at hp ⊢
  cases hc : s₁.table.tableUserItem chairID with
  | none =>
    rw [hc] at hp
    rw [hc] at hp
    cases hp
  | some q =>
    rw [hc] at hp
    dsimp only at hp ⊢
    have hrelease : Calm opt s₁ (s₁.unFreezeSome chairID q).1 := calm_unFreezeSome s₁ chairID q
    have hseats : SeatInv opt (s₁.unFreezeSome chairID q).1 :=
      (moves_unFreezeSome hpush hc : Moves opt True _ _ _).seats hpush
    rw [← (unFreezeSome_table s₁ chairID q).1] at hc
    replace hgame := hrelease.game.trans hgame
    generalize s₁.unFreezeSome chairID q = r at hp hc hseats hgame ⊢
    have hid := (hseats.chair chairID q hc).2.userID
    have hsit : ∀ {s₂ : TableState}, (s₂.users q).userID ≠ 0 → some q = some p →
        Idle ((s₂.setStatus q .sit opt.tableID chairID).users p).userStatus := by
      intro s₂ hid heq
      obtain rfl := Option.some.inj heq
      rw [setStatus, modifyUser_eq, users_modifyUser, if_pos rfl]
      exact idle_setUserStatus hid (by decide) _ _
    split_ifs at hp ⊢ with hoffline hmatch hprivate
    · have hnote : SeatInv opt (r.1.push [.concludeReStatus q]) :=
        (moves_push rfl : Moves opt True _ _ []).seats hseats
      rw [chair_performStandUpAction hnote hgame hmatch hc] at hp
      cases hp
    · rw [chair_performStandUpAction hseats hgame hmatch hc] at hp
      cases hp
    · refine hsit ?_ (hc.symm.trans hp)
      rw [setClientReady, modifyUser_eq, users_modifyUser, if_pos rfl]
      exact hid
    · exact hsit hid (hc.symm.trans hp)

theorem covered_concludeUser (h : Covered opt s) (hinv : SeatInv opt s)
    (hstack : s.stack = .concludeUsers chairID :: stack) :
    Covered opt (({ s with stack } : TableState).concludeUser opt chairID).1 := by
  by_cases hlt : chairID < opt.chairCount
  · have hcalm := calm_concludeUser ({ s with stack } : TableState) hlt
    by_cases hgame : s.table.gameStarted = true
    · exact .of_gameStarted (hcalm.game.trans hgame)
    · have hpop : SeatInv opt ({ s with stack } : TableState) :=
        (moves_pop hstack rfl : Moves opt True s _ []).seats hinv
      exact h.pass hstack hcalm fun p hp =>
        idle_concludeUser hpop (Bool.eq_false_iff.2 hgame) hlt hp
  · rw [concludeUser, if_neg hlt]
    exact h.pop_loop hinv (by rw [hstack]; rfl) (WithTop.coe_le_coe.2 (Nat.not_lt.1 hlt))

theorem calm_kickUser (s : TableState) (hlt : chairID < opt.chairCount) (leaves : Bool) :
    Calm opt (s.push [.kickUsers (chairID + 1)]) (s.kickUser opt chairID leaves).1 := by
  rw [kickUser, if_pos hlt]
  dsimp only
  split
  · exact .refl _
  · rename_i p _
    split_ifs
    · exact (calm_push rfl).trans (calm_performStandUpAction _ p false)
    · exact calm_performStandUpAction _ p false
    · exact .refl _

end GameServer.GameService
