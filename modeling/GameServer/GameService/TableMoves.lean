import GameServer.GameService.Model.TableFrame
import GameServer.GameService.ServerUser
import Mathlib.Data.List.Nodup
/-!
# GameService — seats and moves

`SeatInv` is the state of the seats: a user at a chair says so himself
and has the status of a seated user, a user who looks on has that
status, and a user who has just left his chair still names the table
until his stand-up ends. `Moves` lists what can happen to seats and
frozen score; every move keeps the seats (`Moves.seats`).
-/

namespace GameServer.GameService

open Function TableState

variable {opt : TableOption} {s s' : TableState} {user chairID : ℕ} {out : List TableOutput}
variable {c p : ℕ} {item : ServerUserItem}

/-! ## Seats -/

/-- The status of a user at a chair. -/
def Seated : UserStatus → Prop
  | .sit | .ready | .playing | .offline => True
  | .null | .free | .lookon => False

/-- The item of a user at a chair. A private room notes in it what he was
before he went offline. -/
structure AtChair (opt : TableOption) (u : ServerUserItem) (chairID : ℕ) : Prop where
  userID : u.userID ≠ 0
  tableID : u.tableID = opt.tableID
  chairID : u.chairID = chairID
  status : Seated u.userStatus
  reStatus : u.userStatus = .offline → opt.serverType = gameGenrePrivate → Seated u.reUserStatus

structure AtLookon (opt : TableOption) (u : ServerUserItem) : Prop where
  userID : u.userID ≠ 0
  tableID : u.tableID = opt.tableID
  status : u.userStatus = .lookon

/-- The users who have left their chairs and whose stand-up waits. -/
def leavingUsers (stack : List Frame) : List ℕ :=
  stack.filterMap fun
    | .standUpEnd user _ => some user
    | _ => none

/-- **The state of the seats.** -/
structure SeatInv (opt : TableOption) (s : TableState) : Prop where
  chair : ∀ c user, s.table.tableUserItem c = some user →
    c < opt.chairCount ∧ AtChair opt (s.users user) c
  lookon : ∀ user ∈ s.table.lookonUserItem, AtLookon opt (s.users user)
  lookon_nodup : s.table.lookonUserItem.Nodup
  leaving : ∀ user ∈ leavingUsers s.stack, (s.users user).tableID = opt.tableID ∧
    user ∉ s.table.lookonUserItem ∧ ∀ c, s.table.tableUserItem c ≠ some user
  leaving_nodup : (leavingUsers s.stack).Nodup
  count : leavingUsers s.stack = [] → s.table.userCount = s.getSitUserCount opt

/-- The user belongs elsewhere, if anywhere. -/
def Elsewhere (opt : TableOption) (s : TableState) (user : ℕ) : Prop :=
  (s.users user).userID ≠ 0 ∧ (s.users user).tableID ≠ opt.tableID

/-- The item keeps a user where he is. -/
structure Stays (opt : TableOption) (s : TableState) (user : ℕ) (item : ServerUserItem) : Prop where
  chair : ∀ c, s.table.tableUserItem c = some user → AtChair opt item c
  lookon : user ∈ s.table.lookonUserItem → AtLookon opt item
  leaving : user ∈ leavingUsers s.stack → item.tableID = opt.tableID

/-- The user is nowhere at the table. -/
structure Away (s : TableState) (user : ℕ) : Prop where
  chair : ∀ c, s.table.tableUserItem c ≠ some user
  lookon : user ∉ s.table.lookonUserItem
  leaving : user ∉ leavingUsers s.stack

theorem SeatInv.away (hinv : SeatInv opt s) (h : (s.users user).tableID ≠ opt.tableID) :
    Away s user := by
  refine ⟨fun c hc => ?_, fun hmem => ?_, fun hmem => ?_⟩
  · exact h (hinv.chair c user hc).2.tableID
  · exact h (hinv.lookon user hmem).tableID
  · exact h (hinv.leaving user hmem).1

theorem Away.stays (h : Away s user) (item : ServerUserItem) : Stays opt s user item :=
  ⟨fun c hc => absurd hc (h.chair c), fun hmem => absurd hmem h.lookon,
    fun hmem => absurd hmem h.leaving⟩

theorem SeatInv.chair_unique (h : SeatInv opt s) {c' : ℕ}
    (hc : s.table.tableUserItem c = some user) (hc' : s.table.tableUserItem c' = some user) :
    c = c' :=
  (h.chair c user hc).2.chairID.symm.trans (h.chair c' user hc').2.chairID

theorem SeatInv.chair_only (h : SeatInv opt s) (hc : s.table.tableUserItem chairID = some user) :
    user ∉ s.table.lookonUserItem ∧ user ∉ leavingUsers s.stack := by
  refine ⟨fun hmem => ?_, fun hmem => (h.leaving user hmem).2.2 chairID hc⟩
  -- one item cannot have both kinds of status
  have hstatus := (h.chair chairID user hc).2.status
  rw [(h.lookon user hmem).status] at hstatus
  exact hstatus

theorem SeatInv.stays_at_chair (h : SeatInv opt s) (hc : s.table.tableUserItem chairID = some user)
    (hitem : AtChair opt item chairID) : Stays opt s user item := by
  refine ⟨fun c hc' => ?_, fun hmem => absurd hmem (h.chair_only hc).1, fun hmem =>
    absurd hmem (h.chair_only hc).2⟩
  rw [h.chair_unique hc' hc]
  exact hitem

/-! ## Items -/

/-- The parts of an item that say where its user is. -/
structure SameSeat (u u' : ServerUserItem) : Prop where
  userID : u'.userID = u.userID
  tableID : u'.tableID = u.tableID
  chairID : u'.chairID = u.chairID
  status : u'.userStatus = u.userStatus
  reStatus : u'.reUserStatus = u.reUserStatus

theorem AtChair.congr {u u' : ServerUserItem} (h : AtChair opt u chairID) (heq : SameSeat u u') :
    AtChair opt u' chairID := by
  refine ⟨?_, ?_, ?_, ?_, ?_⟩
  · rw [heq.userID]; exact h.userID
  · rw [heq.tableID]; exact h.tableID
  · rw [heq.chairID]; exact h.chairID
  · rw [heq.status]; exact h.status
  · rw [heq.status, heq.reStatus]; exact h.reStatus

theorem SeatInv.stays_of_sameSeat (h : SeatInv opt s)
    (heq : SameSeat (s.users user) item) : Stays opt s user item := by
  refine ⟨fun c hc => (h.chair c user hc).2.congr heq, fun hmem => ?_, fun hmem => ?_⟩
  · have := h.lookon user hmem
    refine ⟨?_, ?_, ?_⟩
    · rw [heq.userID]; exact this.userID
    · rw [heq.tableID]; exact this.tableID
    · rw [heq.status]; exact this.status
  · rw [heq.tableID]
    exact (h.leaving user hmem).1

theorem sameSeat_putIn (u : ServerUserItem) (limit : Score) : SameSeat u (u.putIn limit) := by
  unfold ServerUserItem.putIn
  simp only
  split_ifs <;> exact ⟨rfl, rfl, rfl, rfl, rfl⟩

theorem sameSeat_adjustPut (u : ServerUserItem) : SameSeat u u.adjustPut := by
  have hput := sameSeat_putIn u
  unfold ServerUserItem.adjustPut
  split_ifs
  · exact ⟨(hput _).userID, (hput _).tableID, (hput _).chairID, (hput _).status, (hput _).reStatus⟩
  · exact hput _
  · exact ⟨rfl, rfl, rfl, rfl, rfl⟩

theorem sameSeat_frozenedUserScore (u : ServerUserItem) (lScore : Score) :
    SameSeat u (u.frozenedUserScore lScore).1 := by
  unfold ServerUserItem.frozenedUserScore ServerUserItem.draw
  split_ifs <;> exact ⟨rfl, rfl, rfl, rfl, rfl⟩

theorem sameSeat_unFrozenedUserScore (u : ServerUserItem) (lScore : Score) :
    SameSeat u (u.unFrozenedUserScore lScore).1 := by
  unfold ServerUserItem.unFrozenedUserScore
  split_ifs
  · exact ⟨rfl, rfl, rfl, rfl, rfl⟩
  · have := sameSeat_adjustPut
      { u with frozenedScore := u.frozenedScore - lScore, lScore := u.lScore + lScore }
    exact ⟨this.userID, this.tableID, this.chairID, this.status, this.reStatus⟩

theorem sameSeat_writeUserScore (u : ServerUserItem) (w : ScoreWrite) :
    SameSeat u (u.writeUserScore w).1 := by
  rw [writeUserScore_eq]
  split_ifs
  · exact ⟨rfl, rfl, rfl, rfl, rfl⟩
  · have := sameSeat_adjustPut (u.written w)
    exact ⟨this.userID, this.tableID, this.chairID, this.status, this.reStatus⟩

theorem atChair_setUserStatus {u : ServerUserItem} (hid : u.userID ≠ 0) {userStatus : UserStatus}
    (hseated : Seated userStatus)
    (hre : userStatus = .offline → opt.serverType = gameGenrePrivate → Seated u.reUserStatus) :
    AtChair opt (u.setUserStatus userStatus opt.tableID chairID) chairID := by
  unfold ServerUserItem.setUserStatus
  rw [if_neg hid]
  exact ⟨hid, rfl, rfl, hseated, hre⟩

theorem frozenedScore_setUserStatus (u : ServerUserItem) (userStatus : UserStatus)
    (tableID chairID : ℕ) :
    (u.setUserStatus userStatus tableID chairID).frozenedScore = u.frozenedScore := by
  unfold ServerUserItem.setUserStatus
  split_ifs <;> rfl

/-! ## Moves -/

/-- What is frozen in an item covers what is noted at the user's chair. -/
def CoversChair (s : TableState) (user : ℕ) (item : ServerUserItem) : Prop :=
  0 ≤ item.frozenedScore ∧
    ∀ c, s.table.tableUserItem c = some user → s.table.frozenedScore c ≤ item.frozenedScore

/-- The service score can be frozen for a chair: nothing is noted there
yet, the user has it, and his frozen score does not wrap. -/
def CanFreeze (opt : TableOption) (s : TableState) (chairID user : ℕ) : Prop :=
  opt.serviceScore > 0 →
    s.table.frozenedScore chairID = 0 ∧ (s.users user).covers opt.serviceScore = true ∧
      opt.serviceScore ≤ (s.users user).frozenedScore + opt.serviceScore

/-- **What can happen** to seats and frozen score in one step, `ok` being
what is assumed of the step. -/
inductive Moves (opt : TableOption) (ok : Prop) :
    TableState → TableState → List TableOutput → Prop where
  /-- Flags of the table and the stack. -/
  | control {s s' : TableState} (users : s'.users = s.users)
      (chairs : s'.table.tableUserItem = s.table.tableUserItem)
      (lookon : s'.table.lookonUserItem = s.table.lookonUserItem)
      (frozened : s'.table.frozenedScore = s.table.frozenedScore)
      (count : s'.table.userCount = s.table.userCount)
      (leaving : leavingUsers s'.stack = leavingUsers s.stack) : Moves opt ok s s' []
  | user {s : TableState} {p : ℕ} {item : ServerUserItem} (stays : Stays opt s p item)
      (frozened : item.frozenedScore = (s.users p).frozenedScore) :
      Moves opt ok s (s.modifyUser p fun _ => item) []
  | outside {s : TableState} {p : ℕ} {item : ServerUserItem} (stays : Stays opt s p item)
      (covers : ok → CoversChair s p item) :
      Moves opt ok s (s.modifyUser p fun _ => item)
        [.elsewhere p (item.frozenedScore - (s.users p).frozenedScore)]
  | sit {s : TableState} {c p : ℕ} {item : ServerUserItem} (lt : c < opt.chairCount)
      (empty : s.table.tableUserItem c = none) (away : Away s p) (atChair : AtChair opt item c)
      (frozened : item.frozenedScore = (s.users p).frozenedScore) :
      Moves opt ok s (recount opt ((s.setChair c (some p)).modifyUser p fun _ => item)) []
  | leave {s : TableState} {c p : ℕ} {st : UserStatus}
      (chair : s.table.tableUserItem c = some p) (frozened : s.table.frozenedScore c = 0) :
      Moves opt ok s ((s.setChair c none).push [.standUpEnd p st]) []
  | endLeave {s : TableState} {p : ℕ} {st : UserStatus} {stack : List Frame}
      {item : ServerUserItem} (waits : s.stack = .standUpEnd p st :: stack)
      (frozened : item.frozenedScore = (s.users p).frozenedScore) :
      Moves opt ok s (recount opt (({ s with stack } : TableState).modifyUser p fun _ => item)) []
  | addLookon {s : TableState} {p : ℕ} {item : ServerUserItem} (away : Away s p)
      (atLookon : AtLookon opt item) (frozened : item.frozenedScore = (s.users p).frozenedScore) :
      Moves opt ok s
        (({ s with table := { s.table with lookonUserItem := s.table.lookonUserItem ++ [p] } }
          : TableState).modifyUser p fun _ => item) []
  | removeLookon {s : TableState} {p : ℕ} {item : ServerUserItem}
      (mem : p ∈ s.table.lookonUserItem)
      (frozened : item.frozenedScore = (s.users p).frozenedScore) :
      Moves opt ok s
        (({ s with table := { s.table with lookonUserItem := s.table.lookonUserItem.erase p } }
          : TableState).modifyUser p fun _ => item) []
  | freeze {s : TableState} {c p : ℕ} {item : ServerUserItem} {done : Bool}
      (chair : s.table.tableUserItem c = some p) (pos : opt.serviceScore > 0)
      (atChair : AtChair opt item c) (can : ok → CanFreeze opt s c p)
      (hdone : done = (s.users p).covers opt.serviceScore)
      (frozened : item.frozenedScore = if done then
        (s.users p).frozenedScore + opt.serviceScore else (s.users p).frozenedScore) :
      Moves opt ok s ((s.setFrozened c opt.serviceScore).modifyUser p fun _ => item)
        (if done then [.frozened p opt.serviceScore] else [])
  | unFreeze {s : TableState} {c p : ℕ} {item : ServerUserItem} {done : Bool}
      {charges : List TableOutput} (chair : s.table.tableUserItem c = some p)
      (atChair : AtChair opt item c)
      (hdone : done = true ↔ ¬ (s.table.frozenedScore c < 0 ∨
        (s.users p).frozenedScore < s.table.frozenedScore c))
      (frozened : item.frozenedScore = if done then
        (s.users p).frozenedScore - s.table.frozenedScore c else (s.users p).frozenedScore)
      (charged : charges = [] ∨ opt.serviceScore > 0 ∧
        charges = [.charged p (min (s.table.frozenedScore c) opt.serviceScore)]) :
      Moves opt ok s ((s.modifyUser p fun _ => item).setFrozened c 0)
        ((if done then [.unFrozened p (s.table.frozenedScore c)] else []) ++ charges)
  | trans {s s' s'' : TableState} {out out' : List TableOutput} (first : Moves opt ok s s' out)
      (second : Moves opt ok s' s'' out') : Moves opt ok s s'' (out ++ out')

variable {ok : Prop}

theorem Moves.refl : Moves opt ok s s [] := .control rfl rfl rfl rfl rfl rfl

theorem Moves.before {s'' : TableState} (first : Moves opt ok s s' [])
    (second : Moves opt ok s' s'' out) : Moves opt ok s s'' out := by
  simpa using first.trans second

theorem Moves.behind {s'' : TableState} (first : Moves opt ok s s' out)
    (second : Moves opt ok s' s'' []) : Moves opt ok s s'' out := by
  simpa using first.trans second

/-! ## Moves and seats -/

theorem leavingUsers_append (frames stack : List Frame) :
    leavingUsers (frames ++ stack) = leavingUsers frames ++ leavingUsers stack := by
  simp [leavingUsers]

theorem leavingUsers_standUpEnd (p : ℕ) (st : UserStatus) (stack : List Frame) :
    leavingUsers (.standUpEnd p st :: stack) = p :: leavingUsers stack := by
  simp [leavingUsers]

theorem getSitUserCount_congr (h : s'.table.tableUserItem = s.table.tableUserItem) :
    s'.getSitUserCount opt = s.getSitUserCount opt := by
  unfold getSitUserCount getTableUserItem
  rw [h]

theorem seats_control (hinv : SeatInv opt s) (users : s'.users = s.users)
    (chairs : s'.table.tableUserItem = s.table.tableUserItem)
    (lookon : s'.table.lookonUserItem = s.table.lookonUserItem)
    (count : s'.table.userCount = s.table.userCount)
    (leaving : leavingUsers s'.stack = leavingUsers s.stack) : SeatInv opt s' := by
  refine ⟨?_, ?_, ?_, ?_, ?_, ?_⟩
  · rw [chairs, users]; exact hinv.chair
  · rw [lookon, users]; exact hinv.lookon
  · rw [lookon]; exact hinv.lookon_nodup
  · rw [leaving, lookon, chairs, users]; exact hinv.leaving
  · rw [leaving]; exact hinv.leaving_nodup
  · rw [leaving, count, getSitUserCount_congr chairs]; exact hinv.count

theorem users_modifyUser (s : TableState) (p : ℕ) (item : ServerUserItem) (q : ℕ) :
    (s.modifyUser p fun _ => item).users q = if q = p then item else s.users q := by
  show update s.users p item q = _
  rw [update_apply]

theorem seats_modifyUser (hinv : SeatInv opt s)
    (hst : Stays opt s p item) : SeatInv opt (s.modifyUser p fun _ => item) := by
  refine ⟨fun c q hc => ⟨(hinv.chair c q hc).1, ?_⟩, fun q hq => ?_, hinv.lookon_nodup,
    fun q hq => ⟨?_, (hinv.leaving q hq).2⟩, hinv.leaving_nodup, hinv.count⟩
  · rw [users_modifyUser]
    split_ifs with h
    · subst h
      exact hst.chair c hc
    · exact (hinv.chair c q hc).2
  · rw [users_modifyUser]
    split_ifs with h
    · subst h
      exact hst.lookon hq
    · exact hinv.lookon q hq
  · rw [users_modifyUser]
    split_ifs with h
    · subst h
      exact hst.leaving hq
    · exact (hinv.leaving q hq).1

theorem seats_modifyAway (hinv : SeatInv opt s) (haway : Away s p)
    (item : ServerUserItem) : SeatInv opt (s.modifyUser p fun _ => item) :=
  seats_modifyUser hinv (haway.stays item)

theorem seats_sit (hinv : SeatInv opt s)
    (lt : c < opt.chairCount) (away : Away s p) (atChair : AtChair opt item c) :
    SeatInv opt (recount opt ((s.setChair c (some p)).modifyUser p fun _ => item)) := by
  refine ⟨fun c' q hc => ?_, fun q hq => ?_, hinv.lookon_nodup, fun q hq => ?_,
    hinv.leaving_nodup, fun _ => rfl⟩
  · have hat : update s.table.tableUserItem c (some p) c' = some q := hc
    rw [update_apply] at hat
    show _ ∧ AtChair opt (((s.setChair c (some p)).modifyUser p fun _ => item).users q) c'
    rw [users_modifyUser]
    split_ifs at hat with hcc
    · cases hat
      subst hcc
      rw [if_pos rfl]
      exact ⟨lt, atChair⟩
    · have hne : q ≠ p := by
        rintro rfl
        exact away.chair c' hat
      rw [if_neg hne]
      exact hinv.chair c' q hat
  · show AtLookon opt (((s.setChair c (some p)).modifyUser p fun _ => item).users q)
    have hne : q ≠ p := by
      rintro rfl
      exact away.lookon hq
    rw [users_modifyUser, if_neg hne]
    exact hinv.lookon q hq
  · have hne : q ≠ p := by
      rintro rfl
      exact away.leaving hq
    obtain ⟨htable, hlookon, hchair⟩ := hinv.leaving q hq
    refine ⟨?_, hlookon, fun c' hc => ?_⟩
    · show (((s.setChair c (some p)).modifyUser p fun _ => item).users q).tableID = opt.tableID
      rw [users_modifyUser, if_neg hne]
      exact htable
    · have hat : update s.table.tableUserItem c (some p) c' = some q := hc
      rw [update_apply] at hat
      split_ifs at hat with hcc
      · exact hne (Option.some.inj hat).symm
      · exact hchair c' hat

theorem chair_of_setChair_none {c' q : ℕ}
    (h : (s.setChair c none).table.tableUserItem c' = some q) :
    c' ≠ c ∧ s.table.tableUserItem c' = some q := by
  have h : update s.table.tableUserItem c none c' = some q := h
  rw [update_apply] at h
  split_ifs at h with hcc
  exact ⟨hcc, h⟩

theorem seats_leave (hinv : SeatInv opt s) {st : UserStatus}
    (chair : s.table.tableUserItem c = some p) :
    SeatInv opt ((s.setChair c none).push [.standUpEnd p st]) := by
  have hleaving : leavingUsers ((s.setChair c none).push [.standUpEnd p st]).stack =
      p :: leavingUsers s.stack := leavingUsers_standUpEnd p st s.stack
  obtain ⟨hlookon, hnot⟩ := hinv.chair_only chair
  refine ⟨fun c' q hc => hinv.chair c' q (chair_of_setChair_none hc).2, hinv.lookon,
    hinv.lookon_nodup, fun q hq => ?_, ?_, fun h => ?_⟩
  · rw [hleaving] at hq
    rcases List.mem_cons.1 hq with rfl | hq
    · refine ⟨(hinv.chair c q chair).2.tableID, hlookon, fun c' hc => ?_⟩
      obtain ⟨hne, hc⟩ := chair_of_setChair_none hc
      exact hne (hinv.chair_unique hc chair)
    · obtain ⟨htable, hlook, hchair⟩ := hinv.leaving q hq
      exact ⟨htable, hlook, fun c' hc => hchair c' (chair_of_setChair_none hc).2⟩
  · rw [hleaving]
    exact List.nodup_cons.2 ⟨hnot, hinv.leaving_nodup⟩
  · rw [hleaving] at h
    cases h

theorem seats_endLeave (hinv : SeatInv opt s) {st : UserStatus} {stack : List Frame}
    (waits : s.stack = .standUpEnd p st :: stack) (item : ServerUserItem) :
    SeatInv opt (recount opt (({ s with stack } : TableState).modifyUser p fun _ => item)) := by
  have hleaving : leavingUsers s.stack = p :: leavingUsers stack := by
    rw [waits, leavingUsers_standUpEnd]
  obtain ⟨-, hlookon, hchair⟩ := hinv.leaving p (by rw [hleaving]; exact List.mem_cons_self)
  have hnodup := hinv.leaving_nodup
  rw [hleaving, List.nodup_cons] at hnodup
  -- the user is in no chair and in no list any more, so his item is free
  have hbefore : SeatInv opt (recount opt ({ s with stack } : TableState)) := by
    refine ⟨hinv.chair, hinv.lookon, hinv.lookon_nodup, fun q hq => hinv.leaving q ?_, hnodup.2,
      fun _ => rfl⟩
    rw [hleaving]
    exact List.mem_cons_of_mem _ hq
  exact seats_modifyAway hbefore ⟨hchair, hlookon, hnodup.1⟩ item

theorem seats_addLookon (hinv : SeatInv opt s) (away : Away s p) (atLookon : AtLookon opt item) :
    SeatInv opt (({ s with
      table := { s.table with lookonUserItem := s.table.lookonUserItem ++ [p] } }
        : TableState).modifyUser p fun _ => item) := by
  -- the user is nowhere yet, so his item can change before the list does
  have hafter := seats_modifyAway hinv away item
  refine ⟨hafter.chair, fun q hq => ?_, ?_, fun q hq => ?_, hinv.leaving_nodup, hinv.count⟩
  · rcases List.mem_append.1 hq with hq | hq
    · exact hafter.lookon q hq
    · rw [List.mem_singleton.1 hq, users_modifyUser, if_pos rfl]
      exact atLookon
  · refine List.nodup_append.2 ⟨hinv.lookon_nodup, List.nodup_singleton p, ?_⟩
    rintro q hq r hr rfl
    rw [List.mem_singleton.1 hr] at hq
    exact away.lookon hq
  · obtain ⟨htable, hlookon, hchair⟩ := hafter.leaving q hq
    refine ⟨htable, fun hmem => ?_, hchair⟩
    rcases List.mem_append.1 hmem with hmem | hmem
    · exact hlookon hmem
    · rw [List.mem_singleton.1 hmem] at hq
      exact away.leaving hq

theorem seats_removeLookon (hinv : SeatInv opt s) (mem : p ∈ s.table.lookonUserItem)
    (item : ServerUserItem) :
    SeatInv opt (({ s with
      table := { s.table with lookonUserItem := s.table.lookonUserItem.erase p } }
        : TableState).modifyUser p fun _ => item) := by
  have hbefore : SeatInv opt ({ s with
      table := { s.table with lookonUserItem := s.table.lookonUserItem.erase p } }
        : TableState) := by
    refine ⟨hinv.chair, fun q hq => hinv.lookon q (List.mem_of_mem_erase hq),
      hinv.lookon_nodup.erase p, fun q hq => ?_, hinv.leaving_nodup, hinv.count⟩
    obtain ⟨htable, hlookon, hchair⟩ := hinv.leaving q hq
    exact ⟨htable, fun hmem => hlookon (List.mem_of_mem_erase hmem), hchair⟩
  -- he was in the list once, so he is in it no more
  refine seats_modifyAway hbefore ⟨fun c hc => (hinv.chair_only hc).1 mem, fun hmem => ?_,
    fun hmem => (hinv.leaving p hmem).2.1 mem⟩ item
  exact hinv.lookon_nodup.not_mem_erase hmem

/-- **Every move keeps the seats.** -/
theorem Moves.seats (h : Moves opt ok s s' out) : SeatInv opt s → SeatInv opt s' := by
  induction h with
  | control users chairs lookon _ count leaving =>
    exact fun hinv => seats_control hinv users chairs lookon count leaving
  | user stays _ => exact fun hinv => seats_modifyUser hinv stays
  | outside stays _ => exact fun hinv => seats_modifyUser hinv stays
  | sit lt _ away atChair _ => exact fun hinv => seats_sit hinv lt away atChair
  | leave chair _ => exact fun hinv => seats_leave hinv chair
  | endLeave waits _ => exact fun hinv => seats_endLeave hinv waits _
  | addLookon away atLookon _ => exact fun hinv => seats_addLookon hinv away atLookon
  | removeLookon mem _ => exact fun hinv => seats_removeLookon hinv mem _
  | freeze chair _ atChair =>
    intro hinv
    exact seats_control (seats_modifyUser hinv (hinv.stays_at_chair chair atChair))
      rfl rfl rfl rfl rfl
  | unFreeze chair atChair =>
    intro hinv
    exact seats_control (seats_modifyUser hinv (hinv.stays_at_chair chair atChair))
      rfl rfl rfl rfl rfl
  | trans _ _ ih ih' => exact fun hinv => ih' (ih hinv)

end GameServer.GameService
