import GameServer.TreasureDB.BankService
import GameServer.TreasureDB.Model.RoomLogon
/-!
# TreasureDB — the score lock

A row of `GameScoreLocker` stands for all sessions of its user, but a leave
deletes it for the first of them that ends. So the lock holds as long as
the sessions of a user on a server end in the leave of the last one
(`score_lock_iff`); robots take no lock of their own.
-/

namespace GameServer.TreasureDB

open Sql

variable {db : LogonDatabase} {s : Rooms} {t t' : RoomTables} {p : LogonParam}
variable {serverID userID : ℤ}

/-! ## The lock -/

/-- The row of the user names the server. -/
def LockedAt (t : RoomTables) (userID serverID : ℤ) : Prop :=
  ∃ row, t.gameScoreLocker.lookup userID = some row ∧ row.serverID = some serverID

/-- Live sessions have their row, and those of one user are on one
server. -/
structure Locked (s : Rooms) : Prop where
  row : ∀ σ ∈ s.live, LockedAt s.tables σ.userID σ.serverID
  one : ∀ σ ∈ s.live, ∀ τ ∈ s.live, σ.userID = τ.userID → σ.serverID = τ.serverID

theorem LockedAt.unique {a b : ℤ} (ha : LockedAt t userID a) (hb : LockedAt t userID b) :
    a = b := by
  obtain ⟨row, hrow, hserver⟩ := ha
  obtain ⟨row', hrow', hserver'⟩ := hb
  rw [hrow] at hrow'
  cases hrow'
  rw [hserver] at hserver'
  exact Option.some.inj hserver'

/-- The row alone keeps the sessions of a user on one server. -/
theorem locked_of_row (h : ∀ σ ∈ s.live, LockedAt s.tables σ.userID σ.serverID) : Locked s where
  row := h
  one := by
    intro σ hσ τ hτ huser
    have hat := h σ hσ
    rw [huser] at hat
    exact hat.unique (h τ hτ)

theorem LockedAt.congr (h : LockedAt t userID serverID)
    (heq : t'.gameScoreLocker.lookup userID = t.gameScoreLocker.lookup userID) :
    LockedAt t' userID serverID := by
  obtain ⟨row, hrow, hserver⟩ := h
  exact ⟨row, heq.trans hrow, hserver⟩

/-! ## What a logon does -/

/-- A logon that takes the lock: the row is at its server after it, it was
at no other server before, and the rows of others stay. -/
structure TakesLock (t t' : RoomTables) (p : Caller) : Prop where
  locked : LockedAt t' p.userID p.serverID
  earlier : ∀ serverID, LockedAt t p.userID serverID → serverID = p.serverID
  others : ∀ userID, userID ≠ p.userID →
    t'.gameScoreLocker.lookup userID = t.gameScoreLocker.lookup userID

theorem openScore_locker (db : Database) (t : RoomTables) (userID : ℤ) :
    (openScore db t userID).2.gameScoreLocker = t.gameScoreLocker := by
  rw [openScore]
  split <;> rfl

theorem releaseLock_lookup_of_ne {userID' : ℤ} (h : userID' ≠ userID) :
    (releaseLock t userID serverID).gameScoreLocker.lookup userID' =
      t.gameScoreLocker.lookup userID' :=
  Table.lookup_deleteWhere_of_ne h

/-- After 锁定解除 the row of the user is not at the server. -/
theorem releaseLock_lockedAt {serverID' : ℤ} :
    LockedAt (releaseLock t userID serverID) userID serverID' ↔
      LockedAt t userID serverID' ∧ serverID' ≠ serverID := by
  constructor
  · rintro ⟨row, hrow, hserver⟩
    obtain ⟨hrow, hne⟩ := Table.lookup_deleteWhere_eq_some.1 hrow
    refine ⟨⟨row, hrow, hserver⟩, ?_⟩
    rintro rfl
    simp [hserver] at hne
  · rintro ⟨⟨row, hrow, hserver⟩, hne⟩
    exact ⟨row, Table.lookup_deleteWhere_eq_some.2 ⟨hrow, by simp [hserver, hne]⟩, hserver⟩

/-- A logon that takes the lock is admitted or leaves the locks alone. -/
theorem enterLocked_cases (db : Database) (account : AccountsInfo) (describe : Option String)
    (p : Caller) (score : GameScore) (before t : RoomTables) :
    (∃ answer tables, enterLocked db account describe p score before t = ⟨answer, tables, none⟩ ∧
      tables.gameScoreLocker = before.gameScoreLocker) ∨
    ∃ answer tables i, enterLocked db account describe p score before t =
      ⟨answer, tables, some ⟨p.userID, p.serverID, i⟩⟩ ∧ TakesLock t tables p := by
  rw [enterLocked]
  cases lockedIn (releaseLock t p.userID p.serverID) p.userID with
  | some room => exact .inl ⟨_, _, rfl, rfl⟩
  | none =>
    by_cases hmem : p.userID ∈ (releaseLock t p.userID p.serverID).gameScoreLocker
    · simp only [if_pos hmem]
      exact .inl ⟨_, _, rfl, rfl⟩
    · simp only [if_neg hmem]
      refine .inr ⟨_, _, _, rfl, ?_, ?_, ?_⟩
      · exact ⟨_, AList.lookup_insert _, rfl⟩
      · intro serverID hat
        by_contra hne
        obtain ⟨row, hrow, -⟩ := releaseLock_lockedAt.2 ⟨hat, hne⟩
        rw [AList.lookup_eq_none.2 hmem] at hrow
        cases hrow
      · intro userID hne
        exact (AList.lookup_insert_ne hne).trans (releaseLock_lookup_of_ne hne)

/-- The logons that pass every check before the lock. -/
def Passes (db : LogonDatabase) (t : RoomTables) (p : LogonParam) : Prop :=
  (efficacyUserChecks db p).isOk = true ∧ 0 ≤ (openScore db.toDatabase t p.userID).1.score

instance : Decidable (Passes db t p) := inferInstanceAs (Decidable (_ ∧ _))

/-- How a logon ends: it is refused and the locks stay, it takes the lock,
or it is a robot's and goes without. -/
inductive LogonEnds (t : RoomTables) (p : Caller) : Logon → Prop
  | refused (answer : LogonAnswer) (tables : RoomTables)
      (h : tables.gameScoreLocker = t.gameScoreLocker) : LogonEnds t p ⟨answer, tables, none⟩
  | locks (answer : LogonAnswer) (tables : RoomTables) (i : ℤ) (h : TakesLock t tables p) :
      LogonEnds t p ⟨answer, tables, some ⟨p.userID, p.serverID, i⟩⟩

/-- The tables are opened before the lock is taken, which leaves the locks
alone. -/
theorem enterLocked_ends (db : Database) (account : AccountsInfo) (describe : Option String)
    (p : Caller) (t : RoomTables) (score : GameScore) :
    LogonEnds t p
      (enterLocked db account describe p score t (openScore db t p.userID).2) := by
  obtain ⟨answer, tables, heq, h⟩ | ⟨answer, tables, i, heq, h⟩ :=
    enterLocked_cases db account describe p score t (openScore db t p.userID).2
  · rw [heq]
    exact .refused answer tables h
  · rw [heq]
    have hlocker := openScore_locker db t p.userID
    refine .locks answer tables i ⟨h.locked, fun serverID hat => ?_, fun userID hne => ?_⟩
    · exact h.earlier serverID (hat.congr (by rw [hlocker]))
    · rw [h.others userID hne, hlocker]

theorem efficacyMobile_ends (db : LogonDatabase) (t : RoomTables) (p : LogonParam) :
    LogonEnds t p.toCaller (efficacyMobile db t p) := by
  rw [efficacyMobile]
  cases efficacyMobileChecks db p with
  | error r => exact .refused _ _ rfl
  | ok account =>
    simp only
    split
    · exact .refused _ _ rfl
    · exact enterLocked_ends db.toDatabase account none p.toCaller t _

theorem efficacyUserID_ends (h : p.clientIP ≠ robotIP) :
    LogonEnds t p.toCaller (efficacyUserID db t p) := by
  rw [efficacyUserID]
  cases efficacyUserChecks db p with
  | error r => exact .refused _ _ rfl
  | ok account =>
    simp only [if_neg h]
    split
    · exact .refused _ _ rfl
    · exact enterLocked_ends db.toDatabase account (moorDescribe account) p.toCaller t _

/-- A robot that passes the checks is live without a lock. -/
theorem efficacyUserID_robot (hip : p.clientIP = robotIP) (h : Passes db t p) :
    ∃ answer tables i, efficacyUserID db t p = ⟨answer, tables, some ⟨p.userID, p.serverID, i⟩⟩ ∧
      tables.gameScoreLocker = t.gameScoreLocker := by
  obtain ⟨hchecks, hscore⟩ := h
  rw [efficacyUserID]
  cases hok : efficacyUserChecks db p with
  | error r => rw [hok] at hchecks; cases hchecks
  | ok account =>
    simp only [if_neg (show ¬(openScore db.toDatabase t p.userID).1.score < 0 by omega), if_pos hip]
    exact ⟨_, _, _, rfl, openScore_locker db.toDatabase t p.userID⟩

theorem efficacyUserID_robot_refused (h : ¬Passes db t p) :
    ∃ answer, efficacyUserID db t p = ⟨answer, t, none⟩ := by
  rw [efficacyUserID]
  cases hok : efficacyUserChecks db p with
  | error r => exact ⟨_, rfl⟩
  | ok account =>
    have hscore : (openScore db.toDatabase t p.userID).1.score < 0 := by
      by_contra hscore
      exact h ⟨by rw [hok]; rfl, by omega⟩
    simp only [if_pos hscore]
    exact ⟨_, rfl⟩

/-! ## Steps -/

/-- **A logon that takes the lock keeps it held.** -/
theorem LogonEnds.locked {p : Caller} {l : Logon} (hends : LogonEnds s.tables p l) (hs : Locked s) :
    Locked (s.enter l) := by
  cases hends with
  | refused answer tables h =>
    exact locked_of_row fun σ hσ => (hs.row σ hσ).congr (by rw [Rooms.enter, h])
  | locks answer tables i h =>
    refine locked_of_row fun σ hσ => ?_
    obtain rfl | hσ := List.mem_cons.1 hσ
    · exact h.locked
    · by_cases huser : σ.userID = p.userID
      · -- a session that was live before is at the server of the logon
        have hat := hs.row σ hσ
        rw [huser] at hat
        rw [huser, h.earlier _ hat]
        exact h.locked
      · exact (hs.row σ hσ).congr (h.others _ huser)

/-- A robot is held by the lock exactly when the row is there already. -/
theorem locked_enter_free {answer : LogonAnswer} {tables : RoomTables} {σ : Session}
    (h : tables.gameScoreLocker = s.tables.gameScoreLocker) (hs : Locked s) :
    Locked (s.enter ⟨answer, tables, some σ⟩) ↔ LockedAt s.tables σ.userID σ.serverID := by
  have hcongr : ∀ u v, LockedAt tables u v ↔ LockedAt s.tables u v := by
    intro u v
    exact ⟨fun hat => hat.congr (by rw [h]), fun hat => hat.congr (by rw [h])⟩
  constructor
  · intro hnext
    exact (hcongr _ _).1 (hnext.row σ List.mem_cons_self)
  · intro hat
    refine locked_of_row fun τ hτ => (hcongr _ _).2 ?_
    obtain rfl | hτ := List.mem_cons.1 hτ
    · exact hat
    · exact hs.row τ hτ

/-- A leave that is not the last of its user takes the row away from the
sessions that stay. -/
theorem locked_leave_iff {σ : Session} {q : LeaveParam} (hσ : σ ∈ s.live) (hs : Locked s) :
    Locked ⟨leaveGameServer s.tables σ q, s.live.erase σ⟩ ↔
      ∀ τ ∈ s.live.erase σ, τ.userID ≠ σ.userID := by
  have hrelease : ∀ u v, LockedAt (leaveGameServer s.tables σ q) u v ↔
      LockedAt (releaseLock s.tables σ.userID σ.serverID) u v := fun u v => Iff.rfl
  constructor
  · intro hnext τ hτ huser
    have hat := (hrelease _ _).1 (hnext.row τ hτ)
    rw [huser] at hat
    -- the row of the user was at the server of `σ`, and is deleted
    obtain ⟨hat, hne⟩ := releaseLock_lockedAt.1 hat
    exact hne (hat.unique (hs.row σ hσ))
  · intro hlast
    refine locked_of_row fun τ hτ => (hrelease _ _).2 ?_
    have hne := hlast τ hτ
    exact (hs.row τ (List.mem_of_mem_erase hτ)).congr (releaseLock_lookup_of_ne hne)

/-! ## Runs -/

/-- What the lock needs of a step: a leave is the last of its user, and a
robot that is admitted finds the row of its account at the server. -/
def LockOk (s : Rooms) : RoomCall → Prop
  | .efficacyUserID db p => p.clientIP = robotIP → Passes db s.tables p →
      LockedAt s.tables p.userID p.serverID
  | .efficacyMobile _ _ => True
  | .leaveGameServer σ _ => σ ∈ s.live → ∀ τ ∈ s.live.erase σ, τ.userID ≠ σ.userID
  | .writeGameScore _ _ _ _ => True

/-- **One call keeps the lock exactly when it meets the condition.** -/
theorem locked_step_iff (s : Rooms) (e : RoomCall) (hs : Locked s) :
    Locked (roomStep s e).1 ↔ LockOk s e := by
  cases e with
  | efficacyUserID db p =>
    simp only [roomStep, LockOk]
    by_cases hip : p.clientIP = robotIP
    · by_cases hpass : Passes db s.tables p
      · obtain ⟨answer, tables, i, heq, hlocker⟩ := efficacyUserID_robot hip hpass
        rw [heq, locked_enter_free hlocker hs]
        exact ⟨fun hat _ _ => hat, fun hat => hat hip hpass⟩
      · obtain ⟨answer, heq⟩ := efficacyUserID_robot_refused hpass
        rw [heq]
        exact ⟨fun _ _ h => absurd h hpass, fun _ => hs⟩
    · exact ⟨fun _ h => absurd h hip, fun _ => (efficacyUserID_ends hip).locked hs⟩
  | efficacyMobile db p =>
    simp only [roomStep, LockOk, iff_true]
    exact (efficacyMobile_ends db s.tables p).locked hs
  | leaveGameServer σ q =>
    simp only [roomStep, LockOk]
    by_cases hσ : σ ∈ s.live
    · rw [if_pos hσ, locked_leave_iff hσ hs]
      exact ⟨fun h _ => h, fun h => h hσ⟩
    · rw [if_neg hσ]
      exact ⟨fun _ h => absurd h hσ, fun _ => hs⟩
  | writeGameScore σ a b c =>
    simp only [roomStep, LockOk, iff_true]
    split
    · exact ⟨hs.row, hs.one⟩
    · exact hs

theorem locked_empty (t : RoomTables) : Locked ⟨t, []⟩ :=
  locked_of_row fun _ h => absurd h List.not_mem_nil

/-- **The score lock.** From rooms without sessions, in every state of a run
each live session has its row and a user is live on one server at most,
exactly when every call of the run meets the condition. -/
theorem score_lock_iff (t : RoomTables) (es : List RoomCall) :
    (∀ n, Locked (roomStep.run ⟨t, []⟩ (es.take n)).1) ↔ roomStep.Along LockOk ⟨t, []⟩ es :=
  TotalMachine.inv_prefixes_iff locked_step_iff es ⟨t, []⟩ (locked_empty t)

/-! ## Two sessions on a server -/

/-- One account, without confinements. -/
def oneAccount : LogonDatabase where
  accountsInfo := [⟨7, some "n", none, some 0, some 0, some 0, some 0, none⟩]
  defaultScore := 1000
  logonPass := fun _ => some "p"
  dynamicPass := fun _ => some "p"

def logonAt (serverID : ℤ) : LogonParam where
  userID := 7
  kindID := 1
  serverID := serverID
  clientIP := "10.0.0.1"
  machineID := "m"
  password := "p"

def leaveEmpty : LeaveParam := ⟨0, 0, 0, 0, ⟨0, "10.0.0.1", "m", 0, 0, 0⟩⟩

/-- Two logons on one server, the leave of the first, and a logon on
another server. -/
def lateLeave : List RoomCall :=
  [.efficacyUserID oneAccount (logonAt 1), .efficacyUserID oneAccount (logonAt 1),
    .leaveGameServer ⟨7, 1, 0⟩ leaveEmpty, .efficacyUserID oneAccount (logonAt 2)]

theorem score_lock_two_servers :
    (roomStep.run ⟨⟨∅, ∅, ∅, 0⟩, []⟩ lateLeave).1.live = [⟨7, 2, 2⟩, ⟨7, 1, 1⟩] ∧
      ¬∀ n, Locked (roomStep.run ⟨⟨∅, ∅, ∅, 0⟩, []⟩ (lateLeave.take n)).1 := by
  have hlive : (roomStep.run ⟨⟨∅, ∅, ∅, 0⟩, []⟩ lateLeave).1.live = [⟨7, 2, 2⟩, ⟨7, 1, 1⟩] := by
    decide +kernel
  refine ⟨hlive, fun h => ?_⟩
  have hone := (h 4).one
  exact absurd (hone ⟨7, 2, 2⟩ (by decide) ⟨7, 1, 1⟩ (by decide) rfl) (by decide)

end GameServer.TreasureDB
