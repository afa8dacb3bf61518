import GameServer.MatchService.Model.Distribute
import GameServer.GameService.Model.TableFrame
/-!
# MatchService — seating the users of a timed match

`CLockTimeMatch::PerformDistribute` draws as many users as a table has
chairs and seats them at the first empty table. Each of them leaves the
table of his last game first, and a user who stands up at a table is taken
out of the queue by the match, which the table tells of it
(`OnActionUserStandUp`). If one of them may not sit down, the others who
are at a table stand up as well. A user in a running game stays, and a
table that someone leaves may start its next game.
-/

namespace GameServer.MatchService

open Function GameService

/-- What is read of `tagGameServiceOption` and `tagGameServiceAttrib`. -/
structure SeatOption where
  wChairCount : ℕ
  wTableCount : ℕ
  wMinDistributeUser : ℕ
  startMode : StartMode := .allReady
  /-- The number of tables is a `WORD`. -/
  tables_le : wTableCount ≤ invalidTable
  deriving DecidableEq, Repr

/-- What happens in `PerformDistribute`. -/
inductive SeatEvent where
  /-- A user sits down. -/
  | seat (userID wTableID wChairID : ℕ)
  /-- A user may not sit down. -/
  | refuse (userID : ℕ)
  /-- A node is taken out of the queue, and goes back to the pool. -/
  | remove (userID node : ℕ)
  deriving DecidableEq, Repr

/-- The queue, the users and the tables of a match, the number of the
selections so far, and what has happened in them. -/
structure MatchRoom where
  manage : DistributeManage
  userItem : ℕ → MatchUser
  tableUserItem : ℕ → ℕ → Option ℕ
  gameStarted : ℕ → Bool
  round : ℕ := 0
  events : List SeatEvent := []

/-- What is decided elsewhere: the numbers `rand` and `time` give, whom a
rule keeps from a chair, whether a table that someone has left starts its
next game, and who sat together last, once it has. -/
structure Given where
  rand : ℕ → ℕ := fun _ => 0
  time : ℕ → ℕ := fun _ => 0
  refused : MatchRoom → (userID wTableID wChairID : ℕ) → Bool := fun _ _ _ _ => false
  efficacyStartGame : MatchRoom → (wTableID : ℕ) → Bool := fun _ _ => false
  sameTable : MatchRoom → (wTableID userID : ℕ) → List ℕ := fun s _ => s.manage.sameTable

namespace MatchRoom

variable (opt : SeatOption) (given : Given) (s : MatchRoom)

/-- Something has happened. -/
def emit (event : SeatEvent) : MatchRoom := { s with events := s.events ++ [event] }

def removeNode (p : ℕ) : Option MatchRoom :=
  (s.manage.removeDistributeNode p).map fun manage =>
    let removed := { s with manage }
    if p ∈ s.manage.queue then removed.emit (.remove (s.manage.node p).userID p) else removed

/-- `RemoveDistribute`, which `OnActionUserStandUp` calls. -/
def removeDistribute (userID : ℕ) : Option MatchRoom :=
  match s.manage.searchNode userID with
  | none => some s
  | some p => s.removeNode p

/-! ## CTableFrame -/

/-- `GetNullChairID`, as the loop over the chairs finds it. -/
def getNullChairID (wTableID : ℕ) : Option ℕ :=
  (List.range opt.wChairCount).find? fun c => s.tableUserItem wTableID c = none

def playUsers (wTableID : ℕ) : List ℕ → MatchRoom → MatchRoom
  | [], s => s
  | c :: chairs, s =>
      match s.tableUserItem wTableID c with
      | none => playUsers wTableID chairs s
      | some userID =>
          let user := s.userItem userID
          if user.userStatus = .offline ∨ user.userStatus = .playing then
            playUsers wTableID chairs s
          else
            playUsers wTableID chairs { s with
              userItem := update s.userItem userID
                { user with userStatus := .playing, wTableID, wChairID := c } }

/-- `StartGame`, at a table without a game, with the `OnEventGameStart` of
the match. -/
def startGame (wTableID : ℕ) : MatchRoom :=
  let s := { s with gameStarted := update s.gameStarted wTableID true }
  let s := playUsers wTableID (List.range opt.wChairCount) s
  { s with manage := { s.manage with sameTable := given.sameTable s wTableID } }

/-- A user leaves his chair: `PerformStandUpAction` up to the notice. -/
def leaveChair (wTableID userID : ℕ) : MatchRoom :=
  { s with
    tableUserItem := update s.tableUserItem wTableID
      (update (s.tableUserItem wTableID) (s.userItem userID).wChairID none) }

/-- He is at no table any more: `SetUserStatus` behind the notice. -/
def freeUser (userID : ℕ) : MatchRoom :=
  { s with
    userItem := update s.userItem userID
      { s.userItem userID with
        userStatus := if (s.userItem userID).userStatus = .offline then .null else .free
        wTableID := invalidTable
        wChairID := invalidChair } }

def nextGame (wTableID : ℕ) : MatchRoom :=
  if s.gameStarted wTableID = false ∧ given.efficacyStartGame s wTableID then
    s.startGame opt given wTableID
  else s

/-- A user in a running game of a match is only set as trustee. -/
def keepsSeat (wTableID userID : ℕ) : Prop :=
  s.gameStarted wTableID = true ∧
    ((s.userItem userID).userStatus = .playing ∨ (s.userItem userID).userStatus = .offline)

instance (wTableID userID : ℕ) : Decidable (s.keepsSeat wTableID userID) := by
  unfold keepsSeat
  infer_instance

def performStandUpAction (wTableID userID : ℕ) : Option MatchRoom :=
  if (s.userItem userID).userStatus = .lookon then some (s.freeUser userID)
  else if s.keepsSeat wTableID userID then some s
  else if s.tableUserItem wTableID (s.userItem userID).wChairID = some userID then
    ((s.leaveChair wTableID userID).removeDistribute userID).map fun s =>
      (s.freeUser userID).nextGame opt given wTableID
  else some s

def performSitDownAction (wTableID wChairID userID : ℕ) : Option MatchRoom :=
  if given.refused s userID wTableID wChairID then none
  else if (s.tableUserItem wTableID wChairID).isSome then none
  else
    let userStatus : UserStatus :=
      if s.gameStarted wTableID = false ∨ opt.startMode ≠ .timeControl then .ready else .playing
    some { s with
      userItem := update s.userItem userID
        { s.userItem userID with userStatus, wTableID, wChairID }
      tableUserItem := update s.tableUserItem wTableID
        (update (s.tableUserItem wTableID) wChairID (some userID)) }

/-! ## CLockTimeMatch -/

/-- A drawn user leaves his table, if he is at one. -/
def standUp (userID : ℕ) : Option MatchRoom :=
  if (s.userItem userID).wTableID ≠ invalidTable then
    s.performStandUpAction opt given (s.userItem userID).wTableID userID
  else some s

/-- The loop of `PerformDistribute` that seats the drawn users, up to the
first who may not sit down, with his index. -/
def sitDowns (wTableID : ℕ) : MatchRoom → ℕ → List DistributeInfo → Option (MatchRoom × Option ℕ)
  | s, _, [] => some (s, none)
  | s, nIndex, info :: drawn =>
      match s.getNullChairID opt wTableID with
      | none => sitDowns wTableID s (nIndex + 1) drawn
      | some wChairID =>
          match s.standUp opt given info.userID with
          | none => none
          | some s =>
              match s.performSitDownAction opt given wTableID wChairID info.userID with
              | none => some (s.emit (.refuse info.userID), some nIndex)
              | some s =>
                  sitDowns wTableID (s.emit (.seat info.userID wTableID wChairID)) (nIndex + 1)
                    drawn

/-- `RemoveDistributeNode` for the node a drawn user has come from. -/
def removePertain (info : DistributeInfo) : Option MatchRoom :=
  match info.pPertainNode with
  | none => some s
  | some p => s.removeNode p

/-- The loop of `PerformDistribute` behind a success. -/
def removeDrawn : MatchRoom → List DistributeInfo → Option MatchRoom
  | s, [] => some s
  | s, info :: drawn => (s.removePertain info).bind fun s => removeDrawn s drawn

/-- The loop of `PerformDistribute` behind a failure: the user who may not
sit down is removed, the others who are at a table stand up. -/
def standUps (nSitFailedIndex : ℕ) : MatchRoom → ℕ → List DistributeInfo → Option MatchRoom
  | s, _, [] => some s
  | s, nIndex, info :: drawn =>
      (if nIndex = nSitFailedIndex then s.removePertain info
        else s.standUp opt given info.userID).bind fun s =>
          standUps nSitFailedIndex s (nIndex + 1) drawn

/-- What a selection comes to: the loop ends, or goes on. -/
inductive Pass where
  | done (s : MatchRoom)
  | more (s : MatchRoom)

/-- `pCurrTableFrame`: the first empty table. -/
def currTable : Option ℕ :=
  (List.range opt.wTableCount).find? fun t =>
    (List.range opt.wChairCount).all fun c => s.tableUserItem t c = none

def drawn : Option (List DistributeInfo) :=
  (s.manage.performDistribute s.userItem (given.rand s.round) (given.time s.round)
    opt.wChairCount).map Prod.fst

def nextRound : MatchRoom := { s with round := s.round + 1 }

/-- The drawn users take their seats at a table, or do not. -/
def seatDrawn (wTableID : ℕ) (drawn : List DistributeInfo) : Option MatchRoom :=
  (s.nextRound.sitDowns opt given wTableID 0 drawn).bind fun r =>
    match r.2 with
    | none => r.1.removeDrawn drawn
    | some nSitFailedIndex => standUps opt given nSitFailedIndex r.1 0 drawn

/-- A selection of `PerformDistribute`. -/
def selection : Option Pass :=
  (s.drawn opt given).bind fun drawn =>
    if word drawn.length < opt.wChairCount then some (.done s.nextRound)
    else
      match s.currTable opt with
      | none => some (.done s.nextRound)
      | some wTableID => (s.seatDrawn opt given wTableID drawn).map .more

def distributeLoop : ℕ → MatchRoom → Option MatchRoom
  | 0, _ => none
  | fuel + 1, s =>
      match s.selection opt given with
      | none => none
      | some (.done s) => some s
      | some (.more s) => distributeLoop fuel s

/-- `CLockTimeMatch::PerformDistribute`. -/
def performDistribute (matchStatus : LockTimeStatus) (fuel : ℕ) : Option (Bool × MatchRoom) :=
  if matchStatus ≠ .playing then some (true, s)
  else if s.manage.wNodeCount < opt.wMinDistributeUser then some (false, s)
  else (distributeLoop opt given fuel s).map (true, ·)

end MatchRoom

end GameServer.MatchService
