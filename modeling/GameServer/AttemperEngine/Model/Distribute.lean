import GameServer.GameService.Model.TableFrame
/-!
# AttemperEngine — seating the users who wait

In a room against cheating a user does not choose his table. He waits in
the queue of `CDistributeManager`, and `PerformDistribute` draws users
from it and seats them together at the first empty table. If one of them
may not sit down, the others are stood up again, and a table that loses a
user that way sends its ready users back to the queue, which may draw
again at once (`DISTRIBUTE_IMMEDIATE`).

The nodes of the queue are a list, and a node is found by its user: every
user has one node at most. The functions that call each other are defined
by recursion on fuel.
-/

namespace GameServer.AttemperEngine

open Function GameService

def distributeImmediate : ℕ := 0x02

def distributeLastTable : ℕ := 0x04

def distributeSameAddress : ℕ := 0x08

/-- `tagDistributeInfo`. Its node is the one of its user. -/
structure DistributeInfo where
  wDistribute : ℕ := 0
  wLastTableID : ℕ := invalidTable
  userID : ℕ
  deriving DecidableEq, Repr

/-- What is read of an `IServerUserItem`. -/
structure WaitingUser where
  androidUser : Bool := false
  clientAddr : ℕ := 0
  userStatus : UserStatus := .free
  wTableID : ℕ := invalidTable
  wChairID : ℕ := invalidChair
  deriving DecidableEq, Repr

/-- What is read of `tagGameServiceOption` and `tagGameServiceAttrib`. -/
structure DistributeOption where
  wChairCount : ℕ
  wTableCount : ℕ
  cbDistributeRule : ℕ
  wMinDistributeUser : ℕ
  wMinPartakeGameUser : ℕ
  wMaxPartakeGameUser : ℕ
  avertCheatMode : Bool := false
  startMode : StartMode := .allReady

/-- The options of a room that seats its users, as the service runs with
them. -/
structure RectifiedOption extends DistributeOption where
  chairs_pos : 0 < wChairCount
  tables_le : wTableCount ≤ invalidTable
  two_le_minDistribute : 2 ≤ wMinDistributeUser
  le_minPartake : min 2 wChairCount ≤ wMinPartakeGameUser
  min_le_maxPartake : wMinPartakeGameUser ≤ wMaxPartakeGameUser
  maxPartake_le : wMaxPartakeGameUser ≤ wChairCount

namespace DistributeOption

variable (opt : DistributeOption)

/-- `wMinUserCount` of `GetTableUserInfo`. -/
def wMinUserCount : ℕ :=
  match opt.startMode with
  | .allReady => 2
  | .pairReady => 2
  | .timeControl => 1
  | _ => opt.wChairCount

end DistributeOption

/-- What happens in `PerformDistribute`, with the number of its
selection. -/
inductive DistributeEvent where
  /-- A user sits down. -/
  | seat (round userID wTableID wChairID : ℕ)
  /-- A user may not sit down. -/
  | refuse (round userID : ℕ)
  /-- A user is removed from the queue. -/
  | remove (round userID : ℕ)
  deriving DecidableEq, Repr

/-- The queue, the users and the tables of a room, the number of the
selections so far, and what has happened in them. -/
structure Hall where
  queue : List DistributeInfo
  userItem : ℕ → WaitingUser
  tableUserItem : ℕ → ℕ → Option ℕ
  round : ℕ := 0
  events : List DistributeEvent := []

/-- What is decided elsewhere: the numbers `rand` gives, whom a rule keeps
from a chair, and the state of the game at a table. -/
structure Given where
  rand : ℕ → ℕ := fun _ => 0
  refused : Hall → (userID wTableID wChairID : ℕ) → Bool := fun _ _ _ _ => false
  gameStarted : Hall → (wTableID : ℕ) → Bool := fun _ _ => false
  tableStarted : Hall → (wTableID : ℕ) → Bool := fun _ _ => false

/-! ## CDistributeManager -/

def searchNode (queue : List DistributeInfo) (userID : ℕ) : Option DistributeInfo :=
  queue.find? fun info => info.userID = userID

/-- `InsertDistributeNode`: behind the head. -/
def insertDistributeNode (queue : List DistributeInfo) (info : DistributeInfo) :
    Option (List DistributeInfo) :=
  if (searchNode queue info.userID).isSome then none
  else
    match queue with
    | [] => some [info]
    | head :: rest => some (head :: info :: rest)

def removeDistributeNode (queue : List DistributeInfo) (userID : ℕ) : List DistributeInfo :=
  queue.eraseP fun info => info.userID = userID

def filterRuleExitsIPAddr (userItem : ℕ → WaitingUser) (drawn : List DistributeInfo)
    (dwClientAddr : ℕ) : Bool :=
  drawn.any fun info => (userItem info.userID).clientAddr = dwClientAddr

def filterRuleExitsSameTable (drawn : List DistributeInfo) (wLastTableID : ℕ) : Bool :=
  drawn.any fun info => info.wLastTableID = wLastTableID ∧ wLastTableID ≠ invalidTable

def filterRuleIsAllAndroid (userItem : ℕ → WaitingUser) (drawn : List DistributeInfo)
    (userID : ℕ) : Bool :=
  !drawn.isEmpty && (drawn.all fun info => (userItem info.userID).androidUser) &&
    (userItem userID).androidUser

/-- `bFirstSuccess`: a user may be drawn with those drawn before. -/
def firstSuccess (cbDistributeRule : ℕ) (userItem : ℕ → WaitingUser) (wNeedCount : ℕ)
    (drawn : List DistributeInfo) (info : DistributeInfo) : Bool :=
  if (drawn.head?.any fun first => first.wDistribute ≠ info.wDistribute) then false
  else if drawn.length + 1 = wNeedCount ∧ filterRuleIsAllAndroid userItem drawn info.userID then
    false
  else if cbDistributeRule &&& distributeLastTable = 0 ∧
      filterRuleExitsSameTable drawn info.wLastTableID then false
  else if cbDistributeRule &&& distributeSameAddress = 0 ∧
      filterRuleExitsIPAddr userItem drawn (userItem info.userID).clientAddr then false
  else true

/-- The loop of `CDistributeManager::PerformDistribute`. -/
def drawFrom (cbDistributeRule : ℕ) (userItem : ℕ → WaitingUser) (wNeedCount : ℕ) :
    List DistributeInfo → List DistributeInfo → List DistributeInfo
  | drawn, [] => drawn
  | drawn, info :: queue =>
      let drawn :=
        if firstSuccess cbDistributeRule userItem wNeedCount drawn info then drawn ++ [info]
        else drawn
      -- behind a node only, so not behind the head that is drawn first
      if drawn.length = wNeedCount then drawn
      else drawFrom cbDistributeRule userItem wNeedCount drawn queue

/-- `CDistributeManager::PerformDistribute`. The number is asked only
behind the head. -/
def drawUsers (cbDistributeRule : ℕ) (userItem : ℕ → WaitingUser) (wNeedCount : ℕ) :
    List DistributeInfo → List DistributeInfo
  | [] => []
  | head :: queue => drawFrom cbDistributeRule userItem wNeedCount [head] queue

namespace Hall

variable (opt : RectifiedOption) (given : Given) (s : Hall)

/-! ## CTableFrame -/

def getNullChairID (wTableID : ℕ) : Option ℕ :=
  (List.range opt.wChairCount).find? fun c => s.tableUserItem wTableID c = none

def getSitUserCount (wTableID : ℕ) : ℕ :=
  (List.range opt.wChairCount).countP fun c => (s.tableUserItem wTableID c).isSome

/-- Something has happened. -/
def emit (event : DistributeEvent) : Hall := { s with events := s.events ++ [event] }

/-- A user's place, and the user at a chair. -/
def move (userID : ℕ) (userItem : WaitingUser) (wTableID wChairID : ℕ) (sitter : Option ℕ) :
    Hall :=
  { s with
    userItem := update s.userItem userID userItem
    tableUserItem := update s.tableUserItem wTableID
      (update (s.tableUserItem wTableID) wChairID sitter) }

/-- `PerformSitDownAction`. A taken chair is refused in such a room. -/
def performSitDownAction (wTableID wChairID userID : ℕ) : Option Hall :=
  if given.refused s userID wTableID wChairID then none
  else if (s.tableUserItem wTableID wChairID).isSome then none
  else
    let userStatus : UserStatus :=
      if given.gameStarted s wTableID = false ∨ opt.startMode ≠ .timeControl then
        if opt.avertCheatMode then .ready else .sit
      else .playing
    some (s.move userID { s.userItem userID with userStatus, wTableID, wChairID } wTableID wChairID
      (some userID))

/-- The part of `PerformStandUpAction` that leaves the chair. -/
def leaveChair (wTableID userID : ℕ) : Hall :=
  s.move userID
    { s.userItem userID with
      userStatus := if (s.userItem userID).userStatus = .offline then .null else .free
      wTableID := invalidTable
      wChairID := invalidChair }
    wTableID (s.userItem userID).wChairID none

def checkDistribute (wTableID : ℕ) : Bool :=
  opt.avertCheatMode && s.getSitUserCount opt wTableID < opt.wMinUserCount

/-- The loop in `PerformStandUpAction` that sends the ready users of a
table back to the queue. -/
def redistribute (insert : Hall → ℕ → Option (Bool × Hall)) (wTableID : ℕ) :
    Hall → List ℕ → Option Hall
  | s, [] => some s
  | s, c :: chairs =>
      match s.tableUserItem wTableID c with
      | none => redistribute insert wTableID s chairs
      | some userID =>
          if (s.userItem userID).userStatus = .ready then
            match insert s userID with
            | none => none
            | some r => redistribute insert wTableID r.2 chairs
          else redistribute insert wTableID s chairs

/-- `PerformStandUpAction`, with the `InsertDistribute` it calls. A game the
user plays would be concluded first, by its own code. -/
def performStandUpAction (insert : Hall → ℕ → Option (Bool × Hall)) (wTableID userID : ℕ) :
    Option Hall :=
  if (s.userItem userID).userStatus = .lookon then
    some { s with
      userItem := update s.userItem userID
        { s.userItem userID with
          userStatus := .free
          wTableID := invalidTable
          wChairID := invalidChair } }
  else if s.tableUserItem wTableID (s.userItem userID).wChairID = some userID then
    let s := s.leaveChair wTableID userID
    if opt.avertCheatMode = true ∧ opt.wChairCount < maxChair ∧
        given.tableStarted s wTableID = false ∧ s.checkDistribute opt wTableID = true then
      redistribute insert wTableID s (List.range opt.wChairCount)
    else some s
  else some s

/-! ## CAttemperEngineSink -/

/-- `RemoveDistributeNode` in `PerformDistribute`. -/
def removeNode (round userID : ℕ) : Hall :=
  { s with queue := removeDistributeNode s.queue userID }.emit (.remove round userID)

/-- The loop of `PerformDistribute` that seats the drawn users, up to the
first who may not sit down, with his index. -/
def sitDowns (round wTableID : ℕ) : Hall → ℕ → List DistributeInfo → Hall × Option ℕ
  | s, _, [] => (s, none)
  | s, nIndex, info :: drawn =>
      match s.getNullChairID opt wTableID with
      | none => sitDowns round wTableID s (nIndex + 1) drawn
      | some wChairID =>
          match s.performSitDownAction opt given wTableID wChairID info.userID with
          | none => (s.emit (.refuse round info.userID), some nIndex)
          | some seated =>
              sitDowns round wTableID (seated.emit (.seat round info.userID wTableID wChairID))
                (nIndex + 1) drawn

/-- The loop of `PerformDistribute` behind a failure: the user who may not
sit down is removed, the others who are at a table stand up. -/
def standUps (insert : Hall → ℕ → Option (Bool × Hall)) (round nSitFailedIndex : ℕ) :
    Hall → ℕ → List DistributeInfo → Option Hall
  | s, _, [] => some s
  | s, nIndex, info :: drawn =>
      if nIndex = nSitFailedIndex then
        standUps insert round nSitFailedIndex (s.removeNode round info.userID) (nIndex + 1) drawn
      else if (s.userItem info.userID).wTableID ≠ invalidTable then
        match s.performStandUpAction opt given insert (s.userItem info.userID).wTableID
            info.userID with
        | none => none
        | some s => standUps insert round nSitFailedIndex s (nIndex + 1) drawn
      else standUps insert round nSitFailedIndex s (nIndex + 1) drawn

/-- `wChairCount` in `PerformDistribute`: how many users are asked for. -/
def wNeedCount : ℕ :=
  opt.wMinPartakeGameUser +
    given.rand s.round % max (opt.wMaxPartakeGameUser - opt.wMinPartakeGameUser + 1) 1

/-- `DistributeInfoArray`: the users who are drawn. -/
def drawn : List DistributeInfo :=
  drawUsers opt.cbDistributeRule s.userItem (s.wNeedCount opt given) s.queue

/-- `pCurrTableFrame`: the first empty table. -/
def currTable : Option ℕ :=
  (List.range opt.wTableCount).find? fun t => s.getSitUserCount opt t = 0

/-- A selection in `PerformDistribute`, with the users and the table
found. -/
def seatDrawn (insert : Hall → ℕ → Option (Bool × Hall)) (drawn : List DistributeInfo)
    (wTableID : ℕ) : Option Hall :=
  let round := s.round
  let r := sitDowns opt given round wTableID { s with round := round + 1 } 0 drawn
  match r.2 with
  -- all of them are removed, also those for whom there was no chair
  | none => some (drawn.foldl (fun s info => s.removeNode round info.userID) r.1)
  | some nSitFailedIndex => standUps opt given insert round nSitFailedIndex r.1 0 drawn

def distributeLoop (insert : Hall → ℕ → Option (Bool × Hall)) : ℕ → Hall → Option Hall
  | 0, _ => none
  | fuel + 1, s =>
      if s.queue.length < opt.wMinPartakeGameUser then some s
      else if (s.drawn opt given).length < opt.wMinPartakeGameUser then
        some { s with round := s.round + 1 }
      else
        match s.currTable opt with
        | none => some { s with round := s.round + 1 }
        | some wTableID =>
            match s.seatDrawn opt given insert (s.drawn opt given) wTableID with
            | none => none
            | some s => distributeLoop insert fuel s

/-- `PerformDistribute`, with the `InsertDistribute` it may come to. -/
def performDistributeWith (insert : Hall → ℕ → Option (Bool × Hall)) (fuel : ℕ) :
    Option (Bool × Hall) :=
  if s.queue.length < opt.wMinDistributeUser then some (false, s)
  else (distributeLoop opt given insert fuel s).map fun s => (true, s)

/-- `InsertDistribute`, in a room without matches. -/
def insertDistribute : ℕ → Hall → ℕ → Option (Bool × Hall)
  | 0, _, _ => none
  | fuel + 1, s, userID =>
      let user := s.userItem userID
      if user.userStatus = .playing ∨ user.userStatus = .offline then some (false, s)
      else
        match insertDistributeNode s.queue { wLastTableID := user.wTableID, userID } with
        -- the user is in the queue, and stays where he is
        | none => some (!user.androidUser, s)
        | some queue =>
            let stood :=
              if user.wTableID ≠ invalidTable then
                performStandUpAction opt given { s with queue } (insertDistribute fuel)
                  user.wTableID userID
              else some { s with queue }
            match stood with
            | none => none
            | some s =>
                -- also while the call that has led here is still standing users up
                if opt.cbDistributeRule &&& distributeImmediate ≠ 0 then
                  (s.performDistributeWith opt given (insertDistribute fuel) fuel).map
                    fun r => (true, r.2)
                else some (true, s)

/-- `CAttemperEngineSink::PerformDistribute`. -/
def performDistribute (fuel : ℕ) : Option (Bool × Hall) :=
  s.performDistributeWith opt given (insertDistribute opt given fuel) fuel

end Hall

end GameServer.AttemperEngine
