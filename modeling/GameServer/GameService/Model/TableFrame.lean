import GameServer.GameService.Model.ServerUser
/-!
# GameService — a table

`CTableFrame` seats users at its chairs, keeps those who look on in a
list and runs their game. Its functions call the game (the sink) and the
match or private room behind it (the hook), and these call the table
again: standing up in a game makes the sink conclude it, which stands
others up. So a function is cut where it calls out. What is left of it
waits on a stack (`Frame`); while a call is out the sink may call the
table, and when it returns the part that waits goes on. A loop over the
chairs goes on one chair at a time.

Users are known by the address of their item, as the table knows them.
The rest of the server changes items too (`outside`). What a function
is refused for by data that is not modelled here (rules of the room,
passwords, addresses, scores needed to enter, the sink's own answer) is
an argument. The parts that only tell clients and the database are left
out.
-/

namespace GameServer.GameService

open Function

/-- `MAX_CHAIR`, the length of the table's arrays. -/
def maxChair : ℕ := 100

/-- `START_MODE_ALL_READY` to `START_MODE_MASTER_CONTROL`. -/
inductive StartMode where
  | allReady
  | fullReady
  | pairReady
  | timeControl
  | masterControl
  deriving DecidableEq, Repr

def gameGenreGold : UInt16 := 0x0001

def gameGenreMatch : UInt16 := 0x0004

def gameGenrePrivate : UInt16 := 0x0010

def gameStatusPlay : UInt8 := 100

/-- What a table reads of `tagGameServiceOption` and
`tagGameServiceAttrib`, and its own number. -/
structure TableOption where
  tableID : ℕ
  tableID_lt : tableID < invalidTable
  chairCount : ℕ
  chairCount_le : chairCount ≤ maxChair
  serverType : UInt16
  serviceScore : Score
  minTableScore : Score := 0
  /-- The game and the room both let users join a running game. -/
  dynamicJoin : Bool := false
  avertCheatMode : Bool := false
  startMode : StartMode := .allReady
  winExperience : UInt32 := 0
  failExperience : UInt32 := 0

structure TableFrame where
  tableUserItem : ℕ → Option ℕ := fun _ => none
  lookonUserItem : List ℕ := []
  frozenedScore : ℕ → Score := fun _ => 0
  userCount : ℕ := 0
  gameStarted : Bool := false
  drawStarted : Bool := false
  tableStarted : Bool := false
  gameStatus : UInt8 := 0

/-- What is left of a function that called out. -/
inductive Frame where
  /-- The sink or the hook runs. -/
  | sink
  /-- `ConcludeGame` at a chair of its first loop. -/
  | concludeUsers (chairID : ℕ)
  /-- The private room's status of a user who was stood up there. -/
  | concludeReStatus (user : ℕ)
  /-- `ConcludeGame` behind `RepositionSink`. -/
  | afterConclude
  /-- `ConcludeGame` at a chair of its second loop. -/
  | kickUsers (chairID : ℕ)
  /-- `ConcludeGame` behind the stand-up of a user short of score. -/
  | kickLookon (chairID user : ℕ)
  /-- `PerformStandUpAction` behind `OnEventGameConclude`. -/
  | standUpLeave (user chairID : ℕ) (tableUser : Option ℕ) (userStatus : UserStatus)
      (initiative : Bool)
  /-- `PerformStandUpAction` behind `OnActionUserStandUp`. -/
  | standUpEnd (user : ℕ) (userStatus : UserStatus)
  /-- `OnEventUserOffLine` behind `PerformStandUpAction`. -/
  | offLineEnd (user : ℕ)
  deriving DecidableEq, Repr

/-- A table, the users, and what waits. -/
structure TableState where
  users : ℕ → ServerUserItem
  table : TableFrame := {}
  stack : List Frame := []

/-- What moves a user's score into what is frozen and out of it. -/
inductive TableOutput where
  /-- `FrozenedUserScore` succeeded. -/
  | frozened (user : ℕ) (lScore : Score)
  /-- `UnFrozenedUserScore` succeeded. -/
  | unFrozened (user : ℕ) (lScore : Score)
  /-- The service charge of `WriteUserScore`. -/
  | charged (user : ℕ) (lScore : Score)
  /-- The rest of the server froze more, or less. -/
  | elsewhere (user : ℕ) (lScore : Score)
  deriving DecidableEq, Repr

namespace TableState

variable (opt : TableOption) (s : TableState)

/-! ## Parts -/

def getTableUserItem (chairID : ℕ) : Option ℕ :=
  if chairID < opt.chairCount then s.table.tableUserItem chairID else none

def getSitUserCount : ℕ :=
  (List.range opt.chairCount).countP fun c => (s.getTableUserItem opt c).isSome

/-- The cached count taken anew. -/
def recount : TableState :=
  { s with table := { s.table with userCount := s.getSitUserCount opt } }

def modifyUser (user : ℕ) (f : ServerUserItem → ServerUserItem) : TableState :=
  { s with users := update s.users user (f (s.users user)) }

def setStatus (user : ℕ) (userStatus : UserStatus) (tableID chairID : ℕ) : TableState :=
  s.modifyUser user fun u => u.setUserStatus userStatus tableID chairID

def setClientReady (user : ℕ) (clientReady : Bool) : TableState :=
  s.modifyUser user fun u => { u with clientReady }

def setTrusteeUser (user : ℕ) : TableState :=
  s.modifyUser user fun u => { u with trusteeUser := true }

def push (frames : List Frame) : TableState := { s with stack := frames ++ s.stack }

def setChair (chairID : ℕ) (user : Option ℕ) : TableState :=
  { s with table := { s.table with tableUserItem := update s.table.tableUserItem chairID user } }

def setFrozened (chairID : ℕ) (lScore : Score) : TableState :=
  { s with table := { s.table with frozenedScore := update s.table.frozenedScore chairID lScore } }

/-- The service score is noted at the chair and then frozen. That this
may fail is not looked at. -/
def freeze (chairID user : ℕ) : TableState × List TableOutput :=
  if opt.serviceScore > 0 then
    let r := (s.users user).frozenedUserScore opt.serviceScore
    ((s.setFrozened chairID opt.serviceScore).modifyUser user fun _ => r.1,
      if r.2 then [.frozened user opt.serviceScore] else [])
  else (s, [])

/-- `UnFrozenedUserScore` of what is noted at the chair. -/
def unFreeze (chairID user : ℕ) : TableState × List TableOutput :=
  let lScore := s.table.frozenedScore chairID
  let r := (s.users user).unFrozenedUserScore lScore
  ((s.modifyUser user fun _ => r.1).setFrozened chairID 0,
    if r.2 then [.unFrozened user lScore] else [])

/-- The same where it is tested that something is noted. -/
def unFreezeSome (chairID user : ℕ) : TableState × List TableOutput :=
  if s.table.frozenedScore chairID ≠ 0 then s.unFreeze chairID user else (s, [])

def concludeTable : TableState :=
  if s.table.gameStarted = false ∧ s.table.tableStarted = true then
    if s.getSitUserCount opt = 0 ∨ opt.chairCount = maxChair ∨ opt.startMode = .fullReady ∨
        opt.startMode = .pairReady ∨ opt.startMode = .allReady then
      { s with table := { s.table with tableStarted := false } }
    else s
  else s

def chairReady (readyChairID chairID : ℕ) : Bool :=
  match s.getTableUserItem opt chairID with
  | none => true
  | some user =>
      (s.users user).clientReady &&
        (readyChairID == chairID || (s.users user).userStatus == .ready)

def efficacyStartGame (readyChairID : ℕ) : Bool :=
  !s.table.gameStarted &&
    ((List.range opt.chairCount).all fun c => s.chairReady opt readyChairID c) &&
    match opt.startMode with
    | .timeControl | .masterControl => false
    | .allReady => decide (2 ≤ s.getSitUserCount opt)
    | .fullReady => decide (s.getSitUserCount opt = opt.chairCount)
    | .pairReady =>
        decide (s.getSitUserCount opt = opt.chairCount) ||
          (decide (2 ≤ s.getSitUserCount opt ∧ s.getSitUserCount opt % 2 = 0) &&
            (List.range (opt.chairCount / 2)).all fun c =>
              (s.getTableUserItem opt c).isSome ==
                (s.getTableUserItem opt (c + opt.chairCount / 2)).isSome)

/-! ## Starting -/

/-- `StartGame` at one chair. -/
def startUser (chairID : ℕ) : TableState × List TableOutput :=
  match s.getTableUserItem opt chairID with
  | none => (s, [])
  | some user =>
      let r := s.freeze opt chairID user
      let userStatus := (r.1.users user).userStatus
      (if userStatus ≠ .offline ∧ userStatus ≠ .playing then
        r.1.setStatus user .playing opt.tableID chairID else r.1, r.2)

/-- `StartGame` at all chairs. -/
def startUsers : List ℕ → TableState → TableState × List TableOutput
  | [], s => (s, [])
  | c :: cs, s =>
      let r := s.startUser opt c
      let r' := startUsers cs r.1
      (r'.1, r.2 ++ r'.2)

def startGame : TableState × List TableOutput :=
  if s.table.drawStarted then (s, [])
  else
    let begun :=
      { s with
        table := { s.table with gameStarted := true, drawStarted := true, tableStarted := true } }
    let r := if s.table.gameStarted then (begun, [])
      else startUsers opt (List.range opt.chairCount) begun
    (r.1.push [.sink], r.2)

/-! ## Standing up -/

/-- `PerformStandUpAction` from the second look at the server type on. -/
def standUpGo (user chairID : ℕ) (tableUser : Option ℕ) (userStatus : UserStatus)
    (initiative : Bool) : TableState × List TableOutput :=
  -- a match goes on for a user who leaves; he is played for
  if opt.serverType = gameGenreMatch ∧ initiative then
    if (s.users user).trusteeUser then (s, []) else ((s.setTrusteeUser user).push [.sink], [])
  else if tableUser = some user then
    let r := (s.setChair chairID none).unFreezeSome chairID user
    (r.1.push [.sink, .standUpEnd user userStatus], r.2)
  else (s, [])

def performStandUpAction (user : ℕ) (initiative : Bool) : TableState × List TableOutput :=
  let u := s.users user
  if u.userStatus = .lookon then
    (if user ∈ s.table.lookonUserItem then
      (({ s with
          table := { s.table with lookonUserItem := s.table.lookonUserItem.erase user } }
        : TableState).setClientReady user false).setStatus user .free invalidTable invalidChair
      else s, [])
  else
    -- taken before the sink is asked, and compared after it
    let tableUser := s.getTableUserItem opt u.chairID
    if s.table.gameStarted ∧ (u.userStatus = .playing ∨ u.userStatus = .offline) then
      if opt.serverType = gameGenreMatch then ((s.setTrusteeUser user).push [.sink], [])
      else (s.push [.sink, .standUpLeave user u.chairID tableUser u.userStatus initiative], [])
    else s.standUpGo opt user u.chairID tableUser u.userStatus initiative

/-- The end of `PerformStandUpAction`, when the user has left his chair,
up to the test whether the others start. -/
def standUpLeft (user : ℕ) (userStatus : UserStatus) : TableState :=
  let s := (s.setClientReady user false).setStatus user
    (if userStatus = .offline then .null else .free) invalidTable invalidChair
  (s.recount opt).concludeTable opt

/-- The whole end. The users that are left may be distributed to other
tables. -/
def standUpEnd (user : ℕ) (userStatus : UserStatus) : TableState × List TableOutput :=
  let s := s.standUpLeft opt user userStatus
  let r := if s.efficacyStartGame opt invalidChair then s.startGame opt else (s, [])
  (r.1.push [.sink], r.2)

/-! ## Sitting down and looking on -/

/-- The status a user gets when he sits down at a table that does not
play. -/
def sitStatus : UserStatus :=
  if opt.avertCheatMode = false ∧ opt.serverType &&& gameGenreMatch = 0 then .sit else .ready

/-- `PerformSitDownAction` at the user's status, his chair being
written. -/
def sitDown (chairID user : ℕ) : TableState × List TableOutput :=
  if s.table.gameStarted = false ∨ opt.startMode ≠ .timeControl then
    ((s.setClientReady user (opt.serverType = gameGenreMatch ∧ (s.users user).trusteeUser)).setStatus
      user (sitStatus opt) opt.tableID chairID, [])
  else
    let r := s.freeze opt chairID user
    ((r.1.setClientReady user false).setStatus user .playing opt.tableID chairID, r.2)

/-- `PerformSitDownAction`. The chair is written without a test. -/
def performSitDownAction (chairID user : ℕ) (refused : Bool) :
    Option (TableState × List TableOutput) :=
  if refused ∨ (s.table.gameStarted ∧ opt.dynamicJoin = false) ∨
      (s.getTableUserItem opt chairID).isSome then some (s, [])
  else if maxChair ≤ chairID then none
  else
    let r := (s.setChair chairID (some user)).sitDown opt chairID user
    some ((r.1.recount opt).push [.sink], r.2)

def addLookon (chairID user : ℕ) : TableState :=
  (({ s with table := { s.table with lookonUserItem := s.table.lookonUserItem ++ [user] } }
    : TableState).setClientReady user true).setStatus user .lookon opt.tableID chairID

def performLookonAction (chairID user : ℕ) (refused : Bool) : TableState :=
  if refused then s else (s.addLookon opt chairID user).push [.sink]

def performRecoerLookOn (chairID user : ℕ) : TableState :=
  if chairID = invalidChair then s else s.addLookon opt chairID user

/-! ## Concluding -/

def concludeGame (gameStatus : UInt8) : TableState :=
  if s.table.gameStarted = false then s
  else
    let goesOn := decide (gameStatus ≥ gameStatusPlay)
    let s :=
      { s with table := { s.table with drawStarted := false, gameStatus, gameStarted := goesOn } }
    s.push ((if goesOn then [] else [.concludeUsers 0]) ++ [.sink, .afterConclude])

/-- `ConcludeGame` at a chair of its first loop. -/
def concludeUser (chairID : ℕ) : TableState × List TableOutput :=
  if chairID < opt.chairCount then
    -- the rest of the loop waits below what a stand-up pushes
    let s := s.push [.concludeUsers (chairID + 1)]
    match s.table.tableUserItem chairID with
    | none => (s, [])
    | some user =>
        let r := s.unFreezeSome chairID user
        if (r.1.users user).userStatus = .offline then
          if opt.serverType ≠ gameGenreMatch then
            let s := if opt.serverType = gameGenrePrivate then r.1.push [.concludeReStatus user]
              else r.1
            let r' := s.performStandUpAction opt user false
            (r'.1, r.2 ++ r'.2)
          else ((r.1.setClientReady user true).setStatus user .sit opt.tableID chairID, r.2)
        else (r.1.setStatus user .sit opt.tableID chairID, r.2)
  else (s, [])

/-- `ConcludeGame` at a chair of its second loop. `leaves` is whether the
room is closed to the user or a robot wants to leave. -/
def kickUser (chairID : ℕ) (leaves : Bool) : TableState × List TableOutput :=
  if chairID < opt.chairCount then
    let s := s.push [.kickUsers (chairID + 1)]
    match s.table.tableUserItem chairID with
    | none => (s, [])
    | some user =>
        if opt.minTableScore ≠ 0 ∧ (s.users user).lScore < opt.minTableScore then
          (s.push [.kickLookon (s.users user).chairID user]).performStandUpAction opt user false
        else if leaves then s.performStandUpAction opt user false
        else (s, [])
  else (s.concludeTable opt, [])

/-! ## Scores -/

structure ScoreInfo where
  lScore : Score
  lGrade : Score := 0
  lRevenue : Score := 0
  type : UInt8

/-- `WriteUserScore`. `buckle` is the sink's `QueryBuckleServiceCharge`. -/
def writeUserScore (chairID : ℕ) (info : ScoreInfo) (buckle : Bool) (playTimeCount : UInt32) :
    TableState × List TableOutput :=
  match s.getTableUserItem opt chairID with
  | none => (s, [])
  | some user =>
      let lRevenue := min (s.table.frozenedScore chairID) opt.serviceScore
      let charged := opt.serviceScore > 0 ∧ opt.serverType = gameGenreGold ∧ buckle
      let w : ScoreWrite :=
        { lScore := if charged then info.lScore - lRevenue else info.lScore
          lGrade := info.lGrade
          lRevenue := if charged then info.lRevenue + lRevenue else info.lRevenue
          scoreType := info.type
          playTimeCount
          winExperience := if info.type = scoreTypeWin then opt.winExperience else opt.failExperience }
      -- whether the release succeeds makes no difference to the charge
      let r := if charged then s.unFreeze chairID user else (s, [])
      (r.1.modifyUser user fun u => (u.writeUserScore w).1,
        r.2 ++ if charged then [.charged user lRevenue] else [])

/-! ## Losing and finding the connection -/

def onEventUserOffLine (user : ℕ) : TableState × List TableOutput :=
  let u := s.users user
  let leave := (s.push [.offLineEnd user]).performStandUpAction opt user true
  if u.userStatus = .lookon then leave
  else if s.getTableUserItem opt u.chairID ≠ some user then (s, [])
  -- a private room keeps the seat in any case, the others in a game
  else if opt.serverType = gameGenrePrivate then
    (((s.modifyUser user fun u => { u with reUserStatus := u.userStatus }).setStatus user .offline
      opt.tableID u.chairID).push [.sink], [])
  else if u.userStatus = .playing then
    let s := (s.setClientReady user false).setStatus user .offline opt.tableID u.chairID
    (if opt.serverType = gameGenreMatch ∧ u.trusteeUser then s
      else if opt.serverType = gameGenreMatch then (s.setTrusteeUser user).push [.sink]
      else s.push [.sink], [])
  else leave

def offLineEnd (user : ℕ) : TableState :=
  if opt.serverType = gameGenreMatch ∧ (s.users user).trusteeUser then s
  else s.setStatus user .null invalidTable invalidChair

def switchUserItemConnect (user : ℕ) : TableState :=
  let u := s.users user
  if u.userStatus = .offline then
    s.setStatus user (if opt.serverType = gameGenrePrivate then u.reUserStatus else .playing)
      u.tableID u.chairID
  else s

end TableState

/-! ## Steps -/

inductive TableCall where
  | startGame
  | concludeGame (gameStatus : UInt8)
  | writeUserScore (chairID : ℕ) (info : TableState.ScoreInfo) (buckle : Bool)
      (playTimeCount : UInt32)
  | performSitDownAction (chairID user : ℕ) (refused : Bool)
  | performLookonAction (chairID user : ℕ) (refused : Bool)
  | performRecoerLookOn (chairID user : ℕ)
  | performStandUpAction (user : ℕ) (initiative : Bool)
  | onEventUserOffLine (user : ℕ)
  | switchUserItemConnect (user : ℕ)

/-- A step: a call, made from outside or by the sink; what waits goes
on, with an answer where it asks for one; or the rest of the server
changes a user's item. -/
inductive TableEvent where
  | call (c : TableCall)
  | resume (answer : Bool)
  | outside (user : ℕ) (item : ServerUserItem)

namespace TableState

variable (opt : TableOption)

def exec (s : TableState) : TableCall → Option (TableState × List TableOutput)
  | .startGame => some (s.startGame opt)
  | .concludeGame gameStatus => some (s.concludeGame gameStatus, [])
  | .writeUserScore chairID info buckle playTimeCount =>
      some (s.writeUserScore opt chairID info buckle playTimeCount)
  | .performSitDownAction chairID user refused => s.performSitDownAction opt chairID user refused
  | .performLookonAction chairID user refused =>
      some (s.performLookonAction opt chairID user refused, [])
  | .performRecoerLookOn chairID user => some (s.performRecoerLookOn opt chairID user, [])
  | .performStandUpAction user initiative => some (s.performStandUpAction opt user initiative)
  | .onEventUserOffLine user => some (s.onEventUserOffLine opt user)
  | .switchUserItemConnect user => some (s.switchUserItemConnect opt user, [])

/-- What goes on with a frame taken from the stack. -/
def goOn (s : TableState) (answer : Bool) : Frame → Option (TableState × List TableOutput)
  | .sink => some (s, [])
  | .concludeUsers chairID => some (s.concludeUser opt chairID)
  | .concludeReStatus user =>
      some (s.modifyUser user fun u => { u with reUserStatus := .sit }, [])
  | .afterConclude =>
      some (if s.table.gameStarted then s.concludeTable opt else s.push [.kickUsers 0], [])
  | .kickUsers chairID => some (s.kickUser opt chairID answer)
  | .kickLookon chairID user =>
      some (if (s.users user).androidUser then s
        else s.performLookonAction opt chairID user answer, [])
  | .standUpLeave user chairID tableUser userStatus initiative =>
      if maxChair ≤ chairID then none
      else if s.table.tableUserItem chairID ≠ some user then some (s, [])
      else some (s.standUpGo opt user chairID tableUser userStatus initiative)
  | .standUpEnd user userStatus => some (s.standUpEnd opt user userStatus)
  | .offLineEnd user => some (s.offLineEnd opt user, [])

/-- Whether the table can be called: nothing waits, or the sink runs. -/
def callable (s : TableState) : Bool :=
  match s.stack with
  | [] | .sink :: _ => true
  | _ => false

/-- The table as a machine. A call at any other time is no step. -/
def step : Machine TableState TableEvent TableOutput
  | s, .call c => if s.callable then s.exec opt c else some (s, [])
  | s, .resume answer =>
      match s.stack with
      | [] => some (s, [])
      | f :: stack => { s with stack }.goOn opt answer f
  | s, .outside user item =>
      some (s.modifyUser user fun _ => item,
        [.elsewhere user (item.frozenedScore - (s.users user).frozenedScore)])

end TableState

end GameServer.GameService
