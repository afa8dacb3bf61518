import GameServer.MatchService.Model.Schedule
import GameServer.GameService.Model.ServerUser
/-!
# MatchService — the users a timed match has to seat

In `CLockTimeMatch` a user waits in a queue of its own
`CDistributeManager`, alone or at the table of his last game, until
enough of them can be seated together. The manager begins at a random
node, goes once around, and asks of each user whether he has waited long
enough and whether he may sit with those found before him. Who sat
together in the last game is kept for each user apart from the queue.

The links of the queue are a list of nodes here. The data of a node stay
in it when it goes back to the pool.
-/

namespace GameServer.MatchService

open Function GameService

def distributeWaitTimestamp : ℕ := 10

def distributeLastTable : ℕ := 0x04

def distributeSameAddress : ℕ := 0x08

/-- `CDistributeNodePool::BLOCK_SIZE`. -/
def distributeBlockSize : ℕ := 20

/-- `tagSameTableInfo` has room for so many players. -/
def samePlayerCount : ℕ := 16

/-- `m_pMatchOption`: what is read of it here. -/
structure LockTimeOption extends LockTime where
  lMatchCullScore : ℤ
  deriving DecidableEq, Repr

/-- What is read of an `IServerUserItem`. -/
structure MatchUser where
  androidUser : Bool := false
  clientAddr : ℕ := 0
  lScore : ℤ := 0
  userStatus : UserStatus := .free
  wTableID : ℕ := invalidTable
  wChairID : ℕ := invalidChair
  deriving DecidableEq, Repr

/-- `tagDistributeInfo`. A user item is known by the number of its
user. -/
structure DistributeInfo where
  wDistribute : ℕ := 0
  dwClientAddr : ℕ := 0
  dwInsertStamp : ℕ := 0
  userID : ℕ := 0
  pPertainNode : Option ℕ := none
  deriving DecidableEq, Repr

/-- `CDistributeManager`: the data of the nodes by address, how many nodes
have been made, the pool and the queue. A user who has no
`tagSameTableInfo` has an empty one, as `GetUserSameTableInfo` makes it. -/
structure DistributeManage where
  node : ℕ → DistributeInfo := fun _ => {}
  made : ℕ := 0
  freeList : List ℕ := []
  queue : List ℕ := []
  wNodeCount : ℕ := 0
  sameTable : ℕ → List ℕ := fun _ => []
  cbDistributeRule : ℕ := 0

namespace DistributeManage

variable (s : DistributeManage)

/-! ## The queue -/

def searchNode (userID : ℕ) : Option ℕ :=
  s.queue.find? fun p => (s.node p).userID = userID

/-- The pool, when it has a node to give: the node made last comes
first. -/
def supplied : DistributeManage :=
  match s.freeList with
  | _ :: _ => s
  | [] =>
      { s with
        made := s.made + distributeBlockSize
        freeList := ((List.range distributeBlockSize).map (s.made + ·)).reverse }

/-- A node behind the head of a list, or as its head. -/
def linkBehind (p : ℕ) : List ℕ → List ℕ
  | [] => [p]
  | head :: queue => head :: p :: queue

def addNode (p : ℕ) (freeList : List ℕ) (distributeInfo : DistributeInfo) : DistributeManage :=
  { s.supplied with
    freeList
    node := update s.node p { distributeInfo with pPertainNode := some p }
    queue := linkBehind p s.queue
    wNodeCount := word (s.wNodeCount + 1) }

def insertDistributeNode (distributeInfo : DistributeInfo) : Bool × DistributeManage :=
  match s.searchNode distributeInfo.userID with
  | some _ => (true, s)
  | none =>
      match s.supplied.freeList with
      | [] => (false, s.supplied)
      | p :: freeList => (true, s.addNode p freeList distributeInfo)

/-- `RemoveDistributeNode` for a node. Its user is looked up, also where
the node is in the pool again. What becomes of the queue if the user has
another node by then is left open. -/
def removeDistributeNode (p : ℕ) : Option DistributeManage :=
  match s.searchNode (s.node p).userID with
  | none => some s
  | some _ =>
      if p ∈ s.queue then
        some { s with
          queue := s.queue.erase p
          freeList := p :: s.freeList
          wNodeCount := word (s.wNodeCount + 65535) }
      else none

def removeDistributeUser (userID : ℕ) : Option DistributeManage :=
  match s.searchNode userID with
  | none => some s
  | some p => s.removeDistributeNode p

/-! ## The last table -/

/-- `ClearSameTableUser`, and `RemoveUserSameTableInfo`. -/
def clearSameTableUser (userID : ℕ) : DistributeManage :=
  { s with sameTable := update s.sameTable userID [] }

/-- `InserSameTableUser`. There is no look at the room that is left. -/
def inserSameTableUser (userID tableUserID : ℕ) : Option DistributeManage :=
  if (s.sameTable userID).length < samePlayerCount then
    some { s with sameTable := update s.sameTable userID (s.sameTable userID ++ [tableUserID]) }
  else none

/-- The inner loop of `OnEventGameStart`. -/
def insertTableUsers (userID : ℕ) : List (Option ℕ) → DistributeManage → Option DistributeManage
  | [], s => some s
  | none :: chairs, s => insertTableUsers userID chairs s
  | some tableUserID :: chairs, s =>
      if tableUserID = userID then insertTableUsers userID chairs s
      else (s.inserSameTableUser userID tableUserID).bind (insertTableUsers userID chairs)

/-- The outer loop of `OnEventGameStart`, over the chairs that are
left. -/
def startTableUsers (chairs : List (Option ℕ)) :
    List (Option ℕ) → DistributeManage → Option DistributeManage
  | [], s => some s
  | none :: rest, s => startTableUsers chairs rest s
  | some userID :: rest, s =>
      (insertTableUsers userID chairs (s.clearSameTableUser userID)).bind
        (startTableUsers chairs rest)

/-- `OnEventGameStart`, at a table with some users. -/
def onEventGameStart (chairs : List (Option ℕ)) : Option DistributeManage :=
  startTableUsers chairs chairs s

/-! ## PerformDistribute -/

def filterRuleExitsIPAddr (drawn : List DistributeInfo) (dwClientAddr : ℕ) : Bool :=
  drawn.any fun info => info.dwClientAddr = dwClientAddr

def filterRuleIsAllAndroid (userItem : ℕ → MatchUser) (drawn : List DistributeInfo)
    (userID : ℕ) : Bool :=
  !drawn.isEmpty && (drawn.all fun info => (userItem info.userID).androidUser) &&
    (userItem userID).androidUser

def filterRuleIsLastSameTable (drawn : List DistributeInfo) (userID : ℕ) : Bool :=
  drawn.any fun info => userID ∈ s.sameTable info.userID

/-- `bFirstSuccess`. The time since the insertion is a difference of
`DWORD`s. -/
def firstSuccess (userItem : ℕ → MatchUser) (dwCurrentStamp wNeedCount : ℕ)
    (drawn : List DistributeInfo) (info : DistributeInfo) : Bool :=
  if dword (dwCurrentStamp + 2 ^ 32 - info.dwInsertStamp) < distributeWaitTimestamp then false
  else if (drawn.head?.any fun first => first.wDistribute ≠ info.wDistribute) then false
  else if drawn.length + 1 = wNeedCount ∧ filterRuleIsAllAndroid userItem drawn info.userID then
    false
  else if s.cbDistributeRule &&& distributeSameAddress = 0 ∧
      filterRuleExitsIPAddr drawn info.dwClientAddr then false
  else if s.cbDistributeRule &&& distributeLastTable = 0 ∧
      s.filterRuleIsLastSameTable drawn info.userID then false
  else true

/-- The place of the next node in the queue, if there is one. -/
def nextNode (i : ℕ) : Option ℕ := if i + 1 < s.queue.length then some (i + 1) else none

/-- The loop over `wRandNodeIndex`. -/
def moveNodes : ℕ → Option ℕ → Option ℕ
  | 0, i => i
  | _ + 1, none => some 0
  | wRandNodeIndex + 1, some i => moveNodes wRandNodeIndex (s.nextNode i)

/-- `pMoveStartNode`, for a number of `rand`. -/
def moveStartNode (rand : ℕ) : Option ℕ :=
  if s.queue ≠ [] ∧ 1 < s.wNodeCount then s.moveNodes (rand % s.wNodeCount) (some 0) else none

/-- The loop of `PerformDistribute`, which ends where it has begun, with
the users it has drawn and all it has looked at. -/
def drawLoop (userItem : ℕ → MatchUser) (dwCurrentStamp wNeedCount start : ℕ) :
    ℕ → ℕ → List DistributeInfo → List DistributeInfo →
      Option (List DistributeInfo × List DistributeInfo)
  | 0, _, _, _ => none
  | fuel + 1, i, drawn, examined =>
      match s.queue[i]? with
      | none => none
      | some p =>
          let info := s.node p
          let drawn :=
            if s.firstSuccess userItem dwCurrentStamp wNeedCount drawn info then drawn ++ [info]
            else drawn
          let move := (s.nextNode i).getD 0
          if drawn.length = wNeedCount ∨ move = start then some (drawn, examined ++ [info])
          else
            drawLoop userItem dwCurrentStamp wNeedCount start fuel move drawn (examined ++ [info])

/-- `CDistributeManager::PerformDistribute`, with a number of `rand`. -/
def performDistribute (userItem : ℕ → MatchUser) (rand dwCurrentStamp wNeedCount : ℕ) :
    Option (List DistributeInfo × List DistributeInfo) :=
  match s.moveStartNode rand with
  | none => some ([], [])
  | some start =>
      s.drawLoop userItem dwCurrentStamp wNeedCount start s.queue.length start [] []

end DistributeManage

/-! ## CLockTimeMatch -/

/-- `VerifyUserEnterMatch`, at a time of the local clock. -/
def verifyUserEnterMatch (o : LockTimeOption) (curTime : ℕ) (user : MatchUser) : Bool :=
  if user.androidUser then true
  else if o.verifyMatchTime curTime = false then false
  else if 0 < o.lMatchCullScore ∧ user.lScore < o.lMatchCullScore then false
  else true

/-- `InsertDistribute`. The address of the user and his level stay those
of `ZeroMemory`. -/
def insertDistribute (o : LockTimeOption) (matchStatus : LockTimeStatus) (curTime time : ℕ)
    (user : MatchUser) (userID : ℕ) (s : DistributeManage) : Bool × DistributeManage :=
  if matchStatus ≠ .playing then (false, s)
  else if user.userStatus = .playing ∨ user.userStatus = .offline then (false, s)
  else if verifyUserEnterMatch o curTime user = false then (false, s)
  else
    let r := s.insertDistributeNode { dwInsertStamp := dword time, userID }
    (if r.1 then true else !user.androidUser, r.2)

inductive QueueEvent where
  /-- `InsertDistribute`. -/
  | insert (matchStatus : LockTimeStatus) (curTime time : ℕ) (user : MatchUser) (userID : ℕ)
  /-- `RemoveDistribute`. -/
  | remove (userID : ℕ)
  /-- `OnEventUserQuitMatch`. -/
  | quit (userID : ℕ)
  /-- `OnEventGameStart`. -/
  | gameStart (chairs : List (Option ℕ))
  deriving DecidableEq, Repr

def queueStep (o : LockTimeOption) : Machine DistributeManage QueueEvent Unit
  | s, .insert matchStatus curTime time user userID =>
      some ((insertDistribute o matchStatus curTime time user userID s).2, [])
  | s, .remove userID => (s.removeDistributeUser userID).map (·, [])
  | s, .quit userID =>
      (s.removeDistributeUser userID).map fun s => (s.clearSameTableUser userID, [])
  | s, .gameStart chairs => (s.onEventGameStart chairs).map (·, [])

end GameServer.MatchService
