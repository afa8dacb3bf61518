import GameServer.Common.Run
import Mathlib.Algebra.Group.Nat.Defs
/-!
# MatchService — immediate matches

`CImmediateMatch` collects sign-ups in one current group. The sign-up that
fills the group starts it: the group gets a number for its timers and a new
current group is made, with tables of its own from the free list.

The tables themselves, the database and the clock are the environment: an
event carries what the match reads of them. A step faults where the code
divides by zero or indexes an array past its end. It emits the requests
posted to the database and the fee deductions the database reports.
-/

namespace GameServer.MatchService

inductive MatchStatus
  | null
  | signup
  | wait
  | firstRound
  deriving DecidableEq

/-- The sign-up status of a user item, `MS_NULL` to `MS_OUT`. -/
inductive SignUpStatus
  | null
  | signup
  | matching
  | matchEnd
  | out
  deriving DecidableEq

structure MatchManagerParameter where
  matchID : ℕ
  matchFee : ℤ
  startUserCount : ℕ
  androidUserCount : ℕ
  initalBase : ℕ
  initalScore : ℕ
  minEnterGold : ℕ
  /-- `wChairCount` of the service attributes. -/
  chairCount : ℕ
  tableCount : ℕ
  /-- `IsForfendRoomEnter` of the service's rule. -/
  forfendRoomEnter : Bool := false
  /-- `IsAndroidUser` of the user items. -/
  isAndroidUser : ℕ → Bool := fun _ => false

def MatchManagerParameter.groupChairCount (o : MatchManagerParameter) : ℕ :=
  if o.chairCount > o.startUserCount then o.startUserCount else o.chairCount

/-- `CImmediateGroup`: the keys of `m_OnMatchUserMap` and the table
numbers of `m_MatchTableArray`. -/
structure ImmediateGroup where
  matchNO : ℕ
  matchStatus : MatchStatus := .signup
  loopTimer : ℕ := 0
  androidUserCount : ℕ := 0
  onMatchUserMap : List ℕ := []
  matchTableArray : List ℕ
  deriving DecidableEq

/-- `CImmediateMatch`, with the sign-up status of the user items. -/
structure ImmediateMatch where
  onMatchUserItem : List ℕ := []
  loopTimer : List ℕ
  freeTableID : List ℕ
  matchGroup : List ImmediateGroup := []
  overMatchGroup : List ImmediateGroup := []
  curMatchGroup : ImmediateGroup
  signUpStatus : ℕ → SignUpStatus := fun _ => .null

inductive DBRequest
  | matchSignup (userID : ℕ) (matchFee : ℤ) (matchID matchNO : ℕ)
  | matchUnsignup (userID : ℕ) (matchFee : ℤ) (matchID matchNO : ℕ)
  | matchOver (matchID matchNO : ℕ)
  deriving DecidableEq

/-- A request is posted, or the database reports that it took the fee of a
user. -/
inductive Notice
  | posted (r : DBRequest)
  | deducted (userID : ℕ)
  deriving DecidableEq

/-- What a sign-up reads of the tables: `GetChairCount`, `GetTableUserItem`
of a table and chair, and the answer of `PerformSitDownAction`. -/
structure TableFrames where
  chairCount : ℕ
  tableUser : ℕ → ℕ → Option ℕ
  performSitDown : ℕ → ℕ → ℕ → Bool

/-! ## Tables and numbers -/

/-- The loop of `GetNullTable` from index `i` on: the tables left free and
the tables taken. -/
def takeTables (free : List ℕ) (i : ℕ) : ℕ → Option (List ℕ × List ℕ)
  | 0 => some (free, [])
  | n + 1 =>
      match free[i]? with
      | none => none
      | some id =>
          (takeTables (free.eraseIdx i) (i + 1) n).map fun (left, taken) => (left, id :: taken)

def getNullTable (free : List ℕ) (tableCount : ℕ) : Option (List ℕ × List ℕ) :=
  if free.length < tableCount then some (free, []) else takeTables free 0 tableCount

def recoverTable (free : List ℕ) (tables : List ℕ) : List ℕ := free ++ tables

def MatchManagerParameter.groupTableCount (o : MatchManagerParameter) : ℕ :=
  max 1 (o.startUserCount / o.groupChairCount)

/-- The constructor of `CImmediateGroup`: the group and the tables left
free. -/
def newGroup (o : MatchManagerParameter) (matchNO : ℕ) (free : List ℕ) :
    Option (ImmediateGroup × List ℕ) :=
  if o.groupChairCount = 0 then none
  else (getNullTable free o.groupTableCount).map fun (left, taken) =>
    ({ matchNO := matchNO, matchTableArray := taken }, left)

/-- `InitMatchInterface` and `OnStartService`. -/
def onStartService (o : MatchManagerParameter) (now : ℕ) : Option ImmediateMatch :=
  (newGroup o now (List.range o.tableCount)).map fun (group, left) =>
    { loopTimer := List.range 79, freeTableID := left, curMatchGroup := group }

/-- `OnEventMatchStart` for the current group, which it is given in
`group`. -/
def onEventMatchStart (o : MatchManagerParameter) (now : ℕ) (m : ImmediateMatch)
    (group : ImmediateGroup) : Option ImmediateMatch :=
  match m.loopTimer with
  | [] => none
  | number :: numbers =>
      (newGroup o now m.freeTableID).map fun (next, left) =>
        { m with
          loopTimer := numbers
          freeTableID := left
          matchGroup := m.matchGroup ++ [{ group with loopTimer := number }]
          curMatchGroup := next }

/-! ## Sign-up -/

/-- `UserSitDown`: the first empty chair of the group's tables, if the
table takes the user there. -/
def userSitDown (frames : TableFrames) (tables : List ℕ) (userID : ℕ) : Bool :=
  let chairs := tables.flatMap fun table => (List.range frames.chairCount).map (table, ·)
  match chairs.find? fun (table, chair) => (frames.tableUser table chair).isNone with
  | some (table, chair) => frames.performSitDown table chair userID
  | none => false

def efficacyStartMatch (o : MatchManagerParameter) (now : ℕ) (m : ImmediateMatch) :
    Option ImmediateMatch :=
  let group := { m.curMatchGroup with matchStatus := .firstRound }
  onEventMatchStart o now
    { m with
      curMatchGroup := group
      signUpStatus := fun u => if u ∈ group.onMatchUserMap then .matching else m.signUpStatus u }
    group

/-- `CImmediateGroup::OnUserSignUpMatch` of the current group: its answer
and the match it leaves. -/
def onUserSignUpMatch (o : MatchManagerParameter) (frames : TableFrames) (now : ℕ)
    (m : ImmediateMatch) (userID : ℕ) : Option (Bool × ImmediateMatch) :=
  let group := m.curMatchGroup
  if userID ∈ group.onMatchUserMap then some (false, m)
  else if group.onMatchUserMap.length ≥ o.startUserCount then some (false, m)
  else if userSitDown frames group.matchTableArray userID = false then some (false, m)
  else
    let group := { group with onMatchUserMap := group.onMatchUserMap ++ [userID] }
    let m := { m with
      curMatchGroup := group
      signUpStatus := Function.update m.signUpStatus userID .signup }
    if o.isAndroidUser userID ∧ group.androidUserCount ≥ o.androidUserCount then some (false, m)
    else
      let group := { group with
        androidUserCount := group.androidUserCount + (if o.isAndroidUser userID then 1 else 0) }
      let m := { m with curMatchGroup := group }
      if group.onMatchUserMap.length ≥ o.startUserCount then
        (efficacyStartMatch o now m).map fun m => (true, m)
      else some (true, m)

/-- `OnEventDataBase` on a sign-up result for the fee of `requester`, handed
in with the user item now bound to the connection. -/
def onSignUpResult (o : MatchManagerParameter) (frames : TableFrames) (now : ℕ)
    (m : ImmediateMatch) (item : Option ℕ) (resultCode : Bool) : Option ImmediateMatch :=
  match item with
  | none => some m
  | some userID =>
      if resultCode = false then some m
      else (onUserSignUpMatch o frames now m userID).map fun (success, m) =>
        if success then { m with onMatchUserItem := m.onMatchUserItem ++ [userID] } else m

/-- `OnEventDataBase` on the result of a refund. -/
def onUnsignUpResult (m : ImmediateMatch) (item : Option ℕ) (resultCode : Bool) :
    ImmediateMatch :=
  match item with
  | none => m
  | some userID =>
      if resultCode = false then m
      else { m with signUpStatus := Function.update m.signUpStatus userID .null }

/-- `OnEventSocketMatch` on `SUB_GR_MATCH_FEE`; `fee` is absent when the
size of the message is wrong. -/
def onMatchFee (o : MatchManagerParameter) (m : ImmediateMatch) (userID : ℕ) (fee : Option ℤ) :
    List Notice :=
  if fee = some o.matchFee then
    [.posted (.matchSignup userID o.matchFee o.matchID m.curMatchGroup.matchNO)]
  else []

/-- What `OnEventUserJoinMatch` reads of the user item: its status is
`US_FREE`, its table is `INVALID_TABLE`, its score. -/
structure JoinUser where
  userID : ℕ
  free : Bool
  noTable : Bool
  userScore : ℤ

/-- The score a user must have when the match is played with it. -/
def MatchManagerParameter.enterScore (o : MatchManagerParameter) : ℤ :=
  (o.initalBase * o.minEnterGold % 2 ^ 32 : ℕ) + o.matchFee

/-- `OnEventUserJoinMatch`. A user who has to pay is asked first. -/
def onEventUserJoinMatch (o : MatchManagerParameter) (m : ImmediateMatch) (user : JoinUser) :
    ImmediateMatch × List Notice :=
  if o.forfendRoomEnter then (m, [])
  else if m.curMatchGroup.matchStatus = .wait then (m, [])
  else if user.userID ∈ m.onMatchUserItem then (m, [])
  else if m.loopTimer = [] then (m, [])
  else if ¬(user.free ∧ user.noTable) then (m, [])
  else if o.initalScore = 0 ∧ user.userScore < o.enterScore then (m, [])
  else if o.matchFee > 0 ∧ o.isAndroidUser user.userID = false then (m, [])
  else if o.matchFee = 0 ∨ o.isAndroidUser user.userID = true then
    if o.isAndroidUser user.userID ∧ m.curMatchGroup.androidUserCount ≥ o.androidUserCount then
      (m, [])
    else (m, onMatchFee o m user.userID (some o.matchFee))
  else ({ m with onMatchUserItem := m.onMatchUserItem ++ [user.userID] }, [])

/-! ## Quitting -/

/-- `CImmediateGroup::OnUserQuitMatch`: the group without the user, if it
has him. -/
def ImmediateGroup.onUserQuitMatch (o : MatchManagerParameter) (group : ImmediateGroup)
    (userID : ℕ) : Option ImmediateGroup :=
  if userID ∈ group.onMatchUserMap then
    some { group with
      onMatchUserMap := group.onMatchUserMap.erase userID
      androidUserCount := group.androidUserCount - (if o.isAndroidUser userID then 1 else 0) }
  else none

/-- The walk over the groups of a leave request: the first one that has the
user loses him. -/
def quitGroups (o : MatchManagerParameter) (userID : ℕ) :
    List ImmediateGroup → Option (List ImmediateGroup)
  | [] => none
  | group :: groups =>
      match group.onUserQuitMatch o userID with
      | some group => some (group :: groups)
      | none => (quitGroups o userID groups).map (group :: ·)

def usPlaying : ℕ := 5

/-- `OnEventUserQuitMatch` of a user with the given user status. -/
def onEventUserQuitMatch (o : MatchManagerParameter) (m : ImmediateMatch) (userID : ℕ)
    (userStatus : ℕ) : ImmediateMatch × List Notice :=
  if userStatus ≥ usPlaying then (m, [])
  else if m.signUpStatus userID = .matching then (m, [])
  else if userID ∈ m.onMatchUserItem then
    let m := { m with onMatchUserItem := m.onMatchUserItem.erase userID }
    let left := Function.update m.signUpStatus userID .null
    match quitGroups o userID m.matchGroup with
    | some groups => ({ m with matchGroup := groups, signUpStatus := left }, [])
    | none =>
        match m.curMatchGroup.onUserQuitMatch o userID with
        | some group =>
            ({ m with curMatchGroup := group, signUpStatus := left },
              if o.matchFee > 0 ∧ o.isAndroidUser userID = false then
                [.posted (.matchUnsignup userID o.matchFee o.matchID group.matchNO)]
              else [])
        | none => (m, [])
  else (m, [])

/-! ## Timers -/

def idiMatchModuleStart : ℕ := 200

def idiDeleteOverMatch : ℕ := idiMatchModuleStart + 1

def idiGroupTimerStart : ℕ := idiMatchModuleStart + 10

def idiLastMatchResult : ℕ := idiGroupTimerStart + 3

/-- `CImmediateGroup::MatchOver` and `OnEventMatchOver`. -/
def ImmediateGroup.matchOver (o : MatchManagerParameter) (group : ImmediateGroup) :
    ImmediateGroup × List Notice :=
  if group.matchStatus = .firstRound then
    ({ group with matchStatus := .null }, [.posted (.matchOver o.matchID group.matchNO)])
  else (group, [])

/-- `CImmediateGroup::OnTimeMessage`. The timers of the games move no
resource of the match. -/
def ImmediateGroup.onTimeMessage (o : MatchManagerParameter) (group : ImmediateGroup)
    (timerID : ℕ) : ImmediateGroup × List Notice :=
  if group.matchStatus = .null then (group, [])
  else if timerID = idiLastMatchResult then group.matchOver o
  else (group, [])

/-- The walk of `OnEventTimer` over the groups, from the last to the first. -/
def groupTimers (o : MatchManagerParameter) (timerID : ℕ) :
    List ImmediateGroup → List ImmediateGroup × List Notice
  | [] => ([], [])
  | group :: groups =>
      let (groups, notices) := groupTimers o timerID groups
      if group.loopTimer = (timerID - idiGroupTimerStart) / 10 then
        let (group, ended) := group.onTimeMessage o (timerID - group.loopTimer * 10)
        (group :: groups, notices ++ ended)
      else (group :: groups, notices)

/-- `OnEventTimer`. The timer `IDI_CHECK_OVER_MATCH` only traces. -/
def onEventTimer (o : MatchManagerParameter) (m : ImmediateMatch) (timerID : ℕ) :
    ImmediateMatch × List Notice :=
  if timerID ≥ idiGroupTimerStart then
    let (groups, notices) := groupTimers o timerID m.matchGroup
    ({ m with matchGroup := groups }, notices)
  else if timerID = idiDeleteOverMatch then
    ({ m with
      freeTableID := m.overMatchGroup.foldl (fun free g => recoverTable free g.matchTableArray)
        m.freeTableID
      overMatchGroup := [] }, [])
  else (m, [])

/-! ## The machine -/

/-- What reaches the match. -/
inductive Event
  | matchFee (userID : ℕ) (fee : Option ℤ)
  | signUpResult (requester : ℕ) (item : Option ℕ) (resultCode : Bool) (frames : TableFrames)
      (now : ℕ)
  | unsignUpResult (item : Option ℕ) (resultCode : Bool)
  | joinMatch (user : JoinUser)
  | leaveMatch (userID : ℕ) (userStatus : ℕ)
  | timer (timerID : ℕ)

def step (o : MatchManagerParameter) : Machine ImmediateMatch Event Notice
  | m, .matchFee userID fee => some (m, onMatchFee o m userID fee)
  | m, .signUpResult requester item resultCode frames now =>
      (onSignUpResult o frames now m item resultCode).map fun m =>
        (m, if resultCode then [.deducted requester] else [])
  | m, .unsignUpResult item resultCode => some (onUnsignUpResult m item resultCode, [])
  | m, .joinMatch user => some (onEventUserJoinMatch o m user)
  | m, .leaveMatch userID userStatus => some (onEventUserQuitMatch o m userID userStatus)
  | m, .timer timerID => some (onEventTimer o m timerID)

end GameServer.MatchService
