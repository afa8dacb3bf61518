import GameServer.GameService.Model.ServerUser
import GameServer.OxBattle.Model.GameLogic
import Mathlib.Algebra.BigOperators.Fin
/-!
# Ox battle — the table

`CTableFrameSink` of the hundred-player game: the players stake on four
hands against the banker, who is a player that applied for it or the
system. With it goes what the table's frame does: who sits where, and
whether a game is on.

An event brings the hands that are compared: what the deal, the control
of the storage and the remote control put on the table. Scores are
integers; the one sum that a client can make wrap is taken at 64 bits.
-/

namespace GameServer.OxBattle

open GameService (UserStatus)
open Function

/-- `ID_TIAN_MEN` to `ID_HUANG_MEN`. -/
inductive Area where
  | tianMen
  | diMen
  | xuanMen
  | huangMen
  deriving DecidableEq, Repr

instance : Fintype Area :=
  ⟨{.tianMen, .diMen, .xuanMen, .huangMen}, fun a => by cases a <;> decide⟩

def Area.ofIndex : UInt8 → Option Area
  | 1 => some tianMen
  | 2 => some diMen
  | 3 => some xuanMen
  | 4 => some huangMen
  | _ => none

/-- `m_cbTableCardArray`: the hands of the banker and of the areas. -/
structure Hands where
  banker : List UInt8
  area : Area → List UInt8

/-- `GAME_SCENE_FREE`, `GAME_SCENE_PLACE_JETTON` and
`GAME_SCENE_GAME_END`. -/
inductive GameStatus where
  | free
  | placeJetton
  | gameEnd
  deriving DecidableEq, Repr

/-- The room's configuration, and the revenue of a winning. The code takes
`wRevenueRatio` thousandths of it in floating point; all that matters is
that it is an integer between zero and the winning. -/
structure RoomConfig where
  lApplyBankerCondition : ℤ := 100
  bankerTimeLimit : ℕ := 10
  bankerTimeAdd : ℕ := 10
  lExtraBankerScore : ℤ := 9000000000
  extraBankerTime : ℕ := 10
  lAreaLimitScore : ℤ := 2147483647
  lUserLimitScore : ℤ := 2147483647
  enableSysBanker : Bool := true
  maxChipRobot : ℕ := 10
  lRobotAreaLimit : ℤ := 50000000
  robotListMaxCount : ℕ := 5
  lMinTableScore : ℤ := 0
  revenue : ℤ → ℤ
  revenue_nonneg : ∀ w, 0 < w → 0 ≤ revenue w
  revenue_le : ∀ w, 0 < w → revenue w ≤ w

structure TableUser where
  userID : UInt32
  lScore : ℤ
  android : Bool := false
  userStatus : UserStatus := .sit
  deriving DecidableEq, Repr

structure ScoreInfo where
  win : Bool
  lScore : ℤ
  lRevenue : ℤ
  deriving DecidableEq, Repr

/-- `CTableFrameSink` with `n` chairs, and who sits on them. `jettonTime`
says that `m_dwJettonTime` is set: from the first player on a timer is
running, and the state of the game says which. -/
structure Table (n : ℕ) where
  tableUserItem : Fin n → Option TableUser := fun _ => none
  gameStatus : GameStatus := .free
  jettonTime : Bool := false
  allJettonScore : Area → ℤ := fun _ => 0
  userJettonScore : Area → Fin n → ℤ := fun _ _ => 0
  userWinScore : Fin n → ℤ := fun _ => 0
  userReturnScore : Fin n → ℤ := fun _ => 0
  userRevenue : Fin n → ℤ := fun _ => 0
  chipRobotCount : ℕ := 0
  robotAreaScore : Area → ℤ := fun _ => 0
  applyUserArray : List (Fin n) := []
  currentBanker : Option (Fin n) := none
  bankerTime : ℕ := 0
  addTime : ℕ := 0
  exchangeBanker : Bool := true
  bankerScore : ℤ := 0
  bankerWinScore : ℤ := 0
  bankerCurGameScore : ℤ := 0

/-- `WriteTableScore`, and the messages about a stake. -/
inductive Output (n : ℕ) where
  | writeTableScore (info : Fin n → Option ScoreInfo)
  | placeJetton (chair : Fin n) (area : Area) (lJettonScore : ℤ) (android : Bool)
  | placeJettonFail (chair : Fin n) (area : Area) (lJettonScore : ℤ)

def wrapLong (x : ℤ) : ℤ := Int.bmod x (2 ^ 64)

namespace Table

variable {n : ℕ} (cfg : RoomConfig) (s : Table n)

def userScore (c : Fin n) : ℤ := ((s.tableUserItem c).map TableUser.lScore).getD 0

/-- What a player has staked. -/
def jettonCount (c : Fin n) : ℤ := ∑ a, s.userJettonScore a c

/-! ## Stakes -/

def getUserMaxJetton (c : Fin n) (area : Area) : ℤ :=
  match s.tableUserItem c with
  | none => 0
  | some u =>
      let lNowJetton := s.jettonCount c
      let lBankerScore := (if s.currentBanker.isSome then s.bankerScore else 2147483647) -
        ∑ a, s.allJettonScore a * 10
      let lAreaLimitScore := cfg.lAreaLimitScore - s.allJettonScore area
      let lMeMaxScore := min ((u.lScore - lNowJetton * 10).tdiv 10) cfg.lUserLimitScore
      let lMeMaxScore := min lMeMaxScore lAreaLimitScore
      let lMeMaxScore := min lMeMaxScore (lBankerScore.tdiv 10)
      max lMeMaxScore 0

def saveJetton (c : Fin n) (area : Area) (lJettonScore : ℤ) : Table n :=
  { s with
    allJettonScore := update s.allJettonScore area (s.allJettonScore area + lJettonScore)
    userJettonScore := update s.userJettonScore area
      (update (s.userJettonScore area) c (s.userJettonScore area c + lJettonScore)) }

/-- The limits of a robot: whether his stake is ignored or refused, and
the counts it leaves. The search for his chips reads past the end of the
array; `beyond` is whether it finds something there. -/
def robotLimit (c : Fin n) (area : Area) (lJettonScore : ℤ) (beyond : Bool) :
    Option (Bool × Table n) :=
  if s.robotAreaScore area + lJettonScore > cfg.lRobotAreaLimit then none
  else
    let counted : Table n :=
      { s with robotAreaScore := update s.robotAreaScore area (s.robotAreaScore area + lJettonScore) }
    if (∃ a, s.userJettonScore a c ≠ 0) ∨ beyond then some (true, counted)
    else if s.chipRobotCount + 1 > cfg.maxChipRobot then some (false, s)
    else some (true, { counted with chipRobotCount := s.chipRobotCount + 1 })

/-- `OnUserPlaceJetton`, for a player who is playing. -/
def onUserPlaceJetton (c : Fin n) (jettonArea : UInt8) (lJettonScore : ℤ) (beyond : Bool) :
    Table n × List (Output n) :=
  match Area.ofIndex jettonArea with
  | none => (s, [])
  | some area =>
      if lJettonScore ≤ 0 then (s, [])
      else if s.gameStatus ≠ .placeJetton then (s, [.placeJettonFail c area lJettonScore])
      else if s.currentBanker = some c then (s, [])
      else if cfg.enableSysBanker = false ∧ s.currentBanker = none then (s, [])
      else
        match s.tableUserItem c with
        | none => (s, [])
        | some u =>
            let lJettonCount := s.jettonCount c
            if u.lScore < wrapLong (lJettonCount + lJettonScore) then (s, [])
            else if cfg.lUserLimitScore < wrapLong (lJettonCount + lJettonScore) then (s, [])
            else if s.getUserMaxJetton cfg c area ≥ lJettonScore then
              if u.android then
                match s.robotLimit cfg c area lJettonScore beyond with
                | none => (s, [])
                | some (false, s) => (s, [.placeJettonFail c area lJettonScore])
                | some (true, s) =>
                    (s.saveJetton c area lJettonScore, [.placeJetton c area lJettonScore true])
              else (s.saveJetton c area lJettonScore, [.placeJetton c area lJettonScore false])
            else (s, [.placeJettonFail c area lJettonScore])

/-! ## The score of a round -/

/-- `DeduceWinner`: whether an area wins, and by how much. -/
def deduceWinner (hands : Hands) (a : Area) : Bool × ℕ :=
  let r := compareCard hands.banker (hands.area a) 1
  (decide (r.1 = 1), r.2)

/-- What a player wins on the areas that win. -/
def wonScore (hands : Hands) (c : Fin n) : ℤ :=
  ∑ a, if (deduceWinner hands a).1 then s.userJettonScore a c * (deduceWinner hands a).2 else 0

/-- What he loses on the others. -/
def lostScore (hands : Hands) (c : Fin n) : ℤ :=
  ∑ a, if (deduceWinner hands a).1 then 0 else s.userJettonScore a c * (deduceWinner hands a).2

def revenueOf (lScore : ℤ) : ℤ := if 0 < lScore then cfg.revenue lScore else 0

/-- The chairs that are settled: all but the banker's and the empty
ones. -/
def isBettor (c : Fin n) : Bool := s.currentBanker != some c && (s.tableUserItem c).isSome

def bankerGain (hands : Hands) : ℤ :=
  ∑ c, if s.isBettor c then s.lostScore hands c - s.wonScore hands c else 0

def calculateScore (hands : Hands) : Table n :=
  let gain := s.bankerGain hands
  let taxed := gain - revenueOf cfg gain
  let lBankerWinScore := if s.currentBanker.isSome then taxed else gain
  { s with
    userWinScore := fun c =>
      if s.isBettor c then
        s.wonScore hands c - revenueOf cfg (s.wonScore hands c) - s.lostScore hands c
      else if s.currentBanker = some c then taxed
      else 0
    userReturnScore := fun c =>
      if s.isBettor c then
        ∑ a, if (deduceWinner hands a).1 then s.userJettonScore a c else 0
      else 0
    userRevenue := fun c =>
      if s.isBettor c then revenueOf cfg (s.wonScore hands c)
      else if s.currentBanker = some c then revenueOf cfg gain
      else 0
    bankerWinScore := s.bankerWinScore + lBankerWinScore
    bankerCurGameScore := lBankerWinScore }

def writeTableScore (info : Fin n → Option ScoreInfo) : Table n × List (Output n) :=
  ({ s with
      tableUserItem := fun c => (s.tableUserItem c).map fun u =>
        match info c with
        | none => u
        | some i => { u with lScore := u.lScore + i.lScore } },
    [.writeTableScore info])

/-- What is written for a chair. -/
def scoreInfo (c : Fin n) : ScoreInfo :=
  { win := decide (s.userWinScore c > 0), lScore := s.userWinScore c, lRevenue := s.userRevenue c }

/-! ## Bankers -/

/-- The loop of `TakeTurns`: the first player with enough score, and how
many applications are void. -/
def takeTurnsLoop : List (Fin n) → ℕ → ℕ → Option (Fin n) × ℕ
  | [], _, invalidApply => (none, invalidApply)
  | c :: cs, i, invalidApply =>
      match s.tableUserItem c with
      | none => takeTurnsLoop cs (i + 1) invalidApply
      | some u =>
          if u.lScore ≥ cfg.lApplyBankerCondition then (some c, invalidApply)
          else takeTurnsLoop cs (i + 1) (i + 1)

def takeTurns : Table n :=
  if s.gameStatus = .free then
    let r := s.takeTurnsLoop cfg s.applyUserArray 0 0
    { s with
      currentBanker := r.1.or s.currentBanker
      applyUserArray := s.applyUserArray.drop r.2 }
  else s

def removeApply (c : Fin n) : Table n := { s with applyUserArray := s.applyUserArray.erase c }

/-- A new banker: what `ChangeBanker` sets when the banker has changed. -/
def newBanker : Table n :=
  { s.takeTurns cfg with exchangeBanker := true, addTime := 0, bankerTime := 0, bankerWinScore := 0 }

def dropBanker (b : Fin n) : Table n := { s.removeApply b with currentBanker := none }

/-- The extra rounds of a banker whose rounds are over: nothing if there
are none. -/
def extraTime (b : Fin n) (lBankerScore : ℤ) : Option (Table n) :=
  let scoreMax := s.applyUserArray.all fun c => c == b || decide (s.userScore c < lBankerScore)
  let extra := lBankerScore > cfg.lExtraBankerScore ∧ cfg.lExtraBankerScore ≠ 0
  let s : Table n := { s with exchangeBanker := false }
  if scoreMax ∧ cfg.bankerTimeAdd ≠ 0 then
    if extra ∧ cfg.extraBankerTime ≠ 0 then
      some { s with addTime := cfg.bankerTimeAdd + cfg.extraBankerTime }
    else some { s with addTime := cfg.bankerTimeAdd }
  else if extra ∧ cfg.extraBankerTime ≠ 0 then some { s with addTime := cfg.extraBankerTime }
  else none

/-- `ChangeBanker(true)`. -/
def cancelBanker : Table n :=
  match s.currentBanker with
  | none => s.newBanker cfg
  | some b => (s.dropBanker b).newBanker cfg

def changeBanker : Table n :=
  match s.currentBanker with
  | none => if s.applyUserArray = [] then s else s.newBanker cfg
  | some b =>
      match s.tableUserItem b with
      | none => s.dropBanker b
      | some u =>
          if cfg.bankerTimeLimit + s.addTime ≤ s.bankerTime ∨ u.lScore < cfg.lApplyBankerCondition then
            if cfg.bankerTimeLimit ≤ s.bankerTime ∧ s.exchangeBanker ∧
                u.lScore ≥ cfg.lApplyBankerCondition then
              match s.extraTime cfg b u.lScore with
              | some s => s
              | none => (s.dropBanker b).newBanker cfg
            else (s.dropBanker b).newBanker cfg
          else s

def onUserApplyBanker (c : Fin n) (u : TableUser) : Table n :=
  if u.lScore < cfg.lApplyBankerCondition then s
  else if c ∈ s.applyUserArray then s
  else if u.android ∧ s.applyUserArray.length > cfg.robotListMaxCount then s
  else
    let s : Table n := { s with applyUserArray := s.applyUserArray ++ [c] }
    if s.gameStatus = .free ∧ s.applyUserArray.length = 1 then s.changeBanker cfg else s

def onUserCancelBanker (c : Fin n) (u : TableUser) : Table n :=
  if s.currentBanker = some c ∧ s.gameStatus ≠ .free then s
  else
    match s.applyUserArray.find? fun w => (s.tableUserItem w).map TableUser.userID == some u.userID with
    | none => s
    | some w =>
        if s.currentBanker = some w then
          cancelBanker cfg { s.removeApply w with currentBanker := none }
        else s.removeApply w

/-! ## Coming and going -/

def onActionUserOffLine (c : Fin n) : Table n :=
  (if s.currentBanker = some c then s.cancelBanker cfg else s).removeApply c

def onActionUserStandUp (c : Fin n) : Table n :=
  let s : Table n := { s with tableUserItem := update s.tableUserItem c none }
  (if s.currentBanker = some c then s.cancelBanker cfg else s).removeApply c

/-- A player's stakes are taken off the areas. -/
def returnJetton (c : Fin n) : Table n × List (Output n) :=
  ({ s with
      allJettonScore := fun a => s.allJettonScore a - s.userJettonScore a c
      userJettonScore := fun a => update (s.userJettonScore a) c 0 },
    ([.tianMen, .diMen, .xuanMen, .huangMen].filter fun a => s.userJettonScore a c ≠ 0).map fun a =>
      .placeJettonFail c a (s.userJettonScore a c))

/-- A player who leaves after the hands were compared is settled. -/
def settleLeave (c : Fin n) : Table n × List (Output n) :=
  let r :=
    if s.userWinScore c ≠ 0 then
      let w := s.writeTableScore fun i => if i = c then some (s.scoreInfo c) else none
      ({ w.1 with userWinScore := update s.userWinScore c 0 }, w.2)
    else (s, [])
  ({ r.1 with userJettonScore := fun a => update (r.1.userJettonScore a) c 0 }, r.2)

/-- The banker leaves: the round ends if it has not, and he is settled. -/
def bankerLeave (c : Fin n) (hands : Hands) : Table n × List (Output n) :=
  let s : Table n :=
    if s.gameStatus = .gameEnd then s
    else { s with gameStatus := .gameEnd }.calculateScore cfg hands
  let w := s.writeTableScore fun i => if i = c then some (s.scoreInfo c) else none
  (cancelBanker cfg { w.1 with userWinScore := update s.userWinScore c 0 }, w.2)

/-- `OnEventGameConclude` by `GER_USER_LEAVE` or `GER_NETWORK_ERROR`. -/
def concludeLeave (c : Fin n) (hands : Hands) : Table n × List (Output n) :=
  if s.currentBanker = some c then s.bankerLeave cfg c hands
  else if s.gameStatus = .placeJetton then s.returnJetton c
  else s.settleLeave c

def performStandUpAction (c : Fin n) (hands : Hands) : Table n × List (Output n) :=
  match s.tableUserItem c with
  | none => (s, [])
  | some u =>
      let r :=
        if s.gameStatus ≠ .free ∧ (u.userStatus = .playing ∨ u.userStatus = .offline) then
          s.concludeLeave cfg c hands
        else (s, [])
      (r.1.onActionUserStandUp cfg c, r.2)

def setUserStatus (c : Fin n) (u : TableUser) (userStatus : UserStatus) : Table n :=
  { s with tableUserItem := update s.tableUserItem c (some { u with userStatus }) }

def onEventUserOffLine (c : Fin n) (hands : Hands) : Table n × List (Output n) :=
  match s.tableUserItem c with
  | none => (s, [])
  | some u =>
      if u.userStatus = .offline then (s, [])
      else if u.userStatus = .playing then
        ((s.setUserStatus c u .offline).onActionUserOffLine cfg c, [])
      else s.performStandUpAction cfg c hands

/-- Coming back: `SwitchUserItemConnect` of a user who is off line. -/
def onUserReconnect (c : Fin n) : Table n :=
  match s.tableUserItem c with
  | none => s
  | some u => if u.userStatus = .offline then s.setUserStatus c u .playing else s

/-- `PerformSitDownAction` and `OnActionUserSitDown`, on an empty chair by
a user who sits nowhere. -/
def performSitDownAction (c : Fin n) (u : TableUser) : Table n :=
  if (s.tableUserItem c).isSome ∨
      ∃ w, (s.tableUserItem w).map TableUser.userID = some u.userID then s
  else
    let s := s.setUserStatus c u (if s.gameStatus = .free then .sit else .playing)
    if s.jettonTime then s else { s with jettonTime := true, gameStatus := .free }

/-! ## Timers -/

def startGame : Table n :=
  { s with
    tableUserItem := fun c => (s.tableUserItem c).map fun u =>
      if u.userStatus = .offline then u else { u with userStatus := .playing }
    bankerScore :=
      match s.currentBanker with
      | none => s.bankerScore
      | some b => s.userScore b
    chipRobotCount := 0
    robotAreaScore := fun _ => 0 }

/-- `QueryBuckleServiceCharge`: whether a chair is settled at the end. -/
def queryBuckleServiceCharge (c : Fin n) : Bool :=
  (s.tableUserItem c).isSome && decide (∃ a, s.userJettonScore a c ≠ 0) || s.currentBanker == some c

def repositionSink : Table n :=
  { s with
    allJettonScore := fun _ => 0
    userJettonScore := fun _ _ => 0
    userWinScore := fun _ => 0
    userReturnScore := fun _ => 0
    userRevenue := fun _ => 0
    chipRobotCount := 0
    robotAreaScore := fun _ => 0 }

/-- What `ConcludeGame` does to the user on a chair: whoever is off line
stands up. -/
def concludeUser (c : Fin n) : Table n :=
  match s.tableUserItem c with
  | none => s
  | some u =>
      if u.userStatus = .offline then s.onActionUserStandUp cfg c else s.setUserStatus c u .sit

/-- Whoever has too little score stands up. -/
def expelUser (c : Fin n) : Table n :=
  match s.tableUserItem c with
  | none => s
  | some u =>
      if cfg.lMinTableScore ≠ 0 ∧ u.lScore < cfg.lMinTableScore then s.onActionUserStandUp cfg c
      else s

def concludeGame : Table n :=
  let s := (List.finRange n).foldl (concludeUser cfg) { s with gameStatus := .free }
  (List.finRange n).foldl (expelUser cfg) s.repositionSink

def onTimerFree : Table n := { s.startGame with gameStatus := .placeJetton }

/-- `IDI_PLACE_JETTON`: `OnEventGameConclude` by `GER_NORMAL`. -/
def onTimerPlaceJetton (hands : Hands) : Table n :=
  let s := { s with gameStatus := .gameEnd }.calculateScore cfg hands
  { s with bankerTime := s.bankerTime + 1 }

def onTimerGameEnd : Table n × List (Output n) :=
  let w := s.writeTableScore fun c =>
    if (s.tableUserItem c).isSome && s.queryBuckleServiceCharge c then some (s.scoreInfo c) else none
  ((w.1.concludeGame cfg).changeBanker cfg, w.2)

def onTimerMessage (hands : Hands) : Table n × List (Output n) :=
  if ¬ s.jettonTime then (s, [])
  else
    match s.gameStatus with
    | .free => (s.onTimerFree, [])
    | .placeJetton => (s.onTimerPlaceJetton cfg hands, [])
    | .gameEnd => s.onTimerGameEnd cfg

end Table

/-- What happens at the table. -/
inductive Event (n : ℕ) where
  | placeJetton (c : Fin n) (jettonArea : UInt8) (lJettonScore : ℤ) (beyond : Bool)
  | applyBanker (c : Fin n)
  | cancelBanker (c : Fin n)
  | standUp (c : Fin n) (hands : Hands)
  | offLine (c : Fin n) (hands : Hands)
  | reconnect (c : Fin n)
  | sitDown (c : Fin n) (u : TableUser)
  | timer (hands : Hands)

/-- The table as a machine. A stake is only taken from a player who is
playing (`OnGameMessage`). -/
def Table.step {n : ℕ} (cfg : RoomConfig) : TotalMachine (Table n) (Event n) (Output n)
  | s, .placeJetton c jettonArea lJettonScore beyond =>
      match s.tableUserItem c with
      | none => (s, [])
      | some u =>
          if u.userStatus = .playing then
            s.onUserPlaceJetton cfg c jettonArea lJettonScore beyond
          else (s, [])
  | s, .applyBanker c =>
      match s.tableUserItem c with
      | none => (s, [])
      | some u => (s.onUserApplyBanker cfg c u, [])
  | s, .cancelBanker c =>
      match s.tableUserItem c with
      | none => (s, [])
      | some u => (s.onUserCancelBanker cfg c u, [])
  | s, .standUp c hands => s.performStandUpAction cfg c hands
  | s, .offLine c hands => s.onEventUserOffLine cfg c hands
  | s, .reconnect c => (s.onUserReconnect c, [])
  | s, .sitDown c u => (s.performSitDownAction c u, [])
  | s, .timer hands => s.onTimerMessage cfg hands

end GameServer.OxBattle
