import GameServer.GameService.Model.ServerUser
import GameServer.TexasHoldem.Model.Payout
/-!
# Texas hold'em — the table

`CTableFrameSink`, with what the table's frame does to it: who sits
where, and whether a game is on. Messages of the players, timers and the
frame's calls are events; the scores a hand ends with are outputs, and so
is how a betting round ends. Timers fire in any order, once each time
they are set. An access outside an array or a division by zero is a fault.
-/

namespace GameServer.TexasHoldem

open GameService (UserStatus)

/-- What the sink reads of the service's options: `lCellScore`,
`m_ISetDJPK`, `wRevenueRatio` and the limits of the gold to bring. -/
structure ServiceOption where
  cellScore : ℤ
  setDJPK : Fin 4 → ℤ
  revenueRatio : ℕ
  lowPutScore : ℤ
  defPutScore : ℤ

/-- The bytes of `m_cbChipTypeID`: `CHIP_TYPE_ADD` to `CHIP_TYPE_OVER`, and
all others. -/
inductive ChipType where
  | add
  | gen
  | allIn
  | pass
  | giveUp
  | over
  | other
  deriving DecidableEq, Repr

inductive Timer where
  | game
  | normalEnd
  | addBuffer
  | sendCard
  | noPlayer
  deriving DecidableEq, Repr

structure TableUser where
  userScore : ℤ
  trusteeScore : ℤ
  userStatus : UserStatus
  deriving DecidableEq, Repr

/-- A pot of `m_aryChipPool` with its chairs of `m_cbHandChair`. -/
structure ChipPool where
  score : ℤ
  handChair : List Chair
  deriving DecidableEq, Repr

/-- The cards of a hand: what the shuffle gives the chairs and the
centre. -/
structure HandCards where
  hand : Chair → UInt8 × UInt8
  center : List UInt8
  center_length : center.length = maxCenterCount
  center_ne : ∀ c ∈ center, c ≠ 0
  hand_ne : ∀ i, (hand i).1 ≠ 0 ∧ (hand i).2 ≠ 0

/-- The members of `CTableFrameSink` the betting is about: whose turn it
is, the chips of the round and of the hand, and who is still in. -/
structure Hand where
  wCurrentUser : Option Chair := none
  turnLessScore : ℤ := 0
  turnMaxScore : Chair → ℤ := fun _ => 0
  balanceScore : ℤ := 0
  tableScore : Chair → ℤ := fun _ => 0
  totalScore : Chair → ℤ := fun _ => 0
  userMaxScore : Chair → ℤ := fun _ => 0
  userTakeGold : Chair → ℤ := fun _ => 0
  operaCount : ℕ := 0
  balanceCount : ℕ := 0
  passCardCount : ℕ := 0
  playStatus : Chair → Bool := fun _ => false
  showHand : Chair → Bool := fun _ => false
  showHandBuffer : Chair → Bool := fun _ => false
  aryChipPool : List ChipPool := []

/-- `CTableFrameSink`, the chairs of the table (`GetTableUserItem`) and
`m_bGameStarted`. -/
structure TableSink extends Hand where
  userItem : Chair → Option TableUser := fun _ => none
  gameStarted : Bool := false
  gameOver : Bool := false
  wDUser : Option Chair := none
  chipTypeID : ChipType := .other
  fristPlayStatus : Chair → Bool := fun _ => false
  sendCardEnd : Chair → Bool := fun _ => false
  handCardData : Chair → UInt8 × UInt8 := fun _ => (0, 0)
  centerCardData : List UInt8 := []
  timers : List Timer := []

structure TableBets where
  tableScore : Chair → ℤ
  balanceScore : ℤ
  totalScore : Chair → ℤ
  userMaxScore : Chair → ℤ
  playStatus : Chair → Bool

/-- `WriteUserScore` for a chair, the bets after a player's bet, and those a
round ends with. -/
inductive Output where
  | writeUserScore (chair : Chair) (score revenue : ℤ)
  | addScore (chair : Chair) (bets : TableBets)
  | turnOver (bets : TableBets)

/-- The chair `i` places behind another one. -/
def chairBehind (c : Chair) (i : ℕ) : Chair := Fin.ofNat gamePlayer (c + i)

/-- How far behind `c` the first of `first` to `last` places is whose chair
a test accepts. -/
def searchChair (c : Chair) (first last : ℕ) (ok : Chair → Bool) : Option ℕ :=
  ((List.range (last + 1)).drop first).find? fun i => ok (chairBehind c i)

namespace Hand

/-- The number of chairs still in. -/
def playCount (h : Hand) : ℕ := chairs.countP h.playStatus

/-- The number of chairs still in that are all in. -/
def showCount (h : Hand) : ℕ := chairs.countP fun i => h.playStatus i && h.showHand i

def canBet (h : Hand) (i : Chair) : Bool := h.playStatus i && !h.showHand i

end Hand

namespace TableSink

variable (opt : ServiceOption) (s : TableSink)

def setGameTimer (t : Timer) : TableSink := { s with timers := t :: s.timers.filter (· ≠ t) }

def killGameTimer (t : Timer) : TableSink := { s with timers := s.timers.filter (· ≠ t) }

/-- `KillTimerAll`: the two timers a hand ends with are not among them. -/
def killTimerAll : TableSink :=
  { s with timers := s.timers.filter fun t => t = .normalEnd ∨ t = .noPlayer }

def repositionSink : TableSink :=
  { s with
    wCurrentUser := none, turnLessScore := 0, turnMaxScore := fun _ => 0, balanceScore := 0
    tableScore := fun _ => 0, totalScore := fun _ => 0, userMaxScore := fun _ => 0
    operaCount := 0, balanceCount := 0, passCardCount := 0, chipTypeID := .other
    playStatus := fun _ => false, showHand := fun _ => false, sendCardEnd := fun _ => false
    aryChipPool := [], centerCardData := [] }

/-- `CTableFrame::ConcludeGame` with `GAME_STATUS_FREE`: off-line users
stand up, the others sit, and the sink is reset. -/
def concludeGame : TableSink :=
  if s.gameStarted = false then s
  else
    { s with
      gameStarted := false
      userItem := fun i => match s.userItem i with
        | none => none
        | some u => if u.userStatus = .offline then none else some { u with userStatus := .sit } :
      TableSink }.repositionSink

def calculateRevenue (score : ℤ) : ℤ :=
  if opt.revenueRatio > 0 ∧ score ≥ 0 then (score * opt.revenueRatio).tdiv 1000 else 0

/-! ## The start of a hand -/

/-- Everybody at the table is dealt in, with his score. -/
def dealIn (cards : HandCards) : TableSink :=
  let s := s.repositionSink
  let seated := fun i => (s.userItem i).isSome
  let score := fun i => ((s.userItem i).map fun u => int32 u.userScore).getD 0
  { s with
    playStatus := seated, fristPlayStatus := seated, showHandBuffer := fun _ => false
    userTakeGold := score, userMaxScore := score
    handCardData := fun i => if seated i then cards.hand i else (0, 0)
    centerCardData := cards.center }

/-- The next chair that is dealt in; two are, so a search around the table
ends. -/
def nextPlaying (c : Chair) : Chair :=
  chairBehind c ((searchChair c 1 gamePlayer s.playStatus).getD gamePlayer)

def nextDUser : Chair :=
  let first : Chair := match s.wDUser with
    | none => 0
    | some d => chairBehind d 1
  chairBehind first ((searchChair first 0 (gamePlayer - 1) s.playStatus).getD 0)

/-- `m_lCellScore*m_ISetDJPK[k]/10`. -/
def setScore (k : Fin 4) : ℤ := (int32 (opt.cellScore * opt.setDJPK k)).tdiv 10

def postBlinds (small big : Chair) : TableSink :=
  let posted := Function.update (Function.update s.tableScore small (setScore opt 0)) big
    (setScore opt 1)
  let tableScore :=
    if posted small ≤ 0 then Function.update posted small opt.cellScore else posted
  let less := fun (f : Chair → ℤ) i => Function.update f i (int32 (f i - tableScore i))
  { s with
    tableScore
    totalScore := Function.update (Function.update s.totalScore small (tableScore small)) big
      (tableScore big)
    userTakeGold := less (less s.userTakeGold small) big }

/-- The ante of every chair, and who is all in with it. -/
def postAnte : TableSink :=
  let ante := setScore opt 3
  let table := fun i => int32 (s.tableScore i + ante)
  let allIn := fun i => s.playStatus i && decide (table i ≥ s.userMaxScore i)
  let total := fun i => if allIn i then s.userMaxScore i
    else if s.playStatus i then int32 (s.totalScore i + ante) else s.totalScore i
  { s with
    tableScore := fun i => if allIn i then s.userMaxScore i
      else if s.playStatus i then table i else s.tableScore i
    totalScore := total
    userTakeGold := fun i => if allIn i then 0 else s.userTakeGold i
    showHand := fun i => allIn i || s.showHand i
    showHandBuffer := fun i => allIn i || s.showHandBuffer i
    turnMaxScore := fun i => if s.playStatus i then int32 (s.userMaxScore i - total i)
      else s.turnMaxScore i }

/-- The first to bet: the third chair, or if it is all in the one a walk by
one, two, three and more chairs ends at. -/
def firstPlayer (third : Chair) : Option Chair :=
  if s.showHand third then
    (((List.range gamePlayer).drop 1).map fun i => chairBehind third (i * (i + 1) / 2)).find? s.canBet
  else some third

/-- The first turn of a hand. -/
def openBetting (big third : Chair) : TableSink :=
  { s with
    wCurrentUser := s.firstPlayer third
    balanceScore := s.tableScore big
    turnLessScore := match s.firstPlayer third with
      | some c => int32 (s.tableScore big - s.totalScore c)
      | none => s.tableScore big }.setGameTimer .sendCard

def onEventGameStart (cards : HandCards) : TableSink :=
  let s := s.dealIn cards
  let dUser := s.nextDUser
  let small := s.nextPlaying dUser
  let big := s.nextPlaying small
  let third := s.nextPlaying big
  (({ s with wDUser := some dUser }.postBlinds opt small big).postAnte opt).openBetting big third

/-- The users are playing, unless they are off-line. -/
def enterGame : TableSink :=
  { s with
    gameStarted := true
    userItem := fun i => (s.userItem i).map fun u =>
      if u.userStatus = .offline then u else { u with userStatus := .playing } }

/-- `CTableFrame::StartGame`: with two users, when no game is on. -/
def startGame (cards : HandCards) : TableSink :=
  if s.gameStarted ∨ chairs.countP (fun i => (s.userItem i).isSome) < 2 then s
  else s.enterGame.onEventGameStart opt cards

/-! ## The pots -/

/-- The chairs whose chips a pot takes, those that may win it, and what is
left, for an all-in level `less` above the one before. -/
def takePool (play showBuffer : Chair → Bool) (owner : Chair) (less : ℤ) (suo : Chair → ℤ) :
    ChipPool × (Chair → ℤ) :=
  let take := fun j => if suo j > less then less else suo j
  ({ score := (chairs.filter (suo · > 0)).foldl (fun sum j => int32 (sum + take j)) 0
     handChair := chairs.filter fun j => suo j > 0 ∧ play owner ∧ (play j ∨ showBuffer j) },
    fun j => if suo j > 0 then int32 (suo j - take j) else suo j)

/-- The pots of the all-in levels, from the smallest up. -/
def takePools (play showBuffer : Chair → Bool) :
    List (ℤ × Chair) → ℤ → (Chair → ℤ) → List ChipPool × (Chair → ℤ)
  | [], _, suo => ([], suo)
  | (bet, owner) :: rest, lPoolBuffer, suo =>
      if bet = 0 ∨ suo owner = 0 then takePools play showBuffer rest lPoolBuffer suo
      else if lPoolBuffer = bet then takePools play showBuffer rest lPoolBuffer suo
      else
        let r := takePool play showBuffer owner (int32 (bet - lPoolBuffer)) suo
        let rs := takePools play showBuffer rest bet r.2
        (r.1 :: rs.1, rs.2)

/-- A pot of all chips there are. -/
def restPool (play : Chair → Bool) (suo : Chair → ℤ) : ChipPool where
  score := (chairs.filter (suo · > 0)).foldl (fun sum j => int32 (sum + suo j)) 0
  handChair := chairs.filter fun j => suo j > 0 ∧ play j

/-- `m_aryChipPool` and `m_cbHandChair` of a closed round. -/
def splitPools : List ChipPool :=
  if chairs.any fun i => s.playStatus i && decide (s.totalScore i ≥ s.userMaxScore i) then
    let total := chairs.map fun i => (if s.playStatus i ∧ s.totalScore i > 0 ∧
      s.totalScore i ≥ s.userMaxScore i then s.totalScore i else 0, i)
    let r := takePools s.playStatus s.showHandBuffer (sortValueList total) 0 s.totalScore
    r.1 ++ [restPool s.playStatus r.2]
  else [restPool s.playStatus s.totalScore]

/-! ## A bet -/

/-- The amount a message asks for: all in and calls have their own. -/
def askedScore (chair : Chair) (lScore : ℤ) : ℤ :=
  if s.chipTypeID = .gen then s.turnLessScore
  else if s.chipTypeID = .allIn then s.turnMaxScore chair
  else lScore

/-- The amount that is bet: no more than the player has left. -/
def chipIn (chair : Chair) (lScore : ℤ) : ℤ :=
  if int32 (s.askedScore chair lScore + s.totalScore chair) > s.userMaxScore chair then
    int32 (s.userMaxScore chair - s.totalScore chair)
  else s.askedScore chair lScore

def placeBet (chair : Chair) (l : ℤ) : TableSink :=
  let table := int32 (s.tableScore chair + l)
  { s with
    tableScore := Function.update s.tableScore chair table
    totalScore := Function.update s.totalScore chair (int32 (s.totalScore chair + l))
    turnMaxScore := Function.update s.turnMaxScore chair (int32 (s.turnMaxScore chair - l))
    userTakeGold := Function.update s.userTakeGold chair (int32 (s.userTakeGold chair - l))
    balanceScore := max s.balanceScore table }.killGameTimer .game

/-- Everything in: the player has bet all he has, or says so. -/
def isAllIn (chair : Chair) : Prop :=
  s.totalScore chair ≥ s.userMaxScore chair ∨ s.chipTypeID = .allIn

instance (chair : Chair) : Decidable (s.isAllIn chair) :=
  inferInstanceAs (Decidable (_ ∨ _))

def setAllIn (chair : Chair) : TableSink :=
  { s with
    showHand := Function.update s.showHand chair true
    showHandBuffer := Function.update s.showHandBuffer chair true
    totalScore := Function.update s.totalScore chair (s.userMaxScore chair)
    userTakeGold := Function.update s.userTakeGold chair 0
    chipTypeID := .allIn }

/-- How far behind a chair the next one is that can bet; 8 if none of the
others can. -/
def nextHops (chair : Chair) : ℕ := (searchChair chair 1 (gamePlayer - 1) s.canBet).getD (gamePlayer - 1)

/-- The counters after a bet of `l`: a bet or call of nothing is a pass. -/
def countBet (chair : Chair) (l : ℤ) : TableSink :=
  let type := if (s.chipTypeID = .add ∨ s.chipTypeID = .gen) ∧ l = 0 then .pass else s.chipTypeID
  { s with
    operaCount := word (s.operaCount + s.nextHops chair)
    chipTypeID := type
    passCardCount :=
      if type = .pass then s.passCardCount + 1
      else if type = .giveUp then s.passCardCount
      else 0 }

def finishTurn (next : Chair) : Bool :=
  (decide (s.operaCount ≥ gamePlayer ∧ s.balanceScore > 0) &&
    chairs.all fun i => !(s.canBet i && decide (s.tableScore i < s.balanceScore))) ||
  decide ((s.chipTypeID = .pass ∨ s.chipTypeID = .giveUp) ∧
    s.passCardCount + s.showCount ≥ s.playCount) ||
  decide (s.playCount = s.showCount + 1 ∧ s.tableScore next ≥ s.balanceScore) ||
  decide (s.chipTypeID = .over)

def continueTurn (next : Chair) : TableSink :=
  { s with
    wCurrentUser := some next
    turnLessScore := min (int32 (s.balanceScore - s.tableScore next))
      (int32 (s.userMaxScore next - s.totalScore next))
    turnMaxScore := Function.update s.turnMaxScore next
      (int32 (s.userMaxScore next - s.totalScore next)) }.setGameTimer .game

def tableBets : TableBets where
  tableScore := s.tableScore
  balanceScore := s.balanceScore
  totalScore := s.totalScore
  userMaxScore := s.userMaxScore
  playStatus := s.playStatus

def closeRound : TableSink :=
  let s' := { s with
    balanceCount := (s.balanceCount + 1) % 2 ^ 8
    operaCount := 0
    passCardCount := 0
    balanceScore := 0
    turnLessScore := 0
    turnMaxScore := fun i => if s.playStatus i then int32 (s.userMaxScore i - s.totalScore i)
      else s.turnMaxScore i
    aryChipPool := s.splitPools
    tableScore := fun _ => 0
    showHandBuffer := fun _ => false }
  if s.chipTypeID = .over then s' else s'.setGameTimer .addBuffer

/-- What follows the chips of a bet: the round ends, or the next player is
asked. -/
def afterBet (chair : Chair) (l : ℤ) : TableSink × List Output :=
  let next := chairBehind chair (s.nextHops chair)
  let s' := s.countBet chair l
  if s'.finishTurn next then
    (s'.closeRound, [.addScore chair s.tableBets, .turnOver s.tableBets])
  else (s'.continueTurn next, [.addScore chair s.tableBets])

/-- The chips of a bet, and the player all in if they are all he has. -/
def bet (chair : Chair) (l : ℤ) : TableSink :=
  if (s.placeBet chair l).isAllIn chair then (s.placeBet chair l).setAllIn chair
  else s.placeBet chair l

/-- `OnUserAddScore`. `m_SuoHaCountBuffer` has an entry for each of four
rounds. -/
def onUserAddScore (chair : Chair) (lScore : ℤ) : Option (TableSink × List Output) :=
  let l := s.chipIn chair lScore
  if s.wCurrentUser ≠ some chair ∨ s.gameOver then some (s, [])
  else if l < 0 ∨ l > s.userTakeGold chair then some (s, [])
  else if (s.placeBet chair l).isAllIn chair ∧ s.balanceCount ≥ 4 then none
  else some ((s.bet chair l).afterBet chair l)

/-- The player is out. If only one is left the hand is over. -/
def outOf (chair : Chair) : TableSink :=
  let s := { s with
    playStatus := Function.update s.playStatus chair false
    showHand := Function.update s.showHand chair false }.killGameTimer .game
  { s with chipTypeID := if s.playCount ≥ 2 then .giveUp else .over }

def onUserGiveUp (chair : Chair) : Option (TableSink × List Output) :=
  if s.gameOver ∨ s.wCurrentUser ≠ some chair then some (s, [])
  else
    ((s.outOf chair).onUserAddScore chair 0).map fun (s', out) =>
      (if (s.outOf chair).playCount ≥ 2 then s'
        else { s' with gameOver := true }.setGameTimer .noPlayer, out)

/-! ## The end of a hand -/

/-- A score with its tax, of a chair in the hand whose user is there. -/
def writeScores (score revenue : Chair → ℤ) : List Output :=
  (chairs.filter fun i => s.fristPlayStatus i && (s.userItem i).isSome).map fun i =>
    .writeUserScore i (score i) (revenue i)

/-- The gold of the chairs that are written is what they have now. -/
def bookGold (written : Chair → Bool) (score : Chair → ℤ) : TableSink :=
  { s with
    userTakeGold := fun i => if written i then
      int32 (int32 (s.userTakeGold i + s.totalScore i) + score i) else s.userTakeGold i
    userMaxScore := fun i => if written i then 0 else s.userMaxScore i }

def gameTax (userScore : ℤ) : ℤ :=
  if userScore > 0 then int32 (calculateRevenue opt userScore) else 0

/-- The pots that are shown to the players, as many as have chips: each is
divided by the number of its chairs still in. -/
def shownPools : List ChipPool :=
  s.aryChipPool.take ((s.aryChipPool.take gamePlayer).countP (·.score > 0))

/-- `OnEventGameConclude` with `GER_NORMAL`. -/
def concludeNormal : Option (TableSink × List Output) :=
  if s.gameOver then some (s, [])
  else if s.shownPools.any fun pool => pool.handChair.all fun i => !s.playStatus i then none
  else
    let s := s.killTimerAll
    let userScore := normalUserScore s.playStatus s.handCardData s.centerCardData s.totalScore
    let tax := fun i => if opt.revenueRatio > 0 then gameTax opt (userScore i) else 0
    let score := fun i => int32 (userScore i - tax i)
    let s' := s.bookGold (fun i => s.fristPlayStatus i && (s.userItem i).isSome) score
    some (s'.concludeGame, s.writeScores score tax)

/-- The scores of `GER_NO_PLAYER`: who gave up loses his chips, and a chair
still in gets those of all others. -/
def noPlayerScore (i : Chair) : ℤ :=
  if s.playStatus i = false then if s.totalScore i > 0 then int32 (0 - s.totalScore i) else 0
  else (chairs.filter (· ≠ i)).foldl (fun sum j => int32 (sum + s.totalScore j)) 0

def concludeNoPlayer : TableSink × List Output :=
  let s := s.killTimerAll
  let tax := fun i => gameTax opt (s.noPlayerScore i)
  let score := fun i => int32 (s.noPlayerScore i - tax i)
  if s.playCount = 0 then ({ s with gameOver := false }.concludeGame, [])
  else
    let s' := s.bookGold s.fristPlayStatus score
    ({ s' with gameOver := false }.concludeGame, s.writeScores score tax)

/-- `OnEventGameConclude` with `GER_DISMISS`. -/
def concludeDismiss : TableSink :=
  if s.gameOver then s else s.killTimerAll.concludeGame

/-! ## Timers, messages and calls -/

/-- `OnChipRendEnd`: the hand ends, or the next card is dealt. `SUB_S_SEND_CARD`
has room for five cards, those of three rounds. -/
def onChipRendEnd : Option (TableSink × List Output) :=
  if s.balanceCount = 4 then s.concludeNormal opt
  else if chairs.countP s.showHand + 1 ≥ s.playCount ∧ s.balanceCount < 4 then
    some ({ s with tableScore := fun _ => 0 }.setGameTimer .normalEnd, [])
  else if s.balanceCount > 3 then none
  else
    let dUser := (s.wDUser.map Fin.val).getD GameService.invalidChair
    let next := (((List.range gamePlayer).drop 1).map fun i => Fin.ofNat gamePlayer (dUser + i)).find?
      fun i => (s.userItem i).isSome && s.canBet i
    some ({ s with
      wCurrentUser := next.or s.wCurrentUser
      tableScore := fun _ => 0 }.setGameTimer .game, [])

def onTimerMessage (t : Timer) : Option (TableSink × List Output) :=
  let s := s.killGameTimer t
  match t with
  | .game =>
      match s.wCurrentUser with
      | none => some (s, [])
      | some chair =>
          if (s.userItem chair).isNone ∨ s.gameOver then some (s, [])
          else if s.turnLessScore = 0 then { s with chipTypeID := .pass }.onUserAddScore chair 0
          else s.onUserGiveUp chair
  | .sendCard => some ({ s with sendCardEnd := fun _ => true }.setGameTimer .game, [])
  | .addBuffer => s.onChipRendEnd opt
  | .normalEnd => s.concludeNormal opt
  | .noPlayer => some (s.concludeNoPlayer opt)

/-- `OnPlayEnd`; whether a user is an android is part of the event. -/
def onPlayEnd (chair : Chair) (playId : ℕ) (android : Chair → Bool) : TableSink :=
  if s.gameOver ∨ s.sendCardEnd chair ∨ playId ≠ 0 then s
  else
    let s := { s with sendCardEnd := Function.update s.sendCardEnd chair true }
    if chairs.all fun i => s.sendCardEnd i || (s.userItem i).isNone || android i then
      (s.killGameTimer .sendCard).setGameTimer .game
    else s

/-- `OnUserAddTakeGold`, with the limits of `CalRangeTakeGold`. -/
def onUserAddTakeGold (chair : Chair) (trusteeScore addTake : ℤ) : TableSink :=
  let lScore := int32 trusteeScore
  let lLimitTake := int32 (s.userTakeGold chair + addTake)
  if addTake ≤ 0 ∨ int32 (lScore - s.userMaxScore chair) < addTake ∨ lLimitTake > lScore ∨
      lLimitTake < int32 opt.lowPutScore ∨ lLimitTake > int32 (opt.defPutScore * 2) then s
  else
    { s with
      userTakeGold := Function.update s.userTakeGold chair lLimitTake
      userMaxScore := Function.update s.userMaxScore chair
        (int32 (s.userMaxScore chair + addTake)) }

end TableSink

/-- What happens to a table: the players' messages, which none sends while
he is off-line, the timers and the frame's calls. The last three events
are what is booked, disconnected or connected elsewhere. -/
inductive TableEvent where
  | startGame (cards : HandCards)
  | addScore (chair : Chair) (lScore : ℤ) (type : ChipType)
  | giveUp (chair : Chair)
  | lookCard
  | lookNoCard
  | gameOver
  | playEnd (chair : Chair) (playId : ℕ) (android : Chair → Bool)
  | addTakeGold (chair : Chair) (lookon : Bool) (lAddTake : ℤ)
  | timer (t : Timer)
  | sitDown (chair : Chair) (userScore trusteeScore : ℤ)
  | standUp (chair : Chair)
  | dismiss
  | userScore (chair : Chair) (userScore trusteeScore : ℤ)
  | offLine (chair : Chair)
  | onLine (chair : Chair)

namespace TableSink

def hasStatus (s : TableSink) (chair : Chair) (status : UserStatus) : Bool :=
  (s.userItem chair).any fun u => u.userStatus = status

def changeUser (s : TableSink) (chair : Chair) (change : TableUser → TableUser) : TableSink :=
  { s with userItem := Function.update s.userItem chair ((s.userItem chair).map change) }

/-- `PerformStandUpAction`: a player of the hand gives up first, as far as
it is his turn. -/
def performStandUpAction (s : TableSink) (chair : Chair) : Option (TableSink × List Output) :=
  let leave := fun s : TableSink => { s with userItem := Function.update s.userItem chair none }
  if s.gameStarted ∧ (s.hasStatus chair .playing ∨ s.hasStatus chair .offline) then
    (s.onUserGiveUp chair).map fun (s', out) => (leave s', out)
  else some (leave s, [])

/-- **The table**, one event at a time. -/
def step (opt : ServiceOption) : Machine TableSink TableEvent Output
  | s, .startGame cards => some (s.startGame opt cards, [])
  | s, .addScore chair lScore type =>
      if s.hasStatus chair .playing ∧ s.playStatus chair then
        { s with chipTypeID := type }.onUserAddScore chair (int32 lScore)
      else some (s, [])
  | s, .giveUp chair =>
      if s.hasStatus chair .playing ∧ s.playStatus chair then s.onUserGiveUp chair
      else some (s, [])
  | s, .lookCard => some (s.killGameTimer .noPlayer, [])
  | s, .lookNoCard => some ((s.killGameTimer .noPlayer).concludeNoPlayer opt)
  | s, .gameOver =>
      if s.gameOver then some ({ s with gameOver := false }.concludeGame, []) else some (s, [])
  | s, .playEnd chair playId android =>
      if s.hasStatus chair .playing ∧ s.playStatus chair then some (s.onPlayEnd chair playId android, [])
      else some (s, [])
  | s, .addTakeGold chair lookon lAddTake =>
      match s.userItem chair with
      | none => if lookon ∧ int32 lAddTake > 0 then none else some (s, [])
      | some u =>
          -- who looks on has the status of a looker-on, and the chair he looks at
          if lookon = false ∧ (u.userStatus = .playing ∨ u.userStatus = .offline) then some (s, [])
          else some (s.onUserAddTakeGold opt chair u.trusteeScore (int32 lAddTake), [])
  | s, .timer t => if t ∈ s.timers then s.onTimerMessage opt t else some (s, [])
  | s, .sitDown chair userScore trusteeScore =>
      if (s.userItem chair).isSome then some (s, [])
      else
        some ({ s with
          userItem := Function.update s.userItem chair
            (some { userScore, trusteeScore, userStatus := .sit })
          userTakeGold := Function.update s.userTakeGold chair (int32 userScore)
          userMaxScore := Function.update s.userMaxScore chair (int32 userScore) }, [])
  | s, .standUp chair => s.performStandUpAction chair
  | s, .dismiss => some (if s.gameStarted then s.concludeDismiss else s, [])
  | s, .userScore chair userScore trusteeScore =>
      some (s.changeUser chair fun u => { u with userScore, trusteeScore }, [])
  | s, .offLine chair =>
      some (s.changeUser chair fun u =>
        if u.userStatus = .playing then { u with userStatus := .offline } else u, [])
  | s, .onLine chair =>
      some (s.changeUser chair fun u =>
        if u.userStatus = .offline then { u with userStatus := .playing } else u, [])

end TableSink

end GameServer.TexasHoldem
