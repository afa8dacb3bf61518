import GameServer.Common.Cards
import GameServer.Common.Run
import GameServer.Ox.Model.GameLogic
/-!
# Ox — the table

`CTableFrameSink` over the hands of one table: who calls for the bank, the
stakes, the cards that are opened and the settlement, with players who
leave and players who sit down during a hand. A score is an integer, and
only the product in the settlement that may leave 64 bits is checked: it
has no result then. Setting the timer again is left out. A user that is
not there, and a search that never ends, are faults.
-/

namespace GameServer.Ox

abbrev gamePlayer : ℕ := 4

abbrev Chair := Fin gamePlayer

/-- `GS_TK_FREE` to `GS_TK_PLAYING`. -/
inductive GameStatus where
  | free
  | call
  | score
  | playing
  deriving DecidableEq, Repr

/-- `USEX_NULL` to `USEX_DYNAMIC`. -/
inductive PlayStatus where
  | null
  | playing
  | dynamic
  deriving DecidableEq, Repr

/-- `CTableFrameSink`, with the game status and the users of its frame. -/
structure TableSink where
  gameStatus : GameStatus := .free
  /-- `GetTableUserItem`: who sits on a chair, by the score he has. -/
  users : Chair → Option ℤ := fun _ => none
  exitScore : ℤ := 0
  bankerUser : Option Chair := none
  firstCallUser : Option Chair := none
  currentUser : Option Chair := none
  tableScore : Chair → ℤ := fun _ => 0
  playStatus : Chair → PlayStatus := fun _ => .null
  callStatus : Chair → Bool := fun _ => false
  /-- `m_bOxCard`, `none` for 255. -/
  oxCard : Chair → Option Bool := fun _ => none
  handCardData : Chair → List UInt8 := fun _ => List.replicate maxCount 0
  turnMaxScore : Chair → ℤ := fun _ => 0

/-- Messages, timers and calls of the frame. `playing` says whether the
sender is `US_PLAYING`. -/
inductive Event where
  /-- The users of a hand that starts. -/
  | gameStart (users : Chair → Option ℤ) (rand : ℕ)
  | sitDown (chair : Chair) (score : ℤ)
  | standUp (chair : Chair) (rand : ℕ → ℕ)
  | callBanker (chair : Chair) (playing : Bool) (banker : UInt8)
  | addScore (chair : Chair) (playing : Bool) (score : ℤ) (rand : ℕ → ℕ)
  | openCard (chair : Chair) (playing : Bool) (ox : UInt8)
  /-- `IDI_SO_OPERATE`. -/
  | timer (rand : ℕ → ℕ)

/-- What the sink sends. A hand that is played out ends with the banker,
what he had and the scores before revenue. -/
inductive Output where
  | callBanker (chair : Chair)
  | gameStart (bankerUser : Chair)
  | addScore (chair : Chair) (score : ℤ)
  | sendCard
  | openCard (chair : Chair) (ox : Bool)
  | gameEnd (bankerUser : Chair) (bankerScore : ℤ) (gameScore : Chair → ℤ)
  | playerExit (chair : Chair)
  | gameOver

/-- The check of `CTableFrame::PerformSitDownAction`. -/
def admits (minTableScore userScore : ℤ) : Bool :=
  if minTableScore ≠ 0 ∧ userScore < minTableScore then false else true

namespace TableSink

def repositionSink (s : TableSink) : TableSink :=
  { s with
    exitScore := 0
    currentUser := none
    tableScore := fun _ => 0
    playStatus := fun _ => .null
    callStatus := fun _ => false
    oxCard := fun _ => none
    handCardData := fun _ => List.replicate maxCount 0
    turnMaxScore := fun _ => 0 }

def concludeGame (s : TableSink) : TableSink := { s with gameStatus := .free }.repositionSink

def userCount (s : TableSink) : ℕ :=
  (List.finRange gamePlayer).countP fun i => s.playStatus i = .playing

/-- The first chair from `chair` on that is playing. -/
def seek (s : TableSink) (chair : Chair) : Option Chair :=
  [chair, chair + 1, chair + 2, chair + 3].find? fun i => s.playStatus i = .playing

/-! ## The banker -/

def onEventGameStart (rand : ℕ) (s : TableSink) : Option (TableSink × List Output) :=
  let s := { s with
    gameStatus := .call
    playStatus := fun i => if s.users i = none then .null else .playing }
  let start := match s.firstCallUser with
    | none => Fin.ofNat gamePlayer rand
    | some chair => chair + 1
  (s.seek start).map fun chair =>
    ({ s with firstCallUser := some chair, currentUser := some chair }, [.callBanker chair])

/-- The most a user may stake: a share of what the banker has, and of what
he has. -/
def turnMax (bankerScore : ℤ) (userCount : ℕ) (userScore : ℤ) : ℤ :=
  min ((bankerScore.tdiv (userCount - 1 : ℕ)).tdiv 5) (userScore.tdiv 5)

/-- The banker is found, and the limits are set. -/
def startScore (chair : Chair) (s : TableSink) : Option (TableSink × List Output) := do
  let banker ← s.seek chair
  let bankerScore ← s.users banker
  if ∀ i, s.playStatus i = .playing → s.users i ≠ none then
    some ({ s with
      bankerUser := some banker
      currentUser := none
      gameStatus := .score
      turnMaxScore := fun i =>
        if s.playStatus i ≠ .playing ∨ i = banker then s.turnMaxScore i
        else turnMax bankerScore s.userCount ((s.users i).getD 0) }, [.gameStart banker])
  else none

def onUserCallBanker (chair : Chair) (banker : UInt8) (s : TableSink) :
    Option (TableSink × List Output) :=
  if s.gameStatus ≠ .call ∨ s.currentUser ≠ some chair then some (s, [])
  else
    let s := { s with callStatus := Function.update s.callStatus chair true }
    let callUserCount := (List.finRange gamePlayer).countP fun i =>
      s.playStatus i = .playing ∧ s.callStatus i = true ∨ s.playStatus i ≠ .playing
    if banker = 1 ∨ callUserCount = gamePlayer then s.startScore chair
    else (s.seek (chair + 1)).map fun next =>
      ({ s with currentUser := some next }, [.callBanker next])

/-! ## The stakes -/

def randCardList (rand : ℕ → ℕ) : List UInt8 :=
  (shuffle rand cardListData.length cardListData).take (gamePlayer * maxCount)

/-- The stakes are in, and the cards are dealt. -/
def sendCard (rand : ℕ → ℕ) (s : TableSink) : TableSink :=
  { s with
    gameStatus := .playing
    handCardData := fun i =>
      if s.playStatus i = .playing then ((randCardList rand).drop (i * maxCount)).take maxCount
      else s.handCardData i }

def onUserAddScore (chair : Chair) (score : ℤ) (rand : ℕ → ℕ) (s : TableSink) :
    TableSink × List Output :=
  if s.gameStatus ≠ .score then (s, [])
  else if s.playStatus chair = .playing ∧ (score ≤ 0 ∨ s.turnMaxScore chair < score) then (s, [])
  else if s.playStatus chair ≠ .playing ∧ score ≠ 0 then (s, [])
  else
    let r := if 0 < score then
        ({ s with tableScore := Function.update s.tableScore chair score }, [.addScore chair score])
      else (s, [])
    let s := r.1
    let userCount := (List.finRange gamePlayer).countP fun i =>
      0 < s.tableScore i ∧ s.playStatus i = .playing ∨ s.playStatus i ≠ .playing ∨
        some i = s.bankerUser
    if userCount = gamePlayer then (s.sendCard rand, r.2 ++ [.sendCard]) else r

/-! ## The settlement -/

/-- Someone who plays against the banker. -/
def idle (s : TableSink) (banker i : Chair) : Prop := i ≠ banker ∧ s.playStatus i = .playing

instance (s : TableSink) (banker i : Chair) : Decidable (s.idle banker i) :=
  inferInstanceAs (Decidable (_ ∧ _))

def winTimes (s : TableSink) (i : Chair) : ℕ :=
  if s.oxCard i = some true then getTimes (s.handCardData i) else 1

def wins (s : TableSink) (banker i : Chair) : Bool :=
  compareCard (s.handCardData i) (s.handCardData banker) (s.oxCard i = some true)
    (s.oxCard banker = some true)

/-- What a player wins or loses. -/
def idleScore (s : TableSink) (banker i : Chair) : ℤ :=
  if s.idle banker i then
    if s.wins banker i then s.tableScore i * s.winTimes i
    else -1 * s.tableScore i * s.winTimes banker
  else 0

/-- What the banker wins or loses, with what players left behind. -/
def bankerNet (s : TableSink) (banker : Chair) : ℤ :=
  -((List.finRange gamePlayer).map (s.idleScore banker)).sum + s.exitScore

/-- The banker cannot pay. -/
def Shortfall (s : TableSink) (banker : Chair) (bankerScore : ℤ) : Prop :=
  s.bankerNet banker < 0 ∧ bankerScore + s.bankerNet banker < 0

instance (s : TableSink) (banker : Chair) (bankerScore : ℤ) :
    Decidable (s.Shortfall banker bankerScore) := inferInstanceAs (Decidable (_ ∧ _))

def bankerGetScore (s : TableSink) (banker : Chair) (bankerScore : ℤ) : ℤ :=
  bankerScore + ((List.finRange gamePlayer).map fun i => max 0 (-s.idleScore banker i)).sum

/-- A `LONGLONG`. -/
def Fits (x : ℤ) : Prop := -2 ^ 63 ≤ x ∧ x < 2 ^ 63

instance (x : ℤ) : Decidable (Fits x) := inferInstanceAs (Decidable (_ ∧ _))

def scaleProduct (s : TableSink) (banker : Chair) (bankerScore : ℤ) (i : Chair) : ℤ :=
  s.idleScore banker i * (-s.bankerNet banker - s.bankerGetScore banker bankerScore)

def paidScore (s : TableSink) (banker : Chair) (bankerScore : ℤ) : Option (Chair → ℤ) :=
  if s.Shortfall banker bankerScore then
    if ∀ i, 0 < s.idleScore banker i → Fits (s.scaleProduct banker bankerScore i) then
      some fun i =>
        if i = banker then -1 * bankerScore
        else if 0 < s.idleScore banker i then
          s.idleScore banker i - (s.scaleProduct banker bankerScore i).tdiv (-s.bankerNet banker)
        else s.idleScore banker i
    else none
  else some fun i => if i = banker then s.bankerNet banker else s.idleScore banker i

/-- `lGameScore` before revenue: the stakes of those who left count
too. -/
def gameScore (s : TableSink) (banker : Chair) (bankerScore : ℤ) : Option (Chair → ℤ) :=
  (s.paidScore banker bankerScore).map fun score i =>
    if ¬ s.idle banker i ∧ 0 < s.tableScore i then -s.tableScore i else score i

def onEventGameConclude (s : TableSink) : Option (TableSink × List Output) := do
  let banker ← s.bankerUser
  let bankerScore ← s.users banker
  let score ← s.gameScore banker bankerScore
  some (s.concludeGame, [.gameEnd banker bankerScore score])

def onUserOpenCard (chair : Chair) (ox : UInt8) (s : TableSink) :
    Option (TableSink × List Output) :=
  if s.gameStatus ≠ .playing ∨ s.oxCard chair ≠ none then some (s, [])
  else if ox > 1 then some (s, [])
  else if ox = 1 ∧ getCardType (s.handCardData chair) = 0 then some (s, [])
  else
    let shown := ox = 1 ∨ s.playStatus chair = .playing ∧
      getCardType (s.handCardData chair) ≥ oxThreeSame
    let s := { s with oxCard := Function.update s.oxCard chair (some (decide shown)) }
    let userCount := (List.finRange gamePlayer).countP fun i =>
      s.oxCard i ≠ none ∧ s.playStatus i = .playing ∨ s.playStatus i ≠ .playing
    if userCount = gamePlayer then
      s.onEventGameConclude.map fun r => (r.1, .openCard chair (decide shown) :: r.2)
    else some (s, [.openCard chair (decide shown)])

/-! ## Players who leave -/

/-- What a player who leaves loses: his stake by the multiple of the
banker's cards, and for the banker by it once more. -/
def exitStake (s : TableSink) (chair : Chair) : ℤ :=
  if 0 < s.tableScore chair then
    let times : ℤ := match s.bankerUser with
      | some banker =>
          if s.gameStatus = .score then 1 else getTimes (s.handCardData banker)
      | none => 1
    times * (s.tableScore chair * times)
  else s.tableScore chair

/-- `OnEventGameConclude(GER_USER_LEAVE)`. What it writes is left out. -/
def onUserLeave (chair : Chair) (rand : ℕ → ℕ) (s : TableSink) :
    Option (TableSink × List Output) :=
  let s := { s with
    playStatus := Function.update s.playStatus chair .null
    turnMaxScore := Function.update s.turnMaxScore chair 0 }
  let r :=
    if s.gameStatus = .score ∨ s.gameStatus = .playing then
      if s.bankerUser = some chair then some (s.concludeGame, [.gameOver])
      else
        let bet := s.tableScore chair
        let s := { s with
          exitScore := if 0 < bet then s.exitScore + s.exitStake chair else s.exitScore
          tableScore := Function.update s.tableScore chair (s.exitStake chair) }
        if s.userCount = 1 then some (s.concludeGame, [.gameOver])
        else if s.gameStatus = .score then
          if bet = 0 then some (s.onUserAddScore chair 0 rand) else some (s, [])
        else if s.oxCard chair = none then s.onUserOpenCard chair 0
        else some (s, [])
    else if s.userCount = 1 then some (s.concludeGame, [.gameOver])
    else if s.currentUser = some chair then s.onUserCallBanker chair 0
    else some (s, [])
  r.map fun r => (r.1, .playerExit chair :: r.2)

/-! ## Events -/

/-- `OnTimerMessage(IDI_SO_OPERATE)`. -/
def onTimerMessage (rand : ℕ → ℕ) (s : TableSink) : Option (TableSink × List Output) :=
  match s.gameStatus with
  | .free => some (s, [])
  | .call =>
      match s.currentUser with
      | some chair => s.onUserCallBanker chair 0
      | none => none
  | .score =>
      Machine.run (fun s i =>
        if 0 < s.tableScore i ∨ s.playStatus i ≠ .playing ∨ some i = s.bankerUser then some (s, [])
        else some (s.onUserAddScore i ((s.turnMaxScore i).tdiv 8) rand)) s (List.finRange gamePlayer)
  | .playing =>
      Machine.run (fun s i =>
        if s.oxCard i ≠ none ∨ s.playStatus i ≠ .playing then some (s, [])
        else s.onUserOpenCard i 0) s (List.finRange gamePlayer)

def step (s : TableSink) : Event → Option (TableSink × List Output)
  | .gameStart users rand =>
      -- `EfficacyStartGame` of the frame wants two users
      if s.gameStatus = .free ∧ 2 ≤ (List.finRange gamePlayer).countP fun i => (users i).isSome then
        { s with users }.onEventGameStart rand
      else some (s, [])
  | .sitDown chair score =>
      if s.users chair = none then
        some ({ s with
          users := Function.update s.users chair (some score)
          playStatus := if s.gameStatus ≠ .free then Function.update s.playStatus chair .dynamic
            else s.playStatus }, [])
      else some (s, [])
  | .standUp chair rand =>
      let r := if s.gameStatus ≠ .free ∧ s.playStatus chair = .playing then s.onUserLeave chair rand
        else some (s, [])
      r.map fun r =>
        ({ r.1 with
          users := Function.update r.1.users chair none
          playStatus := Function.update r.1.playStatus chair .null }, r.2)
  | .callBanker chair playing banker =>
      if playing = true ∧ s.playStatus chair = .playing then s.onUserCallBanker chair banker
      else some (s, [])
  | .addScore chair playing score rand =>
      if playing = true ∧ s.playStatus chair = .playing then some (s.onUserAddScore chair score rand)
      else some (s, [])
  | .openCard chair playing ox =>
      if playing = true ∧ s.playStatus chair = .playing then s.onUserOpenCard chair ox
      else some (s, [])
  | .timer rand => s.onTimerMessage rand

end TableSink

end GameServer.Ox
