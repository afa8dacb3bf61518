import GameServer.Common.Run
import GameServer.DouDizhu.Model.GameLogic
/-!
# Dou Dizhu — the table

`CTableFrameSink`, from the deal to the end of a hand. Messages of the
players, the timer of a match and the frame's calls are events. A message
carries whether its sender is playing; the shuffle and the card drawn for
the first call are data of the deal. A copy behind the end of an array is
a fault.
-/

namespace GameServer.DouDizhu

abbrev Chair := Fin gamePlayer

/-- What the sink reads of the service: whether it is a match, and whether
players who are off line are played for. -/
structure ServiceOption where
  isMatch : Bool
  offLineTrustee : Bool

/-- `GAME_SCENE_FREE`, `GAME_SCENE_CALL` and `GAME_SCENE_PLAY`. -/
inductive GameStatus where
  | free
  | call
  | play
  deriving DecidableEq, Repr

/-- `CTableFrameSink` with the game status its frame holds. -/
structure TableSink where
  gameStatus : GameStatus := .free
  /-- `m_wFirstUser`, which a new hand keeps. -/
  firstUser : Option Chair := none
  bankerUser : Option Chair := none
  currentUser : Option Chair := none
  bankerScore : ℕ := 0
  userTrustee : Chair → Bool := fun _ => false
  turnWiner : Option Chair := none
  /-- The first `m_cbTurnCardCount` entries of `m_cbTurnCardData`. -/
  turnCardData : List UInt8 := []
  bankerCard : List UInt8 := List.replicate 3 0
  handCardCount : Chair → ℕ := fun _ => 0
  /-- The whole array `m_cbHandCardData`. -/
  handCardData : Chair → List UInt8 := fun _ => List.replicate maxCount 0
  /-- Whether `IDI_USER_OUT_TIME` is set. -/
  userOutTime : Bool := false

/-- Messages, timers and calls of the frame. `playing` says whether the
sender of a message is `US_PLAYING`. -/
inductive Event where
  | gameStart (rand : ℕ → ℕ) (validCardIndex : ℕ)
  | callScore (chair : Chair) (playing : Bool) (score : UInt8)
  | outCard (chair : Chair) (playing : Bool) (cardCount : UInt8) (cards : List UInt8)
  | passCard (chair : Chair) (playing : Bool)
  | trustee (chair : Chair) (trustee : Bool)
  | userOutTime
  | userOffLine (chair : Chair)
  | userConnect (chair : Chair)
  | userStandUp (chair : Chair)
  | dismiss
  | userLeave (chair : Chair)

inductive Output where
  | gameStart
  | outCard (chair : Chair) (cards : List UInt8)
  | gameConclude (handCardData : Chair → List UInt8)

namespace TableSink

/-- The cards of a chair: the first `m_cbHandCardCount` entries. -/
def hand (s : TableSink) (i : Chair) : List UInt8 := (s.handCardData i).take (s.handCardCount i)

def repositionSink (s : TableSink) : TableSink :=
  { firstUser := s.firstUser, userOutTime := s.userOutTime }

def isOfflineTrustee (opt : ServiceOption) (s : TableSink) : TableSink :=
  if opt.isMatch = true ∧ s.currentUser.isSome = true ∧ opt.offLineTrustee = true then
    { s with userOutTime := true }
  else s

/-- What follows a turn: a player who is played for gets the timer. -/
def playFor (opt : ServiceOption) (s : TableSink) : TableSink :=
  if s.currentUser.any s.userTrustee then s.isOfflineTrustee opt else s

/-- The cards of `OnEventGameStart`: the slices of the deck go round from
`first`, and each is sorted. -/
def deal (randCard : List UInt8) (first currentUser : Chair) (s : TableSink) : TableSink :=
  { s with
    gameStatus := .call
    turnWiner := none
    turnCardData := []
    handCardCount := fun _ => normalCount
    handCardData := fun i =>
      sortCardList ((randCard.drop ((i - first : Chair) * normalCount)).take normalCount) ++
        (s.handCardData i).drop normalCount
    bankerCard := randCard.drop dispatchCount
    firstUser := some currentUser
    currentUser := some currentUser }

/-- `OnEventGameStart`. In a match the first user is drawn again. -/
def onEventGameStart (opt : ServiceOption) (rand : ℕ → ℕ) (validCardIndex : ℕ) (s : TableSink) :
    TableSink :=
  let randCard := randCardList rand
  let firstUser := if opt.isMatch then none else s.firstUser
  let validIndex := validCardIndex % dispatchCount
  let drawn : Chair := Fin.ofNat gamePlayer
    (getCardValue (randCard.getD validIndex 0) % gamePlayer + validIndex / normalCount)
  -- `INVALID_CHAIR` is a multiple of the players
  let s := s.deal randCard (firstUser.getD 0) (firstUser.getD drawn)
  if opt.offLineTrustee then s.isOfflineTrustee opt else s

/-- `OnEventGameConclude` without the scores: the cards left are sent and
the frame ends the game. -/
def conclude (firstUser : Option Chair) (s : TableSink) : Option (TableSink × List Output) :=
  if fullCount < s.handCardCount 0 + s.handCardCount 1 + s.handCardCount 2 then none
  else some ({ s with firstUser }.repositionSink, [.gameConclude s.hand])

/-- The calls are over: the banker takes the three cards and begins. -/
def bankerInfo (opt : ServiceOption) (banker : Chair) (s : TableSink) : TableSink :=
  let count := s.handCardCount banker + 3
  let data := (s.handCardData banker).take normalCount ++ s.bankerCard ++
    (s.handCardData banker).drop maxCount
  playFor opt { s with
    gameStatus := .play
    bankerUser := some banker
    handCardCount := Function.update s.handCardCount banker count
    handCardData := Function.update s.handCardData banker
      (sortCardList (data.take count) ++ data.drop count)
    turnWiner := some banker
    currentUser := some banker }

/-- The call of `OnUserCallScore`: one that is no call or not higher is
none. -/
def bookCall (chair : Chair) (callScore : UInt8) (s : TableSink) : TableSink :=
  let score := if (callScore < 1 ∨ 3 < callScore ∨ callScore.toNat ≤ s.bankerScore) ∧
    callScore ≠ 255 then 255 else callScore.toNat
  if score ≠ 255 then { s with bankerScore := score, bankerUser := some chair } else s

/-- The calls are over. If nobody called the first user is banker. -/
def endCalls (opt : ServiceOption) (s : TableSink) : Option TableSink :=
  let s := if s.bankerScore = 0 then { s with bankerUser := s.firstUser, bankerScore := 1 } else s
  (s.bankerUser.or s.firstUser).map fun banker => s.bankerInfo opt banker

def onUserCallScore (opt : ServiceOption) (chair : Chair) (callScore : UInt8) (s : TableSink) :
    Option TableSink :=
  if s.currentUser ≠ some chair then some s
  else
    let s := s.bookCall chair callScore
    if s.bankerScore = 3 ∨ s.firstUser = some (chair + 1) then s.endCalls opt
    else some (playFor opt { s with currentUser := some (chair + 1) })

def onUserPassCard (opt : ServiceOption) (chair : Chair) (s : TableSink) : TableSink :=
  if s.currentUser ≠ some chair ∨ s.turnCardData = [] then s
  else
    let s := { s with
      currentUser := some (chair + 1)
      turnCardData := if s.turnWiner = some (chair + 1) then [] else s.turnCardData }
    s.playFor opt

/-- The checks of `OnUserOutCard` before any card is looked for: the cards
have a type, and beat the cards on the table if there are any. -/
def legalPlay (s : TableSink) (cards : List UInt8) : Option Bool := do
  let cardType ← getCardType cards
  if cardType = .error then some false
  else if s.turnCardData = [] then some true
  else compareCard s.turnCardData cards

/-- The cards are found in the hand and leave it. -/
def takeOut (s : TableSink) (chair : Chair) (cards : List UInt8) : Option TableSink :=
  (removeCardList cards (s.handCardData chair) (s.handCardCount chair)).map fun data =>
    let count := (s.handCardCount chair + 256 - cards.length) % 256
    let missile := cards = [0x4F, 0x4E]
    { s with
      handCardCount := Function.update s.handCardCount chair count
      handCardData := Function.update s.handCardData chair data
      turnWiner := some chair
      turnCardData := if missile then [] else cards
      currentUser := if count = 0 then none else if missile then some chair else some (chair + 1) }

/-- The play of `OnUserOutCard` before it looks for the end of the hand:
`none` inside when it is turned down. -/
def outCard (s : TableSink) (chair : Chair) (cards : List UInt8) : Option (Option TableSink) :=
  if s.currentUser ≠ some chair then some none
  else match s.legalPlay cards with
    | none => none
    | some false => some none
    | some true => match s.takeOut chair cards with
      | none => some none
      | some s' => if maxCount < cards.length then none else some (some s')

def onUserOutCard (opt : ServiceOption) (chair : Chair) (cards : List UInt8) (s : TableSink) :
    Option (TableSink × List Output) :=
  match s.outCard chair cards with
  | none => none
  | some none => some (s, [])
  | some (some s') =>
      if s'.currentUser = none then
        (s'.conclude (some chair)).map fun r => (r.1, .outCard chair cards :: r.2)
      else some (s'.playFor opt, [.outCard chair cards])

def onUserOutTime (opt : ServiceOption) (s : TableSink) : Option (TableSink × List Output) :=
  let s := { s with userOutTime := false }
  match s.currentUser with
  | none => some (s, [])
  | some chair =>
      match s.gameStatus with
      | .free => some (s, [])
      | .call => (s.onUserCallScore opt chair (if s.bankerScore = 0 then 1 else 255)).map (·, [])
      | .play =>
          if s.turnCardData = [] then
            match searchOutCard (s.hand chair) with
            | none => none
            | some cards => s.onUserOutCard opt chair cards
          else some (s.onUserPassCard opt chair, [])

def step (opt : ServiceOption) (s : TableSink) : Event → Option (TableSink × List Output)
  | .gameStart rand validCardIndex =>
      if s.gameStatus = .free then
        some (s.onEventGameStart opt rand validCardIndex, [.gameStart])
      else some (s, [])
  | .callScore chair playing score =>
      if s.gameStatus = .call ∧ playing = true then (s.onUserCallScore opt chair score).map (·, [])
      else some (s, [])
  | .outCard chair playing cardCount cards =>
      if cards.length = cardCount.toNat ∧ s.gameStatus = .play ∧ playing = true then
        s.onUserOutCard opt chair cards
      else some (s, [])
  | .passCard chair playing =>
      if s.gameStatus = .play ∧ playing = true then some (s.onUserPassCard opt chair, [])
      else some (s, [])
  | .trustee chair trustee =>
      some ({ s with userTrustee := Function.update s.userTrustee chair trustee }, [])
  | .userOutTime =>
      if opt.isMatch = true ∧ s.userOutTime = true then s.onUserOutTime opt else some (s, [])
  | .userOffLine chair =>
      if opt.offLineTrustee = true ∧ s.currentUser = some chair then
        some (s.isOfflineTrustee opt, [])
      else some (s, [])
  | .userConnect chair =>
      if opt.offLineTrustee = true ∧ opt.isMatch = true ∧ s.currentUser = some chair then
        some ({ s with userOutTime := false }, [])
      else some (s, [])
  | .userStandUp chair =>
      some ({ s with userTrustee := Function.update s.userTrustee chair false }, [])
  | .dismiss => if s.gameStatus = .free then some (s, []) else s.conclude s.firstUser
  | .userLeave _ =>
      if s.gameStatus = .free then some (s, [])
      else if opt.isMatch = true ∧ opt.offLineTrustee = true then some (s.isOfflineTrustee opt, [])
      else s.conclude s.firstUser

end TableSink

end GameServer.DouDizhu
