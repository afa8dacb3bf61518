import GameServer.Common.Run
import GameServer.GuanDan.Model.GameLogic
/-!
# Guandan — the table

`CTableFrameSink`, over the hands of one table: the deal, the two tribute
stages, the plays and the four ways a hand ends. Messages of the players,
timers and calls of the frame are events; a message carries whether its
sender is playing, the shuffle and the draw of the first player are data
of their events, and so are the users' scores after a hand was written.
A read or write outside an array, and a search loop that never ends, are
faults.
-/

namespace GameServer.GuanDan

abbrev Chair := Fin gamePlayer

/-- `GS_WK_FREE` to `GS_WK_PLAYING`. -/
inductive GameStatus where
  | free
  | sendCard
  | tribute
  | playing
  deriving DecidableEq, Repr

/-- `SHUANG_XIA`, `DAN_XIA` and `OTHER`. -/
inductive HandResult where
  | shuangXia
  | danXia
  | other
  deriving DecidableEq, Repr

structure Series where
  ourSeries : ℕ := 2
  otherSeries : ℕ := 2
  currentSeries : ℕ := 2
  deriving DecidableEq, Repr

/-- `IDI_GAEM_START` to `IDI_OUT_CARD`. -/
inductive Timer where
  | gameStart
  | tribute
  | backTribute
  | outCard
  deriving DecidableEq, Repr

def maxRate : ℤ := 3

/-- `CTableFrameSink` with the game status and the timers its frame holds. -/
structure TableSink where
  gameStatus : GameStatus := .free
  timers : Timer → Bool := fun _ => false
  /-- `m_wFriendFirst`: a chair in the high byte, passes to go in the low. -/
  friendFirst : ℕ := 0
  bankerUser : Option Chair := none
  currentUser : Option Chair := none
  turnWiner : Option Chair := none
  /-- The first `m_cbTurnCardCount` entries of `m_cbMagicCardData`. -/
  magicCardData : List UInt8 := []
  mainValue : ℕ := 2
  series : Series := {}
  ranking : Fin 4 → Chair := fun _ => 0
  mark : ℕ := 0
  /-- `m_cbGameStatus`, `none` for zero. -/
  result : Option HandResult := none
  payTribute : Chair → ℕ := fun _ => 0
  tributeCard : Chair → UInt8 := fun _ => 0
  tributeStatus : Chair → Bool := fun _ => false
  tributeBigID : Option Chair := none
  /-- `m_aryRetTributeTarget`, `none` for 255. -/
  retTributeTarget : Chair → Option Chair := fun _ => none
  handCardCount : Chair → ℕ := fun _ => 0
  /-- The whole array `m_cbHandCardData`. -/
  handCardData : Chair → List UInt8 := fun _ => List.replicate maxCount 0
  baseScore : ℤ := 0

/-- Messages, timers and calls of the frame. `playing` says whether the
sender of a message is `US_PLAYING`, `scores` what the users have after a
hand that ends here is written. -/
inductive Event where
  | gameStart (rand : ℕ → ℕ)
  | timer (timer : Timer) (rand : ℕ) (scores : Chair → ℤ)
  | outCard (chair : Chair) (playing : Bool) (cardCount : UInt8) (cards : List UInt8)
      (scores : Chair → ℤ)
  | passCard (chair : Chair) (playing : Bool)
  | payTribute (chair : Chair) (playing : Bool) (card : UInt8)
  | returnTribute (chair : Chair) (playing : Bool) (card : UInt8)
  | trustee (chair : Chair) (playing trustee : Bool) (scores : Chair → ℤ)
  | sendGameScene (cellScore : ℤ)
  | dismiss
  | userLeave

/-- `GER_NORMAL`, `GER_DISMISS` and `GER_USER_LEAVE`. -/
inductive EndReason where
  | normal
  | dismiss
  | userLeave
  deriving DecidableEq, Repr

inductive Output where
  | sendCard (series : Series)
  | payTributeNotify (jinGong : Chair → Bool)
  | kangGong
  | payTributeCard (chair : Chair) (card : UInt8)
  | payTributeResult (source target : Chair) (card : UInt8)
  | returnTribute (source : Chair) (target : Option Chair) (card : UInt8)
  | startOut (currentUser : Chair)
  | outCard (chair : Chair) (cards : List UInt8)
  | userOutOver (chair : Chair) (ranking : ℕ)
  | passCard (chair : Option Chair) (currentUser : Chair) (newTurn : Bool)
  | gameEnd (reason : EndReason) (ranking : Fin 4 → Chair) (series : Series)

namespace TableSink

/-- The cards of a chair: the first `m_cbHandCardCount` entries. -/
def hand (s : TableSink) (i : Chair) : List UInt8 := (s.handCardData i).take (s.handCardCount i)

def setGameTimer (timer : Timer) (s : TableSink) : TableSink :=
  { s with timers := Function.update s.timers timer true }

def killGameTimer (timer : Timer) (s : TableSink) : TableSink :=
  { s with timers := Function.update s.timers timer false }

def repositionSink (s : TableSink) : TableSink :=
  { s with
    currentUser := none
    turnWiner := none
    magicCardData := []
    mark := 0
    handCardCount := fun _ => 0
    handCardData := fun _ => List.replicate maxCount 0 }

def concludeGame (s : TableSink) : TableSink := { s with gameStatus := .free }.repositionSink

/-! ## The end of a hand -/

/-- The result of a hand in `OnEventGameConclude`: who pays, and the last
entries of the ranking. -/
def rankUsers (s : TableSink) : TableSink :=
  let first := s.ranking 0
  let second := first + 1
  let pay := Function.update s.payTribute first 1
  if s.ranking 0 = s.ranking 1 + 2 then
    { s with
      result := some .shuangXia
      payTribute :=
        Function.update (Function.update (Function.update pay (first + 2) 1) second 2) (second + 2) 2
      ranking := Function.update (Function.update s.ranking 2 (first + 1)) 3 (first + 3) }
  else if s.ranking 0 = s.ranking 2 + 2 then
    { s with
      result := some .danXia
      payTribute := Function.update (Function.update (Function.update pay (s.ranking 2) 0)
        (s.ranking 1) 0) (s.ranking 1 + 2) 2
      ranking := Function.update s.ranking 3 (s.ranking 1 + 2) }
  else
    { s with
      result := some .other
      payTribute := Function.update (Function.update (Function.update pay (s.ranking 1) 0)
        (s.ranking 2) 0) (s.ranking 0 + 2) 2
      ranking := Function.update s.ranking 3 (s.ranking 0 + 2) }

def clearRounds (s : TableSink) : TableSink :=
  { s with
    ranking := fun _ => 0
    payTribute := fun _ => 0
    series := {}
    bankerUser := none }

/-- How many levels the winners rise. -/
def upgrading : Option HandResult → ℕ
  | some .shuangXia => 3
  | some .danXia => 2
  | _ => 1

/-- `bTongGuan`: the last level was played and won. -/
def tongGuan (s : TableSink) : Bool :=
  s.series.currentSeries = 14 ∧ s.result ≠ some .other ∧
    ((s.series.ourSeries = 14 ∧ (s.ranking 0).val % 2 = 0) ∨
      (s.series.otherSeries = 14 ∧ (s.ranking 0).val % 2 = 1))

/-- The levels after a hand. -/
def upgrade (s : TableSink) : TableSink :=
  if s.tongGuan then { s with result := none }.clearRounds
  else if (s.ranking 0).val % 2 = 0 then
    let series := min 14 (s.series.ourSeries + upgrading s.result)
    { s with
      series := { s.series with ourSeries := series, currentSeries := series }
      bankerUser := some (s.ranking 0) }
  else
    let series := min 14 (s.series.otherSeries + upgrading s.result)
    { s with
      series := { s.series with otherSeries := series, currentSeries := series }
      bankerUser := some (s.ranking 0) }

/-- `bHavePlayerMoneyEnough`, set when a player's money is short. -/
def moneyShort (s : TableSink) (scores : Chair → ℤ) : Bool :=
  (List.finRange gamePlayer).any fun i => scores i < s.baseScore * maxRate

/-- `OnEventGameConclude` with `GER_NORMAL`. A reset for money leaves the
result. -/
def concludeNormal (scores : Chair → ℤ) (s : TableSink) : TableSink × List Output :=
  let s := s.rankUsers.upgrade
  ((if s.moneyShort scores then s.clearRounds else s).concludeGame,
    [.gameEnd .normal s.ranking s.series])

/-- `OnEventGameConclude`. The cards left are copied into one message. -/
def onEventGameConclude (reason : EndReason) (scores : Chair → ℤ) (s : TableSink) :
    Option (TableSink × List Output) :=
  let s := { s with timers := fun _ => false }
  if fullCount < s.handCardCount 0 + s.handCardCount 1 + s.handCardCount 2 + s.handCardCount 3 then
    none
  else match reason with
    | .normal => some (s.concludeNormal scores)
    | .dismiss => some ({ s.concludeGame with result := none }.clearRounds,
        [.gameEnd .dismiss (fun _ => 0) ⟨0, 0, 0⟩])
    | .userLeave => some ({ s.concludeGame with result := none }.clearRounds,
        [.gameEnd .userLeave s.ranking s.series])

/-! ## The deal -/

def onEventGameStart (rand : ℕ → ℕ) (s : TableSink) : TableSink :=
  let randCard := randCardList rand
  { s with
    gameStatus := .sendCard
    tributeBigID := none
    tributeCard := fun _ => 0
    tributeStatus := fun _ => false
    mark := 0
    retTributeTarget := fun _ => none
    handCardCount := fun _ => 27
    handCardData := fun i =>
      (randCard.drop (i * 27)).take 27 ++ (s.handCardData i).drop 27
    mainValue := if s.series.currentSeries < 14 then s.series.currentSeries else 1 }.setGameTimer
      .gameStart

/-- Whether the tribute of the last hand's result is refused: its payers
hold both big jokers. -/
def kangGong (s : TableSink) : HandResult → Bool
  | .shuangXia =>
      (s.handCardData (s.ranking 0)).getD 0 0 ≠ 0x4F ∧
        (s.handCardData (s.ranking 0 + 2)).getD 0 0 ≠ 0x4F
  | .danXia =>
      (s.handCardData (s.ranking 1 + 2)).getD 0 0 = 0x4F ∧
        (s.handCardData (s.ranking 1 + 2)).getD 1 0 = 0x4F
  | .other =>
      (s.handCardData (s.ranking 0 + 2)).getD 0 0 = 0x4F ∧
        (s.handCardData (s.ranking 0 + 2)).getD 1 0 = 0x4F

/-- The banker leads, or one who is drawn; the hands are sorted. -/
def setUser (rand : ℕ) (s : TableSink) : TableSink :=
  let user := s.bankerUser.getD (Fin.ofNat gamePlayer rand)
  { s with
    friendFirst := 0
    currentUser := some user
    bankerUser := some user
    handCardData := fun i => sortCardList s.mainValue ((s.handCardData i).take (s.handCardCount i)) ++
      (s.handCardData i).drop (s.handCardCount i) }

/-- `SUB_S_START_OUT`: the plays begin. -/
def startOut (user : Chair) (s : TableSink) : TableSink × List Output :=
  ({ s with gameStatus := .playing }.setGameTimer .outCard, [.startOut user])

def onGameStart (rand : ℕ) (s : TableSink) : TableSink × List Output :=
  let user := s.bankerUser.getD (Fin.ofNat gamePlayer rand)
  let s := s.setUser rand
  match s.result with
  | none => s.startOut user
  | some result =>
      if s.kangGong result then
        let s := { s with payTribute := fun _ => 0, currentUser := some (s.ranking 0) }
        ((s.startOut (s.ranking 0)).1, .kangGong :: (s.startOut (s.ranking 0)).2)
      else
        ({ s with currentUser := none, gameStatus := .tribute }.setGameTimer .tribute,
          [.payTributeNotify fun i => s.payTribute i = 2])

/-! ## Tribute -/

/-- A card leaves a hand for tribute: whether it was found is not looked
at. -/
def handOver (chair : Chair) (card : UInt8) (s : TableSink) : TableSink :=
  { s with
    currentUser := none
    tributeStatus := Function.update s.tributeStatus chair true
    tributeCard := Function.update s.tributeCard chair card
    handCardData := Function.update s.handCardData chair
      ((removeCard [card] (s.handCardData chair) (s.handCardCount chair)).getD (s.handCardData chair))
    handCardCount := Function.update s.handCardCount chair ((s.handCardCount chair + 255) % 256) }

/-- `Add` on a hand, before its count is raised. -/
def addCard (chair : Chair) (card : UInt8) (s : TableSink) : Option TableSink :=
  (add s.mainValue card (s.handCardData chair) (s.handCardCount chair)).map fun data =>
    { s with handCardData := Function.update s.handCardData chair data }

/-- `m_cbHandCardCount[chair]++`. -/
def countUp (chair : Chair) (s : TableSink) : TableSink :=
  { s with handCardCount := Function.update s.handCardCount chair (s.handCardCount chair + 1) }

/-- The tribute is paid, and the return begins. -/
def startReturn (s : TableSink) : TableSink :=
  (s.killGameTimer .tribute).setGameTimer .backTribute

/-- `OnSubPayTribute` when both have paid: the first user gets the card of
`big` and the second that of `small`. -/
def payBoth (big small : Chair) (s : TableSink) : TableSink :=
  let first := s.ranking 0
  let second := s.ranking 1
  { (s.countUp first).countUp second with
    tributeBigID := some big
    retTributeTarget := Function.update (Function.update s.retTributeTarget first (some big))
      second (some small) }.startReturn

/-- `OnSubPayTribute` by one payer to the first user. -/
def payFirst (chair : Chair) (card : UInt8) (s : TableSink) : Option (TableSink × List Output) :=
  (s.addCard (s.ranking 0) card).map fun s =>
    ({ s.countUp (s.ranking 0) with
        tributeBigID := some chair
        retTributeTarget := Function.update s.retTributeTarget (s.ranking 0) (some chair)
      }.startReturn, [.payTributeResult chair (s.ranking 0) card])

def onSubPayTribute (chair : Chair) (card : UInt8) (s : TableSink) :
    Option (TableSink × List Output) :=
  if s.tributeStatus chair then some (s, [])
  else
    let s := s.handOver chair card
    let first := s.ranking 0
    let second := s.ranking 1
    match s.result with
    | none => some (s, [])
    | some .shuangXia =>
        let one := first + 1
        let two := first + 3
        if s.tributeStatus one ∧ s.tributeStatus two then
          let cardOne := s.tributeCard one
          let cardTwo := s.tributeCard two
          if getCardLogicValue s.mainValue cardTwo < getCardLogicValue s.mainValue cardOne then do
            let s ← s.addCard first cardOne
            let s ← s.addCard second cardTwo
            some (s.payBoth one two,
              [.payTributeResult one first cardOne, .payTributeResult two second cardTwo])
          else do
            let s ← s.addCard second cardOne
            let s ← s.addCard first cardTwo
            some (s.payBoth two one,
              [.payTributeResult two first cardTwo, .payTributeResult one second cardOne])
        else some (s, [.payTributeCard chair card])
    | some .danXia => s.payFirst chair card
    | some .other => s.payFirst chair card

/-- The card `OnSubReturnTribute` moves. -/
def giveBack (chair : Chair) (card : UInt8) (s : TableSink) : Option (TableSink × List Output) :=
  let target := s.retTributeTarget chair
  let s := s.handOver chair card
  match s.result with
  | none => some (s, [])
  | some result =>
      match target with
      | none => none
      | some target =>
          (s.addCard target card).map fun s =>
            ({ s.countUp target with
                currentUser :=
                  if result = .shuangXia then
                    if s.tributeStatus (s.ranking 0) ∧ s.tributeStatus (s.ranking 1) then
                      s.tributeBigID
                    else none
                  else some target }, [.returnTribute chair (some target) card])

/-- `OnSubReturnTribute`. Once a user is current the plays begin. -/
def onSubReturnTribute (chair : Chair) (card : UInt8) (s : TableSink) :
    Option (TableSink × List Output) :=
  (if s.tributeStatus chair then some (s, []) else s.giveBack chair card).map fun r =>
    match r.1.currentUser with
    | none => r
    | some user => let t := (r.1.killGameTimer .backTribute).startOut user
        (t.1, r.2 ++ t.2)

/-- The users `OnTributeTimeOut` pays for. -/
def payers (s : TableSink) : List Chair :=
  match s.result with
  | none => []
  | some .shuangXia => [s.ranking 0 + 1, s.ranking 0 + 3]
  | some .danXia => [s.ranking 1 + 2]
  | some .other => [s.ranking 0 + 2]

/-- The users `OnTributeTimeOut` returns for. -/
def receivers (s : TableSink) : List Chair :=
  match s.result with
  | none => []
  | some .shuangXia => [s.ranking 0, s.ranking 1]
  | some .danXia => [s.ranking 0]
  | some .other => [s.ranking 0]

/-- `OnTributeTimeOut(0)` for one user. -/
def payFor (s : TableSink) (chair : Chair) : Option (TableSink × List Output) :=
  if s.tributeStatus chair then some (s, [])
  else s.onSubPayTribute chair (getJingongCard s.mainValue (s.handCardData chair))

/-- `OnTributeTimeOut(1)` for one user. -/
def returnFor (s : TableSink) (chair : Chair) : Option (TableSink × List Output) :=
  if s.tributeStatus chair then some (s, [])
  else s.onSubReturnTribute chair ((s.handCardData chair).getD 27 0)

/-! ## Plays -/

/-- The search of the next user who holds cards, which does not end where
nobody does. -/
def nextUser (s : TableSink) (start : Chair) : Option Chair :=
  [start, start + 1, start + 2, start + 3].find? fun i => s.handCardCount i ≠ 0

/-- The checks of `OnSubOutCard` before any card is looked for: what the
wild cards become, when the play has a type and beats the cards on the
table. -/
def legalPlay (s : TableSink) (cards : List UInt8) : Option (Option (List UInt8)) := do
  let magic ← GuanDan.magicCardData s.mainValue cards
  let cardType ← getCardType s.mainValue magic
  if cardType = .error then some none
  else if s.magicCardData = [] then some (some magic)
  else
    let beats ← compareCard s.mainValue s.magicCardData magic
    some (if beats then some magic else none)

/-- The cards are found in the hand and leave it. -/
def takeOut (s : TableSink) (chair : Chair) (cards magic : List UInt8) : Option TableSink :=
  (removeCard cards (s.handCardData chair) (s.handCardCount chair)).map fun data =>
    -- the removal was refused where there are fewer cards than played
    { s with
      handCardCount := Function.update s.handCardCount chair (s.handCardCount chair - cards.length)
      handCardData := Function.update s.handCardData chair data
      magicCardData := magic
      friendFirst := 0 }.killGameTimer .outCard

/-- The next user, `none` when both of a side are out. -/
def switchUser (s : TableSink) (chair : Chair) : Option TableSink :=
  if s.handCardCount chair = 0 ∧ s.handCardCount (chair + 2) = 0 then
    some { s with currentUser := none }
  else (s.nextUser (chair + 1)).map fun user => { s with currentUser := some user }

/-- A user who is out is ranked, and a new turn may go to the friend. -/
def outOver (s : TableSink) (chair : Chair) : Option (TableSink × List Output) :=
  if s.handCardCount chair = 0 then
    if h : s.mark < 4 then
      let mark := s.mark + 1
      some ({ s with
          ranking := Function.update s.ranking ⟨s.mark, h⟩ chair
          mark
          turnWiner := s.currentUser
          friendFirst :=
            if s.currentUser ≠ none then (chair + 2).val * 256 + (gamePlayer - mark)
            else s.friendFirst },
        [.userOutOver chair mark])
    else none
  else some ({ s with turnWiner := some chair }, [])

/-- `OnSubOutCard` before it looks for the end of the hand: `none` inside
when the play is turned down. -/
def outCard (s : TableSink) (chair : Chair) (cards : List UInt8) :
    Option (Option (TableSink × List Output)) :=
  if s.gameStatus ≠ .playing ∨ s.currentUser ≠ some chair then some none
  else match s.legalPlay cards with
    | none => none
    | some none => some none
    | some (some magic) =>
        match s.takeOut chair cards magic with
        | none => some none
        | some s => do
            let s ← s.switchUser chair
            let (s, out) ← s.outOver chair
            some (some (s, out ++ [.outCard chair cards]))

def onSubOutCard (chair : Chair) (cards : List UInt8) (scores : Chair → ℤ) (s : TableSink) :
    Option (TableSink × List Output) :=
  match s.outCard chair cards with
  | none => none
  | some none => some (s, [])
  | some (some (s, out)) =>
      match s.currentUser with
      | none => (s.onEventGameConclude .normal scores).map fun r => (r.1, out ++ r.2)
      | some _ => some (s.setGameTimer .outCard, out)

/-- The turn of `OnSubPassCard` when the passes are counted: with none to
go, the friend has a new turn. -/
def passFriend (s : TableSink) : TableSink :=
  if s.friendFirst % 256 = 0 then s
  else if (s.friendFirst - 1) % 256 = 0 then
    let friend := some (Fin.ofNat gamePlayer ((s.friendFirst - 1) / 256))
    { s with currentUser := friend, turnWiner := friend, magicCardData := [], friendFirst := 0 }
  else { s with friendFirst := s.friendFirst - 1 }

/-- `OnSubPassCard`. The timer calls it with the current user, whoever it
is; after `INVALID_CHAIR` comes chair zero. -/
def onSubPassCard (chair : Option Chair) (s : TableSink) : Option (TableSink × List Output) :=
  if s.gameStatus ≠ .playing ∨ chair ≠ s.currentUser ∨ s.magicCardData = [] then some (s, [])
  else
    let s := s.killGameTimer .outCard
    (s.nextUser (chair.elim 0 (· + 1))).bind fun user =>
      let s := { s with
        currentUser := some user
        magicCardData := if s.turnWiner = some user then [] else s.magicCardData }.passFriend
      s.currentUser.map fun user =>
        (s.setGameTimer .outCard, [.passCard chair user (s.magicCardData = [])])

def onOutCardTimeOut (scores : Chair → ℤ) (s : TableSink) : Option (TableSink × List Output) :=
  if s.gameStatus = .playing then
    let s := s.killGameTimer .outCard
    if s.magicCardData = [] then
      match s.currentUser with
      | none => none
      | some chair =>
          let count := s.handCardCount chair
          if count = 0 ∨ maxCount < count then none
          else s.onSubOutCard chair [(s.handCardData chair).getD (count - 1) 0] scores
    else s.onSubPassCard s.currentUser
  else some (s, [])

/-! ## Events -/

def onTimerMessage (timer : Timer) (rand : ℕ) (scores : Chair → ℤ) (s : TableSink) :
    Option (TableSink × List Output) :=
  let s := s.killGameTimer timer
  match timer with
  | .gameStart => some (s.onGameStart rand)
  | .tribute => if s.gameStatus = .tribute then Machine.run payFor s s.payers else some (s, [])
  | .backTribute =>
      if s.gameStatus = .tribute then Machine.run returnFor s s.receivers else some (s, [])
  | .outCard => s.onOutCardTimeOut scores

def step (s : TableSink) : Event → Option (TableSink × List Output)
  | .gameStart rand =>
      if s.gameStatus = .free then some (s.onEventGameStart rand, [.sendCard s.series])
      else some (s, [])
  | .timer timer rand scores =>
      if s.timers timer then s.onTimerMessage timer rand scores else some (s, [])
  | .outCard chair playing cardCount cards scores =>
      if cards.length = cardCount.toNat ∧ playing = true then s.onSubOutCard chair cards scores
      else some (s, [])
  | .passCard chair playing =>
      if playing = true then s.onSubPassCard (some chair) else some (s, [])
  | .payTribute chair playing card =>
      if playing = true then s.onSubPayTribute chair card else some (s, [])
  | .returnTribute chair playing card =>
      if playing = true then s.onSubReturnTribute chair card else some (s, [])
  | .trustee chair playing trustee scores =>
      if playing = true ∧ s.handCardCount chair ≠ 0 ∧ s.currentUser = some chair ∧ trustee = true then
        s.onOutCardTimeOut scores
      else some (s, [])
  | .sendGameScene cellScore =>
      if s.gameStatus = .free then some ({ s with baseScore := cellScore }, []) else some (s, [])
  | .dismiss =>
      if s.gameStatus = .free then some (s, []) else s.onEventGameConclude .dismiss fun _ => 0
  | .userLeave =>
      if s.gameStatus = .free then some (s, []) else s.onEventGameConclude .userLeave fun _ => 0

end TableSink

end GameServer.GuanDan
