import GameServer.NanjingMahjong.Model.Messages
/-!
# Nanjing mahjong — what the table sends

`CTableFrameSink` as far as the scene, the draw, the replacement of flowers
and the offers go. The record of the game, the spectators' copies, the
timers and the answers that robots give at once stay out of it.
-/

namespace GameServer.NanjingMahjong

/-- The variables of the table that the game shows to everybody. -/
structure Shown where
  /-- `GetCellScore`. -/
  cellScore : ℤ
  /-- `lCellScore` of the room's options. -/
  optionCellScore : ℤ
  maxEnterScore : ℤ
  lastRoundBiXiaHu : Bool
  siceCount : UInt16
  bankerUser : Option Chair
  eastUser : Option Chair
  currentUser : Option Chair
  provideUser : Option Chair
  userTrust : Chair → Bool
  userTing : Chair → Bool
  outCardUser : Option Chair
  outCardData : UInt8
  discardCount : Chair → UInt8
  discardCard : Chair → List UInt8
  sendCardStatus : Bool
  sendCardUser : Option Chair
  sendCardCount : UInt8
  sendCardOver : Chair → Bool
  leftCardCount : UInt8
  buHuaUser : Option Chair
  buHuaOver : Chair → Bool
  firstBuHuaOver : Chair → Bool
  /-- `m_cbHuaPaiCount[i][0]`. -/
  huaPaiCount : Chair → UInt8
  huaPaiData : Chair → List UInt8
  weaveItemCount : Chair → UInt8
  weaveItemArray : Chair → List WeaveItem
  outCardScore : Chair → ℤ × ℤ
  gangScore : Chair → ℤ

/-- The table. The tiles of the wall stand at the places below
`leftCardCount`, the next one last. -/
structure Sink extends Shown where
  cardIndex : Chair → Hand
  repertoryCard : ℕ → UInt8
  masterCheckCard : Chair → UInt8
  cheatChairID : Option Chair
  leftCheatCardCount : UInt8
  cheatCard : ℕ → UInt8
  sendCardData : UInt8
  provideCard : UInt8
  response : Chair → Bool
  userAction : Chair → UInt32
  gangPaiResult : Chair → List GangPai
  tingPaiResult : Chair → List TingPaiItem

namespace Sink

variable (s : Sink)

/-! ## The scene -/

def isFirstBuHuaOver : Bool := decide (∀ q, s.firstBuHuaOver q = true)

/-- `CMD_S_StatusPlay` for a chair. -/
def statusPlay (p : Chair) : StatusPlay where
  baseScore := s.cellScore
  curBiXiaHu := s.lastRoundBiXiaHu
  siceCount := s.siceCount
  bankerUser := s.bankerUser
  currentUser := s.currentUser
  eastUser := s.eastUser
  leftCardCount := s.leftCardCount
  userTrust := s.userTrust
  userTing := s.userTing
  tiaoZhanScore := 0
  outCardUser := s.outCardUser
  outCardData := s.outCardData
  discardCount := s.discardCount
  discardCard := s.discardCard
  cardCount q :=
    if q = p then (s.cardIndex p).toCardData.length else getCardCount (s.cardIndex q)
  cardData := cardArray (s.cardIndex p).toCardData
  sendCardData := if s.sendCardStatus then s.sendCardData else 0
  huaPaiCount := s.huaPaiCount
  huaPaiData := s.huaPaiData
  weaveCount := s.weaveItemCount
  weaveItemArray := s.weaveItemArray
  outCardScore := s.outCardScore
  gangScore := s.gangScore

/-- The ready list that follows a mask. -/
def tingStream (q : Chair) (actionMask : UInt32) : Option (List TingPaiItem) :=
  if actionMask &&& wikTing ≠ 0 then some (s.tingPaiResult q) else none

def sceneNotify (p : Chair) : OperateNotify :=
  let actionMask := if s.response p then wikNull else s.userAction p
  { operateUser := p
    currentUser := s.currentUser
    actionMask := actionMask
    actionCard := s.provideCard
    gangPaiResult := s.gangPaiResult p
    tingPaiResult := s.tingStream p actionMask }

def gsMjFree : UInt8 := 0

def gsMjDice : UInt8 := 101

def gsMjPlay : UInt8 := 102

def onEventSendGameScene (p : Chair) (gameStatus : UInt8) : Option Scene :=
  if gameStatus = gsMjFree then
    some (.free
      { curBiXiaHu := s.lastRoundBiXiaHu
        baseScore := s.cellScore
        cellScore := s.optionCellScore
        maxCellScore := s.maxEnterScore
        sbsStatus := 0 })
  else if gameStatus = gsMjDice then
    some (.dice
      { baseScore := s.cellScore
        curBiXiaHu := s.lastRoundBiXiaHu
        bankerUser := s.bankerUser
        eastUser := s.eastUser })
  else if gameStatus = gsMjPlay then some (.play (s.statusPlay p) (s.sceneNotify p))
  else none

/-! ## Drawing -/

/-- `swapCard` of a place of the wall and the last one. -/
def swapCard (i : ℕ) : Sink :=
  let last := (s.leftCardCount - 1).toNat
  let wall := Function.update s.repertoryCard i (s.repertoryCard last)
  { s with repertoryCard := Function.update wall last (s.repertoryCard i) }

/-- The last place of the wall, from the end, that holds a tile. -/
def findCard (card : UInt8) : Option ℕ :=
  (List.range s.leftCardCount.toNat).reverse.find? fun i => s.repertoryCard i = card

/-- `m_cbRepertoryCard[--m_cbLeftCardCount]`. -/
def takeLast : UInt8 × Sink :=
  (s.repertoryCard (s.leftCardCount - 1).toNat, { s with leftCardCount := s.leftCardCount - 1 })

/-- `getSendCardData`: the tile the player asked for, when it is left. -/
def getSendCardData (q : Chair) : UInt8 × Sink :=
  if s.masterCheckCard q = 0 then s.takeLast
  else
    let s' := match s.findCard (s.masterCheckCard q) with
      | some i => s.swapCard i
      | none => s
    takeLast { s' with masterCheckCard := Function.update s'.masterCheckCard q 0 }

def getBuHuaCardData (q : Chair) : UInt8 × Sink :=
  if s.cheatChairID = some q ∧ 0 < s.leftCheatCardCount then
    match s.findCard (s.cheatCard (s.leftCheatCardCount - 1).toNat) with
    | some i => takeLast { s.swapCard i with leftCheatCardCount := s.leftCheatCardCount - 1 }
    | none => s.takeLast
  else s.takeLast

/-- A tile put into a hand. -/
def addCard (q : Chair) (card : UInt8) : Sink :=
  { s with cardIndex := Function.update s.cardIndex q ((s.cardIndex q).add card) }

/-! ## Flowers -/

/-- A flower laid down and the tile for it. -/
def replaceHua (q : Chair) (hua card : UInt8) : Sink :=
  { s.addCard q card with
    sendCardCount := s.sendCardCount + 1
    huaPaiData := Function.update s.huaPaiData q
      ((s.huaPaiData q).set (s.huaPaiCount q).toNat hua)
    huaPaiCount := Function.update s.huaPaiCount q (s.huaPaiCount q + 1) }

/-- The tile for a flower of the first round. Only the current player's is
kept in `m_cbSendCardData`. -/
def firstBuHuaCard (q : Chair) : UInt8 × Sink :=
  let drawn := s.getBuHuaCardData q
  (drawn.1, if s.currentUser = some q then { drawn.2 with sendCardData := drawn.1 } else drawn.2)

/-- The tile for a flower drawn later. -/
def laterBuHuaCard : UInt8 × Sink :=
  (s.takeLast.1, { s.takeLast.2 with sendCardData := s.takeLast.1 })

/-- The tiles for the flowers, one after the other. -/
def replaceHuas (card : Sink → UInt8 × Sink) (q : Chair) :
    List UInt8 → Sink → List UInt8 × Sink
  | [], s => ([], s)
  | hua :: huas, s =>
      let drawn := card s
      let rest := replaceHuas card q huas (drawn.2.replaceHua q hua drawn.1)
      (drawn.1 :: rest.1, rest.2)

/-- What `EstimatUserBuHua` comes to. -/
inductive BuHua
  /-- Too few tiles are left, and the game ends. -/
  | concluded
  /-- The flowers could not be taken out of the hand. -/
  | failed
  | sent (s : Sink) (message : Chair → SendBuHua)
  /-- No flower: the player's own turn goes on. -/
  | respond (s : Sink)
  /-- No flower in the first round. -/
  | firstOver (s : Sink)

def buHuaMessage (q : Chair) (first : Bool) (huas cards : List UInt8) (p : Chair) : SendBuHua where
  buHuaUser := q
  firstBuHua := first
  buHuaCount := huas.length
  buHuaData := cardArray huas
  replaceCardData := cardArray (if p = q then cards else [])

/-- The flowers taken out of the hand, the tiles for them and the messages. -/
def sendBuHua (q : Chair) (first : Bool) (card : Sink → UInt8 × Sink) : BuHua :=
  let huas := distillHardHuaCard (s.cardIndex q)
  match removeCard huas (s.cardIndex q) with
  | none => .failed
  | some hand =>
      let w := replaceHuas card q huas
        { s with cardIndex := Function.update s.cardIndex q hand }
      .sent w.2 (buHuaMessage q first huas w.1)

def estimatUserBuHua (q : Chair) : BuHua :=
  let s := { s with buHuaUser := none, buHuaOver := fun _ => false }
  let count := (distillHardHuaCard (s.cardIndex q)).length
  if s.isFirstBuHuaOver then
    if 0 < count then
      if s.leftCardCount.toNat < count then .concluded
      else s.sendBuHua q false laterBuHuaCard
    else .respond s
  else if 0 < count ∧ s.firstBuHuaOver q = false then
    s.sendBuHua q true fun s => s.firstBuHuaCard q
  else .firstOver { s with firstBuHuaOver := Function.update s.firstBuHuaOver q true }

/-- The message of a replacement to a player. -/
def BuHua.sentTo (p : Chair) : BuHua → Option SendBuHua
  | .sent _ message => some (message p)
  | _ => none

/-! ## Offers -/

/-- `cbActionCard` of `SendOperateNotify`. -/
def actionCard (centerCard : UInt8) : EstimatKind → UInt8
  | .sendCard | .outCard | .gangCard => centerCard
  | .chiPengCard | .buGangCard | .firstSend => 0

/-- The message about the offers of a player. -/
def operateNotify (centerCard : UInt8) (kind : EstimatKind) (q : Chair) : OperateNotify where
  operateUser := q
  currentUser := s.currentUser
  actionMask := s.userAction q
  actionCard := actionCard centerCard kind
  gangPaiResult := s.gangPaiResult q
  tingPaiResult := s.tingStream q (s.userAction q)

/-- `SendOperateNotify`: the messages, each to all chairs. -/
def sendOperateNotify (centerCard : UInt8) (kind : EstimatKind) : List OperateNotify :=
  ((List.finRange gamePlayer).filter fun q => s.userAction q ≠ wikNull).map
    (s.operateNotify centerCard kind)

/-- The offers of a player whose own turn it is: on the tile he has drawn,
or after a meld. -/
def turnNotify (afterDraw : Bool) : List OperateNotify :=
  if afterDraw then s.sendOperateNotify s.provideCard .sendCard
  else s.sendOperateNotify 0 .chiPengCard

end Sink

/-- `SendCardData`, up to the messages: the table and what each player is
sent, and nothing where the wall is used up and the game ends. -/
def sendCardData (s : Sink) (q : Chair) (direction : UInt8) :
    Option (Sink × (Chair → SendCard)) :=
  if s.leftCardCount ≤ 0 then none
  else
    let drawn := Sink.getSendCardData
      { s with
        outCardData := 0
        outCardUser := none
        sendCardStatus := true
        sendCardCount := s.sendCardCount + 1 } q
    some ({ drawn.2.addCard q drawn.1 with
        sendCardData := drawn.1
        currentUser := some q
        provideUser := some q
        provideCard := drawn.1
        sendCardUser := some q
        sendCardOver := fun _ => false },
      fun p => ⟨q, if p = q then drawn.1 else 0, direction⟩)

def cardDataArray : List UInt8 :=
  let suit (first : UInt8) : List UInt8 := (List.range 9).map fun i => first + UInt8.ofNat i
  let four (tiles : List UInt8) : List UInt8 := tiles ++ tiles ++ tiles ++ tiles
  four (suit 0x01) ++ four (suit 0x11) ++ four (suit 0x21) ++
    four [0x31, 0x32, 0x33, 0x34, 0x35, 0x36, 0x37] ++
    [0x41, 0x42, 0x43, 0x44, 0x45, 0x46, 0x47, 0x48]

/-- `SwitchToCardIndex` of the tiles of a hand. -/
def handOf (cards : List UInt8) : Hand := fun i => cards.countP fun c => switchToCardIndex c = i

/-- The table when `OnSubShootDice` has dealt, from the end of the wall
that `RandCardData` made, in the first round of a table. -/
def dealt (cellScore : ℤ) (siceCount : UInt16) (bankerUser : Chair) (wall : List UInt8) : Sink where
  cellScore := cellScore
  optionCellScore := cellScore
  maxEnterScore := 0
  lastRoundBiXiaHu := false
  siceCount := siceCount
  bankerUser := some bankerUser
  eastUser := some bankerUser
  currentUser := some bankerUser
  provideUser := none
  userTrust _ := false
  userTing _ := false
  outCardUser := none
  outCardData := 0
  discardCount _ := 0
  discardCard _ := List.replicate 72 0
  sendCardStatus := false
  sendCardUser := none
  sendCardCount := 0
  sendCardOver _ := false
  leftCardCount := 92
  buHuaUser := none
  buHuaOver _ := false
  firstBuHuaOver _ := false
  huaPaiCount _ := 0
  huaPaiData _ := List.replicate 20 0
  weaveItemCount _ := 0
  weaveItemArray _ := []
  outCardScore _ := (0, 0)
  gangScore _ := 0
  cardIndex q := handOf ((wall.drop (144 - (maxCount - 1) * (q.val + 1))).take (maxCount - 1))
  repertoryCard i := wall.getD i 0
  masterCheckCard _ := 0
  cheatChairID := none
  leftCheatCardCount := 0
  cheatCard _ := 0
  sendCardData := 0
  provideCard := 0
  response _ := false
  userAction _ := wikNull
  gangPaiResult _ := []
  tingPaiResult _ := []

end GameServer.NanjingMahjong
