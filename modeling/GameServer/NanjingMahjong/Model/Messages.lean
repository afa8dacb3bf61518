import GameServer.Common.Cards
import GameServer.Common.Positive
/-!
# Nanjing mahjong — the tiles and the messages

The tiles of `CGameLogic` as the table uses them, the records of the
table, and the messages it sends of them. A hand is `m_cbCardIndex` of one
player, the number of tiles of each index.
-/

namespace GameServer.NanjingMahjong

abbrev gamePlayer : ℕ := 4

abbrev maxIndex : ℕ := 42

abbrev maxNormal : ℕ := 31

abbrev maxCount : ℕ := 14

/-- A chair of the table. A number that may be `INVALID_CHAIR` is an
`Option`. -/
abbrev Chair := Fin gamePlayer

/-! ## Tiles -/

def getCardValue (card : UInt8) : ℕ := (card &&& 0x0F).toNat

def getCardColor (card : UInt8) : ℕ := (card >>> 4).toNat

/-- `SwitchToCardIndex`, a byte that wraps below zero. -/
def switchToCardIndex (card : UInt8) : ℕ :=
  if getCardColor card < 4 then (getCardColor card * 9 + getCardValue card + 255) % 256
  else (maxNormal + 3 + getCardValue card + 255) % 256

/-- `SwitchToCardData` of an index below `MAX_INDEX`. -/
def switchToCardData (cardIndex : ℕ) : UInt8 :=
  if cardIndex < maxNormal + 3 then
    UInt8.ofNat (cardIndex / 9) <<< 4 ||| UInt8.ofNat (cardIndex % 9 + 1)
  else 0x40 ||| UInt8.ofNat (cardIndex - maxNormal - 3 + 1)

/-- `m_cbCardIndex` of one player. -/
abbrev Hand := ℕ → ℕ

/-- The tiles of the indices from `first` to `MAX_INDEX`, where `count` says
how many of an index are read. -/
def tilesFrom (first : ℕ) (count : ℕ → ℕ) (hand : Hand) : List UInt8 :=
  (List.range' first (maxIndex - first)).flatMap fun i =>
    List.replicate (count (hand i)) (switchToCardData i)

/-- `SwitchToCardData` of a hand, which passes over an index with more than
four tiles. -/
def Hand.toCardData (hand : Hand) : List UInt8 :=
  tilesFrom 0 (fun n => if n ≤ 4 then n else 0) hand

def distillHardHuaCard (hand : Hand) : List UInt8 := tilesFrom maxNormal id hand

def getCardCount (hand : Hand) : ℕ :=
  ((List.range maxIndex).map fun i => if hand i ≤ 5 then hand i else 0).sum

def Hand.add (hand : Hand) (card : UInt8) : Hand :=
  Function.update hand (switchToCardIndex card) (hand (switchToCardIndex card) + 1)

/-- `RemoveCard`. What it took is put back when a tile is missing. -/
def removeCard : List UInt8 → Hand → Option Hand
  | [], hand => some hand
  | card :: cards, hand =>
      if hand (switchToCardIndex card) = 0 then none
      else removeCard cards
        (Function.update hand (switchToCardIndex card) (hand (switchToCardIndex card) - 1))

/-- A byte array of `MAX_COUNT` entries, cleared and then filled. -/
def cardArray (cards : List UInt8) : List UInt8 :=
  cards ++ List.replicate (maxCount - cards.length) 0

/-! ## Records -/

def wikNull : UInt32 := 0x0

def wikTing : UInt32 := 0x80

structure WeaveItem where
  weaveKind : UInt32
  centerCard : UInt8
  publicCard : UInt8
  provideUser : Option Chair
  deriving DecidableEq

/-- An entry of `tagGangPaiResult`. -/
structure GangPai where
  cardData : UInt8
  gangType : UInt32
  deriving DecidableEq

/-- A tile waited for, in `tagTingPaiItem`. -/
structure TingCard where
  tingCardData : UInt8
  leftCardCount : UInt8
  huCardFanShu : UInt32
  deriving DecidableEq

/-- `tagTingPaiItem`: a tile to throw and the tiles then waited for. -/
structure TingPaiItem where
  outCardData : UInt8
  tingCards : List TingCard
  deriving DecidableEq

inductive EstimatKind
  | sendCard
  | outCard
  | chiPengCard
  | gangCard
  | buGangCard
  | firstSend
  deriving DecidableEq

/-! ## Messages -/

structure StatusFree where
  curBiXiaHu : Bool
  baseScore : ℤ
  cellScore : ℤ
  maxCellScore : ℤ
  sbsStatus : UInt8

structure StatusDice where
  baseScore : ℤ
  curBiXiaHu : Bool
  bankerUser : Option Chair
  eastUser : Option Chair

structure StatusPlay where
  baseScore : ℤ
  curBiXiaHu : Bool
  siceCount : UInt16
  bankerUser : Option Chair
  currentUser : Option Chair
  eastUser : Option Chair
  leftCardCount : UInt8
  userTrust : Chair → Bool
  userTing : Chair → Bool
  tiaoZhanScore : ℤ
  outCardUser : Option Chair
  outCardData : UInt8
  discardCount : Chair → UInt8
  discardCard : Chair → List UInt8
  cardCount : Chair → ℕ
  cardData : List UInt8
  sendCardData : UInt8
  huaPaiCount : Chair → UInt8
  huaPaiData : Chair → List UInt8
  weaveCount : Chair → UInt8
  weaveItemArray : Chair → List WeaveItem
  outCardScore : Chair → ℤ × ℤ
  gangScore : Chair → ℤ

/-- `CMD_S_OperateNotify_Send`, with the ready list that follows it in the
stream where the mask has `WIK_TING`. -/
structure OperateNotify where
  operateUser : Chair
  currentUser : Option Chair
  actionMask : UInt32
  actionCard : UInt8
  gangPaiResult : List GangPai
  tingPaiResult : Option (List TingPaiItem)

structure SendCard where
  sendCardUser : Chair
  cardData : UInt8
  direction : UInt8
  deriving DecidableEq

structure SendBuHua where
  buHuaUser : Chair
  firstBuHua : Bool
  buHuaCount : ℕ
  buHuaData : List UInt8
  replaceCardData : List UInt8
  deriving DecidableEq

/-- What `OnEventSendGameScene` sends. -/
inductive Scene
  | free (message : StatusFree)
  | dice (message : StatusDice)
  | play (message : StatusPlay) (notify : OperateNotify)

end GameServer.NanjingMahjong
