import GameServer.Common.Memory
import GameServer.Common.Positive
import GameServer.Common.Sort
import Mathlib.Data.List.SplitBy
/-!
# Texas hold'em — the hands

`CGameLogic`: five cards have a type and are compared by it and then by
their values, two seats with equal fives share a place, and
`SelectMaxUser` takes the best of the seats that are left. A card is a
byte with its colour above its value; an array of cards and its count
are one list. `LONG` amounts are 32-bit and wrap.
-/

namespace GameServer.TexasHoldem

/-- `GAME_PLAYER`, and `m_wPlayerCount` of the table. -/
abbrev gamePlayer : ℕ := 9

def maxCount : ℕ := 2

def maxCenterCount : ℕ := 5

abbrev Chair := Fin gamePlayer

instance : LawfulBEq Chair := inferInstance

def chairs : List Chair := List.finRange gamePlayer

def cardData : List UInt8 :=
  [0x01, 0x02, 0x03, 0x04, 0x05, 0x06, 0x07, 0x08, 0x09, 0x0A, 0x0B, 0x0C, 0x0D,
    0x11, 0x12, 0x13, 0x14, 0x15, 0x16, 0x17, 0x18, 0x19, 0x1A, 0x1B, 0x1C, 0x1D,
    0x21, 0x22, 0x23, 0x24, 0x25, 0x26, 0x27, 0x28, 0x29, 0x2A, 0x2B, 0x2C, 0x2D,
    0x31, 0x32, 0x33, 0x34, 0x35, 0x36, 0x37, 0x38, 0x39, 0x3A, 0x3B, 0x3C, 0x3D]

def getCardValue (card : UInt8) : ℕ := (card &&& 0x0F).toNat

def getCardColor (card : UInt8) : UInt8 := card &&& 0xF0

/-- `GetCardLogicValue`: an ace is above a king. -/
def getCardLogicValue (card : UInt8) : ℕ :=
  if 1 = getCardValue card then getCardValue card + 13 else getCardValue card

/-- `CT_SINGLE` to `CT_KING_TONG_HUA_SHUN`. -/
inductive CardType where
  | single
  | oneLong
  | twoLong
  | threeTiao
  | shunZi
  | tongHua
  | huLu
  | tieZhi
  | tongHuaShun
  | kingTongHuaShun
  deriving DecidableEq, Repr

def CardType.toByte : CardType → ℕ
  | .single => 1
  | .oneLong => 2
  | .twoLong => 3
  | .threeTiao => 4
  | .shunZi => 5
  | .tongHua => 6
  | .huLu => 7
  | .tieZhi => 8
  | .tongHuaShun => 9
  | .kingTongHuaShun => 10

/-- `tagAnalyseResult`: the values that occur four times, three times,
twice and once; the counts are the lengths. -/
structure AnalyseResult where
  fourLogicValue : List ℕ
  threeLogicValue : List ℕ
  longLogicValue : List ℕ
  signedLogicValue : List ℕ
  deriving DecidableEq, Repr

def sameRuns (cardData : List UInt8) : List (List ℕ) :=
  (cardData.map getCardLogicValue).splitBy (· == ·)

/-- The values of the runs of `count` cards. -/
def runValues (count : ℕ) (runs : List (List ℕ)) : List ℕ :=
  (runs.filter (·.length == count)).map (·.headD 0)

def analysebCardData (cardData : List UInt8) : AnalyseResult where
  fourLogicValue := runValues 4 (sameRuns cardData)
  threeLogicValue := runValues 3 (sameRuns cardData)
  longLogicValue := runValues 2 (sameRuns cardData)
  signedLogicValue := runValues 1 (sameRuns cardData)

/-- Every card after the first is lower than the first by its place and
`gap`. -/
def lineCards (gap : ℕ) (cardData : List UInt8) : Bool :=
  ((cardData.drop 1).zipIdx 1).all fun p =>
    getCardLogicValue (cardData.headD 0) == getCardLogicValue p.1 + p.2 + gap

/-- `GetCardType`. The second run of places is the ace below a two. -/
def getCardType (cardData : List UInt8) : CardType :=
  let sameColor := (cardData.drop 1).all fun c => getCardColor c == getCardColor (cardData.headD 0)
  let lineCard := lineCards 0 cardData ||
    (getCardLogicValue (cardData.headD 0) == 14 && lineCards 8 cardData)
  if sameColor && lineCard && getCardLogicValue (cardData.getD 1 0) == 13 then .kingTongHuaShun
  else if !sameColor && lineCard then .shunZi
  else if sameColor && !lineCard then .tongHua
  else if sameColor && lineCard then .tongHuaShun
  else
    let result := analysebCardData cardData
    if result.fourLogicValue.length = 1 then .tieZhi
    else if result.longLogicValue.length = 2 then .twoLong
    else if result.longLogicValue.length = 1 ∧ result.threeLogicValue.length = 1 then .huLu
    else if result.threeLogicValue.length = 1 ∧ result.longLogicValue.length = 0 then .threeTiao
    else if result.longLogicValue.length = 1 ∧ result.signedLogicValue.length = 3 then .oneLong
    else .single

/-- The loops of `CompareCard` over two arrays of values: 2 if the first
has the greater value where they first differ, 1 if the second has, 0 if
they agree for the length of the first. -/
def compareValues : List ℕ → List ℕ → ℕ
  | [], _ => 0
  | first :: firsts, nexts =>
      if first > nexts.headD 0 then 2
      else if first < nexts.headD 0 then 1
      else compareValues firsts nexts.tail

/-- `CompareCard`: 2 if the first cards are better, 1 if the second are,
0 if neither is. -/
def compareCard (firstData nextData : List UInt8) : ℕ :=
  let nextType := getCardType nextData
  let firstType := getCardType firstData
  if firstType.toByte > nextType.toByte then 2
  else if firstType.toByte < nextType.toByte then 1
  else
    let first := analysebCardData firstData
    let next := analysebCardData nextData
    match firstType with
    | .single | .tongHua =>
        compareValues (firstData.map getCardLogicValue) (nextData.map getCardLogicValue)
    | .oneLong | .twoLong | .threeTiao | .tieZhi | .huLu =>
        if first.fourLogicValue.length > 0 then
          compareValues [first.fourLogicValue.headD 0, first.signedLogicValue.headD 0]
            [next.fourLogicValue.headD 0, next.signedLogicValue.headD 0]
        else if first.threeLogicValue.length > 0 then
          if first.threeLogicValue.headD 0 ≠ next.threeLogicValue.headD 0 then
            compareValues [first.threeLogicValue.headD 0] [next.threeLogicValue.headD 0]
          else if firstType = .huLu then
            compareValues [first.longLogicValue.headD 0] [next.longLogicValue.headD 0]
          else compareValues first.signedLogicValue next.signedLogicValue
        else if compareValues first.longLogicValue next.longLogicValue ≠ 0 then
          compareValues first.longLogicValue next.longLogicValue
        else compareValues first.signedLogicValue next.signedLogicValue
    | .shunZi | .tongHuaShun =>
        let nextValue := getCardLogicValue (nextData.headD 0)
        let firstValue := getCardLogicValue (firstData.headD 0)
        let firstMin := firstValue == getCardLogicValue (firstData.getD 1 0) + 9
        let nextMin := nextValue == getCardLogicValue (nextData.getD 1 0) + 9
        if firstMin && !nextMin then 1
        else if !firstMin && nextMin then 2
        else if firstValue = nextValue then 0
        else if firstValue > nextValue then 2
        else 1
    | .kingTongHuaShun => 0

/-- `SelectTwoCard`: the two cards in hand by their greater value, then by
the smaller one. -/
def selectTwoCard (value₁ value₂ : UInt8 × UInt8) : ℕ :=
  let max₁ := [max (getCardLogicValue value₁.1) (getCardLogicValue value₁.2),
    min (getCardLogicValue value₁.1) (getCardLogicValue value₁.2)]
  let max₂ := [max (getCardLogicValue value₂.1) (getCardLogicValue value₂.2),
    min (getCardLogicValue value₂.1) (getCardLogicValue value₂.2)]
  compareValues max₁ max₂

/-- `SortCardList`: the greater value first, and of one value the greater
colour. -/
def sortCardList (cardData : List UInt8) : List UInt8 :=
  bubbleSort (fun a b => getCardLogicValue a < getCardLogicValue b ∨
    (getCardLogicValue a = getCardLogicValue b ∧ a < b)) (cardData.length - 1) cardData

/-- The places `i < j < k < m < n` of the nested loops of
`FiveFromSeven`. -/
def fiveOfSeven : List (List ℕ) :=
  (List.range 3).flatMap fun i => ((List.range 4).drop (i + 1)).flatMap fun j =>
    ((List.range 5).drop (j + 1)).flatMap fun k => ((List.range 6).drop (k + 1)).flatMap fun m =>
      ((List.range 7).drop (m + 1)).map fun n => [i, j, k, m, n]

/-- `FiveFromSeven`: the best five of the two cards in hand and the five
in the centre, as `cbLastCardData`. -/
def fiveFromSeven (handCardData : UInt8 × UInt8) (centerCardData : List UInt8) : List UInt8 :=
  let tempCardData := sortCardList ([handCardData.1, handCardData.2] ++ centerCardData)
  fiveOfSeven.foldl (fun lastCardData places =>
    let tempLastCardData := places.map (tempCardData.getD · 0)
    if compareCard tempLastCardData lastCardData = 2 then tempLastCardData else lastCardData)
    (tempCardData.take maxCenterCount)

/-- The better of two chairs in `SelectMaxUser`; of equal fives the better
two in hand are taken. -/
def betterUser (cardData : Chair → List UInt8) (handData : Chair → UInt8 × UInt8)
    (winner j : Chair) : Chair :=
  if (cardData j).headD 0 = 0 then winner
  else if compareCard (cardData j) (cardData winner) > 1 then j
  else if compareCard (cardData j) (cardData winner) ≤ 0 then
    if selectTwoCard (handData j) (handData winner) > 1 then j else winner
  else winner

/-- The best of `SelectMaxUser`, looking at the chairs behind `first` in
turn. -/
def selectWinner (cardData : Chair → List UInt8) (handData : Chair → UInt8 × UInt8)
    (first : Chair) : Chair :=
  (((List.range gamePlayer).drop 1).map fun i => Fin.ofNat gamePlayer (i + first)).foldl
    (betterUser cardData handData) first

/-- `SelectMaxUser`: the chairs with the best five of those that have
cards, the smallest bet first; `none` if no chair has cards. -/
def selectMaxUser (cardData : Chair → List UInt8) (handData : Chair → UInt8 × UInt8)
    (addScore : Chair → ℤ) : Option (List Chair) :=
  (chairs.find? fun i => (cardData i).headD 0 ≠ 0).map fun first =>
    let winner := selectWinner cardData handData first
    let same := chairs.filter fun i => i ≠ winner ∧ (cardData i).headD 0 ≠ 0 ∧
      compareCard (cardData i) (cardData winner) = 0
    exchangeSort (fun i j => addScore j < addScore i) (winner :: same)

/-- `SortValueList`: from small to large. -/
def sortValueList (value : List (ℤ × Chair)) : List (ℤ × Chair) :=
  bubbleSort (fun a b => a.1 ≥ b.1) (value.length - 1) value

end GameServer.TexasHoldem
