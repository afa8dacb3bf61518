import GameServer.Common.Positive
import GameServer.Common.Sort
/-!
# Ox — hands

`CGameLogic`: the type of a hand of five cards, what it multiplies the
stake by, the cards of its ox and the comparison of two hands. A card is a
byte with its colour in the high half.
-/

namespace GameServer.Ox

abbrev maxCount : ℕ := 5

def oxValue0 : ℕ := 0

def oxThreeSame : ℕ := 102

def oxFourSame : ℕ := 103

def oxFourKing : ℕ := 104

def oxFiveKing : ℕ := 105

/-- `m_cbCardListData`: each colour from ace to king. -/
def cardListData : List UInt8 :=
  [0x01, 0x02, 0x03, 0x04, 0x05, 0x06, 0x07, 0x08, 0x09, 0x0A, 0x0B, 0x0C, 0x0D,
    0x11, 0x12, 0x13, 0x14, 0x15, 0x16, 0x17, 0x18, 0x19, 0x1A, 0x1B, 0x1C, 0x1D,
    0x21, 0x22, 0x23, 0x24, 0x25, 0x26, 0x27, 0x28, 0x29, 0x2A, 0x2B, 0x2C, 0x2D,
    0x31, 0x32, 0x33, 0x34, 0x35, 0x36, 0x37, 0x38, 0x39, 0x3A, 0x3B, 0x3C, 0x3D]

def getCardValue (card : UInt8) : ℕ := card.toNat % 16

def getCardColor (card : UInt8) : ℕ := card.toNat / 16 * 16

def getCardLogicValue (card : UInt8) : ℕ :=
  if getCardValue card > 10 then 10 else getCardValue card

/-- The two loops over `i` and `j` above it. -/
def loopPairs (count : ℕ) : List (ℕ × ℕ) :=
  (List.range (count - 1)).flatMap fun i =>
    (List.range' (i + 1) (count - (i + 1))).map fun j => (i, j)

/-- The first two places whose cards the others make a multiple of ten
without. -/
def findOx (cards : List UInt8) : Option (ℕ × ℕ) :=
  let temp := cards.map getCardLogicValue
  (loopPairs cards.length).find? fun p =>
    (temp.sum - temp.getD p.1 0 - temp.getD p.2 0) % 10 = 0

def getCardType (cards : List UInt8) : ℕ :=
  let kingCount := cards.countP fun card => getCardValue card > 10
  let tenCount := cards.countP fun card => getCardValue card = 10
  if kingCount = maxCount then oxFiveKing
  else if kingCount = maxCount - 1 ∧ tenCount = 1 then oxFourKing
  else
    let temp := cards.map getCardLogicValue
    match findOx cards with
    | some (i, j) =>
        if temp.getD i 0 + temp.getD j 0 > 10 then temp.getD i 0 + temp.getD j 0 - 10
        else temp.getD i 0 + temp.getD j 0
    | none => oxValue0

def getTimes (cards : List UInt8) : ℕ :=
  if cards.length ≠ maxCount then 0
  else
    let times := getCardType cards
    if times < 7 then 1
    else if times = 7 then 2
    else if times = 8 then 3
    else if times = 9 then 4
    else if times = 10 then 5
    else if times = oxThreeSame then 5
    else if times = oxFourSame then 5
    else if times = oxFourKing then 5
    else if times = oxFiveKing then 5
    else 0

/-- `GetOxCard`: whether there is an ox, and the cards with its three
first. -/
def getOxCard (cards : List UInt8) : Bool × List UInt8 :=
  match findOx cards with
  | some (i, j) =>
      (true, ((List.range cards.length).filter fun k => k ≠ i ∧ k ≠ j).map (cards.getD · 0) ++
        [cards.getD i 0, cards.getD j 0])
  | none => (false, cards)

def sortCardList (cards : List UInt8) : List UInt8 :=
  bubbleSort (fun a b => getCardValue a < getCardValue b ∨
    (getCardValue a = getCardValue b ∧ a < b)) (cards.length - 1) cards

/-- The end of `CompareCard`: the greatest card by value, then by
colour. -/
def compareMax (first next : List UInt8) : Bool :=
  let first := (sortCardList first).getD 0 0
  let next := (sortCardList next).getD 0 0
  if getCardValue next ≠ getCardValue first then getCardValue first > getCardValue next
  else getCardColor first > getCardColor next

/-- `CompareCard`: whether the first hand wins. -/
def compareCard (first next : List UInt8) (firstOX nextOX : Bool) : Bool :=
  if firstOX ≠ nextOX then firstOX
  else if firstOX = true then
    let nextType := getCardType next
    let firstType := getCardType first
    if firstType ≠ nextType then firstType > nextType
    else if nextType = oxFourSame ∨ nextType = oxThreeSame then
      getCardValue ((sortCardList first).getD (maxCount / 2) 0) >
        getCardValue ((sortCardList next).getD (maxCount / 2) 0)
    else compareMax first next
  else compareMax first next

end GameServer.Ox
