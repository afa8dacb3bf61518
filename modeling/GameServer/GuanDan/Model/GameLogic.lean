import GameServer.Common.Cards
import GameServer.Common.Positive
import GameServer.Common.Sort
import Mathlib.Data.FinEnum
/-!
# Guandan — the cards

`CGameLogic` on the byte a card is stored in, for any byte: the wild cards
of a play, its type, the comparison of two plays, and taking cards from a
hand and adding to it. The main value is `m_cbMainValue`. A write outside
an array is a fault.
-/

namespace GameServer.GuanDan

abbrev gamePlayer : ℕ := 4

abbrev maxCount : ℕ := 28

abbrev fullCount : ℕ := 108

/-- One of the two decks of `m_cbCardData`. -/
def oneDeck : List UInt8 :=
  [0x01, 0x02, 0x03, 0x04, 0x05, 0x06, 0x07, 0x08, 0x09, 0x0A, 0x0B, 0x0C, 0x0D,
    0x11, 0x12, 0x13, 0x14, 0x15, 0x16, 0x17, 0x18, 0x19, 0x1A, 0x1B, 0x1C, 0x1D,
    0x21, 0x22, 0x23, 0x24, 0x25, 0x26, 0x27, 0x28, 0x29, 0x2A, 0x2B, 0x2C, 0x2D,
    0x31, 0x32, 0x33, 0x34, 0x35, 0x36, 0x37, 0x38, 0x39, 0x3A, 0x3B, 0x3C, 0x3D,
    0x4E, 0x4F]

def cardData : List UInt8 := oneDeck ++ oneDeck

/-- The types `CT_ERROR` to `CT_BOMB_TW`. -/
inductive CardType where
  | error
  | single
  | double
  | three
  | singleLink
  | doubleLink
  | threeLink
  | threeDouble
  | tongHuaShun
  | bomb
  | bombTW
  deriving DecidableEq, Repr

/-- A type from `CT_TONG_HUA_SHUN` on. -/
def CardType.isBomb : CardType → Bool
  | .tongHuaShun | .bomb | .bombTW => true
  | _ => false

def getCardValue (card : UInt8) : ℕ := (card &&& 0x0F).toNat

def getCardColor (card : UInt8) : UInt8 := card &&& 0xF0

/-- `MakeCardData`, with the value and not the index before it. -/
def makeCardData (value : ℕ) (colorIndex : UInt8) : UInt8 :=
  (colorIndex <<< 4) ||| UInt8.ofNat value

def getCardLogicValue (mainValue : ℕ) (card : UInt8) : ℕ :=
  if getCardValue card = mainValue then 15
  else match getCardValue card with
    | 0x01 => 14
    | 0x0E => 16
    | 0x0F => 17
    | value => value

/-- The exchanges of `SortCardList`: the greater key first, and of one key
the greater byte. -/
def sortBy (key : UInt8 → ℕ) (cards : List UInt8) : List UInt8 :=
  bubbleSort (fun a b => key a < key b ∨ (key a = key b ∧ a < b)) (cards.length - 1) cards

def sortCardList (mainValue : ℕ) (cards : List UInt8) : List UInt8 :=
  sortBy (getCardLogicValue mainValue) cards

/-- `tagAnalyseResult`: the blocks of `k + 1` cards of one value in row
`k`, whose number is `cbBlockCount[k]`. -/
abbrev AnalyseResult := Fin 10 → List (List UInt8)

/-- The loop of `AnalysebCardData` over the runs of one value. -/
def analyseRuns : List (List UInt8) → AnalyseResult → Option AnalyseResult
  | [], result => some result
  | run :: runs, result =>
      -- there are rows for up to ten cards
      if 10 < run.length then none
      else
        let k := Fin.ofNat 10 (run.length - 1)
        if maxCount < (result k).length * run.length + run.length then none
        else analyseRuns runs (Function.update result k (result k ++ [run]))

def analysebCardData (cards : List UInt8) : Option AnalyseResult :=
  analyseRuns (cards.splitBy fun a b => getCardValue b = getCardValue a) fun _ => []

/-- `SortCardList` by `ST_COUNT`: the largest blocks first. -/
def sortByCount (mainValue : ℕ) (cards : List UInt8) : Option (List UInt8) :=
  (analysebCardData (sortCardList mainValue cards)).map fun result =>
    (List.finRange 10).reverse.flatMap fun k => (result k).flatten

/-! ## The wild cards -/

/-- The loop of `MagicCardData` that counts cards of one value: only the
last run counts, or the one before a last card that stands alone. -/
def maxSameCount (mainValue : ℕ) : ℕ → ℕ → List UInt8 → ℕ
  | _, _, [] => 1
  | same, logic, [c] =>
      if getCardLogicValue mainValue c = logic then max (same + 1) 1 else max same 1
  | same, logic, c :: cards =>
      if getCardLogicValue mainValue c = logic then maxSameCount mainValue (same + 1) logic cards
      else maxSameCount mainValue 1 (getCardLogicValue mainValue c) cards

/-- What the wild cards of a three with a pair become: one value for all of
them, or the values of the first and the last card. -/
def threeDoubleValues (mainValue : ℕ) (head tail : UInt8) (headCount tailCount magicCount : ℕ) :
    List ℕ :=
  let headValue := getCardValue head
  let tailValue := getCardValue tail
  let headLogic := getCardLogicValue mainValue head
  let tailLogic := getCardLogicValue mainValue tail
  if magicCount = 1 then
    if headCount = 2 ∧ tailCount = 2 then
      if 0x0E ≤ headValue then [tailValue]
      else if 0x0E ≤ tailValue then [headValue]
      else if tailLogic < headLogic then [headValue] else [tailValue]
    else if headCount = 1 ∧ tailCount = 3 then [headValue]
    else if headCount = 3 ∧ tailCount = 1 then [tailValue]
    else [0]
  else if magicCount = 2 then
    if headCount = 1 ∧ tailCount = 2 then
      if 0x0E ≤ tailValue then [headValue, headValue]
      else if tailLogic < headLogic then [headValue, headValue] else [headValue, tailValue]
    else if headCount = 2 ∧ tailCount = 1 then
      if 0x0E ≤ headValue then [tailValue, tailValue]
      else if tailLogic < headLogic then [headValue, tailValue] else [tailValue, tailValue]
    else [0, 0]
  else List.replicate magicCount 0

/-- The three with a pair of `MagicCardData`, when every card has the value
of the first or of the last. -/
def threeDouble (mainValue : ℕ) (normal : List UInt8) (magicCount : ℕ) :
    Option (Option (List UInt8)) :=
  let head := normal.headD 0
  let tail := normal.getLastD 0
  let middle := (normal.drop 1).dropLast
  if 1 < normal.length ∧ ∀ c ∈ middle, getCardValue c = getCardValue head ∨
      getCardValue c = getCardValue tail then
    let headCount := 1 + middle.countP fun c => getCardValue c = getCardValue head
    let tailCount := 1 + middle.countP fun c =>
      getCardValue c ≠ getCardValue head ∧ getCardValue c = getCardValue tail
    let values := threeDoubleValues mainValue head tail headCount tailCount magicCount
    (sortByCount mainValue (normal ++ values.map (makeCardData · 0))).map some
  else some none

/-- `cbDistributing[index]` of `AnalysebDistributing`: the colours and, in
column 5, the number of cards. -/
def distributing (normal : List UInt8) (index : ℕ) (column : ℕ) : ℕ :=
  let color := normal.countP fun c =>
    c ≠ 0 ∧ getCardValue c = index + 1 ∧ (getCardColor c >>> 4).toNat = column
  if column = 5 then
    color + normal.countP fun c => c ≠ 0 ∧ getCardValue c = index + 1
  else color

/-- The counters while a line is filled: `cbResultCard` up to `cbFillCount`,
`cbLeaveCount` and `cbUseableCount`. -/
structure Filling where
  result : List UInt8
  leave : ℕ
  useable : ℕ

/-- The loop of `MagicCardData` that fills a line at each index. -/
def fillLine (normal : List UInt8) (maxSame : ℕ) : List ℕ → Filling → Filling
  | [], f => f
  | index :: rest, f =>
      if f.leave ≠ normal.length ∨ distributing normal index 5 ≠ 0 then
        if distributing normal index 5 + f.useable < maxSame then f
        else
          let placed := (List.range 4).flatMap fun j =>
            List.replicate (distributing normal index j) (makeCardData (index + 1) (UInt8.ofNat j))
          let filled := List.replicate (maxSame - placed.length)
            (makeCardData (index + 1) (getCardColor (normal.headD 0) >>> 4))
          fillLine normal maxSame rest
            { result := f.result ++ placed ++ filled
              leave := (f.leave + 256 - placed.length % 256) % 256
              useable := (f.useable + 256 - filled.length % 256) % 256 }
      else fillLine normal maxSame rest f

/-- The lines of `MagicCardData`: from the ace up, and else from the ace
down, over what the first try left in `cbResultCard`. A card of value and
colour that no deck has is counted but not placed, so `cbUseableCount` may
wrap and the line run behind the array. -/
def fillLines (mainValue : ℕ) (normal : List UInt8) (magicCount maxSame : ℕ) :
    Option (Option (List UInt8)) :=
  let start : Filling := { result := [], leave := normal.length, useable := magicCount }
  let up := fillLine normal maxSame ((List.range 14).map (· % 13)) start
  let down := fillLine normal maxSame ((List.range 14).map fun i => (13 - i) % 13) start
  let cardCount := normal.length + magicCount
  let upCards := up.result ++ List.replicate (maxCount - up.result.length) 0
  let downCards := down.result ++ upCards.drop down.result.length
  if maxCount < up.result.length then none
  else if up.useable = 0 ∧ up.leave = 0 then
    some (some (sortCardList mainValue (upCards.take cardCount)))
  else if maxCount < down.result.length then none
  else if down.useable = 0 ∧ down.leave = 0 then
    some (some (sortCardList mainValue (downCards.take cardCount)))
  else some none

/-- `MagicCardData`: what the wild cards of a play become. -/
def magicCardData (mainValue : ℕ) (cards : List UInt8) : Option (List UInt8) :=
  let isMagic := fun c => getCardValue c = mainValue ∧ getCardColor c = 0x20
  let normal := cards.filter fun c => ¬ isMagic c
  let magicCount := cards.countP fun c => isMagic c
  if maxCount < cards.length then none
  else if magicCount = 0 ∨ normal = [] then some cards
  else
    let logic := getCardLogicValue mainValue (normal.headD 0)
    if logic ≤ 15 ∧ ∀ c ∈ normal, getCardLogicValue mainValue c = logic then
      some (List.replicate magicCount (normal.headD 0) ++ normal)
    else
      let maxSame := maxSameCount mainValue 1 logic (normal.drop 1)
      match (if cards.length = 5 ∧ maxSame ≤ 3 then threeDouble mainValue normal magicCount
        else some none) with
      | none => none
      | some (some result) => some result
      | some none =>
          if (maxSame = 1 ∧ cards.length = 5) ∨ ((maxSame = 2 ∨ maxSame = 3) ∧ cards.length = 6) then
            -- `cbDistributing` has rows for the values 1 to 15 and columns for the colours 0 to 5
            if ∃ c ∈ normal, c ≠ 0 ∧ (getCardValue c = 0 ∨ 0x60 ≤ getCardColor c) then none
            else (fillLines mainValue normal magicCount maxSame).map (·.getD cards)
          else some cards

/-! ## Types -/

/-- `GetCardColor` of several cards: their colour, or `0xF0`. -/
def colorOf (cards : List UInt8) : UInt8 :=
  if ∀ c ∈ cards, getCardColor c = getCardColor (cards.headD 0) then getCardColor (cards.headD 0)
  else 0xF0

/-- `IsStructureLink`, of blocks of `cell` cards. -/
def isStructureLink (cards : List UInt8) (cell : ℕ) : Bool :=
  let sorted := sortBy getCardValue cards
  let firstValue := getCardValue (sorted.headD 0)
  firstValue < 14 ∧ ∀ i ∈ List.range (cards.length / cell), 1 ≤ i →
    (getCardValue (sorted.getD (i * cell) 0) = 1 ∧ firstValue = 13) ∨
      firstValue = getCardValue (sorted.getD (i * cell) 0) + i

/-- `GetCardType` of four cards and more, after the analysis. -/
def analysedType (r : AnalyseResult) (sorted : List UInt8) (count : ℕ) : CardType :=
  let single := (r 0).flatten
  if count = 4 ∧ sorted.getD 0 0 = 0x4F ∧ sorted.getD 3 0 = 0x4E then .bombTW
  else if 4 ≤ count ∧ count ≤ 10 ∧ (r (Fin.ofNat 10 (count - 1))).length = 1 then .bomb
  else if count = 5 ∧ (r 0).length = count ∧ isStructureLink single 1 then
    if colorOf single = 0xF0 then .singleLink else .tongHuaShun
  else if count = 6 ∧ (r 1).length * 2 = count ∧ isStructureLink (r 1).flatten 2 then .doubleLink
  else if count = 6 ∧ (r 2).length * 3 = count ∧ isStructureLink (r 2).flatten 3 then .threeLink
  else if count = 5 ∧ (r 1).length = 1 ∧ (r 2).length = 1 then .threeDouble
  else .error

def getCardType (mainValue : ℕ) : List UInt8 → Option CardType
  | [] => some .error
  | [_] => some .single
  | [a, b] => some (if getCardValue a = getCardValue b then .double else .error)
  | [a, _, c] => some (if getCardValue a = getCardValue c then .three else .error)
  | cards =>
      if maxCount < cards.length then some .error
      else (analysebCardData cards).map
        (analysedType · (sortCardList mainValue cards) cards.length)

/-- `GetMagicCardType`: the type of what the wild cards make of a play. -/
def getMagicCardType (mainValue : ℕ) (cards : List UInt8) : Option CardType :=
  (magicCardData mainValue cards).bind (getCardType mainValue)

/-- The card of a line that `CompareCardByValue` goes by. A line with a two
counts its ace low. -/
def consultValue (cards : List UInt8) : ℕ :=
  let haveTwo := cards.any fun c => getCardValue c = 2
  (cards.map fun c => if getCardValue c = 1 ∧ haveTwo = false then 14 else getCardValue c).foldl max 0

/-- `CompareCard`: whether the second play beats the first. -/
def compareCard (mainValue : ℕ) (first next : List UInt8) : Option Bool := do
  let nextType ← getCardType mainValue next
  let firstType ← getCardType mainValue first
  let logic := getCardLogicValue mainValue
  if firstType.isBomb = true ∨ nextType.isBomb = true then
    if nextType = .bombTW then some true
    else if firstType = .bombTW then some false
    else if nextType.isBomb = false then some false
    else if firstType.isBomb = false then some true
    else if first.length = next.length then
      if firstType = nextType then
        if firstType = .bomb then some (logic (first.headD 0) < logic (next.headD 0))
        else some (consultValue first < consultValue next)
      else some (nextType = .tongHuaShun)
    else some (first.length < next.length)
  else if firstType ≠ nextType then some false
  else match firstType with
    | .single | .double | .three => some (logic (first.headD 0) < logic (next.headD 0))
    | .singleLink | .doubleLink | .threeLink => some (consultValue first < consultValue next)
    | .threeDouble => do
        let nextResult ← analysebCardData next
        let firstResult ← analysebCardData first
        some (logic ((firstResult 2).flatten.headD 0) < logic ((nextResult 2).flatten.headD 0))
    | _ => some false

/-! ## Hands -/

/-- `RandCardList`: `rand i` picks the card that leaves `i` of them. -/
def randCardList (rand : ℕ → ℕ) : List UInt8 := shuffle rand fullCount cardData

/-- `RemoveCard` on the first `count` entries of an array: the array when
every card is found. -/
def removeCard (removeCards data : List UInt8) (count : ℕ) : Option (List UInt8) :=
  if removeCards = [] then some data
  else if count < removeCards.length ∨ maxCount < count then none
  else (removeMarked 0 removeCards (data.take count)).map fun rest =>
    let left := rest.filter (· ≤ 0x4F)
    left ++ List.replicate (count - left.length) 0 ++ data.drop count

/-- `Add`: one card more, in order. -/
def add (mainValue : ℕ) (card : UInt8) (data : List UInt8) (count : ℕ) : Option (List UInt8) :=
  if maxCount ≤ count then none
  else some (sortCardList mainValue (data.take count ++ [card]) ++ data.drop (count + 1))

/-- `GetJingongCard`: the first of three cards that has not the main value,
or the byte zero. -/
def getJingongCard (mainValue : ℕ) (data : List UInt8) : UInt8 :=
  ((data.take 3).find? fun c => getCardValue c ≠ mainValue).getD 0

end GameServer.GuanDan
