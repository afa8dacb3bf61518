import GameServer.Common.Cards
import GameServer.Common.Positive
import GameServer.Common.Sort
/-!
# Dou Dizhu — the cards

`CGameLogic` on the byte a card is stored in, for any byte: type of a
play, comparison of two, removal from a hand and the search for a lead.
`AnalysebCardData` writes the blocks of equal cards into rows of
`MAX_COUNT` entries; a write behind the end of a row is a fault.
-/

namespace GameServer.DouDizhu

abbrev gamePlayer : ℕ := 3

abbrev maxCount : ℕ := 20

abbrev fullCount : ℕ := 54

abbrev normalCount : ℕ := 17

abbrev dispatchCount : ℕ := 51

/-- `m_cbCardData`: the deck. -/
def cardData : List UInt8 :=
  [0x01, 0x02, 0x03, 0x04, 0x05, 0x06, 0x07, 0x08, 0x09, 0x0A, 0x0B, 0x0C, 0x0D,
    0x11, 0x12, 0x13, 0x14, 0x15, 0x16, 0x17, 0x18, 0x19, 0x1A, 0x1B, 0x1C, 0x1D,
    0x21, 0x22, 0x23, 0x24, 0x25, 0x26, 0x27, 0x28, 0x29, 0x2A, 0x2B, 0x2C, 0x2D,
    0x31, 0x32, 0x33, 0x34, 0x35, 0x36, 0x37, 0x38, 0x39, 0x3A, 0x3B, 0x3C, 0x3D,
    0x4E, 0x4F]

/-- The types `CT_ERROR` to `CT_MISSILE_CARD`. -/
inductive CardType where
  | error
  | single
  | double
  | three
  | singleLine
  | doubleLine
  | threeLine
  | threeTakeOne
  | threeTakeTwo
  | fourTakeOne
  | fourTakeTwo
  | bombCard
  | missileCard
  deriving DecidableEq, Repr

def getCardValue (card : UInt8) : ℕ := (card &&& 0x0F).toNat

def getCardColor (card : UInt8) : UInt8 := card &&& 0xF0

/-- `GetCardLogicValue`: aces and twos are high, jokers higher. -/
def getCardLogicValue (card : UInt8) : ℕ :=
  if getCardValue card = 0 then 0
  else if getCardColor card = 0x40 then getCardValue card + 2
  else if getCardValue card ≤ 2 then getCardValue card + 13
  else getCardValue card

/-- `tagAnalyseResult`: the blocks of `k + 1` equal cards in row `k`. Their
number is `cbBlockCount[k]` and their cards, one block behind the other,
are `cbCardData[k]`. -/
abbrev AnalyseResult := Fin 4 → List (List UInt8)

/-- `cbCardData[k][i]`, with what `ZeroMemory` left behind the blocks. -/
def AnalyseResult.card (r : AnalyseResult) (k : Fin 4) (i : ℕ) : UInt8 :=
  (r k).flatten.getD i 0

/-- The loop of `AnalysebCardData` over the runs of equal cards. -/
def analyseRuns : List (List UInt8) → AnalyseResult → Option AnalyseResult
  | [], result => some result
  | run :: runs, result =>
      if run.length > 4 then some fun _ => []
      else
        let k := Fin.ofNat 4 (run.length - 1)
        -- the block is written at `cbIndex * cbSameCount` of its row
        if maxCount < (result k).length * run.length + run.length then none
        else analyseRuns runs (Function.update result k (result k ++ [run]))

def analysebCardData (cards : List UInt8) : Option AnalyseResult :=
  analyseRuns (cards.splitBy fun a b => getCardLogicValue b = getCardLogicValue a) fun _ => []

/-- The loops of `GetCardType` that say whether the blocks of row `k` make
a line: the first is below a two, and each is one below the one before. -/
def isLine (r : AnalyseResult) (k : Fin 4) : Bool :=
  getCardLogicValue (r.card k 0) < 15 ∧
    ∀ i ∈ List.range (r k).length, 1 ≤ i →
      getCardLogicValue (r.card k 0) = getCardLogicValue (r.card k (i * (k + 1))) + i

/-- `GetCardType` of three cards and more. -/
def analysedType (r : AnalyseResult) (count : ℕ) : CardType :=
  if (r 3).length > 0 then
    if (r 3).length = 1 ∧ count = 4 then .bombCard
    else if (r 3).length = 1 ∧ count = 6 then .fourTakeOne
    else if (r 3).length = 1 ∧ count = 8 ∧ (r 1).length = 2 then .fourTakeTwo
    else .error
  else if (r 2).length > 0 then
    if (r 2).length > 1 ∧ ¬ isLine r 2 then .error
    else if (r 2).length = 1 ∧ count = 3 then .three
    else if (r 2).length * 3 = count then .threeLine
    else if (r 2).length * 4 = count then .threeTakeOne
    else if (r 2).length * 5 = count ∧ (r 1).length = (r 2).length then .threeTakeTwo
    else .error
  else if (r 1).length ≥ 3 then
    if ¬ isLine r 1 then .error
    else if (r 1).length * 2 = count then .doubleLine
    else .error
  else if (r 0).length ≥ 5 ∧ (r 0).length = count then
    if ¬ isLine r 0 then .error else .singleLine
  else .error

def getCardType : List UInt8 → Option CardType
  | [] => some .error
  | [_] => some .single
  | [a, b] =>
      if a = 0x4F ∧ b = 0x4E then some .missileCard
      else if getCardLogicValue a = getCardLogicValue b then some .double
      else some .error
  | cards => (analysebCardData cards).map (analysedType · cards.length)

/-- `CompareCard`: whether the second play beats the first. -/
def compareCard (first next : List UInt8) : Option Bool := do
  let nextType ← getCardType next
  let firstType ← getCardType first
  if nextType = .error then some false
  else if nextType = .missileCard then some true
  else if firstType ≠ .bombCard ∧ nextType = .bombCard then some true
  else if firstType = .bombCard ∧ nextType ≠ .bombCard then some false
  else if firstType ≠ nextType ∨ first.length ≠ next.length then some false
  else match nextType with
    | .threeTakeOne | .threeTakeTwo => do
        let nextResult ← analysebCardData next
        let firstResult ← analysebCardData first
        some (getCardLogicValue (nextResult.card 2 0) > getCardLogicValue (firstResult.card 2 0))
    | .fourTakeOne | .fourTakeTwo => do
        let nextResult ← analysebCardData next
        let firstResult ← analysebCardData first
        some (getCardLogicValue (nextResult.card 3 0) > getCardLogicValue (firstResult.card 3 0))
    | _ => some (getCardLogicValue (next.getD 0 0) > getCardLogicValue (first.getD 0 0))

/-- `SortCardList` by `ST_ORDER`: the greater value first, and of one value
the greater byte. -/
def sortCardList (cards : List UInt8) : List UInt8 :=
  bubbleSort (fun a b => getCardLogicValue a < getCardLogicValue b ∨
    (getCardLogicValue a = getCardLogicValue b ∧ a < b)) (cards.length - 1) cards

/-- `RandCardList`: `rand i` picks the card that leaves `i` of them. -/
def randCardList (rand : ℕ → ℕ) : List UInt8 := shuffle rand fullCount cardData

/-- `RemoveCardList` on the first `count` entries of an array: it is written
over when every card is found. -/
def removeCardList (removeCards data : List UInt8) (count : ℕ) : Option (List UInt8) :=
  if maxCount < count then none
  else (removeMarked 0 removeCards (data.take count)).map fun rest =>
    rest ++ List.replicate (count - rest.length) 0 ++ data.drop count

/-- The first cards `SearchSameCard` finds for a lead: the last block of the
first row that has any. -/
def searchSameCard (cards : List UInt8) (sameCount : ℕ) : Option (List UInt8) := do
  let result ← analysebCardData (sortCardList cards)
  let blocks := ((List.finRange 4).drop (sameCount - 1)).flatMap fun k => (result k).reverse
  let block := blocks.find? fun block => getCardLogicValue (block.headD 0) > 0
  some ((block.getD []).take sameCount)

/-- The first result of `SearchOutCard` for a lead: the whole hand if it is
a play, else the lowest cards if they are not alone, else the lowest
single card. -/
def searchOutCard (hand : List UInt8) : Option (List UInt8) := do
  let cards := sortCardList hand
  let handType ← getCardType cards
  if handType ≠ .error then some cards
  else
    let lowest := cards.reverse.takeWhile fun c => getCardValue c = getCardValue (cards.getLastD 0)
    if lowest.length > 1 then some lowest else searchSameCard cards 1

end GameServer.DouDizhu
