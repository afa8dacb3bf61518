import GameServer.Common.Positive
import GameServer.Common.Sort
/-!
# Ox battle — hands

`CGameLogic`: the type of a hand of five cards and the comparison of two
hands. `GetCardType` is called without a buffer for the sorted cards
here, so only the type is computed. A card is a byte with its colour in
the high half; colour 4 are the jokers.
-/

namespace GameServer.OxBattle

inductive CardType where
  | error
  | point
  | niu1
  | niu2
  | niu3
  | niu4
  | niu5
  | niu6
  | niu7
  | niu8
  | niu9
  | niuNiu
  | niuNiuXW
  | niuNiuDW
  | niuYing
  | niuKing
  | bomeBome
  deriving DecidableEq, Repr

/-- The values of `emCardType`. There is none of value 2. -/
def CardType.toNat : CardType → ℕ
  | error => 0
  | point => 1
  | niu1 => 3
  | niu2 => 4
  | niu3 => 5
  | niu4 => 6
  | niu5 => 7
  | niu6 => 8
  | niu7 => 9
  | niu8 => 10
  | niu9 => 11
  | niuNiu => 12
  | niuNiuXW => 13
  | niuNiuDW => 14
  | niuYing => 15
  | niuKing => 16
  | bomeBome => 17

def getCardValue (card : UInt8) : ℕ := card.toNat % 16

def getCardColor (card : UInt8) : ℕ := card.toNat / 16

def getCardNewValue (card : UInt8) : ℕ :=
  if getCardColor card = 4 then getCardValue card + 13 + 2 else getCardValue card

def getCardLogicValue (card : UInt8) : ℕ :=
  if getCardColor card = 4 then 11 else min (getCardValue card) 10

def sortCardList (cards : List UInt8) : List UInt8 :=
  bubbleSort (fun a b => getCardNewValue a < getCardNewValue b ||
    (getCardNewValue a == getCardNewValue b && decide (a < b))) (cards.length - 1) cards

def retType (type : ℕ) : CardType :=
  match type % 10 with
  | 0 => .niuNiu
  | 1 => .niu1
  | 2 => .niu2
  | 3 => .niu3
  | 4 => .niu4
  | 5 => .niu5
  | 6 => .niu6
  | 7 => .niu7
  | 8 => .niu8
  | 9 => .niu9
  | _ => .point

def isJoker (card : UInt8) : Bool := getCardColor card == 4

/-- A card that counts ten, or a joker. -/
def isTen (card : UInt8) : Bool := getCardLogicValue card == 10 || getCardLogicValue card == 11

/-- The cards at other places than `ns`, in their order. -/
def otherCards (cards : List UInt8) (ns : List ℕ) : List UInt8 :=
  (cards.zipIdx.filter fun p => !ns.contains p.2).map Prod.fst

/-- The logic values of some cards, added up. -/
def logicSum (cards : List UInt8) : ℕ := (cards.map getCardLogicValue).sum

/-- Two different places in the order of the two loops: the cards there
and the others. -/
def pickTwo (cards : List UInt8) : List (List UInt8 × List UInt8) :=
  (List.range cards.length).flatMap fun n =>
    (List.range cards.length).filterMap fun j =>
      if j = n then none else some ([cards.getD n 0, cards.getD j 0], otherCards cards [n, j])

/-- Three different places in the order of the three loops. -/
def pickThree (cards : List UInt8) : List (List UInt8 × List UInt8) :=
  (List.range cards.length).flatMap fun n =>
    (List.range cards.length).flatMap fun j =>
      (List.range cards.length).filterMap fun w =>
        if j = n ∨ w = n ∨ w = j then none
        else some ([cards.getD n 0, cards.getD j 0, cards.getD w 0], otherCards cards [n, j, w])

/-- The search for the greatest rest beside a ten: `iBigValue` after the
loop, or nothing if the loop returns with a rest of 0. A find comes with
what it is compared by and what `iBigValue` becomes. -/
def bigValue : List (ℕ × ℕ) → ℕ → Option ℕ
  | [], big => some big
  | (bound, value) :: finds, big =>
      if big ≤ bound then if value = 0 then none else bigValue finds value
      else bigValue finds big

/-- The picks that make a multiple of ten, with what is left. -/
def makeTen (picks : List (List UInt8 × List UInt8)) : List (List UInt8) :=
  (picks.filter fun p => logicSum p.1 % 10 == 0).map Prod.snd

/-- The search for two cards with the most points beside a joker:
`bcTmp`. -/
def bestTwo (cards : List UInt8) : List UInt8 :=
  ((pickTwo cards).foldl (fun best p =>
    if logicSum p.1 % 10 > logicSum best % 10 then p.1 else best) [])

/-- What a rest of two cards is compared by and what `iBigValue` becomes.
The remainder is taken of the second card only. -/
def restOfTwo (rest : List UInt8) : ℕ × ℕ :=
  (logicSum rest % 10,
    getCardLogicValue (rest.getD 0 0) + getCardLogicValue (rest.getD 1 0) % 10)

/-- What a rest of one card is compared by and what `iBigValue`
becomes. -/
def restOfOne (rest : List UInt8) : ℕ × ℕ :=
  ((rest.getD 0 0).toNat % 10, getCardLogicValue (rest.getD 0 0) % 10)

def jokerNiu (joker : UInt8) : CardType := if joker = 0x42 then .niuNiuDW else .niuNiuXW

/-- `GetCardType` from where no card counts ten any more. -/
def fiveCards (cards : List UInt8) : CardType :=
  match bigValue ((makeTen (pickThree cards)).map restOfTwo) 0 with
  | none => .niuNiu
  | some 0 => .point
  | some big => retType big

/-- `GetCardType` from where one card counts ten: `a` is the greatest
card, `four` the others. -/
def fourCards (a : UInt8) (four : List UInt8) : CardType :=
  if isJoker a then
    if (makeTen (pickTwo four)).isEmpty then retType (logicSum (bestTwo four)) else jokerNiu a
  else
    match bigValue ((makeTen (pickTwo four)).map restOfTwo) 0 with
    | none => .niuNiu
    | some 0 => fiveCards (a :: four)
    | some big => retType big

/-- `GetCardType` of five sorted cards that are no bomb and not all
great. -/
def niuType (a b c d e : UInt8) : CardType :=
  let tens := [a, b, c, d, e].countP isTen
  if tens ≥ 3 then
    if isJoker a && isJoker b then .niuNiuDW
    else if isJoker a then jokerNiu a
    else retType (getCardLogicValue d + getCardLogicValue e)
  else if tens = 2 ∨ tens = 1 ∧ isJoker a then
    if isJoker a && isJoker b then .niuNiuDW
    else if isJoker a then
      if (makeTen (pickThree [b, c, d, e])).isEmpty then
        if tens = 1 then fourCards a [b, c, d, e] else retType (logicSum (bestTwo [b, c, d, e]))
      else jokerNiu a
    else if logicSum [c, d, e] % 10 = 0 then .niuNiu
    else
      match bigValue ((makeTen (pickTwo [c, d, e])).map restOfOne) 0 with
      | none => .niuNiu
      | some 0 => fourCards a [b, c, d, e]
      | some big => retType big
  else if tens = 1 then fourCards a [b, c, d, e]
  else fiveCards [a, b, c, d, e]

/-- `GetCardType` of the sorted cards. -/
def sortedType (a b c d e : UInt8) : CardType :=
  let new := getCardNewValue
  if new a = new d ∨ new b = new e then .bomeBome
  else if isJoker a ∧ isJoker b ∧ (new c = new d ∨ new d = new e) then .bomeBome
  else if isJoker a ∧ (new b = new d ∨ new c = new e) then .bomeBome
  else if [a, b, c, d, e].all isTen ∧ [a, b, c, d, e].countP (new · == 10) = 0 then .niuKing
  else if [a, b, c, d, e].all isTen ∧ [a, b, c, d, e].countP (new · == 10) = 1 then .niuYing
  else niuType a b c d e

def getCardType (cards : List UInt8) : CardType :=
  match sortCardList cards with
  | [a, b, c, d, e] => sortedType a b c d e
  | _ => .error

def multipleOf (type : CardType) : ℕ := if type.toNat ≥ 12 then 10 else type.toNat - 2

/-- The comparison of the greatest cards: 1 if the second hand's is
greater. -/
def compareFirst (firstCards nextCards : List UInt8) : ℤ :=
  let first := (sortCardList firstCards).getD 0 0
  let next := (sortCardList nextCards).getD 0 0
  if getCardNewValue first < getCardNewValue next then 1
  else if getCardNewValue first = getCardNewValue next ∧ getCardColor first < getCardColor next then 1
  else -1

/-- `CompareCard`: 1 if the second hand wins, and `Multiple`, which keeps
the value it has when two hands have points only. -/
def compareCard (firstCards nextCards : List UInt8) (multiple : ℕ) : ℤ × ℕ :=
  if ¬ (firstCards.length = 5 ∧ nextCards.length = 5) then (0, multiple)
  else
    let first := getCardType firstCards
    let next := getCardType nextCards
    if first ≠ next then
      if next.toNat > first.toNat then (1, multipleOf next) else (-1, multipleOf first)
    else if first ≠ .point then (compareFirst firstCards nextCards, multipleOf first)
    else (compareFirst firstCards nextCards, multiple)

end GameServer.OxBattle
