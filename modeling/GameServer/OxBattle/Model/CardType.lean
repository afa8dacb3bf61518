import GameServer.OxBattle.Model.GameLogic
/-!
# Ox battle — the type of a hand, with its buffers

`GetCardType` with a buffer for the sorted cards. `iSingleA` and `bcTmp`
are arrays on the stack that nothing is written to at first, so an entry
may be missing, and reading a missing entry is a fault. The buffer starts
with the sorted cards and is written again with every find.
-/

namespace GameServer.OxBattle

def cardListData : List UInt8 :=
  [0x01, 0x02, 0x03, 0x04, 0x05, 0x06, 0x07, 0x08, 0x09, 0x0A, 0x0B, 0x0C, 0x0D,
    0x11, 0x12, 0x13, 0x14, 0x15, 0x16, 0x17, 0x18, 0x19, 0x1A, 0x1B, 0x1C, 0x1D,
    0x21, 0x22, 0x23, 0x24, 0x25, 0x26, 0x27, 0x28, 0x29, 0x2A, 0x2B, 0x2C, 0x2D,
    0x31, 0x32, 0x33, 0x34, 0x35, 0x36, 0x37, 0x38, 0x39, 0x3A, 0x3B, 0x3C, 0x3D,
    0x41, 0x42]

/-- A type and `bcOutCadData`. -/
abbrev TypeAndCards := CardType × List UInt8

/-- `iSingleA`, `iBigValue` and `bcOutCadData`. -/
structure Buffers where
  iSingleA : List (Option UInt8)
  iBigValue : ℕ
  bcOutCadData : List UInt8

/-- Cards are written to an array from its start on, as `add` is counted
up. -/
def writeEntries (array : List (Option UInt8)) (cards : List UInt8) : List (Option UInt8) :=
  cards.map some ++ array.drop cards.length

/-- The first entries are read, if all of them are written. -/
def readEntries : ℕ → List (Option UInt8) → Option (List UInt8)
  | 0, _ => some []
  | count + 1, some card :: array => (readEntries count array).map (card :: ·)
  | _ + 1, _ => none

/-- A loop that looks for the greatest rest beside a ten, with the way it
compares and measures the `count` cards that are left and where it writes
them. It returns `CT_SPECIAL_NIUNIU` where a rest of 0 is found. -/
def bigLoop (count : ℕ) (rest : List UInt8 → ℕ × ℕ) (out : List UInt8 → List UInt8 → List UInt8) :
    List (List UInt8 × List UInt8) → Buffers → Option (Buffers × Bool)
  | [], s => some (s, false)
  | p :: picks, s =>
      if logicSum p.1 % 10 = 0 then do
        let iSingleA := writeEntries s.iSingleA p.2
        let left ← readEntries count iSingleA
        if s.iBigValue ≤ (rest left).1 then
          let s := { iSingleA, iBigValue := (rest left).2, bcOutCadData := out p.1 left }
          if (rest left).2 = 0 then some (s, true) else bigLoop count rest out picks s
        else bigLoop count rest out picks { s with iSingleA }
      else bigLoop count rest out picks s

/-- The loop that looks for the two cards with the most points beside a
joker: `iSingleA` and `bcTmp` after it. -/
def bestLoop : List (List UInt8 × List UInt8) → ℕ → List (Option UInt8) → List (Option UInt8) →
    Option (List (Option UInt8) × List (Option UInt8))
  | [], _, iSingleA, bcTmp => some (iSingleA, bcTmp)
  | p :: picks, iBig, iSingleA, bcTmp =>
      let bclogic := logicSum p.1 % 10
      if bclogic > iBig then do
        let iSingleA := writeEntries iSingleA p.2
        let left ← readEntries 2 iSingleA
        bestLoop picks bclogic iSingleA (writeEntries bcTmp (p.1 ++ left))
      else bestLoop picks iBig iSingleA bcTmp

/-- The two cards with the most points beside the joker `a`, as `bcTmp`
has them, the joker and the others in front of them, and `iSingleA`. -/
def bestTwoOut (a : UInt8) (four : List UInt8) (iSingleA : List (Option UInt8)) :
    Option (List UInt8 × List UInt8 × List (Option UInt8)) := do
  let r ← bestLoop (pickTwo four) 0 iSingleA (List.replicate 4 none)
  let bcTmp ← readEntries 4 r.2
  return (bcTmp.take 2, a :: bcTmp.drop 2 ++ bcTmp.take 2, r.1)

/-- `GetCardType` from where no card counts ten any more. -/
def fiveCardsOut (cards : List UInt8) (s : Buffers) : Option TypeAndCards := do
  let r ← bigLoop 2 restOfTwo (fun three left => three ++ left) (pickThree cards) s
  if r.2 then return (.niuNiu, r.1.bcOutCadData)
  else if r.1.iBigValue = 0 then return (.point, r.1.bcOutCadData)
  else return (retType r.1.iBigValue, r.1.bcOutCadData)

/-- `GetCardType` from where one card counts ten. -/
def fourCardsOut (a : UInt8) (four : List UInt8) (s : Buffers) : Option TypeAndCards :=
  if isJoker a then
    match (pickTwo four).find? fun p => logicSum p.1 % 10 == 0 with
    | some p => do
        let left ← readEntries 2 (writeEntries s.iSingleA p.2)
        return (jokerNiu a, a :: left ++ p.1)
    | none => do
        let r ← bestTwoOut a four s.iSingleA
        return (retType (logicSum r.1), r.2.1)
  else do
    let r ← bigLoop 2 restOfTwo (fun two left => a :: two.reverse ++ left) (pickTwo four) s
    if r.2 then return (.niuNiu, r.1.bcOutCadData)
    else if r.1.iBigValue = 0 then fiveCardsOut (a :: four) r.1
    else return (retType r.1.iBigValue, r.1.bcOutCadData)

/-- `GetCardType` of five sorted cards that are no bomb and not all
great. -/
def niuTypeOut (a b c d e : UInt8) : Option TypeAndCards :=
  let tens := [a, b, c, d, e].countP isTen
  let s : Buffers := ⟨[none, none], 0, [a, b, c, d, e]⟩
  if tens ≥ 3 then
    if isJoker a && isJoker b then some (.niuNiuDW, [a, d, e, b, c])
    else if isJoker a then some (jokerNiu a, [a, d, e, b, c])
    else some (retType (getCardLogicValue d + getCardLogicValue e), s.bcOutCadData)
  else if tens = 2 ∨ tens = 1 ∧ isJoker a then
    if isJoker a && isJoker b then some (.niuNiuDW, [a, d, e, b, c])
    else if isJoker a then
      match (pickThree [b, c, d, e]).find? fun p => logicSum p.1 % 10 == 0 with
      | some p => do
          let left ← readEntries 1 (writeEntries s.iSingleA p.2)
          return (jokerNiu a, p.1 ++ a :: left)
      | none => do
          let r ← bestTwoOut a [b, c, d, e] s.iSingleA
          if tens = 1 then fourCardsOut a [b, c, d, e] ⟨r.2.2, s.iBigValue, r.2.1⟩
          else return (retType (logicSum r.1), r.2.1)
    else if logicSum [c, d, e] % 10 = 0 then some (.niuNiu, [c, d, e, a, b])
    else do
      let r ← bigLoop 1 restOfOne (fun two left => a :: two ++ b :: left) (pickTwo [c, d, e]) s
      if r.2 then return (.niuNiu, r.1.bcOutCadData)
      else if r.1.iBigValue = 0 then fourCardsOut a [b, c, d, e] r.1
      else return (retType r.1.iBigValue, r.1.bcOutCadData)
  else if tens = 1 then fourCardsOut a [b, c, d, e] s
  else fiveCardsOut [a, b, c, d, e] s

/-- `GetCardType` of the sorted cards. -/
def sortedTypeOut (a b c d e : UInt8) : Option TypeAndCards :=
  let new := getCardNewValue
  if new a = new d ∨ new b = new e then some (.bomeBome, [a, b, c, d, e])
  else if isJoker a ∧ isJoker b ∧ new c = new d then some (.bomeBome, [c, d, a, b, e])
  else if isJoker a ∧ isJoker b ∧ new d = new e then some (.bomeBome, [a, b, d, e, c])
  else if isJoker a ∧ new b = new d then some (.bomeBome, [b, c, d, a, e])
  else if isJoker a ∧ new c = new e then some (.bomeBome, [c, d, e, a, b])
  else if [a, b, c, d, e].all isTen ∧ [a, b, c, d, e].countP (new · == 10) = 0 then
    some (.niuKing, [a, b, c, d, e])
  else if [a, b, c, d, e].all isTen ∧ [a, b, c, d, e].countP (new · == 10) = 1 then
    some (.niuYing, [a, b, c, d, e])
  else niuTypeOut a b c d e

/-- `GetCardType` with `bcOutCadData`; nothing if an entry is read that
was not written. -/
def getCardTypeOut (cards : List UInt8) : Option TypeAndCards :=
  match sortCardList cards with
  | [a, b, c, d, e] => sortedTypeOut a b c d e
  | _ => some (.error, cards)

end GameServer.OxBattle
