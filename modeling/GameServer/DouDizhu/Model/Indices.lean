import GameServer.DouDizhu.Model.TableFrameSink
/-!
# Dou Dizhu — the indices of a play

Which indices a `SUB_C_OUT_CARD` message uses in arrays of `MAX_COUNT`
entries: in the cards it sends, in the rows of their analysis, in the copy
of the hand they are looked for in, and in the cards on the table. The
lists follow the functions of `GameLogic` on the cards that were sent.
-/

namespace GameServer.DouDizhu

/-- `AnalysebCardData` over the runs of equal cards, the first at index `i`
of `count` cards. -/
def analyseIndices (count : ℕ) : List (List UInt8) → ℕ → AnalyseResult → List ℕ
  | [], _, _ => []
  | run :: runs, i, result =>
      -- the search for equal cards ends at the first that differs
      List.range' i (min (run.length + 1) (count - i)) ++
        if run.length > 4 then []
        else
          let k := Fin.ofNat 4 (run.length - 1)
          (List.range run.length).map (fun j => (result k).length * run.length + j) ++
            analyseIndices count runs (i + run.length) (Function.update result k (result k ++ [run]))

/-- The indices of the loops of `isLine`: each goes to the first block that
breaks the line. -/
def lineIndices (r : AnalyseResult) (k : Fin 4) : List ℕ :=
  let first := getCardLogicValue (r.card k 0)
  0 :: if first ≥ 15 then []
    else
      let rest := List.range' 1 ((r k).length - 1)
      let line := rest.takeWhile fun i => first = getCardLogicValue (r.card k (i * (k + 1))) + i
      (rest.take (line.length + 1)).map (· * (k + 1))

/-- The rows `GetCardType` looks at. -/
def analysedIndices (r : AnalyseResult) (count : ℕ) : List ℕ :=
  if (r 3).length > 0 then []
  else if (r 2).length > 0 then if (r 2).length > 1 then lineIndices r 2 else []
  else if (r 1).length ≥ 3 then lineIndices r 1
  else if (r 0).length ≥ 5 ∧ (r 0).length = count then lineIndices r 0
  else []

def analysebCardDataIndices (cards : List UInt8) : List ℕ :=
  analyseIndices cards.length
    (cards.splitBy fun a b => getCardLogicValue b = getCardLogicValue a) 0 fun _ => []

def getCardTypeIndices : List UInt8 → List ℕ
  | [] => []
  | [_] => []
  | [_, _] => [0, 1]
  | cards => analysebCardDataIndices cards ++
      (analysebCardData cards).elim [] (analysedIndices · cards.length)

/-- `CompareCard`, on the second play. -/
def compareCardIndices (first next : List UInt8) : List ℕ :=
  getCardTypeIndices next ++ match getCardType first, getCardType next with
    | some firstType, some nextType =>
        if nextType = .error ∨ nextType = .missileCard ∨ firstType ≠ nextType ∨
          first.length ≠ next.length then []
        else match nextType with
          | .threeTakeOne | .threeTakeTwo | .fourTakeOne | .fourTakeTwo =>
              analysebCardDataIndices next ++ [0]
          | _ => [0]
    | _, _ => []

/-- The loops of `RemoveCardList`: each card, from index `i`, is looked for
in the copy of the hand, where it is struck out. -/
def strikeIndices : List UInt8 → ℕ → List UInt8 → List ℕ
  | [], _, _ => []
  | card :: cards, i, data =>
      let j := data.findIdx (· = card)
      (if data = [] then [] else [i]) ++ List.range (min (j + 1) data.length) ++
        strikeIndices cards (i + 1) (data.set j 0)

def removeCardListIndices (removeCards data : List UInt8) (count : ℕ) : List ℕ :=
  if maxCount < count then []
  else strikeIndices removeCards 0 (data.take count) ++ List.range count

namespace TableSink

def outCardIndices (s : TableSink) (chair : Chair) (cards : List UInt8) : List ℕ :=
  if s.currentUser ≠ some chair then []
  else getCardTypeIndices cards ++
    if getCardType cards = some .error then []
    else (if s.turnCardData = [] then [] else compareCardIndices s.turnCardData cards) ++
      if s.legalPlay cards = some true then
        removeCardListIndices cards (s.handCardData chair) (s.handCardCount chair) ++
          -- the copy into `m_cbTurnCardData`
          if (s.takeOut chair cards).isSome then List.range cards.length else []
      else []

/-- `OnGameMessage` with `SUB_C_OUT_CARD`. -/
def messageIndices (s : TableSink) (chair : Chair) (playing : Bool) (cardCount : UInt8)
    (cards : List UInt8) : List ℕ :=
  if cards.length = cardCount.toNat ∧ s.gameStatus = .play ∧ playing = true then
    s.outCardIndices chair cards
  else []

end TableSink

end GameServer.DouDizhu
