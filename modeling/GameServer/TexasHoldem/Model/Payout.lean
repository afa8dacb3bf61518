import GameServer.TexasHoldem.Model.GameLogic
/-!
# Texas hold'em — the end of a hand

`OnEventGameConclude` with `GER_NORMAL`, up to the scores of the chairs:
the best five of every chair still in, the chairs in groups of equal
hands (`WinnerList`), those who gave up behind them, and the loop that
pays every group from the groups behind it.
-/

namespace GameServer.TexasHoldem

/-- `lUserScore` and `lTotalScore` of the loop: what a chair has won or
lost, and what is left of its bet. -/
@[ext]
structure Ledger where
  userScore : Chair → ℤ
  totalScore : Chair → ℤ

def endCardData (playStatus : Chair → Bool) (handCardData : Chair → UInt8 × UInt8)
    (centerCardData : List UInt8) (i : Chair) : List UInt8 :=
  if playStatus i then fiveFromSeven (handCardData i) centerCardData
  else List.replicate maxCenterCount 0

/-- The cards left once a group is taken out of `bTempData`. -/
def removeCards (tempData : Chair → List UInt8) (group : List Chair) (i : Chair) : List UInt8 :=
  if i ∈ group then List.replicate maxCenterCount 0 else tempData i

/-- The groups `SelectMaxUser` finds in `count` rounds. -/
def scoreOrder (handData : Chair → UInt8 × UInt8) (addScore : Chair → ℤ) :
    ℕ → (Chair → List UInt8) → List (List Chair)
  | 0, _ => []
  | count + 1, tempData =>
      match selectMaxUser tempData handData addScore with
      | none => []
      | some group => group :: scoreOrder handData addScore count (removeCards tempData group)

/-- `WinnerList`: the groups, with the chairs that gave up where the
search ended. If it used all its rounds `wWinCount` is still 0. -/
def winnerList (playStatus : Chair → Bool) (totalScore : Chair → ℤ)
    (order : List (List Chair)) : List (List Chair) :=
  let giveUp := chairs.filter fun i => playStatus i = false ∧ totalScore i > 0
  if order.length < gamePlayer then order ++ [giveUp] else order.modify 0 (· ++ giveUp)

/-- The scores of the winners with index `m ≥ j` raised by `score`. -/
def credit (group : List Chair) (score : ℤ) (userScore : Chair → ℤ) : Chair → ℤ :=
  group.foldl (fun us m => Function.update us m (int32 (us m + score))) userScore

/-- `lLastScore`: what the winner before has left, 0 for the first one. -/
def lastScore (s : Ledger) (last : Option Chair) : ℤ := (last.map s.totalScore).getD 0

/-- One loser pays one winner and those behind him in the group. `last` is
the winner before him, if there is one. -/
def payLoser (last : Option Chair) (winner : Chair) (behind : List Chair) (s : Ledger)
    (loser : Chair) : Ledger :=
  if s.totalScore loser = 0 then s
  else if last.isSome ∧ lastScore s last ≤ 0 then s
  else
    let minScore := min (int32 (s.totalScore winner - lastScore s last)) (s.totalScore loser)
    let userScore := credit (winner :: behind) (minScore.tdiv (behind.length + 1)) s.userScore
    { userScore := Function.update userScore loser (int32 (userScore loser - minScore))
      totalScore := Function.update s.totalScore loser (int32 (s.totalScore loser - minScore)) }

/-- One winner, paid by all losers unless he has no chips left or as many
as the one before. -/
def payWinner (losers : List Chair) (last : Option Chair) (winner : Chair) (behind : List Chair)
    (s : Ledger) : Ledger :=
  if s.totalScore winner = 0 then s
  else if last.isSome ∧ int32 (s.totalScore winner - lastScore s last) = 0 then s
  else losers.foldl (payLoser last winner behind) s

def payWinners (losers : List Chair) : Option Chair → List Chair → Ledger → Ledger
  | _, [], s => s
  | last, winner :: behind, s =>
      payWinners losers (some winner) behind (payWinner losers last winner behind s)

/-- The losers of a group: everybody in the groups behind, up to an empty
one. -/
def losersOf (groups : List (List Chair)) : List Chair :=
  (groups.takeWhile fun g => !g.isEmpty).flatten

/-- The first `count` groups in turn, up to an empty one. -/
def payGroups : ℕ → List (List Chair) → Ledger → Ledger
  | count + 1, group :: groups, s =>
      if group.isEmpty then s
      else payGroups count groups (payWinners (losersOf groups) none group s)
  | _, _, s => s

/-- `lUserScore` of a hand that ends with `GER_NORMAL`. -/
def normalUserScore (playStatus : Chair → Bool) (handCardData : Chair → UInt8 × UInt8)
    (centerCardData : List UInt8) (totalScore : Chair → ℤ) : Chair → ℤ :=
  let order := scoreOrder handCardData totalScore gamePlayer
    (endCardData playStatus handCardData centerCardData)
  (payGroups (gamePlayer - 1) (winnerList playStatus totalScore order)
    { userScore := fun _ => 0, totalScore }).userScore

/-- `GameEnd.lWinChipScore`: the chips a chair receives. -/
def winChipScore (playStatus : Chair → Bool) (handCardData : Chair → UInt8 × UInt8)
    (centerCardData : List UInt8) (totalScore : Chair → ℤ) (i : Chair) : ℤ :=
  int32 (normalUserScore playStatus handCardData centerCardData totalScore i + totalScore i)

end GameServer.TexasHoldem
