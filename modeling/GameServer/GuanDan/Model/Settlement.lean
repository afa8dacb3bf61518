import GameServer.Common.Memory
import GameServer.GuanDan.Model.TableFrameSink
/-!
# Guandan — the scores of a hand

`CTableFrameSink::OnEventGameConclude(GER_NORMAL)` where it counts and
writes scores. A `LONG` has 32 bits: an operation on two of them that
leaves its range has no result, and a `SCORE` put into one keeps its low
bits.
-/

namespace GameServer.GuanDan

inductive ScoreType where
  | win
  | lose
  | draw
  deriving DecidableEq, Repr

structure ScoreInfo where
  type : ScoreType
  score : ℤ
  revenue : ℤ := 0
  deriving DecidableEq, Repr

/-- The result of an operation on `LONG`s. -/
def long (x : ℤ) : Option ℤ := if -2 ^ 31 ≤ x ∧ x < 2 ^ 31 then some x else none

/-- `CTableFrame::CalculateRevenue`. -/
def calculateRevenue (revenueRatio : UInt16) (score : ℤ) : ℤ :=
  if 0 < revenueRatio ∧ 0 ≤ score then (score * revenueRatio.toNat).tdiv 1000 else 0

/-- `lScore`: three when a side comes first and second, two when it comes
first and third. -/
def handScore (ranking : Fin 4 → Chair) : ℤ :=
  if ranking 0 = ranking 1 + 2 then 3 else if ranking 0 = ranking 2 + 2 then 2 else 1

/-- `lGameScore`, with what the users have. -/
def gameScore (ranking : Fin 4 → Chair) (cellScore : ℤ) (userScore : Chair → ℤ) :
    Option (Chair → ℤ) := do
  let first := ranking 0
  let second := first + 1
  let stake ← long (handScore ranking * cellScore)
  let lose := fun i => int32 (0 - min stake (userScore i))
  let both ← long (lose second + lose (second + 2))
  let both ← long both.natAbs
  let win := both.tdiv 2
  pure fun i => if i = first ∨ i = first + 2 then win else lose i

/-- What is written for a score. The revenue goes into the record; what is
taken off the score is a variable of the same name that stays zero. -/
def scoreInfo (revenueRatio : UInt16) (score : ℤ) : ScoreInfo :=
  let revenue := 0
  if score > 0 then
    { type := .win, revenue := calculateRevenue revenueRatio score, score := score - revenue }
  else if score = 0 then { type := .draw, score }
  else { type := .lose, score }

/-- The scores `OnEventGameConclude` writes for a hand that was played
out. -/
def settle (revenueRatio : UInt16) (ranking : Fin 4 → Chair) (cellScore : ℤ)
    (userScore : Chair → ℤ) : Option (Chair → ScoreInfo) :=
  (gameScore ranking cellScore userScore).map fun score i => scoreInfo revenueRatio (score i)

end GameServer.GuanDan
