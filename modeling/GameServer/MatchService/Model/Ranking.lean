import Mathlib.Data.Int.Notation
import Mathlib.Algebra.Group.Nat.Defs
/-!
# MatchService — the ranking of a group

`CImmediateGroup` ranks its members twice: `SortMapUser` puts them in order
of score by a binary insertion, and `GetUserRank` counts those above one of
them. A user stands for his item, and an index outside the array is a fault.
-/

namespace GameServer.MatchService

/-- `tagMatchScore`, without the item. -/
structure MatchScore where
  userID : ℕ
  lScore : ℤ

/-- The members of a group. `OnUserSignUpMatch` takes no more than the `WORD`
`wStartUserCount`. -/
structure GroupUsers where
  onMatchUserMap : List ℕ
  startUserCount : ℕ
  startUserCount_lt : startUserCount < 2 ^ 16
  length_le : onMatchUserMap.length ≤ startUserCount
  chairCount : ℕ

/-- What `GetUserRank` reads of a table. -/
structure RankTable where
  tableID : ℕ
  tableUserItem : ℕ → Option ℕ

def rankInvalid : ℕ := 0xFFFF

def searchPlace (score : List MatchScore) (lScore left right : ℤ) : Option ℤ :=
  if left ≤ right then do
    let mid := (left + right) / 2
    let other ← score[mid.toNat]?
    if lScore > other.lScore then searchPlace score lScore left (mid - 1)
    else searchPlace score lScore (mid + 1) right
  else some left
termination_by (right + 1 - left).toNat

/-- The entries from `left` to before the given one move up, the last one
first. -/
def moveUp (left : ℕ) : ℕ → List MatchScore → Option (List MatchScore)
  | 0, score => some score
  | j + 1, score =>
      if left ≤ j then do
        let other ← score[j]?
        moveUp left j (score.set (j + 1) other)
      else some score

/-- One round of the sort. -/
def insertScore (i : ℕ) (score : List MatchScore) : Option (List MatchScore) := do
  let temp ← score[i]?
  let left ← searchPlace score temp.lScore 0 (i - 1)
  let moved ← moveUp left.toNat i score
  return moved.set left.toNat temp

def insertScores : ℕ → ℕ → List MatchScore → Option (List MatchScore)
  | 0, _, score => some score
  | rounds + 1, i, score => (insertScore i score).bind (insertScores rounds (i + 1))

/-- `SortMapUser`: the `WORD` it returns and the array. -/
def sortMapUser (g : GroupUsers) (getUserScore : ℕ → ℤ) : Option (ℕ × List MatchScore) :=
  let score := g.onMatchUserMap.map fun user => ⟨user, getUserScore user⟩
  (insertScores (score.length - 1) 1 score).map fun sorted => (score.length % 2 ^ 16, sorted)

/-- What one user means for the rank of another. -/
def raiseRank (getUserScore : ℕ → ℤ) (pUserItem wRank pLoopUserItem : ℕ) : ℕ :=
  if pLoopUserItem ≠ pUserItem ∧ getUserScore pLoopUserItem > getUserScore pUserItem then
    (wRank + 1) % 2 ^ 16
  else wRank

def rankAmong (getUserScore : ℕ → ℤ) (pUserItem : ℕ) (users : List ℕ) : ℕ :=
  users.foldl (raiseRank getUserScore pUserItem) 1

/-- `GetUserRank`, in the group or at a table. -/
def getUserRank (g : GroupUsers) (getUserScore : ℕ → ℤ) (getTableID : ℕ → ℕ)
    (pUserItem : Option ℕ) (pITableFrame : Option RankTable) : ℕ :=
  pUserItem.elim rankInvalid fun user =>
    pITableFrame.elim (rankAmong getUserScore user g.onMatchUserMap) fun table =>
      if getTableID user ≠ table.tableID then rankInvalid
      else rankAmong getUserScore user ((List.range g.chairCount).filterMap table.tableUserItem)

end GameServer.MatchService
