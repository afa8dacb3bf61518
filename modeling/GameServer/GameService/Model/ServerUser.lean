import GameServer.Common.Run
/-!
# GameService — a user's score

`CServerUserItem` holds a user while he is logged on. His score stands
in three places: what he plays with, what is frozen, and the rest that
is kept for him. Every change is booked twice: in the record of the
whole stay, and in a variation that the database takes away
(`DistillVariation`). Scores are 64-bit and wrap.

The calls of the sink come last in a function, so what the sink does
then is a later call.
-/

namespace GameServer.GameService

abbrev Score := Int64

@[ext]
structure VariationInfo where
  lScore : Score := 0
  lGrade : Score := 0
  lInsure : Score := 0
  lRevenue : Score := 0
  winCount : UInt32 := 0
  lostCount : UInt32 := 0
  drawCount : UInt32 := 0
  fleeCount : UInt32 := 0
  playTimeCount : UInt32 := 0
  lIngot : Score := 0
  experience : UInt32 := 0
  loveLiness : Int32 := 0
  deriving DecidableEq, Repr

/-- `US_NULL` to `US_OFFLINE`. -/
inductive UserStatus where
  | null
  | free
  | sit
  | ready
  | lookon
  | playing
  | offline
  deriving DecidableEq, Repr

def invalidTable : ℕ := 0xFFFF

def invalidChair : ℕ := 0xFFFF

structure ServerUserItem where
  userID : UInt32
  lScore : Score
  winCount : UInt32 := 0
  lostCount : UInt32 := 0
  drawCount : UInt32 := 0
  fleeCount : UInt32 := 0
  experience : UInt32 := 0
  tableID : ℕ := invalidTable
  chairID : ℕ := invalidChair
  userStatus : UserStatus := .free
  /-- `m_cbReUserStatus`. -/
  reUserStatus : UserStatus := .null
  androidUser : Bool := false
  trusteeUser : Bool := false
  clientReady : Bool := false
  trusteeScore : Score := 0
  frozenedScore : Score := 0
  defPutScore : Score := 0
  lowPutScore : Score := 0
  nextPutScore : Score := 0
  modifyScore : Bool := false
  recordInfo : VariationInfo := {}
  variationInfo : VariationInfo := {}

def scoreTypeNull : UInt8 := 0

def scoreTypeWin : UInt8 := 1

def scoreTypeLose : UInt8 := 2

def scoreTypeDraw : UInt8 := 3

def scoreTypeFlee : UInt8 := 4

/-- The arguments of `WriteUserScore`. The ingots are not booked. -/
structure ScoreWrite where
  lScore : Score
  lGrade : Score := 0
  lRevenue : Score := 0
  lIngot : Score := 0
  scoreType : UInt8
  playTimeCount : UInt32 := 0
  winExperience : UInt32 := 0

/-- One for the count a game of this type goes into. -/
def countOf (type : UInt8) (w : ScoreWrite) : UInt32 := if w.scoreType = type then 1 else 0

/-- What `WriteUserScore` adds to the record, and again to the
variation. -/
def VariationInfo.write (v : VariationInfo) (w : ScoreWrite) : VariationInfo :=
  { v with
    winCount := v.winCount + countOf scoreTypeWin w
    lostCount := v.lostCount + countOf scoreTypeLose w
    drawCount := v.drawCount + countOf scoreTypeDraw w
    fleeCount := v.fleeCount + countOf scoreTypeFlee w
    lScore := v.lScore + w.lScore
    lGrade := v.lGrade + w.lGrade
    lRevenue := v.lRevenue + w.lRevenue
    playTimeCount := v.playTimeCount + w.playTimeCount
    experience := v.experience + w.winExperience }

namespace ServerUserItem

variable (u : ServerUserItem)

/-- Playing with at most `limit` of what is there, and keeping the
rest. -/
def putIn (limit : Score) : ServerUserItem :=
  let total := u.lScore + u.trusteeScore
  if total > limit then { u with lScore := limit, trusteeScore := total - limit }
  else { u with lScore := total, trusteeScore := 0 }

/-- The adjustment that ends `WriteUserScore` and
`UnFrozenedUserScore`. -/
def adjustPut : ServerUserItem :=
  if u.nextPutScore > 0 then { u.putIn u.nextPutScore with nextPutScore := 0 }
  else if u.lowPutScore > 0 ∧ u.defPutScore > 0 ∧ u.lScore < u.lowPutScore then
    u.putIn u.defPutScore
  else u

/-- Taking `lScore` from what is kept, and what is missing from what is
played with. -/
def draw (lScore : Score) : ServerUserItem :=
  if u.trusteeScore < lScore then
    { u with lScore := u.lScore - (lScore - u.trusteeScore), trusteeScore := 0 }
  else { u with trusteeScore := u.trusteeScore - lScore }

/-- The check of `FrozenedUserScore` and `WriteOtherScore`. -/
def covers (lScore : Score) : Bool :=
  decide (u.userID ≠ 0 ∧ ¬ lScore < 0 ∧ ¬ u.lScore + u.trusteeScore < lScore)

def writeUserScore (w : ScoreWrite) : ServerUserItem × Bool :=
  if u.userID = 0 ∨ w.scoreType = scoreTypeNull then (u, false)
  else
    (adjustPut
      { u with
        winCount := u.winCount + countOf scoreTypeWin w
        lostCount := u.lostCount + countOf scoreTypeLose w
        drawCount := u.drawCount + countOf scoreTypeDraw w
        fleeCount := u.fleeCount + countOf scoreTypeFlee w
        modifyScore := true
        lScore := u.lScore + w.lScore
        experience := u.experience + w.winExperience
        recordInfo := u.recordInfo.write w
        variationInfo := u.variationInfo.write w }, true)

def distillVariation : ServerUserItem × Option VariationInfo :=
  if u.userID = 0 then (u, none)
  else
    ({ u with modifyScore := false, variationInfo := {} },
      some (if u.modifyScore then u.variationInfo else {}))

def frozenedUserScore (lScore : Score) : ServerUserItem × Bool :=
  if u.covers lScore then
    ({ u.draw lScore with frozenedScore := u.frozenedScore + lScore }, true)
  else (u, false)

def unFrozenedUserScore (lScore : Score) : ServerUserItem × Bool :=
  if u.userID = 0 ∨ lScore < 0 ∨ u.frozenedScore < lScore then (u, false)
  else
    (adjustPut
      { u with frozenedScore := u.frozenedScore - lScore, lScore := u.lScore + lScore }, true)

def takeGold (lScore : Score) (atOnce : Bool) : ServerUserItem × Score :=
  if lScore ≤ 0 then (u, lScore)
  else
    let u := if atOnce then u.putIn lScore else { u with nextPutScore := lScore }
    (u, u.lScore)

/-- `WriteOtherScore`. The amount is reduced by what was kept before it
is booked. -/
def writeOtherScore (lScore : Score) : ServerUserItem × Bool :=
  if u.covers lScore then
    let booked := if u.trusteeScore < lScore then lScore - u.trusteeScore else lScore
    ({ u.draw lScore with
        modifyScore := true
        recordInfo := { u.recordInfo with lScore := u.recordInfo.lScore - booked }
        variationInfo := { u.variationInfo with lScore := u.variationInfo.lScore - booked } }, true)
  else (u, false)

def setUserStatus (userStatus : UserStatus) (tableID chairID : ℕ) : ServerUserItem :=
  if u.userID = 0 then u else { u with userStatus, tableID, chairID }

end ServerUserItem

/-! ## Calls -/

inductive ScoreCall where
  | writeUserScore (w : ScoreWrite)
  | frozenedUserScore (lScore : Score)
  | unFrozenedUserScore (lScore : Score)
  | takeGold (lScore : Score) (atOnce : Bool)
  | writeOtherScore (lScore : Score)
  | distillVariation

/-- A user's score as a machine that emits what the database takes
away. -/
def ServerUserItem.step : TotalMachine ServerUserItem ScoreCall VariationInfo
  | u, .writeUserScore w => ((u.writeUserScore w).1, [])
  | u, .frozenedUserScore lScore => ((u.frozenedUserScore lScore).1, [])
  | u, .unFrozenedUserScore lScore => ((u.unFrozenedUserScore lScore).1, [])
  | u, .takeGold lScore atOnce => ((u.takeGold lScore atOnce).1, [])
  | u, .writeOtherScore lScore => ((u.writeOtherScore lScore).1, [])
  | u, .distillVariation => (u.distillVariation.1, u.distillVariation.2.toList)

end GameServer.GameService
