import GameServer.Common.Positive
import Mathlib.Data.Nat.Bitwise
import Mathlib.Data.PNat.Defs
/-!
# PrivateService — `PrivateTableInfo`

What a private room keeps of itself, one record for each table. Seconds
and hands are counted in numbers. The text and the recorded cards that
only go to the database are left out.
-/

namespace GameServer.PrivateService

/-- `dwUserID`; the database numbers users from 1. -/
abbrev UserID := ℕ+

inductive RoomType
  | typePrivate
  | typePublic
  deriving DecidableEq

/-- `tagPrivateRandRecordChild`, the record of a hand. -/
structure RecordChild where
  kindID : ℕ := 0
  version : ℕ := 0
  recordID : ℤ := 0
  score : List ℤ := []
  playTime : ℕ := 0
  deriving DecidableEq

/-- `tagPrivateRandTotalRecord`. -/
structure TotalRecord where
  kindID : ℕ := 0
  version : ℕ := 0
  roomNum : ℤ := 0
  recordID : ℤ := 0
  score : List ℤ := []
  userID : List ℕ := []
  nickName : List String := []
  playTime : ℕ := 0
  recordChild : List RecordChild := []
  deriving DecidableEq

structure PrivateTableInfo where
  createrUserID : ℕ
  roomNum : ℕ
  /-- 目标局数 -/
  playCout : ℕ
  /-- 消耗点数 -/
  playCost : ℕ
  start : Bool
  inEnd : Bool
  againPastTime : ℕ
  createTime : ℕ
  httpChannel : String
  roomType : RoomType
  startPlayCout : ℕ
  finishPlayCout : ℕ
  playCoutIdex : ℕ
  gameTypeIdex : ℕ
  gameRuleIdex : ℕ
  enterRoomScoreType : ℕ
  initEnterRoomScore : ℤ
  playerWinLose : ℕ → ℤ
  dismissPastTime : ℕ
  dismissChairID : List ℕ
  notAgreeChairID : List ℕ
  totalRecord : TotalRecord

/-- What the records of a table hold of its game, and how many chairs it
has. -/
structure TableAttrib where
  chairCount : ℕ
  kindID : ℕ
  clientVersion : ℕ

/-- The conversion of a score to `int`. -/
def toInt (score : ℤ) : ℤ := score.bmod (2 ^ 32)

namespace PrivateTableInfo

variable (attrib : TableAttrib) (info : PrivateTableInfo)

def restAgainValue : PrivateTableInfo :=
  { info with
    start := false
    inEnd := false
    dismissChairID := []
    notAgreeChairID := []
    dismissPastTime := 0
    finishPlayCout := 0
    startPlayCout := 0
    againPastTime := 0
    playerWinLose := fun _ => 0
    totalRecord :=
      { score := List.replicate attrib.chairCount 0
        userID := List.replicate attrib.chairCount 0
        nickName := List.replicate attrib.chairCount ""
        kindID := attrib.kindID
        version := attrib.clientVersion } }

/-- `restValue`. It has no line for the score type and the initial
score. -/
def restValue : PrivateTableInfo :=
  restAgainValue attrib
    { info with
      start := false
      inEnd := false
      playCoutIdex := 0
      gameTypeIdex := 0
      gameRuleIdex := 0
      roomType := .typePrivate
      playCout := 0
      roomNum := 0
      createrUserID := 0
      dismissPastTime := 0
      createTime := 0
      finishPlayCout := 0
      startPlayCout := 0
      playCost := 0
      againPastTime := 0
      httpChannel := "" }

/-- `PrivateTableInfo()` with `BindTableFrame`. What the memory held for
the score type and the initial score stays there. -/
def construct (enterRoomScoreType : ℕ) (initEnterRoomScore : ℤ) : PrivateTableInfo :=
  restValue attrib
    { createrUserID := 0, roomNum := 0, playCout := 0, playCost := 0, start := false
      inEnd := false, againPastTime := 0, createTime := 0, httpChannel := "", roomType := .typePrivate
      startPlayCout := 0, finishPlayCout := 0, playCoutIdex := 0, gameTypeIdex := 0
      gameRuleIdex := 0, enterRoomScoreType, initEnterRoomScore, playerWinLose := fun _ => 0
      dismissPastTime := 0, dismissChairID := [], notAgreeChairID := [], totalRecord := {} }

/-- `newRandChild`. The users are those at the chairs, in order. -/
def newRandChild (users : List (UserID × String)) (time : ℕ) : PrivateTableInfo :=
  { info with totalRecord := { info.totalRecord with
      userID := users.map fun u => (u.1 : ℕ)
      nickName := users.map Prod.snd
      recordChild := info.totalRecord.recordChild ++
        [{ kindID := attrib.kindID, version := attrib.clientVersion
           score := List.replicate attrib.chairCount 0, playTime := time }] } }

def setRoomNum (roomNum : ℕ) : PrivateTableInfo :=
  { info with roomNum, totalRecord := { info.totalRecord with roomNum := toInt roomNum } }

/-- Scores are added up, as far as there are any. -/
def addScores : List ℤ → List ℤ → List ℤ
  | s :: ss, l :: ls => toInt (s + toInt l) :: addScores ss ls
  | ss, _ => ss

def writeSocre (lScore : List ℤ) (time : ℕ) : PrivateTableInfo :=
  match info.totalRecord.recordChild.reverse with
  | [] => info
  | child :: rest =>
      if child.score.length < lScore.length then info
      else
        { info with
          playerWinLose := fun i => info.playerWinLose i + lScore.getD i 0
          totalRecord := { info.totalRecord with
            score := addScores info.totalRecord.score lScore
            recordChild := (rest.reverse ++
              [{ child with score := addScores child.score lScore, playTime := time }]) } }

def isCardAARule : Bool := info.gameRuleIdex.testBit 0

def isEveryTimeRoomScoreType : Bool := info.enterRoomScoreType.testBit 2

def isSetOneTimeRoomScoreType : Bool := info.enterRoomScoreType.testBit 1

/-- `IsCanJoinTable`, where the rule is that no two users have the same
address. -/
def isCanJoinTable (clientAddr : ℕ) (seated : List ℕ) : Bool :=
  !(info.gameRuleIdex.testBit 31 && decide (clientAddr ∈ seated))

end PrivateTableInfo

end GameServer.PrivateService
