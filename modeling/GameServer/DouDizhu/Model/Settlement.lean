import GameServer.Common.Memory
import GameServer.DouDizhu.Model.TableFrameSink
/-!
# Dou Dizhu — the scores of a hand

`CTableFrameSink::OnEventGameConclude` where it writes scores: a hand that
was played out, and a player who leaves. A score is an integer; the
multiplier of a hand has 32 bits, that of a flight 16.
-/

namespace GameServer.DouDizhu

def gameGenreGold : UInt16 := 0x0001

def gameGenreMatch : UInt16 := 0x0004

def gameGenreEducate : UInt16 := 0x0008

def scoreGenrePositive : UInt16 := 0x0200

inductive ScoreType where
  | null
  | win
  | lose
  | flee
  deriving DecidableEq, Repr

/-- What the settlement reads of `tagGameServiceOption`, of
`tagCustomRule`, of the private frame and of the table frame. -/
structure ScoreRule where
  serverType : UInt16
  revenueRatio : UInt16
  offLineTrustee : Bool
  maxScoreTimes : UInt16
  fleeScoreTimes : UInt16
  fleeScorePatch : UInt8
  limitMultiple8 : Bool
  cellScore : ℤ

structure ScoreInfo where
  type : ScoreType := .null
  score : ℤ := 0
  revenue : ℤ := 0

/-- `CTableFrameSink` with what is counted for the scores. -/
structure ScoreSink where
  table : TableSink
  bombCount : UInt8
  outCardCount : Chair → UInt8

/-- The ends of a hand that write scores. `userScore` is what the user who
leaves has. -/
inductive Ending where
  | normal (chair : Chair)
  | userLeave (chair : Chair) (userScore : ℤ)

/-- Whether one of the bits of `genre` is in `wServerType`. -/
def ScoreRule.has (opt : ScoreRule) (genre : UInt16) : Bool := opt.serverType &&& genre ≠ 0

/-- `CTableFrame::CalculateRevenue`. -/
def calculateRevenue (opt : ScoreRule) (score : ℤ) : ℤ :=
  if 0 < opt.revenueRatio ∧ 0 ≤ score then (score * opt.revenueRatio.toNat).tdiv 1000 else 0

/-- A score and its revenue, which is taken off. -/
def charge (opt : ScoreRule) (type : ScoreType) (score : ℤ) : ScoreInfo :=
  let revenue := calculateRevenue opt score
  { type, revenue, score := if revenue > 0 then score - revenue else score }

namespace ScoreSink

/-- `lScoreTimes` of a hand that `chair` ended, with `bankerUser` as
banker. -/
def scoreTimes (opt : ScoreRule) (s : ScoreSink) (bankerUser chair : Chair) : ℤ :=
  let bombs := int32 (s.table.bankerScore * 2 ^ s.bombCount.toNat)
  let times :=
    if chair = bankerUser then
      if s.outCardCount (bankerUser + 1) = 0 ∧ s.outCardCount (bankerUser + 2) = 0 then
        int32 (bombs * 2)
      else bombs
    else if s.outCardCount bankerUser = 1 then int32 (bombs * 2)
    else bombs
  let times := min (opt.maxScoreTimes.toNat : ℤ) times
  if opt.limitMultiple8 then min 8 times else times

/-- `wTrusteeCount`: the peasants that are played for, in a match. -/
def trusteeCount (isMatch : Bool) (userTrustee : Chair → Bool) (bankerUser : Chair) : ℕ :=
  if isMatch then (List.finRange gamePlayer).countP fun i => i ≠ bankerUser ∧ userTrustee i = true
  else 0

/-- `lUserScore` in a hand that was played out: `out` says whether the
banker has no cards left. -/
def userScore (isMatch : Bool) (userTrustee : Chair → Bool) (bankerUser : Chair) (out : Bool)
    (i : Chair) : ℤ :=
  let count := trusteeCount isMatch userTrustee bankerUser
  if i = bankerUser then if out then 2 else -2
  else if out then
    if 0 < count then if userTrustee i then (-2 : ℤ).tdiv count else 0 else -1
  else if 0 < count then if userTrustee i then 0 else (2 : ℤ).tdiv count
  else 1

/-- `OnEventGameConclude` with `GER_NORMAL`. Without a banker it reads
behind `m_cbHandCardCount`. -/
def concludeNormal (opt : ScoreRule) (s : ScoreSink) (chair : Chair) : Option (Chair → ScoreInfo) :=
  s.table.bankerUser.map fun bankerUser i =>
    let unit := userScore (opt.has gameGenreMatch) s.table.userTrustee bankerUser
      (s.table.handCardCount bankerUser = 0) i
    let score := unit * opt.cellScore * s.scoreTimes opt bankerUser chair
    charge opt (if 0 ≤ score then .win else .lose) score

def leaveTimes (opt : ScoreRule) (s : ScoreSink) : ℕ :=
  min opt.maxScoreTimes.toNat (word (2 ^ s.bombCount.toNat))

/-- What one who leaves pays. -/
def fleeScore (opt : ScoreRule) (s : ScoreSink) (userScore : ℤ) : ℤ :=
  let score := opt.cellScore * (max (s.leaveTimes opt) opt.fleeScoreTimes.toNat : ℕ)
  if opt.has scoreGenrePositive ∨ opt.has (gameGenreGold ||| gameGenreEducate) then
    min userScore score
  else score

/-- `OnEventGameConclude` with `GER_USER_LEAVE`: `none` where the hand goes
on without him. -/
def concludeLeave (opt : ScoreRule) (s : ScoreSink) (chair : Chair) (userScore : ℤ) :
    Option (Chair → ScoreInfo) :=
  if opt.has gameGenreMatch ∧ opt.offLineTrustee = true then none
  else
    let score := s.fleeScore opt userScore
    some fun i =>
      if i = chair then { type := .flee, score := -score }
      else if opt.fleeScorePatch = 1 then charge opt .win (score.tdiv 2)
      else {}

/-- The scores `OnEventGameConclude` writes. -/
def settle (opt : ScoreRule) (s : ScoreSink) : Ending → Option (Chair → ScoreInfo)
  | .normal chair => s.concludeNormal opt chair
  | .userLeave chair userScore => s.concludeLeave opt chair userScore

end ScoreSink

end GameServer.DouDizhu
