import GameServer.Common.Memory
import GameServer.Common.Run
/-!
# MatchService — when a timed match is played

`CLockTimeMatch` is played every day from the time of day of its start to
that of its end, on the days from its start to its end. The service asks
how long it is to the next play, sets a timer for it, and while it plays
it looks at the clock every five seconds.

Times are seconds of the local clock, counted from a midnight, and the
timers count milliseconds of the same clock. A timer is handled at the
moment it is due.
-/

namespace GameServer.MatchService

/-- The times of `m_pMatchOption->MatchType.LockTime`. -/
structure LockTime where
  matchStartTime : ℕ
  matchEndTime : ℕ
  deriving DecidableEq, Repr

/-- `wHour*3600+wMinute*60+wSecond` of a time. -/
def timeOfDay (time : ℕ) : ℕ := time % (24 * 3600)

/-- `emMatchStatus`. -/
inductive LockTimeStatus
  | free
  | playing
  | ended
  deriving DecidableEq, Repr

namespace LockTime

variable (o : LockTime)

def startStamp : ℕ := timeOfDay o.matchStartTime

def endStamp : ℕ := timeOfDay o.matchEndTime

/-- `GetMatchStartInterval` at a time. The differences of the stamps are
those of `DWORD`s: they come out right where one of them is negative. -/
def getMatchStartInterval (curTime : ℕ) : ℕ :=
  let interval := 1
  let interval :=
    if curTime < o.matchStartTime then dword (o.matchStartTime - curTime) else interval
  let interval := if o.matchEndTime ≤ curTime then 0 else interval
  let currStamp := timeOfDay curTime
  let interval := if currStamp < o.startStamp then o.startStamp - currStamp else interval
  if o.endStamp ≤ currStamp then 24 * 3600 + o.startStamp - currStamp else interval

def verifyMatchTime (curTime : ℕ) : Bool :=
  if o.matchEndTime ≤ curTime then false
  else if o.endStamp ≤ timeOfDay curTime then false
  else true

/-- The match is to be played at a time. -/
def Open (time : ℕ) : Prop :=
  o.matchStartTime ≤ time ∧ time < o.matchEndTime ∧
    o.startStamp ≤ timeOfDay time ∧ timeOfDay time < o.endStamp

instance (time : ℕ) : Decidable (o.Open time) := by
  unfold Open
  infer_instance

end LockTime

/-! ## The timers -/

/-- What `CLockTimeMatch` keeps of time: its status, when its timers
`IDI_CHECK_START_MATCH` and `IDI_CHECK_END_MATCH` are due, and the clock,
in milliseconds. -/
structure MatchClock where
  matchStatus : LockTimeStatus := .free
  checkStartMatch : Option ℕ := none
  checkEndMatch : Option ℕ := none
  now : ℕ
  deriving DecidableEq, Repr

/-- The time of `IDI_CHECK_END_MATCH`. -/
def checkEndSpace : ℕ := 5000

/-- Time goes on, or one of the two timers is handled. -/
inductive ClockEvent
  | elapse (milliseconds : ℕ)
  | checkStartMatch
  | checkEndMatch
  deriving DecidableEq, Repr

namespace MatchClock

variable (o : LockTime) (s : MatchClock)

/-- `CTime::GetCurrentTime`. -/
def curTime : ℕ := s.now / 1000

/-- `SetTimer` of `IDI_CHECK_START_MATCH` for the next play, if there is
one. The product is one of `DWORD`s. -/
def setCheckStart : MatchClock :=
  let startInterval := o.getMatchStartInterval s.curTime
  if startInterval > 0 then
    { s with checkStartMatch := some (s.now + dword (startInterval * 1000)) }
  else s

def initMatchInterface (now : ℕ) : MatchClock := setCheckStart o { now := now }

def onCheckStartMatch : MatchClock :=
  { s with
    matchStatus := .playing
    checkStartMatch := none
    checkEndMatch := some (s.now + checkEndSpace) }

def onCheckEndMatch : MatchClock :=
  if o.endStamp ≤ timeOfDay s.curTime then
    let s := { s with matchStatus := .ended, checkEndMatch := none }
    if o.matchEndTime ≤ s.curTime then s else s.setCheckStart o
  else { s with checkEndMatch := some (s.now + checkEndSpace) }

/-- No timer is due before a time. -/
def waits (time : ℕ) : Bool :=
  s.checkStartMatch.all (time ≤ ·) && s.checkEndMatch.all (time ≤ ·)

/-- Time stops at a timer that is due until it is handled. -/
def step : Machine MatchClock ClockEvent Unit := fun s event =>
  match event with
  | .elapse milliseconds =>
      if s.waits (s.now + milliseconds) then
        some ({ s with now := s.now + milliseconds }, [])
      else none
  | .checkStartMatch =>
      if s.checkStartMatch = some s.now then some (s.onCheckStartMatch, []) else none
  | .checkEndMatch =>
      if s.checkEndMatch = some s.now then some (s.onCheckEndMatch o, []) else none

end MatchClock

end GameServer.MatchService
