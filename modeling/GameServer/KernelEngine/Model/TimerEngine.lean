import GameServer.Common.Memory
import GameServer.Common.Run
/-!
# KernelEngine — the timers

`CTimerEngine` keeps its timers in an array of active items and an array
of items that are free to use again. The timer thread calls
`OnTimerThreadSink`, which posts an event for each item whose time has
come. A time is a tick count in milliseconds and has 32 bits.

The time a step is taken at is a number without a bound; what
`GetTickCount` gives is what 32 bits keep of it. An item has a field that
the source does not have: `due` records the time that `dwDestTime` stands
for, and so does the event posted. Nothing is decided by it.
-/

namespace GameServer.KernelEngine

def timesInfinity : ℕ := 2 ^ 32 - 1

def timerSpace : ℕ := 25

def timerLead : ℕ := timerSpace * 20

/-- `tagTimerItem`, at an address. -/
structure TimerItem where
  address : ℕ
  wTimerID : ℕ
  elapse : ℕ
  destTime : ℕ
  repeatTimes : ℕ
  wBindParam : ℕ
  /-- Recorded: the time `dwDestTime` stands for. -/
  due : ℕ
  deriving DecidableEq, Repr

structure TimerEngine where
  timerItemFree : List TimerItem := []
  timerItemActive : List TimerItem := []
  /-- The items made so far; the address of one is its number. -/
  made : ℕ := 0
  deriving DecidableEq, Repr

structure TimerPost where
  timerID : ℕ
  bindParameter : ℕ
  /-- Recorded: the time the item was due, and the time it is. -/
  due : ℕ
  now : ℕ
  deriving DecidableEq, Repr

namespace TimerItem

variable (item : TimerItem)

/-- What an item waits before its next event. The last of its events is
ahead of time. -/
def interval : ℕ :=
  if item.repeatTimes = 1 then
    if timerSpace + timerLead < item.elapse then item.elapse - timerLead else timerSpace
  else item.elapse

/-- `dwDestTime` moves on. -/
def rearm : TimerItem :=
  { item with
    destTime := dword (item.destTime + item.interval)
    due := item.due + item.interval }

/-- The count of what is left to repeat, after an event. -/
def countDown : TimerItem :=
  if item.repeatTimes = timesInfinity then item
  else { item with repeatTimes := item.repeatTimes - 1 }

end TimerItem

namespace TimerEngine

variable (s : TimerEngine)

/-- The search for a timer, from the last of the first `n` items. -/
def findTimer (active : List TimerItem) (timerID : ℕ) : ℕ → Option ℕ
  | 0 => none
  | i + 1 =>
      if (active[i]?).map TimerItem.wTimerID = some timerID then some i
      else findTimer active timerID i

/-- The index of a timer in `m_TimerItemActive`. -/
def findActive (timerID : ℕ) : Option ℕ :=
  findTimer s.timerItemActive timerID s.timerItemActive.length

/-- The parameters of a timer that is set at the time `now`. -/
def timerOf (now timerID elapse repeatTimes bindParameter address : ℕ) : TimerItem :=
  TimerItem.rearm
    { address, wTimerID := timerID, elapse := elapse - elapse % timerSpace,
      destTime := dword now, repeatTimes, wBindParam := bindParameter, due := now }

/-- `SetTimer`. `allocates` says that `new` gives an item if it is asked
for one. -/
def setTimer (now timerID elapse repeatTimes bindParameter : ℕ) (allocates : Bool) :
    TimerEngine × Bool :=
  let timer := timerOf now timerID elapse repeatTimes bindParameter
  if repeatTimes = 0 then (s, false)
  else
    match s.findActive timerID with
    | some i =>
        ({ s with timerItemActive := s.timerItemActive.modify i fun item => timer item.address },
          true)
    | none =>
        match s.timerItemFree.getLast? with
        | some item =>
            ({ s with
                timerItemFree := s.timerItemFree.eraseIdx (s.timerItemFree.length - 1)
                timerItemActive := s.timerItemActive ++ [timer item.address] }, true)
        | none =>
            if allocates then
              ({ s with
                  timerItemActive := s.timerItemActive ++ [timer s.made]
                  made := s.made + 1 }, true)
            else (s, false)

def freeAt (i : ℕ) (item : TimerItem) : TimerEngine :=
  { s with
    timerItemActive := s.timerItemActive.eraseIdx i
    timerItemFree := s.timerItemFree ++ [item] }

def killTimer (timerID : ℕ) : TimerEngine × Bool :=
  match s.findActive timerID with
  | some i =>
      match s.timerItemActive[i]? with
      | some item => (s.freeAt i item, true)
      | none => (s, false)
  | none => (s, false)

def killAllTimer : TimerEngine :=
  { s with timerItemFree := s.timerItemFree ++ s.timerItemActive, timerItemActive := [] }

/-- A turn of the loop in `OnTimerThreadSink`, for an item whose time has
come. -/
def fire (i : ℕ) (item : TimerItem) : TimerEngine :=
  let item := item.countDown
  if item.repeatTimes = 0 then s.freeAt i item
  else { s with timerItemActive := s.timerItemActive.set i item.rearm }

/-- The loop of `OnTimerThreadSink` over the first `n` items, from the
last of them. -/
def sinkLoop (now : ℕ) : ℕ → TimerEngine → TimerEngine × List TimerPost
  | 0, s => (s, [])
  | i + 1, s =>
      match s.timerItemActive[i]? with
      | none => (s, [])
      | some item =>
          if item.destTime ≤ dword now then
            let (s, posts) := sinkLoop now i (s.fire i item)
            (s, ⟨item.wTimerID, item.wBindParam, item.due, now⟩ :: posts)
          else sinkLoop now i s

def onTimerThreadSink (now : ℕ) : TimerEngine × List TimerPost :=
  sinkLoop now s.timerItemActive.length s

/-- What is done with the engine, and when. -/
inductive TimerStep where
  /-- `SetTimer`. -/
  | setTimer (now timerID elapse repeatTimes bindParameter : ℕ) (allocates : Bool)
  /-- `KillTimer`. -/
  | killTimer (timerID : ℕ)
  /-- `KillAllTimer`. -/
  | killAllTimer
  /-- `OnTimerThreadSink`. -/
  | onTimerThreadSink (now : ℕ)
  deriving DecidableEq, Repr

def step : TotalMachine TimerEngine TimerStep TimerPost := fun s e =>
  match e with
  | .setTimer now timerID elapse repeatTimes bindParameter allocates =>
      ((s.setTimer now timerID elapse repeatTimes bindParameter allocates).1, [])
  | .killTimer timerID => ((s.killTimer timerID).1, [])
  | .killAllTimer => (s.killAllTimer, [])
  | .onTimerThreadSink now => s.onTimerThreadSink now

end TimerEngine

end GameServer.KernelEngine
