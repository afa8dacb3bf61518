import GameServer.OxBattle.Model.TableFrameSink
/-!
# Ox battle — the end of a round, in full

`ConcludeGame` also stands up players when the room closes and robots that
wait to leave, and the sink reads its configuration again before it
changes the banker. Both matter to the queue of applications only, so the
table that has them is a machine of its own.
-/

namespace GameServer.OxBattle

namespace Table

variable {n : ℕ} (cfg : RoomConfig) (leaves : Fin n → Bool) (s : Table n)

/-- The second loop of `ConcludeGame`: too little score, a closed room or a
robot that waits to leave. -/
def expelOrLeave (c : Fin n) : Table n :=
  match s.tableUserItem c with
  | none => s
  | some u =>
      if cfg.lMinTableScore ≠ 0 ∧ u.lScore < cfg.lMinTableScore then s.onActionUserStandUp cfg c
      else if leaves c then s.onActionUserStandUp cfg c
      else s

def concludeAll : Table n :=
  let s := (List.finRange n).foldl (concludeUser cfg) { s with gameStatus := .free }
  (List.finRange n).foldl (expelOrLeave cfg leaves) s.repositionSink

/-- `IDI_GAME_END`, with the configuration that is read in it. -/
def onTimerGameEndAll (refreshed : RoomConfig) : Table n × List (Output n) :=
  let w := s.writeTableScore fun c =>
    if (s.tableUserItem c).isSome && s.queryBuckleServiceCharge c then some (s.scoreInfo c)
    else none
  ((w.1.concludeAll cfg leaves).changeBanker refreshed, w.2)

end Table

inductive QueueEvent (n : ℕ) where
  | table (cfg : RoomConfig) (e : Event n)
  /-- `IDI_GAME_END`: who is stood up, and the configuration that is
  read. -/
  | gameEnd (cfg refreshed : RoomConfig) (leaves : Fin n → Bool)

def Table.queueStep {n : ℕ} : TotalMachine (Table n) (QueueEvent n) (Output n)
  | s, .table cfg e => Table.step cfg s e
  | s, .gameEnd cfg refreshed leaves =>
      if s.jettonTime = true ∧ s.gameStatus = .gameEnd then
        s.onTimerGameEndAll cfg leaves refreshed
      else (s, [])

end GameServer.OxBattle
