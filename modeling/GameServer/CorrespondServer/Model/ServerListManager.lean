import GameServer.CorrespondServer.Model.AttemperEngineSink
/-!
# CorrespondServer — `CServerListManager`

The list of rooms a game server keeps from what the coordination server
sends, and the game servers with their connections. A game server keeps
its list over a new connection.
-/

namespace GameServer.CorrespondServer

open KernelEngine (loWord)

/-- `CGameKindItem`, with the counts of `tagGameKind`. -/
structure GameKindItem where
  onLineCount : ℕ := 0
  fullCount : ℕ := 0

structure GameServerItem where
  disuse : Bool := false
  gameServer : TagGameServer := {}

structure ServerListManager where
  kindItemMap : Map ℕ GameKindItem := ∅
  serverItemMap : Map ℕ GameServerItem := ∅

namespace ServerListManager

/-- A kind, where it is listed. -/
def modifyKind (l : ServerListManager) (kindID : ℕ) (f : GameKindItem → GameKindItem) :
    ServerListManager :=
  match l.kindItemMap.lookup kindID with
  | none => l
  | some item => { l with kindItemMap := l.kindItemMap.insert kindID (f item) }

def enterKind (onLineCount fullCount : ℕ) (item : GameKindItem) : GameKindItem :=
  { onLineCount := dword (item.onLineCount + onLineCount)
    fullCount := dword (item.fullCount + fullCount) }

def leaveKind (onLineCount fullCount : ℕ) (item : GameKindItem) : GameKindItem :=
  { onLineCount := dword (item.onLineCount + 2 ^ 32 - onLineCount)
    fullCount := dword (item.fullCount + 2 ^ 32 - fullCount) }

def searchGameServer (l : ServerListManager) (serverID : ℕ) : Option GameServerItem :=
  l.serverItemMap.lookup serverID

def disuseServerItem (l : ServerListManager) : ServerListManager :=
  { l with serverItemMap := Map.mapValues l.serverItemMap fun item =>
      { item with disuse := true } }

/-- 设置人数, when a room is inserted under its former counts. -/
def countKind (l : ServerListManager) (last gameServer : TagGameServer) : ServerListManager :=
  let enter := enterKind gameServer.onLineCount gameServer.fullCount
  let leave := leaveKind last.onLineCount last.fullCount
  if last.kindID ≠ gameServer.kindID then
    (if last.kindID ≠ 0 then l.modifyKind last.kindID leave else l).modifyKind
      gameServer.kindID enter
  else l.modifyKind last.kindID fun item => enter (leave item)

def insertGameServer (l : ServerListManager) (gameServer : TagGameServer) : ServerListManager :=
  let item := (l.searchGameServer gameServer.serverID).getD {}
  let l := l.countKind item.gameServer gameServer
  { l with serverItemMap :=
      l.serverItemMap.insert gameServer.serverID { disuse := false, gameServer } }

/-- 删除数据 of a room. -/
def removeServerItem (l : ServerListManager) (serverID : ℕ) (item : GameServerItem) :
    ServerListManager :=
  { l with serverItemMap := l.serverItemMap.erase serverID }.modifyKind item.gameServer.kindID
    (leaveKind item.gameServer.onLineCount item.gameServer.fullCount)

def deleteGameServer (l : ServerListManager) (serverID : ℕ) : ServerListManager :=
  match l.searchGameServer serverID with
  | none => l
  | some item => l.removeServerItem serverID item

def cleanServerItem (l : ServerListManager) : ServerListManager :=
  l.serverItemMap.entries.foldl
    (fun l entry => if entry.2.disuse then l.removeServerItem entry.1 entry.2 else l) l

/-- A room that is listed is changed. -/
def modifyServer (l : ServerListManager) (serverID : ℕ) (f : TagGameServer → TagGameServer) :
    ServerListManager :=
  match l.searchGameServer serverID with
  | none => l
  | some item =>
      { l with serverItemMap :=
          l.serverItemMap.insert serverID { item with gameServer := f item.gameServer } }

/-- 设置房间: the kind and the robots are not among it. -/
def setModify (nodeID : ℕ) (m : ServerModify) (g : TagGameServer) : TagGameServer :=
  { g with
    nodeID, sortID := m.sortID, serverPort := m.serverPort, onLineCount := m.onLineCount
    fullCount := m.fullCount, serverName := m.serverName, serverAddr := m.serverAddr }

/-- `OnTCPSocketMainServiceInfo`; the other messages are not about the
list. -/
def onServiceInfo (l : ServerListManager) : Message → ServerListManager
  | .serverInfo => l.disuseServerItem
  | .serverOnLine serverID onLineCount _ =>
      l.modifyServer serverID fun g => { g with onLineCount }
  | .serverInsert servers => servers.foldl insertGameServer l
  | .serverModify nodeID serverID modify => l.modifyServer serverID (setModify nodeID modify)
  | .serverRemove serverID => l.deleteGameServer serverID
  | .serverFinish => l.cleanServerItem
  | .registerFailure .. | .matchInsert _ | .collectRequest => l

end ServerListManager

/-! ## The game servers -/

/-- A game server: its list, the index of its connection at the
coordination server, and how many messages from there it has processed. -/
structure GameNode where
  list : ServerListManager := {}
  connection : Option ℕ := none
  processed : ℕ := 0

/-- The coordination server and the game servers. -/
structure Cluster where
  system : System
  nodes : ℕ → GameNode := fun _ => {}

/-- What happens: an event at the coordination server, or at a game
server. -/
inductive ClusterEvent
  | network (event : NetworkEvent)
  | connect (node socketID clientAddr activeTime : ℕ)
  | process (node : ℕ)
  | disconnect (node : ℕ)

namespace Cluster

/-- A connection that is shut is lost at the game server, too. -/
def lose (s : Cluster) (i : ℕ) : Cluster :=
  { s with nodes := fun n =>
      if (s.nodes n).connection = some i then { s.nodes n with connection := none } else s.nodes n }

/-- A game server is changed. -/
def setNode (s : Cluster) (n : ℕ) (node : GameNode) : Cluster :=
  { s with nodes := Function.update s.nodes n node }

/-- One event. A game server has one connection at a time; the server may
notice that it has gone later than the game server does. -/
def step : TotalMachine Cluster ClusterEvent Send
  | s, .network event =>
      let r := System.step s.system event
      match event with
      | .shut i => ({ s with system := r.1 }.lose i, r.2)
      | _ => ({ s with system := r.1 }, r.2)
  | s, .connect n socketID clientAddr activeTime =>
      let r := System.step s.system (.accept socketID clientAddr activeTime)
      if (s.nodes n).connection = none ∧ (s.system.net (loWord socketID)).isNone ∧
          (r.1.net (loWord socketID)).isSome then
        ({ s with system := r.1 }.setNode n
          { list := (s.nodes n).list, connection := some (loWord socketID) }, r.2)
      else (s, [])
  | s, .process n =>
      match (s.nodes n).connection.bind s.system.net with
      | none => (s, [])
      | some c =>
          match c.sent[(s.nodes n).processed]? with
          | none => (s, [])
          | some message =>
              (s.setNode n { s.nodes n with
                list := (s.nodes n).list.onServiceInfo message
                processed := (s.nodes n).processed + 1 }, [])
  | s, .disconnect n => (s.setNode n { s.nodes n with connection := none }, [])

def start (maxConnect : ℕ) : Cluster := { system := System.start maxConnect }

end Cluster

end GameServer.CorrespondServer
