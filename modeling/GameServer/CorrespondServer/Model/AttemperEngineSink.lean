import GameServer.CorrespondServer.Model.GlobalInfoManager
import GameServer.KernelEngine.Model.SocketItem
/-!
# CorrespondServer — `CAttemperEngineSink`

The coordination server: the bindings of its connections, the directory,
the collection of users room by room, and what it sends. The connections
are as the network engine keeps them, each with its traffic, latest last;
what the sink sends goes through one queue.
-/

namespace GameServer.CorrespondServer

open KernelEngine (loWord)

/-! ## Messages -/

/-- `CMD_CS_C_RegisterServer`. -/
structure RegisterServer where
  kindID : ℕ := 0
  sortID : ℕ := 0
  serverID : ℕ := 0
  serverKind : ℕ := 0
  serverType : ℕ := 0
  serverPort : ℕ := 0
  cellScore : ℤ := 0
  enterScore : ℤ := 0
  onLineCount : ℕ := 0
  fullCount : ℕ := 0
  serverRule : ℕ := 0
  serverAddr : String := ""
  serverName : String := ""
  deriving DecidableEq

/-- 构造数据 of a registration: it has no node and no robots. -/
def RegisterServer.gameServer (r : RegisterServer) : TagGameServer :=
  { kindID := r.kindID, sortID := r.sortID, serverID := r.serverID, serverKind := r.serverKind
    serverType := r.serverType, serverPort := r.serverPort, cellScore := r.cellScore
    enterScore := r.enterScore, serverRule := r.serverRule, onLineCount := r.onLineCount
    fullCount := r.fullCount, serverName := r.serverName, serverAddr := r.serverAddr }

/-- `CMD_CS_C_ServerModify`. -/
structure ServerModify where
  sortID : ℕ := 0
  kindID : ℕ := 0
  serverPort : ℕ := 0
  onLineCount : ℕ := 0
  androidCount : ℕ := 0
  fullCount : ℕ := 0
  serverAddr : String := ""
  serverName : String := ""
  deriving DecidableEq

/-- What `SUB_CS_C_SERVER_MODIFY` writes in the room. -/
def ServerModify.write (m : ServerModify) (g : TagGameServer) : TagGameServer :=
  { g with
    sortID := m.sortID, kindID := m.kindID, serverPort := m.serverPort
    onLineCount := m.onLineCount, androidCount := m.androidCount, fullCount := m.fullCount
    serverName := m.serverName, serverAddr := m.serverAddr }

/-- What a connection asks. -/
inductive Request
  | registerPlaza (serverName serverAddr : String)
  | registerServer (register : RegisterServer)
  | registerMatch (gameMatch : GameMatch)
  | serverOnLine (onLineCount androidCount : ℕ)
  | serverModify (modify : ServerModify)
  | userEnter (info : GlobalUserInfo)
  | userLeave (userID : ℕ)
  | userFinish

/-- What the server answers. -/
inductive Message
  | registerFailure (errorCode : ℤ) (describeString : String)
  | serverInfo
  | serverInsert (servers : List TagGameServer)
  | serverFinish
  | serverOnLine (serverID onLineCount androidCount : ℕ)
  | serverModify (nodeID serverID : ℕ) (modify : ServerModify)
  | serverRemove (serverID : ℕ)
  | matchInsert (gameMatches : List GameMatch)
  | collectRequest
  deriving DecidableEq

/-- What is put in the send queue of the engine. -/
inductive Send
  | data (socketID : ℕ) (message : Message)
  | batch (message : Message)
  | shutDown (socketID : ℕ)
  | allowBatch (socketID : ℕ) (allow : Bool)

/-! ## The sink -/

inductive ServiceKind
  | none
  | game
  | plaza
  deriving DecidableEq

structure BindParameter where
  socketID : ℕ := 0
  clientAddr : ℕ := 0
  activeTime : ℕ := 0
  serviceID : ℕ := 0
  serviceKind : ServiceKind := .none

/-- `CAttemperEngineSink`; no room collecting is `INVALID_WORD`. -/
structure Sink where
  maxConnect : ℕ
  bindParameter : ℕ → BindParameter := fun _ => {}
  collectItem : Option ℕ := none
  waitCollectItemArray : List ℕ := []
  globalInfoManager : Manager := {}

/-- What a handler leaves: the sink, what it sends and its result, where
false has the engine close the connection. -/
structure Reply where
  sink : Sink
  sends : List Send := []
  ret : Bool := true

namespace Sink

/-- 设置绑定. -/
def setBind (k : Sink) (i : ℕ) (f : BindParameter → BindParameter) : Sink :=
  { k with bindParameter := Function.update k.bindParameter i (f (k.bindParameter i)) }

/-! ## Lists -/

def socketTCPPacket : ℕ := 16376

def sizeofGameServer : ℕ := 174

def sizeofGameMatch : ℕ := 123

def enumServerItem (k : Sink) : List GlobalServerItem :=
  k.globalInfoManager.mapServerID.values.map k.globalInfoManager.server

/-- 收集数据: the entries of the rooms in packets, with what the buffer
holds. The matches are measured with the size of a room, too. -/
def packets {α : Type} (itemSize : ℕ) (entry : GlobalServerItem → Option α)
    (insert : List α → Message) : List α → List GlobalServerItem → List Message
  | buffer, [] => if buffer.isEmpty then [] else [insert buffer]
  | buffer, item :: rest =>
      if socketTCPPacket < buffer.length * itemSize + sizeofGameServer then
        insert buffer :: packets itemSize entry insert (entry item).toList rest
      else packets itemSize entry insert (buffer ++ (entry item).toList) rest

def serverListItem (k : Sink) : List Message :=
  .serverInfo :: (packets sizeofGameServer (fun i => some i.gameServer) .serverInsert []
    k.enumServerItem ++ [.serverFinish])

def sendServerListItem (k : Sink) (socketID : ℕ) : List Send :=
  k.serverListItem.map (.data socketID)

def matchListItem (k : Sink) : List Message :=
  packets sizeofGameMatch (fun i => if i.isMatchServer then some i.gameMatch else none)
    .matchInsert [] k.enumServerItem

def sendMatchListItem (k : Sink) (socketID : ℕ) : List Send :=
  k.matchListItem.map (.data socketID)

/-! ## Registration -/

/-- A refused registration. The engine does not close the socket for it. -/
def registerFailure (k : Sink) (socketID : ℕ) (describeString : String) : Reply :=
  { sink := k
    sends := [.data socketID (.registerFailure 0 describeString), .shutDown socketID] }

/-- `SUB_CS_C_REGISTER_PLAZA`. -/
def registerPlaza (k : Sink) (socketID : ℕ) (serverName serverAddr : String) : Reply :=
  if serverName = "" ∨ serverAddr = "" then
    k.registerFailure socketID "服务器注册失败，“服务地址”与“服务器名”不合法！"
  else
    let bindIndex := loWord socketID
    let k := k.setBind bindIndex fun p => { p with serviceID := bindIndex, serviceKind := .plaza }
    let gamePlaza : GamePlaza := { plazaID := bindIndex, serverName, serverAddr }
    let k := { k with
      globalInfoManager := (k.globalInfoManager.activePlazaItem bindIndex gamePlaza true).2 }
    { sink := k
      sends := k.sendServerListItem socketID ++ k.sendMatchListItem socketID ++
        [.allowBatch socketID true] }

/-- 注册房间, up to the collection. -/
def enterServer (k : Sink) (bindIndex : ℕ) (register : RegisterServer) : Sink :=
  let k := k.setBind bindIndex fun p =>
    { p with serviceID := register.serverID, serviceKind := .game }
  { k with globalInfoManager :=
      (k.globalInfoManager.activeServerItem bindIndex register.gameServer true).2 }

/-- `SUB_CS_C_REGISTER_SERVER`. -/
def registerServer (k : Sink) (socketID : ℕ) (register : RegisterServer) : Reply :=
  if (k.globalInfoManager.searchServerItem register.serverID).isSome then
    k.registerFailure socketID "已经存在相同标识的游戏房间服务，房间服务注册失败"
  else
    let bindIndex := loWord socketID
    let k := k.enterServer bindIndex register
    let sends := .batch (.serverInsert [register.gameServer]) :: k.sendServerListItem socketID ++
      k.sendMatchListItem socketID ++ [.allowBatch socketID true]
    if k.collectItem = none then
      { sink := { k with collectItem := some bindIndex }
        sends := sends ++ [.data socketID .collectRequest] }
    else
      { sink := { k with waitCollectItemArray := k.waitCollectItemArray ++ [bindIndex] }, sends }

/-- `SUB_CS_C_REGISTER_MATCH`. -/
def registerMatch (k : Sink) (gameMatch : GameMatch) : Reply :=
  match k.globalInfoManager.searchServerItem gameMatch.serverID with
  | none => { sink := k }
  | some _ =>
      { sink := { k with globalInfoManager := k.globalInfoManager.setMatch gameMatch }
        sends := [.batch (.matchInsert [gameMatch])] }

/-! ## Rooms -/

/-- The room of a game connection, and nothing for the others. -/
def ofGame (k : Sink) (socketID : ℕ) (f : ℕ → Reply) : Reply :=
  if (k.bindParameter (loWord socketID)).serviceKind = .game then
    f (k.bindParameter (loWord socketID)).serviceID
  else { sink := k, ret := false }

/-- A change of a room in the directory and its notice. -/
def setServer (k : Sink) (serverID : ℕ) (f : TagGameServer → TagGameServer) (notice : Message) :
    Reply :=
  match k.globalInfoManager.searchServerItem serverID with
  | none => { sink := k }
  | some a =>
      { sink := { k with globalInfoManager := { k.globalInfoManager with
          servers := k.globalInfoManager.servers.modify a fun i =>
            { i with gameServer := f i.gameServer } } }
        sends := [.batch notice] }

/-- `SUB_CS_C_SERVER_ONLINE`. -/
def serverOnLine (k : Sink) (socketID onLineCount androidCount : ℕ) : Reply :=
  k.ofGame socketID fun serverID =>
    k.setServer serverID (fun g => { g with androidCount, onLineCount })
      (.serverOnLine serverID onLineCount androidCount)

/-- `SUB_CS_C_SERVER_MODIFY`; the notice has no node. -/
def serverModify (k : Sink) (socketID : ℕ) (modify : ServerModify) : Reply :=
  k.ofGame socketID fun serverID =>
    k.setServer serverID modify.write (.serverModify 0 serverID modify)

/-! ## Users -/

/-- `SUB_CS_C_USER_ENTER`. -/
def userEnter (k : Sink) (socketID : ℕ) (info : GlobalUserInfo) : Reply :=
  k.ofGame socketID fun serverID =>
    { sink := { k with globalInfoManager :=
        (k.globalInfoManager.activeUserItem info serverID true).2 } }

/-- `SUB_CS_C_USER_LEAVE`. -/
def userLeave (k : Sink) (socketID userID : ℕ) : Reply :=
  k.ofGame socketID fun serverID =>
    { sink := { k with globalInfoManager :=
        (k.globalInfoManager.deleteUserItem userID serverID).2 } }

/-- 汇总切换: the room that has waited last collects next. -/
def switchCollect (k : Sink) : Reply :=
  match k.waitCollectItemArray.getLast? with
  | none => { sink := { k with collectItem := none } }
  | some i =>
      { sink := { k with
          collectItem := some i, waitCollectItemArray := k.waitCollectItemArray.dropLast }
        sends := [.data (k.bindParameter i).socketID .collectRequest] }

/-- `SUB_CS_C_USER_FINISH`. -/
def userFinish (k : Sink) (socketID : ℕ) : Reply :=
  if k.collectItem = some (loWord socketID) ∧
      (k.bindParameter (loWord socketID)).serviceKind = .game then k.switchCollect
  else { sink := k, ret := false }

/-! ## Events -/

def onEventTCPNetworkBind (k : Sink) (socketID clientAddr activeTime : ℕ) : Reply :=
  if k.maxConnect ≤ loWord socketID then { sink := k, ret := false }
  else { sink := k.setBind (loWord socketID) fun p => { p with socketID, clientAddr, activeTime } }

def onEventTCPNetworkRead (k : Sink) (socketID : ℕ) : Request → Reply
  | .registerPlaza serverName serverAddr => k.registerPlaza socketID serverName serverAddr
  | .registerServer register => k.registerServer socketID register
  | .registerMatch gameMatch => k.registerMatch gameMatch
  | .serverOnLine onLineCount androidCount => k.serverOnLine socketID onLineCount androidCount
  | .serverModify modify => k.serverModify socketID modify
  | .userEnter info => k.userEnter socketID info
  | .userLeave userID => k.userLeave socketID userID
  | .userFinish => k.userFinish socketID

/-- 汇总处理 of a room that goes. -/
def leaveCollect (k : Sink) (bindIndex : ℕ) : Reply :=
  if k.collectItem = some bindIndex then k.switchCollect
  else { sink := { k with waitCollectItemArray := k.waitCollectItemArray.erase bindIndex } }

def onEventTCPNetworkShut (k : Sink) (socketID : ℕ) : Reply :=
  let bindIndex := loWord socketID
  let serviceID := (k.bindParameter bindIndex).serviceID
  let r : Reply := match (k.bindParameter bindIndex).serviceKind with
    | .game =>
        let r := k.leaveCollect bindIndex
        { sink := { r.sink with globalInfoManager :=
            (r.sink.globalInfoManager.deleteServerItem serviceID).2 }
          sends := r.sends ++ [.batch (.serverRemove serviceID)] }
    | .plaza => { sink := { k with globalInfoManager :=
        (k.globalInfoManager.deletePlazaItem serviceID).2 } }
    | .none => { sink := k }
  { sink := r.sink.setBind bindIndex fun _ => {}, sends := r.sends, ret := false }

end Sink

/-! ## Connections -/

/-- An entry of the traffic of a connection. -/
inductive Traffic
  | sent (message : Message)
  | received (request : Request)

structure Connection where
  socketID : ℕ
  recvPacketCount : ℕ := 0
  allowBatch : Bool := true
  traffic : List Traffic := []

namespace Connection

def log (c : Connection) (t : Traffic) : Connection := { c with traffic := c.traffic ++ [t] }

/-- What the engine does with an entry of its queue, at one connection. It
sends nothing before the first packet from there, the socket 0 stands for
all, and `ShutDownSocket` does nothing. -/
def take (c : Connection) : Send → Connection
  | .data socketID message =>
      if (if socketID = 0 then c.allowBatch = true else c.socketID = socketID) ∧
          0 < c.recvPacketCount then c.log (.sent message)
      else c
  | .batch message =>
      if c.allowBatch = true ∧ 0 < c.recvPacketCount then c.log (.sent message) else c
  | .shutDown _ => c
  | .allowBatch socketID allow =>
      if c.socketID = socketID then { c with allowBatch := allow } else c

def sent (c : Connection) : List Message :=
  c.traffic.filterMap fun
    | .sent message => some message
    | .received _ => none

end Connection

/-- The coordination server and its connections. -/
structure System where
  sink : Sink
  net : ℕ → Option Connection := fun _ => none

/-- What happens at the engine. -/
inductive NetworkEvent
  | accept (socketID clientAddr activeTime : ℕ)
  | packet (index : ℕ)
  | read (index : ℕ) (request : Request)
  | shut (index : ℕ)

namespace System

def post (s : System) (r : Reply) : System :=
  { sink := r.sink, net := fun i => (s.net i).map fun c => r.sends.foldl Connection.take c }

def setConnection (s : System) (i : ℕ) (c : Option Connection) : System :=
  { s with net := Function.update s.net i c }

/-- One event. A socket is accepted where its index is free, and a request
is read from a connection a packet has come from; other events are none. -/
def step : TotalMachine System NetworkEvent Send
  | s, .accept socketID clientAddr activeTime =>
      let r := s.sink.onEventTCPNetworkBind socketID clientAddr activeTime
      if (s.net (loWord socketID)).isNone ∧ r.ret = true then
        ((s.setConnection (loWord socketID) (some { socketID })).post r, r.sends)
      else (s, [])
  | s, .packet i =>
      match s.net i with
      | none => (s, [])
      | some c =>
          (s.setConnection i (some { c with recvPacketCount := c.recvPacketCount + 1 }), [])
  | s, .read i request =>
      match s.net i with
      | none => (s, [])
      | some c =>
          if c.recvPacketCount = 0 then (s, [])
          else
            let r := s.sink.onEventTCPNetworkRead c.socketID request
            ((s.setConnection i (some (c.log (.received request)))).post r, r.sends)
  | s, .shut i =>
      match s.net i with
      | none => (s, [])
      | some c =>
          let r := s.sink.onEventTCPNetworkShut c.socketID
          ((s.setConnection i none).post r, r.sends)

/-- `OnAttemperEngineStart`, for as many connections as the service takes. -/
def start (maxConnect : ℕ) : System := { sink := { maxConnect } }

end System

end GameServer.CorrespondServer
