import GameServer.KernelEngine.Model.QueueService
import GameServer.KernelEngine.Model.SocketItem
/-!
# KernelEngine — from a connection to the attemper engine

What an item reports, the engine posts as an event: `CQueueServiceEvent`
lays the event out in a buffer, header and payload, and adds it to a
queue of its own. The thread of that queue takes the events into its
buffer and hands each to `CAttemperEngine::OnQueueServiceSink`, which
reads it back and tells the sink.

The event structures are not packed: `NTY_TCPNetworkReadEvent` is twelve
bytes, two of them padding, where `TCP_Head` is eight. Buffer and thread
are as large as the largest packet.
-/

namespace GameServer.KernelEngine

open ServiceCore

/-- What the attemper engine's sink is told of the network. -/
inductive NetworkEvent where
  /-- `OnEventTCPNetworkBind`. -/
  | bind (clientAddr socketID : ℕ)
  /-- `OnEventTCPNetworkRead`. -/
  | read (command : TCPCommand) (data : List UInt8) (socketID : ℕ)
  /-- `OnEventTCPNetworkShut`. -/
  | shut (clientAddr activeTime socketID : ℕ)
  deriving DecidableEq, Repr

def eventTcpNetworkAccept : UInt16 := 7

def eventTcpNetworkRead : UInt16 := 8

def eventTcpNetworkShut : UInt16 := 9

/-- `sizeof(NTY_TCPNetworkAcceptEvent)`. -/
def sizeofAcceptEvent : ℕ := 8

/-- `sizeof(NTY_TCPNetworkReadEvent)`. -/
def sizeofReadEvent : ℕ := 12

/-- `sizeof(NTY_TCPNetworkShutEvent)`. -/
def sizeofShutEvent : ℕ := 12

/-! ## Posting -/

/-- `CQueueServiceEvent`: the queue and the buffer events are laid out
in. -/
structure QueueServiceEvent where
  queueService : QueueService := {}
  buffer : Memory := Memory.fresh

namespace QueueServiceEvent

variable (q : QueueServiceEvent)

/-- What all the posting functions do: the size is checked, the fields of
the header are stored at their offsets in the order given, the data
behind it, and all of it is added to the queue. -/
def post (identifier : UInt16) (headSize : ℕ) (fields : List (ℕ × List UInt8))
    (data : List UInt8) (alloc : Bool) : Option (QueueServiceEvent × Bool) :=
  if maxAsynchronismData < data.length + headSize then some (q, false)
  else
    let head := fields.foldl (fun m f => m.write f.1 f.2) q.buffer
    (if 0 < data.length then head.writeIn maxAsynchronismData headSize data
      else some head).bind fun buffer =>
    (q.queueService.addToQueue identifier (buffer.read 0 (headSize + data.length))
      (headSize + data.length) alloc).map fun queueService => (⟨queueService, buffer⟩, true)

def postNetworkAcceptEvent (socketID clientAddr : ℕ) (alloc : Bool) :
    Option (QueueServiceEvent × Bool) :=
  q.post eventTcpNetworkAccept sizeofAcceptEvent
    [(0, dwordBytes socketID), (4, dwordBytes clientAddr)] [] alloc

def postNetworkReadEvent (socketID : ℕ) (command : TCPCommand) (data : List UInt8)
    (alloc : Bool) : Option (QueueServiceEvent × Bool) :=
  q.post eventTcpNetworkRead sizeofReadEvent
    [(4, dwordBytes socketID),
     (8, wordBytes command.mainCmdID ++ wordBytes command.subCmdID),
     (0, wordBytes data.length)] data alloc

def postNetworkShutEvent (socketID clientAddr activeTime : ℕ) (alloc : Bool) :
    Option (QueueServiceEvent × Bool) :=
  q.post eventTcpNetworkShut sizeofShutEvent
    [(0, dwordBytes socketID), (8, dwordBytes activeTime), (4, dwordBytes clientAddr)] [] alloc

end QueueServiceEvent

/-! ## Reading back -/

/-- The network events of `CAttemperEngine::OnQueueServiceSink`. An event
of a wrong size is dropped. -/
def attemperEngineSink (identifier : UInt16) (buffer : Memory) (dataSize : ℕ) :
    Option NetworkEvent :=
  if identifier = eventTcpNetworkAccept then
    if dataSize ≠ sizeofAcceptEvent then none
    else some (.bind (buffer.dwordAt 4) (buffer.dwordAt 0))
  else if identifier = eventTcpNetworkRead then
    if dataSize < sizeofReadEvent then none
    else if dataSize ≠ sizeofReadEvent + buffer.wordAt 0 then none
    else
      some (.read ⟨buffer.wordAt 8, buffer.wordAt 10⟩
        (buffer.read sizeofReadEvent (buffer.wordAt 0)) (buffer.dwordAt 4))
  else if identifier = eventTcpNetworkShut then
    if dataSize ≠ sizeofShutEvent then none
    else some (.shut (buffer.dwordAt 4) (buffer.dwordAt 8) (buffer.dwordAt 0))
  else none

/-- `OnEventThreadRun` of the event queue. -/
def QueueService.runAttemper (qs : QueueService) : Option (QueueService × List NetworkEvent) :=
  if qs.posted = 0 then some (qs, [])
  else
    (getData { qs with posted := qs.posted - 1 }).map fun r =>
      (r.1, (r.2.bind fun head => attemperEngineSink head.identifier r.1.buffer head.dataSize).toList)

/-! ## The engine between the two -/

/-- The part of `CTCPNetworkEngine` that passes events on. -/
structure NetworkNotify where
  service : Bool := false
  queueServiceEvent : QueueServiceEvent := {}

/-- An item reports, or the thread of the queue takes a turn. `alloc` is
whether the queue can get memory. -/
inductive NotifyStep where
  | itemCall (call : ItemCall) (alloc : Bool)
  | threadRun

namespace NetworkNotify

variable (n : NetworkNotify)

/-- `OnSocketAcceptEvent`, `OnSocketReadEvent` and `OnSocketCloseEvent`,
as far as they post. What posting returns is not looked at. -/
def onItemCall (call : ItemCall) (alloc : Bool) : Option NetworkNotify :=
  if n.service = false then some n
  else
    (match call with
      | .acceptEvent socketID clientAddr =>
          (n.queueServiceEvent.postNetworkAcceptEvent socketID clientAddr alloc).map Prod.fst
      | .readEvent socketID command data =>
          (n.queueServiceEvent.postNetworkReadEvent socketID command data alloc).map Prod.fst
      | .closeEvent socketID clientAddr connectTime =>
          (n.queueServiceEvent.postNetworkShutEvent socketID clientAddr connectTime alloc).map
            Prod.fst
      | .wsaRecv | .wsaSend _ | .reset _ => some n.queueServiceEvent).map fun q =>
    { n with queueServiceEvent := q }

/-- The path of an event, as a machine that emits what reaches the
attemper engine's sink. -/
def step : Machine NetworkNotify NotifyStep NetworkEvent
  | n, .itemCall call alloc => (n.onItemCall call alloc).map fun n => (n, [])
  | n, .threadRun =>
      n.queueServiceEvent.queueService.runAttemper.map fun r =>
        ({ n with queueServiceEvent := { n.queueServiceEvent with queueService := r.1 } }, r.2)

end NetworkNotify

/-! ## What the path is for -/

/-- The event an item's report stands for. The fields of an event are
32-bit words, those of a command 16-bit ones. -/
def ItemCall.event : ItemCall → Option NetworkEvent
  | .acceptEvent socketID clientAddr => some (.bind (dword clientAddr) (dword socketID))
  | .readEvent socketID command data =>
      some (.read ⟨word command.mainCmdID, word command.subCmdID⟩ data (dword socketID))
  | .closeEvent socketID clientAddr connectTime =>
      some (.shut (dword clientAddr) (dword connectTime) (dword socketID))
  | .wsaRecv | .wsaSend _ | .reset _ => none

end GameServer.KernelEngine
