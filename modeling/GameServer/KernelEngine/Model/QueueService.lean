import GameServer.ServiceCore.Model.DataQueue
import GameServer.ServiceCore.Model.Encrypt
/-!
# KernelEngine — the send queue

The network engine does not send from its callers' threads: a request is
laid out as bytes, put into a `CYSDataQueue` and announced on a
completion port. One thread waits on the port, takes a packet for each
announcement into a buffer of fixed size and hands it to
`OnQueueServiceSink`, which reads the request back from that buffer.

The request structures are not packed: `tagSendDataRequest` has two
bytes of padding, so a request is two bytes longer than its fields and
data, and carries two bytes of whatever lay behind the data.
-/

namespace GameServer.KernelEngine

open ServiceCore

/-- `MAX_ASYNCHRONISM_DATA`, the size of the thread's buffer. -/
def maxAsynchronismData : ℕ := 16384

/-! ## Requests -/

/-- A request as it reaches the engine's `OnQueueServiceSink`. -/
inductive Request where
  /-- `QUEUE_SEND_REQUEST`; socket ID 0 addresses every connection. -/
  | send (mainCmdID subCmdID : UInt16) (socketID : UInt32) (data : List UInt8)
  /-- `QUEUE_SAFE_CLOSE`. -/
  | safeClose (socketID : UInt32)
  /-- `QUEUE_ALLOW_BATCH`. -/
  | allowBatch (socketID : UInt32) (allow : Bool)
  /-- `QUEUE_DETECT_SOCKET`. -/
  | detectSocket
  deriving DecidableEq, Repr

def Request.identifier : Request → UInt16
  | .send .. => 1
  | .safeClose _ => 2
  | .allowBatch .. => 3
  | .detectSocket => 4

/-- `sizeof(tagSendDataRequest) - sizeof(cbSendBuf)`. -/
def sizeofSendHead : ℕ := 12

/-- The bytes of the structure a request is put into. `stack` is what
the memory of the structure held before. -/
def Request.bytes (stack : Memory) : Request → List UInt8
  | .send mainCmdID subCmdID socketID data =>
      wordBytes mainCmdID.toNat ++ (wordBytes subCmdID.toNat ++ (dwordBytes socketID.toNat ++
        (wordBytes data.length ++ (data ++ stack.read (10 + data.length) 2))))
  | .safeClose socketID => dwordBytes socketID.toNat
  | .allowBatch socketID allow =>
      dwordBytes socketID.toNat ++ ((if allow then 1 else 0) :: stack.read 5 3)
  | .detectSocket => []

def Request.size : Request → ℕ
  | .send _ _ _ data => sizeofSendHead + data.length
  | .safeClose _ => 4
  | .allowBatch .. => 8
  | .detectSocket => 0

/-- What `OnQueueServiceSink` reads out of the buffer it is handed. The
size it is handed is only asserted on. -/
def onQueueServiceSink (identifier : UInt16) (buffer : Memory) : Option Request :=
  if identifier = 1 then
    some (.send (UInt16.ofNat (buffer.wordAt 0)) (UInt16.ofNat (buffer.wordAt 2))
      (UInt32.ofNat (buffer.dwordAt 4)) (buffer.read 10 (buffer.wordAt 8)))
  else if identifier = 2 then some (.safeClose (UInt32.ofNat (buffer.dwordAt 0)))
  else if identifier = 3 then
    some (.allowBatch (UInt32.ofNat (buffer.dwordAt 0)) (decide (buffer 4 ≠ 0)))
  else if identifier = 4 then some .detectSocket
  else none

/-! ## The service -/

/-- `CQueueService` with its thread: the queue, the completions posted
and not yet taken, and the thread's buffer. -/
structure QueueService where
  dataQueue : DataQueue := {}
  posted : ℕ := 0
  buffer : Memory := Memory.fresh

namespace QueueService

/-- `AddToQueue` of `dataSize` bytes at `data`. The result of the insert
is ignored. -/
def addToQueue (qs : QueueService) (identifier : UInt16) (data : List UInt8) (dataSize : ℕ)
    (alloc : Bool) : Option QueueService :=
  (qs.dataQueue.insertData identifier
    ⟨data.take (word dataSize),
      Nat.lt_of_le_of_lt (List.length_take_le _ _) (word_lt dataSize)⟩ alloc).map
  fun r => { qs with dataQueue := r.1, posted := qs.posted + 1 }

/-- `GetData` into the thread's buffer. -/
def getData (qs : QueueService) : Option (QueueService × Option DataHead) :=
  (qs.dataQueue.distillData maxAsynchronismData).map fun r =>
    match r.2 with
    | none => ({ qs with dataQueue := r.1 }, none)
    | some (head, data) =>
        ({ qs with dataQueue := r.1, buffer := qs.buffer.write 0 data }, some head)

/-- `OnEventThreadRun`: one completion is taken, if there is one, and
what is in the buffer then is handed on. -/
def onEventThreadRun (qs : QueueService) : Option (QueueService × List Request) :=
  if qs.posted = 0 then some (qs, [])
  else
    (getData { qs with posted := qs.posted - 1 }).map fun r =>
      (r.1, (r.2.bind fun head => onQueueServiceSink head.identifier r.1.buffer).toList)

end QueueService

/-! ## The engine's callers -/

/-- A call on the running engine that is done by its send queue, or one
turn of the queue's thread. -/
inductive EngineCall where
  /-- `SendData` of a command alone. -/
  | sendCommand (socketID : UInt32) (mainCmdID subCmdID : UInt16)
  /-- `SendData`. -/
  | sendData (socketID : UInt32) (mainCmdID subCmdID : UInt16) (data : DataBuffer)
  | sendDataBatch (mainCmdID subCmdID : UInt16) (data : DataBuffer)
  | shutDownSocket (socketID : UInt32)
  | allowBatchSend (socketID : UInt32) (allow : Bool)
  | detectSocket
  | threadRun
  deriving DecidableEq

def sizeOk (data : DataBuffer) : Bool :=
  decide (data.buffer.length + sizeofTCPHead ≤ socketTcpBuffer)

/-- The request a call makes, unless it is refused. -/
def EngineCall.request : EngineCall → Option Request
  | .sendCommand socketID mainCmdID subCmdID => some (.send mainCmdID subCmdID socketID [])
  | .sendData socketID mainCmdID subCmdID data =>
      if sizeOk data then some (.send mainCmdID subCmdID socketID data.buffer) else none
  | .sendDataBatch mainCmdID subCmdID data =>
      if sizeOk data then some (.send mainCmdID subCmdID 0 data.buffer) else none
  | .shutDownSocket socketID => some (.safeClose socketID)
  | .allowBatchSend socketID allow => some (.allowBatch socketID allow)
  | .detectSocket => some .detectSocket
  | .threadRun => none

/-- A call with what it finds: the old contents of its stack, and
whether the queue can get memory. -/
structure EngineEvent where
  call : EngineCall
  stack : Memory := Memory.fresh
  alloc : Bool := true

/-- The engine's send path as a machine that emits what is handed to
`OnQueueServiceSink`. -/
def QueueService.step : Machine QueueService EngineEvent Request := fun qs e =>
  if e.call = .threadRun then qs.onEventThreadRun
  else
    match e.call.request with
    | none => some (qs, [])
    | some r => (qs.addToQueue r.identifier (r.bytes e.stack) r.size e.alloc).map fun qs => (qs, [])

/-! ## What the send path is for -/

end GameServer.KernelEngine
