import GameServer.Common.Run
import GameServer.KernelEngine.Model.SocketItem
/-!
# KernelEngine — the engine and its connections

`CTCPNetworkEngine` owns the items. An item is made once and then moves
between the free and the active list; it is known by its index in the
storage. The accept thread takes an item and attaches a connection to
it, the completion threads bring back operations that were handed to
Winsock, and the queue thread sends, sweeps and sets flags.

Every step below runs under one lock: `ActiveSocketItem` under the
engine's, all others under the lock of one item. The accept thread holds
that lock over `Attach` and the first `RecvData`, so the two are one
step. A sweep over all connections copies the active list and then
visits one item of the copy at a time; between two visits anything may
happen.
-/

namespace GameServer.KernelEngine

open ServiceCore

/-- `CTCPNetworkEngine`, with what its threads and Winsock hold. -/
structure TCPNetworkEngine where
  maxSocketItem : UInt16
  service : Bool := false
  storageSocketItem : List ServerSocketItem := []
  freeSocketItem : List ℕ := []
  activeSocketItem : List ℕ := []
  /-- The part of `m_TempSocketItem` a sweep has still to visit. -/
  tempSocketItem : List ℕ := []
  /-- Items the accept thread has taken and not yet attached. -/
  accepting : List ℕ := []
  /-- Receives that Winsock has accepted and not completed, by item. -/
  pendingRecv : List ℕ := []
  /-- Sends that Winsock has accepted and not completed, by item. -/
  pendingSend : List (ℕ × OverLappedSend) := []

inductive EngineOutput where
  /-- `Attach`, with the socket ID handed out. -/
  | attached (index socketID : ℕ)
  /-- `PostNetworkAcceptEvent`. -/
  | accept (socketID clientAddr : ℕ)
  /-- `PostNetworkReadEvent`. -/
  | read (socketID : ℕ) (command : TCPCommand) (data : List UInt8)
  /-- `PostNetworkShutEvent`. -/
  | shut (index socketID clientAddr connectTime : ℕ)
  /-- An item put into the free list. -/
  | freed (index : ℕ)
  /-- `ResetSocketData`, at the round that ends. -/
  | reset (index rountID : ℕ)
  deriving DecidableEq, Repr

namespace TCPNetworkEngine

variable (e : TCPNetworkEngine)

def freeItem (i : ℕ) : TCPNetworkEngine :=
  if i ∈ e.activeSocketItem then
    { e with
      activeSocketItem := e.activeSocketItem.erase i
      freeSocketItem := e.freeSocketItem ++ [i] }
  else e

/-- What a call of an item makes the engine do, as it is seen. The
events are posted, and an item is freed, only while the service runs. -/
def output (i : ℕ) : ItemCall → List EngineOutput
  | .acceptEvent socketID clientAddr =>
      .attached i socketID :: if e.service then [.accept socketID clientAddr] else []
  | .readEvent socketID command data => if e.service then [.read socketID command data] else []
  | .closeEvent socketID clientAddr connectTime =>
      if e.service then
        .shut i socketID clientAddr connectTime ::
          if i ∈ e.activeSocketItem then [.freed i] else []
      else []
  | .wsaRecv => []
  | .wsaSend _ => []
  | .reset rountID => [.reset i rountID]

/-- The receives and the sends among the calls of an item. -/
def recvs (calls : List ItemCall) : ℕ := calls.count .wsaRecv

def sends (calls : List ItemCall) : List OverLappedSend :=
  calls.filterMap fun
    | .wsaSend p => some p
    | _ => none

def closes (calls : List ItemCall) : Bool :=
  calls.any fun
    | .closeEvent .. => true
    | _ => false

/-- The engine after an item has run: the item is stored, the operations
it started are in flight, and if it closed it is free. -/
def absorb (i : ℕ) (r : ItemResult) : TCPNetworkEngine × List EngineOutput :=
  let e' :=
    { e with
      storageSocketItem := e.storageSocketItem.set i r.item
      pendingRecv := e.pendingRecv ++ List.replicate (recvs r.calls) i
      pendingSend := e.pendingSend ++ (sends r.calls).map fun p => (i, p) }
  (if e.service ∧ closes r.calls then e'.freeItem i else e', r.calls.flatMap (e.output i))

/-- Running an item under its lock. There is no test for a missing
item. -/
def onItem (i : ℕ) (f : ServerSocketItem → Option ItemResult) :
    Option (TCPNetworkEngine × List EngineOutput) :=
  e.storageSocketItem[i]?.bind fun item => (f item).map (e.absorb i)

/-- `ActiveSocketItem`: an item from the free list, else a new one while
there are fewer than allowed and memory can be had. -/
def activeItem (alloc : Bool) : TCPNetworkEngine :=
  match e.freeSocketItem.getLast? with
  | some i =>
      { e with
        freeSocketItem := e.freeSocketItem.dropLast
        activeSocketItem := e.activeSocketItem ++ [i]
        accepting := e.accepting ++ [i] }
  | none =>
      let i := word e.storageSocketItem.length
      if i < e.maxSocketItem.toNat ∧ alloc then
        { e with
          storageSocketItem := e.storageSocketItem ++ [{ index := i }]
          activeSocketItem := e.activeSocketItem ++ [i]
          accepting := e.accepting ++ [i] }
      else e

def timeBreakConnect : ℕ := 4000

/-- One item in the sweep of `QUEUE_DETECT_SOCKET`. The tick of its last
receive is read before its lock is taken. -/
def detectItem (item : ServerSocketItem) (recvTick now breakTick : ℕ) (data : List UInt8)
    (alloc accepted : Bool) : Option ItemResult :=
  if now ≤ recvTick then some { item }
  else if breakTick < now - recvTick ∧ item.isReadySend then
    some (item.closeSocket item.rountID)
  else if timeBreakConnect < now - recvTick ∧ ¬ item.isReadySend then
    some (item.closeSocket item.rountID)
  else if item.isReadySend then
    item.sendData data
      ⟨ServerSocketItem.mdmKnCommand, ServerSocketItem.subKnDetectSocket⟩ item.rountID alloc accepted
  else some { item }

def batchItem (item : ServerSocketItem) (data : List UInt8) (command : TCPCommand)
    (alloc accepted : Bool) : Option ItemResult :=
  if item.allowBatch then item.sendData data command item.rountID alloc accepted
  else some { item }

end TCPNetworkEngine

/-- The steps. Each carries what its environment answers. -/
inductive LockStep where
  /-- `StartService` sets its flag last. -/
  | startService
  | activeSocketItem (alloc : Bool)
  /-- `Attach` and the first `RecvData`. -/
  | attach (index hSocket clientAddr tick now : ℕ) (accepted : Bool)
  | sendData (index : ℕ) (data : List UInt8) (command : TCPCommand) (rountID : ℕ)
      (alloc accepted : Bool)
  | closeSocket (index rountID : ℕ)
  | shutDownSocket (index rountID : ℕ)
  | allowBatchSend (index rountID : ℕ) (allow : Bool)
  | onSendCompleted (index : ℕ) (p : OverLappedSend) (transferred tick : ℕ) (accepted : Bool)
  | onRecvCompleted (index : ℕ) (chunk : List UInt8) (tick : ℕ) (sent accepted : Bool)
  /-- A completion with an error the threads do not handle. -/
  | loseSend (index : ℕ) (p : OverLappedSend)
  | loseRecv (index : ℕ)
  /-- A sweep starts. -/
  | copyActive
  /-- A broadcast visits its next item. -/
  | batchNext (data : List UInt8) (command : TCPCommand) (alloc accepted : Bool)
  /-- `QUEUE_DETECT_SOCKET` visits its next item. -/
  | detectNext (recvTick now breakTick : ℕ) (data : List UInt8) (alloc accepted : Bool)

open TCPNetworkEngine in
/-- The engine as a machine. A completion that is not in flight, and an
item the accept thread has not taken, make a step that does nothing. -/
def TCPNetworkEngine.step : Machine TCPNetworkEngine LockStep EngineOutput
  | e, .startService => some ({ e with service := true }, [])
  | e, .activeSocketItem alloc => some (e.activeItem alloc, [])
  | e, .attach i hSocket clientAddr tick now accepted =>
      if i ∈ e.accepting then
        { e with accepting := e.accepting.erase i }.onItem i fun item =>
          let r := item.attach hSocket clientAddr tick now
          let r' := r.item.recvData accepted
          some { r' with calls := r.calls ++ r'.calls }
      else some (e, [])
  | e, .sendData i data command rountID alloc accepted =>
      e.onItem i fun item => item.sendData data command rountID alloc accepted
  | e, .closeSocket i rountID =>
      if i < e.storageSocketItem.length then
        e.onItem i fun item => some (item.closeSocket rountID)
      else some (e, [])
  | e, .shutDownSocket i rountID => e.onItem i fun item => some (item.shutDownSocket rountID)
  | e, .allowBatchSend i rountID allow =>
      e.onItem i fun item => some (item.allowBatchSend rountID allow)
  | e, .onSendCompleted i p transferred tick accepted =>
      if (i, p) ∈ e.pendingSend then
        { e with pendingSend := e.pendingSend.erase (i, p) }.onItem i fun item =>
          some (item.onSendCompleted p transferred tick accepted)
      else some (e, [])
  | e, .onRecvCompleted i chunk tick sent accepted =>
      if i ∈ e.pendingRecv then
        { e with pendingRecv := e.pendingRecv.erase i }.onItem i fun item =>
          item.onRecvCompleted chunk tick sent accepted
      else some (e, [])
  | e, .loseSend i p => some ({ e with pendingSend := e.pendingSend.erase (i, p) }, [])
  | e, .loseRecv i => some ({ e with pendingRecv := e.pendingRecv.erase i }, [])
  | e, .copyActive => some ({ e with tempSocketItem := e.activeSocketItem }, [])
  | e, .batchNext data command alloc accepted =>
      match e.tempSocketItem with
      | [] => some (e, [])
      | i :: rest =>
          { e with tempSocketItem := rest }.onItem i fun item =>
            batchItem item data command alloc accepted
  | e, .detectNext recvTick now breakTick data alloc accepted =>
      match e.tempSocketItem with
      | [] => some (e, [])
      | i :: rest =>
          { e with tempSocketItem := rest }.onItem i fun item =>
            detectItem item recvTick now breakTick data alloc accepted

end GameServer.KernelEngine
