import GameServer.KernelEngine.Model.QueueService
import GameServer.KernelEngine.Model.SocketItem
/-!
# KernelEngine — the connection of a client

`CTCPSocketService` is the other end of a connection: a server uses it to
reach another. What `recv` delivers goes behind the bytes not yet parsed,
and the loop of `OnSocketNotifyRead` takes packets from the front. It
decrypts a packet in an array on the stack, which still holds what was
there before.

What a function asks of the outside is listed (`SocketCall`). Two
constructors of it are no calls: they record the bytes that a turn of the
loop has removed, and the sizes of a packet that was decrypted. An access
outside an array is `none`, and so is a loop that does not end: one that
makes more turns than there are bytes has made one that takes none, and
repeats it.

The tick counts are left out, and so is the state of the connection,
which the functions here do not test.
-/

namespace GameServer.KernelEngine

open ServiceCore ServerSocketItem

def shutReasonException : ℕ := 4

structure TCPSocketService where
  /-- Whether `m_hSocket` is valid. -/
  hSocket : Bool := false
  serviceID : ℕ
  sendPacketCount : ℕ := 0
  recvPacketCount : ℕ := 0
  recvSize : ℕ := 0
  recvBuf : Memory := Memory.fresh

/-- What is asked of the outside, or recorded. -/
inductive SocketCall where
  /-- `PostTCPSocketReadEvent`. -/
  | readEvent (serviceID : ℕ) (command : TCPCommand) (data : List UInt8)
  /-- `PostTCPSocketShutEvent`. -/
  | shutEvent (serviceID reason : ℕ)
  /-- `QUEUE_SEND_REQUEST`, with what is encrypted and sent. -/
  | sendRequest (command : TCPCommand) (data : List UInt8)
  /-- `QUEUE_SAFE_CLOSE`. -/
  | safeClose
  /-- Recorded: the bytes a turn has removed. -/
  | removed (packet : List UInt8)
  /-- Recorded: `wPacketSize` and `wDataSize` of a packet decrypted. -/
  | sized (packetSize dataSize : ℕ)
  deriving DecidableEq, Repr

namespace TCPSocketService

def recvBufSize : ℕ := 10 * socketTcpBuffer

/-- `sizeof(cbDataBuffer)` in `OnSocketNotifyRead`. -/
def dataBufferSize : ℕ := socketTcpBuffer + sizeofTCPHead

def sizeofSocketReadEvent : ℕ := 8

variable (s : TCPSocketService)

/-- The variables after a close. -/
def reset : TCPSocketService :=
  { s with hSocket := false, sendPacketCount := 0, recvPacketCount := 0, recvSize := 0 }

/-- `CloseSocket`: the queue is asked to, or there is nothing to close. -/
def closeSocket : TCPSocketService × List SocketCall :=
  if s.hSocket then (s, [.safeClose]) else (s.reset, [])

def closeSocketFor (reason : ℕ) : TCPSocketService × List SocketCall :=
  let (s', calls) := s.closeSocket
  (s', .shutEvent s.serviceID reason :: calls)

/-- `SendData`, where the data lies at `sizeof(TCP_Head)` in an array of
`dataBufferSize` bytes. A packet that is longer than the array it is
built in is written all the same. -/
def sendData (command : TCPCommand) (buffer : Memory) (dataSize : ℕ) :
    Option (TCPSocketService × List SocketCall) :=
  if s.hSocket = false then some (s, [])
  else if socketTcpBuffer < dataSize then some (s, [])
  else if socketTcpBuffer < sizeofTCPHead + dataSize then none
  else
    (buffer.readIn dataBufferSize sizeofTCPHead dataSize).map fun data =>
    ({ s with sendPacketCount := dword (s.sendPacketCount + 1) }, [.sendRequest command data])

/-- What the tests at the head of the loop make of the bytes received. -/
inductive NextFrame where
  /-- The loop ends: not enough bytes. -/
  | wait
  /-- Thrown: a wrong kind or a size that is too large. -/
  | reject
  /-- A packet of this size is all there. -/
  | frame (packetSize : ℕ)
  deriving DecidableEq, Repr

/-- The tests at the head of the loop. -/
def nextFrame : NextFrame :=
  if s.recvSize < sizeofTCPHead then .wait
  else if s.recvBuf 0 ≠ socketTcpVer then .reject
  else if socketTcpBuffer + sizeofTCPHead < s.recvBuf.wordAt 2 then .reject
  else if s.recvSize < s.recvBuf.wordAt 2 then .wait
  else .frame (s.recvBuf.wordAt 2)

/-- The packet is counted and removed. -/
def takeFrame (packetSize : ℕ) : TCPSocketService :=
  { s with
    recvPacketCount := dword (s.recvPacketCount + 1)
    recvSize := s.recvSize - packetSize
    recvBuf := s.recvBuf.write 0 (s.recvBuf.read packetSize (s.recvSize - packetSize)) }

def dataSizeOf (realySize : ℕ) : ℕ := word (realySize + 2 ^ 16 - sizeofTCPHead)

def commandOf (buffer : Memory) : TCPCommand := ⟨buffer.wordAt 4, buffer.wordAt 6⟩

/-- The rest of a turn, from `wDataSize` on. The flag says that it was
left by an exception. -/
def handleFrame (buffer : Memory) (realySize : ℕ) :
    Option (TCPSocketService × List SocketCall × Bool) :=
  let dataSize := dataSizeOf realySize
  let command := commandOf buffer
  if command.mainCmdID = mdmKnCommand then
    if command.subCmdID = subKnDetectSocket then
      (s.sendData ⟨mdmKnCommand, subKnDetectSocket⟩ buffer dataSize).map fun (s, calls) =>
        (s, calls, false)
    else some (s, [], false)
  else if maxAsynchronismData < dataSize + sizeofSocketReadEvent then some (s, [], true)
  else
    (buffer.readIn dataBufferSize sizeofTCPHead dataSize).map fun data =>
      (s, [.readEvent s.serviceID command data], false)

end TCPSocketService

open TCPSocketService in
/-- The loop. `stack` is what `cbDataBuffer` holds. -/
def TCPSocketService.handleFrames : ℕ → Memory → TCPSocketService →
    Option (TCPSocketService × List SocketCall × Bool)
  | 0, _, _ => none
  | fuel + 1, stack, s =>
      match s.nextFrame with
      | .wait => some (s, [], false)
      | .reject => some (s, [], true)
      | .frame packetSize =>
          let packet := s.recvBuf.read 0 packetSize
          match crevasseBuffer (stack.write 0 packet) packetSize with
          | none => some (s.takeFrame packetSize, [.removed packet], true)
          | some (buffer, realySize) =>
              ((s.takeFrame packetSize).handleFrame buffer realySize).bind fun (s, calls, thrown) =>
              let calls := .removed packet :: .sized packetSize (dataSizeOf realySize) :: calls
              if thrown then some (s, calls, true)
              else (handleFrames fuel buffer s).map fun (s, more, thrown) =>
                (s, calls ++ more, thrown)

namespace TCPSocketService

variable (s : TCPSocketService)

/-- The bytes `recv` delivers of those that have arrived. -/
def received (arrived : List UInt8) : List UInt8 := arrived.take (recvBufSize - s.recvSize)

/-- They go behind the bytes there are, and are counted. -/
def receive (arrived : List UInt8) : TCPSocketService :=
  { s with
    recvSize := word (s.recvSize + (s.received arrived).length)
    recvBuf := s.recvBuf.write s.recvSize (s.received arrived) }

/-- `OnSocketNotifyRead`. `arrived` is `none` where `recv` reports an
error, and an invalid socket is one. -/
def onSocketNotifyRead (arrived : Option (List UInt8)) (stack : Memory) :
    Option (TCPSocketService × List SocketCall) :=
  match arrived with
  | none => some (s.closeSocketFor shutReasonException)
  | some arrived =>
      if s.hSocket = false then some (s.closeSocketFor shutReasonException)
      else
        let s := s.receive arrived
        (handleFrames (s.recvSize + 1) stack s).map fun (s, calls, thrown) =>
          if thrown then
            let (s, more) := s.closeSocketFor shutReasonException
            (s, calls ++ more)
          else (s, calls)

/-- What happens to a connection. -/
inductive SocketEvent where
  /-- `QUEUE_CONNECT_REQUEST`: a socket is made. -/
  | connect
  /-- `CloseSocket`. -/
  | close
  /-- `QUEUE_SAFE_CLOSE`. -/
  | safeClose
  /-- `OnSocketNotifyRead`. -/
  | read (arrived : Option (List UInt8)) (stack : Memory)

def step : Machine TCPSocketService SocketEvent SocketCall := fun s e =>
  match e with
  | .connect => some ({ s with hSocket := true }, [])
  | .close => some s.closeSocket
  | .safeClose => some (s.reset, [])
  | .read arrived stack => s.onSocketNotifyRead arrived stack

end TCPSocketService

end GameServer.KernelEngine
