import GameServer.KernelEngine.Model.WebSocket
import GameServer.ServiceCore.Model.Encrypt
/-!
# KernelEngine — one connection

`CServerSocketItem` is one slot for a connection. Everything it does
runs under its own lock, so each function below is one atomic step. What
a function asks of the outside is listed as it happens (`ItemCall`):
calls of the engine, operations handed to Winsock, and resets of the
item. What the outside answers is an argument: the bytes `recv`
delivers, whether `WSARecv` and `WSASend` accept an operation, the tick
count. A memory fault is `none`.

A send structure is identified by the order of its creation.
-/

namespace GameServer.KernelEngine

open ServiceCore

inductive SocketType where
  | tcp
  | webSocket
  deriving DecidableEq, Repr

/-- `COverLappedSend`: which one it is and the bytes its buffer holds. -/
structure OverLappedSend where
  id : ℕ
  wsaBuffer : List UInt8
  deriving DecidableEq, Repr

structure ServerSocketItem where
  index : ℕ
  socketType : SocketType := .tcp
  rountID : ℕ := 1
  /-- `m_hSocket`, `none` for `INVALID_SOCKET`. -/
  hSocket : Option ℕ := none
  clientAddr : ℕ := 0
  connectTime : ℕ := 0
  notify : Bool := true
  recvIng : Bool := false
  closeIng : Bool := false
  allowBatch : Bool := true
  recvSize : ℕ := 0
  recvBuf : Memory := Memory.fresh
  sendTickCount : ℕ := 0
  recvTickCount : ℕ := 0
  sendPacketCount : ℕ := 0
  recvPacketCount : ℕ := 0
  overLappedSendFree : List OverLappedSend := []
  overLappedSendActive : List OverLappedSend := []
  websocket : WebSocket := {}

def makeLong (lo hi : ℕ) : ℕ := lo + 2 ^ 16 * hi

def loWord (n : ℕ) : ℕ := n % 2 ^ 16

def hiWord (n : ℕ) : ℕ := n / 2 ^ 16

/-- What an item asks of the outside. -/
inductive ItemCall where
  /-- `OnSocketAcceptEvent`. -/
  | acceptEvent (socketID clientAddr : ℕ)
  /-- `OnSocketReadEvent`. -/
  | readEvent (socketID : ℕ) (command : TCPCommand) (data : List UInt8)
  /-- `OnSocketCloseEvent`. -/
  | closeEvent (socketID clientAddr connectTime : ℕ)
  /-- An overlapped receive that was accepted. -/
  | wsaRecv
  /-- An overlapped send that was accepted. -/
  | wsaSend (overLapped : OverLappedSend)
  /-- `ResetSocketData`, at the round that ends. -/
  | reset (rountID : ℕ)
  deriving DecidableEq, Repr

/-- What a function leaves: the item, its calls and the value returned. -/
structure ItemResult where
  item : ServerSocketItem
  calls : List ItemCall := []
  ret : Bool := true

namespace ServerSocketItem

variable (item : ServerSocketItem)

def socketID : ℕ := makeLong item.index item.rountID

def isReadySend : Bool := decide (0 < item.recvPacketCount)

def resetSocketData : ServerSocketItem :=
  { item with
    socketType := .tcp
    rountID := word (item.rountID + 1)
    recvSize := 0, clientAddr := 0, connectTime := 0
    sendTickCount := 0, recvTickCount := 0, sendPacketCount := 0, recvPacketCount := 0
    notify := true, recvIng := false, closeIng := false, allowBatch := true
    overLappedSendFree := item.overLappedSendFree ++ item.overLappedSendActive
    overLappedSendActive := []
    websocket := WebSocket.clear }

def onCloseCompleted : ItemResult :=
  { item := item.resetSocketData
    calls := (if item.notify then []
      else [.closeEvent item.socketID item.clientAddr item.connectTime]) ++ [.reset item.rountID] }

def closeSocket (rountID : ℕ) : ItemResult :=
  if item.rountID ≠ rountID then { item, ret := false }
  else
    let item := { item with hSocket := none }
    if item.recvIng = false ∧ item.overLappedSendActive = [] then item.onCloseCompleted
    else { item }

/-- `ShutDownSocket` returns before it does anything. -/
def shutDownSocket (_rountID : ℕ) : ItemResult := { item }

def allowBatchSend (rountID : ℕ) (allowBatch : Bool) : ItemResult :=
  if item.rountID ≠ rountID then { item, ret := false }
  else if item.hSocket = none then { item, ret := false }
  else { item := { item with allowBatch } }

/-- `RecvData`. `accepted` is whether `WSARecv` takes the operation. -/
def recvData (accepted : Bool) : ItemResult :=
  if item.closeIng then
    { if item.overLappedSendActive = [] then item.closeSocket item.rountID else { item } with
      ret := false }
  else if accepted then { item := { item with recvIng := true }, calls := [.wsaRecv] }
  else { { item with recvIng := false }.closeSocket item.rountID with ret := false }

def attach (hSocket clientAddr tick now : ℕ) : ItemResult :=
  let item :=
    { item with
      notify := false, recvIng := false, closeIng := false, hSocket := some hSocket
      clientAddr, recvTickCount := tick, connectTime := now }
  { item, calls := [.acceptEvent item.socketID clientAddr] }

/-! ## Sending -/

/-- `GetSendOverLapped`: the structure and the item without it in the
free list. A new one is made when none is free and memory can be had. -/
def getSendOverLapped (alloc : Bool) : Option (OverLappedSend × ServerSocketItem) :=
  match item.overLappedSendFree.getLast? with
  | some p => some (p, { item with overLappedSendFree := item.overLappedSendFree.dropLast })
  | none =>
      if alloc then some (⟨item.overLappedSendActive.length, []⟩, item) else none

/-- The rest of `OnSendCompleted` and of a failed `WSASend`: the
structures that wait are given up and the connection is closed. -/
def dropSends : ItemResult :=
  { item with
    overLappedSendFree := item.overLappedSendFree ++ item.overLappedSendActive
    overLappedSendActive := [] }.closeSocket item.rountID

/-- `OnSendCompleted`. `accepted` is whether `WSASend` takes the next
operation. -/
def onSendCompleted (p : OverLappedSend) (transferred tick : ℕ) (accepted : Bool) : ItemResult :=
  let item :=
    { item with
      overLappedSendActive := item.overLappedSendActive.tail
      overLappedSendFree := item.overLappedSendFree ++ [p]
      sendTickCount := if transferred ≠ 0 then tick else item.sendTickCount }
  if item.hSocket = none then item.dropSends
  else
    match item.overLappedSendActive with
    | q :: _ =>
        if accepted then { item, calls := [.wsaSend q] } else { item.dropSends with ret := false }
    | [] => if item.closeIng then item.closeSocket item.rountID else { item }

/-- The bytes of `TCP_Head` and data as they stand before encryption. -/
def packetBytes (command : TCPCommand) (data : List UInt8) : List UInt8 :=
  [socketTcpVer, 0] ++ wordBytes (sizeofTCPHead + data.length) ++
    wordBytes command.mainCmdID ++ wordBytes command.subCmdID ++ data

/-- What a send structure holds once the packet is built in it: on a
WebSocket the packet in a frame, or what was there before if it makes no
frame; else the packet encrypted. -/
def buildSend (p : OverLappedSend) (command : TCPCommand) (data : List UInt8) : OverLappedSend :=
  let packet := packetBytes command data
  { p with
    wsaBuffer :=
      if item.socketType = .webSocket then
        ((encodeFrame packet socketTcpBuffer).2).getD p.wsaBuffer
      else
        let (m, size) := encryptBuffer (Memory.fresh.write 0 packet) packet.length true
        m.read 0 size }

/-- `SendData`. A packet the buffer cannot hold is written all the
same. -/
def sendData (data : List UInt8) (command : TCPCommand) (rountID : ℕ) (alloc accepted : Bool) :
    Option ItemResult :=
  if item.closeIng ∨ item.rountID ≠ rountID ∨ item.recvPacketCount = 0 ∨ item.hSocket = none ∨
      socketTcpBuffer < data.length then
    some { item, ret := false }
  else
    match item.getSendOverLapped alloc with
    | none => some { item, ret := false }
    | some (p, item) =>
        if socketTcpBuffer < sizeofTCPHead + data.length then none
        else
          let p := item.buildSend p command data
          let item :=
            { item with
              overLappedSendActive := item.overLappedSendActive ++ [p]
              sendPacketCount := dword (item.sendPacketCount + 1) }
          if item.overLappedSendActive.length = 1 then
            if accepted then some { item, calls := [.wsaSend p] }
            else some { item.onSendCompleted p 0 0 false with ret := false }
          else some { item }

/-! ## Receiving -/

def mdmKnCommand : ℕ := 0

def subKnDetectSocket : ℕ := 1

def subKnValidateSocket : ℕ := 2

/-- The packet at the front of the receive buffer, or why there is
none. -/
inductive NextPacket where
  /-- The loop ends: not enough bytes. -/
  | wait
  /-- Thrown before the packet is counted. -/
  | reject
  /-- Thrown for an illegal kernel command. -/
  | illegal
  /-- A kernel command, handled here. -/
  | kernel (size : ℕ)
  /-- A packet for the engine. -/
  | deliver (size : ℕ) (command : TCPCommand) (data : List UInt8)
  deriving DecidableEq, Repr

/-- The body of the loop up to the delivery. -/
def nextPacket : NextPacket :=
  if item.recvSize < sizeofTCPHead then .wait
  else
    let packetSize := item.recvBuf.wordAt 2
    if socketTcpBuffer < packetSize then .reject
    else if packetSize < sizeofTCPHead then .reject
    else if item.recvBuf 0 ≠ socketTcpVer then .reject
    else if item.recvSize < packetSize then .wait
    else
      let buffer := Memory.fresh.write 0 (item.recvBuf.read 0 packetSize)
      match if item.socketType = .webSocket then some (buffer, packetSize)
          else crevasseBuffer buffer packetSize with
      | none => .reject
      | some (buffer, realySize) =>
          let command : TCPCommand := ⟨buffer.wordAt 4, buffer.wordAt 6⟩
          if command.mainCmdID = mdmKnCommand then
            if command.subCmdID = subKnDetectSocket ∨ command.subCmdID = subKnValidateSocket then
              .kernel packetSize
            else .illegal
          else .deliver packetSize command (buffer.read sizeofTCPHead (realySize - sizeofTCPHead))

def countPacket : ServerSocketItem :=
  { item with recvPacketCount := dword (item.recvPacketCount + 1) }

/-- The end of a turn of the loop: the packet is counted and removed. -/
def removePacket (size : ℕ) : ServerSocketItem :=
  { item.countPacket with
    recvSize := item.recvSize - size
    recvBuf := item.recvBuf.write 0 (item.recvBuf.read size (item.recvSize - size)) }

/-- The loop over the packets received. The flag says that it was left
by an exception. Every turn that goes on removes a packet. -/
def handlePackets : ℕ → ServerSocketItem → ServerSocketItem × List ItemCall × Bool
  | 0, item => (item, [], false)
  | fuel + 1, item =>
      match item.nextPacket with
      | .wait => (item, [], false)
      | .reject => (item, [], true)
      | .illegal => (item.countPacket, [], true)
      | .kernel size => handlePackets fuel (item.removePacket size)
      | .deliver size command data =>
          let (item', calls, thrown) := handlePackets fuel (item.removePacket size)
          (item', .readEvent item.socketID command data :: calls, thrown)

/-- The part of `OnRecvCompleted` behind the receive. -/
def handleRecv (accepted : Bool) : ItemResult :=
  let (item, calls, thrown) := handlePackets item.recvSize item
  let r := if thrown then { item.closeSocket item.rountID with ret := false }
    else item.recvData accepted
  { r with calls := calls ++ r.calls }

/-- The end of a receive on a WebSocket connection. -/
def handleFrames (r : DecodeResult) (accepted : Bool) : ItemResult :=
  let item :=
    { item with websocket := r.websocket, recvBuf := r.out, recvSize := r.outSize }
  match r.ret with
  | .closingFrame | .errorFrame => item.closeSocket item.rountID
  | .middleFrame => item.recvData accepted
  | .emptyFrame | .openingFrame => item.handleRecv accepted

/-- `OnRecvCompleted`. `chunk` is what `recv` delivers, empty where it
returns no positive count; `sent` is whether the handshake response can
be sent and `accepted` whether `WSARecv` takes the next operation. -/
def onRecvCompleted (chunk : List UInt8) (tick : ℕ) (sent accepted : Bool) : Option ItemResult :=
  let item := { item with recvIng := false, recvTickCount := tick }
  if item.hSocket = none then some (item.closeSocket item.rountID)
  else if chunk = [] then some (item.closeSocket item.rountID)
  else if item.socketType = .webSocket then
    (item.websocket.recvFrame chunk item.recvBuf item.recvSize).map fun r =>
      item.handleFrames r accepted
  else
    (item.recvBuf.writeIn recvBufSize item.recvSize chunk).bind fun recvBuf =>
    if item.recvPacketCount = 0 then
      -- the terminator goes behind the chunk as if nothing had been in the buffer
      (recvBuf.writeIn recvBufSize chunk.length [0]).bind fun recvBuf =>
      (item.websocket.parseWebSocketHandShake recvBuf chunk.length).map fun (websocket, ok) =>
      let item := { item with recvBuf, websocket }
      if ok then
        let item := { item.countPacket with socketType := .webSocket }
        if sent then item.recvData accepted else item.closeSocket item.rountID
      else { item with recvSize := item.recvSize + chunk.length }.handleRecv accepted
    else
      some ({ item with
        recvBuf, recvSize := item.recvSize + chunk.length }.handleRecv accepted)

end ServerSocketItem

end GameServer.KernelEngine
