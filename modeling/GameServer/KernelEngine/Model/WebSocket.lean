import GameServer.Common.Memory
/-!
# KernelEngine — WebSocket frames

`CWebSocket` holds the bytes a WebSocket client has sent and not yet had
decoded. `DecodeFrame` takes complete frames from the front of that
buffer, as long as it finds them and the caller's buffer has room, and
writes their payloads one behind the other. The loop is cut here into
the tests on the header (`readHeader`), one turn (`decodeTurn`) and its
repetition (`decodeLoop`).

Integers have the widths of the Win32 build: offsets are signed 32-bit,
payload lengths signed 64-bit, sizes unsigned 32-bit. An access outside
one of the two arrays is `none`, and so is a loop that does not end.
The text of the handshake response is left out.
-/

namespace GameServer.KernelEngine

/-- `sizeof(m_cbRecvBuf)`, of the item and of its WebSocket part. -/
def recvBufSize : ℕ := 81920

inductive WSStatus where
  | invalid
  | connect
  deriving DecidableEq, Repr

/-- `WS_FrameType`, the values that are returned. -/
inductive FrameType where
  | middleFrame
  | closingFrame
  | emptyFrame
  | errorFrame
  | openingFrame
  deriving DecidableEq, Repr

structure WebSocket where
  wsStatus : WSStatus := .invalid
  recvSize : ℕ := 0
  recvBuf : Memory := Memory.fresh

def WebSocket.clear : WebSocket := {}

/-! ## The handshake -/

def textBytes (s : String) : List UInt8 := s.toList.map fun c => UInt8.ofNat c.toNat

/-- The length of the text at the start of `m`, if it ends within `n`
bytes. -/
def strlen (m : Memory) (n : ℕ) : Option ℕ := (List.range n).find? fun i => m i = 0

/-- `ParseWebSocketHandShake` on the first `bufSize` bytes of a receive
buffer. The request is copied to a text of 4096 bytes before its end is
looked at. -/
def WebSocket.parseWebSocketHandShake (ws : WebSocket) (m : Memory) (bufSize : ℕ) :
    Option (WebSocket × Bool) :=
  if 8 ≤ bufSize ∧ m.read 0 8 = textBytes "GET /ws " then
    (strlen m recvBufSize).bind fun len =>
    if 4096 ≤ len then none
    else if m.read (bufSize - 4) 4 = textBytes "\r\n\r\n" then
      some ({ ws with wsStatus := .connect }, true)
    else some (ws, false)
  else some (ws, false)

/-! ## Decoding -/

/-- `ntohs` and `htons`. -/
def swapBytes (n : ℕ) : ℕ := 2 ^ 8 * (n % 2 ^ 8) + n / 2 ^ 8

/-- `CWebSocketFrameHeader`, once the length field is read. -/
structure FrameHeader where
  mask : Bool
  payloadLen : ℤ
  /-- `nCanReadOffset`, behind the length field. -/
  canReadOffset : ℕ
  deriving DecidableEq, Repr

/-- The length field: the payload length and the offset behind it. The
64-bit form is taken in the byte order of the host. -/
def payloadLength (m : Memory) : ℤ × ℕ :=
  let payloadlen := (m 1 &&& 0x7f).toNat
  if payloadlen = 126 then (swapBytes (m.wordAt 2), 4)
  else if payloadlen = 127 then (int64 (m.qwordAt 2), 10)
  else (payloadlen, 2)

/-- The tests at the head of the loop: why it ends here, or the frame it
goes on to take. -/
def readHeader (m : Memory) (recvSize capcity : ℕ) : FrameType ⊕ FrameHeader :=
  if recvSize < 2 then .inl .middleFrame
  else if m 0 &&& 0x0f = 0x08 then .inl .closingFrame
  else if recvSize < (m 1 &&& 0x7f).toNat + 2 then .inl .middleFrame
  else
    let (payloadLen, canReadOffset) := payloadLength m
    if (recvSize : ℤ) < int64 (payloadLen + canReadOffset) then .inl .middleFrame
    else if (capcity : ℤ) < payloadLen then .inl .middleFrame
    else .inr ⟨m 1 >>> 7 = 1, payloadLen, canReadOffset⟩

/-- The variables of the loop. `overRead` is not one of the program's:
it records that a byte behind `m_dwRecvSize` has been read. -/
structure DecodeState where
  recvSize : ℕ
  recvBuf : Memory
  /-- The array `outMessage` points into. -/
  out : Memory
  index : ℤ
  /-- The reference argument `recvSize`. -/
  outSize : ℕ
  capcity : ℕ
  overRead : Bool := false

def FrameHeader.payloadOffset (h : FrameHeader) : ℕ := h.canReadOffset + if h.mask then 4 else 0

/-- How many bytes the payload is copied for: the loop over a masked one
does nothing for a negative length, and `memcpy` takes the length as an
unsigned word. -/
def FrameHeader.copySize (h : FrameHeader) : ℕ :=
  if h.mask then h.payloadLen.toNat else dwordOfInt h.payloadLen

def maskBytes (key data : List UInt8) : List UInt8 :=
  data.mapIdx fun i b => b ^^^ key.getD (i % 4) 0

/-- Storing bytes at `outMessage + nIndex`, where `outMessage` is the
address `base` of its array. -/
def storeOut (out : Memory) (base : ℕ) (index : ℤ) (data : List UInt8) : Option Memory :=
  if data = [] then some out
  else if base + index < 0 then none
  else out.writeIn recvBufSize (base + index).toNat data

/-- The payload of a frame, unmasked. -/
def readPayload (m : Memory) (h : FrameHeader) : Option (List UInt8) :=
  if h.mask then
    (m.readIn recvBufSize h.canReadOffset 4).bind fun key =>
    (m.readIn recvBufSize h.payloadOffset h.copySize).map (maskBytes key)
  else m.readIn recvBufSize h.payloadOffset h.copySize

def moveRest (m : Memory) (offset : ℤ) (recvSize : ℕ) : Option Memory :=
  if recvSize = 0 then some m
  else if offset < 0 then none
  else m.copyIn recvBufSize 0 recvBufSize m offset.toNat recvSize

/-- The rest of one turn: the frame is copied out and removed. -/
def takeFrame (base : ℕ) (s : DecodeState) (h : FrameHeader) : Option DecodeState :=
  (readPayload s.recvBuf h).bind fun data =>
  (storeOut s.out base s.index data).bind fun out =>
  let canReadOffset := int32 (h.payloadOffset + h.payloadLen)
  let recvSize := dwordOfInt (s.recvSize - canReadOffset)
  (moveRest s.recvBuf canReadOffset recvSize).map fun recvBuf =>
  { recvSize, recvBuf, out
    index := int32 (s.index + h.payloadLen)
    outSize := dwordOfInt (s.outSize + h.payloadLen)
    capcity := dwordOfInt (s.capcity - h.payloadLen)
    overRead := s.overRead || decide (s.recvSize < h.payloadOffset + h.copySize) }

/-- The loop. A turn that takes bytes leaves fewer of them, so one that
makes more turns than there were bytes never ends. -/
def decodeLoop (base : ℕ) : ℕ → DecodeState → Option (FrameType × DecodeState)
  | 0, _ => none
  | fuel + 1, s =>
      match readHeader s.recvBuf s.recvSize s.capcity with
      | .inl ret => some (ret, s)
      | .inr h =>
          (takeFrame base s h).bind fun s' =>
          if 0 < s'.recvSize then decodeLoop base fuel s' else some (.openingFrame, s')

/-- What a call of `DecodeFrame` leaves. -/
structure DecodeResult where
  ret : FrameType
  websocket : WebSocket
  out : Memory
  outSize : ℕ
  overRead : Bool

/-- `DecodeFrame`, with `outMessage` at `base` in the array `out`. -/
def WebSocket.decodeFrame (ws : WebSocket) (out : Memory) (base capcity outSize : ℕ) :
    Option DecodeResult :=
  (decodeLoop base (ws.recvSize + 1)
    { recvSize := ws.recvSize, recvBuf := ws.recvBuf, out, index := 0, outSize, capcity }).map
  fun (ret, s) =>
    { ret := if capcity ≠ s.capcity then .openingFrame else ret
      websocket := { ws with recvSize := s.recvSize, recvBuf := s.recvBuf }
      out := s.out, outSize := s.outSize, overRead := s.overRead }

/-- A receive of `chunk` behind the bytes held, and the call of
`DecodeFrame` the item makes then: `out` is its own buffer, of which
`recvSize` bytes are in use. -/
def WebSocket.recvFrame (ws : WebSocket) (chunk : List UInt8) (out : Memory) (recvSize : ℕ) :
    Option DecodeResult :=
  (ws.recvBuf.writeIn recvBufSize ws.recvSize chunk).bind fun recvBuf =>
  { ws with recvSize := ws.recvSize + chunk.length, recvBuf }.decodeFrame
    out recvSize (recvBufSize - recvSize) recvSize

/-! ## Encoding -/

/-- `EncodeFrame`: the value returned and, unless it is an error, the
bytes of the frame. -/
def encodeFrame (inMessage : List UInt8) (outCapcity : ℕ) : FrameType × Option (List UInt8) :=
  if 32767 < inMessage.length then (.errorFrame, none)
  else if outCapcity < inMessage.length + 4 then (.errorFrame, none)
  else
    (.emptyFrame, some (0x82 ::
      (if inMessage.length < 126 then [UInt8.ofNat inMessage.length]
        else 126 :: wordBytes (swapBytes inMessage.length)) ++ inMessage))

end GameServer.KernelEngine
