import GameServer.Common.Memory
import GameServer.Common.Run
/-!
# ServiceCore — the data queue

`CYSDataQueue` keeps packets in one byte buffer that is used as a ring.
Three cursors describe it: packets are appended at `insertPos`, taken at
`dataQueryPos`, and `terminalPos` is where the part ends that was filled
before the insert position last went back to the start. The buffer grows
when a packet has no room; growing lays the packets out from the start.

Cursors and sizes are 32-bit (`dword`), packet sizes 16-bit (`word`).
An access outside the buffer is a fault of the process and makes the
whole operation `none`. The bytes of fresh memory are taken to be zero;
nothing reads one before it is written.
-/

namespace GameServer.ServiceCore

def sizeofDataHead : ℕ := 4

/-- The head stored before each packet. -/
structure DataHead where
  dataSize : ℕ
  identifier : UInt16
  deriving DecidableEq, Repr

/-- One of the buffers handed to an insert, with its 16-bit size. -/
structure DataBuffer where
  buffer : List UInt8
  size_lt : buffer.length < 2 ^ 16
  deriving DecidableEq

structure DataQueue where
  insertPos : ℕ := 0
  terminalPos : ℕ := 0
  dataQueryPos : ℕ := 0
  dataSize : ℕ := 0
  dataPacketCount : ℕ := 0
  bufferSize : ℕ := 0
  /-- `m_pDataQueueBuffer`, `none` for the null pointer. -/
  dataQueueBuffer : Option Memory := none

/-- Difference of two 32-bit words. -/
def dwordSub (a b : ℕ) : ℕ := dword (a + 2 ^ 32 - b)

def headBytes (head : DataHead) : List UInt8 :=
  wordBytes head.dataSize ++ wordBytes head.identifier.toNat

namespace DataQueue

/-- The checks `RectifyBuffer` makes before growing. The flag says that
one of them threw; the insert position may already have gone back to the
start. -/
def tryRoom (q : DataQueue) (needSize : ℕ) : DataQueue × Bool :=
  if q.bufferSize < dword (q.dataSize + needSize) then (q, true)
  else if q.insertPos = q.terminalPos ∧ q.bufferSize < dword (q.insertPos + needSize) then
    if needSize ≤ q.dataQueryPos then
      let q' := { q with insertPos := 0 }
      (q', decide (q'.insertPos < q'.terminalPos ∧
        q'.dataQueryPos < dword (q'.insertPos + needSize)))
    else (q, true)
  else
    (q, decide (q.insertPos < q.terminalPos ∧ q.dataQueryPos < dword (q.insertPos + needSize)))

/-- What `RectifyBuffer` adds to the buffer when it grows it. -/
def riseSize (q : DataQueue) (needSize : ℕ) : ℕ :=
  max (q.bufferSize / 2) (dword (needSize * 10))

/-- Copying the two parts of the ring to the start of a fresh buffer. -/
def copyParts (q : DataQueue) (newSize : ℕ) (m : Memory) : Option Memory :=
  let partOneSize := dwordSub q.terminalPos q.dataQueryPos
  (if 0 < partOneSize then
      Memory.fresh.copyIn newSize 0 q.bufferSize m q.dataQueryPos partOneSize
    else some Memory.fresh).bind fun new =>
  if partOneSize < q.dataSize then new.copyIn newSize partOneSize q.bufferSize m 0 q.insertPos
  else some new

/-- The handler of `RectifyBuffer`: a larger buffer. `alloc` is whether
`new` delivers one. -/
def growBuffer (q : DataQueue) (needSize : ℕ) (alloc : Bool) : Option (DataQueue × Bool) :=
  if alloc then
    let newSize := dword (q.bufferSize + q.riseSize needSize)
    (match q.dataQueueBuffer with
      | none => some Memory.fresh
      | some m => q.copyParts newSize m).map fun new =>
    ({ q with
      dataQueryPos := 0
      insertPos := q.dataSize
      terminalPos := q.dataSize
      bufferSize := newSize
      dataQueueBuffer := some new }, true)
  else some (q, false)

/-- `RectifyBuffer`: room for `needSize` bytes at the insert position. -/
def rectifyBuffer (q : DataQueue) (needSize : ℕ) (alloc : Bool) : Option (DataQueue × Bool) :=
  match q.tryRoom needSize with
  | (q', true) => q'.growBuffer needSize alloc
  | (q', false) => some (q', true)

def inserted (q : DataQueue) (m : Memory) (dataSize : ℕ) : DataQueue :=
  { q with
    dataPacketCount := dword (q.dataPacketCount + 1)
    dataSize := dword (q.dataSize + (sizeofDataHead + dataSize))
    insertPos := dword (q.insertPos + (sizeofDataHead + dataSize))
    terminalPos := max q.terminalPos (dword (q.insertPos + (sizeofDataHead + dataSize)))
    dataQueueBuffer := some m }

/-- Storing a packet at the insert position: its head, then its data if
there is any. -/
def store (q : DataQueue) (head : DataHead) (copyData : Memory → Option Memory) :
    Option DataQueue :=
  q.dataQueueBuffer.bind fun m =>
  (m.writeIn q.bufferSize q.insertPos (headBytes head)).bind fun m =>
  (if 0 < head.dataSize then copyData m else some m).map fun m => q.inserted m head.dataSize

def insertData (q : DataQueue) (identifier : UInt16) (data : DataBuffer) (alloc : Bool) :
    Option (DataQueue × Bool) :=
  let dataSize := data.buffer.length
  (q.rectifyBuffer (sizeofDataHead + dataSize) alloc).bind fun (q, ok) =>
  if ok then
    (q.store ⟨dataSize, identifier⟩ fun m =>
      m.writeIn q.bufferSize (q.insertPos + sizeofDataHead) data.buffer).map fun q => (q, true)
  else some (q, false)

/-- The sizes of several buffers, added up in a 16-bit word. -/
def sumSize (dataBuffer : List DataBuffer) : ℕ :=
  dataBuffer.foldl (fun size b => if 0 < b.buffer.length then word (size + b.buffer.length)
    else size) 0

/-- The copy loop of the multi-buffer `InsertData`; `excursion` is the
16-bit offset from the insert position. -/
def copyBuffers (bufferSize insertPos : ℕ) : List DataBuffer → ℕ → Memory → Option Memory
  | [], _, m => some m
  | b :: bs, excursion, m =>
      if 0 < b.buffer.length then
        (m.writeIn bufferSize (insertPos + excursion) b.buffer).bind fun m =>
        copyBuffers bufferSize insertPos bs (word (excursion + b.buffer.length)) m
      else copyBuffers bufferSize insertPos bs excursion m

/-- `InsertData` of several buffers as one packet. -/
def insertDataMulti (q : DataQueue) (identifier : UInt16) (dataBuffer : List DataBuffer)
    (alloc : Bool) : Option (DataQueue × Bool) :=
  let dataSize := sumSize dataBuffer
  (q.rectifyBuffer (sizeofDataHead + dataSize) alloc).bind fun (q, ok) =>
  if ok then
    (q.store ⟨dataSize, identifier⟩ fun m =>
      copyBuffers q.bufferSize q.insertPos dataBuffer sizeofDataHead m).map fun q => (q, true)
  else some (q, false)

/-- The step from the end of the first part to the start of the buffer. -/
def rewind (q : DataQueue) : DataQueue :=
  if q.dataQueryPos = q.terminalPos then
    { q with dataQueryPos := 0, terminalPos := q.insertPos }
  else q

/-- What `DistillData` hands out of the packet at the query position: the
head and the bytes copied to a buffer of `bufferSize` bytes. A packet
the buffer cannot hold is reported with size `0`. -/
def packetOut (q : DataQueue) (m : Memory) (bufferSize : ℕ) :
    Option (DataHead × List UInt8) :=
  let dataSize := m.wordAt q.dataQueryPos
  let identifier := UInt16.ofNat (m.wordAt (q.dataQueryPos + 2))
  if dataSize = 0 ∨ bufferSize < dataSize then some (⟨0, identifier⟩, [])
  else
    (m.readIn q.bufferSize (q.dataQueryPos + sizeofDataHead) dataSize).map fun data =>
      (⟨dataSize, identifier⟩, data)

/-- `DistillData` into a buffer of `bufferSize` bytes: the head it
reports and the bytes it copies, or `none` where it returns `false`. The
packet is taken whether or not the buffer can hold it. -/
def distillData (q : DataQueue) (bufferSize : ℕ) :
    Option (DataQueue × Option (DataHead × List UInt8)) :=
  if q.dataSize = 0 ∨ q.dataPacketCount = 0 then some (q, none)
  else
    let q := q.rewind
    q.dataQueueBuffer.bind fun m =>
    (m.readIn q.bufferSize q.dataQueryPos sizeofDataHead).bind fun _ =>
    let packetSize := word (sizeofDataHead + m.wordAt q.dataQueryPos)
    (q.packetOut m bufferSize).map fun out =>
    ({ q with
      dataPacketCount := dwordSub q.dataPacketCount 1
      dataSize := dwordSub q.dataSize packetSize
      dataQueryPos := dword (q.dataQueryPos + packetSize) }, some out)

def removeData (q : DataQueue) (freeMemory : Bool) : DataQueue :=
  { q with
    dataSize := 0, insertPos := 0, terminalPos := 0, dataQueryPos := 0, dataPacketCount := 0
    bufferSize := if freeMemory then 0 else q.bufferSize
    dataQueueBuffer := if freeMemory then none else q.dataQueueBuffer }

end DataQueue

/-! ## The calls on a queue -/

/-- A call. `alloc` is whether memory can be had should the call need
it. -/
inductive QueueCall where
  | insertData (identifier : UInt16) (data : DataBuffer) (alloc : Bool)
  | insertDataMulti (identifier : UInt16) (dataBuffer : List DataBuffer) (alloc : Bool)
  | distillData (bufferSize : ℕ)
  | removeData (freeMemory : Bool)

inductive QueueResult where
  | inserted (ok : Bool)
  | distilled (result : Option (DataHead × List UInt8))
  deriving DecidableEq, Repr

def DataQueue.step : Machine DataQueue QueueCall QueueResult
  | q, .insertData identifier data alloc =>
      (q.insertData identifier data alloc).map fun r => (r.1, [.inserted r.2])
  | q, .insertDataMulti identifier dataBuffer alloc =>
      (q.insertDataMulti identifier dataBuffer alloc).map fun r => (r.1, [.inserted r.2])
  | q, .distillData bufferSize =>
      (q.distillData bufferSize).map fun r => (r.1, [.distilled r.2])
  | q, .removeData freeMemory => some (q.removeData freeMemory, [])

/-! ## What the queue is for -/

structure Packet where
  identifier : UInt16
  payload : List UInt8
  deriving DecidableEq, Repr

/-- The bytes several buffers make when they are sent as one packet. -/
def joined (dataBuffer : List DataBuffer) : List UInt8 :=
  (dataBuffer.map DataBuffer.buffer).flatten

/-- The bytes a list of packets takes in the queue, heads included. -/
def fifoSize (ps : List Packet) : ℕ :=
  (ps.map fun p => sizeofDataHead + p.payload.length).sum

end GameServer.ServiceCore
