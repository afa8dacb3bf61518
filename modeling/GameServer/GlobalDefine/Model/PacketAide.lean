import GameServer.Common.Memory
/-!
# GlobalDefine — extended packet data

A packet may carry items behind its fixed part, each with a
`tagDataDescribe` in front: the size of the data and a tag.
`CSendPacketHelper` writes such items into a buffer one behind the other,
`CRecvPacketHelper` walks over them.

The pointers are kept as the memory they point into; a read or a write
that leaves that memory is `none`. The assertions of a debug build are
left out, and so are the two `AddPacket` for texts, which call the third.
-/

namespace GameServer.GlobalDefine

def dtpNull : ℕ := 0

structure DataDescribe where
  wDataSize : ℕ
  wDataDescribe : ℕ
  deriving DecidableEq, Repr

def describeSize : ℕ := 4

def DataDescribe.bytes (d : DataDescribe) : List UInt8 :=
  wordBytes d.wDataSize ++ wordBytes d.wDataDescribe

/-- The arguments of one `AddPacket`: data whose size is a word, and a
tag. -/
structure Item where
  data : List UInt8
  wDataType : ℕ
  size_lt : data.length < 2 ^ 16
  type_lt : wDataType < 2 ^ 16

/-! ## Sending -/

/-- `CSendPacketHelper`; `pcbBuffer` has `wMaxBytes` bytes. -/
structure SendPacketHelper where
  wDataSize : ℕ
  wMaxBytes : ℕ
  pcbBuffer : Memory

def SendPacketHelper.new (pcbBuffer : Memory) (wMaxBytes : ℕ) : SendPacketHelper :=
  { wDataSize := 0, wMaxBytes := word wMaxBytes, pcbBuffer }

def SendPacketHelper.addPacket (h : SendPacketHelper) (it : Item) :
    Option (SendPacketHelper × Bool) :=
  if h.wMaxBytes < it.data.length + describeSize + h.wDataSize then some (h, false)
  else
    (h.pcbBuffer.writeIn h.wMaxBytes h.wDataSize
      (DataDescribe.bytes ⟨it.data.length, it.wDataType⟩)).bind fun m =>
    (if 0 < it.data.length then m.writeIn h.wMaxBytes (h.wDataSize + describeSize) it.data
      else some m).map fun m =>
    ({ h with pcbBuffer := m, wDataSize := word (h.wDataSize + (describeSize + it.data.length)) },
      true)

/-- The calls of a sender in their order: what they leave, and the items
for which `AddPacket` returned true. -/
def SendPacketHelper.addPackets (h : SendPacketHelper) :
    List Item → Option (SendPacketHelper × List Item)
  | [] => some (h, [])
  | it :: its =>
      (h.addPacket it).bind fun (h', accepted) =>
      (h'.addPackets its).map fun (h'', rest) => (h'', if accepted then it :: rest else rest)

/-! ## Receiving -/

structure RecvPacketHelper where
  wDataPos : ℕ
  wDataSize : ℕ
  pcbBuffer : Memory

/-- The constructor, which takes the size as a word. -/
def RecvPacketHelper.new (pcbBuffer : Memory) (dataSize : ℕ) : RecvPacketHelper :=
  { wDataPos := 0, wDataSize := word dataSize, pcbBuffer }

/-- What a call of `GetData` reports: the describe it fills in and, unless
the pointer is `NULL`, the offset of the data. -/
structure Report where
  describe : DataDescribe
  data : Option ℕ
  deriving DecidableEq, Repr

def Report.ended : Report := ⟨⟨0, dtpNull⟩, none⟩

/-- `CopyMemory` of a `tagDataDescribe` from offset `pos` of a buffer of
`size` bytes. -/
def readDescribe (m : Memory) (size pos : ℕ) : Option DataDescribe :=
  if pos + describeSize ≤ size then some ⟨m.wordAt pos, m.wordAt (pos + 2)⟩ else none

/-- `GetData`, where `pcbBuffer` points to `size` bytes. -/
def RecvPacketHelper.getData (size : ℕ) (h : RecvPacketHelper) :
    Option (Report × RecvPacketHelper) :=
  if h.wDataSize ≤ h.wDataPos then some (.ended, h)
  else
    (readDescribe h.pcbBuffer size h.wDataPos).map fun d =>
    if h.wDataSize < h.wDataPos + describeSize + d.wDataSize then (.ended, h)
    else
      (⟨d, if 0 < d.wDataSize then some (h.wDataPos + describeSize) else none⟩,
        { h with wDataPos := word (h.wDataPos + (describeSize + d.wDataSize)) })

/-- `n` calls of `GetData` in a row, with their reports. -/
def RecvPacketHelper.getDatas (size : ℕ) (h : RecvPacketHelper) :
    ℕ → Option (List Report × RecvPacketHelper)
  | 0 => some ([], h)
  | n + 1 =>
      (h.getData size).bind fun (r, h') =>
      (h'.getDatas size n).map fun (rs, h'') => (r :: rs, h'')

def Report.content (r : Report) (m : Memory) : List UInt8 :=
  match r.data with
  | some pos => m.read pos r.describe.wDataSize
  | none => []

end GameServer.GlobalDefine
