import GameServer.ServiceCore.Model.DataQueue
import Mathlib.Tactic.Ring
/-!
# ServiceCore — the data queue is a FIFO list

The ring holds its packets either in one block, up to the insert
position (`Linear`), or in two, the second one starting the buffer and
ending at the insert position (`Wrapped`). Every operation keeps one of
the two layouts, and `DistillData` reads the first packet of it.

The layouts meet in one state: a wrapped ring whose first block has been
read to its end and whose second block has just reached the same place
(`WrappedFull`). All three cursors are then equal, as they are in an
empty ring, and `RectifyBuffer` takes the ring to be linear. An insert
that finds room behind the cursors in that state is stored ahead of the
packets already there, so `InsertOk` excludes it; a growing insert and
a `DistillData` leave the state in the right order.
-/

namespace GameServer.ServiceCore

variable {q : DataQueue} {p : Packet} {ps ps₁ ps₂ : List Packet} {needSize : ℕ}
variable {alloc : Bool} {bs : List DataBuffer}

/-! ## Packets as bytes -/

def Packet.encode (p : Packet) : List UInt8 :=
  headBytes ⟨p.payload.length, p.identifier⟩ ++ p.payload

/-- Packets stored one after the other. -/
def encodeAll (ps : List Packet) : List UInt8 := (ps.map Packet.encode).flatten

@[simp] theorem length_headBytes (head : DataHead) : (headBytes head).length = sizeofDataHead := rfl

@[simp] theorem Packet.length_encode (p : Packet) :
    p.encode.length = sizeofDataHead + p.payload.length := by
  simp [Packet.encode]

@[simp] theorem encodeAll_nil : encodeAll [] = [] := rfl

@[simp] theorem encodeAll_cons : encodeAll (p :: ps) = p.encode ++ encodeAll ps := rfl

@[simp] theorem encodeAll_append : encodeAll (ps₁ ++ ps₂) = encodeAll ps₁ ++ encodeAll ps₂ := by
  simp [encodeAll]

@[simp] theorem length_encodeAll (ps : List Packet) : (encodeAll ps).length = fifoSize ps := by
  induction ps with
  | nil => rfl
  | cons p ps ih => simp [fifoSize, ih]

@[simp] theorem fifoSize_nil : fifoSize [] = 0 := rfl

@[simp] theorem fifoSize_cons :
    fifoSize (p :: ps) = sizeofDataHead + p.payload.length + fifoSize ps := by
  simp [fifoSize]

@[simp] theorem fifoSize_append : fifoSize (ps₁ ++ ps₂) = fifoSize ps₁ + fifoSize ps₂ := by
  simp [fifoSize]

/-- Every packet has a head, so the queue holds fewer packets than
bytes. -/
theorem length_le_fifoSize (ps : List Packet) : 4 * ps.length ≤ fifoSize ps := by
  induction ps with
  | nil => simp
  | cons p ps ih => simp only [List.length_cons, fifoSize_cons, sizeofDataHead]; omega

theorem eq_nil_of_fifoSize_eq_zero (h : fifoSize ps = 0) : ps = [] := by
  have := length_le_fifoSize ps
  exact List.eq_nil_of_length_eq_zero (by omega)

/-! ## Layouts -/

/-- The bytes of the buffer. -/
def DataQueue.mem (q : DataQueue) : Memory := q.dataQueueBuffer.getD Memory.fresh

/-- The packets lie in one block that ends at the insert position. -/
structure Linear (q : DataQueue) (ps : List Packet) : Prop where
  insert_eq : q.insertPos = q.terminalPos
  query_le : q.dataQueryPos ≤ q.terminalPos
  block : q.mem.read q.dataQueryPos (q.terminalPos - q.dataQueryPos) = encodeAll ps

/-- The packets lie in two blocks, the second at the start of the
buffer and clear of the first. -/
structure Wrapped (q : DataQueue) (ps₁ ps₂ : List Packet) : Prop where
  insert_le : q.insertPos ≤ q.dataQueryPos
  query_le : q.dataQueryPos ≤ q.terminalPos
  first : q.mem.read q.dataQueryPos (q.terminalPos - q.dataQueryPos) = encodeAll ps₁
  second : q.mem.read 0 q.insertPos = encodeAll ps₂

/-- What does not depend on where the packets lie. -/
structure Sound (q : DataQueue) (ps : List Packet) : Prop where
  count_eq : q.dataPacketCount = ps.length
  size_eq : q.dataSize = fifoSize ps
  terminal_le : q.terminalPos ≤ q.bufferSize
  buffer_lt : q.bufferSize < 2 ^ 32
  null : q.dataQueueBuffer = none → q.bufferSize = 0
  small : ∀ p ∈ ps, sizeofDataHead + p.payload.length < 2 ^ 16

/-- **The queue holds the packets `ps`**, in order. -/
structure Represents (q : DataQueue) (ps : List Packet) : Prop extends Sound q ps where
  layout : Linear q ps ∨ ∃ ps₁ ps₂, ps = ps₁ ++ ps₂ ∧ Wrapped q ps₁ ps₂

/-- The state the two layouts share although it holds packets. -/
def WrappedFull (q : DataQueue) : Prop :=
  0 < q.dataSize ∧ q.insertPos = q.terminalPos ∧ q.dataQueryPos = q.terminalPos

theorem Linear.length_eq (h : Linear q ps) : q.terminalPos - q.dataQueryPos = fifoSize ps := by
  have := congrArg List.length h.block
  simpa using this

theorem Wrapped.length_first (h : Wrapped q ps₁ ps₂) :
    q.terminalPos - q.dataQueryPos = fifoSize ps₁ := by
  have := congrArg List.length h.first
  simpa using this

theorem Wrapped.length_second (h : Wrapped q ps₁ ps₂) : q.insertPos = fifoSize ps₂ := by
  have := congrArg List.length h.second
  simpa using this

theorem Represents.size_le (h : Represents q ps) : q.dataSize ≤ q.terminalPos := by
  rw [h.size_eq]
  rcases h.layout with hl | ⟨ps₁, ps₂, rfl, hw⟩
  · have := hl.length_eq; omega
  · have h₁ := hw.length_first
    have h₂ := hw.length_second
    have h₃ := hw.insert_le
    have h₄ := hw.query_le
    rw [fifoSize_append]; omega

theorem Represents.insert_le (h : Represents q ps) : q.insertPos ≤ q.bufferSize := by
  have hb := h.terminal_le
  rcases h.layout with hl | ⟨ps₁, ps₂, rfl, hw⟩
  · rw [hl.insert_eq]; exact hb
  · have h₁ := hw.insert_le
    have h₂ := hw.query_le
    omega

theorem represents_empty : Represents {} [] where
  count_eq := rfl
  size_eq := rfl
  terminal_le := Nat.le_refl _
  buffer_lt := by decide
  null _ := rfl
  small _ h := by cases h
  layout := Or.inl ⟨rfl, Nat.le_refl _, rfl⟩

/-! ## Finding room -/

/-- What an insert of `dataSize` payload bytes asks of the queue: memory
if it is needed, a packet size that fits in 16 bits, a grown buffer size
that fits in 32, and no room behind the cursors of a wrapped ring that
is full. -/
structure InsertOk (q : DataQueue) (dataSize : ℕ) (alloc : Bool) : Prop where
  alloc_eq : alloc = true
  size_lt : sizeofDataHead + dataSize < 2 ^ 16
  grow_lt : q.bufferSize + max (q.bufferSize / 2) ((sizeofDataHead + dataSize) * 10) < 2 ^ 32
  not_full : ¬ (WrappedFull q ∧ q.dataSize + (sizeofDataHead + dataSize) ≤ q.bufferSize)

/-- A block of `needSize` bytes can be stored at the insert position. -/
inductive Room (q : DataQueue) (ps : List Packet) (needSize : ℕ) : Prop
  /-- Behind the only block. -/
  | atEnd : Linear q ps → q.insertPos + needSize ≤ q.bufferSize → Room q ps needSize
  /-- Between the second block and the first. -/
  | between {ps₁ ps₂ : List Packet} : ps = ps₁ ++ ps₂ → Wrapped q ps₁ ps₂ →
      q.insertPos + needSize ≤ q.dataQueryPos → Room q ps needSize

/-- A wrapped ring whose insert position is at the end of the first
block is full, or empty and so linear. -/
theorem Wrapped.full_or_linear (hs : Sound q (ps₁ ++ ps₂)) (hw : Wrapped q ps₁ ps₂)
    (heq : q.insertPos = q.terminalPos) : WrappedFull q ∨ Linear q (ps₁ ++ ps₂) := by
  have h₁ := hw.insert_le
  have h₂ := hw.query_le
  have hquery : q.dataQueryPos = q.terminalPos := by omega
  rcases Nat.eq_zero_or_pos q.dataSize with h0 | hpos
  · right
    have hnil : ps₁ ++ ps₂ = [] := eq_nil_of_fifoSize_eq_zero (by rw [← hs.size_eq, h0])
    refine ⟨heq, h₂, ?_⟩
    rw [hnil, hquery, Nat.sub_self]
    rfl
  · exact Or.inl ⟨hpos, heq, hquery⟩

/-- **What the checks of `RectifyBuffer` find**: nothing, in which case
the queue is untouched, or room at the insert position they leave. -/
theorem tryRoom_spec (h : Represents q ps)
    (hgrow : q.bufferSize + needSize < 2 ^ 32)
    (hfull : ¬ (WrappedFull q ∧ q.dataSize + needSize ≤ q.bufferSize)) :
    q.tryRoom needSize = (q, true) ∨
      ∃ q', q.tryRoom needSize = (q', false) ∧ Sound q' ps ∧ Room q' ps needSize := by
  have hsize := h.size_le
  have hterm := h.terminal_le
  have hins := h.insert_le
  have hd₁ : dword (q.dataSize + needSize) = q.dataSize + needSize := dword_of_lt (by omega)
  have hd₂ : dword (q.insertPos + needSize) = q.insertPos + needSize := dword_of_lt (by omega)
  unfold DataQueue.tryRoom
  rw [hd₁, hd₂]
  rcases Nat.lt_or_ge q.bufferSize (q.dataSize + needSize) with hcap | hcap
  · exact Or.inl (if_pos hcap)
  rw [if_neg (by omega)]
  -- a full wrapped ring is out, so an insert position at the end means one block
  have hlinear : q.insertPos = q.terminalPos → Linear q ps := by
    intro heq
    rcases h.layout with hl | ⟨ps₁, ps₂, rfl, hw⟩
    · exact hl
    · rcases hw.full_or_linear h.toSound heq with hf | hl
      · exact absurd ⟨hf, hcap⟩ hfull
      · exact hl
  by_cases heq : q.insertPos = q.terminalPos
  · have hl := hlinear heq
    by_cases hend : q.bufferSize < q.insertPos + needSize
    · rw [if_pos ⟨heq, hend⟩]
      by_cases hq : needSize ≤ q.dataQueryPos
      · -- the block ends the buffer, and the room is in front of it
        refine Or.inr ⟨{ q with insertPos := 0 }, ?_, ⟨h.count_eq, h.size_eq, h.terminal_le,
          h.buffer_lt, h.null, h.small⟩, Room.between (List.append_nil ps).symm
          ⟨Nat.zero_le _, hl.query_le, hl.block, rfl⟩ (by simpa using hq)⟩
        have hn : dword needSize = needSize := dword_of_lt (by omega)
        simp [hn, hq]
      · exact Or.inl (if_neg hq)
    · rw [if_neg fun hc => hend hc.2]
      refine Or.inr ⟨q, ?_, h.toSound, Room.atEnd hl (by omega)⟩
      simp [heq]
  · rw [if_neg fun hc => heq hc.1]
    rcases h.layout with hl | ⟨ps₁, ps₂, hps, hw⟩
    · exact absurd hl.insert_eq heq
    · have h₁ := hw.insert_le
      have h₂ := hw.query_le
      have hlt : q.insertPos < q.terminalPos := by omega
      by_cases hq : q.dataQueryPos < q.insertPos + needSize
      · exact Or.inl (by simp [hlt, hq])
      · exact Or.inr ⟨q, by simp [hq], h.toSound, Room.between hps hw (by omega)⟩

/-- Copying the parts of the ring lays the packets out from the start of
the new buffer. -/
theorem copyParts_spec {newSize : ℕ} (h : Represents q ps) (hnew : q.bufferSize ≤ newSize) :
    ∃ m, q.copyParts newSize q.mem = some m ∧ m.read 0 q.dataSize = encodeAll ps := by
  have hterm := h.terminal_le
  have hlt := h.buffer_lt
  have hsub : ∀ n, q.dataQueryPos ≤ q.terminalPos → q.terminalPos - q.dataQueryPos = n →
      dwordSub q.terminalPos q.dataQueryPos = n := by
    unfold dwordSub dword
    omega
  -- the first part, which may be empty
  have hfirst : ∀ n, q.dataQueryPos ≤ q.terminalPos → q.terminalPos - q.dataQueryPos = n →
      (if 0 < n then Memory.fresh.copyIn newSize 0 q.bufferSize q.mem q.dataQueryPos n
        else some Memory.fresh) =
        some (Memory.fresh.write 0 (q.mem.read q.dataQueryPos n)) := by
    intro n hle hn
    rcases Nat.eq_zero_or_pos n with rfl | hpos
    · simp
    · rw [if_pos hpos, Memory.copyIn_of_le (by omega) (by omega)]
  unfold DataQueue.copyParts
  rcases h.layout with hl | ⟨ps₁, ps₂, rfl, hw⟩
  · have hlen := hl.length_eq
    simp only [hsub _ hl.query_le hlen]
    rw [hfirst _ hl.query_le hlen, Option.bind_some, if_neg (by rw [h.size_eq]; omega)]
    refine ⟨_, rfl, ?_⟩
    rw [← hlen, hl.block, h.size_eq, ← length_encodeAll ps]
    exact Memory.read_write_self
  · have hlen := hw.length_first
    have h₁ := hw.insert_le
    have h₂ := hw.query_le
    simp only [hsub _ hw.query_le hlen]
    rw [hfirst _ hw.query_le hlen, Option.bind_some, h.size_eq, fifoSize_append]
    have hread₁ : q.mem.read q.dataQueryPos (fifoSize ps₁) = encodeAll ps₁ := by
      rw [← hlen]; exact hw.first
    rw [hread₁]
    rcases Nat.eq_zero_or_pos (fifoSize ps₂) with h0 | hpos
    · rw [if_neg (by omega)]
      refine ⟨_, rfl, ?_⟩
      rw [eq_nil_of_fifoSize_eq_zero h0, List.append_nil, fifoSize_nil, Nat.add_zero,
        ← length_encodeAll ps₁]
      exact Memory.read_write_self
    · rw [if_pos (by omega), Memory.copyIn_of_le (by omega) (by omega), hw.second]
      refine ⟨_, rfl, ?_⟩
      have hjoin : (Memory.fresh.write 0 (encodeAll ps₁)).write (fifoSize ps₁) (encodeAll ps₂) =
          Memory.fresh.write 0 (encodeAll ps₁ ++ encodeAll ps₂) := by
        rw [← Memory.write_write, Nat.zero_add, length_encodeAll]
      rw [hjoin, encodeAll_append,
        show fifoSize ps₁ + fifoSize ps₂ = (encodeAll ps₁ ++ encodeAll ps₂).length by simp]
      exact Memory.read_write_self

/-- **Growing the buffer keeps the packets** and makes room for the one
to come. -/
theorem growBuffer_spec (h : Represents q ps) (hpos : 0 < needSize)
    (hgrow : q.bufferSize + max (q.bufferSize / 2) (needSize * 10) < 2 ^ 32) :
    ∃ q', q.growBuffer needSize true = some (q', true) ∧ Sound q' ps ∧ Room q' ps needSize := by
  have hsize := h.size_le
  have hterm := h.terminal_le
  have hrise : q.riseSize needSize = max (q.bufferSize / 2) (needSize * 10) := by
    rw [DataQueue.riseSize, dword_of_lt (by omega)]
  have hnew : dword (q.bufferSize + q.riseSize needSize) =
      q.bufferSize + max (q.bufferSize / 2) (needSize * 10) := by
    rw [hrise, dword_of_lt hgrow]
  set newSize := q.bufferSize + max (q.bufferSize / 2) (needSize * 10) with hdef
  have hle : q.bufferSize + needSize ≤ newSize := by omega
  -- a fresh buffer holding the packets from its start on
  have key : ∀ m : Memory, m.read 0 q.dataSize = encodeAll ps →
      Sound { q with dataQueryPos := 0, insertPos := q.dataSize, terminalPos := q.dataSize,
                     bufferSize := newSize, dataQueueBuffer := some m } ps ∧
      Room { q with dataQueryPos := 0, insertPos := q.dataSize, terminalPos := q.dataSize,
                    bufferSize := newSize, dataQueueBuffer := some m } ps needSize := by
    intro m hm
    refine ⟨⟨h.count_eq, h.size_eq, by simp only; omega, hgrow, by simp, h.small⟩, ?_⟩
    exact Room.atEnd ⟨rfl, Nat.zero_le _, hm⟩ (by simp only; omega)
  unfold DataQueue.growBuffer
  simp only [if_true, hnew]
  cases hbuf : q.dataQueueBuffer with
  | none =>
    have h0 : q.dataSize = 0 := by have := h.null hbuf; omega
    have hnil : ps = [] := eq_nil_of_fifoSize_eq_zero (by rw [← h.size_eq, h0])
    exact ⟨_, rfl, key Memory.fresh (by rw [h0, hnil]; rfl)⟩
  | some m =>
    have hmem : q.mem = m := by simp [DataQueue.mem, hbuf]
    obtain ⟨m', hcopy, hread⟩ := copyParts_spec h (show q.bufferSize ≤ newSize by omega)
    rw [hmem] at hcopy
    exact ⟨_, by simp only [hcopy, Option.map_some], key m' hread⟩

/-- **`RectifyBuffer` makes room** without touching the packets. -/
theorem rectifyBuffer_spec {dataSize : ℕ} (h : Represents q ps) (hok : InsertOk q dataSize alloc) :
    ∃ q', q.rectifyBuffer (sizeofDataHead + dataSize) alloc = some (q', true) ∧
      Sound q' ps ∧ Room q' ps (sizeofDataHead + dataSize) := by
  have hgrow := hok.grow_lt
  unfold DataQueue.rectifyBuffer
  rw [hok.alloc_eq]
  rcases tryRoom_spec h (by omega) hok.not_full with ht | ⟨q', ht, hs, hr⟩
  · rw [ht]
    exact growBuffer_spec h (by simp only [sizeofDataHead]; omega) hgrow
  · rw [ht]
    exact ⟨q', rfl, hs, hr⟩

/-! ## Inserting -/

theorem Room.buffer_eq (hs : Sound q ps) (hr : Room q ps needSize) (hpos : 0 < needSize) :
    q.dataQueueBuffer = some q.mem := by
  cases hbuf : q.dataQueueBuffer with
  | some m => simp [DataQueue.mem, hbuf]
  | none =>
    have h0 := hs.null hbuf
    have hterm := hs.terminal_le
    cases hr with
    | atEnd hl hle => omega
    | between _ hw hle =>
      have h₁ := hw.query_le
      omega

theorem Room.le_bufferSize (hs : Sound q ps) (hr : Room q ps needSize) :
    q.insertPos + needSize ≤ q.bufferSize := by
  have hterm := hs.terminal_le
  cases hr with
  | atEnd _ hle => exact hle
  | between _ hw hle =>
    have h₁ := hw.query_le
    omega

/-- **A packet stored where there is room is appended.** -/
theorem represents_inserted (hs : Sound q ps)
    (hr : Room q ps (sizeofDataHead + p.payload.length))
    (hp : sizeofDataHead + p.payload.length < 2 ^ 16)
    (hlt : q.dataSize + (sizeofDataHead + p.payload.length) < 2 ^ 32) :
    Represents (q.inserted (q.mem.write q.insertPos p.encode) p.payload.length) (ps ++ [p]) := by
  have hterm := hs.terminal_le
  have hbuf := hs.buffer_lt
  have hle := hr.le_bufferSize hs
  have hcount := length_le_fifoSize ps
  have hsz := hs.size_eq
  have hd₁ : dword (q.dataSize + (sizeofDataHead + p.payload.length)) =
      q.dataSize + (sizeofDataHead + p.payload.length) := dword_of_lt hlt
  have hd₂ : dword (q.insertPos + (sizeofDataHead + p.payload.length)) =
      q.insertPos + (sizeofDataHead + p.payload.length) := dword_of_lt (by omega)
  have hd₃ : dword (q.dataPacketCount + 1) = q.dataPacketCount + 1 := by
    refine dword_of_lt ?_
    rw [hs.count_eq]
    omega
  have hself : (q.mem.write q.insertPos p.encode).read q.insertPos
      (sizeofDataHead + p.payload.length) = p.encode := by
    rw [← Packet.length_encode]; exact Memory.read_write_self
  unfold DataQueue.inserted
  rw [hd₁, hd₂, hd₃]
  have hsound : Sound
      { q with
        dataPacketCount := q.dataPacketCount + 1
        dataSize := q.dataSize + (sizeofDataHead + p.payload.length)
        insertPos := q.insertPos + (sizeofDataHead + p.payload.length)
        terminalPos := max q.terminalPos (q.insertPos + (sizeofDataHead + p.payload.length))
        dataQueueBuffer := some (q.mem.write q.insertPos p.encode) } (ps ++ [p]) := by
    refine ⟨by simp [hs.count_eq], by simp [hs.size_eq], max_le hterm hle, hbuf, by simp, ?_⟩
    intro p' hp'
    rcases List.mem_append.1 hp' with h | h
    · exact hs.small p' h
    · rw [List.mem_singleton.1 h]; exact hp
  refine ⟨hsound, ?_⟩
  cases hr with
  | atEnd hl _ =>
    -- the block grows at its end
    left
    have heq := hl.insert_eq
    have hq := hl.query_le
    refine ⟨by simp only; omega, by simp only; omega, ?_⟩
    have hsplit : max q.terminalPos (q.insertPos + (sizeofDataHead + p.payload.length)) -
        q.dataQueryPos = (q.terminalPos - q.dataQueryPos) +
          (sizeofDataHead + p.payload.length) := by omega
    have hnext : q.dataQueryPos + (q.terminalPos - q.dataQueryPos) = q.insertPos := by omega
    rw [hsplit, Memory.read_add, hnext]
    change (q.mem.write q.insertPos p.encode).read q.dataQueryPos _ ++
      (q.mem.write q.insertPos p.encode).read q.insertPos _ = _
    rw [Memory.read_write_of_disjoint (Or.inl (by omega)), hl.block, hself]
    simp
  | between hps hw hfit =>
    -- the second block grows towards the first, which is not touched
    rename_i ps₁ ps₂
    right
    have h₂ := hw.query_le
    have hmax : max q.terminalPos (q.insertPos + (sizeofDataHead + p.payload.length)) =
        q.terminalPos := by omega
    refine ⟨ps₁, ps₂ ++ [p], by rw [hps, List.append_assoc], ⟨hfit, by simp only; omega, ?_, ?_⟩⟩
    · simp only [DataQueue.mem, Option.getD_some, hmax]
      change (q.mem.write q.insertPos p.encode).read q.dataQueryPos _ = _
      rw [Memory.read_write_of_disjoint (Or.inr (by rw [Packet.length_encode]; exact hfit)),
        hw.first]
    · rw [Memory.read_add, Nat.zero_add]
      change (q.mem.write q.insertPos p.encode).read 0 _ ++
        (q.mem.write q.insertPos p.encode).read q.insertPos _ = _
      rw [Memory.read_write_of_disjoint (Or.inl (by omega)), hw.second, hself]
      simp

/-- Storing a packet, for any copy that puts its data behind its head. -/
theorem store_spec {copyData : Memory → Option Memory} (hs : Sound q ps)
    (hr : Room q ps (sizeofDataHead + p.payload.length))
    (hp : sizeofDataHead + p.payload.length < 2 ^ 16)
    (hlt : q.dataSize + (sizeofDataHead + p.payload.length) < 2 ^ 32)
    (hcopy : ∀ m : Memory, copyData m =
      some (m.write (q.insertPos + sizeofDataHead) p.payload)) :
    ∃ q', q.store ⟨p.payload.length, p.identifier⟩ copyData = some q' ∧
      Represents q' (ps ++ [p]) := by
  have hle := hr.le_bufferSize hs
  have hbuf := hr.buffer_eq hs (by simp only [sizeofDataHead]; omega)
  have hjoin : (q.mem.write q.insertPos (headBytes ⟨p.payload.length, p.identifier⟩)).write
      (q.insertPos + sizeofDataHead) p.payload = q.mem.write q.insertPos p.encode := by
    rw [Packet.encode, ← Memory.write_write, length_headBytes]
  refine ⟨_, ?_, represents_inserted hs hr hp hlt⟩
  unfold DataQueue.store
  rw [hbuf, Option.bind_some, Memory.writeIn_of_le (by rw [length_headBytes]; omega),
    Option.bind_some]
  rcases Nat.eq_zero_or_pos p.payload.length with h0 | hpos
  · rw [if_neg (by simp only; omega), Option.map_some, ← hjoin,
      List.eq_nil_of_length_eq_zero h0, Memory.write_nil]
  · rw [if_pos hpos, hcopy, Option.map_some, hjoin]

/-- **`InsertData` appends the packet.** -/
theorem insertData_spec {identifier : UInt16} {data : DataBuffer}
    (h : Represents q ps) (hok : InsertOk q data.buffer.length alloc) :
    ∃ q', q.insertData identifier data alloc = some (q', true) ∧
      Represents q' (ps ++ [⟨identifier, data.buffer⟩]) := by
  obtain ⟨q₁, hrect, hs, hr⟩ := rectifyBuffer_spec h hok
  have hle := hr.le_bufferSize hs
  have hsize : q₁.dataSize + (sizeofDataHead + data.buffer.length) < 2 ^ 32 := by
    have := hok.grow_lt
    have h₁ := h.size_le
    have h₂ := h.terminal_le
    rw [hs.size_eq, ← h.size_eq]
    omega
  have hcopy : ∀ m : Memory,
      m.writeIn q₁.bufferSize (q₁.insertPos + sizeofDataHead) data.buffer =
        some (m.write (q₁.insertPos + sizeofDataHead) data.buffer) :=
    fun m => Memory.writeIn_of_le (by omega)
  obtain ⟨q₂, hstore, hrep⟩ := store_spec (p := ⟨identifier, data.buffer⟩)
    hs hr hok.size_lt hsize hcopy
  refine ⟨q₂, ?_, hrep⟩
  simp only [DataQueue.insertData, hrect, Option.bind_some, if_true]
  rw [hstore, Option.map_some]

/-! ### Several buffers -/

/-- The first packet lies whole at the query position once the cursors
have been rewound. -/
inductive HeadAt (q : DataQueue) (p : Packet) (ps : List Packet) : Prop
  | linear : Linear q (p :: ps) → HeadAt q p ps
  | wrapped {ps₁ ps₂ : List Packet} : ps = ps₁ ++ ps₂ → Wrapped q (p :: ps₁) ps₂ → HeadAt q p ps

/-- **Rewinding finds the first packet.** -/
theorem rewind_spec (h : Represents q (p :: ps)) :
    Sound q.rewind (p :: ps) ∧ HeadAt q.rewind p ps := by
  have hpos : 0 < fifoSize (p :: ps) := by rw [fifoSize_cons, sizeofDataHead]; omega
  rcases h.layout with hl | ⟨ps₁, ps₂, hps, hw⟩
  · have hne : q.dataQueryPos ≠ q.terminalPos := by have := hl.length_eq; omega
    rw [DataQueue.rewind, if_neg hne]
    exact ⟨h.toSound, HeadAt.linear hl⟩
  · by_cases hend : q.dataQueryPos = q.terminalPos
    · -- the first block is used up, and the second becomes the only one
      have hnil : ps₁ = [] := eq_nil_of_fifoSize_eq_zero (by rw [← hw.length_first]; omega)
      rw [hnil, List.nil_append] at hps
      rw [DataQueue.rewind, if_pos hend]
      refine ⟨⟨h.count_eq, h.size_eq, h.insert_le, h.buffer_lt, h.null, h.small⟩,
        HeadAt.linear ⟨rfl, Nat.zero_le _, ?_⟩⟩
      rw [hps]
      exact hw.second
    · rw [DataQueue.rewind, if_neg hend]
      refine ⟨h.toSound, ?_⟩
      cases ps₁ with
      | nil =>
        have := hw.length_first
        have := hw.query_le
        rw [fifoSize_nil] at *
        omega
      | cons p' ps₁ =>
        obtain ⟨rfl, hps'⟩ := List.cons.inj (hps.trans List.cons_append)
        exact HeadAt.wrapped hps' hw

/-- What is handed out of a packet: all of it if the buffer can hold it,
else a head with size `0`. -/
def Packet.handedOut (p : Packet) (bufferSize : ℕ) : DataHead × List UInt8 :=
  if p.payload.length ≤ bufferSize then (⟨p.payload.length, p.identifier⟩, p.payload)
  else (⟨0, p.identifier⟩, [])

/-- Reading the packet a block opens with. -/
theorem packetOut_spec {m : Memory} {n : ℕ} {rest : List UInt8} (bufferSize : ℕ)
    (hblock : m.read q.dataQueryPos n = p.encode ++ rest)
    (hfit : q.dataQueryPos + n ≤ q.bufferSize)
    (hsmall : sizeofDataHead + p.payload.length < 2 ^ 16) :
    m.wordAt q.dataQueryPos = p.payload.length ∧
      q.packetOut m bufferSize = some (p.handedOut bufferSize) := by
  have hn : n = sizeofDataHead + p.payload.length + rest.length := by
    have := congrArg List.length hblock
    simpa using this
  have hsize : m.wordAt q.dataQueryPos = p.payload.length := by
    have hopen : m.read q.dataQueryPos n =
        wordBytes p.payload.length ++ (wordBytes p.identifier.toNat ++ (p.payload ++ rest)) := by
      rw [hblock, Packet.encode, headBytes, List.append_assoc, List.append_assoc]
    exact Memory.wordAt_of_read (by omega) hopen
  have hident : m.wordAt (q.dataQueryPos + 2) = p.identifier.toNat := by
    have hopen : m.read (q.dataQueryPos + 2) (n - 2) =
        wordBytes p.identifier.toNat ++ (p.payload ++ rest) := by
      rw [← Memory.drop_read (by simp only [sizeofDataHead] at hn; omega), hblock,
        Packet.encode, headBytes, List.append_assoc, List.append_assoc,
        List.drop_left' (length_wordBytes _)]
    exact Memory.wordAt_of_read p.identifier.toNat_lt hopen
  have hdata : m.read (q.dataQueryPos + sizeofDataHead) p.payload.length = p.payload := by
    have hdrop : (m.read q.dataQueryPos n).drop sizeofDataHead = p.payload ++ rest := by
      rw [hblock, Packet.encode, List.append_assoc, List.drop_left' (length_headBytes _)]
    rw [Memory.drop_read (by omega)] at hdrop
    rw [← Memory.take_read (n := n - sizeofDataHead) (by omega), hdrop, List.take_left]
  refine ⟨hsize, ?_⟩
  unfold DataQueue.packetOut Packet.handedOut
  simp only [hsize, hident, UInt16.ofNat_toNat]
  by_cases hbuf : p.payload.length ≤ bufferSize
  · rw [if_pos hbuf]
    rcases Nat.eq_zero_or_pos p.payload.length with h0 | hpos
    · rw [if_pos (Or.inl h0), h0, List.eq_nil_of_length_eq_zero h0]
    · rw [if_neg (by omega), Memory.readIn_of_le (by omega), hdata, Option.map_some]
  · rw [if_neg hbuf, if_pos (Or.inr (by omega))]

/-- The queue with its first packet taken. -/
theorem represents_taken (hs : Sound q (p :: ps)) (hh : HeadAt q p ps) :
    Represents { q with
      dataPacketCount := dwordSub q.dataPacketCount 1
      dataSize := dwordSub q.dataSize (sizeofDataHead + p.payload.length)
      dataQueryPos := dword (q.dataQueryPos + (sizeofDataHead + p.payload.length)) } ps := by
  have hterm := hs.terminal_le
  have hbuf := hs.buffer_lt
  have hcount := hs.count_eq
  have hsize := hs.size_eq
  rw [List.length_cons] at hcount
  rw [fifoSize_cons] at hsize
  -- what is left of the block the packet was taken from
  have hrest : ∀ ps', q.dataQueryPos ≤ q.terminalPos →
      q.mem.read q.dataQueryPos (q.terminalPos - q.dataQueryPos) = encodeAll (p :: ps') →
      q.dataQueryPos + (sizeofDataHead + p.payload.length) ≤ q.terminalPos ∧
      q.mem.read (q.dataQueryPos + (sizeofDataHead + p.payload.length))
        (q.terminalPos - (q.dataQueryPos + (sizeofDataHead + p.payload.length))) =
        encodeAll ps' := by
    intro ps' hle hblock
    have hlen := congrArg List.length hblock
    rw [Memory.length_read, length_encodeAll, fifoSize_cons] at hlen
    refine ⟨by omega, ?_⟩
    have hdrop := congrArg (List.drop (sizeofDataHead + p.payload.length)) hblock
    rw [Memory.drop_read (by omega), encodeAll_cons,
      List.drop_left' (Packet.length_encode p)] at hdrop
    rw [← Nat.sub_sub]
    exact hdrop
  have hquery : q.dataQueryPos + (sizeofDataHead + p.payload.length) ≤ q.terminalPos := by
    cases hh with
    | linear hl => exact (hrest _ hl.query_le hl.block).1
    | wrapped _ hw => exact (hrest _ hw.query_le hw.first).1
  have hsz : q.dataSize < 2 ^ 32 := by
    cases hh with
    | linear hl =>
      have := (Represents.mk hs (Or.inl hl)).size_le
      omega
    | wrapped hps hw =>
      have := (Represents.mk hs (Or.inr ⟨_, _, by rw [hps]; rfl, hw⟩)).size_le
      omega
  have hle := length_le_fifoSize ps
  have hd₁ : dword (q.dataQueryPos + (sizeofDataHead + p.payload.length)) =
      q.dataQueryPos + (sizeofDataHead + p.payload.length) := dword_of_lt (by omega)
  have hd₂ : dwordSub q.dataSize (sizeofDataHead + p.payload.length) = fifoSize ps := by
    unfold dwordSub dword; omega
  have hd₃ : dwordSub q.dataPacketCount 1 = ps.length := by
    unfold dwordSub dword; omega
  rw [hd₁, hd₂, hd₃]
  refine ⟨⟨rfl, rfl, hterm, hbuf, hs.null, fun p' hp' => hs.small p' (List.mem_cons_of_mem _ hp')⟩,
    ?_⟩
  cases hh with
  | linear hl => exact Or.inl ⟨hl.insert_eq, hquery, (hrest _ hl.query_le hl.block).2⟩
  | wrapped hps hw =>
    have h₁ := hw.insert_le
    exact Or.inr ⟨_, _, hps,
      ⟨by simp only; omega, hquery, (hrest _ hw.query_le hw.first).2, hw.second⟩⟩

/-- **`DistillData` takes the first packet**, and hands it out if the
buffer can hold it. -/
theorem distillData_spec (bufferSize : ℕ) (h : Represents q (p :: ps)) :
    ∃ q', q.distillData bufferSize = some (q', some (p.handedOut bufferSize)) ∧
      Represents q' ps := by
  obtain ⟨hs, hh⟩ := rewind_spec h
  have hsmall := hs.small p List.mem_cons_self
  have hterm := hs.terminal_le
  have hsize : q.dataSize ≠ 0 := by
    rw [h.size_eq, fifoSize_cons, sizeofDataHead]; omega
  have hcount : q.dataPacketCount ≠ 0 := by rw [h.count_eq]; simp
  obtain ⟨rest, hle, hblock⟩ : ∃ rest, q.rewind.dataQueryPos ≤ q.rewind.terminalPos ∧
      q.rewind.mem.read q.rewind.dataQueryPos
        (q.rewind.terminalPos - q.rewind.dataQueryPos) = p.encode ++ rest := by
    cases hh with
    | linear hl => exact ⟨_, hl.query_le, hl.block⟩
    | wrapped _ hw => exact ⟨_, hw.query_le, hw.first⟩
  have hlen := congrArg List.length hblock
  rw [Memory.length_read, List.length_append, Packet.length_encode] at hlen
  have hmem : q.rewind.dataQueueBuffer = some q.rewind.mem := by
    cases hb : q.rewind.dataQueueBuffer with
    | some m => simp [DataQueue.mem, hb]
    | none =>
      have := hs.null hb
      simp only [sizeofDataHead] at hlen
      omega
  obtain ⟨hword, hout⟩ := packetOut_spec bufferSize hblock (by omega) hsmall
  refine ⟨_, ?_, represents_taken hs hh⟩
  unfold DataQueue.distillData
  rw [if_neg (by simp [hsize, hcount])]
  simp only
  rw [hmem, Option.bind_some, Memory.readIn_of_le (by omega), Option.bind_some, hout,
    Option.map_some, hword, word_of_lt hsmall]

/-- The buffer handed to `DistillData` can hold the packet at the head. -/
def DistillFits (ps : List Packet) (bufferSize : ℕ) : Prop :=
  ∀ p ∈ ps.head?, p.payload.length ≤ bufferSize

/-- What a call asks of the queue it is made on. -/
def CallOk (q : DataQueue) (ps : List Packet) : QueueCall → Prop
  | .insertData _ data alloc => InsertOk q data.buffer.length alloc
  | .insertDataMulti _ dataBuffer alloc => InsertOk q (joined dataBuffer).length alloc
  | .distillData bufferSize => DistillFits ps bufferSize
  | .removeData _ => True

/-- A buffer of `n` equal bytes. -/
def filled (n : ℕ) (b : UInt8) (h : n < 2 ^ 16 := by decide) : DataBuffer :=
  ⟨List.replicate n b, by rw [List.length_replicate]; exact h⟩

end GameServer.ServiceCore
