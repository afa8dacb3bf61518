import GameServer.Common.Run
import GameServer.KernelEngine.Model.SocketItem
import GameServer.ServiceCore.Encrypt
/-!
# KernelEngine — putting packets together again

A TCP connection delivers a stream; the item cuts it into packets. The
loop takes whole packets from the front of the receive buffer and leaves
the start of the next one, so what has been delivered and what is held
together make up what came in (`handlePackets_eq`).

Until the first packet is counted the item also looks for a WebSocket
handshake, and ends the chunk it received with a zero byte as if the
buffer had been empty. If a first packet comes in several chunks, that
byte falls inside it. `ChunkOk` asks that it fall on a zero.
-/

namespace GameServer.KernelEngine

open ServiceCore ServerSocketItem

variable {n : ℕ} {m : Memory}

/-! ## Packets on the wire -/

/-- A packet a peer sends: a command with its payload. Of the kernel
commands there are two. -/
structure SentPacket where
  command : TCPCommand
  main_lt : command.mainCmdID < 2 ^ 16
  sub_lt : command.subCmdID < 2 ^ 16
  payload : List UInt8
  size_le : sizeofTCPHead + payload.length ≤ socketTcpBuffer
  legal : command.mainCmdID = mdmKnCommand →
    command.subCmdID = subKnDetectSocket ∨ command.subCmdID = subKnValidateSocket

namespace SentPacket

variable (p : SentPacket)

def size : ℕ := sizeofTCPHead + p.payload.length

/-- The packet before encryption. -/
def plain : Memory := Memory.fresh.write 0 (packetBytes p.command p.payload)

/-- **The packet on the wire**: what `EncryptBuffer` makes of it. -/
def encode : List UInt8 := (encryptBuffer p.plain p.size true).1.read 0 p.size

theorem length_encode : p.encode.length = p.size := Memory.length_read

theorem size_ge : sizeofTCPHead ≤ p.size := Nat.le_add_right _ _

theorem size_lt : p.size < 2 ^ 16 := Nat.lt_of_le_of_lt p.size_le (by decide)

/-- The command and the payload as they stand behind `TCP_Info`. -/
theorem read_plain : p.plain.read sizeofTCPInfo (p.size - sizeofTCPInfo) =
    wordBytes p.command.mainCmdID ++ (wordBytes p.command.subCmdID ++ p.payload) := by
  have hlen : (packetBytes p.command p.payload).length = p.size := by
    simp [packetBytes, size, sizeofTCPHead, sizeofTCPInfo, sizeofTCPCommand]
    omega
  have hself : p.plain.read 0 (packetBytes p.command p.payload).length =
      packetBytes p.command p.payload := Memory.read_write_self
  have hdrop := congrArg (List.drop sizeofTCPInfo) hself
  have h4 : sizeofTCPInfo ≤ p.size := Nat.le_trans (by decide) p.size_ge
  rw [hlen, Memory.drop_read h4, Nat.zero_add] at hdrop
  rw [hdrop]
  simp [packetBytes, sizeofTCPInfo, wordBytes]

theorem encode_head : p.encode[0]? = some socketTcpVer ∧
    ∃ lo hi, p.encode[2]? = some lo ∧ p.encode[3]? = some hi ∧ wordOf lo hi = p.size := by
  obtain ⟨hkind, -, hsize⟩ := encryptBuffer_head p.plain true p.size_ge p.size_lt
  have h8 : 8 ≤ p.size := p.size_ge
  have hget : ∀ i, i < p.size → p.encode[i]? = some ((encryptBuffer p.plain p.size true).1 i) := by
    intro i hi
    rw [encode, Memory.getElem?_read hi, Nat.zero_add]
  refine ⟨by rw [hget 0 (by omega), hkind], _, _, hget 2 (by omega), hget 3 (by omega), hsize⟩

end SentPacket

/-- Packets on the wire, one behind the other. -/
def encodePackets (ps : List SentPacket) : List UInt8 := (ps.map SentPacket.encode).flatten

/-- What the engine is told of packets: all but the kernel commands. -/
def deliveries (socketID : ℕ) (ps : List SentPacket) : List ItemCall :=
  (ps.filter fun p => p.command.mainCmdID ≠ mdmKnCommand).map fun p =>
    .readEvent socketID p.command p.payload

@[simp] theorem encodePackets_nil : encodePackets [] = [] := rfl

@[simp] theorem encodePackets_cons {p : SentPacket} {ps : List SentPacket} :
    encodePackets (p :: ps) = p.encode ++ encodePackets ps := rfl

variable {item : ServerSocketItem} {p : SentPacket} {ps : List SentPacket}
variable {bs rest : List UInt8}

/-- The bytes received and not yet handled. -/
def ServerSocketItem.held (item : ServerSocketItem) : List UInt8 :=
  item.recvBuf.read 0 item.recvSize

theorem length_held : item.held.length = item.recvSize := Memory.length_read

theorem getElem?_held {i : ℕ} (hi : i < item.recvSize) :
    item.held[i]? = some (item.recvBuf i) := by
  rw [ServerSocketItem.held, Memory.getElem?_read hi, Nat.zero_add]

/-- The command and the payload behind `TCP_Info`. -/
theorem command_of_read {a b : ℕ} {data : List UInt8} (ha : a < 2 ^ 16)
    (hb : b < 2 ^ 16) (hm : m.read sizeofTCPInfo n = wordBytes a ++ (wordBytes b ++ data)) :
    m.wordAt 4 = a ∧ m.wordAt 6 = b ∧ m.read sizeofTCPHead data.length = data := by
  have hlen : n = 4 + data.length := by
    have := congrArg List.length hm
    simp only [Memory.length_read, List.length_append, length_wordBytes] at this
    omega
  have hsub : m.read 6 (n - 2) = wordBytes b ++ data := by
    have hdrop := congrArg (List.drop 2) hm
    rwa [Memory.drop_read (by omega), List.drop_left' (length_wordBytes a)] at hdrop
  have hdata : m.read sizeofTCPHead (n - 2 - 2) = data := by
    have hdrop := congrArg (List.drop 2) hsub
    rwa [Memory.drop_read (by omega), List.drop_left' (length_wordBytes b)] at hdrop
  refine ⟨Memory.wordAt_of_read ha hm, Memory.wordAt_of_read hb hsub, ?_⟩
  rwa [show n - 2 - 2 = data.length by omega] at hdata

/-- **The packet at the front of a stream**: waited for until it is
complete, then taken. -/
theorem nextPacket_eq (htcp : item.socketType = .tcp) (hbs : item.held <+: p.encode ++ rest) :
    item.nextPacket =
      if item.recvSize < p.size then .wait
      else if p.command.mainCmdID = mdmKnCommand then .kernel p.size
      else .deliver p.size p.command p.payload := by
  have h8 := p.size_ge
  have hlt := p.size_lt
  unfold nextPacket
  by_cases hhead : item.recvSize < sizeofTCPHead
  · rw [if_pos hhead, if_pos (by omega)]
  rw [if_neg hhead]
  -- the bytes of the head are those of the packet
  have hget : ∀ i, i < item.recvSize → i < p.size → p.encode[i]? = some (item.recvBuf i) := by
    intro i hi hip
    obtain ⟨t, ht⟩ := hbs
    have hleft : (item.held ++ t)[i]? = item.held[i]? :=
      List.getElem?_append_left (by rw [length_held]; exact hi)
    rw [← getElem?_held hi, ← hleft, ht,
      List.getElem?_append_left (by rw [p.length_encode]; exact hip)]
  have h8' : 8 ≤ item.recvSize := Nat.not_lt.1 hhead
  have h8'' : 8 ≤ p.size := h8
  obtain ⟨hkind, lo, hi, hlo, hhi, hsize⟩ := p.encode_head
  have hword : item.recvBuf.wordAt 2 = p.size := by
    rw [hget 2 (by omega) (by omega), Option.some.injEq] at hlo
    rw [hget 3 (by omega) (by omega), Option.some.injEq] at hhi
    rw [Memory.wordAt, hlo, hhi, hsize]
  have hbyte : item.recvBuf 0 = socketTcpVer := by
    rw [hget 0 (by omega) (by omega), Option.some.injEq] at hkind
    exact hkind
  simp only [hword, hbyte]
  rw [if_neg (show ¬ socketTcpBuffer < p.size from Nat.not_lt.2 p.size_le),
    if_neg (Nat.not_lt.2 h8), if_neg (fun h => h rfl)]
  by_cases hwait : item.recvSize < p.size
  · rw [if_pos hwait, if_pos hwait]
  rw [if_neg hwait, if_neg hwait, if_neg (by rw [htcp]; decide)]
  -- the copy the code works on holds the packet, and decrypts to it
  have hfront : item.recvBuf.read 0 p.size = p.encode := by
    obtain ⟨t, ht⟩ := hbs
    have hheld : item.held.take p.size = (item.held ++ t).take p.size :=
      (List.take_append_of_le_length (by rw [length_held]; exact Nat.not_lt.1 hwait)).symm
    rwa [ht, List.take_left' p.length_encode, ServerSocketItem.held,
      Memory.take_read (Nat.not_lt.1 hwait)] at hheld
  have hcopy : (Memory.fresh.write 0 (item.recvBuf.read 0 p.size)).read 0 p.size = p.encode := by
    have hself : (Memory.fresh.write 0 p.encode).read 0 p.encode.length = p.encode :=
      Memory.read_write_self
    rw [hfront]
    rwa [p.length_encode] at hself
  obtain ⟨m, hcrevasse, hm⟩ : ∃ m : Memory,
      crevasseBuffer (Memory.fresh.write 0 (item.recvBuf.read 0 p.size)) p.size = some (m, p.size) ∧
      m.read sizeofTCPInfo (p.size - sizeofTCPInfo) =
        wordBytes p.command.mainCmdID ++ (wordBytes p.command.subCmdID ++ p.payload) := by
    refine ⟨_, crevasseBuffer_of_encrypted true h8 hlt hcopy, ?_⟩
    have hself : ∀ m : Memory, (m.write sizeofTCPInfo
        (p.plain.read sizeofTCPInfo (p.size - sizeofTCPInfo))).read sizeofTCPInfo
          (p.plain.read sizeofTCPInfo (p.size - sizeofTCPInfo)).length =
        p.plain.read sizeofTCPInfo (p.size - sizeofTCPInfo) := fun m => Memory.read_write_self
    rw [Memory.length_read] at hself
    rw [hself, p.read_plain]
  obtain ⟨hmain, hsub, hdata⟩ := command_of_read p.main_lt p.sub_lt hm
  rw [hcrevasse]
  simp only [hmain, hsub, SentPacket.size, Nat.add_sub_cancel_left, hdata]
  by_cases hkernel : p.command.mainCmdID = mdmKnCommand
  · rw [if_pos hkernel, if_pos hkernel, if_pos (p.legal hkernel)]
  · rw [if_neg hkernel, if_neg hkernel]

theorem held_removePacket (hn : n ≤ item.recvSize) :
    (item.removePacket n).held = item.held.drop n := by
  have hself : (item.recvBuf.write 0 (item.recvBuf.read n (item.recvSize - n))).read 0
      (item.recvBuf.read n (item.recvSize - n)).length = item.recvBuf.read n (item.recvSize - n) :=
    Memory.read_write_self
  rw [Memory.length_read] at hself
  rw [ServerSocketItem.held, ServerSocketItem.held, Memory.drop_read hn, Nat.zero_add]
  exact hself

/-- The item a loop over packets leaves: only the buffer and the count
of packets change. -/
def Drained (item item' : ServerSocketItem) : Prop :=
  ∃ recvSize recvBuf recvPacketCount,
    item' = { item with recvSize, recvBuf, recvPacketCount } ∧ recvSize ≤ item.recvSize

/-- **The loop delivers the complete packets** at the front of a stream,
in order, and leaves the start of the next one. -/
theorem handlePackets_eq : ∀ {ps : List SentPacket} {item : ServerSocketItem} (fuel : ℕ),
    item.socketType = .tcp → item.held <+: encodePackets ps → item.recvSize ≤ fuel →
    ∃ item' taken kept, handlePackets fuel item =
        (item', deliveries item.socketID taken, false) ∧
      Drained item item' ∧ ps = taken ++ kept ∧ item.held = encodePackets taken ++ item'.held ∧
      ∀ p ∈ kept.head?, item'.held.length < p.size := by
  intro ps
  induction ps with
  | nil =>
    intro item fuel _ hbs _
    rw [encodePackets_nil, List.prefix_nil] at hbs
    have hzero : item.recvSize = 0 := by rw [← length_held, hbs]; rfl
    refine ⟨item, [], [], ?_, ⟨_, _, _, rfl, Nat.le_refl _⟩, rfl, by simp, fun p hp => by cases hp⟩
    cases fuel with
    | zero => rfl
    | succ fuel =>
      have hwait : item.nextPacket = .wait := by
        rw [nextPacket, if_pos (by rw [hzero]; decide)]
      rw [handlePackets, hwait]
      rfl
  | cons p ps ih =>
    intro item fuel htcp hbs hfuel
    have h8 := p.size_ge
    have hnext : item.nextPacket = _ := nextPacket_eq htcp hbs
    by_cases hwait : item.recvSize < p.size
    · rw [if_pos hwait] at hnext
      refine ⟨item, [], p :: ps, ?_, ⟨_, _, _, rfl, Nat.le_refl _⟩, rfl, by simp, ?_⟩
      · cases fuel with
        | zero => rfl
        | succ fuel =>
          rw [handlePackets, hnext]
          rfl
      · rintro q ⟨⟩
        rw [length_held]
        exact hwait
    rw [if_neg hwait] at hnext
    have hsize : p.size ≤ item.recvSize := Nat.not_lt.1 hwait
    obtain ⟨fuel, rfl⟩ : ∃ k, fuel = k + 1 :=
      ⟨fuel - 1, by have : 8 ≤ p.size := h8; omega⟩
    -- the bytes behind the packet are again the start of a stream
    obtain ⟨bs', hsplit⟩ : p.encode <+: item.held :=
      List.prefix_of_prefix_length_le (List.prefix_append _ _) hbs
        (by rw [p.length_encode, length_held]; exact hsize)
    have hheld : (item.removePacket p.size).held = bs' := by
      rw [held_removePacket hsize, ← hsplit, List.drop_left' p.length_encode]
    have hrest : (item.removePacket p.size).held <+: encodePackets ps := by
      rw [hheld]
      rwa [← hsplit, encodePackets_cons, List.prefix_append_right_inj] at hbs
    have htcp' : (item.removePacket p.size).socketType = .tcp := htcp
    have hless : (item.removePacket p.size).recvSize = item.recvSize - p.size := rfl
    obtain ⟨item', taken, kept, hloop, ⟨n, m, c, hitem', hn⟩, hps, hbytes, hkept⟩ :=
      ih fuel htcp' hrest (by have : 8 ≤ p.size := h8; omega)
    refine ⟨item', p :: taken, kept, ?_, ⟨n, m, c, by rw [hitem']; rfl, by omega⟩,
      by rw [hps]; rfl, ?_, hkept⟩
    · have hid : (item.removePacket p.size).socketID = item.socketID := rfl
      rw [hid] at hloop
      by_cases hkernel : p.command.mainCmdID = mdmKnCommand
      · rw [if_pos hkernel] at hnext
        rw [handlePackets, hnext]
        simp only [hloop]
        simp [deliveries, hkernel]
      · rw [if_neg hkernel] at hnext
        rw [handlePackets, hnext]
        simp only [hloop]
        simp [deliveries, hkernel]
    · rw [encodePackets_cons, List.append_assoc, ← hbytes, hheld, hsplit]

/-! ## One receive -/

/-- A plain TCP connection that is open and waits for its next receive. -/
structure Receiving (item : ServerSocketItem) : Prop where
  tcp : item.socketType = .tcp
  connected : item.hSocket ≠ none
  open_ : item.closeIng = false
  posted : item.recvIng = true

/-- What comes in with one completed receive. -/
structure RecvEvent where
  chunk : List UInt8
  tick : ℕ

/-- **The chunk and where its terminator falls.** A chunk is not empty
and fits behind the bytes held. While no packet has been counted, the
zero byte stored at the length of the chunk has room in the buffer, and
if bytes were held before, it falls on a byte that is zero anyway. -/
structure ChunkOk (item : ServerSocketItem) (e : RecvEvent) : Prop where
  nonempty : e.chunk ≠ []
  fits : item.recvSize + e.chunk.length ≤ recvBufSize
  first : item.recvPacketCount = 0 → e.chunk.length < recvBufSize ∧
    (0 < item.recvSize → (item.held ++ e.chunk)[e.chunk.length]? = some 0)

theorem parseWebSocketHandShake_eq {ws : WebSocket}
    (hm : m 0 = socketTcpVer) : ws.parseWebSocketHandShake m n = some (ws, false) := by
  refine if_neg fun h => ?_
  have hget := congrArg (fun l => l[0]?) h.2
  rw [Memory.getElem?_read (by omega), Nat.zero_add, hm] at hget
  revert hget
  decide

/-- A stream of packets opens with the kind every packet carries. -/
theorem getElem?_zero_of_isPrefix (hbs : bs <+: encodePackets ps) (hne : bs ≠ []) :
    bs[0]? = some socketTcpVer := by
  obtain ⟨t, ht⟩ := hbs
  have hpos : 0 < bs.length := List.length_pos_iff.2 hne
  obtain ⟨p, qs, rfl⟩ : ∃ p qs, ps = p :: qs := by
    cases ps with
    | nil => exact absurd (List.append_eq_nil_iff.1 ht).1 hne
    | cons p qs => exact ⟨p, qs, rfl⟩
  have h8 : 8 ≤ p.size := p.size_ge
  have hleft : (bs ++ t)[0]? = bs[0]? := List.getElem?_append_left hpos
  rw [← hleft, ht, encodePackets_cons,
    List.getElem?_append_left (by rw [p.length_encode]; omega), p.encode_head.1]

/-- The bytes a receive leaves in the buffer, behind those held. -/
theorem read_recv {chunk : List UInt8} :
    (item.recvBuf.write item.recvSize chunk).read 0 (item.recvSize + chunk.length) =
      item.held ++ chunk := by
  have hself : (item.recvBuf.write item.recvSize chunk).read item.recvSize chunk.length = chunk :=
    Memory.read_write_self
  rw [Memory.read_add, Nat.zero_add, hself, Memory.read_write_of_disjoint (Or.inl (by omega))]
  rfl

theorem read_terminated {k : ℕ} (hm : m.read 0 k = bs)
    (hn : k ≤ n ∨ bs[n]? = some 0) : (m.write n [0]).read 0 k = bs := by
  have hset : (m.write (0 + n) [0]).read 0 k = (m.read 0 k).set n 0 := read_write_single m 0
  rw [Nat.zero_add, hm] at hset
  rw [hset]
  rcases hn with hle | hzero
  · have hlen : bs.length = k := by rw [← hm, Memory.length_read]
    exact List.set_eq_of_length_le (by omega)
  · obtain ⟨hlt, hget⟩ := List.getElem?_eq_some_iff.1 hzero
    rw [← hget, List.set_getElem_self]

/-- What follows a receive, on an open connection that holds the start
of a stream. -/
theorem handleRecv_eq (htcp : item.socketType = .tcp) (hconn : item.hSocket ≠ none)
    (hopen : item.closeIng = false) (hbs : item.held <+: encodePackets ps) :
    ∃ item' taken kept, item.handleRecv true =
        { item := item', calls := deliveries item.socketID taken ++ [.wsaRecv] } ∧
      Receiving item' ∧ item'.hSocket = item.hSocket ∧ item'.socketID = item.socketID ∧
      ps = taken ++ kept ∧ item.held = encodePackets taken ++ item'.held ∧
      ∀ p ∈ kept.head?, item'.held.length < p.size := by
  obtain ⟨item', taken, kept, hloop, ⟨n, m, c, rfl, -⟩, hps, hbytes, hkept⟩ :=
    handlePackets_eq item.recvSize htcp hbs (Nat.le_refl _)
  refine ⟨{ item with recvSize := n, recvBuf := m, recvPacketCount := c, recvIng := true },
    taken, kept, ?_, ⟨htcp, hconn, hopen, rfl⟩, rfl, rfl, hps, hbytes, hkept⟩
  simp only [handleRecv, hloop, recvData, hopen, Bool.false_eq_true, if_false, if_true]

/-- **One receive** hands the packets it completes to the engine and
posts the next receive. -/
theorem onRecvCompleted_eq {e : RecvEvent} (sent : Bool) (hitem : Receiving item)
    (hbs : item.held ++ e.chunk <+: encodePackets ps) (hok : ChunkOk item e) :
    ∃ item' taken kept, item.onRecvCompleted e.chunk e.tick sent true =
        some { item := item', calls := deliveries item.socketID taken ++ [.wsaRecv] } ∧
      Receiving item' ∧ item'.hSocket = item.hSocket ∧ item'.socketID = item.socketID ∧
      ps = taken ++ kept ∧ item.held ++ e.chunk = encodePackets taken ++ item'.held ∧
      ∀ p ∈ kept.head?, item'.held.length < p.size := by
  have htcp := hitem.tcp
  have hread : (item.recvBuf.write item.recvSize e.chunk).read 0
      (item.recvSize + e.chunk.length) = item.held ++ e.chunk := read_recv
  -- whatever buffer holds the bytes, the rest is the loop
  have hrest : ∀ (m : Memory), m.read 0 (item.recvSize + e.chunk.length) = item.held ++ e.chunk →
      ∃ item' taken kept,
        { item with
          recvIng := false, recvTickCount := e.tick, recvBuf := m
          recvSize := item.recvSize + e.chunk.length }.handleRecv true =
          { item := item', calls := deliveries item.socketID taken ++ [.wsaRecv] } ∧
        Receiving item' ∧ item'.hSocket = item.hSocket ∧ item'.socketID = item.socketID ∧
        ps = taken ++ kept ∧ item.held ++ e.chunk = encodePackets taken ++ item'.held ∧
        ∀ p ∈ kept.head?, item'.held.length < p.size := by
    intro m hm
    rw [← hm] at hbs ⊢
    exact handleRecv_eq htcp hitem.connected hitem.open_ hbs
  unfold onRecvCompleted
  rw [if_neg hitem.connected, if_neg hok.nonempty, if_neg (by rw [htcp]; decide),
    Memory.writeIn_of_le hok.fits, Option.bind_some]
  by_cases hcount : item.recvPacketCount = 0
  · obtain ⟨hroom, hzero⟩ := hok.first hcount
    have hpos : 0 < e.chunk.length := List.length_pos_iff.2 hok.nonempty
    have hterm : ((item.recvBuf.write item.recvSize e.chunk).write e.chunk.length [0]).read 0
        (item.recvSize + e.chunk.length) = item.held ++ e.chunk := by
      refine read_terminated hread ?_
      rcases Nat.eq_zero_or_pos item.recvSize with h0 | h0
      · exact Or.inl (by omega)
      · exact Or.inr (hzero h0)
    -- the stream opens with a packet, so it is no handshake
    have hfirst : (item.recvBuf.write item.recvSize e.chunk).write e.chunk.length [0] 0 =
        socketTcpVer := by
      have hget := congrArg (fun l => l[0]?) hterm
      rw [Memory.getElem?_read (by omega), Nat.zero_add,
        getElem?_zero_of_isPrefix hbs (by simp [hok.nonempty])] at hget
      exact Option.some.inj hget
    rw [if_pos hcount, Memory.writeIn_of_le (by simp only [List.length_singleton]; omega),
      Option.bind_some, parseWebSocketHandShake_eq hfirst, Option.map_some]
    simp only [Bool.false_eq_true, if_false]
    obtain ⟨item', taken, kept, heq, hrest⟩ := hrest _ hterm
    exact ⟨item', taken, kept, by rw [heq], hrest⟩
  · rw [if_neg hcount]
    obtain ⟨item', taken, kept, heq, hrest⟩ := hrest _ hread
    exact ⟨item', taken, kept, by rw [heq], hrest⟩

/-! ## Whole streams -/

/-- The item a new connection starts with: attached, and its first
receive posted. -/
def ServerSocketItem.connect (item : ServerSocketItem) (hSocket clientAddr tick now : ℕ) :
    ServerSocketItem :=
  ((item.attach hSocket clientAddr tick now).item.recvData true).item

/-- A packet without payload. -/
def bareCommand : SentPacket :=
  ⟨⟨1, 1⟩, by decide, by decide, [], by decide, by decide⟩

end GameServer.KernelEngine
