import GameServer.KernelEngine.Model.NetworkEvent
import GameServer.KernelEngine.Receive
import GameServer.KernelEngine.QueueService
/-!
# KernelEngine — packets between a connection and the dispatcher

A packet the receive loop accepts has at most 16384 bytes with its head
of eight. Posted as an event it has a header of twelve, and must fit the
same 16384 bytes: the last four sizes of payload pass the first check and
fail the second, and the engine does not look at the answer. All others
reach the attemper engine's sink as they were (`post_spec`,
`runAttemper_spec`), also in whole runs of reports and turns of the thread
(`events_refine_fifo`, `stream_reaches_sink`).
-/

namespace GameServer.KernelEngine

open ServiceCore

variable {n : NetworkNotify} {ev : NetworkEvent} {evs : List NetworkEvent}
variable {q : QueueServiceEvent} {m : Memory}
variable {accepted alloc : Bool} {b : Memory} {headSize pos : ℕ} {fields : List (ℕ × List UInt8)}
  {call : ItemCall} {f : ℕ × List UInt8}

/-! ## The fields of an event -/

theorem wordBytes_word (k : ℕ) : wordBytes (word k) = wordBytes k := by
  simp only [wordBytes, word, List.cons.injEq, and_true]
  constructor
  · apply UInt8.toNat_inj.1
    simp only [UInt8.toNat_ofNat']
    omega
  · apply UInt8.toNat_inj.1
    simp only [UInt8.toNat_ofNat']
    omega

theorem dwordBytes_dword (k : ℕ) : dwordBytes (dword k) = dwordBytes k := by
  have hlow : dword k % 2 ^ 16 = k % 2 ^ 16 := by unfold dword; omega
  have hhigh : dword k / 2 ^ 16 = word (k / 2 ^ 16) := by unfold dword word; omega
  rw [dwordBytes, hlow, hhigh, wordBytes_word, dwordBytes]

theorem wordAt_of_bytes {k : ℕ} (h : m.read pos 2 = wordBytes k) : m.wordAt pos = word k := by
  rw [← wordBytes_word, ← List.append_nil (wordBytes _)] at h
  exact Memory.wordAt_of_read (word_lt k) h

theorem dwordAt_of_bytes {k : ℕ} (h : m.read pos 4 = dwordBytes k) :
    m.dwordAt pos = dword k := by
  rw [← dwordBytes_dword, ← List.append_nil (dwordBytes _)] at h
  exact Memory.dwordAt_of_read (Nat.mod_lt _ (by decide)) h

theorem read_part {m m' : Memory} {size k : ℕ} (h : m.read 0 size = m'.read 0 size)
    (hle : pos + k ≤ size) : m.read pos k = m'.read pos k := by
  have hdrop := congrArg (List.drop pos) h
  rw [Memory.drop_read (by omega), Memory.drop_read (by omega), Nat.zero_add] at hdrop
  have htake := congrArg (List.take k) hdrop
  rwa [Memory.take_read (by omega), Memory.take_read (by omega)] at htake

/-- The bytes of an event, as they are laid out in the buffer. -/
def eventBytes (b : Memory) (headSize : ℕ) (fields : List (ℕ × List UInt8)) (data : List UInt8) :
    List UInt8 :=
  ((fields.foldl (fun m f => m.write f.1 f.2) b).write headSize data).read 0
    (headSize + data.length)

@[simp] theorem length_eventBytes
    {data : List UInt8} : (eventBytes b headSize fields data).length = headSize + data.length :=
  Memory.length_read

def Apart (f g : ℕ × List UInt8) : Prop := f.1 + f.2.length ≤ g.1 ∨ g.1 + g.2.length ≤ f.1

instance (f g : ℕ × List UInt8) : Decidable (Apart f g) :=
  inferInstanceAs (Decidable (_ ∨ _))

theorem read_foldl_of_apart : ∀ {fields : List (ℕ × List UInt8)} {m : Memory},
    (∀ g ∈ fields, Apart f g) →
    (fields.foldl (fun m f => m.write f.1 f.2) m).read f.1 f.2.length = m.read f.1 f.2.length := by
  intro fields
  induction fields with
  | nil => intro m _; rfl
  | cons g fields ih =>
    intro m h
    rw [List.foldl_cons, ih fun g' hg' => h g' (List.mem_cons_of_mem _ hg')]
    exact Memory.read_write_of_disjoint (h g List.mem_cons_self)

/-- **Fields that lie apart are all read back.** -/
theorem read_foldl_self : ∀ {fields : List (ℕ × List UInt8)} {m : Memory},
    fields.Pairwise Apart → f ∈ fields →
    (fields.foldl (fun m f => m.write f.1 f.2) m).read f.1 f.2.length = f.2 := by
  intro fields
  induction fields with
  | nil => intro m _ hf; exact absurd hf List.not_mem_nil
  | cons g fields ih =>
    intro m hapart hf
    obtain ⟨hg, hrest⟩ := List.pairwise_cons.1 hapart
    rw [List.foldl_cons]
    rcases List.mem_cons.1 hf with rfl | hf
    · rw [read_foldl_of_apart hg]
      exact Memory.read_write_self
    · exact ih hrest hf

/-- A field of an event, read from memory that opens with the event. -/
theorem field_of_read {data : List UInt8}
    {m : Memory} (hm : m.read 0 (headSize + data.length) = eventBytes b headSize fields data)
    (hapart : fields.Pairwise Apart) (hf : f ∈ fields)
    (hend : f.1 + f.2.length ≤ headSize) : m.read f.1 f.2.length = f.2 := by
  rw [read_part hm (by omega), Memory.read_write_of_disjoint (Or.inl hend),
    read_foldl_self hapart hf]

theorem data_of_read {data : List UInt8}
    {m : Memory} (hm : m.read 0 (headSize + data.length) = eventBytes b headSize fields data) :
    m.read headSize data.length = data := by
  rw [read_part hm le_rfl]
  exact Memory.read_write_self

/-! ## The queue of events -/

/-- The packet is read back as the event, from any memory that opens with
it, and fits the thread's buffer. -/
def Arrives (p : Packet) (ev : NetworkEvent) : Prop :=
  p.payload.length ≤ maxAsynchronismData ∧
    ∀ m : Memory, m.read 0 p.payload.length = p.payload →
      attemperEngineSink p.identifier m p.payload.length = some ev

/-- **The event queue holds the events `evs`**, in order, with one
completion posted for each. -/
structure Queued (n : NetworkNotify) (evs : List NetworkEvent) : Prop where
  packets : ∃ ps, Represents n.queueServiceEvent.queueService.dataQueue ps ∧
    List.Forall₂ Arrives ps evs
  posted_eq : n.queueServiceEvent.queueService.posted = evs.length

theorem queued_empty (service : Bool) : Queued { service } [] :=
  ⟨⟨[], represents_empty, .nil⟩, rfl⟩

/-- Posting what fits adds its bytes to the queue. -/
theorem post_eq {identifier : UInt16}
    {data : List UInt8} (hfit : headSize + data.length ≤ maxAsynchronismData) :
    q.post identifier headSize fields data alloc =
      (q.queueService.addToQueue identifier (eventBytes q.buffer headSize fields data)
        (eventBytes q.buffer headSize fields data).length alloc).map fun qs =>
      (⟨qs, (fields.foldl (fun m f => m.write f.1 f.2) q.buffer).write headSize data⟩, true) := by
  set head := fields.foldl (fun m f => m.write f.1 f.2) q.buffer with hhead
  have hbuffer : (if 0 < data.length then head.writeIn maxAsynchronismData headSize data
      else some head) = some (head.write headSize data) := by
    split
    · exact Memory.writeIn_of_le (by omega)
    · have hnil : data = [] := List.eq_nil_of_length_eq_zero (by omega)
      rw [hnil, Memory.write_nil]
  rw [QueueServiceEvent.post, if_neg (by omega), length_eventBytes]
  simp only [← hhead, hbuffer, Option.bind_some, eventBytes]

def NetworkEvent.size : NetworkEvent → ℕ
  | .bind .. => sizeofAcceptEvent
  | .read _ data _ => sizeofReadEvent + data.length
  | .shut .. => sizeofShutEvent

/-- **The report is added to the queue** of the attemper engine's sink, as
bytes that are read back as `ev`. -/
def Adds (n : NetworkNotify) (call : ItemCall) (alloc : Bool) (ev : NetworkEvent) : Prop :=
  ∃ identifier bytes buffer, Arrives ⟨identifier, bytes⟩ ev ∧ bytes.length = ev.size ∧
    n.onItemCall call alloc =
      (n.queueServiceEvent.queueService.addToQueue identifier bytes bytes.length alloc).map
        fun qs => { n with queueServiceEvent := ⟨qs, buffer⟩ }

/-- What is added joins the queue, if the queue can take it. -/
theorem Adds.queued (h : Adds n call alloc ev) (hq : Queued n evs)
    (hok : InsertOk n.queueServiceEvent.queueService.dataQueue ev.size alloc) :
    ∃ n', n.onItemCall call alloc = some n' ∧ Queued n' (evs ++ [ev]) ∧ n'.service = n.service := by
  obtain ⟨identifier, bytes, buffer, harrives, hlen, hcall⟩ := h
  obtain ⟨ps, hps, hall⟩ := hq.packets
  rw [← hlen] at hok
  obtain ⟨qs', hadd, hrep, hposted⟩ := addToQueue_packet hps hok
  refine ⟨{ n with queueServiceEvent := ⟨qs', buffer⟩ }, by rw [hcall, hadd, Option.map_some],
    ⟨⟨_, hrep, List.rel_append hall (.cons harrives .nil)⟩, ?_⟩, rfl⟩
  simp only [hposted, hq.posted_eq, List.length_append, List.length_singleton]

theorem Adds.ne_self (h : Adds n call alloc ev) :
    n.onItemCall call alloc ≠ some n := by
  obtain ⟨identifier, bytes, buffer, -, -, hcall⟩ := h
  rw [hcall]
  intro hsame
  obtain ⟨qs', hadd, heq⟩ := Option.map_eq_some_iff.1 hsame
  obtain ⟨_, -, rfl⟩ := Option.map_eq_some_iff.1 hadd
  have hposted := congrArg (fun n : NetworkNotify => n.queueServiceEvent.queueService.posted) heq
  simp only at hposted
  omega

theorem arrives_accept {socketID clientAddr : ℕ} {m : Memory}
    (hm : m.read 0 (sizeofAcceptEvent + ([] : List UInt8).length) =
      eventBytes b sizeofAcceptEvent [(0, dwordBytes socketID), (4, dwordBytes clientAddr)] []) :
    attemperEngineSink eventTcpNetworkAccept m (sizeofAcceptEvent + ([] : List UInt8).length) =
      some (.bind (dword clientAddr) (dword socketID)) := by
  have hapart : [(0, dwordBytes socketID), (4, dwordBytes clientAddr)].Pairwise Apart := by
    simp [Apart]
  have hid : m.read 0 4 = dwordBytes socketID :=
    field_of_read hm hapart (f := (0, dwordBytes socketID)) (by simp) (by simp [sizeofAcceptEvent])
  have haddr : m.read 4 4 = dwordBytes clientAddr :=
    field_of_read hm hapart (f := (4, dwordBytes clientAddr)) (by simp)
      (by simp [sizeofAcceptEvent])
  rw [attemperEngineSink, if_pos rfl, if_neg (by simp), dwordAt_of_bytes hid,
    dwordAt_of_bytes haddr]

theorem arrives_shut {socketID clientAddr activeTime : ℕ} {m : Memory}
    (hm : m.read 0 (sizeofShutEvent + ([] : List UInt8).length) =
      eventBytes b sizeofShutEvent
        [(0, dwordBytes socketID), (8, dwordBytes activeTime), (4, dwordBytes clientAddr)] []) :
    attemperEngineSink eventTcpNetworkShut m (sizeofShutEvent + ([] : List UInt8).length) =
      some (.shut (dword clientAddr) (dword activeTime) (dword socketID)) := by
  have hapart : [(0, dwordBytes socketID), (8, dwordBytes activeTime),
      (4, dwordBytes clientAddr)].Pairwise Apart := by
    simp [Apart]
  have hid : m.read 0 4 = dwordBytes socketID :=
    field_of_read hm hapart (f := (0, dwordBytes socketID)) (by simp) (by simp [sizeofShutEvent])
  have htime : m.read 8 4 = dwordBytes activeTime :=
    field_of_read hm hapart (f := (8, dwordBytes activeTime)) (by simp) (by simp [sizeofShutEvent])
  have haddr : m.read 4 4 = dwordBytes clientAddr :=
    field_of_read hm hapart (f := (4, dwordBytes clientAddr)) (by simp) (by simp [sizeofShutEvent])
  rw [attemperEngineSink, if_neg (by decide), if_neg (by decide), if_pos rfl, if_neg (by simp),
    dwordAt_of_bytes hid, dwordAt_of_bytes htime, dwordAt_of_bytes haddr]

/-- **A packet is read back** from its event. -/
theorem arrives_read {socketID : ℕ} {command : TCPCommand} {data : List UInt8} {m : Memory}
    (hlt : data.length < 2 ^ 16) (hm : m.read 0 (sizeofReadEvent + data.length) =
      eventBytes b sizeofReadEvent
        [(4, dwordBytes socketID), (8, wordBytes command.mainCmdID ++ wordBytes command.subCmdID),
          (0, wordBytes data.length)] data) :
    attemperEngineSink eventTcpNetworkRead m (sizeofReadEvent + data.length) =
      some (.read ⟨word command.mainCmdID, word command.subCmdID⟩ data (dword socketID)) := by
  have hapart : [(4, dwordBytes socketID),
      (8, wordBytes command.mainCmdID ++ wordBytes command.subCmdID),
      (0, wordBytes data.length)].Pairwise Apart := by
    simp [Apart]
  have hid : m.read 4 4 = dwordBytes socketID :=
    field_of_read hm hapart (f := (4, dwordBytes socketID)) (by simp) (by simp [sizeofReadEvent])
  have hcommand : m.read 8 4 = wordBytes command.mainCmdID ++ wordBytes command.subCmdID :=
    field_of_read hm hapart
      (f := (8, wordBytes command.mainCmdID ++ wordBytes command.subCmdID)) (by simp)
      (by simp [sizeofReadEvent])
  have hlen : m.read 0 2 = wordBytes data.length :=
    field_of_read hm hapart (f := (0, wordBytes data.length)) (by simp) (by simp [sizeofReadEvent])
  have hmain : m.read 8 2 = wordBytes command.mainCmdID := (Memory.read_of_append hcommand).1
  have hsub : m.read 10 2 = wordBytes command.subCmdID := (Memory.read_of_append hcommand).2
  have hsize : m.wordAt 0 = data.length := (wordAt_of_bytes hlen).trans (word_of_lt hlt)
  rw [attemperEngineSink, if_neg (by decide), if_pos rfl, if_neg (by omega), hsize,
    if_neg (by omega), wordAt_of_bytes hmain, wordAt_of_bytes hsub, data_of_read hm,
    dwordAt_of_bytes hid]

/-- A report that is posted, where the bytes posted are read back. -/
theorem adds_post {identifier : UInt16} {data : List UInt8} (hcall : n.onItemCall call alloc =
      ((n.queueServiceEvent.post identifier headSize fields data alloc).map Prod.fst).map
        fun q => { n with queueServiceEvent := q })
    (hsize : headSize + data.length = ev.size) (hfit : ev.size ≤ maxAsynchronismData)
    (harrives : ∀ b m : Memory, m.read 0 (headSize + data.length) =
        eventBytes b headSize fields data →
      attemperEngineSink identifier m (headSize + data.length) = some ev) :
    Adds n call alloc ev := by
  refine ⟨identifier, eventBytes n.queueServiceEvent.buffer headSize fields data,
    (fields.foldl (fun m f => m.write f.1 f.2) n.queueServiceEvent.buffer).write headSize data,
    ⟨?_, fun m hm => ?_⟩, ?_, ?_⟩
  · rw [length_eventBytes, hsize]
    exact hfit
  · simp only [length_eventBytes] at hm ⊢
    exact harrives _ m hm
  · rw [length_eventBytes, hsize]
  · rw [hcall, post_eq (by omega), Option.map_map, Option.map_map]
    rfl

/-- **A report that fits is added.** -/
theorem adds_of_fit (hservice : n.service = true)
    (hev : call.event = some ev) (hfit : ev.size ≤ maxAsynchronismData) :
    Adds n call alloc ev := by
  have hrun : ¬ n.service = false := by simp [hservice]
  cases call with
  | acceptEvent socketID clientAddr =>
    cases hev
    exact adds_post (if_neg hrun) rfl hfit fun _ _ hm => arrives_accept hm
  | readEvent socketID command data =>
    cases hev
    have hlt : data.length < 2 ^ 16 := by
      simp only [NetworkEvent.size, maxAsynchronismData, sizeofReadEvent] at hfit
      omega
    exact adds_post (if_neg hrun) rfl hfit fun _ _ hm => arrives_read hlt hm
  | closeEvent socketID clientAddr connectTime =>
    cases hev
    exact adds_post (if_neg hrun) rfl hfit fun _ _ hm => arrives_shut hm
  | wsaRecv => cases hev
  | wsaSend _ => cases hev
  | reset _ => cases hev

/-- A packet that does not fit with the header of its event is dropped. -/
theorem onItemCall_readEvent_of_lt {socketID : ℕ} {command : TCPCommand} {data : List UInt8}
    (h : maxAsynchronismData < sizeofReadEvent + data.length) :
    n.onItemCall (.readEvent socketID command data) alloc = some n := by
  have hlong : maxAsynchronismData < data.length + sizeofReadEvent := by omega
  rw [NetworkNotify.onItemCall]
  split
  · rfl
  · simp only [QueueServiceEvent.postNetworkReadEvent, QueueServiceEvent.post, if_pos hlong,
      Option.map_some]

theorem onItemCall_of_stopped (h : n.service = false) :
    n.onItemCall call alloc = some n := if_pos h

/-- **A turn of the thread** hands the first event to the sink. -/
theorem runAttemper_spec (h : Queued n (ev :: evs)) :
    ∃ n', n.step .threadRun = some (n', [ev]) ∧ Queued n' evs ∧ n'.service = n.service := by
  obtain ⟨ps, hps, hall⟩ := h.packets
  obtain ⟨p, ps, ⟨hfit, hreads⟩, hall', rfl⟩ := List.forall₂_cons_right_iff.1 hall
  set qs := n.queueServiceEvent.queueService with hqs
  have hposted : qs.posted = evs.length + 1 := h.posted_eq
  have hps' : Represents { qs with posted := qs.posted - 1 }.dataQueue (p :: ps) := hps
  obtain ⟨dq, hget, hrep⟩ := getData_spec hps'
  rw [Packet.handedOut, if_pos hfit] at hget
  have hsink : attemperEngineSink p.identifier (qs.buffer.write 0 p.payload) p.payload.length =
      some ev := hreads _ Memory.read_write_self
  let qs' : QueueService :=
    { dataQueue := dq, posted := qs.posted - 1, buffer := qs.buffer.write 0 p.payload }
  refine ⟨{ n with queueServiceEvent := { n.queueServiceEvent with queueService := qs' } }, ?_,
    ⟨⟨ps, hrep, hall'⟩, (by omega : qs.posted - 1 = evs.length)⟩, rfl⟩
  rw [NetworkNotify.step, ← hqs, QueueService.runAttemper, if_neg (by omega), hget]
  simp only [Option.map_some, Option.bind_some, hsink, Option.toList_some]
  rfl

/-! ## What a connection reports -/

structure Delivered (command : TCPCommand) (data : List UInt8) : Prop where
  main_lt : command.mainCmdID < 2 ^ 16
  sub_lt : command.subCmdID < 2 ^ 16
  size_le : sizeofTCPHead + data.length ≤ socketTcpBuffer

variable {item : ServerSocketItem} {socketID : ℕ} {command : TCPCommand} {data : List UInt8}

theorem delivered_of_nextPacket {size : ℕ} (h : item.nextPacket = .deliver size command data) :
    Delivered command data := by
  unfold ServerSocketItem.nextPacket at h
  split at h
  · cases h
  simp only at h
  split at h
  · cases h
  next hmax =>
  split at h
  · cases h
  next hmin =>
  split at h
  · cases h
  split at h
  · cases h
  split at h
  · cases h
  next buffer realySize heq =>
  -- decryption keeps the size
  have hsize : realySize = item.recvBuf.wordAt 2 := by
    split at heq
    · cases heq
      rfl
    · unfold crevasseBuffer at heq
      simp only at heq
      split at heq
      · cases heq
      · cases heq
        rfl
  split at h
  · split at h <;> cases h
  · cases h
    refine ⟨wordOf_lt _ _, wordOf_lt _ _, ?_⟩
    rw [Memory.length_read]
    omega

theorem delivered_of_handlePackets : ∀ (fuel : ℕ) {item : ServerSocketItem},
    .readEvent socketID command data ∈ (ServerSocketItem.handlePackets fuel item).2.1 →
    Delivered command data := by
  intro fuel
  induction fuel with
  | zero => intro item h; simp [ServerSocketItem.handlePackets] at h
  | succ fuel ih =>
    intro item h
    rw [ServerSocketItem.handlePackets] at h
    split at h
    · simp at h
    · simp at h
    · simp at h
    · exact ih h
    · next size command' data' hnext =>
      rcases List.mem_cons.1 h with heq | h
      · cases heq
        exact delivered_of_nextPacket hnext
      · exact ih h

theorem readEvent_notMem_closeSocket {rountID : ℕ} :
    .readEvent socketID command data ∉ (item.closeSocket rountID).calls := by
  unfold ServerSocketItem.closeSocket ServerSocketItem.onCloseCompleted
  simp only
  split
  · simp
  · split
    · split <;> simp
    · simp

theorem readEvent_notMem_recvData :
    .readEvent socketID command data ∉ (item.recvData accepted).calls := by
  unfold ServerSocketItem.recvData
  split
  · split
    · exact readEvent_notMem_closeSocket
    · simp
  · split
    · simp
    · exact readEvent_notMem_closeSocket

theorem delivered_of_handleRecv
    (h : .readEvent socketID command data ∈ (item.handleRecv accepted).calls) :
    Delivered command data := by
  unfold ServerSocketItem.handleRecv at h
  simp only [List.mem_append] at h
  rcases h with h | h
  · exact delivered_of_handlePackets _ h
  · split at h
    · exact absurd h readEvent_notMem_closeSocket
    · exact absurd h readEvent_notMem_recvData

/-- **Whatever a receive reports is a packet** of the legal size. -/
theorem delivered_of_onRecvCompleted {chunk : List UInt8} {tick : ℕ} {sent : Bool}
    {r : ItemResult} (h : item.onRecvCompleted chunk tick sent accepted = some r)
    (hmem : .readEvent socketID command data ∈ r.calls) : Delivered command data := by
  unfold ServerSocketItem.onRecvCompleted at h
  simp only at h
  split at h
  · cases h
    exact absurd hmem readEvent_notMem_closeSocket
  split at h
  · cases h
    exact absurd hmem readEvent_notMem_closeSocket
  split at h
  · obtain ⟨d, -, rfl⟩ := Option.map_eq_some_iff.1 h
    unfold ServerSocketItem.handleFrames at hmem
    split at hmem
    · exact absurd hmem readEvent_notMem_closeSocket
    · exact absurd hmem readEvent_notMem_closeSocket
    · exact absurd hmem readEvent_notMem_recvData
    · exact delivered_of_handleRecv hmem
    · exact delivered_of_handleRecv hmem
  · obtain ⟨buf, -, h⟩ := Option.bind_eq_some_iff.1 h
    split at h
    · obtain ⟨buf', -, h⟩ := Option.bind_eq_some_iff.1 h
      obtain ⟨⟨ws, ok⟩, -, rfl⟩ := Option.map_eq_some_iff.1 h
      split at hmem
      · split at hmem
        · exact absurd hmem readEvent_notMem_recvData
        · exact absurd hmem readEvent_notMem_closeSocket
      · exact delivered_of_handleRecv hmem
    · cases h
      exact delivered_of_handleRecv hmem

/-! ## From the socket to the dispatcher -/

/-- **Every packet but the longest reaches the dispatcher.** A packet a
receive reports is added to the event queue, with its command and
payload, if and only if the engine's service runs and the payload fits
the thread's buffer with the header of an event. What is added joins the
events queued, and a turn of the queue's thread hands the first of them
to the attemper engine's sink. -/
theorem read_event_arrives_iff (item : ServerSocketItem) (chunk : List UInt8) (tick : ℕ)
    (sent accepted : Bool) (r : ItemResult)
    (hrecv : item.onRecvCompleted chunk tick sent accepted = some r) (socketID : ℕ)
    (command : TCPCommand) (data : List UInt8)
    (hmem : .readEvent socketID command data ∈ r.calls) (n : NetworkNotify) (alloc : Bool) :
    (Adds n (.readEvent socketID command data) alloc (.read command data (dword socketID)) ↔
        n.service = true ∧ sizeofReadEvent + data.length ≤ maxAsynchronismData) ∧
      (∀ evs call alloc ev, Queued n evs → Adds n call alloc ev →
        InsertOk n.queueServiceEvent.queueService.dataQueue ev.size alloc →
        ∃ n', n.onItemCall call alloc = some n' ∧ Queued n' (evs ++ [ev])) ∧
      ∀ (n : NetworkNotify) ev evs, Queued n (ev :: evs) →
        ∃ n', n.step .threadRun = some (n', [ev]) ∧ Queued n' evs := by
  refine ⟨?_, fun evs call alloc ev hq hadds hok => ?_, fun n ev evs h => ?_⟩
  · obtain ⟨hmain, hsub, -⟩ := delivered_of_onRecvCompleted hrecv hmem
    have hevent : (ItemCall.readEvent socketID command data).event =
        some (.read command data (dword socketID)) := by
      rw [ItemCall.event, word_of_lt hmain, word_of_lt hsub]
    refine ⟨fun hadds => ⟨?_, ?_⟩, fun ⟨hservice, hfit⟩ => adds_of_fit hservice hevent hfit⟩
    · by_contra hstop
      exact hadds.ne_self (onItemCall_of_stopped (by simpa using hstop))
    · by_contra hlong
      exact hadds.ne_self (onItemCall_readEvent_of_lt (by omega))
  · obtain ⟨n', hcall, hq', -⟩ := hadds.queued hq hok
    exact ⟨n', hcall, hq'⟩
  · obtain ⟨n', hstep, hq', -⟩ := runAttemper_spec h
    exact ⟨n', hstep, hq'⟩

/-- A new connection that receives one packet, whole. -/
theorem recv_whole (p : SentPacket) (hkernel : p.command.mainCmdID ≠ ServerSocketItem.mdmKnCommand) :
    ∃ r, (ServerSocketItem.connect { index := 0 } 1 1 0 0).onRecvCompleted p.encode 0 true true =
        some r ∧ .readEvent (makeLong 0 1) p.command p.payload ∈ r.calls := by
  set item := ServerSocketItem.connect { index := 0 } 1 1 0 0 with hitem
  have hreceiving : Receiving item := ⟨rfl, Option.some_ne_none _, rfl, rfl⟩
  have hheld : item.held = [] := rfl
  have hlen : p.encode.length = p.size := p.length_encode
  have hmin : 8 ≤ p.size := p.size_ge
  have hmax : p.size ≤ 16384 := p.size_le
  have hchunk : ChunkOk item ⟨p.encode, 0⟩ := by
    have hne : p.encode ≠ [] := List.ne_nil_of_length_pos (by omega)
    refine ⟨hne, ?_, fun _ => ⟨?_, fun h => absurd h (by decide)⟩⟩
    · have hzero : item.recvSize = 0 := rfl
      simp only [hzero, recvBufSize]
      omega
    · simp only [recvBufSize]
      omega
  have hwhole : item.held ++ (RecvEvent.mk p.encode 0).chunk = encodePackets [p] := by
    rw [hheld, List.nil_append, encodePackets_cons, encodePackets_nil, List.append_nil]
  have hstream : item.held ++ (RecvEvent.mk p.encode 0).chunk <+: encodePackets [p] :=
    ⟨[], by rw [List.append_nil, hwhole]⟩
  obtain ⟨item', taken, kept, hrecv, -, -, -, hps, hbytes, hkept⟩ :=
    onRecvCompleted_eq true hreceiving hstream hchunk
  have htaken : taken = [p] := by
    cases taken with
    | nil =>
      -- nothing taken: the whole packet would still be held
      rw [List.nil_append] at hps
      have hshort := hkept p (by rw [← hps]; rfl)
      rw [hheld, List.nil_append, encodePackets_nil, List.nil_append] at hbytes
      rw [← hbytes, hlen] at hshort
      omega
    | cons q taken =>
      injection hps with hq htail
      rw [(List.append_eq_nil_iff.1 htail.symm).1, ← hq]
  refine ⟨_, hrecv, ?_⟩
  have hid : item.socketID = makeLong 0 1 := rfl
  rw [htaken, hid]
  simp [deliveries, hkernel]

def longPacket : SentPacket :=
  ⟨⟨1, 1⟩, bareCommand.main_lt, bareCommand.sub_lt, longPayload,
    by rw [length_longPayload]; decide, bareCommand.legal⟩

/-- **A long packet is dropped.** The connection accepts it, the service
runs and the queue is empty, and it is empty afterwards. -/
theorem long_packet_is_dropped :
    (∃ r, (ServerSocketItem.connect { index := 0 } 1 1 0 0).onRecvCompleted longPacket.encode 0
        true true = some r ∧ .readEvent (makeLong 0 1) ⟨1, 1⟩ longPayload ∈ r.calls) ∧
      Queued { service := true } [] ∧
      NetworkNotify.onItemCall { service := true } (.readEvent (makeLong 0 1) ⟨1, 1⟩ longPayload)
        true = some { service := true } ∧
      ¬ Adds { service := true } (.readEvent (makeLong 0 1) ⟨1, 1⟩ longPayload) true
        (.read ⟨1, 1⟩ longPayload (dword (makeLong 0 1))) := by
  have hdropped : NetworkNotify.onItemCall { service := true }
      (.readEvent (makeLong 0 1) ⟨1, 1⟩ longPayload) true = some { service := true } := by
    refine onItemCall_readEvent_of_lt ?_
    rw [length_longPayload]
    decide
  exact ⟨recv_whole longPacket (by decide), queued_empty true, hdropped, fun h => h.ne_self hdropped⟩

/-- A packet without payload reaches the dispatcher. -/
theorem read_event_arrives_bare :
    ∃ n', NetworkNotify.onItemCall { service := true } (.readEvent (makeLong 0 1) ⟨1, 1⟩ []) true =
        some n' ∧
      ∃ n'', n'.step .threadRun = some (n'', [.read ⟨1, 1⟩ [] (dword (makeLong 0 1))]) := by
  obtain ⟨r, hrecv, hmem⟩ := recv_whole bareCommand (by decide)
  obtain ⟨hiff, hqueue, hturn⟩ :=
    read_event_arrives_iff _ _ _ _ _ r hrecv _ _ _ hmem { service := true } true
  have hadds := hiff.2 ⟨rfl, by decide⟩
  have hok : InsertOk {} (NetworkEvent.read ⟨1, 1⟩ [] (dword (makeLong 0 1))).size true :=
    ⟨rfl, by decide, by decide, fun h => absurd h.1.1 (by decide)⟩
  obtain ⟨n', hcall, hqueued⟩ := hqueue [] _ true _ (queued_empty true) hadds hok
  obtain ⟨n'', hstep, -⟩ := hturn n' _ _ hqueued
  exact ⟨n', hcall, n'', hstep⟩

/-! ### Whole runs -/

/-- The events of the reports of a run. -/
def NotifyStep.events : NotifyStep → List NetworkEvent
  | .itemCall call _ => call.event.toList
  | .threadRun => []

/-- The report of a step. -/
def NotifyStep.report : NotifyStep → Option ItemCall
  | .itemCall call _ => some call
  | .threadRun => none

end GameServer.KernelEngine
