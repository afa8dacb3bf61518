import GameServer.KernelEngine.Model.Engine
/-!
# KernelEngine — what a connection's steps leave behind

`ItemInv` relates an item to the operations Winsock holds for it: at
most one receive, and of the sends at most the first in line. An item
that has reported its end is idle. Every function of the item keeps
this, and either goes on with the connection or ends it (`Outcome`): the
end is one close event, if there was a connection, and then a reset. While
it goes on its sends are a line (`sends_in_order`).
-/

namespace GameServer.KernelEngine

open ServiceCore ServerSocketItem TCPNetworkEngine

variable {item item' : ServerSocketItem} {r : ItemResult} {pr : ℕ} {ps : List OverLappedSend}
variable {accepted alloc : Bool} {data : List UInt8}

/-! ## The state of an item -/

/-- No connection uses the item and nothing is in flight for it. -/
structure Idle (item : ServerSocketItem) : Prop where
  notify : item.notify = true
  hSocket : item.hSocket = none
  recvIng : item.recvIng = false
  sends : item.overLappedSendActive = []

/-- The item, with `pr` receives and the sends `ps` in flight for it. -/
structure ItemInv (item : ServerSocketItem) (pr : ℕ) (ps : List OverLappedSend) : Prop where
  closeIng : item.closeIng = false
  recv_le : pr ≤ if item.recvIng then 1 else 0
  send_eq : ps = [] ∨ ps = item.overLappedSendActive.head?.toList
  idle : item.notify = true → Idle item

def isLifeCall : ItemCall → Bool
  | .acceptEvent .. | .closeEvent .. | .reset _ => true
  | .readEvent .. | .wsaRecv | .wsaSend _ => false

def lifeCalls (calls : List ItemCall) : List ItemCall := calls.filter isLifeCall

/-- **A step goes on with a connection or ends it.** -/
inductive Outcome (item : ServerSocketItem) (r : ItemResult) : Prop
  | goesOn : lifeCalls r.calls = [] → r.item.notify = item.notify →
      r.item.rountID = item.rountID → Outcome item r
  | ends (clientAddr connectTime : ℕ) :
      lifeCalls r.calls = (if item.notify then []
        else [.closeEvent item.socketID clientAddr connectTime]) ++ [.reset item.rountID] →
      Idle r.item → r.item.rountID = word (item.rountID + 1) → Outcome item r

/-- What a step does to an item with operations in flight. -/
structure Effect (item : ServerSocketItem) (pr : ℕ) (ps : List OverLappedSend) (r : ItemResult) :
    Prop where
  inv : ItemInv r.item (pr + recvs r.calls) (ps ++ sends r.calls)
  index_eq : r.item.index = item.index
  outcome : Outcome item r

theorem Idle.itemInv (h : Idle item) (hclose : item.closeIng = false) : ItemInv item 0 [] :=
  ⟨hclose, Nat.zero_le _, Or.inl rfl, fun _ => h⟩

theorem ItemInv.of_connected (hnotify : item.notify = false) (hclose : item.closeIng = false)
    (hrecv : pr ≤ if item.recvIng then 1 else 0)
    (hsend : ps = [] ∨ ps = item.overLappedSendActive.head?.toList) : ItemInv item pr ps := by
  refine ⟨hclose, hrecv, hsend, fun hn => ?_⟩
  rw [hnotify] at hn
  cases hn

/-- An item with something going on is used by a connection. -/
theorem ItemInv.notify_eq_false (h : ItemInv item pr ps)
    (hused : item.hSocket ≠ none ∨ item.recvIng = true ∨ item.overLappedSendActive ≠ []) :
    item.notify = false := by
  by_contra hne
  have hidle := h.idle (Bool.not_eq_false _ ▸ hne)
  rcases hused with hs | hs | hs
  · exact hs hidle.hSocket
  · rw [hidle.recvIng] at hs
    cases hs
  · exact hs hidle.sends

/-- Only the round, the index and whether there is a connection matter
to what a step makes of it. -/
theorem Outcome.congr (h : Outcome item' r) (hindex : item'.index = item.index)
    (hround : item'.rountID = item.rountID) (hnotify : item'.notify = item.notify) :
    Outcome item r := by
  have hid : item'.socketID = item.socketID := by rw [socketID, socketID, hindex, hround]
  rcases h with ⟨hcalls, hn, hr⟩ | ⟨a, t, hcalls, hidle, hr⟩
  · exact .goesOn hcalls (hn.trans hnotify) (hr.trans hround)
  · rw [hnotify, hid, hround] at hcalls
    exact .ends a t hcalls hidle (by rw [hr, hround])

theorem Effect.congr (h : Effect item' pr ps r) (hindex : item'.index = item.index)
    (hround : item'.rountID = item.rountID) (hnotify : item'.notify = item.notify) :
    Effect item pr ps r :=
  ⟨h.inv, h.index_eq.trans hindex, h.outcome.congr hindex hround hnotify⟩

theorem effect_self (h : ItemInv item pr ps) (ret : Bool) : Effect item pr ps { item, ret } := by
  refine ⟨?_, rfl, .goesOn rfl rfl rfl⟩
  rw [show recvs [] = 0 from rfl, show sends [] = [] from rfl, List.append_nil]
  exact h

theorem Effect.ret (h : Effect item pr ps r) (ret : Bool) : Effect item pr ps { r with ret } := by
  refine ⟨h.inv, h.index_eq, ?_⟩
  rcases h.outcome with ⟨hcalls, hn, hr⟩ | ⟨a, t, hcalls, hidle, hr⟩
  · exact .goesOn hcalls hn hr
  · exact .ends a t hcalls hidle hr

/-! ## Closing -/

/-- **`CloseSocket`** ends the connection when nothing is in flight. -/
theorem closeSocket_effect (h : ItemInv item pr ps) (rountID : ℕ) :
    Effect item pr ps (item.closeSocket rountID) := by
  unfold closeSocket
  by_cases hround : item.rountID ≠ rountID
  · rw [if_pos hround]
    exact effect_self h false
  rw [if_neg hround]
  simp only
  by_cases hquiet : item.recvIng = false ∧ item.overLappedSendActive = []
  · rw [if_pos hquiet]
    obtain ⟨hrecv, hsend⟩ := hquiet
    have hpr : pr = 0 := by
      have := h.recv_le
      rw [hrecv] at this
      simpa using this
    have hps : ps = [] := by
      rcases h.send_eq with hps | hps
      · exact hps
      · rw [hps, hsend]
        rfl
    have hidle : Idle (onCloseCompleted { item with hSocket := none }).item := ⟨rfl, rfl, rfl, rfl⟩
    refine ⟨?_, rfl, .ends item.clientAddr item.connectTime ?_ hidle rfl⟩
    · have hcalls : recvs (onCloseCompleted { item with hSocket := none }).calls = 0 ∧
          sends (onCloseCompleted { item with hSocket := none }).calls = [] := by
        simp only [onCloseCompleted]
        cases item.notify <;> exact ⟨rfl, rfl⟩
      rw [hpr, hps, hcalls.1, hcalls.2]
      exact hidle.itemInv rfl
    · simp only [onCloseCompleted, lifeCalls]
      cases item.notify <;> rfl
  · -- something is in flight, so the item waits with a closed socket
    rw [if_neg hquiet]
    have hinv : ItemInv { item with hSocket := none } pr ps := by
      refine ⟨h.closeIng, h.recv_le, h.send_eq, fun hn => ?_⟩
      have hidle := h.idle hn
      exact absurd ⟨hidle.recvIng, hidle.sends⟩ hquiet
    exact (effect_self hinv true).congr rfl rfl rfl

/-! ## Receiving -/

/-- **`RecvData`** on a connection without a receive in flight. -/
theorem recvData_effect (h : ItemInv item 0 ps) (hnotify : item.notify = false)
    (accepted : Bool) :
    Effect item 0 ps (item.recvData accepted) := by
  have hopen : ¬ item.closeIng = true := by rw [h.closeIng]; decide
  unfold recvData
  rw [if_neg hopen]
  by_cases hacc : accepted = true
  · rw [if_pos hacc]
    refine ⟨.of_connected hnotify h.closeIng (Nat.le_refl _) ?_, rfl, .goesOn rfl rfl rfl⟩
    rw [show sends [.wsaRecv] = [] from rfl, List.append_nil]
    exact h.send_eq
  · rw [if_neg hacc]
    have hinv : ItemInv { item with recvIng := false } 0 ps :=
      .of_connected hnotify h.closeIng (Nat.zero_le _) h.send_eq
    exact ((closeSocket_effect hinv _).ret false).congr rfl rfl rfl

/-- Calls of the engine with data leave the rest of a step as it is. -/
theorem Effect.prepend (h : Effect item pr ps r) {calls : List ItemCall}
    (hcalls : ∀ c ∈ calls, ∃ id command data, c = .readEvent id command data) :
    Effect item pr ps { r with calls := calls ++ r.calls } := by
  have hlife : lifeCalls (calls ++ r.calls) = lifeCalls r.calls := by
    rw [lifeCalls, List.filter_append, List.filter_eq_nil_iff.2, List.nil_append]
    · rfl
    · intro c hc
      obtain ⟨id, command, data, rfl⟩ := hcalls c hc
      simp [isLifeCall]
  have hrecvs : recvs (calls ++ r.calls) = recvs r.calls := by
    rw [recvs, List.count_append, List.count_eq_zero.2, Nat.zero_add]
    · rfl
    · intro hc
      obtain ⟨id, command, data, heq⟩ := hcalls _ hc
      cases heq
  have hsends : sends (calls ++ r.calls) = sends r.calls := by
    rw [sends, List.filterMap_append, List.filterMap_eq_nil_iff.2, List.nil_append]
    · rfl
    · intro c hc
      obtain ⟨id, command, data, rfl⟩ := hcalls c hc
      rfl
  refine ⟨by rw [hrecvs, hsends]; exact h.inv, h.index_eq, ?_⟩
  rcases h.outcome with ⟨hc, hn, hr⟩ | ⟨a, t, hc, hidle, hr⟩
  · exact .goesOn (hlife.trans hc) hn hr
  · exact .ends a t (hlife.trans hc) hidle hr

/-- The loop over packets changes only the buffer and the count, and
calls the engine only with data. -/
theorem handlePackets_frame : ∀ (fuel : ℕ) (item : ServerSocketItem),
    (∃ recvSize recvBuf recvPacketCount,
      (handlePackets fuel item).1 = { item with recvSize, recvBuf, recvPacketCount }) ∧
    ∀ c ∈ (handlePackets fuel item).2.1, ∃ id command data, c = .readEvent id command data := by
  intro fuel
  induction fuel with
  | zero =>
    intro item
    exact ⟨⟨_, _, _, rfl⟩, by simp [handlePackets]⟩
  | succ fuel ih =>
    intro item
    rw [handlePackets]
    cases item.nextPacket with
    | wait => exact ⟨⟨_, _, _, rfl⟩, by simp⟩
    | reject => exact ⟨⟨_, _, _, rfl⟩, by simp⟩
    | illegal => exact ⟨⟨_, _, _, rfl⟩, by simp⟩
    | kernel size =>
      obtain ⟨⟨n, m, k, heq⟩, hcalls⟩ := ih (item.removePacket size)
      exact ⟨⟨n, m, k, heq.trans rfl⟩, hcalls⟩
    | deliver size command data =>
      obtain ⟨⟨n, m, k, heq⟩, hcalls⟩ := ih (item.removePacket size)
      refine ⟨⟨n, m, k, heq.trans rfl⟩, fun c hc => ?_⟩
      rcases List.mem_cons.1 hc with rfl | hc
      · exact ⟨_, _, _, rfl⟩
      · exact hcalls c hc

/-- A connection without a receive in flight. -/
structure Between (item : ServerSocketItem) (ps : List OverLappedSend) : Prop where
  inv : ItemInv item 0 ps
  notify : item.notify = false

theorem Between.congr (h : Between item ps) (item' : ServerSocketItem)
    (hclose : item'.closeIng = item.closeIng)
    (hsend : item'.overLappedSendActive = item.overLappedSendActive)
    (hnotify : item'.notify = item.notify) : Between item' ps := by
  refine ⟨.of_connected (hnotify.trans h.notify) (hclose.trans h.inv.closeIng) (Nat.zero_le _) ?_,
    hnotify.trans h.notify⟩
  rw [hsend]
  exact h.inv.send_eq

theorem handleRecv_effect (h : Between item ps) (accepted : Bool) :
    Effect item 0 ps (item.handleRecv accepted) := by
  obtain ⟨⟨n, m, k, hitem⟩, hcalls⟩ := handlePackets_frame item.recvSize item
  unfold handleRecv
  generalize handlePackets item.recvSize item = q at hitem hcalls
  obtain ⟨item', calls, thrown⟩ := q
  simp only at hitem hcalls
  subst hitem
  have hbet := h.congr { item with recvSize := n, recvBuf := m, recvPacketCount := k } rfl rfl rfl
  refine Effect.prepend ?_ hcalls
  cases thrown with
  | true => exact ((closeSocket_effect hbet.inv _).ret false).congr rfl rfl rfl
  | false =>
    exact (recvData_effect hbet.inv hbet.notify accepted).congr rfl rfl rfl

theorem handleFrames_effect (h : Between item ps) (d : DecodeResult) (accepted : Bool) :
    Effect item 0 ps (item.handleFrames d accepted) := by
  have hbet := h.congr
    { item with websocket := d.websocket, recvBuf := d.out, recvSize := d.outSize } rfl rfl rfl
  unfold handleFrames
  simp only
  cases d.ret with
  | closingFrame => exact (closeSocket_effect hbet.inv _).congr rfl rfl rfl
  | errorFrame => exact (closeSocket_effect hbet.inv _).congr rfl rfl rfl
  | middleFrame =>
    exact (recvData_effect hbet.inv hbet.notify accepted).congr rfl rfl rfl
  | emptyFrame => exact (handleRecv_effect hbet accepted).congr rfl rfl rfl
  | openingFrame => exact (handleRecv_effect hbet accepted).congr rfl rfl rfl

/-- **`OnRecvCompleted`**, for the receive that was in flight. -/
theorem onRecvCompleted_effect (h : ItemInv item 1 ps) {chunk : List UInt8} {tick : ℕ}
    {sent : Bool} (hr : item.onRecvCompleted chunk tick sent accepted = some r) :
    Effect item 0 ps r := by
  have hrecv : item.recvIng = true := by
    have := h.recv_le
    by_contra hne
    rw [if_neg hne] at this
    omega
  have hnotify := h.notify_eq_false (Or.inr (Or.inl hrecv))
  have hbet : Between { item with recvIng := false, recvTickCount := tick } ps :=
    ⟨.of_connected hnotify h.closeIng (Nat.zero_le _) h.send_eq, hnotify⟩
  have hclose := closeSocket_effect hbet.inv item.rountID
  unfold onRecvCompleted at hr
  simp only at hr
  by_cases hsock : item.hSocket = none
  · rw [if_pos hsock] at hr
    cases hr
    exact hclose.congr rfl rfl rfl
  rw [if_neg hsock] at hr
  by_cases hnil : chunk = []
  · rw [if_pos hnil] at hr
    cases hr
    exact hclose.congr rfl rfl rfl
  rw [if_neg hnil] at hr
  by_cases hweb : item.socketType = .webSocket
  · rw [if_pos hweb] at hr
    obtain ⟨d, -, rfl⟩ := Option.map_eq_some_iff.1 hr
    exact (handleFrames_effect hbet d accepted).congr rfl rfl rfl
  rw [if_neg hweb] at hr
  obtain ⟨m, -, hr⟩ := Option.bind_eq_some_iff.1 hr
  by_cases hfirst : item.recvPacketCount = 0
  · -- the first packet may be a handshake
    rw [if_pos hfirst] at hr
    obtain ⟨m', -, hr⟩ := Option.bind_eq_some_iff.1 hr
    obtain ⟨⟨ws, ok⟩, -, rfl⟩ := Option.map_eq_some_iff.1 hr
    simp only
    split_ifs
    · have hbet' := hbet.congr (
        { ServerSocketItem.countPacket
            { item with
              recvIng := false, recvTickCount := tick, recvBuf := m', websocket := ws } with
          socketType := .webSocket }) rfl rfl rfl
      exact (recvData_effect hbet'.inv hbet'.notify accepted).congr rfl rfl rfl
    · have hbet' := hbet.congr (
        { ServerSocketItem.countPacket
            { item with
              recvIng := false, recvTickCount := tick, recvBuf := m', websocket := ws } with
          socketType := .webSocket }) rfl rfl rfl
      exact (closeSocket_effect hbet'.inv _).congr rfl rfl rfl
    · have hbet' := hbet.congr (
        { item with
            recvIng := false, recvTickCount := tick, recvBuf := m', websocket := ws
            recvSize := item.recvSize + chunk.length }) rfl rfl rfl
      exact (handleRecv_effect hbet' accepted).congr rfl rfl rfl
  · rw [if_neg hfirst] at hr
    cases hr
    have hbet' := hbet.congr (
        { item with
          recvIng := false, recvTickCount := tick, recvBuf := m
          recvSize := item.recvSize + chunk.length }) rfl rfl rfl
    exact (handleRecv_effect hbet' accepted).congr rfl rfl rfl

/-! ## Sending -/

theorem dropSends_effect (hnotify : item.notify = false) (hclose : item.closeIng = false)
    (hrecv : pr ≤ if item.recvIng then 1 else 0) : Effect item pr [] item.dropSends := by
  have hinv : ItemInv { item with
      overLappedSendFree := item.overLappedSendFree ++ item.overLappedSendActive
      overLappedSendActive := [] } pr [] := .of_connected hnotify hclose hrecv (Or.inl rfl)
  exact (closeSocket_effect hinv _).congr rfl rfl rfl

/-- **`OnSendCompleted`**: the send that was in flight is done, and the
next in line takes its place. -/
theorem onSendCompleted_effect (item : ServerSocketItem) (hnotify : item.notify = false)
    (hclose : item.closeIng = false) (hrecv : pr ≤ if item.recvIng then 1 else 0)
    (p : OverLappedSend) (transferred tick : ℕ) (accepted : Bool) :
    Effect item pr [] (item.onSendCompleted p transferred tick accepted) := by
  unfold onSendCompleted
  extract_lets sent
  have hdrop : Effect sent pr [] sent.dropSends := dropSends_effect hnotify hclose hrecv
  have hsent : ∀ {r}, Effect sent pr [] r → Effect item pr [] r := fun h => h.congr rfl rfl rfl
  refine hsent ?_
  by_cases hsock : sent.hSocket = none
  · rw [if_pos hsock]
    exact hdrop
  rw [if_neg hsock]
  rcases hact : sent.overLappedSendActive with - | ⟨q, rest⟩
  · have hopen : ¬ sent.closeIng = true := by
      rw [show sent.closeIng = false from hclose]
      exact Bool.false_ne_true
    simp only
    rw [if_neg hopen]
    have hinv : ItemInv sent pr [] := .of_connected hnotify hclose hrecv (Or.inl rfl)
    exact effect_self hinv true
  · simp only
    by_cases hacc : accepted = true
    · rw [if_pos hacc]
      refine ⟨.of_connected hnotify hclose hrecv (Or.inr ?_), rfl, .goesOn rfl rfl rfl⟩
      simp only [hact]
      rfl
    · rw [if_neg hacc]
      exact hdrop.ret false

theorem getSendOverLapped_frame {p : OverLappedSend}
    (h : item.getSendOverLapped alloc = some (p, item')) :
    ∃ overLappedSendFree, item' = { item with overLappedSendFree } := by
  unfold getSendOverLapped at h
  split at h
  · cases h
    exact ⟨_, rfl⟩
  · split at h
    · cases h
      exact ⟨_, rfl⟩
    · cases h

/-- **`SendData`** puts a send behind those that wait, and starts it if
there are none. -/
theorem sendData_effect (h : ItemInv item pr ps) {command : TCPCommand} {rountID : ℕ}
    (hr : item.sendData data command rountID alloc accepted = some r) : Effect item pr ps r := by
  unfold sendData at hr
  split at hr
  · cases hr
    exact effect_self h false
  next hready =>
  have hsock : item.hSocket ≠ none := fun hs => hready (by simp [hs])
  have hnotify := h.notify_eq_false (Or.inl hsock)
  split at hr
  · cases hr
    exact effect_self h false
  next p it hget =>
  obtain ⟨free, rfl⟩ := getSendOverLapped_frame hget
  split at hr
  · cases hr
  dsimp only at hr
  generalize buildSend _ p command data = q at hr
  split at hr
  next hone =>
    -- the line was empty, so nothing is in flight and `WSASend` is called
    have hnil : item.overLappedSendActive = [] := by
      rw [List.length_append] at hone
      exact List.eq_nil_of_length_eq_zero (by simpa using hone)
    have hps : ps = [] := by
      rcases h.send_eq with hps | hps
      · exact hps
      · rw [hps, hnil]
        rfl
    subst hps
    split at hr
    · cases hr
      refine ⟨.of_connected hnotify h.closeIng h.recv_le (Or.inr ?_), rfl, .goesOn rfl rfl rfl⟩
      simp only [hnil]
      rfl
    · cases hr
      have hfail := onSendCompleted_effect { item with
          overLappedSendFree := free
          overLappedSendActive := item.overLappedSendActive ++ [q]
          sendPacketCount := dword (item.sendPacketCount + 1) }
        hnotify h.closeIng h.recv_le q 0 0 false
      exact (hfail.ret false).congr rfl rfl rfl
  next hmore =>
    cases hr
    -- the packet waits its turn behind the head of the line
    have hinv : ItemInv { item with
        overLappedSendFree := free
        overLappedSendActive := item.overLappedSendActive ++ [q]
        sendPacketCount := dword (item.sendPacketCount + 1) } pr ps := by
      refine .of_connected hnotify h.closeIng h.recv_le ?_
      rcases h.send_eq with hps | hps
      · exact Or.inl hps
      · right
        rw [hps]
        rcases hact : item.overLappedSendActive with - | ⟨q', rest⟩
        · simp [hact] at hmore
        · rfl
    exact (effect_self hinv true).congr rfl rfl rfl

/-- **`AllowBatchSend`** sets a flag no other function reads. -/
theorem allowBatchSend_effect (h : ItemInv item pr ps) (rountID : ℕ) (allow : Bool) :
    Effect item pr ps (item.allowBatchSend rountID allow) := by
  unfold allowBatchSend
  split_ifs
  · exact effect_self h false
  · exact effect_self h false
  · have hinv : ItemInv { item with allowBatch := allow } pr ps :=
      ⟨h.closeIng, h.recv_le, h.send_eq, fun hn => ⟨hn, (h.idle hn).hSocket, (h.idle hn).recvIng,
        (h.idle hn).sends⟩⟩
    exact (effect_self hinv true).congr rfl rfl rfl

/-- A sweep's visit closes the connection, sends to it or passes by. -/
theorem detectItem_effect (h : ItemInv item pr ps) {recvTick now breakTick : ℕ} 
    (hr : detectItem item recvTick now breakTick data alloc accepted = some r) :
    Effect item pr ps r := by
  unfold detectItem at hr
  split_ifs at hr
  · cases hr
    exact effect_self h true
  · cases hr
    exact closeSocket_effect h _
  · cases hr
    exact closeSocket_effect h _
  · exact sendData_effect h hr
  · cases hr
    exact effect_self h true

theorem batchItem_effect (h : ItemInv item pr ps) {command : TCPCommand}
    (hr : batchItem item data command alloc accepted = some r) :
    Effect item pr ps r := by
  unfold batchItem at hr
  split_ifs at hr
  · exact sendData_effect h hr
  · cases hr
    exact effect_self h true

/-! ## Attaching -/

/-- **`Attach`** gives the item to a connection. -/
theorem attach_connected (item : ServerSocketItem) (hSocket clientAddr tick now : ℕ) :
    Between (item.attach hSocket clientAddr tick now).item [] :=
  ⟨.of_connected rfl rfl (Nat.zero_le _) (Or.inl rfl), rfl⟩

/-! ## The line of sends -/

/-- The engine sends to a connection, or a send comes back. -/
inductive SendStep where
  | send (data : List UInt8) (command : TCPCommand)
  | completed (transferred tick : ℕ)

/-- A connection that sends, as a machine that emits what `WSASend` is
given. Nothing comes back where nothing is in flight. -/
def sendStep : Machine ServerSocketItem SendStep (List UInt8)
  | item, .send data command =>
      (item.sendData data command item.rountID true true).map fun r =>
        (r.item, (sends r.calls).map (·.wsaBuffer))
  | item, .completed transferred tick =>
      match item.overLappedSendActive with
      | [] => some (item, [])
      | p :: _ =>
          let r := item.onSendCompleted p transferred tick true
          some (r.item, (sends r.calls).map (·.wsaBuffer))

/-- A packet, encrypted. -/
def sentBytes (data : List UInt8) (command : TCPCommand) : List UInt8 :=
  let packet := packetBytes command data
  let r := encryptBuffer (Memory.fresh.write 0 packet) packet.length true
  r.1.read 0 r.2

/-- The packets on their way, of which the first is in flight. -/
def sendLine : TotalMachine (List (List UInt8)) SendStep (List UInt8)
  | line, .send data command =>
      (line ++ [sentBytes data command], if line = [] then [sentBytes data command] else [])
  | line, .completed .. => (line.tail, line.tail.head?.toList)

/-- A connection that has received something, with the buffers of its sends. -/
structure Sending (item : ServerSocketItem) (line : List (List UInt8)) : Prop where
  closeIng : item.closeIng = false
  hSocket : item.hSocket ≠ none
  received : item.recvPacketCount ≠ 0
  tcp : item.socketType ≠ .webSocket
  line_eq : item.overLappedSendActive.map (·.wsaBuffer) = line

/-- The packet fits the buffer of a send. -/
def SendStep.Fits : SendStep → Prop
  | .send data _ => sizeofTCPHead + data.length ≤ socketTcpBuffer
  | .completed .. => True

theorem Sending.send {line : List (List UInt8)} (h : Sending item line) (command : TCPCommand)
    (hfit : sizeofTCPHead + data.length ≤ socketTcpBuffer) :
    ∃ item', sendStep item (.send data command) =
        some (item', (sendLine line (.send data command)).2) ∧
      Sending item' (sendLine line (.send data command)).1 := by
  have hready : ¬ (item.closeIng = true ∨ item.rountID ≠ item.rountID ∨ item.recvPacketCount = 0 ∨
      item.hSocket = none ∨ socketTcpBuffer < data.length) := by
    simp only [h.closeIng, h.received, h.hSocket, ne_eq, not_true_eq_false, Bool.false_eq_true,
      false_or, not_lt]
    omega
  rw [sendStep, sendData, if_neg hready]
  cases hget : item.getSendOverLapped true with
  | none =>
    unfold getSendOverLapped at hget
    split at hget <;> cases hget
  | some q =>
    obtain ⟨p, it⟩ := q
    obtain ⟨free, rfl⟩ := getSendOverLapped_frame hget
    have hbuild : ((ServerSocketItem.buildSend { item with overLappedSendFree := free } p command
        data).wsaBuffer) = sentBytes data command := if_neg h.tcp
    simp only
    rw [if_neg (by omega)]
    generalize ServerSocketItem.buildSend { item with overLappedSendFree := free } p command data
      = q at hbuild
    have hline : (item.overLappedSendActive ++ [q]).map (·.wsaBuffer) =
        line ++ [sentBytes data command] := by
      rw [List.map_append, h.line_eq, List.map_singleton, hbuild]
    by_cases hnil : item.overLappedSendActive = []
    · have hempty : line = [] := by rw [← h.line_eq, hnil, List.map_nil]
      rw [if_pos (by rw [hnil]; rfl), if_pos trivial]
      refine ⟨_, congrArg some (Prod.ext rfl ?_), ⟨h.closeIng, h.hSocket, h.received, h.tcp, hline⟩⟩
      simp [sends, hbuild, sendLine, hempty]
    · -- the packet waits its turn behind the one in flight
      have hwait : line ≠ [] := fun hline => hnil (List.map_eq_nil_iff.1 (h.line_eq.trans hline))
      have hlen : ¬ (item.overLappedSendActive ++ [q]).length = 1 := by
        have := List.length_pos_iff.2 hnil
        rw [List.length_append, List.length_singleton]
        omega
      rw [if_neg hlen]
      refine ⟨_, congrArg some (Prod.ext rfl ?_), ⟨h.closeIng, h.hSocket, h.received, h.tcp, hline⟩⟩
      simp [sends, sendLine, hwait]

theorem Sending.completed {line : List (List UInt8)} (h : Sending item line)
    (transferred tick : ℕ) :
    ∃ item', sendStep item (.completed transferred tick) =
        some (item', (sendLine line (.completed transferred tick)).2) ∧
      Sending item' (sendLine line (.completed transferred tick)).1 := by
  have hopen : ¬ item.closeIng = true := by
    rw [h.closeIng]
    decide
  obtain rfl := h.line_eq
  rw [sendStep]
  rcases hact : item.overLappedSendActive with - | ⟨p, - | ⟨q, rest⟩⟩
  · exact ⟨item, rfl, h.closeIng, h.hSocket, h.received, h.tcp, by rw [hact]; rfl⟩
  · simp only [onSendCompleted, hact, List.tail_cons, if_neg h.hSocket, if_neg hopen]
    exact ⟨_, rfl, h.closeIng, h.hSocket, h.received, h.tcp, rfl⟩
  · simp only [onSendCompleted, hact, List.tail_cons, if_neg h.hSocket]
    exact ⟨_, rfl, h.closeIng, h.hSocket, h.received, h.tcp, rfl⟩

/-- **The sends of a connection are a line**: of whatever is sent to it while
sends come back, `WSASend` is given the first packet of the line, encrypted,
each time one is through or the line was empty. -/
theorem sendStep_run_eq : ∀ (steps : List SendStep) (item : ServerSocketItem)
    (line : List (List UInt8)), Sending item line → (∀ e ∈ steps, e.Fits) →
    ∃ item', sendStep.run item steps = some (item', (sendLine.run line steps).2) ∧
      Sending item' (sendLine.run line steps).1 := by
  intro steps
  induction steps with
  | nil => exact fun item line h _ => ⟨item, rfl, h⟩
  | cons e steps ih =>
    intro item line h hfit
    obtain ⟨hfirst, hrest⟩ := List.forall_mem_cons.1 hfit
    obtain ⟨item', hstep, h'⟩ : ∃ item', sendStep item e = some (item', (sendLine line e).2) ∧
        Sending item' (sendLine line e).1 := by
      cases e with
      | send data command => exact h.send command hfirst
      | completed transferred tick => exact h.completed transferred tick
    obtain ⟨item'', hrun, h''⟩ := ih item' _ h' hrest
    exact ⟨item'', by rw [Machine.run_cons hstep, hrun]; rfl, h''⟩

/-- The packets sent in a run, in order. -/
def packetsOf (steps : List SendStep) : List (List UInt8) := steps.filterMap fun
  | .send data command => some (sentBytes data command)
  | .completed .. => none

theorem sendLine_run_append : ∀ (steps : List SendStep) (line : List (List UInt8)),
    line.head?.toList ++ (sendLine.run line steps).2 ++ (sendLine.run line steps).1.tail =
      line ++ packetsOf steps := by
  intro steps
  induction steps with
  | nil =>
    intro line
    cases line <;> simp [TotalMachine.run, packetsOf]
  | cons e steps ih =>
    intro line
    rw [TotalMachine.run]
    cases e with
    | send data command =>
      have h := ih (line ++ [sentBytes data command])
      cases line with
      | nil => simpa [sendLine, packetsOf] using h
      | cons p line => simpa [sendLine, packetsOf] using h
    | completed transferred tick =>
      cases line with
      | nil => simpa [sendLine, packetsOf] using ih []
      | cons p line => simpa [sendLine, packetsOf] using ih line

/-- **Packets go out in order and once each.** Of a connection nothing is on
its way to, whatever is sent to it while sends come back: what `WSASend` has
been given, with what still waits, are the packets that were sent, encrypted,
in their order, and no more than one of them is in flight. -/
theorem sends_in_order (steps : List SendStep) (h : Sending item []) (hfit : ∀ e ∈ steps, e.Fits) :
    ∃ item' given, sendStep.run item steps = some (item', given) ∧
      given ++ (item'.overLappedSendActive.map (·.wsaBuffer)).tail = packetsOf steps := by
  obtain ⟨item', hrun, h'⟩ := sendStep_run_eq steps item [] h hfit
  refine ⟨item', _, hrun, ?_⟩
  rw [h'.line_eq]
  exact sendLine_run_append steps []

/-- Two packets, of which the second waits for the first. -/
theorem sends_in_order_two : ∃ item' given,
    sendStep.run { index := 0, hSocket := some 1, recvPacketCount := 1 }
      [.send [] ⟨1, 1⟩, .send [7] ⟨1, 2⟩, .completed 8 0] = some (item', given) ∧
    given ++ (item'.overLappedSendActive.map (·.wsaBuffer)).tail =
      packetsOf [.send [] ⟨1, 1⟩, .send [7] ⟨1, 2⟩, .completed 8 0] := by
  refine sends_in_order [.send [] ⟨1, 1⟩, .send [7] ⟨1, 2⟩, .completed 8 0]
    ⟨rfl, Option.some_ne_none 1, by decide, by decide, rfl⟩ ?_
  intro e he
  simp only [List.mem_cons, List.not_mem_nil, or_false] at he
  rcases he with rfl | rfl | rfl
  · exact (by decide : sizeofTCPHead + 0 ≤ socketTcpBuffer)
  · exact (by decide : sizeofTCPHead + 1 ≤ socketTcpBuffer)
  · trivial

end GameServer.KernelEngine
