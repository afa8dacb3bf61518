import GameServer.KernelEngine.Model.TCPSocketService
/-!
# KernelEngine — what a client parses

A turn of the loop that decrypts a packet removes as many bytes as the
packet announces. Whatever the bytes, those removed and those left make
up those that were counted (`handleFrames_held`). What can go wrong is
the count, which has 16 bits where the buffer has room for more, and a
packet that announces less than its own head: nothing tests for that,
and `wDataSize` wraps.

`StepOk` rules out these two, and an echo that is longer than the array
it is built in. It is exact (`accounts_iff`).
-/

namespace GameServer.KernelEngine

open ServiceCore ServerSocketItem

namespace TCPSocketService

variable {s s' : TCPSocketService} {stack buffer : Memory} {bs : List UInt8}
variable {calls more : List SocketCall} {thrown : Bool} {n k fuel : ℕ}

/-- The bytes received and not yet parsed. -/
def held (s : TCPSocketService) : List UInt8 := s.recvBuf.read 0 s.recvSize

@[simp] theorem length_held : s.held.length = s.recvSize := Memory.length_read

def removedBytes (calls : List SocketCall) : List UInt8 :=
  calls.flatMap fun
    | .removed packet => packet
    | _ => []

@[simp] theorem removedBytes_append :
    removedBytes (calls ++ more) = removedBytes calls ++ removedBytes more :=
  List.flatMap_append

/-- Each packet decrypted has the size of its head at least, and its
payload has the rest of it. -/
def SizesOk (calls : List SocketCall) : Prop :=
  ∀ packetSize dataSize, .sized packetSize dataSize ∈ calls →
    sizeofTCPHead ≤ packetSize ∧ dataSize + sizeofTCPHead = packetSize

theorem sizesOk_append : SizesOk (calls ++ more) ↔ SizesOk calls ∧ SizesOk more := by
  constructor
  · intro h
    exact ⟨fun n k hmem => h n k (List.mem_append_left _ hmem),
      fun n k hmem => h n k (List.mem_append_right _ hmem)⟩
  · rintro ⟨h₁, h₂⟩ n k hmem
    rcases List.mem_append.1 hmem with hmem | hmem
    · exact h₁ n k hmem
    · exact h₂ n k hmem

/-! ## The condition -/

def announced (bs : List UInt8) : ℕ := wordOf (bs.getD 2 0) (bs.getD 3 0)

/-- The bytes start with a packet that passes the tests and is all
there. -/
def Whole (bs : List UInt8) : Prop :=
  sizeofTCPHead ≤ bs.length ∧ bs.getD 0 0 = socketTcpVer ∧ announced bs ≤ dataBufferSize ∧
    announced bs ≤ bs.length

/-- What `CrevasseBuffer` makes of the packet at the front. -/
def decrypted (stack : Memory) (bs : List UInt8) : Option (Memory × ℕ) :=
  crevasseBuffer (stack.write 0 (bs.take (announced bs))) (announced bs)

/-- A packet that is echoed. -/
def Detects (buffer : Memory) : Prop := commandOf buffer = ⟨mdmKnCommand, subKnDetectSocket⟩

/-- A packet behind which the loop goes on: it is for the kernel, or the
event made of it is not too large. -/
def GoesOn (buffer : Memory) (packetSize : ℕ) : Prop :=
  (commandOf buffer).mainCmdID = mdmKnCommand ∨ packetSize ≤ maxAsynchronismData

/-- **The packets in the bytes are as long as a head at least**, those
that pass the tests and have the right check code; and none is echoed
that is longer than the array for it. -/
inductive FramesOk : Memory → List UInt8 → Prop
  | stop {stack : Memory} {bs : List UInt8} : ¬ Whole bs → FramesOk stack bs
  | spoilt {stack : Memory} {bs : List UInt8} :
      Whole bs → decrypted stack bs = none → FramesOk stack bs
  | frame {stack buffer : Memory} {bs : List UInt8} {k : ℕ} :
      Whole bs → decrypted stack bs = some (buffer, k) → sizeofTCPHead ≤ announced bs →
      (Detects buffer → announced bs ≤ socketTcpBuffer) →
      (GoesOn buffer (announced bs) → FramesOk buffer (bs.drop (announced bs))) →
      FramesOk stack bs

/-! ## One turn -/

theorem getD_held {i : ℕ} (hi : i < s.recvSize) : s.held.getD i 0 = s.recvBuf i := by
  rw [List.getD_eq_getElem?_getD, held, Memory.getElem?_read hi, Nat.zero_add]
  rfl

theorem announced_held (h : sizeofTCPHead ≤ s.recvSize) : announced s.held = s.recvBuf.wordAt 2 := by
  unfold sizeofTCPHead sizeofTCPInfo sizeofTCPCommand at h
  rw [announced, getD_held (by omega), getD_held (by omega)]
  rfl

/-- The tests at the head of the loop read the bytes received. -/
theorem nextFrame_whole (h : Whole s.held) : s.nextFrame = .frame (announced s.held) := by
  obtain ⟨hhead, hkind, hlarge, hall⟩ := h
  rw [length_held] at hhead hall
  rw [getD_held (Nat.lt_of_lt_of_le (by decide) hhead)] at hkind
  rw [announced_held hhead] at hlarge hall ⊢
  unfold dataBufferSize at hlarge
  rw [nextFrame, if_neg (Nat.not_lt.2 hhead), if_neg (not_not.2 hkind), if_neg (Nat.not_lt.2 hlarge),
    if_neg (Nat.not_lt.2 hall)]

theorem nextFrame_not_whole (h : ¬ Whole s.held) : s.nextFrame = .wait ∨ s.nextFrame = .reject := by
  unfold nextFrame
  by_cases hhead : s.recvSize < sizeofTCPHead
  · exact Or.inl (if_pos hhead)
  by_cases hkind : s.recvBuf 0 = socketTcpVer
  · by_cases hlarge : socketTcpBuffer + sizeofTCPHead < s.recvBuf.wordAt 2
    · rw [if_neg hhead, if_neg (not_not.2 hkind), if_pos hlarge]
      exact Or.inr rfl
    · have hpart : s.recvSize < s.recvBuf.wordAt 2 := by
        by_contra hall
        have hle := Nat.not_lt.1 hhead
        refine h ⟨by rw [length_held]; exact hle, ?_, ?_, ?_⟩
        · rw [getD_held (Nat.lt_of_lt_of_le (by decide) hle)]
          exact hkind
        · rw [announced_held hle]
          exact Nat.not_lt.1 hlarge
        · rw [announced_held hle, length_held]
          exact Nat.not_lt.1 hall
      rw [if_neg hhead, if_neg (not_not.2 hkind), if_neg hlarge, if_pos hpart]
      exact Or.inl rfl
  · rw [if_neg hhead, if_pos hkind]
    exact Or.inr rfl

theorem take_held (hn : n ≤ s.recvSize) : s.recvBuf.read 0 n = s.held.take n :=
  (Memory.take_read hn).symm

theorem held_takeFrame (hn : n ≤ s.recvSize) : (s.takeFrame n).held = s.held.drop n := by
  have hself : (s.recvBuf.write 0 (s.recvBuf.read n (s.recvSize - n))).read 0
      (s.recvBuf.read n (s.recvSize - n)).length = s.recvBuf.read n (s.recvSize - n) :=
    Memory.read_write_self
  rw [Memory.length_read] at hself
  rw [held, held, Memory.drop_read hn, Nat.zero_add]
  exact hself

/-- What the rest of a turn leaves as it is. -/
structure Untouched (s s' : TCPSocketService) : Prop where
  held : s'.held = s.held
  hSocket : s'.hSocket = s.hSocket
  serviceID : s'.serviceID = s.serviceID

theorem sendData_spec {command : TCPCommand} (h : s.sendData command buffer n = some (s', calls)) :
    Untouched s s' ∧ removedBytes calls = [] ∧ SizesOk calls := by
  unfold sendData at h
  split_ifs at h
  · cases h
    exact ⟨⟨rfl, rfl, rfl⟩, rfl, by simp [SizesOk]⟩
  · cases h
    exact ⟨⟨rfl, rfl, rfl⟩, rfl, by simp [SizesOk]⟩
  · obtain ⟨data, -, heq⟩ := Option.map_eq_some_iff.1 h
    cases heq
    exact ⟨⟨rfl, rfl, rfl⟩, rfl, by simp [SizesOk]⟩

/-- **The rest of a turn** removes nothing and decrypts nothing. -/
theorem handleFrame_spec (h : s.handleFrame buffer k = some (s', calls, thrown)) :
    Untouched s s' ∧ removedBytes calls = [] ∧ SizesOk calls := by
  dsimp only [handleFrame] at h
  split_ifs at h with hkernel hdetect hlarge
  · obtain ⟨⟨s₁, calls₁⟩, hsend, heq⟩ := Option.map_eq_some_iff.1 h
    cases heq
    exact sendData_spec hsend
  · cases h
    exact ⟨⟨rfl, rfl, rfl⟩, rfl, by simp [SizesOk]⟩
  · cases h
    exact ⟨⟨rfl, rfl, rfl⟩, rfl, by simp [SizesOk]⟩
  · obtain ⟨data, -, heq⟩ := Option.map_eq_some_iff.1 h
    cases heq
    exact ⟨⟨rfl, rfl, rfl⟩, rfl, by simp [SizesOk]⟩

theorem decrypted_size (h : decrypted stack bs = some (buffer, k)) : k = announced bs := by
  unfold decrypted crevasseBuffer at h
  dsimp only at h
  split_ifs at h
  exact (congrArg Prod.snd (Option.some.inj h)).symm

theorem handleFrames_stop (fuel : ℕ) (stack : Memory) (h : ¬ Whole s.held) :
    ∃ thrown, handleFrames (fuel + 1) stack s = some (s, [], thrown) := by
  rcases nextFrame_not_whole h with hnext | hnext
  · exact ⟨false, by rw [handleFrames, hnext]⟩
  · exact ⟨true, by rw [handleFrames, hnext]⟩

theorem handleFrames_whole (h : Whole s.held) :
    handleFrames (fuel + 1) stack s =
      match decrypted stack s.held with
      | none =>
          some (s.takeFrame (announced s.held), [.removed (s.held.take (announced s.held))], true)
      | some (buffer, realySize) =>
          ((s.takeFrame (announced s.held)).handleFrame buffer realySize).bind
            fun (s₁, calls, thrown) =>
            let calls := .removed (s.held.take (announced s.held)) ::
              .sized (announced s.held) (dataSizeOf realySize) :: calls
            if thrown then some (s₁, calls, true)
            else (handleFrames fuel buffer s₁).map fun (s, more, thrown) =>
              (s, calls ++ more, thrown) := by
  have hall := h.2.2.2
  rw [length_held] at hall
  rw [handleFrames, nextFrame_whole h]
  simp only [take_held hall]
  rfl

/-! ## The loop -/

/-- **What is removed and what is left make up what there was.** -/
theorem handleFrames_held (h : handleFrames fuel stack s = some (s', calls, thrown)) :
    removedBytes calls ++ s'.held = s.held ∧ s'.hSocket = s.hSocket ∧
      s'.serviceID = s.serviceID := by
  induction fuel generalizing stack s s' calls thrown with
  | zero => cases h
  | succ fuel ih =>
    by_cases hwhole : Whole s.held
    · have hall := hwhole.2.2.2
      rw [length_held] at hall
      have hsplit : s.held.take (announced s.held) ++ s.held.drop (announced s.held) = s.held :=
        List.take_append_drop _ _
      rw [handleFrames_whole hwhole] at h
      rcases hdec : decrypted stack s.held with _ | ⟨buffer, k⟩
      · rw [hdec] at h
        cases h
        refine ⟨?_, rfl, rfl⟩
        rw [held_takeFrame hall]
        simp [removedBytes]
      · rw [hdec] at h
        obtain ⟨⟨s₁, calls₁, thrown₁⟩, hturn, hrest⟩ := Option.bind_eq_some_iff.1 h
        obtain ⟨⟨hheld, hsocket, hservice⟩, hremoved, -⟩ := handleFrame_spec hturn
        rw [held_takeFrame hall] at hheld
        have hfirst : removedBytes (.removed (s.held.take (announced s.held)) ::
            .sized (announced s.held) (dataSizeOf k) :: calls₁)
              = s.held.take (announced s.held) := by
          change _ ++ ([] ++ removedBytes calls₁) = _
          rw [hremoved, List.append_nil, List.append_nil]
        cases thrown₁ with
        | true =>
          cases hrest
          refine ⟨?_, hsocket, hservice⟩
          rw [hfirst, hheld, hsplit]
        | false =>
          obtain ⟨⟨s₂, calls₂, thrown₂⟩, hloop, heq⟩ := Option.map_eq_some_iff.1 hrest
          cases heq
          obtain ⟨hrest₂, hsocket₂, hservice₂⟩ := ih hloop
          refine ⟨?_, hsocket₂.trans hsocket, hservice₂.trans hservice⟩
          rw [removedBytes_append, hfirst, List.append_assoc, hrest₂, hheld, hsplit]
    · obtain ⟨thrown₁, hstop⟩ := handleFrames_stop fuel stack hwhole
      rw [hstop] at h
      cases h
      exact ⟨rfl, rfl, rfl⟩

/-- `wDataSize` is what is left of the packet behind its head exactly
when there is a head. -/
theorem dataSizeOf_iff (hn : n ≤ dataBufferSize) :
    (sizeofTCPHead ≤ n ∧ dataSizeOf n + sizeofTCPHead = n) ↔ sizeofTCPHead ≤ n := by
  unfold dataBufferSize socketTcpBuffer at hn
  unfold dataSizeOf word
  omega

/-- **When the rest of a turn succeeds**, for a packet with a head: when
an echo fits. It ends the loop where the event is too large. -/
theorem handleFrame_iff (buffer : Memory) (hsocket : s.hSocket = true) (hhead : sizeofTCPHead ≤ n)
    (hlarge : n ≤ dataBufferSize) :
    ((∃ r, s.handleFrame buffer n = some r) ↔ (Detects buffer → n ≤ socketTcpBuffer)) ∧
      ∀ s' calls thrown, s.handleFrame buffer n = some (s', calls, thrown) →
        (thrown = false ↔ GoesOn buffer n) := by
  have hsize := ((dataSizeOf_iff hlarge).2 hhead).2
  have hdata : ∀ b : Memory, (b.readIn dataBufferSize sizeofTCPHead (dataSizeOf n)).isSome := by
    intro b
    rw [Memory.readIn_of_le (by omega)]
    rfl
  dsimp only [handleFrame]
  by_cases hkernel : (commandOf buffer).mainCmdID = mdmKnCommand
  · rw [if_pos hkernel]
    by_cases hdetect : (commandOf buffer).subCmdID = subKnDetectSocket
    · have hdet : Detects buffer := by
        rw [Detects, ← hkernel, ← hdetect]
      have hfits : ¬ socketTcpBuffer < dataSizeOf n := by
        unfold dataBufferSize at hlarge
        omega
      rw [if_pos hdetect]
      refine ⟨?_, fun s' calls thrown h => ?_⟩
      · rw [sendData, if_neg (by rw [hsocket]; decide), if_neg hfits, Nat.add_comm sizeofTCPHead,
          hsize]
        by_cases hlong : socketTcpBuffer < n
        · rw [if_pos hlong]
          exact ⟨nofun, fun h => absurd (h hdet) (Nat.not_le.2 hlong)⟩
        · obtain ⟨data, hread⟩ := Option.isSome_iff_exists.1 (hdata buffer)
          rw [if_neg hlong, hread]
          exact ⟨fun _ _ => Nat.not_lt.1 hlong, fun _ => ⟨_, rfl⟩⟩
      · obtain ⟨⟨s₁, calls₁⟩, -, heq⟩ := Option.map_eq_some_iff.1 h
        cases heq
        exact ⟨fun _ => Or.inl hkernel, fun _ => rfl⟩
    · have hdet : ¬ Detects buffer := fun h => hdetect (congrArg TCPCommand.subCmdID h)
      rw [if_neg hdetect]
      refine ⟨⟨fun _ h => absurd h hdet, fun _ => ⟨_, rfl⟩⟩, fun s' calls thrown h => ?_⟩
      cases h
      exact ⟨fun _ => Or.inl hkernel, fun _ => rfl⟩
  · have hdet : ¬ Detects buffer := fun h => hkernel (congrArg TCPCommand.mainCmdID h)
    have hevent : dataSizeOf n + sizeofSocketReadEvent = n := hsize
    rw [if_neg hkernel, hevent]
    by_cases htoo : maxAsynchronismData < n
    · rw [if_pos htoo]
      refine ⟨⟨fun _ h => absurd h hdet, fun _ => ⟨_, rfl⟩⟩, fun s' calls thrown h => ?_⟩
      cases h
      refine ⟨nofun, fun h => ?_⟩
      rcases h with h | h
      · exact absurd h hkernel
      · exact absurd htoo (Nat.not_lt.2 h)
    · obtain ⟨data, hread⟩ := Option.isSome_iff_exists.1 (hdata buffer)
      rw [if_neg htoo, hread, Option.map_some]
      refine ⟨⟨fun _ h => absurd h hdet, fun _ => ⟨_, rfl⟩⟩, fun s' calls thrown h => ?_⟩
      cases h
      exact ⟨fun _ => Or.inr (Nat.not_lt.1 htoo), fun _ => rfl⟩

/-- **When the loop ends with all sizes right.** -/
theorem handleFrames_iff (hsocket : s.hSocket = true) (hfuel : s.recvSize < fuel) :
    (∃ s' calls thrown, handleFrames fuel stack s = some (s', calls, thrown) ∧ SizesOk calls) ↔
      FramesOk stack s.held := by
  induction fuel generalizing stack s with
  | zero => omega
  | succ fuel ih =>
    by_cases hwhole : Whole s.held
    · have hlarge := hwhole.2.2.1
      have hall := hwhole.2.2.2
      rw [length_held] at hall
      rw [handleFrames_whole hwhole]
      rcases hdec : decrypted stack s.held with _ | ⟨buffer, k⟩
      · refine ⟨fun _ => .spoilt hwhole hdec, fun _ => ⟨_, _, _, rfl, ?_⟩⟩
        simp [SizesOk]
      obtain rfl := decrypted_size hdec
      have hsocket₁ : (s.takeFrame (announced s.held)).hSocket = true := hsocket
      have hcons : ∀ calls : List SocketCall,
          SizesOk (.removed (s.held.take (announced s.held)) ::
            .sized (announced s.held) (dataSizeOf (announced s.held)) :: calls) ↔
              sizeofTCPHead ≤ announced s.held ∧ SizesOk calls := by
        intro calls
        rw [← dataSizeOf_iff hlarge]
        simp only [SizesOk, List.mem_cons, reduceCtorEq, SocketCall.sized.injEq, false_or]
        exact ⟨fun h => ⟨h _ _ (.inl ⟨rfl, rfl⟩), fun n k hmem => h n k (.inr hmem)⟩,
          fun ⟨h₁, h₂⟩ n k hor => hor.elim (fun ⟨hn, hk⟩ => hn ▸ hk ▸ h₁) (h₂ n k)⟩
      constructor
      · rintro ⟨s', calls, thrown, h, hsizes⟩
        obtain ⟨⟨s₁, calls₁, thrown₁⟩, hturn, hrest⟩ := Option.bind_eq_some_iff.1 h
        obtain ⟨⟨hheld, hsame, -⟩, -, -⟩ := handleFrame_spec hturn
        rw [held_takeFrame hall] at hheld
        have hhead : sizeofTCPHead ≤ announced s.held := by
          cases thrown₁ with
          | true =>
            cases hrest
            exact ((hcons _).1 hsizes).1
          | false =>
            obtain ⟨r, -, heq⟩ := Option.map_eq_some_iff.1 hrest
            cases heq
            exact ((hcons _).1 (sizesOk_append.1 hsizes).1).1
        obtain ⟨hsome, hgoes⟩ := handleFrame_iff buffer hsocket₁ hhead hlarge
        refine .frame hwhole hdec hhead (hsome.1 ⟨_, hturn⟩) fun hgo => ?_
        have hfalse : thrown₁ = false := (hgoes _ _ _ hturn).2 hgo
        subst hfalse
        obtain ⟨⟨s₂, calls₂, thrown₂⟩, hloop, heq⟩ := Option.map_eq_some_iff.1 hrest
        cases heq
        have hsize : s₁.recvSize = s.recvSize - announced s.held := by
          rw [← length_held, hheld, List.length_drop, length_held]
        have height : 8 ≤ announced s.held := hhead
        rw [← hheld]
        exact (ih (hsame.trans hsocket₁) (by omega)).1
          ⟨_, _, _, hloop, (sizesOk_append.1 hsizes).2⟩
      · intro h
        cases h with
        | stop hnot => exact absurd hwhole hnot
        | spoilt _ hnone => rw [hdec] at hnone; cases hnone
        | frame _ hdec' hhead hecho hrest =>
          rw [hdec] at hdec'
          cases hdec'
          obtain ⟨hsome, hgoes⟩ := handleFrame_iff buffer hsocket₁ hhead hlarge
          obtain ⟨⟨s₁, calls₁, thrown₁⟩, hturn⟩ := hsome.2 hecho
          obtain ⟨⟨hheld, hsame, -⟩, -, hsizes₁⟩ := handleFrame_spec hturn
          rw [held_takeFrame hall] at hheld
          simp only [hturn, Option.bind_some]
          cases thrown₁ with
          | true => exact ⟨_, _, _, if_pos rfl, (hcons _).2 ⟨hhead, hsizes₁⟩⟩
          | false =>
            have hsize : s₁.recvSize = s.recvSize - announced s.held := by
              rw [← length_held, hheld, List.length_drop, length_held]
            have height : 8 ≤ announced s.held := hhead
            have hok := hrest ((hgoes _ _ _ hturn).1 rfl)
            rw [← hheld] at hok
            obtain ⟨s₂, calls₂, thrown₂, hloop, hsizes₂⟩ :=
              (ih (hsame.trans hsocket₁) (by omega)).2 hok
            rw [if_neg (by decide), hloop]
            exact ⟨_, _, _, rfl, sizesOk_append.2 ⟨(hcons _).2 ⟨hhead, hsizes₁⟩, hsizes₂⟩⟩
    · obtain ⟨thrown, hstop⟩ := handleFrames_stop fuel stack hwhole
      exact ⟨fun _ => .stop hwhole, fun _ => ⟨_, _, _, hstop, by simp [SizesOk]⟩⟩

/-! ## Chunks -/

theorem held_receive {arrived : List UInt8} (h : s.recvSize + (s.received arrived).length < 2 ^ 16) :
    (s.receive arrived).held = s.held ++ s.received arrived := by
  change (s.recvBuf.write s.recvSize (s.received arrived)).read 0
    (word (s.recvSize + (s.received arrived).length)) = _
  rw [word_of_lt h, Memory.read_add, Nat.zero_add, Memory.read_write_self,
    Memory.read_write_of_disjoint (Or.inl (Nat.zero_add s.recvSize).le), held]

/-- The bytes there are after an event and before anything is parsed.
Those of a connection go with it. -/
def unparsed (s : TCPSocketService) : SocketEvent → List UInt8
  | .safeClose => []
  | .read (some arrived) _ => if s.hSocket then s.held ++ s.received arrived else s.held
  | _ => s.held

/-- **Every byte is accounted for**: the event is handled, what it has
parsed and what is held afterwards make up the bytes there were, and
each packet decrypted has a head and a payload of the rest of it. -/
def Accounts (s : TCPSocketService) (e : SocketEvent) : Prop :=
  ∃ s' calls, s.step e = some (s', calls) ∧ removedBytes calls ++ s'.held = s.unparsed e ∧
    SizesOk calls

/-- The condition: the bytes can be counted, and the packets in them are
in order. -/
def StepOk (s : TCPSocketService) : SocketEvent → Prop
  | .read (some arrived) stack =>
      s.hSocket = true → s.recvSize + (s.received arrived).length < 2 ^ 16 ∧
        FramesOk stack (s.held ++ s.received arrived)
  | _ => True

/-- Without a socket nothing is held. -/
def Idle (s : TCPSocketService) : Prop := s.hSocket = false → s.recvSize = 0

theorem Idle.held_nil (h : Idle s) (hsocket : s.hSocket = false) : s.held = [] :=
  List.length_eq_zero_iff.1 (length_held.trans (h hsocket))

theorem Idle.closeSocket (h : Idle s) :
    s.closeSocket.1.held = s.held ∧ Idle s.closeSocket.1 ∧ removedBytes s.closeSocket.2 = [] ∧
      SizesOk s.closeSocket.2 := by
  unfold TCPSocketService.closeSocket
  by_cases hsocket : s.hSocket = true
  · rw [if_pos hsocket]
    exact ⟨rfl, h, rfl, by simp [SizesOk]⟩
  · rw [if_neg hsocket]
    exact ⟨(h.held_nil (Bool.eq_false_iff.2 hsocket)).symm, fun _ => rfl, rfl, by simp [SizesOk]⟩

theorem Idle.closeSocketFor (h : Idle s) (reason : ℕ) :
    (s.closeSocketFor reason).1.held = s.held ∧ Idle (s.closeSocketFor reason).1 ∧
      removedBytes (s.closeSocketFor reason).2 = [] ∧ SizesOk (s.closeSocketFor reason).2 := by
  obtain ⟨hheld, hidle, hremoved, hsizes⟩ := h.closeSocket
  refine ⟨hheld, hidle, hremoved, fun n k hmem => ?_⟩
  rcases List.mem_cons.1 hmem with heq | hmem
  · cases heq
  · exact hsizes n k hmem

theorem read_eq (hsocket : s.hSocket = true) (arrived : List UInt8) (stack : Memory) :
    s.onSocketNotifyRead (some arrived) stack =
      (handleFrames ((s.receive arrived).recvSize + 1) stack (s.receive arrived)).map
        fun (s, calls, thrown) =>
          if thrown then
            ((s.closeSocketFor shutReasonException).1,
              calls ++ (s.closeSocketFor shutReasonException).2)
          else (s, calls) := by
  dsimp only [onSocketNotifyRead]
  rw [if_neg (by rw [hsocket]; decide)]

/-- **A chunk is accounted for** when it can be counted and its packets
are in order, and no other is. -/
theorem read_accounts_iff (hsocket : s.hSocket = true) (arrived : List UInt8) (stack : Memory) :
    Accounts s (.read (some arrived) stack) ↔ StepOk s (.read (some arrived) stack) := by
  have hsocket' : (s.receive arrived).hSocket = true := hsocket
  constructor
  · rintro ⟨s', calls, h, hall, hsizes⟩ -
    rw [step, read_eq hsocket] at h
    obtain ⟨⟨s₁, calls₁, thrown⟩, hloop, heq⟩ := Option.map_eq_some_iff.1 h
    obtain ⟨hheld, hsame, -⟩ := handleFrames_held hloop
    have hidle : Idle s₁ := fun hnone => by rw [hsame, hsocket'] at hnone; cases hnone
    obtain ⟨hclose, -, hremoved, -⟩ := hidle.closeSocketFor shutReasonException
    have hsplit : removedBytes calls ++ s'.held = (s.receive arrived).held ∧ SizesOk calls₁ := by
      cases thrown with
      | true =>
        cases heq
        refine ⟨?_, (sizesOk_append.1 hsizes).1⟩
        rw [removedBytes_append, hremoved, List.append_nil, hclose, hheld]
      | false =>
        cases heq
        exact ⟨hheld, hsizes⟩
    have hbytes : (s.receive arrived).held = s.held ++ s.received arrived := by
      rw [← hsplit.1, hall, unparsed, if_pos hsocket]
    have hcount := congrArg List.length hbytes
    rw [length_held, List.length_append, length_held] at hcount
    refine ⟨hcount ▸ word_lt _, ?_⟩
    rw [← hbytes]
    exact (handleFrames_iff hsocket' (Nat.lt_succ_self _)).1 ⟨_, _, _, hloop, hsplit.2⟩
  · intro hok
    obtain ⟨hcount, hframes⟩ := hok hsocket
    rw [← held_receive hcount] at hframes
    obtain ⟨s₁, calls₁, thrown, hloop, hsizes⟩ :=
      (handleFrames_iff hsocket' (Nat.lt_succ_self _)).2 hframes
    obtain ⟨hheld, hsame, -⟩ := handleFrames_held hloop
    have hidle : Idle s₁ := fun hnone => by rw [hsame, hsocket'] at hnone; cases hnone
    obtain ⟨hclose, -, hremoved, hclosing⟩ := hidle.closeSocketFor shutReasonException
    rw [Accounts, step, read_eq hsocket, hloop, unparsed, if_pos hsocket, ← held_receive hcount]
    cases thrown with
    | true =>
      refine ⟨_, _, rfl, ?_, sizesOk_append.2 ⟨hsizes, hclosing⟩⟩
      rw [removedBytes_append, hremoved, List.append_nil, hclose, hheld]
    | false => exact ⟨_, _, rfl, hheld, hsizes⟩

theorem Idle.accounts_fail (h : Idle s) (stack : Memory) : Accounts s (.read none stack) := by
  obtain ⟨hheld, -, hremoved, hsizes⟩ := h.closeSocketFor shutReasonException
  refine ⟨(s.closeSocketFor shutReasonException).1, (s.closeSocketFor shutReasonException).2, rfl,
    ?_, hsizes⟩
  rw [hremoved, hheld]
  rfl

/-- **An event is accounted for exactly when it meets the condition.** -/
theorem accounts_iff (h : Idle s) (e : SocketEvent) : Accounts s e ↔ StepOk s e := by
  cases e with
  | connect => exact ⟨fun _ => trivial, fun _ => ⟨_, _, rfl, rfl, by simp [SizesOk]⟩⟩
  | close =>
    obtain ⟨hheld, -, hremoved, hsizes⟩ := h.closeSocket
    refine ⟨fun _ => trivial, fun _ => ⟨s.closeSocket.1, s.closeSocket.2, rfl, ?_, hsizes⟩⟩
    rw [hremoved, hheld]
    rfl
  | safeClose => exact ⟨fun _ => trivial, fun _ => ⟨_, _, rfl, rfl, by simp [SizesOk]⟩⟩
  | read arrived stack =>
    cases arrived with
    | none => exact ⟨fun _ => trivial, fun _ => h.accounts_fail stack⟩
    | some arrived =>
      by_cases hsocket : s.hSocket = true
      · exact read_accounts_iff hsocket arrived stack
      · refine ⟨fun _ hsome => absurd hsome hsocket, fun _ => ?_⟩
        obtain ⟨s', calls, hstep, hall, hsizes⟩ := h.accounts_fail stack
        refine ⟨s', calls, ?_, ?_, hsizes⟩
        · rw [← hstep]
          exact if_pos (Bool.eq_false_iff.2 hsocket)
        · rw [hall]
          exact (if_neg hsocket).symm

/-- A close leaves nothing behind. -/
theorem Idle.step (h : Idle s) {e : SocketEvent} (hstep : s.step e = some (s', calls)) :
    Idle s' := by
  have hfail : ∀ stack : Memory, s.step (.read none stack) = some (s', calls) → Idle s' := by
    intro stack hnone
    cases hnone
    exact (h.closeSocketFor shutReasonException).2.1
  cases e with
  | connect =>
    cases hstep
    exact fun hnone => by cases hnone
  | close =>
    have hclose := h.closeSocket.2.1
    rw [Option.some.inj hstep] at hclose
    exact hclose
  | safeClose =>
    cases hstep
    exact fun _ => rfl
  | read arrived stack =>
    cases arrived with
    | none => exact hfail stack hstep
    | some arrived =>
      by_cases hsocket : s.hSocket = true
      · rw [TCPSocketService.step, read_eq hsocket] at hstep
        obtain ⟨⟨s₁, calls₁, thrown⟩, hloop, heq⟩ := Option.map_eq_some_iff.1 hstep
        obtain ⟨-, hsame, -⟩ := handleFrames_held hloop
        have hidle : Idle s₁ := fun hnone => by
          rw [hsame] at hnone
          exact absurd hsocket (Bool.eq_false_iff.1 hnone)
        cases thrown with
        | true =>
          cases heq
          exact (hidle.closeSocketFor shutReasonException).2.1
        | false =>
          cases heq
          exact hidle
      · refine hfail stack ?_
        rw [← hstep]
        exact (if_pos (Bool.eq_false_iff.2 hsocket)).symm

/-- **A connection parses all that it receives** exactly when each chunk
can be counted in 16 bits and the packets in it are in order: then every
event is handled, whatever was received is either parsed or held, and
every packet has a head and the payload its size gives. -/
theorem accounts_run_iff (serviceID : ℕ) (es : List SocketEvent) :
    ((∀ n, ∃ r, Machine.run step { serviceID } (es.take n) = some r ∧ Idle r.1) ∧
        Machine.Along step Accounts { serviceID } es) ↔
      Machine.Along step StepOk { serviceID } es := by
  refine Machine.prefixes_iff (I := Idle) (fun _ h => h) (fun s e hs hok => ?_)
    (fun s e s' out hs hacc _ _ => (accounts_iff hs e).1 hacc) es { serviceID } fun _ => rfl
  obtain ⟨s', calls, hstep, hrest⟩ := (accounts_iff hs e).2 hok
  exact ⟨⟨s', calls, hstep, hrest⟩, s', calls, hstep, hs.step hstep⟩

def halfHead : List UInt8 := [socketTcpVer, 0, 4, 0, 0, 0, 0, 0]

theorem half_head_is_taken : ¬ Machine.Along step Accounts { serviceID := 0 }
    [.connect, .read (some halfHead) Memory.fresh] := by
  rintro ⟨-, h⟩
  obtain ⟨⟨s', calls, hread, -, hsizes⟩, -⟩ := h { hSocket := true, serviceID := 0 } [] rfl
  have hcalls := congrArg (Option.map Prod.snd) hread
  have heval : (step { hSocket := true, serviceID := 0 } (.read (some halfHead) Memory.fresh)).map
      Prod.snd = some [.removed [socketTcpVer, 0, 4, 0], .sized 4 65532] := by
    decide +kernel
  rw [heval] at hcalls
  obtain rfl := Option.some.inj hcalls
  exact absurd (hsizes 4 65532 (by simp)).1 (by decide)

end TCPSocketService

end GameServer.KernelEngine
