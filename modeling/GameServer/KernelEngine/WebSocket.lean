import GameServer.Common.Run
import GameServer.KernelEngine.Model.WebSocket
/-!
# KernelEngine — what `DecodeFrame` yields

`FramesInside` says of the bytes received that every frame the loop goes
on to take lies inside them, masking key included. On such bytes a call
takes whole frames from the front (`Decodes`, `decodeFrame_eq`). The
tests of the code do not ensure it: they leave the four bytes of the key
out of account, and they read a 64-bit length in the wrong byte order.

For a stream of frames with short lengths, cut anywhere `FramesInside`
allows, the payloads come out whole and in order.
-/

namespace GameServer.KernelEngine

variable {bs rest : List UInt8} {m m' : Memory} {n capcity : ℕ} {h : FrameHeader}
variable {base : ℕ} {left out : List UInt8} {s : DecodeState} {ws : WebSocket}

/-! ## The bytes of a buffer -/

/-- The bytes received and not yet decoded. -/
def WebSocket.held (ws : WebSocket) : List UInt8 := ws.recvBuf.read 0 ws.recvSize

/-- Memory that starts with `bs`. -/
def ofBytes (bs : List UInt8) : Memory := Memory.fresh.write 0 bs

theorem ofBytes_apply {i : ℕ} (hi : i < bs.length) : ofBytes bs i = bs[i] := by
  have hget : Memory.fresh.write 0 bs (0 + i) = bs[i] := Memory.write_apply_add hi
  rwa [Nat.zero_add] at hget

theorem apply_of_read_eq (hr : m.read 0 n = m'.read 0 n) {i : ℕ} (hi : i < n) : m i = m' i := by
  have h₁ : (m.read 0 n)[i]? = some (m (0 + i)) := Memory.getElem?_read hi
  have h₂ : (m'.read 0 n)[i]? = some (m' (0 + i)) := Memory.getElem?_read hi
  rw [hr, h₂, Nat.zero_add] at h₁
  exact (Option.some.inj h₁).symm

/-- **The header tests read received bytes only.** -/
theorem readHeader_congr (hr : m.read 0 n = m'.read 0 n) :
    readHeader m n capcity = readHeader m' n capcity := by
  unfold readHeader
  by_cases h2 : n < 2
  · rw [if_pos h2, if_pos h2]
  rw [if_neg h2, if_neg h2, apply_of_read_eq hr (show 0 < n by omega),
    apply_of_read_eq hr (show 1 < n by omega)]
  by_cases hlen : n < (m' 1 &&& 0x7f).toNat + 2
  · simp only [if_pos hlen]
  have hfield : payloadLength m = payloadLength m' := by
    unfold payloadLength
    rw [apply_of_read_eq hr (show 1 < n by omega)]
    by_cases h126 : (m' 1 &&& 0x7f).toNat = 126
    · simp only [h126, if_true, Memory.wordAt]
      rw [apply_of_read_eq hr (show 2 < n by omega), apply_of_read_eq hr (show 2 + 1 < n by omega)]
    by_cases h127 : (m' 1 &&& 0x7f).toNat = 127
    · have hq : m.read 2 8 = m'.read 2 8 :=
        Memory.read_congr fun i hi => apply_of_read_eq hr (by omega)
      rw [if_neg h126, if_neg h126, if_pos h127, if_pos h127, Memory.qwordAt, hq, Memory.qwordAt]
    · simp only [h126, h127, if_false]
  rw [hfield]

/-- A frame the tests let through has room, and its offset lies behind
the first two bytes. -/
theorem readHeader_inr (hh : readHeader m n capcity = .inr h) :
    h.payloadLen ≤ capcity ∧ 2 ≤ h.canReadOffset ∧ h.canReadOffset ≤ 10 := by
  have hoff : 2 ≤ (payloadLength m).2 ∧ (payloadLength m).2 ≤ 10 := by
    simp only [payloadLength]
    split_ifs <;> simp
  unfold readHeader at hh
  split_ifs at hh with h₁ h₂ h₃
  simp only at hh
  split_ifs at hh with h₄ h₅
  cases hh
  exact ⟨Int.not_lt.1 h₅, hoff⟩

/-! ## Calls whose frames lie inside the buffer -/

/-- What the header tests make of the bytes `bs`. -/
def headerOf (capcity : ℕ) (bs : List UInt8) : FrameType ⊕ FrameHeader :=
  readHeader (ofBytes bs) bs.length capcity

/-- **Every frame a call takes from `bs` lies inside `bs`.** The frame
the header tests let through has a length that is not negative, and with
its header and masking key it ends within the bytes received; and so on
for the bytes behind it. -/
inductive FramesInside : ℕ → List UInt8 → Prop
  | stop {capcity : ℕ} {bs : List UInt8} {ret : FrameType} :
      headerOf capcity bs = .inl ret → FramesInside capcity bs
  | frame {capcity : ℕ} {bs : List UInt8} {h : FrameHeader} (n : ℕ) :
      headerOf capcity bs = .inr h → h.payloadLen = n → h.payloadOffset + n ≤ bs.length →
      FramesInside (capcity - n) (bs.drop (h.payloadOffset + n)) → FramesInside capcity bs

/-- The payload of a frame of `n` payload bytes that `bs` starts with,
unmasked. -/
def payloadOf (h : FrameHeader) (n : ℕ) (bs : List UInt8) : List UInt8 :=
  maskBytes ((bs.drop h.canReadOffset).take (h.payloadOffset - h.canReadOffset))
    ((bs.drop h.payloadOffset).take n)

/-- A call on the bytes `bs`: what it writes, what it leaves and the
value the loop ends with. -/
inductive Decodes : ℕ → List UInt8 → List UInt8 → List UInt8 → FrameType → Prop
  | stop {capcity : ℕ} {bs : List UInt8} {ret : FrameType} :
      headerOf capcity bs = .inl ret → Decodes capcity bs [] bs ret
  | last {capcity : ℕ} {bs : List UInt8} {h : FrameHeader} {n : ℕ} :
      headerOf capcity bs = .inr h → h.payloadLen = n → h.payloadOffset + n = bs.length →
      Decodes capcity bs (payloadOf h n bs) [] .openingFrame
  | frame {capcity : ℕ} {bs out left : List UInt8} {h : FrameHeader} {n : ℕ} {ret : FrameType} :
      headerOf capcity bs = .inr h → h.payloadLen = n → h.payloadOffset + n < bs.length →
      Decodes (capcity - n) (bs.drop (h.payloadOffset + n)) out left ret →
      Decodes capcity bs (payloadOf h n bs ++ out) left ret

@[simp] theorem length_maskBytes (key data : List UInt8) :
    (maskBytes key data).length = data.length := by
  simp [maskBytes]

theorem maskBytes_nil (data : List UInt8) : maskBytes [] data = data := by
  refine List.ext_getElem (by simp) fun i _ _ => ?_
  simp [maskBytes]

theorem length_payloadOf (hn : h.payloadOffset + n ≤ bs.length) :
    (payloadOf h n bs).length = n := by
  rw [payloadOf, length_maskBytes, List.length_take, List.length_drop]
  omega

/-- Where frames lie inside, the call is one of those described. -/
theorem FramesInside.exists_decodes (hin : FramesInside capcity bs) :
    ∃ out left ret, Decodes capcity bs out left ret := by
  induction hin with
  | stop hret => exact ⟨_, _, _, Decodes.stop hret⟩
  | frame n hh hlen hle _ ih =>
    obtain ⟨out, left, ret, hd⟩ := ih
    rcases Nat.eq_or_lt_of_le hle with heq | hlt
    · exact ⟨_, _, _, Decodes.last hh hlen heq⟩
    · exact ⟨_, _, _, Decodes.frame hh hlen hlt hd⟩

/-- A call leaves at most what there was, less if it reports a frame, and
what it writes has room. -/
theorem Decodes.bounds {ret : FrameType} (hd : Decodes capcity bs out left ret) :
    left.length ≤ bs.length ∧ (ret = .openingFrame ∨ out ≠ [] → left.length < bs.length) ∧
      out.length ≤ capcity := by
  induction hd with
  | @stop capcity bs ret hret =>
    refine ⟨Nat.le_refl _, ?_, Nat.zero_le _⟩
    rintro (rfl | hne)
    · -- the tests never end a call with the value of a complete frame
      revert hret
      unfold headerOf readHeader
      simp only
      split_ifs <;> simp
    · exact absurd rfl hne
  | @last capcity bs h n hh hlen heq =>
    obtain ⟨hcap, hoff, -⟩ := readHeader_inr hh
    rw [length_payloadOf (Nat.le_of_eq heq)]
    have hpos : 2 ≤ h.payloadOffset := by unfold FrameHeader.payloadOffset; omega
    rw [← heq, List.length_nil]
    omega
  | @frame capcity bs out left h n ret hh hlen hlt _ ih =>
    obtain ⟨hcap, hoff, -⟩ := readHeader_inr hh
    obtain ⟨hle, -, hroom⟩ := ih
    have hpos : 2 ≤ h.payloadOffset := by unfold FrameHeader.payloadOffset; omega
    rw [List.length_drop] at hle
    rw [List.length_append, length_payloadOf (Nat.le_of_lt hlt)]
    exact ⟨by omega, fun _ => by omega, by omega⟩

/-! ## The call on memory -/

theorem drop_take_read (hb : m.read 0 n = bs) {i k : ℕ} (hk : i + k ≤ n) :
    (bs.drop i).take k = m.read i k := by
  rw [← hb, Memory.drop_read (by omega), Nat.zero_add, Memory.take_read (by omega)]

theorem readPayload_eq (hb : m.read 0 n = bs) (hn : n ≤ recvBufSize) {k : ℕ}
    (hlen : h.payloadLen = k) (hk : h.payloadOffset + k ≤ n) :
    readPayload m h = some (payloadOf h k bs) ∧ h.copySize = k := by
  have hsize : h.copySize = k := by
    unfold FrameHeader.copySize
    split
    · rw [hlen, Int.toNat_natCast]
    · rw [hlen, dwordOfInt_of_lt (by simp only [recvBufSize] at hn; omega)]
  refine ⟨?_, hsize⟩
  unfold readPayload payloadOf
  rw [hsize, drop_take_read hb hk]
  by_cases hmask : h.mask = true
  · have hoff : h.payloadOffset = h.canReadOffset + 4 := by
      simp [FrameHeader.payloadOffset, hmask]
    rw [if_pos hmask, Memory.readIn_of_le (by omega), Option.bind_some,
      Memory.readIn_of_le (by omega), hoff, Nat.add_sub_cancel_left, drop_take_read hb (by omega)]
    rfl
  · have hoff : h.payloadOffset = h.canReadOffset := by
      simp [FrameHeader.payloadOffset, hmask]
    rw [if_neg hmask, Memory.readIn_of_le (by omega), hoff, Nat.sub_self, List.take_zero,
      maskBytes_nil]

theorem storeOut_eq {out : Memory} {k : ℕ} {data : List UInt8}
    (hfit : base + k + data.length ≤ recvBufSize) :
    storeOut out base k data = some (out.write (base + k) data) := by
  unfold storeOut
  by_cases hnil : data = []
  · rw [if_pos hnil, hnil, Memory.write_nil]
  · rw [if_neg hnil, if_neg (by omega), show ((base : ℤ) + k).toNat = base + k by omega,
      Memory.writeIn_of_le hfit]

/-- What is left in the buffer is what lay behind the frame. -/
theorem moveRest_eq (hb : m.read 0 n = bs) (hn : n ≤ recvBufSize) {k : ℕ} (hk : k ≤ n) :
    ∃ m', moveRest m k (n - k) = some m' ∧ m'.read 0 (n - k) = bs.drop k := by
  have hdrop : bs.drop k = m.read k (n - k) := by
    rw [← hb, Memory.drop_read hk, Nat.zero_add]
  unfold moveRest
  by_cases hzero : n - k = 0
  · exact ⟨m, if_pos hzero, by rw [hdrop, hzero]; rfl⟩
  · rw [if_neg hzero, if_neg (by omega), Int.toNat_natCast,
      Memory.copyIn_of_le (by omega) (by omega)]
    refine ⟨_, rfl, ?_⟩
    have hself : (m.write 0 (m.read k (n - k))).read 0 (m.read k (n - k)).length =
        m.read k (n - k) := Memory.read_write_self
    rw [Memory.length_read] at hself
    rw [hself, hdrop]

/-- The state of the loop on the bytes `bs`, with room for `capcity`
bytes behind the `k` already written. -/
structure LoopAt (base : ℕ) (s : DecodeState) (bs : List UInt8) (k : ℕ) : Prop where
  bytes : s.recvBuf.read 0 s.recvSize = bs
  recvSize_le : s.recvSize ≤ recvBufSize
  index_eq : s.index = k
  room : base + k + s.capcity ≤ recvBufSize
  outSize_lt : s.outSize + s.capcity < 2 ^ 32

theorem LoopAt.length_eq {k : ℕ} (hs : LoopAt base s bs k) :
    s.recvSize = bs.length := by
  rw [← hs.bytes, Memory.length_read]

theorem LoopAt.readHeader_eq {k : ℕ} (hs : LoopAt base s bs k) :
    readHeader s.recvBuf s.recvSize s.capcity = headerOf s.capcity bs := by
  have hself : (ofBytes bs).read 0 bs.length = bs := Memory.read_write_self
  rw [headerOf, ← hs.length_eq]
  refine readHeader_congr ?_
  rw [hs.bytes, hs.length_eq, hself]

/-- **One turn** takes a frame that lies inside the bytes. -/
theorem takeFrame_eq {k : ℕ} (hs : LoopAt base s bs k) {n : ℕ}
    (hlen : h.payloadLen = n) (hle : h.payloadOffset + n ≤ bs.length) (hcap : n ≤ s.capcity) :
    ∃ s', takeFrame base s h = some s' ∧
      LoopAt base s' (bs.drop (h.payloadOffset + n)) (k + n) ∧
      s'.out = s.out.write (base + k) (payloadOf h n bs) ∧
      s'.outSize = s.outSize + n ∧ s'.capcity = s.capcity - n ∧ s'.overRead = s.overRead := by
  have hsize := hs.length_eq
  have hbuf := hs.recvSize_le
  have hroom := hs.room
  have hout := hs.outSize_lt
  have hidx := hs.index_eq
  obtain ⟨hread, hcopy⟩ := readPayload_eq hs.bytes hbuf hlen (by omega)
  have hstore : storeOut s.out base k (payloadOf h n bs) =
      some (s.out.write (base + k) (payloadOf h n bs)) :=
    storeOut_eq (by rw [length_payloadOf hle]; omega)
  have hoff : int32 (h.payloadOffset + h.payloadLen) = ((h.payloadOffset + n : ℕ) : ℤ) := by
    rw [hlen, ← Int.natCast_add]
    exact int32_of_lt (by simp only [recvBufSize] at hbuf; omega)
  have hleft : dwordOfInt (s.recvSize - int32 (h.payloadOffset + h.payloadLen)) =
      s.recvSize - (h.payloadOffset + n) := by
    rw [hoff, ← Int.natCast_sub (by omega)]
    exact dwordOfInt_of_lt (by simp only [recvBufSize] at hbuf; omega)
  obtain ⟨m', hmove, hrest⟩ := moveRest_eq hs.bytes hbuf
    (show h.payloadOffset + n ≤ s.recvSize by omega)
  unfold takeFrame
  rw [hread, Option.bind_some, hidx, hstore, Option.bind_some]
  simp only [hleft]
  rw [hoff, hmove, Option.map_some, hlen]
  have hindex : int32 ((k : ℤ) + (n : ℤ)) = ((k + n : ℕ) : ℤ) := by
    exact int32_of_lt (by simp only [recvBufSize] at hroom; omega)
  have houtSize : dwordOfInt ((s.outSize : ℤ) + (n : ℤ)) = s.outSize + n := by
    exact dwordOfInt_of_lt (by omega)
  have hcapcity : dwordOfInt ((s.capcity : ℤ) - (n : ℤ)) = s.capcity - n := by
    rw [← Int.natCast_sub hcap]
    exact dwordOfInt_of_lt (by omega)
  rw [hindex, houtSize, hcapcity]
  have hbuf' : s.recvSize - (h.payloadOffset + n) ≤ recvBufSize := by omega
  have hroom' : base + (k + n) + (s.capcity - n) ≤ recvBufSize := by
    rw [show base + (k + n) + (s.capcity - n) = base + k + s.capcity by omega]
    exact hroom
  have hout' : s.outSize + n + (s.capcity - n) < 2 ^ 32 := by omega
  refine ⟨_, rfl, ⟨hrest, hbuf', rfl, hroom', hout'⟩, rfl, rfl, rfl, ?_⟩
  · simp only [hcopy, hsize, show ¬ bs.length < h.payloadOffset + n by omega, decide_false,
      Bool.or_false]

/-- **The loop does what `Decodes` describes**, and reads no byte behind
those received. -/
theorem decodeLoop_eq {ret : FrameType} (hd : Decodes capcity bs out left ret) :
    ∀ {base k : ℕ} {s : DecodeState} (fuel : ℕ), LoopAt base s bs k → s.capcity = capcity →
      bs.length < fuel →
      ∃ s', decodeLoop base fuel s = some (ret, s') ∧ s'.recvBuf.read 0 s'.recvSize = left ∧
        s'.out = s.out.write (base + k) out ∧ s'.outSize = s.outSize + out.length ∧
        s'.capcity = capcity - out.length ∧ s'.overRead = s.overRead := by
  induction hd with
  | stop hret =>
    intro base k s fuel hs hcap hfuel
    obtain ⟨fuel, rfl⟩ := Nat.exists_eq_succ_of_ne_zero (by omega : fuel ≠ 0)
    refine ⟨s, ?_, hs.bytes, by rw [Memory.write_nil], rfl, hcap, rfl⟩
    rw [decodeLoop, hs.readHeader_eq, hcap, hret]
  | @last capcity bs h n hh hlen heq =>
    intro base k s fuel hs hcap hfuel
    obtain ⟨fuel, rfl⟩ := Nat.exists_eq_succ_of_ne_zero (by omega : fuel ≠ 0)
    obtain ⟨hroom, -, -⟩ := readHeader_inr hh
    obtain ⟨s', htake, hs', hout, hsz, hc, hover⟩ :=
      takeFrame_eq hs hlen (Nat.le_of_eq heq) (by omega)
    have hnil : bs.drop (h.payloadOffset + n) = [] := by rw [heq, List.drop_length]
    have hzero : s'.recvSize = 0 := by rw [hs'.length_eq, hnil]; rfl
    refine ⟨s', ?_, by rw [hs'.bytes, hnil], hout, ?_, ?_, hover⟩
    · rw [decodeLoop, hs.readHeader_eq, hcap, hh]
      simp only
      rw [htake, Option.bind_some, if_neg (by omega)]
    · rw [hsz, length_payloadOf (Nat.le_of_eq heq)]
    · rw [hc, hcap, length_payloadOf (Nat.le_of_eq heq)]
  | @frame capcity bs out left h n ret hh hlen hlt _ ih =>
    intro base k s fuel hs hcap hfuel
    obtain ⟨fuel, rfl⟩ := Nat.exists_eq_succ_of_ne_zero (by omega : fuel ≠ 0)
    obtain ⟨hroom, hoff, -⟩ := readHeader_inr hh
    obtain ⟨s', htake, hs', hout, hsz, hc, hover⟩ :=
      takeFrame_eq hs hlen (Nat.le_of_lt hlt) (by omega)
    have hpos : 2 ≤ h.payloadOffset := by unfold FrameHeader.payloadOffset; omega
    have hmore : 0 < s'.recvSize := by rw [hs'.length_eq, List.length_drop]; omega
    obtain ⟨s₂, hloop, hleft, hout₂, hsz₂, hc₂, hover₂⟩ :=
      ih fuel hs' (by rw [hc, hcap]) (by rw [List.length_drop]; omega)
    have hn := length_payloadOf (Nat.le_of_lt hlt)
    refine ⟨s₂, ?_, hleft, ?_, ?_, ?_, hover₂.trans hover⟩
    · rw [decodeLoop, hs.readHeader_eq, hcap, hh]
      simp only
      rw [htake, Option.bind_some, if_pos hmore, hloop]
    · have hjoin : (s.out.write (base + k) (payloadOf h n bs)).write
          (base + k + (payloadOf h n bs).length) out =
            s.out.write (base + k) (payloadOf h n bs ++ out) := Memory.write_write out
      rw [hout₂, hout, ← hjoin, hn, Nat.add_assoc]
    · rw [hsz₂, hsz, List.length_append, hn, Nat.add_assoc]
    · rw [hc₂, List.length_append, hn, Nat.sub_sub]

/-- No frame a call takes from `bs` has a 64-bit length field. -/
inductive ShortFrames : ℕ → List UInt8 → Prop
  | stop {capcity : ℕ} {bs : List UInt8} {ret : FrameType} :
      headerOf capcity bs = .inl ret → ShortFrames capcity bs
  | frame {capcity : ℕ} {bs : List UInt8} {h : FrameHeader} (n : ℕ) :
      headerOf capcity bs = .inr h → h.canReadOffset ≠ 10 → h.payloadLen = n →
      ShortFrames (capcity - n) (bs.drop (h.payloadOffset + n)) → ShortFrames capcity bs

/-- What the tests have compared when a frame with a short length field
passes them. -/
theorem readHeader_short (hh : readHeader m n capcity = .inr h) (hshort : h.canReadOffset ≠ 10) :
    h.payloadLen < 2 ^ 16 ∧ h.payloadLen + h.canReadOffset ≤ n := by
  unfold readHeader at hh
  simp only at hh
  split_ifs at hh with h₄ h₅
  cases hh
  have hlen : 0 ≤ (payloadLength m).1 ∧ (payloadLength m).1 < 2 ^ 16 := by
    have hword := wordOf_lt (m 2) (m (2 + 1))
    have hbyte := (m 1 &&& 0x7f).toNat_lt
    simp only [payloadLength] at hshort ⊢
    split_ifs at hshort ⊢ with h126 h127
    · simp only [swapBytes, Memory.wordAt]
      omega
    · exact absurd rfl hshort
    · omega
  have hoff : (payloadLength m).2 ≤ 10 := by
    simp only [payloadLength]
    split_ifs <;> simp
  obtain ⟨l, hl⟩ := Int.eq_ofNat_of_zero_le hlen.1
  have hwide : int64 ((payloadLength m).1 + (payloadLength m).2) =
      ((l + (payloadLength m).2 : ℕ) : ℤ) := by
    rw [hl]
    exact int64_of_lt (by omega)
  simp only
  omega

/-- A short frame whose key or payload is not all there makes the size
wrap, and the move of the rest faults. -/
theorem takeFrame_of_outside {k : ℕ} (hs : LoopAt base s bs k)
    (hh : headerOf s.capcity bs = .inr h) (hshort : h.canReadOffset ≠ 10) {n : ℕ}
    (hlen : h.payloadLen = n) (hout : bs.length < h.payloadOffset + n) :
    takeFrame base s h = none := by
  have hsize := hs.length_eq
  have hbuf := hs.recvSize_le
  obtain ⟨hsmall, hfit⟩ := readHeader_short hh hshort
  have hoff : h.payloadOffset ≤ h.canReadOffset + 4 := by
    unfold FrameHeader.payloadOffset
    split <;> omega
  simp only [recvBufSize] at hbuf
  have hoffset : int32 (h.payloadOffset + h.payloadLen) = ((h.payloadOffset + n : ℕ) : ℤ) := by
    rw [hlen, ← Int.natCast_add]
    exact int32_of_lt (by omega)
  have hwrap : recvBufSize < dwordOfInt (s.recvSize - ((h.payloadOffset + n : ℕ) : ℤ)) := by
    unfold dwordOfInt recvBufSize
    omega
  have hmove : moveRest s.recvBuf ((h.payloadOffset + n : ℕ) : ℤ)
      (dwordOfInt (s.recvSize - ((h.payloadOffset + n : ℕ) : ℤ))) = none := by
    unfold moveRest
    rw [if_neg (by omega), if_neg (by omega), Int.toNat_natCast, Memory.copyIn, Memory.readIn,
      if_neg (by omega), Option.bind_none]
  unfold takeFrame
  cases readPayload s.recvBuf h with
  | none => rfl
  | some data =>
    rw [Option.bind_some]
    cases storeOut s.out base s.index data with
    | none => rfl
    | some out =>
      rw [Option.bind_some]
      simp only [hoffset, hmove, Option.map_none]

/-- **A call that returns took frames that lie inside**, unless one of
them has a 64-bit length. -/
theorem framesInside_of_decodeLoop : ∀ (fuel : ℕ) {base k : ℕ} {s : DecodeState}
    {bs : List UInt8} {r : FrameType × DecodeState}, LoopAt base s bs k →
    ShortFrames s.capcity bs → decodeLoop base fuel s = some r → FramesInside s.capcity bs := by
  intro fuel
  induction fuel with
  | zero =>
    intro base k s bs r _ _ hr
    cases hr
  | succ fuel ih =>
    intro base k s bs r hs hshort hr
    rw [decodeLoop, hs.readHeader_eq] at hr
    obtain hret | ⟨n, hh, hoff, hlen, hrest⟩ := hshort
    · exact FramesInside.stop hret
    obtain ⟨hroom, -, -⟩ := readHeader_inr hh
    rw [hh] at hr
    simp only at hr
    rcases Nat.lt_or_ge bs.length (_ + n) with hout | hle
    · rw [takeFrame_of_outside hs hh hoff hlen hout] at hr
      cases hr
    obtain ⟨s', htake, hs', -, -, hcap, -⟩ := takeFrame_eq hs hlen hle (by omega)
    refine FramesInside.frame n hh hlen hle ?_
    rw [htake, Option.bind_some] at hr
    rcases Nat.eq_zero_or_pos s'.recvSize with hzero | hpos
    · -- nothing is left
      rw [hs'.length_eq] at hzero
      rw [List.eq_nil_of_length_eq_zero hzero]
      exact FramesInside.stop rfl
    · rw [if_pos hpos] at hr
      rw [← hcap] at hrest ⊢
      exact ih hs' hrest hr

/-- **What a call leaves**, given that its frames lie inside the bytes
received. -/
theorem decodeFrame_eq {outSize : ℕ} {yield : List UInt8}
    {ret : FrameType} (out : Memory) (hbuf : ws.recvSize ≤ recvBufSize) (hroom : base + capcity ≤ recvBufSize)
    (hout : outSize + capcity < 2 ^ 32) (hd : Decodes capcity ws.held yield left ret) :
    ∃ r, ws.decodeFrame out base capcity outSize = some r ∧ r.websocket.held = left ∧
      r.out = out.write base yield ∧ r.outSize = outSize + yield.length ∧ r.overRead = false ∧
      (r.ret = .openingFrame → ret = .openingFrame ∨ yield ≠ []) := by
  have hlen : ws.held.length = ws.recvSize := Memory.length_read
  have hs : LoopAt base
      { recvSize := ws.recvSize, recvBuf := ws.recvBuf, out, index := 0, outSize, capcity }
      ws.held 0 := ⟨rfl, hbuf, rfl, hroom, hout⟩
  obtain ⟨s', hloop, hleft, hwrite, hsz, hcap, hover⟩ :=
    decodeLoop_eq hd (ws.recvSize + 1) hs rfl (by omega)
  rw [WebSocket.decodeFrame, hloop, Option.map_some]
  refine ⟨_, rfl, hleft, hwrite, hsz, hover, ?_⟩
  simp only [hcap]
  intro hret
  by_cases hnil : yield = []
  · rw [hnil, List.length_nil, Nat.sub_zero, if_neg (fun hne => hne rfl)] at hret
    exact Or.inl hret
  · exact Or.inr hnil

/-! ## Frames a client sends -/

/-- A data frame: the first byte (with an opcode below the control
frames), the masking key if there is one, and the payload. -/
structure ClientFrame where
  first : UInt8
  data : first &&& 0x0f < 8
  masked : Bool
  key : List UInt8
  key_length : key.length = if masked then 4 else 0
  payload : List UInt8

namespace ClientFrame

variable {f : ClientFrame}

/-- The second byte: the mask bit and a 7-bit length. -/
def second (f : ClientFrame) (payloadlen : ℕ) : UInt8 :=
  UInt8.ofNat ((if f.masked then 128 else 0) + payloadlen)

/-- The second byte and the longer length field, high byte first. -/
def lengthField (f : ClientFrame) : List UInt8 :=
  let n := f.payload.length
  if n < 126 then [f.second n]
  else if n < 2 ^ 16 then f.second 126 :: [UInt8.ofNat (n / 2 ^ 8), UInt8.ofNat n]
  else f.second 127 :: (List.range 8).map fun i => UInt8.ofNat (n / 2 ^ (8 * (7 - i)))

def encode (f : ClientFrame) : List UInt8 :=
  f.first :: (f.lengthField ++ f.key ++ maskBytes f.key f.payload)

/-- The length fits a 7- or 16-bit field. -/
def Short (f : ClientFrame) : Prop := f.payload.length < 2 ^ 16

def header (f : ClientFrame) : FrameHeader :=
  ⟨f.masked, f.payload.length, if f.payload.length < 126 then 2 else 4⟩

theorem payloadOffset_header : f.header.payloadOffset = f.header.canReadOffset + f.key.length := by
  rw [FrameHeader.payloadOffset, f.key_length]
  rfl

theorem length_encode (hf : f.Short) :
    f.encode.length = f.header.payloadOffset + f.payload.length := by
  unfold Short at hf
  rw [payloadOffset_header]
  by_cases h : f.payload.length < 126
  · simp [encode, lengthField, header, h]
    omega
  · simp only [encode, lengthField, header, h, hf, if_true, if_false, List.length_cons,
      List.length_append, List.length_nil, length_maskBytes]
    omega

end ClientFrame

theorem ofNat_second (b : Bool) {k : ℕ} (hk : k < 128) :
    (UInt8.ofNat ((if b then 128 else 0) + k) &&& 0x7f).toNat = k ∧
      decide (UInt8.ofNat ((if b then 128 else 0) + k) >>> 7 = 1) = b := by
  have hall : ∀ b : Bool, ∀ k : Fin 128,
      (UInt8.ofNat ((if b then 128 else 0) + k.val) &&& 0x7f).toNat = k.val ∧
        decide (UInt8.ofNat ((if b then 128 else 0) + k.val) >>> 7 = 1) = b := by
    decide +kernel
  exact hall b ⟨k, hk⟩

theorem swapBytes_wordOf {n : ℕ} (hn : n < 2 ^ 16) :
    swapBytes (wordOf (UInt8.ofNat (n / 2 ^ 8)) (UInt8.ofNat n)) = n := by
  have hhi : n / 2 ^ 8 % 2 ^ 8 = n / 2 ^ 8 := Nat.mod_eq_of_lt (by omega)
  rw [swapBytes, wordOf, UInt8.toNat_ofNat', UInt8.toNat_ofNat', hhi]
  omega

theorem getElem?_of_isPrefix {whole : List UInt8} (hbs : bs <+: whole) {i : ℕ}
    (hi : i < bs.length) : whole[i]? = some (ofBytes bs i) := by
  obtain ⟨t, ht⟩ := hbs
  rw [← ht, List.getElem?_append_left hi, List.getElem?_eq_getElem hi, ofBytes_apply hi]

theorem second_of_isPrefix {f : ClientFrame} (hbs : bs <+: f.encode ++ rest) (h2 : 2 ≤ bs.length)
    {k : ℕ} (hk : k < 128) (hhead : f.lengthField.head? = some (f.second k)) :
    (ofBytes bs 1 &&& 0x7f).toNat = k ∧ decide (ofBytes bs 1 >>> 7 = 1) = f.masked := by
  have h₁ := getElem?_of_isPrefix hbs (show 1 < bs.length by omega)
  obtain ⟨b, l, hl⟩ : ∃ b l, f.lengthField = b :: l := by
    cases hl : f.lengthField with
    | nil => rw [hl] at hhead; cases hhead
    | cons b l => exact ⟨b, l, rfl⟩
  rw [hl] at hhead
  simp only [ClientFrame.encode, hl, List.cons_append, List.getElem?_cons_succ,
    List.getElem?_cons_zero, Option.some.injEq] at h₁
  rw [← h₁, Option.some.inj hhead]
  exact ofNat_second f.masked hk

/-- **The header tests on bytes that are, or start, a short frame.** A
frame passes them before the last four bytes of a masked one are in. -/
theorem headerOf_of_isPrefix {f : ClientFrame} (hf : f.Short)
    (hbs : bs <+: f.encode ++ rest) :
    headerOf capcity bs =
      if bs.length < f.header.canReadOffset + f.payload.length then .inl .middleFrame
      else if capcity < f.payload.length then .inl .middleFrame
      else .inr f.header := by
  have hget := fun i => @getElem?_of_isPrefix _ _ hbs i
  have hoff : 2 ≤ f.header.canReadOffset := by
    simp only [ClientFrame.header]
    split <;> omega
  unfold headerOf readHeader
  by_cases h2 : bs.length < 2
  · rw [if_pos h2, if_pos (by omega)]
  have hfirst : ofBytes bs 0 = f.first := by
    have h₀ := hget 0 (by omega)
    exact (Option.some.inj h₀).symm
  have hopcode : ¬ ofBytes bs 0 &&& 0x0f = 0x08 := by
    rw [hfirst]
    intro heq
    have hdata := f.data
    rw [heq] at hdata
    exact absurd hdata (by decide)
  rw [if_neg h2, if_neg hopcode]
  have hn := hf
  unfold ClientFrame.Short at hn
  have hsecond := fun k => @second_of_isPrefix _ _ f hbs (by omega) k
  have hcap : (((capcity : ℕ) : ℤ) < (f.payload.length : ℤ)) = (capcity < f.payload.length) := by
    rw [Int.ofNat_lt]
  have hwide : ∀ k : ℕ, k < 8 → int64 ((f.payload.length : ℤ) + (k : ℤ)) =
      ((f.payload.length + k : ℕ) : ℤ) := fun k hk => int64_of_lt (by omega)
  by_cases hshort : f.payload.length < 126
  · -- a 7-bit length
    obtain ⟨hlen, hmask⟩ := hsecond f.payload.length (by omega) (by
      simp [ClientFrame.lengthField, hshort])
    have hfield : payloadLength (ofBytes bs) = ((f.payload.length : ℤ), 2) := by
      simp only [payloadLength, hlen]
      rw [if_neg (by omega), if_neg (by omega)]
    have hheader : f.header = ⟨f.masked, f.payload.length, 2⟩ := by
      simp [ClientFrame.header, hshort]
    rw [hlen, hheader, hfield, hmask]
    simp only
    by_cases hall : bs.length < f.payload.length + 2
    · rw [if_pos hall, if_pos (by omega)]
    · rw [if_neg hall, if_neg (by rw [hwide 2 (by omega)]; omega), if_neg (show ¬ bs.length < 2 + f.payload.length by omega)]
      simp only [hcap]
  · -- a 16-bit length, high byte first
    obtain ⟨hlen, hmask⟩ := hsecond 126 (by omega) (by
      simp only [ClientFrame.lengthField, if_neg hshort, if_pos hn, List.head?_cons])
    have hheader : f.header = ⟨f.masked, f.payload.length, 4⟩ := by
      simp [ClientFrame.header, hshort]
    rw [hlen, hheader]
    by_cases hlong : bs.length < 128
    · rw [if_pos hlong, if_pos (by simp only; omega)]
    rw [if_neg hlong]
    have hfield : payloadLength (ofBytes bs) = ((f.payload.length : ℤ), 4) := by
      have h₂ := hget 2 (by omega)
      have h₃ := hget (2 + 1) (by omega)
      simp only [ClientFrame.encode, ClientFrame.lengthField, hshort, hn, if_true, if_false,
        List.cons_append, List.getElem?_cons_succ, List.getElem?_cons_zero,
        Option.some.injEq] at h₂ h₃
      simp only [payloadLength, hlen, if_true, Memory.wordAt]
      rw [← h₂, ← h₃, swapBytes_wordOf hn]
    rw [hfield, hmask]
    simp only
    by_cases hall : bs.length < f.payload.length + 4
    · rw [if_pos (by rw [hwide 4 (by omega)]; omega), if_pos (by omega)]
    · rw [if_neg (by rw [hwide 4 (by omega)]; omega), if_neg (show ¬ bs.length < 4 + f.payload.length by omega)]
      simp only [hcap]

theorem maskBytes_maskBytes (key data : List UInt8) :
    maskBytes key (maskBytes key data) = data := by
  refine List.ext_getElem (by simp) fun i _ _ => ?_
  simp only [maskBytes, List.getElem_mapIdx]
  rw [UInt8.xor_assoc, UInt8.xor_self, UInt8.xor_zero]

/-- The payload of a frame is what its sender put there. -/
theorem payloadOf_encode {f : ClientFrame} (hf : f.Short) :
    payloadOf f.header f.payload.length (f.encode ++ rest) = f.payload := by
  have hsplit : f.encode ++ rest =
      (f.first :: f.lengthField) ++ (f.key ++ (maskBytes f.key f.payload ++ rest)) := by
    simp [ClientFrame.encode]
  have hhead : (f.first :: f.lengthField).length = f.header.canReadOffset := by
    have hlen := f.length_encode hf
    rw [ClientFrame.payloadOffset_header] at hlen
    simp only [ClientFrame.encode, List.length_cons, List.length_append, length_maskBytes] at hlen ⊢
    omega
  have hkey : ((f.encode ++ rest).drop f.header.canReadOffset).take
      (f.header.payloadOffset - f.header.canReadOffset) = f.key := by
    rw [hsplit, List.drop_left' hhead, ClientFrame.payloadOffset_header, Nat.add_sub_cancel_left,
      List.take_left]
  have hdata : ((f.encode ++ rest).drop f.header.payloadOffset).take f.payload.length =
      maskBytes f.key f.payload := by
    rw [hsplit, ← List.append_assoc, List.drop_left' (by
      rw [List.length_append, hhead, ClientFrame.payloadOffset_header]),
      List.take_left' (length_maskBytes _ _)]
  rw [payloadOf, hkey, hdata, maskBytes_maskBytes]

/-! ## Streams of frames -/

variable {fs : List ClientFrame}

/-- Frames on the wire, one behind the other. -/
def encodeFrames (fs : List ClientFrame) : List UInt8 := (fs.map ClientFrame.encode).flatten

/-- The payloads of frames, one behind the other. -/
def payloads (fs : List ClientFrame) : List UInt8 := (fs.map ClientFrame.payload).flatten

@[simp] theorem encodeFrames_nil : encodeFrames [] = [] := rfl

@[simp] theorem encodeFrames_cons {f : ClientFrame} :
    encodeFrames (f :: fs) = f.encode ++ encodeFrames fs := rfl

@[simp] theorem payloads_nil : payloads [] = [] := rfl

@[simp] theorem payloads_cons {f : ClientFrame} :
    payloads (f :: fs) = f.payload ++ payloads fs := rfl

@[simp] theorem payloads_append {gs : List ClientFrame} :
    payloads (fs ++ gs) = payloads fs ++ payloads gs := by
  simp [payloads]

@[simp] theorem encodeFrames_append {gs : List ClientFrame} :
    encodeFrames (fs ++ gs) = encodeFrames fs ++ encodeFrames gs := by
  simp [encodeFrames]

/-- **A whole frame in front** is taken, and the call goes on behind
it. -/
theorem decodes_encode {f : ClientFrame} {ret : FrameType} (hf : f.Short)
    (hcap : f.payload.length ≤ capcity)
    (hd : Decodes (capcity - f.payload.length) bs out left ret) :
    ∃ ret', Decodes capcity (f.encode ++ bs) (f.payload ++ out) left ret' := by
  have htotal := f.length_encode hf
  have hkey := f.payloadOffset_header
  have hheader : headerOf capcity (f.encode ++ bs) = .inr f.header := by
    rw [headerOf_of_isPrefix hf (List.prefix_refl (f.encode ++ bs)), List.length_append,
      if_neg (by omega), if_neg (by omega)]
  have hpay : payloadOf f.header f.payload.length (f.encode ++ bs) = f.payload :=
    payloadOf_encode hf
  have hdrop : (f.encode ++ bs).drop (f.header.payloadOffset + f.payload.length) = bs := by
    rw [← htotal, List.drop_left]
  by_cases hnil : bs = []
  · -- nothing behind: the loop ends with this frame
    subst hnil
    obtain ⟨hle, -, hout⟩ := hd.bounds
    have hleft : left = [] := List.eq_nil_of_length_eq_zero (Nat.le_zero.1 hle)
    have hlast := Decodes.last hheader rfl (by rw [List.append_nil, htotal])
    have houtnil : out = [] := by
      by_contra hne
      exact absurd (hd.bounds.2.1 (Or.inr hne)) (by simp)
    rw [hpay] at hlast
    rw [hleft, houtnil, List.append_nil f.payload]
    exact ⟨_, hlast⟩
  · have hmore : f.header.payloadOffset + f.payload.length < (f.encode ++ bs).length := by
      have := List.length_pos_iff.2 hnil
      rw [List.length_append, htotal]
      omega
    rw [← hpay]
    exact ⟨ret, Decodes.frame hheader rfl hmore (by rwa [hdrop])⟩

/-- **A call on the start of a stream** takes the whole frames at its
front. A whole frame is left only where the next payload has no room. -/
theorem decodes_of_isPrefix : ∀ {fs : List ClientFrame} {capcity : ℕ} {bs : List UInt8},
    (∀ f ∈ fs, f.Short) → bs <+: encodeFrames fs → FramesInside capcity bs →
    ∃ taken kept left ret, fs = taken ++ kept ∧ Decodes capcity bs (payloads taken) left ret ∧
      bs = encodeFrames taken ++ left ∧
      ∀ f ∈ kept.head?, f.encode.length ≤ left.length →
        capcity < (payloads taken).length + f.payload.length := by
  intro fs
  induction fs with
  | nil =>
    intro capcity bs _ hbs _
    rw [encodeFrames_nil, List.prefix_nil] at hbs
    subst hbs
    exact ⟨[], [], [], .middleFrame, rfl, Decodes.stop rfl, rfl, fun f hf => by cases hf⟩
  | cons f fs ih =>
    intro capcity bs hshort hbs hin
    have hf : f.Short := hshort f List.mem_cons_self
    have htotal := f.length_encode hf
    have hkey := f.payloadOffset_header
    have hheader : headerOf capcity bs = _ := headerOf_of_isPrefix hf hbs
    -- the call stops in front of a frame that is not all there or does not fit
    by_cases hpart : bs.length < f.header.canReadOffset + f.payload.length
    · rw [if_pos hpart] at hheader
      refine ⟨[], f :: fs, bs, _, rfl, Decodes.stop hheader, rfl, ?_⟩
      rintro g ⟨⟩ hg
      omega
    rw [if_neg hpart] at hheader
    by_cases hcap : capcity < f.payload.length
    · rw [if_pos hcap] at hheader
      refine ⟨[], f :: fs, bs, _, rfl, Decodes.stop hheader, rfl, ?_⟩
      rintro g ⟨⟩ -
      rwa [payloads_nil, List.length_nil, Nat.zero_add]
    rw [if_neg hcap] at hheader
    -- the frame is taken, so it is all there
    obtain ⟨hle, hin'⟩ : f.encode.length ≤ bs.length ∧
        FramesInside (capcity - f.payload.length) (bs.drop f.encode.length) := by
      cases hin with
      | stop hret => rw [hheader] at hret; cases hret
      | frame n hh hlen hle hrest =>
        rw [hheader] at hh
        cases hh
        obtain rfl : f.payload.length = n := Int.ofNat.inj hlen
        rw [htotal]
        exact ⟨hle, hrest⟩
    obtain ⟨bs', rfl⟩ : f.encode <+: bs :=
      List.prefix_of_prefix_length_le (List.prefix_append _ _) hbs hle
    rw [List.drop_left] at hin'
    rw [encodeFrames_cons, List.prefix_append_right_inj] at hbs
    obtain ⟨taken, kept, left, ret, hfs, hd, hbs', hkept⟩ :=
      ih (fun g hg => hshort g (List.mem_cons_of_mem _ hg)) hbs hin'
    obtain ⟨ret', hd'⟩ := decodes_encode hf (Nat.not_lt.1 hcap) hd
    refine ⟨f :: taken, kept, left, ret', by rw [hfs]; rfl, ?_, ?_, ?_⟩
    · exact hd'
    · rw [encodeFrames_cons, List.append_assoc, hbs']
    · intro g hg hlen
      have := hkept g hg hlen
      rw [payloads_cons, List.length_append]
      omega

/-! ## Receiving a stream -/

/-- One receive on a WebSocket connection: the bytes that came in and
the item's own buffer, of which `recvSize` bytes are in use. -/
structure Receipt where
  chunk : List UInt8
  out : Memory
  recvSize : ℕ

/-- The bytes a call has written behind the `recvSize` bytes in use. -/
def DecodeResult.yield (r : DecodeResult) (recvSize : ℕ) : List UInt8 :=
  r.out.read recvSize (r.outSize - recvSize)

/-- Receives as a machine that emits what each call writes. -/
def WebSocket.step : Machine WebSocket Receipt (List UInt8) := fun ws e =>
  (ws.recvFrame e.chunk e.out e.recvSize).map fun r => (r.websocket, [r.yield e.recvSize])

/-- A receive puts no more into the buffer than it has room for, and the
frames the call then takes lie inside the bytes received. -/
structure ReceiptOk (ws : WebSocket) (e : Receipt) : Prop where
  chunk_le : ws.recvSize + e.chunk.length ≤ recvBufSize
  recvSize_le : e.recvSize ≤ recvBufSize
  inside : FramesInside (recvBufSize - e.recvSize) (ws.held ++ e.chunk)

theorem held_recv {chunk : List UInt8} : { ws with
      recvSize := ws.recvSize + chunk.length
      recvBuf := ws.recvBuf.write ws.recvSize chunk }.held = ws.held ++ chunk := by
  have hself : (ws.recvBuf.write ws.recvSize chunk).read ws.recvSize chunk.length = chunk :=
    Memory.read_write_self
  rw [WebSocket.held, Memory.read_add, Nat.zero_add, hself,
    Memory.read_write_of_disjoint (Or.inl (by omega))]
  rfl

/-- **One receive** on the start of a stream yields the payloads of the
frames it completes. -/
theorem step_eq {e : Receipt} (hshort : ∀ f ∈ fs, f.Short)
    (hbs : ws.held ++ e.chunk <+: encodeFrames fs) (hok : ReceiptOk ws e) :
    ∃ ws' taken kept, WebSocket.step ws e = some (ws', [payloads taken]) ∧ fs = taken ++ kept ∧
      ws.held ++ e.chunk = encodeFrames taken ++ ws'.held ∧ ws'.recvSize ≤ recvBufSize ∧
      ∀ f ∈ kept.head?, f.encode.length ≤ ws'.held.length →
        recvBufSize - e.recvSize < (payloads taken).length + f.payload.length := by
  have hchunk := hok.chunk_le
  have hroom := hok.recvSize_le
  obtain ⟨taken, kept, left, ret, hfs, hd, hsplit, hkept⟩ :=
    decodes_of_isPrefix hshort hbs hok.inside
  rw [← held_recv] at hd
  have hcapacity : e.recvSize + (recvBufSize - e.recvSize) ≤ recvBufSize := by omega
  have hsize : e.recvSize + (recvBufSize - e.recvSize) < 2 ^ 32 :=
    Nat.lt_of_le_of_lt hcapacity (by decide)
  obtain ⟨r, hr, hheld, hout, hsz, -, -⟩ := decodeFrame_eq e.out hchunk hcapacity hsize hd
  have hyield : r.yield e.recvSize = payloads taken := by
    have hself : (e.out.write e.recvSize (payloads taken)).read e.recvSize
        (payloads taken).length = payloads taken := Memory.read_write_self
    rw [DecodeResult.yield, hsz, hout, Nat.add_sub_cancel_left, hself]
  refine ⟨r.websocket, taken, kept, ?_, hfs, by rw [hheld, hsplit], ?_, ?_⟩
  · rw [WebSocket.step, WebSocket.recvFrame, Memory.writeIn_of_le hchunk, Option.bind_some, hr,
      Option.map_some, hyield]
  · have hlen : r.websocket.held.length = r.websocket.recvSize := Memory.length_read
    have hle := congrArg List.length hsplit
    have hws : ws.held.length = ws.recvSize := Memory.length_read
    rw [List.length_append, List.length_append, hws] at hle
    rw [← hlen, hheld]
    omega
  · rw [hheld]
    exact hkept

/-- **A run of receives** on the start of a stream: what has come out are
the payloads of the frames at its front, and what is held is the rest. -/
theorem run_eq : ∀ (es : List Receipt) {ws : WebSocket} {fs : List ClientFrame},
    (∀ f ∈ fs, f.Short) → ws.held ++ (es.map Receipt.chunk).flatten <+: encodeFrames fs →
    WebSocket.step.Along ReceiptOk ws es →
    ∃ ws' outs taken kept, WebSocket.step.run ws es = some (ws', outs) ∧ fs = taken ++ kept ∧
      outs.flatten = payloads taken ∧
      ws.held ++ (es.map Receipt.chunk).flatten = encodeFrames taken ++ ws'.held := by
  intro es
  induction es with
  | nil =>
    intro ws fs _ _ _
    exact ⟨ws, [], [], fs, rfl, rfl, rfl, by simp⟩
  | cons e es ih =>
    intro ws fs hshort hbs hal
    rw [List.map_cons, List.flatten_cons, ← List.append_assoc] at hbs
    obtain ⟨ws₁, taken₁, kept₁, hstep, hfs, hsplit, -, -⟩ :=
      step_eq hshort ((List.prefix_append _ _).trans hbs) hal.1
    rw [hsplit, hfs, encodeFrames_append, List.append_assoc, List.prefix_append_right_inj] at hbs
    have hshort₁ : ∀ f ∈ kept₁, f.Short := fun f hf =>
      hshort f (by rw [hfs]; exact List.mem_append_right _ hf)
    obtain ⟨ws₂, outs, taken₂, kept₂, hrun, hfs₂, houts, hsplit₂⟩ :=
      ih hshort₁ hbs (hal.2 ws₁ _ hstep)
    refine ⟨ws₂, payloads taken₁ :: outs, taken₁ ++ taken₂, kept₂, ?_, ?_, ?_, ?_⟩
    · rw [Machine.run_cons hstep, hrun]
      rfl
    · rw [hfs, hfs₂, List.append_assoc]
    · rw [List.flatten_cons, houts, payloads_append]
    · rw [List.map_cons, List.flatten_cons, ← List.append_assoc, hsplit, List.append_assoc,
        hsplit₂, encodeFrames_append, List.append_assoc]

/-- The run of a stream that is cut into receives. -/
theorem run_yields_payloads {frames : List ClientFrame} {calls : List Receipt} {last : Receipt}
    (hshort : ∀ f ∈ frames, f.Short)
    (hcut : ((calls ++ [last]).map Receipt.chunk).flatten = encodeFrames frames)
    (hal : WebSocket.step.Along ReceiptOk {} (calls ++ [last])) :
    ∃ ws outs yield taken kept,
      WebSocket.step.run {} (calls ++ [last]) = some (ws, outs ++ [yield]) ∧
      frames = taken ++ kept ∧ (outs ++ [yield]).flatten = payloads taken ∧
      ws.held = encodeFrames kept ∧
      ∀ f ∈ kept.head?, recvBufSize - last.recvSize < yield.length + f.payload.length := by
  obtain ⟨hcalls, hlast⟩ := Machine.along_append hal
  rw [List.map_append, List.flatten_append, List.map_singleton, List.flatten_singleton] at hcut
  have hempty : WebSocket.held {} = [] := rfl
  obtain ⟨ws₁, outs, taken₁, kept₁, hrun, hfs, houts, hsplit⟩ :=
    run_eq calls hshort (by rw [hempty, ← hcut]; exact List.prefix_append _ _) hcalls
  rw [hempty, List.nil_append] at hsplit
  rw [hsplit, hfs, encodeFrames_append, List.append_assoc, List.append_cancel_left_eq] at hcut
  have hshort₁ : ∀ f ∈ kept₁, f.Short := fun f hf =>
    hshort f (by rw [hfs]; exact List.mem_append_right _ hf)
  obtain ⟨ws₂, taken₂, kept₂, hstep, hfs₂, hsplit₂, -, hkept⟩ :=
    step_eq hshort₁ ⟨[], by rw [List.append_nil, hcut]⟩ (hlast _ hrun).1
  have hheld : ws₂.held = encodeFrames kept₂ := by
    rw [hcut, hfs₂, encodeFrames_append, List.append_cancel_left_eq] at hsplit₂
    exact hsplit₂.symm
  refine ⟨ws₂, outs, payloads taken₂, taken₁ ++ taken₂, kept₂, ?_, ?_, ?_, hheld, ?_⟩
  · rw [Machine.run_append, hrun, Option.bind_some, Machine.run_cons hstep]
    rfl
  · rw [hfs, hfs₂, List.append_assoc]
  · rw [List.flatten_append, houts, List.flatten_singleton, payloads_append]
  · intro f hf
    refine hkept f hf ?_
    obtain ⟨g, kept, rfl⟩ : ∃ g kept, kept₂ = g :: kept := by
      cases kept₂ with
      | nil => cases hf
      | cons g kept => exact ⟨g, kept, rfl⟩
    cases hf
    rw [hheld, encodeFrames_cons, List.length_append]
    omega

theorem decodeFrame_inside {out : Memory} {capcity outSize : ℕ}
    (hbuf : ws.recvSize ≤ recvBufSize) (hroom : base + capcity ≤ recvBufSize)
    (hout : outSize + capcity < 2 ^ 32) : (FramesInside capcity ws.held →
      ∃ r, ws.decodeFrame out base capcity outSize = some r ∧ r.overRead = false ∧
        r.websocket.recvSize ≤ ws.recvSize ∧
        (r.ret = .openingFrame → r.websocket.recvSize < ws.recvSize)) ∧
    (ShortFrames capcity ws.held → (ws.decodeFrame out base capcity outSize).isSome →
      FramesInside capcity ws.held) := by
  refine ⟨fun hin => ?_, fun hshort hsome => ?_⟩
  swap
  · obtain ⟨r, hr⟩ := Option.isSome_iff_exists.1 hsome
    obtain ⟨q, hq, -⟩ := Option.map_eq_some_iff.1 hr
    exact framesInside_of_decodeLoop _ ⟨rfl, hbuf, rfl, hroom, hout⟩ hshort hq
  obtain ⟨yield, left, ret, hd⟩ := hin.exists_decodes
  obtain ⟨r, hr, hheld, -, -, hover, hret⟩ := decodeFrame_eq out hbuf hroom hout hd
  obtain ⟨hle, hlt, -⟩ := hd.bounds
  have hws : ws.held.length = ws.recvSize := Memory.length_read
  have hrs : r.websocket.held.length = r.websocket.recvSize := Memory.length_read
  rw [hws, ← hheld, hrs] at hle hlt
  exact ⟨r, hr, hover, hle, fun hopen => hlt (hret hopen)⟩

/-- **What `DecodeFrame` yields.** A stream of data frames with 7- or
16-bit lengths is cut into receives, each of which meets `ReceiptOk`;
then no call faults and the calls together yield the payloads, in order.
A frame that is complete is left in the buffer only where the item's
buffer had no room for its payload at the last call. And on any bytes
whatsoever whose frames lie inside, a call reads no byte behind them,
does not let the size wrap, and consumes something when it reports a
frame. Where no length field is a 64-bit one, a call returns on no other
bytes. -/
theorem decodeFrame_yields_payloads (frames : List ClientFrame) (calls : List Receipt)
    (last : Receipt) (ws : WebSocket) (out : Memory) (base capcity outSize : ℕ) :
    ((∀ f ∈ frames, f.Short) →
      ((calls ++ [last]).map Receipt.chunk).flatten = encodeFrames frames →
      WebSocket.step.Along ReceiptOk {} (calls ++ [last]) →
      ∃ ws outs yield taken kept,
        WebSocket.step.run {} (calls ++ [last]) = some (ws, outs ++ [yield]) ∧
        frames = taken ++ kept ∧ (outs ++ [yield]).flatten = payloads taken ∧
        ws.held = encodeFrames kept ∧
        ∀ f ∈ kept.head?, recvBufSize - last.recvSize < yield.length + f.payload.length) ∧
    (ws.recvSize ≤ recvBufSize → base + capcity ≤ recvBufSize → outSize + capcity < 2 ^ 32 →
      (FramesInside capcity ws.held →
        ∃ r, ws.decodeFrame out base capcity outSize = some r ∧ r.overRead = false ∧
          r.websocket.recvSize ≤ ws.recvSize ∧
          (r.ret = .openingFrame → r.websocket.recvSize < ws.recvSize)) ∧
      (ShortFrames capcity ws.held → (ws.decodeFrame out base capcity outSize).isSome →
        FramesInside capcity ws.held)) := by
  exact ⟨run_yields_payloads, decodeFrame_inside⟩

theorem binary_data : (0x82 : UInt8) &&& 0x0f < 8 := by decide

def maskedFrame (payload : List UInt8) : ClientFrame :=
  ⟨0x82, binary_data, true, [1, 2, 3, 4], rfl, payload⟩

/-- The theorem at a masked frame whose header comes in first. -/
theorem decodeFrame_yields_payloads_cut :
    ∃ ws outs yield taken kept,
      WebSocket.step.run {}
        ([⟨[0x82, 0x81], Memory.fresh, 0⟩] ++ [⟨[1, 2, 3, 4, 8], Memory.fresh, 0⟩]) =
        some (ws, outs ++ [yield]) ∧
      [maskedFrame [9]] = taken ++ kept ∧ (outs ++ [yield]).flatten = payloads taken ∧
      ws.held = encodeFrames kept ∧
      ∀ f ∈ kept.head?, recvBufSize - 0 < yield.length + f.payload.length := by
  refine (decodeFrame_yields_payloads [maskedFrame [9]] [⟨[0x82, 0x81], Memory.fresh, 0⟩]
    ⟨[1, 2, 3, 4, 8], Memory.fresh, 0⟩ {} Memory.fresh 0 0 0).1 ?_ (by decide +kernel) ?_
  · intro f hf
    rw [List.mem_singleton.1 hf]
    exact (by decide : 1 < 2 ^ 16)
  · have hpart : headerOf recvBufSize [0x82, 0x81] = .inl .middleFrame := by decide +kernel
    have hwhole : headerOf recvBufSize [0x82, 0x81, 1, 2, 3, 4, 8] = .inr ⟨true, 1, 2⟩ := by
      decide +kernel
    refine ⟨⟨by decide, by decide, .stop hpart⟩, fun ws out hstep => ?_⟩
    have hheld : ws.held = [0x82, 0x81] ∧ ws.recvSize = 2 := by
      have hws : (WebSocket.step {} ⟨[0x82, 0x81], Memory.fresh, 0⟩).map
          (fun r => (r.1.held, r.1.recvSize)) = some ([0x82, 0x81], 2) := by
        decide +kernel
      rw [hstep] at hws
      exact Prod.mk.inj (Option.some.inj hws)
    refine ⟨⟨?_, by decide, ?_⟩, fun _ _ _ => trivial⟩
    · rw [hheld.2]
      decide
    · rw [hheld.1]
      exact .frame 1 hwhole rfl (by decide) (.stop (by decide : headerOf _ [] = .inl .middleFrame))

/-- **The same frame cut before its masking key** makes the call read
behind the two bytes received and let the size wrap, which the move of
the rest then does not survive. Uncut it decodes. -/
theorem decodeFrame_overruns_key :
    (maskedFrame []).encode = [0x82, 0x80] ++ [1, 2, 3, 4] ∧
      (WebSocket.step.run {} [⟨[0x82, 0x80], Memory.fresh, 0⟩,
        ⟨[1, 2, 3, 4], Memory.fresh, 0⟩]).isNone = true ∧
      (WebSocket.step.run {} [⟨[0x82, 0x80, 1, 2, 3, 4], Memory.fresh, 0⟩]).map (·.2) =
        some [[]] := by
  decide +kernel

end GameServer.KernelEngine
