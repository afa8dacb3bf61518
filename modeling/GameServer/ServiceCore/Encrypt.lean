import GameServer.ServiceCore.Model.Encrypt
/-!
# ServiceCore — the codec round trip

The two byte tables are inverse to each other, so mapping back restores
the plain bytes and with them the sum the check code was taken from.
A single byte that changes on the way, in the body or in the check code,
shifts that sum by a non-zero amount.
-/

namespace GameServer.ServiceCore

/-! ## The tables -/

theorem sendByteMap_map : sendByteMap.map (recvByteMap.getD · 0) = List.range 256 := by
  decide +kernel

theorem recvByteMap_map : recvByteMap.map (sendByteMap.getD · 0) = List.range 256 := by
  decide +kernel

theorem sendByteMap_lt : ∀ n ∈ sendByteMap, n < 256 := by decide +kernel

theorem recvByteMap_lt : ∀ n ∈ recvByteMap, n < 256 := by decide +kernel

/-- Looking a byte up in a table and its image in the inverse table. -/
theorem ofNat_getD_getD {t t' : List ℕ} (hmap : t.map (t'.getD · 0) = List.range 256)
    (hlt : ∀ n ∈ t, n < 256) (b : UInt8) :
    UInt8.ofNat (t'.getD (UInt8.ofNat (t.getD b.toNat 0)).toNat 0) = b := by
  have hget : (t.map (t'.getD · 0))[b.toNat]? = some b.toNat := by
    rw [hmap, List.getElem?_range b.toNat_lt]
  rw [List.getElem?_map, Option.map_eq_some_iff] at hget
  obtain ⟨s, hs, hinv⟩ := hget
  have hslt : s < 256 := hlt s (List.mem_of_getElem? hs)
  have hgetD : t.getD b.toNat 0 = s := by rw [List.getD_eq_getElem?_getD, hs, Option.getD_some]
  rw [hgetD, UInt8.toNat_ofNat', Nat.mod_eq_of_lt hslt, hinv, UInt8.ofNat_toNat]

/-- **The tables are inverse**: what is sent is read back. -/
@[simp] theorem recvByte_sendByte (b : UInt8) : recvByte (sendByte b) = b :=
  ofNat_getD_getD sendByteMap_map sendByteMap_lt b

@[simp] theorem sendByte_recvByte (b : UInt8) : sendByte (recvByte b) = b :=
  ofNat_getD_getD recvByteMap_map recvByteMap_lt b

theorem recvByte_injective : Function.Injective recvByte := by
  intro a b h
  rw [← sendByte_recvByte a, h, sendByte_recvByte]

/-! ## The loop -/

def byteSum (bs : List UInt8) : UInt8 := bs.foldr (· + ·) 0

@[simp] theorem byteSum_nil : byteSum [] = 0 := rfl

@[simp] theorem byteSum_cons (b : UInt8) (bs : List UInt8) :
    byteSum (b :: bs) = b + byteSum bs := rfl

theorem read_succ {m : Memory} {pos n : ℕ} :
    m.read pos (n + 1) = m pos :: m.read (pos + 1) n := by
  rw [Nat.add_comm, Memory.read_add]
  rfl

/-- **The loop in closed form.** -/
theorem mapBytes_eq {put add : UInt8 → UInt8} : ∀ (n i : ℕ) (c : UInt8) (m : Memory),
    mapBytes put add n i c m =
      (c + byteSum ((m.read i n).map add), m.write i ((m.read i n).map put)) := by
  intro n
  induction n with
  | zero => simp [mapBytes]
  | succ n ih =>
    intro i c m
    have hrest : (m.write i [put (m i)]).read (i + 1) n = m.read (i + 1) n :=
      Memory.read_write_of_disjoint (Or.inr (Nat.le_refl _))
    rw [mapBytes, ih, hrest, read_succ, List.map_cons, List.map_cons, byteSum_cons,
      UInt8.add_assoc]
    have hjoin : (m.write i [put (m i)]).write (i + 1) ((m.read (i + 1) n).map put) =
        m.write i ([put (m i)] ++ (m.read (i + 1) n).map put) := Memory.write_write _
    rw [hjoin]
    rfl

theorem read_write_map {m m' : Memory} {pos n : ℕ} (f : UInt8 → UInt8) :
    (m'.write pos ((m.read pos n).map f)).read pos n = (m.read pos n).map f := by
  have hlen : ((m.read pos n).map f).length = n := by simp
  have hself : (m'.write pos ((m.read pos n).map f)).read pos ((m.read pos n).map f).length =
      (m.read pos n).map f := Memory.read_write_self
  rwa [hlen] at hself

theorem read_clearPadding {m : Memory} {pos size pos' n : ℕ} (h : pos' + n ≤ pos + size) :
    (clearPadding m pos size).read pos' n = m.read pos' n := by
  unfold clearPadding
  split
  · exact Memory.read_write_of_disjoint (Or.inl h)
  · rfl

theorem clearPadding_apply {m : Memory} {pos size i : ℕ} (h : i < pos + size) :
    clearPadding m pos size i = m i := by
  unfold clearPadding
  split
  · exact Memory.write_apply_of_lt h
  · rfl

/-! ## The two directions -/

variable (m : Memory) {dataSize : ℕ} (client : Bool)

/-- The sum of the plain bytes behind `TCP_Info`. -/
def plainSum (m : Memory) (dataSize : ℕ) : UInt8 :=
  byteSum (m.read sizeofTCPInfo (dataSize - sizeofTCPInfo))

theorem encryptSize_eq (h : sizeofTCPHead ≤ dataSize) (hlt : dataSize < 2 ^ 16) :
    word (dataSize + 2 ^ 16 - if client then sizeofTCPCommand else sizeofTCPInfo) =
      dataSize - sizeofTCPInfo := by
  simp only [sizeofTCPHead, sizeofTCPInfo, sizeofTCPCommand, word] at *
  cases client <;> simp only [if_true, if_false, Bool.false_eq_true] <;> omega

/-- **The encrypted body** is the plain body under the table. -/
theorem encryptBuffer_body (h : sizeofTCPHead ≤ dataSize) (hlt : dataSize < 2 ^ 16) :
    (encryptBuffer m dataSize client).1.read sizeofTCPInfo (dataSize - sizeofTCPInfo) =
      (m.read sizeofTCPInfo (dataSize - sizeofTCPInfo)).map sendByte := by
  have hpad : (clearPadding m sizeofTCPInfo (dataSize - sizeofTCPInfo)).read sizeofTCPInfo
      (dataSize - sizeofTCPInfo) = m.read sizeofTCPInfo (dataSize - sizeofTCPInfo) :=
    read_clearPadding (Nat.le_refl _)
  simp only [encryptBuffer, encryptSize_eq client h hlt, mapBytes_eq, hpad]
  rw [Memory.read_write_of_disjoint (Or.inr (by decide)),
    Memory.read_write_of_disjoint (Or.inr (Nat.le_refl 4)),
    Memory.read_write_of_disjoint (Or.inr (show 2 ≤ 4 by omega))]
  exact read_write_map sendByte

/-- The kind, the check code and the size the head carries. -/
theorem encryptBuffer_head (h : sizeofTCPHead ≤ dataSize) (hlt : dataSize < 2 ^ 16) :
    (encryptBuffer m dataSize client).1 0 = socketTcpVer ∧
      (encryptBuffer m dataSize client).1 1 = -plainSum m dataSize ∧
      (encryptBuffer m dataSize client).1.wordAt 2 = dataSize := by
  have hpad : (clearPadding m sizeofTCPInfo (dataSize - sizeofTCPInfo)).read sizeofTCPInfo
      (dataSize - sizeofTCPInfo) = m.read sizeofTCPInfo (dataSize - sizeofTCPInfo) :=
    read_clearPadding (Nat.le_refl _)
  simp only [encryptBuffer, encryptSize_eq client h hlt, mapBytes_eq, hpad, List.map_id, UInt8.zero_add]
  refine ⟨rfl, ?_, ?_⟩
  · rw [Memory.write_apply_of_ge (by decide), Memory.write_apply_of_lt (by decide), plainSum,
      UInt8.neg_eq_not_add]
    rfl
  · refine Memory.wordAt_of_read (k := 2) hlt (?_ : _ = _ ++ [])
    rw [Memory.read_write_of_disjoint (Or.inr (show 1 ≤ 2 by omega)), List.append_nil]
    exact Memory.read_write_self

/-- **What `CrevasseBuffer` computes**: it fails exactly when the check
code and the mapped body do not add up to zero, and else maps the body
back. -/
theorem crevasseBuffer_eq (h : sizeofTCPHead ≤ dataSize) :
    crevasseBuffer m dataSize =
      if m 1 + byteSum ((m.read sizeofTCPInfo (dataSize - sizeofTCPInfo)).map recvByte) ≠ 0 then
        none
      else
        some ((clearPadding m 0 dataSize).write sizeofTCPInfo
          ((m.read sizeofTCPInfo (dataSize - sizeofTCPInfo)).map recvByte), dataSize) := by
  have hbody : (clearPadding m 0 dataSize).read sizeofTCPInfo (dataSize - sizeofTCPInfo) =
      m.read sizeofTCPInfo (dataSize - sizeofTCPInfo) :=
    read_clearPadding (by simp only [sizeofTCPHead, sizeofTCPInfo] at *; omega)
  have hcode : clearPadding m 0 dataSize 1 = m 1 :=
    clearPadding_apply (by simp only [sizeofTCPHead, sizeofTCPInfo] at h; omega)
  simp only [crevasseBuffer, mapBytes_eq, hbody, hcode]

/-- Changing one element of a list under an injective map changes the
sum. -/
theorem byteSum_set_ne {f : UInt8 → UInt8} (hf : Function.Injective f) {bs : List UInt8} {i : ℕ}
    (hi : i < bs.length) {b : UInt8} (hb : bs[i] ≠ b) :
    byteSum ((bs.set i b).map f) ≠ byteSum (bs.map f) := by
  induction bs generalizing i with
  | nil => simp at hi
  | cons a bs ih =>
    cases i with
    | zero =>
      simp only [List.set_cons_zero, List.map_cons, byteSum_cons, ne_eq, UInt8.add_left_inj]
      exact fun h => hb (hf h).symm
    | succ i =>
      simp only [List.set_cons_succ, List.map_cons, byteSum_cons, ne_eq, UInt8.add_right_inj]
      exact ih (by simpa using hi) (by simpa using hb)

theorem read_write_single {pos n i : ℕ} (b : UInt8) :
    (m.write (pos + i) [b]).read pos n = (m.read pos n).set i b := by
  refine List.ext_getElem (by simp) fun j hj hj' => ?_
  rw [List.getElem_set]
  simp only [Memory.read, List.getElem_map, List.getElem_range]
  split
  · rename_i hij
    rw [← hij]
    exact Memory.write_apply_add (i := 0) (by simp)
  · rcases Nat.lt_or_ge j i with h | h
    · exact Memory.write_apply_of_lt (by omega)
    · exact Memory.write_apply_of_ge (by simp; omega)

/-- **What was encrypted is accepted**, wherever its bytes now lie, and
the body is restored. -/
theorem crevasseBuffer_of_encrypted {m m₀ : Memory} (hmin : sizeofTCPHead ≤ dataSize)
    (hlt : dataSize < 2 ^ 16)
    (hm : m.read 0 dataSize = (encryptBuffer m₀ dataSize client).1.read 0 dataSize) :
    crevasseBuffer m dataSize =
      some ((clearPadding m 0 dataSize).write sizeofTCPInfo
        (m₀.read sizeofTCPInfo (dataSize - sizeofTCPInfo)), dataSize) := by
  have h4 : sizeofTCPInfo ≤ dataSize := Nat.le_trans (by decide) hmin
  obtain ⟨-, hcode, -⟩ := encryptBuffer_head m₀ client hmin hlt
  have hbody : m.read sizeofTCPInfo (dataSize - sizeofTCPInfo) =
      (m₀.read sizeofTCPInfo (dataSize - sizeofTCPInfo)).map sendByte := by
    have hdrop := congrArg (List.drop sizeofTCPInfo) hm
    rw [Memory.drop_read h4, Memory.drop_read h4, Nat.zero_add] at hdrop
    rw [hdrop, encryptBuffer_body m₀ client hmin hlt]
  have hplain : (m.read sizeofTCPInfo (dataSize - sizeofTCPInfo)).map recvByte =
      m₀.read sizeofTCPInfo (dataSize - sizeofTCPInfo) := by
    rw [hbody, List.map_map]
    simp [Function.comp_def]
  have hone : m 1 = -plainSum m₀ dataSize := by
    have h1 : 1 < dataSize := Nat.lt_of_lt_of_le (by decide) h4
    have hget := congrArg (fun l => l[1]?) hm
    simp only [Memory.getElem?_read h1, Nat.zero_add, Option.some.injEq] at hget
    rw [hget, hcode]
  have hsum : m 1 + byteSum ((m.read sizeofTCPInfo (dataSize - sizeofTCPInfo)).map recvByte) =
      0 := by
    rw [hplain, hone]
    exact UInt8.add_left_neg _
  rw [crevasseBuffer_eq m hmin, if_neg (not_not.2 hsum), hplain]

/-- **The codec round trip, and what it detects.** What `EncryptBuffer`
makes of a packet, `CrevasseBuffer` turns back: every byte behind
`TCP_Info` is restored and the size is in place. And any other value of
one byte, in the encoded body or in the check code, makes it throw. -/
theorem crevasse_encrypt (m : Memory) (client : Bool) (dataSize : ℕ)
    (hmin : sizeofTCPHead ≤ dataSize) (hmax : dataSize ≤ socketTcpBuffer) :
    (∃ m', crevasseBuffer (encryptBuffer m dataSize client).1
        (encryptBuffer m dataSize client).2 = some (m', dataSize) ∧
      m'.read sizeofTCPInfo (dataSize - sizeofTCPInfo) =
        m.read sizeofTCPInfo (dataSize - sizeofTCPInfo) ∧
      m'.wordAt 2 = dataSize) ∧
    ∀ i b, (i = 1 ∨ sizeofTCPInfo ≤ i ∧ i < dataSize) →
      b ≠ (encryptBuffer m dataSize client).1 i →
      crevasseBuffer ((encryptBuffer m dataSize client).1.write i [b]) dataSize = none := by
  have hlt : dataSize < 2 ^ 16 := Nat.lt_of_le_of_lt hmax (by decide)
  obtain ⟨-, hcode, hsize⟩ := encryptBuffer_head m client hmin hlt
  have hbody := encryptBuffer_body m client hmin hlt
  have hplain : ((encryptBuffer m dataSize client).1.read sizeofTCPInfo
      (dataSize - sizeofTCPInfo)).map recvByte =
        m.read sizeofTCPInfo (dataSize - sizeofTCPInfo) := by
    rw [hbody, List.map_map]
    simp [Function.comp_def]
  have hsum : (encryptBuffer m dataSize client).1 1 +
      byteSum (((encryptBuffer m dataSize client).1.read sizeofTCPInfo
        (dataSize - sizeofTCPInfo)).map recvByte) = 0 := by
    rw [hplain, hcode]
    exact UInt8.add_left_neg _
  have hret : (encryptBuffer m dataSize client).2 = dataSize := rfl
  rw [hret]
  constructor
  · refine ⟨_, crevasseBuffer_of_encrypted client hmin hlt rfl, ?_, ?_⟩
    · rw [← List.map_id (m.read sizeofTCPInfo (dataSize - sizeofTCPInfo))]
      exact read_write_map id
    · -- the size field lies in front of what is written back
      have hpos : 4 ≤ dataSize := Nat.le_trans (by decide) hmin
      rw [Memory.wordAt, Memory.write_apply_of_lt (by decide), Memory.write_apply_of_lt (by decide),
        clearPadding_apply (by omega), clearPadding_apply (by omega)]
      exact hsize
  · intro i b hi hb
    rw [crevasseBuffer_eq _ hmin]
    refine if_pos fun hzero => ?_
    rcases hi with rfl | ⟨hlo, hhi⟩
    · -- a changed check code no longer cancels the sum
      have hcode' : ((encryptBuffer m dataSize client).1.write 1 [b]) 1 = b := rfl
      have hbody' : ((encryptBuffer m dataSize client).1.write 1 [b]).read sizeofTCPInfo
          (dataSize - sizeofTCPInfo) = (encryptBuffer m dataSize client).1.read sizeofTCPInfo
            (dataSize - sizeofTCPInfo) :=
        Memory.read_write_of_disjoint (Or.inr (show 2 ≤ 4 by omega))
      rw [hcode', hbody', ← hsum, UInt8.add_left_inj] at hzero
      exact hb hzero
    · -- a changed body byte moves the sum
      obtain ⟨k, rfl⟩ := Nat.exists_eq_add_of_le hlo
      have hk : k < dataSize - sizeofTCPInfo := by omega
      have hcode' : ((encryptBuffer m dataSize client).1.write (sizeofTCPInfo + k) [b]) 1 =
          (encryptBuffer m dataSize client).1 1 :=
        Memory.write_apply_of_lt (by simp only [sizeofTCPInfo]; omega)
      rw [hcode', read_write_single _ b, ← hsum, UInt8.add_right_inj] at hzero
      refine byteSum_set_ne recvByte_injective (by simpa using hk) ?_ hzero
      simp only [Memory.read, List.getElem_map, List.getElem_range]
      exact hb.symm

/-- The theorem at a packet without payload. -/
theorem crevasse_encrypt_head :
    sizeofTCPHead ≤ 8 ∧ 8 ≤ socketTcpBuffer ∧
      crevasseBuffer ((encryptBuffer Memory.fresh 8 true).1.write 4 [0]) 8 = none :=
  ⟨by decide, by decide,
    (crevasse_encrypt Memory.fresh true 8 (by decide) (by decide)).2 4 0
      (Or.inr ⟨by decide, by decide⟩) (by decide +kernel)⟩

end GameServer.ServiceCore
