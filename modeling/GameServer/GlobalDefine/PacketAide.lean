import GameServer.GlobalDefine.Model.PacketAide
/-!
# GlobalDefine — what `GetData` reads

On the bytes of whole items `GetData` reports these items one by one,
with their data, and then the end (`getDatas_items`); and what
`AddPacket` leaves in its buffer are the bytes of the items it accepted
(`addPackets_spec`).

On any other buffer each call but the last moves over one more whole
item. The last check of the code compares the end of the item with the
size of the buffer, but only after the describe has been copied: where
one to three bytes are left, the copy runs past the buffer.
-/

namespace GameServer.GlobalDefine

variable {m : Memory} {it : Item} {h h' : RecvPacketHelper}
variable {size pos n k : ℕ} {rest : List UInt8}

/-! ## The bytes of items -/

def Item.describe (it : Item) : DataDescribe := ⟨it.data.length, it.wDataType⟩

/-- The bytes of an item: its describe and its data. -/
def Item.bytes (it : Item) : List UInt8 := it.describe.bytes ++ it.data

@[simp] theorem DataDescribe.length_bytes (d : DataDescribe) : d.bytes.length = describeSize := rfl

@[simp] theorem Item.length_bytes (it : Item) :
    it.bytes.length = describeSize + it.data.length := by
  simp [Item.bytes]

def Item.report (it : Item) (pos : ℕ) : Report :=
  ⟨it.describe, if 0 < it.data.length then some (pos + describeSize) else none⟩

/-- The reports of items that lie one behind the other from `pos` on. -/
def reportsFrom : ℕ → List Item → List Report
  | _, [] => []
  | pos, it :: its => it.report pos :: reportsFrom (pos + it.bytes.length) its

/-- The data a report of an item points to is the item's. -/
theorem content_report (hm : m.read pos k = it.bytes ++ rest) :
    (it.report pos).content m = it.data := by
  have hdata : m.read (pos + describeSize) it.data.length = it.data := by
    rw [Item.bytes, List.append_assoc] at hm
    exact (Memory.read_of_append (Memory.read_of_append hm).2).1
  unfold Report.content Item.report
  by_cases hpos : 0 < it.data.length
  · simp only [if_pos hpos]
    exact hdata
  · simp only [if_neg hpos]
    exact (List.eq_nil_of_length_eq_zero (by omega)).symm

theorem readDescribe_item (hm : m.read pos k = it.bytes ++ rest) (hsize : pos + describeSize ≤ size) :
    readDescribe m size pos = some it.describe := by
  rw [Item.bytes, DataDescribe.bytes, List.append_assoc, List.append_assoc] at hm
  have htype : m.read (pos + 2) (k - 2) = wordBytes it.wDataType ++ (it.data ++ rest) :=
    (Memory.read_of_append hm).2
  rw [readDescribe, if_pos hsize, Memory.wordAt_of_read it.size_lt hm,
    Memory.wordAt_of_read it.type_lt htype]
  rfl

/-! ## Walking over items -/

/-- **One call moves over one item.** -/
theorem getData_item (hm : h.pcbBuffer.read h.wDataPos k = it.bytes ++ rest)
    (hend : h.wDataPos + it.bytes.length ≤ h.wDataSize) (hword : h.wDataSize < 2 ^ 16)
    (hsize : h.wDataSize ≤ size) :
    h.getData size
      = some (it.report h.wDataPos, { h with wDataPos := h.wDataPos + it.bytes.length }) := by
  rw [Item.length_bytes] at hend ⊢
  have hpos : ¬ h.wDataSize ≤ h.wDataPos := by unfold describeSize at hend; omega
  have hlast : ¬ h.wDataSize < h.wDataPos + describeSize + it.describe.wDataSize := by
    simp only [Item.describe]; omega
  rw [RecvPacketHelper.getData, if_neg hpos, readDescribe_item hm (by omega), Option.map_some,
    if_neg hlast, word_of_lt (by omega)]
  rfl

/-- **As many calls as there are items report them in order.** -/
theorem getDatas_items (its : List Item) (hword : h.wDataSize < 2 ^ 16) (hsize : h.wDataSize ≤ size)
    (hpos : h.wDataPos ≤ h.wDataSize)
    (hm : h.pcbBuffer.read h.wDataPos (h.wDataSize - h.wDataPos)
      = its.flatMap Item.bytes ++ rest) :
    h.getDatas size its.length
        = some (reportsFrom h.wDataPos its, { h with wDataPos := h.wDataSize - rest.length }) ∧
      (reportsFrom h.wDataPos its).map (fun r => (r.describe, r.content h.pcbBuffer))
        = its.map fun it => (it.describe, it.data) := by
  induction its generalizing h with
  | nil =>
    have hlen : h.wDataSize - h.wDataPos = rest.length := by
      simpa using congrArg List.length hm
    refine ⟨?_, rfl⟩
    rw [show h.wDataSize - rest.length = h.wDataPos by omega]
    rfl
  | cons it its ih =>
    rw [List.flatMap_cons, List.append_assoc] at hm
    have hlen : it.bytes.length ≤ h.wDataSize - h.wDataPos := by
      have := congrArg List.length hm
      simp only [Memory.length_read, List.length_append] at this
      omega
    have hcall := getData_item hm (by omega) hword hsize
    have hnext : h.pcbBuffer.read (h.wDataPos + it.bytes.length)
        (h.wDataSize - (h.wDataPos + it.bytes.length)) = its.flatMap Item.bytes ++ rest := by
      rw [← Nat.sub_sub]
      exact (Memory.read_of_append hm).2
    obtain ⟨hcalls, hreports⟩ :=
      ih (h := { h with wDataPos := h.wDataPos + it.bytes.length }) hword hsize (by simp only; omega)
        hnext
    refine ⟨?_, ?_⟩
    · rw [List.length_cons, RecvPacketHelper.getDatas, hcall, Option.bind_some]
      simp only [hcalls]
      rfl
    · rw [reportsFrom, List.map_cons, List.map_cons]
      refine congrArg₂ List.cons ?_ hreports
      rw [content_report hm]
      rfl

/-! ## What a sender leaves -/

/-- One `AddPacket` either refuses and changes nothing or puts the item
behind the bytes there are. -/
theorem addPacket_spec {h : SendPacketHelper} (hword : h.wMaxBytes < 2 ^ 16) (it : Item) :
    h.addPacket it = some (h, false) ∨
      ∃ h', h.addPacket it = some (h', true) ∧ h'.wMaxBytes = h.wMaxBytes ∧
        h'.wDataSize ≤ h'.wMaxBytes ∧
        h'.pcbBuffer.read 0 h'.wDataSize = h.pcbBuffer.read 0 h.wDataSize ++ it.bytes := by
  by_cases hroom : h.wMaxBytes < it.data.length + describeSize + h.wDataSize
  · exact Or.inl (by rw [SendPacketHelper.addPacket, if_pos hroom])
  have hsize : word (h.wDataSize + (describeSize + it.data.length))
      = h.wDataSize + it.bytes.length := by
    rw [word_of_lt (by omega), Item.length_bytes]
  have hwrite : h.addPacket it = some ({ h with
      pcbBuffer := h.pcbBuffer.write h.wDataSize it.bytes
      wDataSize := h.wDataSize + it.bytes.length }, true) := by
    have hdescribe : h.wDataSize + it.describe.bytes.length ≤ h.wMaxBytes := by
      rw [DataDescribe.length_bytes]; omega
    rw [SendPacketHelper.addPacket, if_neg hroom, hsize]
    change ((h.pcbBuffer.writeIn h.wMaxBytes h.wDataSize it.describe.bytes).bind _) = _
    rw [Memory.writeIn_of_le hdescribe, Option.bind_some]
    by_cases hpos : 0 < it.data.length
    · rw [if_pos hpos, Memory.writeIn_of_le (by omega), Option.map_some, Item.bytes,
        ← Memory.write_write, DataDescribe.length_bytes]
    · have hnil : it.data = [] := List.eq_nil_of_length_eq_zero (by omega)
      rw [if_neg hpos, Option.map_some, Item.bytes, hnil, List.append_nil]
  refine Or.inr ⟨_, hwrite, rfl, ?_, ?_⟩
  · simp only [Item.length_bytes]; omega
  · rw [Memory.read_add, Nat.zero_add, Memory.read_write_self,
      Memory.read_write_of_disjoint (Or.inl (by omega))]

/-- **The buffer holds the accepted items**, behind what it held. -/
theorem addPackets_spec {h : SendPacketHelper} (hfits : h.wDataSize ≤ h.wMaxBytes)
    (hword : h.wMaxBytes < 2 ^ 16) (its : List Item) :
    ∃ h' accepted, h.addPackets its = some (h', accepted) ∧ h'.wDataSize < 2 ^ 16 ∧
      h'.pcbBuffer.read 0 h'.wDataSize
        = h.pcbBuffer.read 0 h.wDataSize ++ accepted.flatMap Item.bytes := by
  induction its generalizing h with
  | nil => exact ⟨h, [], rfl, by omega, by simp⟩
  | cons it its ih =>
    rcases addPacket_spec hword it with hcall | ⟨h₁, hcall, hmax, hfits₁, hbytes⟩
    · obtain ⟨h', accepted, hcalls, hlt, hread⟩ := ih hfits hword
      refine ⟨h', accepted, ?_, hlt, hread⟩
      rw [SendPacketHelper.addPackets, hcall, Option.bind_some]
      simp [hcalls]
    · obtain ⟨h', accepted, hcalls, hlt, hread⟩ := ih hfits₁ (by omega)
      refine ⟨h', it :: accepted, ?_, hlt, ?_⟩
      · rw [SendPacketHelper.addPackets, hcall, Option.bind_some]
        simp [hcalls]
      · rw [hread, hbytes, List.flatMap_cons, List.append_assoc]

/-- **A round trip.** After any calls of `AddPacket` on a fresh helper,
the calls of `GetData` on the bytes produced report the accepted items in
order, with their data, and then the end. -/
def ReadsBack (pcbBuffer : Memory) (wMaxBytes : ℕ) (its : List Item) : Prop :=
  ∃ (s : SendPacketHelper) (accepted : List Item) (reports : List Report) (h : RecvPacketHelper),
    (SendPacketHelper.new pcbBuffer wMaxBytes).addPackets its = some (s, accepted) ∧
    (RecvPacketHelper.new s.pcbBuffer s.wDataSize).getDatas s.wDataSize (accepted.length + 1)
      = some (reports ++ [.ended], h) ∧
    reports.map (fun r => (r.describe, r.content s.pcbBuffer))
      = accepted.map fun it => (it.describe, it.data)

theorem getDatas_succ (n : ℕ) : h.getDatas size (n + 1)
    = (h.getDatas size n).bind fun (rs, h') =>
      (h'.getData size).map fun (r, h'') => (rs ++ [r], h'') := by
  induction n generalizing h with
  | zero =>
    simp only [RecvPacketHelper.getDatas, Option.bind_some, List.nil_append]
    rcases h.getData size with _ | ⟨r, h₁⟩ <;> rfl
  | succ n ih =>
    rw [RecvPacketHelper.getDatas, RecvPacketHelper.getDatas]
    rcases h.getData size with _ | ⟨r, h₁⟩
    · rfl
    simp only [Option.bind_some, ih]
    rcases h₁.getDatas size n with _ | ⟨rs, h₂⟩
    · rfl
    simp only [Option.bind_some, Option.map_some]
    rcases h₂.getData size with _ | ⟨r', h₃⟩ <;> rfl

theorem getData_of_le (hpos : h.wDataSize ≤ h.wDataPos) : h.getData size = some (.ended, h) := by
  rw [RecvPacketHelper.getData, if_pos hpos]

theorem readsBack (pcbBuffer : Memory) (wMaxBytes : ℕ) (its : List Item) :
    ReadsBack pcbBuffer wMaxBytes its := by
  obtain ⟨s, accepted, hadd, hword, hread⟩ :=
    addPackets_spec (h := SendPacketHelper.new pcbBuffer wMaxBytes) (Nat.zero_le _) (word_lt _) its
  have hsize : (RecvPacketHelper.new s.pcbBuffer s.wDataSize).wDataSize = s.wDataSize :=
    word_of_lt hword
  have hbytes : s.pcbBuffer.read 0 (word s.wDataSize) = accepted.flatMap Item.bytes ++ [] := by
    rw [word_of_lt hword, hread, List.append_nil]
    rfl
  obtain ⟨hcalls, hreports⟩ := getDatas_items (h := .new s.pcbBuffer s.wDataSize) accepted
    (word_lt _) hsize.le (Nat.zero_le _) hbytes
  have hended : (⟨word s.wDataSize, word s.wDataSize, s.pcbBuffer⟩ : RecvPacketHelper).getData
      s.wDataSize = some (.ended, ⟨word s.wDataSize, word s.wDataSize, s.pcbBuffer⟩) :=
    getData_of_le (le_refl (word s.wDataSize))
  refine ⟨s, accepted, reportsFrom 0 accepted, ⟨word s.wDataSize, word s.wDataSize, s.pcbBuffer⟩,
    hadd, ?_, hreports⟩
  rw [getDatas_succ, hcalls, Option.bind_some]
  simp only [RecvPacketHelper.new, List.length_nil, Nat.sub_zero, hended, Option.map_some]

/-! ## Any buffer -/

/-- **No call reads outside the buffer, and the calls come to an end.** -/
def ReadsInside (m : Memory) (n : ℕ) : Prop :=
  (∀ k, ((RecvPacketHelper.new m n).getDatas n k).isSome) ∧
    ∃ k rs h, (RecvPacketHelper.new m n).getDatas n k = some (rs, h) ∧
      h.getData n = some (.ended, h)

/-- The buffer consists of whole items and one to three bytes behind
them. Its size is a word: that of a longer one is cut to a word, and the
bytes behind are still part of the buffer. -/
def EndsInFragment (m : Memory) (n : ℕ) : Prop :=
  n < 2 ^ 16 ∧ ∃ (its : List Item) (fragment : List UInt8), m.read 0 n = its.flatMap Item.bytes ++ fragment ∧
      0 < fragment.length ∧ fragment.length < describeSize

/-- Where the walk over `n` bytes of `m` stands: behind whole items. -/
def Walks (m : Memory) (n : ℕ) (h : RecvPacketHelper) : Prop :=
  h.pcbBuffer = m ∧ h.wDataSize = word n ∧ h.wDataPos ≤ word n ∧
    ∃ its : List Item, m.read 0 h.wDataPos = its.flatMap Item.bytes

theorem walks_new (m : Memory) (n : ℕ) : Walks m n (.new m n) :=
  ⟨rfl, rfl, Nat.zero_le _, [], rfl⟩

/-- The item a describe at `pos` announces. -/
def itemAt (m : Memory) (pos : ℕ) : Item where
  data := m.read (pos + describeSize) (m.wordAt pos)
  wDataType := m.wordAt (pos + 2)
  size_lt := by rw [Memory.length_read]; exact wordOf_lt _ _
  type_lt := wordOf_lt _ _

theorem bytes_itemAt (m : Memory) (pos : ℕ) :
    (itemAt m pos).bytes = m.read pos (describeSize + m.wordAt pos) := by
  have hdescribe : (itemAt m pos).describe.bytes = m.read pos describeSize := by
    simp only [Item.describe, itemAt, Memory.length_read, DataDescribe.bytes, Memory.wordAt,
      wordBytes_wordOf]
    rfl
  rw [Item.bytes, hdescribe, Memory.read_add]
  rfl

/-- **One call of the walk.** Where no fragment ends the buffer it
succeeds; it either stays or moves over one more item. -/
theorem Walks.getData (hw : Walks m n h) (hfragment : ¬ EndsInFragment m n) :
    ∃ r h', h.getData n = some (r, h') ∧ Walks m n h' ∧
      ((r, h') = (.ended, h) ∨ h.wDataPos < h'.wDataPos) := by
  obtain ⟨rfl, hsize, hpos, its, hits⟩ := hw
  by_cases hend : h.wDataSize ≤ h.wDataPos
  · exact ⟨_, _, getData_of_le hend, ⟨rfl, hsize, hpos, its, hits⟩, .inl rfl⟩
  have hword : word n ≤ n := Nat.mod_le _ _
  -- a buffer longer than a word goes on behind the size the helper knows
  have hinside : h.wDataPos + describeSize ≤ n := by
    by_contra hout
    unfold describeSize at hout
    have hlt : n < 2 ^ 16 := by
      unfold word at *
      omega
    refine hfragment ⟨hlt, its, h.pcbBuffer.read h.wDataPos (n - h.wDataPos), ?_, ?_, ?_⟩
    · rw [show n = h.wDataPos + (n - h.wDataPos) by omega, Memory.read_add, hits, Nat.zero_add,
        Nat.add_sub_cancel_left]
    · rw [Memory.length_read]; omega
    · rw [Memory.length_read]; unfold describeSize; omega
  have hcall : h.getData n = some (if h.wDataSize < h.wDataPos + describeSize
        + h.pcbBuffer.wordAt h.wDataPos then (.ended, h)
      else ((itemAt h.pcbBuffer h.wDataPos).report h.wDataPos, { h with
        wDataPos := word (h.wDataPos + (describeSize + h.pcbBuffer.wordAt h.wDataPos)) })) := by
    rw [RecvPacketHelper.getData, if_neg hend, readDescribe, if_pos hinside, Option.map_some]
    simp only [Item.report, Item.describe, itemAt, Memory.length_read]
  by_cases hlast : h.wDataSize < h.wDataPos + describeSize + h.pcbBuffer.wordAt h.wDataPos
  · rw [if_pos hlast] at hcall
    exact ⟨_, _, hcall, ⟨rfl, hsize, hpos, its, hits⟩, .inl rfl⟩
  · have hlt := word_lt n
    rw [if_neg hlast, word_of_lt (by omega)] at hcall
    refine ⟨_, _, hcall, ⟨rfl, hsize, by simp only; omega, its ++ [itemAt h.pcbBuffer h.wDataPos],
      ?_⟩, .inr (by simp only; unfold describeSize; omega)⟩
    rw [List.flatMap_append, ← hits, List.flatMap_singleton, bytes_itemAt]
    simp only [Memory.read_add, Nat.zero_add]

theorem Walks.getDatas (hw : Walks m n h) (hfragment : ¬ EndsInFragment m n) (k : ℕ) :
    (h.getDatas n k).isSome := by
  induction k generalizing h with
  | zero => rfl
  | succ k ih =>
    obtain ⟨r, h', hcall, hw', -⟩ := hw.getData hfragment
    rw [RecvPacketHelper.getDatas, hcall, Option.bind_some, Option.isSome_map]
    exact ih hw'

/-- Some call reports the end: each one before it moves the offset up. -/
theorem Walks.ends (hw : Walks m n h) (hfragment : ¬ EndsInFragment m n) :
    ∃ k rs h', h.getDatas n k = some (rs, h') ∧ h'.getData n = some (.ended, h') := by
  induction hleft : word n - h.wDataPos using Nat.strong_induction_on generalizing h with
  | _ left ih =>
    obtain ⟨r, h', hcall, hw', hmoved⟩ := hw.getData hfragment
    rcases hmoved with heq | hmoved
    · exact ⟨0, [], h, rfl, by rw [hcall, heq]⟩
    · have hle := hw'.2.2.1
      obtain ⟨k, rs, h'', hcalls, hended⟩ := ih _ (by omega) hw' rfl
      refine ⟨k + 1, r :: rs, h'', ?_, hended⟩
      rw [RecvPacketHelper.getDatas, hcall, Option.bind_some]
      simp [hcalls]

/-- Behind the whole items the next call reads past the buffer. -/
theorem not_readsInside (hfragment : EndsInFragment m n) : ¬ ReadsInside m n := by
  rintro ⟨hinside, -⟩
  obtain ⟨hlt, its, fragment, hm, hpos, hshort⟩ := hfragment
  have hcalls := (getDatas_items (h := .new m n) its (word_lt n)
    (word_of_lt hlt).le (Nat.zero_le _)
    (by rw [show (RecvPacketHelper.new m n).wDataSize = n from word_of_lt hlt]; exact hm)).1
  have hlen : fragment.length ≤ n := by
    have := congrArg List.length hm
    simp only [Memory.length_read, List.length_append] at this
    omega
  have hnext := hinside (its.length + 1)
  rw [getDatas_succ, hcalls, Option.bind_some, Option.isSome_map, RecvPacketHelper.getData] at hnext
  simp only [RecvPacketHelper.new, word_of_lt hlt] at hnext
  rw [if_neg (by omega), readDescribe, if_neg (by omega)] at hnext
  cases hnext

/-- **Accepted items always come back, and the calls stay inside a buffer
exactly when it does not end in a fragment of a describe.** -/
theorem items_read_back_inside_iff (pcbBuffer : Memory) (wMaxBytes : ℕ) (its : List Item)
    (m : Memory) (n : ℕ) :
    ReadsBack pcbBuffer wMaxBytes its ∧ ReadsInside m n ↔ ¬ EndsInFragment m n := by
  refine ⟨fun h hfragment => not_readsInside hfragment h.2, fun hfragment => ⟨?_, ?_, ?_⟩⟩
  · exact readsBack pcbBuffer wMaxBytes its
  · exact (walks_new m n).getDatas hfragment
  · exact (walks_new m n).ends hfragment

/-- A buffer of one byte: the first call copies four. -/
theorem fragment_is_read_past :
    ¬ ∀ (pcbBuffer : Memory) (wMaxBytes : ℕ) (its : List Item) (m : Memory) (n : ℕ),
      ReadsBack pcbBuffer wMaxBytes its ∧ ReadsInside m n := by
  intro h
  have hcall := (h Memory.fresh 0 [] Memory.fresh 1).2.1 1
  exact absurd hcall (by decide)

end GameServer.GlobalDefine
