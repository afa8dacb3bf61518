import GameServer.ServiceCore.Model.MD5
/-!
# ServiceCore — `CMD5Aide` computes MD5

The lines of `MD5Transform` are the steps of the algorithm, with the roles
of the variables turned by one from line to line (`roles_run`). Between
two calls the object `Holds` the bytes it was given: `MD5Update` adds a
piece (`holds_update`) and `MD5Final` gives the digest and leaves an
object that holds nothing (`final_eq`).
-/

namespace GameServer.ServiceCore

open Md5 (State)

/-! ## One block -/

def roundMacro (round : ℕ) : RoundMacro :=
  match round with
  | 0 => .FF
  | 1 => .GG
  | 2 => .HH
  | _ => .II

/-- The variables in the roles of A, B, C and D at a step. -/
def roleVars (i : ℕ) : Local × Local × Local × Local :=
  match i % 4 with
  | 0 => (.a, .b, .c, .d)
  | 1 => (.d, .a, .b, .c)
  | 2 => (.c, .d, .a, .b)
  | _ => (.b, .c, .d, .a)

/-- The line a step of the algorithm stands for. -/
def lineOf (i : ℕ) : Line where
  roundMacro := roundMacro (i / 16)
  a := (roleVars i).1
  b := (roleVars i).2.1
  c := (roleVars i).2.2.1
  d := (roleVars i).2.2.2
  x := Md5.wordIndex i
  s := Md5.shift i
  ac := Md5.tableSine (i + 1)

/-- **The lines are the steps, in order.** -/
theorem lines_eq : lines = (List.range 64).map lineOf := by decide +kernel

/-- What the variables hold, by their roles at a step. -/
def roles (i : ℕ) (v : State) : State :=
  ⟨(roleVars i).1.get v, (roleVars i).2.1.get v, (roleVars i).2.2.1.get v,
    (roleVars i).2.2.2.get v⟩

theorem function_roundMacro (round : ℕ) : (roundMacro round).function = Md5.auxiliary round := by
  match round with
  | 0 => rfl
  | 1 => rfl
  | 2 => rfl
  | _ + 3 => rfl

theorem roles_run (x : ℕ → UInt32) (v : State) (i : ℕ) :
    roles (i + 1) ((lineOf i).run x v) = Md5.step Md5.tableSine x (roles i v) i := by
  have hfour : i % 4 = 0 ∨ i % 4 = 1 ∨ i % 4 = 2 ∨ i % 4 = 3 := by omega
  rcases hfour with h | h | h | h
  all_goals
    have hnext := Nat.add_mod i 1 4
    rw [h] at hnext
    simp only [roles, roleVars, Line.run, lineOf, h, hnext, Nat.reduceAdd, Nat.reduceMod,
      Local.get, Local.set, Md5.step, function_roundMacro]
    rw [UInt32.add_comm, ← UInt32.add_assoc, ← UInt32.add_assoc]
    rfl

theorem roles_foldl (x : ℕ → UInt32) (v : State) (n : ℕ) :
    roles n (((List.range n).map lineOf).foldl (Line.run x) v) =
      (List.range n).foldl (Md5.step Md5.tableSine x) v := by
  induction n with
  | zero => rfl
  | succ n ih =>
    rw [List.range_succ, List.map_append, List.foldl_append, List.foldl_append, ← ih]
    exact roles_run x _ n

theorem toNat_shiftLeft_byte (x : UInt8) (k : UInt32) (hk : k.toNat ≤ 24) :
    (x.toUInt32 <<< k).toNat = 2 ^ k.toNat * x.toNat := by
  have hx := x.toNat_lt
  have hpow : 2 ^ k.toNat ≤ 2 ^ 24 := Nat.pow_le_pow_right (by decide) hk
  rw [UInt32.toNat_shiftLeft, UInt8.toNat_toUInt32, Nat.mod_eq_of_lt (by omega : k.toNat < 32),
    Nat.shiftLeft_eq, Nat.mul_comm, Nat.mod_eq_of_lt]
  calc 2 ^ k.toNat * x.toNat ≤ 2 ^ 24 * x.toNat := Nat.mul_le_mul_right _ hpow
    _ < 2 ^ 32 := by omega

theorem decode_eq (block : List UInt8) : decode block = Md5.blockWord block := by
  funext i
  rw [← UInt32.toNat_inj, decode, Md5.blockWord]
  generalize block.getD (4 * i) 0 = p
  generalize block.getD (4 * i + 1) 0 = q
  generalize block.getD (4 * i + 2) 0 = r
  generalize block.getD (4 * i + 3) 0 = t
  have hp := p.toNat_lt
  have hq := q.toNat_lt
  have hr := r.toNat_lt
  have ht := t.toNat_lt
  rw [UInt32.toNat_or, UInt32.toNat_or, UInt32.toNat_or, UInt8.toNat_toUInt32,
    toNat_shiftLeft_byte q 8 (by decide), toNat_shiftLeft_byte r 16 (by decide),
    toNat_shiftLeft_byte t 24 (by decide)]
  change p.toNat ||| 2 ^ 8 * q.toNat ||| 2 ^ 16 * r.toNat ||| 2 ^ 24 * t.toNat = _
  rw [Nat.or_comm p.toNat, ← Nat.two_pow_add_eq_or_of_lt hp, Nat.or_comm _ (2 ^ 16 * r.toNat),
    ← Nat.two_pow_add_eq_or_of_lt (by omega), Nat.or_comm _ (2 ^ 24 * t.toNat),
    ← Nat.two_pow_add_eq_or_of_lt (by omega), UInt32.toNat_ofNat']
  omega

/-- **`MD5Transform` takes a block in.** -/
theorem md5Transform_eq (s : State) (block : List UInt8) :
    md5Transform s block = Md5.compress Md5.tableSine s block := by
  rw [md5Transform, Md5.compress, decode_eq, ← roles_foldl, ← lines_eq]
  have hroles (v : State) : roles 64 v = v := rfl
  rw [hroles]

theorem encode_eq (x : UInt32) : encode x = Md5.lowBytes 4 x.toNat := by
  have hmask (n : ℕ) : n &&& 255 = n % 256 := Nat.and_two_pow_sub_one_eq_mod n 8
  simp only [encode, Md5.lowBytes, List.range, List.range.loop, List.map_cons, List.map_nil,
    List.cons.injEq, and_true, ← UInt8.toNat_inj, UInt32.toNat_toUInt8, UInt32.toNat_and,
    UInt32.toNat_shiftRight, UInt8.toNat_ofNat', UInt32.reduceToNat, hmask, Nat.shiftRight_eq_div_pow,
    Nat.reduceMod, Nat.reduceMul, Nat.reducePow]
  omega

/-! ## Pieces -/

namespace MD5Aide

open Md5 (absorb pending tableSine)

variable {s s' : MD5Aide} {message input : List UInt8}

/-- `m_cbPadding` as `MD5Init` fills it. -/
def paddingInit : Memory := Function.update (fun _ => 0) 0 0x80

/-- **The object has been given a message**: it counts its bits, has taken
in its whole blocks and keeps the bytes behind them. -/
structure Holds (s : MD5Aide) (message : List UInt8) : Prop where
  count : s.lCount0.toNat + 2 ^ 32 * s.lCount1.toNat = 8 * message.length % 2 ^ 64
  state : s.lState = absorb tableSine .initial message
  buffer : s.cbBuffer.read 0 (message.length % 64) = pending message
  padding : s.cbPadding = paddingInit

theorem holds_md5Init (s : MD5Aide) : s.md5Init.Holds [] := by
  refine ⟨rfl, ?_, rfl, rfl⟩
  rw [Md5.absorb_nil]
  rfl

theorem inputAt_eq {i n : ℕ} (h : i + n ≤ input.length) :
    inputAt input i n = some ((input.drop i).take n) := by
  rw [inputAt, if_pos h]

theorem Holds.index (h : s.Holds message) :
    ((s.lCount0 >>> 3) &&& 0x3F).toNat = message.length % 64 := by
  have hcount := h.count
  have hlt := s.lCount0.toNat_lt
  rw [UInt32.toNat_and, UInt32.toNat_shiftRight]
  change s.lCount0.toNat >>> 3 &&& 2 ^ 6 - 1 = _
  rw [Nat.and_two_pow_sub_one_eq_mod, Nat.shiftRight_eq_div_pow]
  omega

/-- The two words count the bits of a piece, with the carry. -/
theorem count_add {c₀ c₁ : UInt32} {total n : ℕ} (hn : n < 2 ^ 32)
    (h : c₀.toNat + 2 ^ 32 * c₁.toNat = 8 * total % 2 ^ 64) :
    (c₀ + UInt32.ofNat n <<< 3).toNat + 2 ^ 32 *
      ((if c₀ + UInt32.ofNat n <<< 3 < UInt32.ofNat n <<< 3 then c₁ + 1 else c₁) +
        UInt32.ofNat n >>> 29).toNat = 8 * (total + n) % 2 ^ 64 := by
  have hlow : (UInt32.ofNat n <<< 3).toNat = n * 8 % 2 ^ 32 := by
    rw [UInt32.toNat_shiftLeft, UInt32.toNat_ofNat', Nat.mod_eq_of_lt hn, Nat.shiftLeft_eq]
    rfl
  have hhigh : (UInt32.ofNat n >>> 29).toNat = n / 2 ^ 29 := by
    rw [UInt32.toNat_shiftRight, UInt32.toNat_ofNat', Nat.mod_eq_of_lt hn,
      Nat.shiftRight_eq_div_pow]
    rfl
  have hc₀ := c₀.toNat_lt
  have hc₁ := c₁.toNat_lt
  by_cases hcarry : c₀ + UInt32.ofNat n <<< 3 < UInt32.ofNat n <<< 3
  · rw [if_pos hcarry]
    rw [UInt32.lt_iff_toNat_lt, UInt32.toNat_add, hlow] at hcarry
    simp only [UInt32.toNat_add, UInt32.reduceToNat, hlow, hhigh]
    omega
  · rw [if_neg hcarry]
    rw [UInt32.lt_iff_toNat_lt, UInt32.toNat_add, hlow] at hcarry
    simp only [UInt32.toNat_add, hlow, hhigh]
    omega

/-- **The loop takes in the whole blocks** from an index on and stops
behind the last of them. -/
theorem transformBlocks_eq (hlen : input.length < 2 ^ 31) :
    ∀ (fuel : ℕ) (i : UInt32) (lState : State), i.toNat ≤ input.length →
      input.length < fuel + i.toNat →
      ∃ j, transformBlocks input fuel i lState =
          some (j, absorb tableSine lState (input.drop i.toNat)) ∧
        j.toNat ≤ input.length ∧ input.drop j.toNat = pending (input.drop i.toNat) := by
  intro fuel
  induction fuel with
  | zero => intro i _ hle hlt; omega
  | succ fuel ih =>
    intro i lState hle hlt
    have hstep : (i + 64).toNat = i.toNat + 64 := by
      simp only [UInt32.toNat_add, UInt32.reduceToNat]
      omega
    have hmore_iff : i + 63 < UInt32.ofNat input.length ↔ i.toNat + 63 < input.length := by
      simp only [UInt32.lt_iff_toNat_lt, UInt32.toNat_add, UInt32.reduceToNat,
        UInt32.toNat_ofNat']
      omega
    rw [transformBlocks]
    by_cases hmore : i.toNat + 63 < input.length
    · have hblock : 64 ≤ (input.drop i.toNat).length := by
        rw [List.length_drop]
        omega
      obtain ⟨j, hj, hjle, hjdrop⟩ := ih (i + 64)
        (md5Transform lState ((input.drop i.toNat).take 64)) (by omega) (by omega)
      rw [hstep, ← List.drop_drop] at hj hjdrop
      refine ⟨j, ?_, hjle, ?_⟩
      · rw [if_pos (hmore_iff.2 hmore), inputAt_eq (by rw [sizeofBlock]; omega), Option.bind_some, sizeofBlock, hj,
          md5Transform_eq, ← Md5.absorb_of_le hblock]
      · rw [hjdrop]
        conv_rhs => rw [← List.take_append_drop 64 (input.drop i.toNat)]
        rw [Md5.pending_append]
        rw [List.length_take]
        omega
    · have hshort : (input.drop i.toNat).length < 64 := by
        rw [List.length_drop]
        omega
      refine ⟨i, ?_, hle, ?_⟩
      · rw [if_neg (mt hmore_iff.1 hmore), Md5.absorb_of_lt hshort]
      · rw [Md5.pending_of_lt hshort]

theorem bufferInput_eq {m : Memory} {nIndex i nLen : UInt32} (hinput : i.toNat + nLen.toNat ≤ input.length)
    (hbuffer : nIndex.toNat + nLen.toNat ≤ 64) :
    bufferInput m input nIndex i nLen =
      some (m.write nIndex.toNat ((input.drop i.toNat).take nLen.toNat)) := by
  rw [bufferInput, inputAt_eq hinput, Option.bind_some, Memory.writeIn, if_pos]
  rw [List.length_take, List.length_drop, sizeofBlock]
  omega

theorem read_write_append {m : Memory} {xs : List UInt8} (ys : List UInt8) (h : m.read 0 xs.length = xs) :
    (m.write xs.length ys).read 0 (xs ++ ys).length = xs ++ ys := by
  have hfront : (m.write xs.length ys).read 0 xs.length = m.read 0 xs.length :=
    Memory.read_congr fun i hi => Memory.write_apply_of_lt (by omega)
  rw [List.length_append, Memory.read_add, Nat.zero_add, Memory.read_write_self, hfront, h]

/-- A piece whose first bytes fill the buffer: the block is taken in with
those that follow it, and the rest is kept. -/
theorem holds_of_filled {p : ℕ} (h : s.Holds message)
    (hblock : (pending message ++ input.take p).length = 64) {c₀ c₁ : UInt32}
    (hcount : c₀.toNat + 2 ^ 32 * c₁.toNat = 8 * (message ++ input).length % 2 ^ 64)
    (m : Memory) :
    Holds
      { lCount0 := c₀
        lCount1 := c₁
        lState := absorb tableSine (md5Transform s.lState (pending message ++ input.take p))
          (input.drop p)
        cbBuffer := m.write 0 (pending (input.drop p))
        cbPadding := s.cbPadding } (message ++ input) := by
  have hsplit : pending message ++ input = (pending message ++ input.take p) ++ input.drop p := by
    rw [List.append_assoc, List.take_append_drop]
  have hrest : pending (message ++ input) = pending (input.drop p) := by
    rw [Md5.pending_append_pending, hsplit, Md5.pending_append (by rw [hblock])]
  refine ⟨hcount, ?_, ?_, h.padding⟩
  · rw [Md5.absorb_append_pending, hsplit, Md5.absorb_cons_block hblock, ← h.state,
      md5Transform_eq]
  · rw [← Md5.length_pending, hrest]
    change (m.write 0 (pending (input.drop p))).read 0 (pending (input.drop p)).length = _
    exact Memory.read_write_self

/-- A piece that does not fill the buffer is kept. -/
theorem holds_of_short (h : s.Holds message) (hshort : (pending message ++ input).length < 64)
    {c₀ c₁ : UInt32}
    (hcount : c₀.toNat + 2 ^ 32 * c₁.toNat = 8 * (message ++ input).length % 2 ^ 64) :
    Holds
      { s with
        lCount0 := c₀
        lCount1 := c₁
        cbBuffer := s.cbBuffer.write (pending message).length input } (message ++ input) := by
  have hpending : pending (message ++ input) = pending message ++ input := by
    rw [Md5.pending_append_pending, Md5.pending_of_lt hshort]
  refine ⟨hcount, ?_, ?_, h.padding⟩
  · rw [Md5.absorb_append_pending, Md5.absorb_of_lt hshort, h.state]
  · rw [← Md5.length_pending, hpending]
    refine read_write_append _ ?_
    rw [Md5.length_pending, h.buffer]

/-- **`MD5Update` adds a piece to the message**, and stays inside the
buffer. -/
theorem holds_update (h : s.Holds message) (input : List UInt8) (hlen : input.length < 2 ^ 31) :
    ∃ s', s.md5Update input = some s' ∧ s'.Holds (message ++ input) := by
  have hindex := h.index
  have hpending := Md5.length_pending message
  have hmod : message.length % 64 < 64 := Nat.mod_lt _ (by decide)
  have hinputLen : (UInt32.ofNat input.length).toNat = input.length := by
    rw [UInt32.toNat_ofNat', Nat.mod_eq_of_lt (by omega)]
  have hbuffer : s.cbBuffer.read 0 (pending message).length = pending message := by
    rw [hpending, h.buffer]
  have hcount := count_add (by omega : input.length < 2 ^ 32) h.count
  rw [← List.length_append] at hcount
  rw [md5Update]
  generalize s.lCount0 >>> 3 &&& 0x3F = nIndex at *
  have hpart : (64 - nIndex).toNat = 64 - message.length % 64 := by
    rw [UInt32.toNat_sub_of_le, hindex]
    · rfl
    · rw [UInt32.le_iff_toNat_le, hindex]
      exact hmod.le
  have hfits : 64 - nIndex ≤ UInt32.ofNat input.length ↔
      64 - message.length % 64 ≤ input.length := by
    rw [UInt32.le_iff_toNat_le, hpart, hinputLen]
  by_cases hfull : 64 - message.length % 64 ≤ input.length
  · -- the first bytes of the piece fill the buffer
    obtain ⟨j, hj, hjle, hjdrop⟩ := transformBlocks_eq hlen (input.length + 1) (64 - nIndex)
      (md5Transform s.lState (pending message ++ input.take (64 - message.length % 64)))
      (by rw [hpart]; exact hfull) (by omega)
    have hleft := congrArg List.length hjdrop
    rw [Md5.length_pending, List.length_drop] at hleft
    have hjsub : (UInt32.ofNat input.length - j).toNat = input.length - j.toNat := by
      rw [UInt32.toNat_sub_of_le, hinputLen]
      rw [UInt32.le_iff_toNat_le, hinputLen]
      exact hjle
    have hblock : (pending message ++ input.take (64 - message.length % 64)).length = 64 := by
      rw [List.length_append, List.length_take, hpending]
      omega
    have hread : (s.cbBuffer.write (message.length % 64)
        (input.take (64 - message.length % 64))).read 0 64 =
          pending message ++ input.take (64 - message.length % 64) := by
      have happend := read_write_append (input.take (64 - message.length % 64)) hbuffer
      rwa [hblock, hpending] at happend
    have hfill : bufferInput s.cbBuffer input nIndex 0 (64 - nIndex) = some (s.cbBuffer.write
        (message.length % 64) (input.take (64 - message.length % 64))) := by
      rw [bufferInput_eq, hindex, hpart]
      · rfl
      · rw [hpart, UInt32.toNat_zero]
        omega
      · rw [hindex, hpart]
        omega
    have hkeep : ∀ m, bufferInput m input 0 j (UInt32.ofNat input.length - j) =
        some (m.write 0 (pending (input.drop (64 - message.length % 64)))) := by
      intro m
      rw [bufferInput_eq, hjsub, hjdrop, hpart, List.take_of_length_le]
      · rfl
      · rw [Md5.length_pending, ← hpart, hleft]
      · rw [hjsub]
        omega
      · rw [hjsub, UInt32.toNat_zero]
        omega
    refine ⟨_, ?_, holds_of_filled h hblock hcount (s.cbBuffer.write (message.length % 64)
      (input.take (64 - message.length % 64)))⟩
    dsimp only
    rw [if_pos (hfits.2 hfull), hfill, Option.bind_some]
    rw [sizeofBlock, hread, hj, Option.bind_some, hkeep, Option.map_some, hpart]
  · -- the piece leaves room in the buffer
    have hshort : (pending message ++ input).length < 64 := by
      rw [List.length_append, hpending]
      omega
    have hfill : bufferInput s.cbBuffer input nIndex 0 (UInt32.ofNat input.length) =
        some (s.cbBuffer.write (pending message).length input) := by
      rw [bufferInput_eq, hindex, hinputLen, hpending, UInt32.toNat_zero, List.drop_zero,
        List.take_length]
      · rw [hinputLen, UInt32.toNat_zero]
        omega
      · rw [hindex, hinputLen]
        omega
    refine ⟨_, ?_, holds_of_short h hshort hcount⟩
    dsimp only
    rw [if_neg (mt hfits.1 hfull), hfill, Option.map_some]

/-! ## The end of a message -/

theorem read_paddingInit (n : ℕ) :
    paddingInit.read 0 (n + 1) = 0x80 :: List.replicate n 0 := by
  rw [Nat.add_comm, Memory.read_add]
  have hone : paddingInit.read 0 1 = [0x80] := rfl
  rw [hone, List.singleton_append, List.cons.injEq, List.eq_replicate_iff]
  refine ⟨rfl, Memory.length_read, fun b hb => ?_⟩
  obtain ⟨i, -, rfl⟩ := List.mem_map.1 hb
  exact Function.update_of_ne (by omega) _ _

/-- `nPartLen` of `MD5Final` leaves eight bytes to the end of a block. -/
theorem toNat_partLen {nIndex : UInt32} (h : nIndex.toNat < 64) :
    (if nIndex < 56 then 56 - nIndex else 120 - nIndex).toNat =
      (119 - nIndex.toNat) % 64 + 1 := by
  have hlt : nIndex < 56 ↔ nIndex.toNat < 56 := UInt32.lt_iff_toNat_lt
  by_cases hcase : nIndex.toNat < 56
  · rw [if_pos (hlt.2 hcase), UInt32.toNat_sub_of_le _ _ (UInt32.le_iff_toNat_le.2 hcase.le)]
    change 56 - nIndex.toNat = _
    omega
  · rw [if_neg (mt hlt.1 hcase), UInt32.toNat_sub_of_le _ _ (UInt32.le_iff_toNat_le.2 (by
      change nIndex.toNat ≤ 120
      omega))]
    change 120 - nIndex.toNat = _
    omega

theorem Holds.encode_count (h : s.Holds message) :
    encode s.lCount0 ++ encode s.lCount1 = Md5.lowBytes 8 (8 * message.length) := by
  have hcount := h.count
  have hlt := s.lCount0.toNat_lt
  have hlow : s.lCount0.toNat = 8 * message.length % 2 ^ 32 := by omega
  have hhigh : s.lCount1.toNat = 8 * message.length / 2 ^ 32 % 2 ^ 32 := by omega
  rw [encode_eq, encode_eq, hlow, hhigh, Md5.lowBytes_four_mod (8 * message.length / 2 ^ 32),
    Md5.lowBytes_eight]

/-- **`MD5Final` gives the digest** and leaves an object that begins a new
message. -/
theorem final_eq (h : s.Holds message) :
    ∃ s', s.md5Final = some (Md5.digest message, s') ∧ s'.Holds [] := by
  have hindex := h.index
  have hmod : message.length % 64 < 64 := Nat.mod_lt _ (by decide)
  have hlen := toNat_partLen (by rw [hindex]; exact hmod)
  rw [hindex] at hlen
  have hread : s.cbPadding.readIn sizeofBlock 0 ((119 - message.length % 64) % 64 + 1) =
      some (0x80 :: List.replicate ((119 - message.length % 64) % 64) 0) := by
    rw [Memory.readIn_of_le (by rw [sizeofBlock]; omega), h.padding, read_paddingInit]
  obtain ⟨s₁, hs₁, hholds₁⟩ := holds_update h
    (0x80 :: List.replicate ((119 - message.length % 64) % 64) 0) (by rw [List.length_cons, List.length_replicate]; omega)
  obtain ⟨s₂, hs₂, hholds₂⟩ := holds_update hholds₁ (Md5.lowBytes 8 (8 * message.length))
    (by rw [Md5.length_lowBytes]; omega)
  rw [List.append_assoc] at hholds₂
  have hstate : s₂.lState = absorb tableSine .initial (message ++ Md5.padding message.length) :=
    hholds₂.state
  refine ⟨_, ?_, holds_md5Init { s₂ with cbBuffer := fun _ => 0 }⟩
  rw [md5Final, h.encode_count]
  dsimp only
  rw [hlen, hread, Option.bind_some, hs₁, Option.bind_some, hs₂, Option.map_some, Md5.digest_eq,
    Md5.digestWith, Md5.output, ← hstate]
  simp only [encode_eq]

/-! ## Strings in pieces -/

theorem holds_pieces : ∀ {pieces : List (List UInt8)} {s : MD5Aide} {message : List UInt8},
    s.Holds message → (∀ p ∈ pieces, p.length < 2 ^ 31) →
      ∃ s', pieces.foldlM md5Update s = some s' ∧ s'.Holds (message ++ pieces.flatten) := by
  intro pieces
  induction pieces with
  | nil =>
    intro s message h _
    exact ⟨s, rfl, by rwa [List.flatten_nil, List.append_nil]⟩
  | cons p pieces ih =>
    intro s message h hlen
    obtain ⟨s₁, hs₁, hholds⟩ := holds_update h p (hlen p List.mem_cons_self)
    obtain ⟨s₂, hs₂, hlast⟩ := ih hholds fun q hq => hlen q (List.mem_cons_of_mem _ hq)
    rw [List.append_assoc, ← List.flatten_cons] at hlast
    exact ⟨s₂, by rw [List.foldlM_cons, hs₁]; exact hs₂, hlast⟩

theorem hash_eq {pieces : List (List UInt8)} (h : s.Holds [])
    (hlen : ∀ p ∈ pieces, p.length < 2 ^ 31) :
    ∃ s', s.hash pieces = some (Md5.digest pieces.flatten, s') ∧ s'.Holds [] := by
  obtain ⟨s₁, hs₁, hholds⟩ := holds_pieces h hlen
  obtain ⟨s₂, hs₂, hfresh⟩ := final_eq hholds
  exact ⟨s₂, by rw [hash, hs₁, Option.bind_some, hs₂, List.nil_append], hfresh⟩

theorem hashAll_eq : ∀ {strings : List (List (List UInt8))} {s : MD5Aide}, s.Holds [] →
    (∀ pieces ∈ strings, ∀ p ∈ pieces, p.length < 2 ^ 31) →
      s.hashAll strings = some (strings.map fun pieces => Md5.digest pieces.flatten) := by
  intro strings
  induction strings with
  | nil => exact fun _ _ => rfl
  | cons pieces strings ih =>
    intro s h hlen
    obtain ⟨s', hs', hfresh⟩ := hash_eq h (hlen pieces List.mem_cons_self)
    rw [hashAll, hs', Option.bind_some]
    dsimp only
    rw [ih hfresh fun q hq => hlen q (List.mem_cons_of_mem _ hq)]
    rfl

end MD5Aide

/-- **Passwords are hashed with MD5.** An object as `MD5Init` leaves it,
with anything in its buffer, is given strings one after the other, each in
any pieces shorter than `2^31` bytes, and `MD5Final` after each: the
digests are those of the strings, and nothing is read or written outside
an array. -/
theorem md5Aide_hashes (s : MD5Aide) (strings : List (List (List UInt8)))
    (hlen : ∀ pieces ∈ strings, ∀ p ∈ pieces, p.length < 2 ^ 31) :
    s.md5Init.hashAll strings = some (strings.map fun pieces => Md5.digest pieces.flatten) :=
  MD5Aide.hashAll_eq s.holds_md5Init hlen

/-- The strings `abc`, in two pieces, and the empty string, in none. -/
theorem md5Aide_hashes_abc :
    (MD5Aide.md5Init ⟨0, 0, ⟨0, 0, 0, 0⟩, Memory.fresh, Memory.fresh⟩).hashAll
        [[[0x61], [0x62, 0x63]], []] =
      some [[0x90, 0x01, 0x50, 0x98, 0x3c, 0xd2, 0x4f, 0xb0, 0xd6, 0x96, 0x3f, 0x7d, 0x28, 0xe1,
          0x7f, 0x72],
        [0xd4, 0x1d, 0x8c, 0xd9, 0x8f, 0x00, 0xb2, 0x04, 0xe9, 0x80, 0x09, 0x98, 0xec, 0xf8,
          0x42, 0x7e]] := by
  rw [md5Aide_hashes _ _ (by decide)]
  simp only [List.map_cons, List.map_nil, Md5.digest_eq]
  decide +kernel

end GameServer.ServiceCore
