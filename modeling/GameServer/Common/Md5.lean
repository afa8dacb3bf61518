import GameServer.Common.Sine
/-!
# The MD5 message digest

The algorithm of RFC 1321 on messages of bytes. A message is padded to a
whole number of blocks of 64 bytes, the last eight of which give its
length in bits, and each block takes four 32-bit words through 64 steps.
The constant of a step is the integer part of `2^32 * |sin i|`; `sineTable`
has them as numbers (`sine_eq`), and everything else is stated for any
constants.
-/

namespace GameServer.Md5

/-- The four words A, B, C and D. -/
@[ext] structure State where
  a : UInt32
  b : UInt32
  c : UInt32
  d : UInt32
  deriving DecidableEq, Repr

def State.add (s t : State) : State := ⟨s.a + t.a, s.b + t.b, s.c + t.c, s.d + t.d⟩

def State.initial : State := ⟨0x67452301, 0xefcdab89, 0x98badcfe, 0x10325476⟩

/-! ## One step -/

def rotateLeft (x n : UInt32) : UInt32 := (x <<< n) ||| (x >>> (32 - n))

/-- The functions F, G, H and I of the four rounds. -/
def auxiliary (round : ℕ) (x y z : UInt32) : UInt32 :=
  match round with
  | 0 => (x &&& y) ||| (~~~x &&& z)
  | 1 => (x &&& z) ||| (y &&& ~~~z)
  | 2 => x ^^^ y ^^^ z
  | _ => y ^^^ (x ||| ~~~z)

/-- The word of the block a step takes: all in order, then every fifth,
every third and every seventh of them. -/
def wordIndex (i : ℕ) : ℕ :=
  match i / 16 with
  | 0 => i % 16
  | 1 => (5 * i + 1) % 16
  | 2 => (3 * i + 5) % 16
  | _ => 7 * i % 16

/-- How far a step rotates. -/
def shift (i : ℕ) : UInt32 :=
  match i / 16, i % 4 with
  | 0, 0 => 7
  | 0, 1 => 12
  | 0, 2 => 17
  | 0, _ => 22
  | 1, 0 => 5
  | 1, 1 => 9
  | 1, 2 => 14
  | 1, _ => 20
  | 2, 0 => 4
  | 2, 1 => 11
  | 2, 2 => 16
  | 2, _ => 23
  | _, 0 => 6
  | _, 1 => 10
  | _, 2 => 15
  | _, _ => 21

/-- Step `i`, counted from 0: `a = b + ((a + f(b,c,d) + X[k] + T[i]) <<< s)`,
and the roles of the words move on by one. -/
def step (T : ℕ → UInt32) (X : ℕ → UInt32) (s : State) (i : ℕ) : State where
  a := s.d
  b := s.b +
    rotateLeft (s.a + auxiliary (i / 16) s.b s.c s.d + X (wordIndex i) + T (i + 1)) (shift i)
  c := s.b
  d := s.c

/-- The words of a block of 64 bytes, the low byte of each first. -/
def blockWord (block : List UInt8) (k : ℕ) : UInt32 :=
  UInt32.ofNat ((block.getD (4 * k) 0).toNat + 2 ^ 8 * (block.getD (4 * k + 1) 0).toNat +
    2 ^ 16 * (block.getD (4 * k + 2) 0).toNat + 2 ^ 24 * (block.getD (4 * k + 3) 0).toNat)

/-- A block is taken in. -/
def compress (T : ℕ → UInt32) (s : State) (block : List UInt8) : State :=
  s.add ((List.range 64).foldl (step T (blockWord block)) s)

/-! ## The message -/

/-- The whole blocks of a message are taken in, one after the other. -/
def absorb (T : ℕ → UInt32) (s : State) (message : List UInt8) : State :=
  if message.length < 64 then s
  else absorb T (compress T s (message.take 64)) (message.drop 64)
termination_by message.length
decreasing_by
  rw [List.length_drop]
  omega

/-- The bytes of a number, the low one first. -/
def lowBytes (count n : ℕ) : List UInt8 :=
  (List.range count).map fun i => UInt8.ofNat (n / 2 ^ (8 * i))

/-- A one and zeros up to eight bytes before the end of a block, and the
length of the message in bits. -/
def padding (length : ℕ) : List UInt8 :=
  0x80 :: List.replicate ((119 - length % 64) % 64) 0 ++ lowBytes 8 (8 * length)

def output (s : State) : List UInt8 :=
  lowBytes 4 s.a.toNat ++ lowBytes 4 s.b.toNat ++ lowBytes 4 s.c.toNat ++ lowBytes 4 s.d.toNat

/-- The digest, for any constants. -/
def digestWith (T : ℕ → UInt32) (message : List UInt8) : List UInt8 :=
  output (absorb T .initial (message ++ padding message.length))

/-- `T[i]`, the integer part of `4294967296 * abs(sin(i))`. -/
noncomputable def sine (i : ℕ) : UInt32 := UInt32.ofNat ⌊(4294967296 : ℕ) * |Real.sin i|⌋₊

/-- **The MD5 digest of a message.** -/
noncomputable def digest (message : List UInt8) : List UInt8 := digestWith sine message

/-! ## The constants -/

/-- The constants as numbers. -/
def sineTable : List UInt32 := [
  0xd76aa478, 0xe8c7b756, 0x242070db, 0xc1bdceee, 0xf57c0faf, 0x4787c62a, 0xa8304613, 0xfd469501,
  0x698098d8, 0x8b44f7af, 0xffff5bb1, 0x895cd7be, 0x6b901122, 0xfd987193, 0xa679438e, 0x49b40821,
  0xf61e2562, 0xc040b340, 0x265e5a51, 0xe9b6c7aa, 0xd62f105d, 0x02441453, 0xd8a1e681, 0xe7d3fbc8,
  0x21e1cde6, 0xc33707d6, 0xf4d50d87, 0x455a14ed, 0xa9e3e905, 0xfcefa3f8, 0x676f02d9, 0x8d2a4c8a,
  0xfffa3942, 0x8771f681, 0x6d9d6122, 0xfde5380c, 0xa4beea44, 0x4bdecfa9, 0xf6bb4b60, 0xbebfbc70,
  0x289b7ec6, 0xeaa127fa, 0xd4ef3085, 0x04881d05, 0xd9d4d039, 0xe6db99e5, 0x1fa27cf8, 0xc4ac5665,
  0xf4292244, 0x432aff97, 0xab9423a7, 0xfc93a039, 0x655b59c3, 0x8f0ccc92, 0xffeff47d, 0x85845dd1,
  0x6fa87e4f, 0xfe2ce6e0, 0xa3014314, 0x4e0811a1, 0xf7537e82, 0xbd3af235, 0x2ad7d2bb, 0xeb86d391]

/-- `T[i]` of the table, for `i` from 1 on. -/
def tableSine (i : ℕ) : UInt32 := sineTable.getD (i - 1) 0

theorem isFloor_tableSine :
    ∀ i < 64, Sine.IsFloor 4294967296 (i + 1) (tableSine (i + 1)).toNat := by
  decide +kernel

/-- **The table has the constants of the definition.** -/
theorem sine_eq {i : ℕ} (hi : i < 64) : sine (i + 1) = tableSine (i + 1) := by
  rw [sine, Sine.floor_mul_abs_sin (Nat.succ_le_of_lt hi) (isFloor_tableSine i hi),
    UInt32.ofNat_toNat]

/-! ## Taking messages apart -/

variable {T T' : ℕ → UInt32} {s : State} {xs ys : List UInt8}

theorem compress_congr (h : ∀ i < 64, T (i + 1) = T' (i + 1)) (block : List UInt8) :
    compress T s block = compress T' s block := by
  have hstep : ∀ s, ∀ i ∈ List.range 64, step T (blockWord block) s i = step T' (blockWord block) s i := by
    intro s i hi
    rw [step, step, h i (List.mem_range.1 hi)]
  rw [compress, compress, List.foldl_ext _ _ s hstep]

theorem absorb_of_lt (h : xs.length < 64) : absorb T s xs = s := by
  rw [absorb, if_pos h]

@[simp] theorem absorb_nil : absorb T s [] = s := absorb_of_lt (Nat.zero_lt_succ _)

theorem absorb_of_le (h : 64 ≤ xs.length) :
    absorb T s xs = absorb T (compress T s (xs.take 64)) (xs.drop 64) := by
  rw [absorb, if_neg (by omega)]

theorem absorb_congr (h : ∀ i < 64, T (i + 1) = T' (i + 1)) (s : State) (xs : List UInt8) :
    absorb T s xs = absorb T' s xs := by
  induction s, xs using absorb.induct T with
  | case1 s xs hlt => rw [absorb_of_lt hlt, absorb_of_lt hlt]
  | case2 s xs hge ih =>
    have hle : 64 ≤ xs.length := Nat.le_of_not_lt hge
    rw [absorb_of_le hle, ih, absorb_of_le (T := T') hle, compress_congr h]

/-- **A message is absorbed in parts**, if the first of them is made of
whole blocks. -/
theorem absorb_append (h : xs.length % 64 = 0) :
    absorb T s (xs ++ ys) = absorb T (absorb T s xs) ys := by
  induction s, xs using absorb.induct T with
  | case1 s xs hlt =>
    have hnil : xs = [] := List.length_eq_zero_iff.1 (by omega)
    rw [hnil, List.nil_append, absorb_nil]
  | case2 s xs hge ih =>
    have hle : 64 ≤ xs.length := Nat.le_of_not_lt hge
    have hle' : 64 ≤ (xs ++ ys).length := by
      rw [List.length_append]
      omega
    rw [absorb_of_le hle', absorb_of_le hle, List.take_append_of_le_length hle,
      List.drop_append_of_le_length hle]
    exact ih (by rw [List.length_drop]; omega)

def whole (message : List UInt8) : List UInt8 := message.take (message.length / 64 * 64)

/-- What is left of a message behind its last whole block. -/
def pending (message : List UInt8) : List UInt8 := message.drop (message.length / 64 * 64)

theorem whole_append_pending (xs : List UInt8) : whole xs ++ pending xs = xs :=
  List.take_append_drop _ _

theorem length_whole (xs : List UInt8) : (whole xs).length = xs.length / 64 * 64 := by
  rw [whole, List.length_take]
  omega

theorem length_pending (xs : List UInt8) : (pending xs).length = xs.length % 64 := by
  rw [pending, List.length_drop]
  omega

theorem pending_of_lt (h : xs.length < 64) : pending xs = xs := by
  rw [pending, Nat.div_eq_of_lt h, Nat.zero_mul, List.drop_zero]

theorem pending_append (h : xs.length % 64 = 0) : pending (xs ++ ys) = pending ys := by
  have hlen : (xs ++ ys).length / 64 * 64 = xs.length + ys.length / 64 * 64 := by
    rw [List.length_append]
    omega
  rw [pending, hlen, List.drop_append, List.drop_of_length_le (by omega), List.nil_append, pending,
    Nat.add_sub_cancel_left]

/-- **A message is absorbed as it comes in**: what is left of it goes before
the next bytes. -/
theorem absorb_append_pending (s : State) (xs ys : List UInt8) :
    absorb T s (xs ++ ys) = absorb T (absorb T s xs) (pending xs ++ ys) := by
  have hwhole : (whole xs).length % 64 = 0 := by
    rw [length_whole]
    omega
  have hxs : absorb T s xs = absorb T s (whole xs) := by
    conv_lhs => rw [← whole_append_pending xs]
    rw [absorb_append hwhole, absorb_of_lt]
    rw [length_pending]
    omega
  conv_lhs => rw [← whole_append_pending xs, List.append_assoc]
  rw [absorb_append hwhole, hxs]

theorem pending_append_pending (xs ys : List UInt8) :
    pending (xs ++ ys) = pending (pending xs ++ ys) := by
  conv_lhs => rw [← whole_append_pending xs, List.append_assoc]
  refine pending_append ?_
  rw [length_whole]
  omega

theorem absorb_cons_block (h : xs.length = 64) :
    absorb T s (xs ++ ys) = absorb T (compress T s xs) ys := by
  rw [absorb_of_le (by rw [List.length_append]; omega), ← h, List.take_left, List.drop_left]

@[simp] theorem length_lowBytes (count n : ℕ) : (lowBytes count n).length = count := by
  simp [lowBytes]

theorem lowBytes_eight (n : ℕ) : lowBytes 8 n = lowBytes 4 (n % 2 ^ 32) ++ lowBytes 4 (n / 2 ^ 32) := by
  simp only [lowBytes, List.range, List.range.loop, List.map_cons, List.map_nil, List.cons_append,
    List.nil_append, List.cons.injEq, and_true, ← UInt8.toNat_inj, UInt8.toNat_ofNat']
  omega

theorem lowBytes_four_mod (n : ℕ) : lowBytes 4 (n % 2 ^ 32) = lowBytes 4 n := by
  simp only [lowBytes, List.range, List.range.loop, List.map_cons, List.map_nil, List.cons.injEq,
    and_true, ← UInt8.toNat_inj, UInt8.toNat_ofNat']
  omega

theorem digest_eq (message : List UInt8) : digest message = digestWith tableSine message := by
  rw [digest, digestWith, digestWith, absorb_congr fun i hi => sine_eq hi]

example : digestWith tableSine [0x61, 0x62, 0x63] =
    [0x90, 0x01, 0x50, 0x98, 0x3c, 0xd2, 0x4f, 0xb0, 0xd6, 0x96, 0x3f, 0x7d, 0x28, 0xe1, 0x7f,
      0x72] := by
  decide +kernel

end GameServer.Md5
