import GameServer.Common.Memory
/-!
# Objects of fixed size as bytes

`Layout α` says how a value of `α` lies in memory: in how many bytes, and
how it is got back from them. A reader takes such an object from the
front of a byte string, where there are bytes enough (`Layout.pop`).
Numbers are stored with the low byte first.
-/

namespace GameServer

/-! ## Numbers -/

/-- The `k` low bytes of `n`, the lowest first. -/
def littleEndian : ℕ → ℕ → List UInt8
  | 0, _ => []
  | k + 1, n => UInt8.ofNat n :: littleEndian k (n / 2 ^ 8)

/-- The number whose bytes these are, the lowest first. -/
def ofLittleEndian : List UInt8 → ℕ
  | [] => 0
  | b :: bs => b.toNat + 2 ^ 8 * ofLittleEndian bs

@[simp] theorem length_littleEndian (k n : ℕ) : (littleEndian k n).length = k := by
  induction k generalizing n with
  | zero => rfl
  | succ k ih => rw [littleEndian, List.length_cons, ih]

/-- **A number that fits is read back.** -/
theorem ofLittleEndian_littleEndian (k n : ℕ) (h : n < 2 ^ (8 * k)) :
    ofLittleEndian (littleEndian k n) = n := by
  induction k generalizing n with
  | zero =>
    rw [littleEndian, ofLittleEndian]
    omega
  | succ k ih =>
    have hdiv : n / 2 ^ 8 < 2 ^ (8 * k) := by
      rw [Nat.mul_succ, Nat.pow_add] at h
      exact Nat.div_lt_of_lt_mul (by rwa [Nat.mul_comm])
    rw [littleEndian, ofLittleEndian, ih _ hdiv, UInt8.toNat_ofNat']
    omega

/-! ## Layouts -/

/-- How the values of a type lie in memory. -/
structure Layout (α : Type*) where
  size : ℕ
  toBytes : α → List UInt8
  ofBytes : List UInt8 → α
  length_toBytes : ∀ a, (toBytes a).length = size
  ofBytes_toBytes : ∀ a, ofBytes (toBytes a) = a

namespace Layout

variable {α : Type*}

attribute [simp] length_toBytes ofBytes_toBytes

def ofNumber (size : ℕ) (toNumber : α → ℕ) (ofNumber : ℕ → α)
    (hlt : ∀ a, toNumber a < 2 ^ (8 * size)) (hof : ∀ a, ofNumber (toNumber a) = a) : Layout α where
  size
  toBytes a := littleEndian size (toNumber a)
  ofBytes bs := ofNumber (ofLittleEndian bs)
  length_toBytes _ := length_littleEndian _ _
  ofBytes_toBytes a := by rw [ofLittleEndian_littleEndian _ _ (hlt a), hof]

def uint8 : Layout UInt8 := ofNumber 1 UInt8.toNat UInt8.ofNat UInt8.toNat_lt (by simp)

def uint16 : Layout UInt16 := ofNumber 2 UInt16.toNat UInt16.ofNat UInt16.toNat_lt (by simp)

def uint32 : Layout UInt32 := ofNumber 4 UInt32.toNat UInt32.ofNat UInt32.toNat_lt (by simp)

def uint64 : Layout UInt64 := ofNumber 8 UInt64.toNat UInt64.ofNat UInt64.toNat_lt (by simp)

def int32 : Layout Int32 :=
  ofNumber 4 (fun a => a.toUInt32.toNat) (fun n => (UInt32.ofNat n).toInt32)
    (fun a => a.toUInt32.toNat_lt) (by simp)

def int64 : Layout Int64 :=
  ofNumber 8 (fun a => a.toUInt64.toNat) (fun n => (UInt64.ofNat n).toInt64)
    (fun a => a.toUInt64.toNat_lt) (by simp)

def bool : Layout Bool := ofNumber 1 Bool.toNat (fun n => n != 0) (by decide) (by decide)

/-! ## Taking an object from the front -/

variable (L : Layout α)

/-- The object at the front of `bs` and the bytes behind it; where there
are too few bytes, `a` and all of them. -/
def pop (a : α) (bs : List UInt8) : α × List UInt8 :=
  if bs.length < L.size then (a, bs) else (L.ofBytes (bs.take L.size), bs.drop L.size)

variable {L} {a : α} {bs : List UInt8}

theorem pop_of_lt (h : bs.length < L.size) : L.pop a bs = (a, bs) := if_pos h

theorem pop_of_le (h : L.size ≤ bs.length) :
    L.pop a bs = (L.ofBytes (bs.take L.size), bs.drop L.size) := if_neg (Nat.not_lt.2 h)

/-- **An object put in front is taken back.** -/
@[simp] theorem pop_toBytes (a b : α) (bs : List UInt8) : L.pop a (L.toBytes b ++ bs) = (b, bs) := by
  rw [pop_of_le (by simp), List.take_left' (L.length_toBytes b),
    List.drop_left' (L.length_toBytes b), ofBytes_toBytes]

theorem length_le_pop (L : Layout α) (a : α) (bs : List UInt8) :
    bs.length ≤ (L.pop a bs).2.length + L.size := by
  unfold pop
  split_ifs with h
  · omega
  · rw [List.length_drop]; omega

end Layout

end GameServer
