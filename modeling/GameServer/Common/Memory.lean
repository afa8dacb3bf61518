import Mathlib.Algebra.Order.Ring.Int
import Mathlib.Data.List.Basic
/-!
# Byte arrays and fixed-width words

An array is a function from addresses to bytes; its size is kept by
whoever owns it, and an access past that size is a fault of the caller
(`none`). Reading a block back after a write is settled by where the two
blocks lie (`read_write_self`, `read_write_of_disjoint`), and a block
splits at any point (`read_add`). Words are stored with the low byte
first.
-/

namespace GameServer

variable {i k size : ℕ}

def word (n : ℕ) : ℕ := n % 2 ^ 16

/-- Truncation to an unsigned 32-bit word. -/
def dword (n : ℕ) : ℕ := n % 2 ^ 32

theorem word_of_lt {n : ℕ} (h : n < 2 ^ 16) : word n = n := Nat.mod_eq_of_lt h

theorem dword_of_lt {n : ℕ} (h : n < 2 ^ 32) : dword n = n := Nat.mod_eq_of_lt h

theorem word_lt (n : ℕ) : word n < 2 ^ 16 := Nat.mod_lt _ (by decide)

def int32 (x : ℤ) : ℤ := Int.bmod x (2 ^ 32)

def int64 (x : ℤ) : ℤ := Int.bmod x (2 ^ 64)

/-- Truncation of an integer to an unsigned 32-bit word. -/
def dwordOfInt (x : ℤ) : ℕ := (x % 2 ^ 32).toNat

theorem int32_of_lt {n : ℕ} (h : n < 2 ^ 31) : int32 n = n := by
  rw [int32, Int.bmod_def]; omega

theorem int64_of_lt {n : ℕ} (h : n < 2 ^ 63) : int64 n = n := by
  rw [int64, Int.bmod_def]; omega

theorem dwordOfInt_of_lt {n : ℕ} (h : n < 2 ^ 32) : dwordOfInt n = n := by
  rw [dwordOfInt]; omega

/-- The contents of a byte array, by address. -/
abbrev Memory := ℕ → UInt8

namespace Memory

variable {m m' : Memory} {pos pos' n : ℕ} {src : List UInt8}

def fresh : Memory := fun _ => 0

/-- The block of `n` bytes at `pos`. -/
def read (m : Memory) (pos n : ℕ) : List UInt8 := (List.range n).map fun i => m (pos + i)

/-- The array with `src` stored from `pos` on. -/
def write (m : Memory) (pos : ℕ) (src : List UInt8) : Memory :=
  fun i => if i < pos then m i else (src[i - pos]?).getD (m i)

/-- `write`, faulting where the block leaves an array of `size` bytes. -/
def writeIn (size : ℕ) (m : Memory) (pos : ℕ) (src : List UInt8) : Option Memory :=
  if pos + src.length ≤ size then some (m.write pos src) else none

/-- `read`, faulting where the block leaves an array of `size` bytes. -/
def readIn (size : ℕ) (m : Memory) (pos n : ℕ) : Option (List UInt8) :=
  if pos + n ≤ size then some (m.read pos n) else none

/-- Copying a block of `n` bytes from one array to another. -/
def copyIn (size : ℕ) (m : Memory) (pos : ℕ) (size' : ℕ) (m' : Memory) (pos' n : ℕ) :
    Option Memory :=
  (m'.readIn size' pos' n).bind fun src => m.writeIn size pos src

@[simp] theorem length_read : (m.read pos n).length = n := by simp [read]

@[simp] theorem read_zero : m.read pos 0 = [] := rfl

theorem getElem?_read (h : i < n) : (m.read pos n)[i]? = some (m (pos + i)) := by
  simp [read, h]

theorem read_congr (h : ∀ i, i < n → m (pos + i) = m' (pos' + i)) :
    m.read pos n = m'.read pos' n := by
  refine List.map_congr_left fun i hi => ?_
  exact h i (List.mem_range.1 hi)

theorem read_add (k : ℕ) : m.read pos (n + k) = m.read pos n ++ m.read (pos + n) k := by
  simp only [read, List.range_add, List.map_append, List.map_map]
  congr 1
  simp [Nat.add_assoc]

theorem take_read (h : k ≤ n) : (m.read pos n).take k = m.read pos k := by
  obtain ⟨d, rfl⟩ := Nat.exists_eq_add_of_le h
  rw [read_add, List.take_left' length_read]

theorem drop_read (h : k ≤ n) : (m.read pos n).drop k = m.read (pos + k) (n - k) := by
  obtain ⟨d, rfl⟩ := Nat.exists_eq_add_of_le h
  rw [read_add, List.drop_left' length_read, Nat.add_sub_cancel_left]

theorem read_of_append {xs ys : List UInt8} (h : m.read pos n = xs ++ ys) :
    m.read pos xs.length = xs ∧ m.read (pos + xs.length) (n - xs.length) = ys := by
  have hlen : xs.length ≤ n := by
    have := congrArg List.length h
    simp only [length_read, List.length_append] at this
    omega
  refine ⟨?_, ?_⟩
  · have htake := congrArg (List.take xs.length) h
    rwa [take_read hlen, List.take_left] at htake
  · have hdrop := congrArg (List.drop xs.length) h
    rwa [drop_read hlen, List.drop_left] at hdrop

theorem write_apply_of_lt (h : i < pos) : m.write pos src i = m i := by
  simp [write, h]

theorem write_apply_of_ge (h : pos + src.length ≤ i) : m.write pos src i = m i := by
  have : src.length ≤ i - pos := by omega
  simp [write, show ¬ i < pos by omega, this]

theorem write_apply_add (h : i < src.length) : m.write pos src (pos + i) = src[i] := by
  simp [write, h, show ¬ pos + i < pos by omega]

/-- **A written block reads back.** -/
theorem read_write_self : (m.write pos src).read pos src.length = src := by
  refine List.ext_getElem (by simp) fun i hi hi' => ?_
  simp only [read, List.getElem_map, List.getElem_range]
  exact write_apply_add hi'

/-- **A block apart from the written one is unchanged.** -/
theorem read_write_of_disjoint (h : pos' + n ≤ pos ∨ pos + src.length ≤ pos') :
    (m.write pos src).read pos' n = m.read pos' n := by
  refine read_congr fun i hi => ?_
  rcases h with h | h
  · exact write_apply_of_lt (by omega)
  · exact write_apply_of_ge (by omega)

/-- Two writes in a row are one write of the joined block. -/
theorem write_write (src' : List UInt8) :
    (m.write pos src).write (pos + src.length) src' = m.write pos (src ++ src') := by
  funext i
  rcases Nat.lt_or_ge i pos with h | h
  · rw [write_apply_of_lt (by omega), write_apply_of_lt h, write_apply_of_lt h]
  obtain ⟨k, rfl⟩ := Nat.exists_eq_add_of_le h
  rcases Nat.lt_or_ge k src.length with hk | hk
  · rw [write_apply_of_lt (by omega), write_apply_add hk,
      write_apply_add (by rw [List.length_append]; omega), List.getElem_append_left hk]
  · simp only [write, show ¬ pos + k < pos + src.length by omega, show ¬ pos + k < pos by omega,
      if_false, Nat.add_sub_cancel_left, List.getElem?_append_right hk,
      List.getElem?_eq_none hk, Option.getD_none]
    rw [show pos + k - (pos + src.length) = k - src.length by omega]

@[simp] theorem write_nil : m.write pos [] = m := by
  funext i; simp [write]

theorem writeIn_of_le (h : pos + src.length ≤ size) :
    writeIn size m pos src = some (m.write pos src) := if_pos h

theorem readIn_of_le (h : pos + n ≤ size) :
    readIn size m pos n = some (m.read pos n) := if_pos h

theorem copyIn_of_le {size' : ℕ} (h : pos + n ≤ size) (h' : pos' + n ≤ size') :
    copyIn size m pos size' m' pos' n = some (m.write pos (m'.read pos' n)) := by
  rw [copyIn, readIn_of_le h', Option.bind_some, writeIn_of_le (by rw [length_read]; exact h)]

end Memory

/-! ## Words in memory -/

def wordBytes (n : ℕ) : List UInt8 := [UInt8.ofNat n, UInt8.ofNat (n / 2 ^ 8)]

def wordOf (lo hi : UInt8) : ℕ := lo.toNat + 2 ^ 8 * hi.toNat

def dwordBytes (n : ℕ) : List UInt8 := wordBytes (n % 2 ^ 16) ++ wordBytes (n / 2 ^ 16)

@[simp] theorem length_wordBytes (n : ℕ) : (wordBytes n).length = 2 := rfl

@[simp] theorem length_dwordBytes (n : ℕ) : (dwordBytes n).length = 4 := rfl

theorem wordOf_lt (lo hi : UInt8) : wordOf lo hi < 2 ^ 16 := by
  have h₁ := lo.toNat_lt
  have h₂ := hi.toNat_lt
  unfold wordOf; omega

/-- **A stored word reads back.** -/
theorem wordOf_wordBytes {n : ℕ} (h : n < 2 ^ 16) :
    wordOf (UInt8.ofNat n) (UInt8.ofNat (n / 2 ^ 8)) = n := by
  simp only [wordOf, UInt8.toNat_ofNat']
  omega

/-- **And the bytes of a word are the two it is made of.** -/
theorem wordBytes_wordOf (lo hi : UInt8) : wordBytes (wordOf lo hi) = [lo, hi] := by
  have hlo := lo.toNat_lt
  have h₀ : UInt8.ofNat (wordOf lo hi) = lo := by
    refine UInt8.toNat_inj.1 ?_
    rw [UInt8.toNat_ofNat', wordOf]
    omega
  have h₁ : UInt8.ofNat (wordOf lo hi / 2 ^ 8) = hi := by
    refine UInt8.toNat_inj.1 ?_
    have hhi := hi.toNat_lt
    rw [UInt8.toNat_ofNat', wordOf]
    omega
  rw [wordBytes, h₀, h₁]

namespace Memory

variable {m : Memory} {pos : ℕ}

/-- The 16-bit word stored at `pos`. -/
def wordAt (m : Memory) (pos : ℕ) : ℕ := wordOf (m pos) (m (pos + 1))

/-- The 32-bit word stored at `pos`. -/
def dwordAt (m : Memory) (pos : ℕ) : ℕ := m.wordAt pos + 2 ^ 16 * m.wordAt (pos + 2)

/-- The 64-bit word stored at `pos`. -/
def qwordAt (m : Memory) (pos : ℕ) : ℕ :=
  (m.read pos 8).foldr (fun b n => b.toNat + 2 ^ 8 * n) 0

theorem wordAt_of_read {n : ℕ} {rest : List UInt8} (hn : n < 2 ^ 16)
    (h : m.read pos k = wordBytes n ++ rest) : m.wordAt pos = n := by
  have hk : k = 2 + rest.length := by
    have := congrArg List.length h
    simp at this; omega
  have h₀ : (m.read pos k)[0]? = some (m (pos + 0)) := getElem?_read (by omega)
  have h₁ : (m.read pos k)[1]? = some (m (pos + 1)) := getElem?_read (by omega)
  rw [h] at h₀ h₁
  simp only [wordBytes, List.cons_append, List.nil_append, List.getElem?_cons_zero,
    List.getElem?_cons_succ, Option.some.injEq, Nat.add_zero] at h₀ h₁
  rw [wordAt, ← h₀, ← h₁]
  exact wordOf_wordBytes hn

theorem dwordAt_of_read {n : ℕ} {rest : List UInt8} (hn : n < 2 ^ 32)
    (h : m.read pos k = dwordBytes n ++ rest) : m.dwordAt pos = n := by
  rw [dwordBytes, List.append_assoc] at h
  have hhi : m.read (pos + 2) (k - 2) = wordBytes (n / 2 ^ 16) ++ rest := (read_of_append h).2
  rw [dwordAt, wordAt_of_read (Nat.mod_lt _ (by decide)) h, wordAt_of_read (by omega) hhi]
  omega

end Memory

end GameServer
