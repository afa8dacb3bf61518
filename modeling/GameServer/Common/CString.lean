import Mathlib.Data.List.TakeWhile
import Mathlib.Data.Nat.Bitwise
/-!
# Zero-terminated strings

A string is the units of a buffer up to the first zero. The functions are
those of the C library: a text stored at a position, cut to a number of
units with its zero, a number in four hexadecimal digits, and the number a
text begins with.
-/

namespace GameServer.CString

/-- The string in a buffer. -/
def text (buffer : List ℕ) : List ℕ := buffer.takeWhile (· ≠ 0)

/-- The units of a string are not zero and below a bound. -/
def IsText (bound : ℕ) (s : List ℕ) : Prop := ∀ u ∈ s, 0 < u ∧ u < bound

/-- A text is stored at a position, cut to fit `count` units with the zero
behind it. Nothing is stored where `count` is zero, and a store outside
the buffer faults. -/
def printAt (buffer : List ℕ) (pos count : ℕ) (s : List ℕ) : Option (List ℕ) :=
  if count = 0 then some buffer
  else
    let stored := s.take (count - 1) ++ [0]
    if pos + stored.length ≤ buffer.length then
      some (buffer.take pos ++ stored ++ buffer.drop (pos + stored.length))
    else none

def hexDigit (d : ℕ) : ℕ := if d < 10 then 0x30 + d else 0x37 + d

/-- `%04X` of a 16-bit number. -/
def hex4 (n : ℕ) : List ℕ :=
  [hexDigit (n / 4096 % 16), hexDigit (n / 256 % 16), hexDigit (n / 16 % 16), hexDigit (n % 16)]

def hexValue (u : ℕ) : Option ℕ :=
  if 0x30 ≤ u ∧ u ≤ 0x39 then some (u - 0x30)
  else if 0x41 ≤ u ∧ u ≤ 0x46 then some (u - 0x37)
  else if 0x61 ≤ u ∧ u ≤ 0x66 then some (u - 0x57)
  else none

def isSpace (u : ℕ) : Bool := u = 0x20 || (0x09 ≤ u && u ≤ 0x0D)

/-- The digits at the front of a string, behind a number read so far. -/
def readHex (n : ℕ) : List ℕ → ℕ
  | [] => n
  | u :: s =>
      match hexValue u with
      | some d => readHex (16 * n + d) s
      | none => n

/-- A prefix `0x` in front of a digit. -/
def dropHexPrefix : List ℕ → List ℕ
  | 0x30 :: x :: d :: s =>
      if (x = 0x58 ∨ x = 0x78) ∧ (hexValue d).isSome then d :: s else 0x30 :: x :: d :: s
  | s => s

/-- `strtol` in base 16. -/
def strtolHex (s : List ℕ) : ℤ :=
  match s.dropWhile isSpace with
  | 0x2D :: s => -(readHex 0 (dropHexPrefix s) : ℤ)
  | 0x2B :: s => readHex 0 (dropHexPrefix s)
  | s => readHex 0 (dropHexPrefix s)

/-! ## Texts -/

variable {s t buffer : List ℕ} {pos count n bound : ℕ}

theorem IsText.append (hs : IsText bound s) (ht : IsText bound t) : IsText bound (s ++ t) :=
  fun u hu => (List.mem_append.1 hu).elim (hs u) (ht u)

theorem text_append_zeros (hs : ∀ u ∈ s, 0 < u) (n : ℕ) : text (s ++ List.replicate n 0) = s := by
  have hzeros : (List.replicate n 0).takeWhile (fun u : ℕ => decide (u ≠ 0)) = [] := by
    cases n <;> simp [List.replicate_succ]
  rw [text, List.takeWhile_append_of_pos fun u hu => by simpa using (hs u hu).ne', hzeros,
    List.append_nil]

theorem text_of_pos (hs : ∀ u ∈ s, 0 < u) : text s = s := by
  simpa using text_append_zeros hs 0

/-- **A string is cut at a unit that is zero.** -/
theorem text_eq_self_iff : text s = s ↔ ∀ u ∈ s, u ≠ 0 := by
  rw [text, List.takeWhile_eq_self_iff]
  simp

/-- A text that fits, stored behind a text. -/
theorem printAt_append {z : ℕ} (hcount : t.length < count) (hz : t.length < z) :
    printAt (s ++ List.replicate z 0) s.length count t =
      some ((s ++ t) ++ List.replicate (z - t.length) 0) := by
  have htake : t.take (count - 1) = t := List.take_of_length_le (by omega)
  have hfits : s.length + (t ++ [0]).length ≤ (s ++ List.replicate z 0).length := by
    simp only [List.length_append, List.length_replicate, List.length_singleton]
    omega
  have hdrop : (s ++ List.replicate z 0).drop (s.length + (t ++ [0]).length) =
      List.replicate (z - t.length - 1) 0 := by
    rw [List.drop_append, List.drop_of_length_le (by omega), List.nil_append, List.drop_replicate,
      List.length_append, List.length_singleton]
    congr 1
    omega
  have hzeros : List.replicate (z - t.length) 0 = 0 :: List.replicate (z - t.length - 1) 0 := by
    rw [← List.replicate_succ]
    congr 1
    omega
  rw [printAt, if_neg (by omega)]
  rw [htake, if_pos hfits, List.take_left, hdrop, hzeros]
  simp

theorem printAt_eq_take (hcount : 0 < count) :
    printAt buffer pos count t = printAt buffer pos count (t.take (count - 1)) := by
  rw [printAt, printAt, if_neg hcount.ne', if_neg hcount.ne', List.take_take, Nat.min_self]

/-! ## Numbers -/

theorem hexValue_hexDigit : ∀ d < 16, hexValue (hexDigit d) = some d := by decide

theorem hexDigit_spec : ∀ d < 16, 0 < hexDigit d ∧ hexDigit d < 0x47 ∧
    hexDigit d ≠ 0x2B ∧ hexDigit d ≠ 0x2D ∧ isSpace (hexDigit d) = false ∧
    hexDigit d ≠ 0x58 ∧ hexDigit d ≠ 0x78 := by
  decide

@[simp] theorem length_hex4 (n : ℕ) : (hex4 n).length = 4 := rfl

theorem isText_hex4 (n : ℕ) : IsText 0x47 (hex4 n) := by
  intro u hu
  have hlt (d : ℕ) : d % 16 < 16 := Nat.mod_lt _ (by decide)
  simp only [hex4, List.mem_cons, List.not_mem_nil, or_false] at hu
  obtain rfl | rfl | rfl | rfl := hu
  all_goals exact ⟨(hexDigit_spec _ (hlt _)).1, (hexDigit_spec _ (hlt _)).2.1⟩

/-- **Four digits are read back.** -/
theorem strtolHex_hex4 (h : n < 2 ^ 16) : strtolHex (hex4 n) = n := by
  have hlt (d : ℕ) : d % 16 < 16 := Nat.mod_lt _ (by decide)
  obtain ⟨-, -, hplus, hminus, hspace, -⟩ := hexDigit_spec _ (hlt (n / 4096))
  obtain ⟨-, -, -, -, -, hX, hx⟩ := hexDigit_spec _ (hlt (n / 256))
  have hread : readHex 0 (hex4 n) = n := by
    simp only [hex4, readHex, hexValue_hexDigit _ (hlt _)]
    omega
  have hdigits : dropHexPrefix (hex4 n) = hex4 n := by
    rw [hex4, dropHexPrefix.eq_def]
    split
    · next heq =>
      simp only [List.cons.injEq] at heq
      obtain ⟨h0, rfl, rfl, rfl⟩ := heq
      rw [if_neg (by simp [hX, hx]), h0]
    · rfl
  have hdrop : (hex4 n).dropWhile isSpace = hex4 n := by
    rw [hex4, List.dropWhile_cons_of_neg (by simp [hspace])]
  rw [strtolHex.eq_def, hdrop]
  split
  · next heq => exact absurd (List.cons.inj heq).1 hminus
  · next heq => exact absurd (List.cons.inj heq).1 hplus
  · rw [hdigits, hread]

end GameServer.CString
