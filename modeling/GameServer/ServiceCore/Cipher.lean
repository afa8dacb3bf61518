import GameServer.ServiceCore.Encrypt
import GameServer.ServiceCore.Model.Cipher
/-!
# ServiceCore — which configuration strings come back

`XorEncrypt` prints the last eight digits of a text of 512 into a buffer
that has room for seven, so a string of 57 units or more is cut and
`XorCrevasse` refuses it; it refuses the text of an empty string as well.
The byte map sends one byte to zero, and a unit made of that byte alone
ends the string.
-/

namespace GameServer.ServiceCore

open CString

variable {rand : ℕ → ℕ} {cv : TextConversion} {source : List ℕ} {n i width u : ℕ}
variable {wMaxCount : ℕ} {encrypt s : List ℕ}

/-! ## The text of `XorEncrypt` -/

/-- What the first `n` units are printed as. -/
def encryptText (rand : ℕ → ℕ) (source : List ℕ) (n : ℕ) : List ℕ :=
  (List.range n).flatMap (encryptUnit rand source)

section

variable (rand : ℕ → ℕ) (source : List ℕ)

@[simp] theorem length_encryptUnit (i : ℕ) : (encryptUnit rand source i).length = 8 := rfl

theorem encryptText_succ (n : ℕ) :
    encryptText rand source (n + 1) = encryptText rand source n ++ encryptUnit rand source n := by
  simp [encryptText, List.range_succ]

theorem length_encryptText (n : ℕ) : (encryptText rand source n).length = 8 * n := by
  induction n with
  | zero => rfl
  | succ n ih =>
    rw [encryptText_succ, List.length_append, ih, length_encryptUnit]
    omega

theorem isText_encryptText (n : ℕ) : IsText 0x47 (encryptText rand source n) := by
  intro u hu
  obtain ⟨i, -, hi⟩ := List.mem_flatMap.1 hu
  exact IsText.append (isText_hex4 _) (isText_hex4 _) u hi

theorem encryptUnits_succ (n : ℕ) :
    encryptUnits rand source (n + 1) = (encryptUnits rand source n).bind fun buffer =>
      printAt buffer (n * 8) (dwordOfInt (maxEncryptLen - n * 8 : ℤ)) (encryptUnit rand source n) := by
  rw [encryptUnits, encryptUnits, List.range_succ, List.foldlM_append]
  simp only [List.foldlM_cons, List.foldlM_nil, bind_pure]
  rfl

/-- Up to the 63rd unit there is room for everything. -/
theorem encryptUnits_eq (hn : n ≤ 63) :
    encryptUnits rand source n =
      some (encryptText rand source n ++ List.replicate (513 - 8 * n) 0) := by
  induction n with
  | zero => rfl
  | succ n ih =>
    have hcount : dwordOfInt (maxEncryptLen - n * 8 : ℤ) = 512 - 8 * n := by
      rw [dwordOfInt, maxEncryptLen, maxSourceLen, xorTimes]
      omega
    have hpos : n * 8 = (encryptText rand source n).length := by
      rw [length_encryptText, Nat.mul_comm]
    rw [encryptUnits_succ, ih (by omega), Option.bind_some, hcount, hpos, printAt_append,
      encryptText_succ, length_encryptUnit]
    · congr 3
    · rw [length_encryptUnit]
      omega
    · rw [length_encryptUnit]
      omega

theorem encryptUnits_last :
    encryptUnits rand source 64 =
      some ((encryptText rand source 63 ++ (encryptUnit rand source 63).take 7) ++ [0, 0]) := by
  have htake : ((encryptUnit rand source 63).take 7).length = 7 := rfl
  have hprint : printAt (encryptText rand source 63 ++ List.replicate 9 0)
      (encryptText rand source 63).length 8 ((encryptUnit rand source 63).take 7) =
      some ((encryptText rand source 63 ++ (encryptUnit rand source 63).take 7) ++ [0, 0]) :=
    printAt_append (by rw [htake]; decide) (by rw [htake]; decide)
  have hcount : dwordOfInt (maxEncryptLen - (63 : ℕ) * 8 : ℤ) = 8 := by decide
  have hlast := encryptUnits_succ rand source 63
  rw [encryptUnits_eq rand source le_rfl, Option.bind_some, hcount,
    printAt_eq_take (by decide)] at hlast
  rw [length_encryptText] at hprint
  exact hlast.trans hprint

end

/-! ## What `XorEncrypt` gives -/

theorem word_length (h : source.length ≤ maxSourceLen) : word source.length = source.length :=
  word_of_lt (h.trans_lt (by decide))

theorem encryptTimes_le (h : n ≤ 56) : encryptTimes n ≤ 56 := by
  rw [encryptTimes, encryptKeyLen]
  omega

theorem encryptTimes_of_gt (h : 56 < n) (h' : n ≤ maxSourceLen) : encryptTimes n = 64 := by
  rw [maxSourceLen] at h'
  rw [encryptTimes, encryptKeyLen]
  omega

theorem le_encryptTimes (n : ℕ) : n ≤ encryptTimes n := by
  rw [encryptTimes, encryptKeyLen]
  omega

theorem ascii_of_isText (h : IsText 0x47 s) : IsText 0x80 s :=
  fun u hu => ⟨(h u hu).1, (h u hu).2.trans (by decide)⟩

theorem lstrcpyn_text {zeros : ℕ} (hs : IsText 0x47 s) (hroom : s.length + 1 ≤ wMaxCount) :
    lstrcpyn (cv.text (CString.text (s ++ List.replicate zeros 0))) wMaxCount = s := by
  rw [text_append_zeros fun u hu => (hs u hu).1, cv.text_ascii s (ascii_of_isText hs), lstrcpyn,
    List.take_of_length_le (by omega)]

/-- **The text of a string of at most 56 units.** -/
theorem xorEncrypt_of_le (hlen : (cv.wide source).length ≤ 56)
    (h : xorEncrypt rand cv source wMaxCount = some (some encrypt)) :
    encrypt = encryptText rand (cv.wide source) (encryptTimes (cv.wide source).length) := by
  have htimes := encryptTimes_le hlen
  rw [xorEncrypt] at h
  rw [word_length (hlen.trans (by decide))] at h
  split at h
  · cases h
  · next hroom =>
    rw [encryptUnits_eq _ _ (by omega), Option.map_some, lstrcpyn_text (isText_encryptText _ _ _)
      (by rw [length_encryptText]; omega)] at h
    cases h
    rfl

theorem isText_cutText (rand : ℕ → ℕ) (source : List ℕ) :
    IsText 0x47 (encryptText rand source 63 ++ (encryptUnit rand source 63).take 7) := by
  refine IsText.append (isText_encryptText _ _ _) fun u hu => ?_
  exact IsText.append (isText_hex4 _) (isText_hex4 _) u (List.mem_of_mem_take hu)

theorem xorEncrypt_of_gt (hgt : 56 < (cv.wide source).length)
    (hlen : (cv.wide source).length ≤ maxSourceLen)
    (h : xorEncrypt rand cv source wMaxCount = some (some encrypt)) :
    encrypt = encryptText rand (cv.wide source) 63 ++
      (encryptUnit rand (cv.wide source) 63).take 7 := by
  rw [xorEncrypt] at h
  rw [word_length hlen, encryptTimes_of_gt hgt hlen] at h
  split at h
  · cases h
  · next hroom =>
    have hzeros : ([0, 0] : List ℕ) = List.replicate 2 0 := rfl
    rw [encryptUnits_last, Option.map_some, hzeros, lstrcpyn_text (isText_cutText rand _) (by
      rw [List.length_append, length_encryptText, List.length_take, length_encryptUnit]
      omega)] at h
    cases h
    rfl

/-! ## Reading it back -/

theorem encryptText_split (rand : ℕ → ℕ) (source : List ℕ) (h : i < n) :
    ∃ rest, encryptText rand source n =
      encryptText rand source i ++ (encryptUnit rand source i ++ rest) := by
  obtain ⟨d, rfl⟩ := Nat.exists_eq_add_of_lt h
  induction d with
  | zero => exact ⟨[], by rw [Nat.add_zero, encryptText_succ, List.append_nil]⟩
  | succ d ih =>
    obtain ⟨rest, hrest⟩ := ih (by omega)
    refine ⟨rest ++ encryptUnit rand source (i + d + 1), ?_⟩
    rw [show i + (d + 1) + 1 = (i + d + 1) + 1 by omega, encryptText_succ, hrest]
    simp only [List.append_assoc]

theorem readWord_append {t rest : List ℕ} {k : ℕ} (hk : k < 2 ^ 16) :
    readWord (s ++ (t ++ (hex4 k ++ rest))) (s.length + t.length) = k := by
  have hdrop : (s ++ (t ++ (hex4 k ++ rest))).drop (s.length + t.length) = hex4 k ++ rest := by
    rw [← List.append_assoc, ← List.length_append, List.drop_left]
  rw [readWord, hdrop, List.take_left' (length_hex4 k), strtolHex_hex4 hk]
  omega

theorem randKey_lt (rand : ℕ → ℕ) {length : ℕ} (h : length < 2 ^ 16) (i : ℕ) :
    randKey rand length i < 2 ^ 16 := by
  rw [randKey]
  split <;> omega

theorem tempCode_lt (rand : ℕ → ℕ) (h : IsText (2 ^ 16) source) (i : ℕ) :
    tempCode rand source i < 2 ^ 16 := by
  have hkey : randKey rand (word source.length) (i % encryptKeyLen) < 2 ^ 16 :=
    randKey_lt rand (word_lt _) _
  rw [tempCode]
  split
  · refine Nat.xor_lt_two_pow ?_ hkey
    rw [List.getD_eq_getElem?_getD]
    cases hget : source[i]? with
    | none => decide
    | some u => exact (h u (List.mem_of_getElem? hget)).2
  · refine Nat.xor_lt_two_pow hkey (by omega)

/-- The key of a unit is read back, and the unit under it. -/
theorem readWord_encryptText (rand : ℕ → ℕ) (hsource : IsText (2 ^ 16) source) (h : i < n) :
    readWord (encryptText rand source n) (i * 8) =
        randKey rand (word source.length) (i % encryptKeyLen) ∧
      readWord (encryptText rand source n) (i * 8 + 4) = tempCode rand source i := by
  obtain ⟨rest, hrest⟩ := encryptText_split rand source h
  have hpos : i * 8 = (encryptText rand source i).length := by
    rw [length_encryptText, Nat.mul_comm]
  rw [hrest, encryptUnit, List.append_assoc, hpos]
  constructor
  · exact readWord_append (t := []) (randKey_lt rand (word_lt _) _)
  · exact readWord_append (tempCode_lt rand hsource i)

/-- **What `XorCrevasse` reads are the units of the string.** -/
theorem units_of_encryptText (hsource : IsText (2 ^ 16) source) (hlen : source.length ≤ n)
    (hmax : source.length ≤ maxSourceLen) :
    ((List.range source.length).map fun i =>
      readWord (encryptText rand source n) (i * 8) ^^^
        readWord (encryptText rand source n) (i * 8 + 4)) = source := by
  refine List.ext_getElem (by simp) fun i hi hi' => ?_
  obtain ⟨hkey, hcode⟩ := readWord_encryptText rand hsource (hi'.trans_le hlen)
  rw [List.getElem_map, List.getElem_range, hkey, hcode, tempCode, word_length hmax, if_pos hi',
    Nat.xor_comm (source.getD i 0), ← Nat.xor_assoc, Nat.xor_self, Nat.zero_xor,
    List.getD_eq_getElem _ _ hi']

theorem xorCrevasse_of_ascii (h : IsText 0x47 encrypt) :
    xorCrevasse cv encrypt wMaxCount =
      if word encrypt.length < encryptKeyLen * 8 then some none
      else if word encrypt.length ≠ encryptTimes (readWord encrypt 0) * 8 then some none
      else if readWord encrypt 0 + 1 > wMaxCount then some none
      else if maxSourceLen ≤ readWord encrypt 0 then none
      else some (some (lstrcpyn (cv.text (CString.text ((List.range (readWord encrypt 0)).map
        fun i => readWord encrypt (i * 8) ^^^ readWord encrypt (i * 8 + 4)))) wMaxCount)) := by
  rw [xorCrevasse, cv.wide_ascii encrypt (ascii_of_isText h)]

/-- **Which strings come back.** -/
theorem xorCrevasse_iff {wMaxCount' : ℕ} (hvalid : cv.valid source)
    (hlen : (cv.wide source).length ≤ maxSourceLen)
    (henc : xorEncrypt rand cv source wMaxCount = some (some encrypt))
    (hwide : (cv.wide source).length + 1 ≤ wMaxCount') (hroom : source.length + 1 ≤ wMaxCount') :
    xorCrevasse cv encrypt wMaxCount' = some (some source) ↔
      1 ≤ (cv.wide source).length ∧ (cv.wide source).length ≤ 56 := by
  have hsource := cv.isText_wide source hvalid
  rcases Nat.lt_or_ge 56 (cv.wide source).length with hgt | hle
  · -- the text has 511 units, and those of 57 or more take 512
    have heq := xorEncrypt_of_gt hgt hlen henc
    have htext : IsText 0x47 encrypt := by
      rw [heq]
      exact isText_cutText rand _
    have hlength : word encrypt.length = 511 := by
      rw [heq, List.length_append, length_encryptText]
      rfl
    refine iff_of_false (fun h => ?_) fun h => by omega
    rw [xorCrevasse_of_ascii htext, if_neg (by rw [hlength]; decide), if_pos] at h
    · cases h
    · rw [hlength, encryptTimes, encryptKeyLen]
      omega
  · have heq := xorEncrypt_of_le hle henc
    have htext : IsText 0x47 encrypt := by
      rw [heq]
      exact isText_encryptText _ _ _
    have htimes := encryptTimes_le hle
    have hlength : word encrypt.length = 8 * encryptTimes (cv.wide source).length := by
      rw [heq, length_encryptText, word_of_lt (by omega)]
    rcases Nat.eq_zero_or_pos (cv.wide source).length with hzero | hpos
    · refine iff_of_false (fun h => ?_) fun h => by omega
      rw [xorCrevasse_of_ascii htext, if_pos] at h
      · cases h
      · rw [hlength, hzero]
        decide
    · have hle_times := le_encryptTimes (cv.wide source).length
      have height : encryptKeyLen ≤ encryptTimes (cv.wide source).length := by
        rw [encryptTimes, encryptKeyLen]
        omega
      have hread : readWord encrypt 0 = (cv.wide source).length := by
        have hfirst := readWord_encryptText rand hsource
          (by omega : 0 < encryptTimes (cv.wide source).length)
        rw [← heq, word_length hlen] at hfirst
        exact hfirst.1
      refine iff_of_true ?_ ⟨hpos, hle⟩
      rw [xorCrevasse_of_ascii htext, hlength, hread,
        if_neg (by rw [encryptKeyLen] at height ⊢; omega), if_neg (by omega), if_neg (by omega),
        if_neg (by rw [maxSourceLen]; omega), heq,
        units_of_encryptText hsource hle_times hlen, text_of_pos fun u hu => (hsource u hu).1,
        cv.text_wide source hvalid, lstrcpyn, List.take_of_length_le (by omega)]

/-! ## The byte maps -/

/-- The byte tables undo each other, on every byte of a unit. -/
theorem mapUnit_recvByte (h : u < 256 ^ width) :
    mapUnit recvByte width (mapUnit sendByte width u) = u := by
  induction width generalizing u with
  | zero => exact (Nat.lt_one_iff.1 h).symm
  | succ width ih =>
    have hbyte := (sendByte (UInt8.ofNat u)).toNat_lt
    have hlow : UInt8.ofNat ((sendByte (UInt8.ofNat u)).toNat +
        256 * mapUnit sendByte width (u / 256)) = sendByte (UInt8.ofNat u) := by
      rw [← UInt8.toNat_inj, UInt8.toNat_ofNat']
      omega
    have hhigh : ((sendByte (UInt8.ofNat u)).toNat + 256 * mapUnit sendByte width (u / 256)) / 256 =
        mapUnit sendByte width (u / 256) := by omega
    rw [Nat.pow_succ] at h
    rw [mapUnit, mapUnit, hlow, hhigh, recvByte_sendByte, ih (by omega), UInt8.toNat_ofNat']
    omega

theorem sendByte_eq_zero_iff (b : UInt8) : sendByte b = 0 ↔ b = 0x51 := by
  constructor
  · intro h
    rw [← recvByte_sendByte b, h]
    decide
  · rintro rfl
    decide

/-- **A unit is sent as zero** when it is made of the byte `0x51`. -/
theorem mapUnit_sendByte_eq_zero_iff :
    mapUnit sendByte width u = 0 ↔ ∀ j < width, u / 256 ^ j % 256 = 0x51 := by
  induction width generalizing u with
  | zero => simp [mapUnit]
  | succ width ih =>
    have hbyte : (sendByte (UInt8.ofNat u)).toNat = 0 ↔ u % 256 = 0x51 := by
      rw [← UInt8.toNat_zero, UInt8.toNat_inj, sendByte_eq_zero_iff, ← UInt8.toNat_inj,
        UInt8.toNat_ofNat']
      rfl
    rw [mapUnit, Nat.add_eq_zero_iff, hbyte, Nat.mul_eq_zero, ih]
    constructor
    · rintro ⟨hlow, hrest⟩ j hj
      cases j with
      | zero => simpa using hlow
      | succ j =>
        rw [Nat.pow_succ, Nat.mul_comm, ← Nat.div_div_eq_div_mul]
        exact (hrest.resolve_left (by decide)) j (by omega)
    · intro h
      refine ⟨by simpa using h 0 (by omega), Or.inr fun j hj => ?_⟩
      rw [Nat.div_div_eq_div_mul, Nat.mul_comm, ← Nat.pow_succ]
      exact h (j + 1) (by omega)

/-- **Which strings the maps bring back.** -/
theorem mapCrevasse_mapEncrypt_iff (hs : IsText (256 ^ width) source) :
    mapCrevasse width (mapEncrypt width source) = source ↔
      ∀ u ∈ source, ¬∀ j < width, u / 256 ^ j % 256 = 0x51 := by
  have hback : (source.map (mapUnit sendByte width)).map (mapUnit recvByte width) = source := by
    rw [List.map_map]
    exact (List.map_congr_left fun u hu => mapUnit_recvByte (hs u hu).2).trans (List.map_id source)
  have htext : CString.text (source.map (mapUnit sendByte width)) =
      source.map (mapUnit sendByte width) ↔
        ∀ u ∈ source, ¬∀ j < width, u / 256 ^ j % 256 = 0x51 := by
    simp only [text_eq_self_iff, List.forall_mem_map, ne_eq, mapUnit_sendByte_eq_zero_iff]
  rw [← htext, mapCrevasse, mapEncrypt]
  constructor
  · -- a string that is cut stays shorter
    intro h
    have hlen := congrArg List.length h
    have hle := (List.takeWhile_sublist (fun u => decide (u ≠ 0))
      (l := (CString.text (source.map (mapUnit sendByte width))).map
        (mapUnit recvByte width))).length_le
    have hsub := List.takeWhile_sublist (fun u => decide (u ≠ 0))
      (l := source.map (mapUnit sendByte width))
    refine hsub.eq_of_length_le ?_
    rw [CString.text] at hlen
    rw [List.length_map] at hle ⊢
    exact hlen.symm.le.trans hle
  · intro h
    rw [h, hback]
    exact text_of_pos fun u hu => (hs u hu).1

/-- **The ciphers and their strings.** A text that `XorEncrypt` made of a
string of at most 64 units is read back exactly when the string has
between 1 and 56 units, and `MapCrevasse` brings a string back exactly when
none of its units is made of the byte `0x51` alone. -/
theorem ciphers_round_trip (cv : TextConversion) (rand : ℕ → ℕ) (source : List ℕ) :
    (∀ wMaxCount wMaxCount' encrypt, cv.valid source → (cv.wide source).length ≤ maxSourceLen →
      xorEncrypt rand cv source wMaxCount = some (some encrypt) →
      (cv.wide source).length + 1 ≤ wMaxCount' → source.length + 1 ≤ wMaxCount' →
      (xorCrevasse cv encrypt wMaxCount' = some (some source) ↔
        1 ≤ (cv.wide source).length ∧ (cv.wide source).length ≤ 56)) ∧
      ∀ width, IsText (256 ^ width) source →
        (mapCrevasse width (mapEncrypt width source) = source ↔
          ∀ u ∈ source, ¬∀ j < width, u / 256 ^ j % 256 = 0x51) :=
  ⟨fun _ _ _ hvalid hlen henc hwide hroom => xorCrevasse_iff hvalid hlen henc hwide hroom,
    fun _ hs => mapCrevasse_mapEncrypt_iff hs⟩

/-- **Strings that are lost**: the empty one and one of 57 units under
`XorEncrypt`, and `Q` under `MapEncrypt`, in both widths. -/
theorem strings_lost :
    xorEncrypt (fun _ => 0) unicode [] 513 = some (some []) ∧
      xorCrevasse unicode [] 65 = some none ∧
      (xorEncrypt (fun _ => 0) unicode (List.replicate 57 0x41) 513).map Option.isSome =
        some true ∧
      (xorEncrypt (fun _ => 0) unicode (List.replicate 57 0x41) 513).bind
        (fun encrypt => xorCrevasse unicode (encrypt.getD []) 65) = some none ∧
      mapCrevasse 1 (mapEncrypt 1 [0x51]) = [] ∧ mapCrevasse 2 (mapEncrypt 2 [0x5151]) = [] := by
  decide +kernel

end GameServer.ServiceCore
