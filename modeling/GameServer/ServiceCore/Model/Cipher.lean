import GameServer.Common.CString
import GameServer.ServiceCore.Model.Encrypt
/-!
# ServiceCore — the ciphers of the configuration strings

`XorEncrypt` writes each 16-bit unit of a string as eight hexadecimal
digits: a key and the unit under it. The first of the eight keys is the
length, the other seven are drawn, and the string is filled up to a
multiple of eight units with drawn ones. `MapEncrypt` replaces the bytes
of a string by their image under the table of the packet codec.

A string is a list of units, those of `TCHAR` or 16-bit ones. A write
outside a local buffer is a fault (`none` outside); a function that
returns `false` gives `none` inside.
-/

namespace GameServer.ServiceCore

open CString

def maxSourceLen : ℕ := 64

def xorTimes : ℕ := 8

def maxEncryptLen : ℕ := maxSourceLen * xorTimes

def encryptKeyLen : ℕ := 8

/-- `CT2CW` and `CW2CT`, on the strings the code page has. A character of
ASCII keeps its number, and a string comes back from 16-bit units. -/
structure TextConversion where
  valid : List ℕ → Prop
  wide : List ℕ → List ℕ
  text : List ℕ → List ℕ
  isText_wide : ∀ s, valid s → IsText (2 ^ 16) (wide s)
  text_wide : ∀ s, valid s → text (wide s) = s
  wide_ascii : ∀ s, IsText 0x80 s → wide s = s
  text_ascii : ∀ s, IsText 0x80 s → text s = s

/-- The conversion where a `TCHAR` has 16 bits. -/
def unicode : TextConversion where
  valid := IsText (2 ^ 16)
  wide := id
  text := id
  isText_wide := fun _ hs => hs
  text_wide := fun _ _ => rfl
  wide_ascii := fun _ _ => rfl
  text_ascii := fun _ _ => rfl

def lstrcpyn (s : List ℕ) (wMaxCount : ℕ) : List ℕ := s.take (wMaxCount - 1)

/-! ## The keys -/

variable (rand : ℕ → ℕ)

/-- `wRandKey`, from the first values of `rand`. -/
def randKey (length i : ℕ) : ℕ := if i = 0 then length else rand (i - 1) % 0xFFFF

def encryptTimes (length : ℕ) : ℕ := (length + encryptKeyLen - 1) / encryptKeyLen * encryptKeyLen

/-- `wTempCode`: a unit of the string, or behind it the next value of
`rand`. -/
def tempCode (source : List ℕ) (i : ℕ) : ℕ :=
  let length := word source.length
  let key := randKey rand length (i % encryptKeyLen)
  if i < length then source.getD i 0 ^^^ key
  else key ^^^ (rand (encryptKeyLen - 1 + (i - length)) % 0xFFFF)

def encryptUnit (source : List ℕ) (i : ℕ) : List ℕ :=
  hex4 (randKey rand (word source.length) (i % encryptKeyLen)) ++ hex4 (tempCode rand source i)

/-- The loop of `XorEncrypt` over the local buffer. The count is one of
`size_t`. -/
def encryptUnits (source : List ℕ) (times : ℕ) : Option (List ℕ) :=
  (List.range times).foldlM
    (fun buffer i =>
      printAt buffer (i * 8) (dwordOfInt (maxEncryptLen - i * 8 : ℤ)) (encryptUnit rand source i))
    (List.replicate (maxEncryptLen + 1) 0)

variable (cv : TextConversion)

def xorEncrypt (source : List ℕ) (wMaxCount : ℕ) : Option (Option (List ℕ)) :=
  let source := cv.wide source
  let times := encryptTimes (word source.length)
  if times * 8 + 1 > wMaxCount then some none
  else (encryptUnits rand source times).map fun buffer =>
    some (lstrcpyn (cv.text (CString.text buffer)) wMaxCount)

/-- Four digits of a text as a 16-bit number. -/
def readWord (s : List ℕ) (pos : ℕ) : ℕ := (strtolHex ((s.drop pos).take 4) % 2 ^ 16).toNat

def xorCrevasse (encrypt : List ℕ) (wMaxCount : ℕ) : Option (Option (List ℕ)) :=
  let encrypt := cv.wide encrypt
  if word encrypt.length < encryptKeyLen * 8 then some none
  else
    let length := readWord encrypt 0
    if word encrypt.length ≠ encryptTimes length * 8 then some none
    else if length + 1 > wMaxCount then some none
    else if maxSourceLen ≤ length then none
    else
      let source := (List.range length).map fun i =>
        readWord encrypt (i * 8) ^^^ readWord encrypt (i * 8 + 4)
      some (some (lstrcpyn (cv.text (CString.text source)) wMaxCount))

/-! ## The byte maps -/

/-- The bytes of a unit of `width` bytes under a table, the low byte
first. -/
def mapUnit (map : UInt8 → UInt8) : ℕ → ℕ → ℕ
  | 0, _ => 0
  | width + 1, u => (map (UInt8.ofNat u)).toNat + 256 * mapUnit map width (u / 256)

/-- `MapEncrypt`; `g_cbEncryptMap` has the entries of `g_SendByteMap`. -/
def mapEncrypt (width : ℕ) (source : List ℕ) : List ℕ :=
  CString.text (source.map (mapUnit sendByte width))

/-- `MapCrevasse`; `g_cbCrevasseMap` has the entries of
`g_RecvByteMap`. -/
def mapCrevasse (width : ℕ) (encrypt : List ℕ) : List ℕ :=
  CString.text (encrypt.map (mapUnit recvByte width))

end GameServer.ServiceCore
