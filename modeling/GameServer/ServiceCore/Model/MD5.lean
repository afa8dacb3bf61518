import GameServer.Common.Md5
import GameServer.Common.Memory
/-!
# ServiceCore — hashing passwords

`CMD5Aide` takes a string in pieces: it keeps the bytes that do not fill a
block, the number of bits so far in two words and the four words of the
digest. A read or write outside an array is a fault.
-/

namespace GameServer.ServiceCore

open Md5 (State)

/-! The shifts `S11` to `S44`. -/

def s11 : UInt32 := 7
def s12 : UInt32 := 12
def s13 : UInt32 := 17
def s14 : UInt32 := 22
def s21 : UInt32 := 5
def s22 : UInt32 := 9
def s23 : UInt32 := 14
def s24 : UInt32 := 20
def s31 : UInt32 := 4
def s32 : UInt32 := 11
def s33 : UInt32 := 16
def s34 : UInt32 := 23
def s41 : UInt32 := 6
def s42 : UInt32 := 10
def s43 : UInt32 := 15
def s44 : UInt32 := 21

/-! ## One block -/

/-- The local variables `a`, `b`, `c` and `d` of `MD5Transform`. -/
inductive Local
  | a
  | b
  | c
  | d
  deriving DecidableEq, Repr

def Local.get (v : State) : Local → UInt32
  | a => v.a
  | b => v.b
  | c => v.c
  | d => v.d

def Local.set (v : State) (x : UInt32) : Local → State
  | a => { v with a := x }
  | b => { v with b := x }
  | c => { v with c := x }
  | d => { v with d := x }

/-- Which macro a line uses. -/
inductive RoundMacro
  | FF
  | GG
  | HH
  | II
  deriving DecidableEq, Repr

/-- The macros `F`, `G`, `H` and `I`. -/
def RoundMacro.function : RoundMacro → UInt32 → UInt32 → UInt32 → UInt32
  | FF, x, y, z => (x &&& y) ||| (~~~x &&& z)
  | GG, x, y, z => (x &&& z) ||| (y &&& ~~~z)
  | HH, x, y, z => x ^^^ y ^^^ z
  | II, x, y, z => y ^^^ (x ||| ~~~z)

def rotateLeft (x n : UInt32) : UInt32 := (x <<< n) ||| (x >>> (32 - n))

/-- A line of `MD5Transform`: the macro, the variables `a` to `d` of it, the
index of the word of the block, the shift and the constant. -/
structure Line where
  roundMacro : RoundMacro
  a : Local
  b : Local
  c : Local
  d : Local
  x : ℕ
  s : UInt32
  ac : UInt32
  deriving DecidableEq, Repr

/-- The statements of the macros `FF`, `GG`, `HH` and `II`. -/
def Line.run (x : ℕ → UInt32) (v : State) (l : Line) : State :=
  let f := l.roundMacro.function (l.b.get v) (l.c.get v) (l.d.get v)
  let v := l.a.set v (l.a.get v + (f + x l.x + l.ac))
  let v := l.a.set v (rotateLeft (l.a.get v) l.s)
  l.a.set v (l.a.get v + l.b.get v)

/-- The lines of `MD5Transform`. -/
def lines : List Line := [
  ⟨.FF, .a, .b, .c, .d, 0, s11, 0xd76aa478⟩, ⟨.FF, .d, .a, .b, .c, 1, s12, 0xe8c7b756⟩,
  ⟨.FF, .c, .d, .a, .b, 2, s13, 0x242070db⟩, ⟨.FF, .b, .c, .d, .a, 3, s14, 0xc1bdceee⟩,
  ⟨.FF, .a, .b, .c, .d, 4, s11, 0xf57c0faf⟩, ⟨.FF, .d, .a, .b, .c, 5, s12, 0x4787c62a⟩,
  ⟨.FF, .c, .d, .a, .b, 6, s13, 0xa8304613⟩, ⟨.FF, .b, .c, .d, .a, 7, s14, 0xfd469501⟩,
  ⟨.FF, .a, .b, .c, .d, 8, s11, 0x698098d8⟩, ⟨.FF, .d, .a, .b, .c, 9, s12, 0x8b44f7af⟩,
  ⟨.FF, .c, .d, .a, .b, 10, s13, 0xffff5bb1⟩, ⟨.FF, .b, .c, .d, .a, 11, s14, 0x895cd7be⟩,
  ⟨.FF, .a, .b, .c, .d, 12, s11, 0x6b901122⟩, ⟨.FF, .d, .a, .b, .c, 13, s12, 0xfd987193⟩,
  ⟨.FF, .c, .d, .a, .b, 14, s13, 0xa679438e⟩, ⟨.FF, .b, .c, .d, .a, 15, s14, 0x49b40821⟩,
  ⟨.GG, .a, .b, .c, .d, 1, s21, 0xf61e2562⟩, ⟨.GG, .d, .a, .b, .c, 6, s22, 0xc040b340⟩,
  ⟨.GG, .c, .d, .a, .b, 11, s23, 0x265e5a51⟩, ⟨.GG, .b, .c, .d, .a, 0, s24, 0xe9b6c7aa⟩,
  ⟨.GG, .a, .b, .c, .d, 5, s21, 0xd62f105d⟩, ⟨.GG, .d, .a, .b, .c, 10, s22, 0x2441453⟩,
  ⟨.GG, .c, .d, .a, .b, 15, s23, 0xd8a1e681⟩, ⟨.GG, .b, .c, .d, .a, 4, s24, 0xe7d3fbc8⟩,
  ⟨.GG, .a, .b, .c, .d, 9, s21, 0x21e1cde6⟩, ⟨.GG, .d, .a, .b, .c, 14, s22, 0xc33707d6⟩,
  ⟨.GG, .c, .d, .a, .b, 3, s23, 0xf4d50d87⟩, ⟨.GG, .b, .c, .d, .a, 8, s24, 0x455a14ed⟩,
  ⟨.GG, .a, .b, .c, .d, 13, s21, 0xa9e3e905⟩, ⟨.GG, .d, .a, .b, .c, 2, s22, 0xfcefa3f8⟩,
  ⟨.GG, .c, .d, .a, .b, 7, s23, 0x676f02d9⟩, ⟨.GG, .b, .c, .d, .a, 12, s24, 0x8d2a4c8a⟩,
  ⟨.HH, .a, .b, .c, .d, 5, s31, 0xfffa3942⟩, ⟨.HH, .d, .a, .b, .c, 8, s32, 0x8771f681⟩,
  ⟨.HH, .c, .d, .a, .b, 11, s33, 0x6d9d6122⟩, ⟨.HH, .b, .c, .d, .a, 14, s34, 0xfde5380c⟩,
  ⟨.HH, .a, .b, .c, .d, 1, s31, 0xa4beea44⟩, ⟨.HH, .d, .a, .b, .c, 4, s32, 0x4bdecfa9⟩,
  ⟨.HH, .c, .d, .a, .b, 7, s33, 0xf6bb4b60⟩, ⟨.HH, .b, .c, .d, .a, 10, s34, 0xbebfbc70⟩,
  ⟨.HH, .a, .b, .c, .d, 13, s31, 0x289b7ec6⟩, ⟨.HH, .d, .a, .b, .c, 0, s32, 0xeaa127fa⟩,
  ⟨.HH, .c, .d, .a, .b, 3, s33, 0xd4ef3085⟩, ⟨.HH, .b, .c, .d, .a, 6, s34, 0x4881d05⟩,
  ⟨.HH, .a, .b, .c, .d, 9, s31, 0xd9d4d039⟩, ⟨.HH, .d, .a, .b, .c, 12, s32, 0xe6db99e5⟩,
  ⟨.HH, .c, .d, .a, .b, 15, s33, 0x1fa27cf8⟩, ⟨.HH, .b, .c, .d, .a, 2, s34, 0xc4ac5665⟩,
  ⟨.II, .a, .b, .c, .d, 0, s41, 0xf4292244⟩, ⟨.II, .d, .a, .b, .c, 7, s42, 0x432aff97⟩,
  ⟨.II, .c, .d, .a, .b, 14, s43, 0xab9423a7⟩, ⟨.II, .b, .c, .d, .a, 5, s44, 0xfc93a039⟩,
  ⟨.II, .a, .b, .c, .d, 12, s41, 0x655b59c3⟩, ⟨.II, .d, .a, .b, .c, 3, s42, 0x8f0ccc92⟩,
  ⟨.II, .c, .d, .a, .b, 10, s43, 0xffeff47d⟩, ⟨.II, .b, .c, .d, .a, 1, s44, 0x85845dd1⟩,
  ⟨.II, .a, .b, .c, .d, 8, s41, 0x6fa87e4f⟩, ⟨.II, .d, .a, .b, .c, 15, s42, 0xfe2ce6e0⟩,
  ⟨.II, .c, .d, .a, .b, 6, s43, 0xa3014314⟩, ⟨.II, .b, .c, .d, .a, 13, s44, 0x4e0811a1⟩,
  ⟨.II, .a, .b, .c, .d, 4, s41, 0xf7537e82⟩, ⟨.II, .d, .a, .b, .c, 11, s42, 0xbd3af235⟩,
  ⟨.II, .c, .d, .a, .b, 2, s43, 0x2ad7d2bb⟩, ⟨.II, .b, .c, .d, .a, 9, s44, 0xeb86d391⟩]

/-- `Decode` of a block of 64 bytes. -/
def decode (block : List UInt8) (i : ℕ) : UInt32 :=
  (block.getD (4 * i) 0).toUInt32 ||| (block.getD (4 * i + 1) 0).toUInt32 <<< 8 |||
    (block.getD (4 * i + 2) 0).toUInt32 <<< 16 ||| (block.getD (4 * i + 3) 0).toUInt32 <<< 24

def encode (x : UInt32) : List UInt8 :=
  [(x &&& 0xff).toUInt8, ((x >>> 8) &&& 0xff).toUInt8, ((x >>> 16) &&& 0xff).toUInt8,
    ((x >>> 24) &&& 0xff).toUInt8]

/-- `MD5Transform`, on a block of 64 bytes. -/
def md5Transform (lState : State) (cbBlock : List UInt8) : State :=
  lState.add (lines.foldl (Line.run (decode cbBlock)) lState)

/-! ## The object -/

/-- The size of a block, and of `m_cbBuffer` and `m_cbPadding`. -/
def sizeofBlock : ℕ := 64

structure MD5Aide where
  lCount0 : UInt32
  lCount1 : UInt32
  lState : State
  cbBuffer : Memory
  cbPadding : Memory

namespace MD5Aide

variable (s : MD5Aide)

/-- `MD5Init`, which leaves the buffer as it is. -/
def md5Init : MD5Aide where
  lCount0 := 0
  lCount1 := 0
  lState := ⟨0x67452301, 0xefcdab89, 0x98badcfe, 0x10325476⟩
  cbBuffer := s.cbBuffer
  cbPadding := Function.update (fun _ => 0) 0 0x80

/-- `&pcbInput[i]`, read for `n` bytes. -/
def inputAt (input : List UInt8) (i n : ℕ) : Option (List UInt8) :=
  if i + n ≤ input.length then some ((input.drop i).take n) else none

/-- The loop of `MD5Update` over the whole blocks of the input, from index
`i` on: where it stops, and the words. It does not stop on the last unit of
fuel. -/
def transformBlocks (input : List UInt8) :
    ℕ → UInt32 → State → Option (UInt32 × State)
  | 0, _, _ => none
  | fuel + 1, i, lState =>
      if i + 63 < UInt32.ofNat input.length then
        (inputAt input i.toNat sizeofBlock).bind fun cbBlock =>
          transformBlocks input fuel (i + 64) (md5Transform lState cbBlock)
      else some (i, lState)

/-- `MD5Memcpy` into the buffer, from an index of the input on. -/
def bufferInput (cbBuffer : Memory) (input : List UInt8) (nIndex i nLen : UInt32) :
    Option Memory :=
  (inputAt input i.toNat nLen.toNat).bind fun bytes =>
    cbBuffer.writeIn sizeofBlock nIndex.toNat bytes

def md5Update (input : List UInt8) : Option MD5Aide :=
  let inputLen := UInt32.ofNat input.length
  let nIndex := (s.lCount0 >>> 3) &&& 0x3F
  let lCount0 := s.lCount0 + inputLen <<< 3
  let lCount1 := if lCount0 < inputLen <<< 3 then s.lCount1 + 1 else s.lCount1
  let s := { s with lCount0 := lCount0, lCount1 := lCount1 + inputLen >>> 29 }
  let nPartLen := 64 - nIndex
  if nPartLen ≤ inputLen then
    (bufferInput s.cbBuffer input nIndex 0 nPartLen).bind fun cbBuffer =>
      let lState := md5Transform s.lState (cbBuffer.read 0 sizeofBlock)
      (transformBlocks input (input.length + 1) nPartLen lState).bind fun r =>
        (bufferInput cbBuffer input 0 r.1 (inputLen - r.1)).map fun cbBuffer =>
          { s with cbBuffer := cbBuffer, lState := r.2 }
  else
    (bufferInput s.cbBuffer input nIndex 0 inputLen).map fun cbBuffer =>
      { s with cbBuffer := cbBuffer }

/-- `MD5Final`: the digest, and the object behind it. -/
def md5Final : Option (List UInt8 × MD5Aide) :=
  let cbBits := encode s.lCount0 ++ encode s.lCount1
  let nIndex := (s.lCount0 >>> 3) &&& 0x3f
  let nPartLen := if nIndex < 56 then 56 - nIndex else 120 - nIndex
  (s.cbPadding.readIn sizeofBlock 0 nPartLen.toNat).bind fun padding =>
    (s.md5Update padding).bind fun s =>
      (s.md5Update cbBits).map fun s =>
        let digest := encode s.lState.a ++ encode s.lState.b ++ encode s.lState.c ++
          encode s.lState.d
        (digest, { s with cbBuffer := fun _ => 0 }.md5Init)

/-- The pieces of a string, and the end of it. -/
def hash (pieces : List (List UInt8)) : Option (List UInt8 × MD5Aide) :=
  (pieces.foldlM md5Update s).bind md5Final

/-- One string after the other. -/
def hashAll : MD5Aide → List (List (List UInt8)) → Option (List (List UInt8))
  | _, [] => some []
  | s, pieces :: strings =>
      (s.hash pieces).bind fun (digest, s) => (hashAll s strings).map (digest :: ·)

end MD5Aide

end GameServer.ServiceCore
