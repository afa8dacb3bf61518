import GameServer.DouDizhu.Model.GameLogic
import GameServer.GuanDan.Model.GameLogic
import GameServer.TexasHoldem.Model.GameLogic
/-!
# The games — the shuffles

`RandCardList` and `RandCardData` draw from a copy of the deck into the
buffer and put the last card that is left in the gap. The arrays are
lists; an index outside one of them, or a division by zero, is a fault.
-/

namespace GameServer

/-- One round of the loops. The random value is taken modulo `modulus`, and
`total` counts the cards the loop draws from. -/
def drawCard (modulus total rand cbRandCount : ℕ) (cbCardData cbCardBuffer : List UInt8) :
    Option (List UInt8 × List UInt8) :=
  if modulus = 0 ∨ cbCardBuffer.length ≤ cbRandCount ∨ total ≤ cbRandCount then none
  else do
    let cbPosition := rand % modulus % 2 ^ 8
    let card ← cbCardData[cbPosition]?
    let last ← cbCardData[total - (cbRandCount + 1)]?
    return (cbCardData.set cbPosition last, cbCardBuffer.set cbRandCount card)

/-- The rounds of a loop; `rand k` is what `rand` gives round `k`. -/
def drawCards (modulus : ℕ → ℕ) (total : ℕ) (rand : ℕ → ℕ) :
    ℕ → ℕ → List UInt8 → List UInt8 → Option (List UInt8)
  | 0, _, _, cbCardBuffer => some cbCardBuffer
  | rounds + 1, cbRandCount, cbCardData, cbCardBuffer => do
      let r ← drawCard (modulus cbRandCount) total (rand cbRandCount) cbRandCount cbCardData
        cbCardBuffer
      drawCards modulus total rand rounds (cbRandCount + 1) r.1 r.2

/-- The loop of three of the games: it draws from as many cards as the
buffer takes, at least once. -/
def drawAll (cbCardData : List UInt8) (rand : ℕ → ℕ) (cbCardBuffer : List UInt8)
    (cbBufferCount : ℕ) : Option (List UInt8) :=
  drawCards (cbBufferCount - ·) cbBufferCount rand (max cbBufferCount 1) 0 cbCardData cbCardBuffer

def DouDizhu.fillCardBuffer (rand : ℕ → ℕ) (cbCardBuffer : List UInt8) (cbBufferCount : ℕ) :
    Option (List UInt8) :=
  drawAll DouDizhu.cardData rand cbCardBuffer cbBufferCount

def GuanDan.fillCardBuffer (rand : ℕ → ℕ) (cbCardBuffer : List UInt8) (cbBufferCount : ℕ) :
    Option (List UInt8) :=
  drawAll GuanDan.cardData rand cbCardBuffer cbBufferCount

namespace HongZhongMahjong

def maxRepertory : ℕ := 108

def maxRepertoryHZ : ℕ := 112

/-- One suit: its nine tiles four times over. -/
def suit (tiles : List UInt8) : List UInt8 := tiles ++ tiles ++ tiles ++ tiles

def cardDataArray : List UInt8 :=
  suit [0x01, 0x02, 0x03, 0x04, 0x05, 0x06, 0x07, 0x08, 0x09] ++
    suit [0x11, 0x12, 0x13, 0x14, 0x15, 0x16, 0x17, 0x18, 0x19] ++
    suit [0x21, 0x22, 0x23, 0x24, 0x25, 0x26, 0x27, 0x28, 0x29]

def cardDataArrayHZ : List UInt8 := cardDataArray ++ [0x35, 0x35, 0x35, 0x35]

def randCardData (rand : ℕ → ℕ) (cbCardData : List UInt8) (cbMaxCount : ℕ) :
    Option (List UInt8) :=
  if cbMaxCount = maxRepertory then drawAll cardDataArray rand cbCardData cbMaxCount
  else if cbMaxCount = maxRepertoryHZ then drawAll cardDataArrayHZ rand cbCardData cbMaxCount
  else some cbCardData

end HongZhongMahjong

namespace TexasHoldem

/-- `RandCardList`: it draws from the whole deck. -/
def randCardList (rand : ℕ → ℕ) (cbCardBuffer : List UInt8) (cbBufferCount : ℕ) :
    Option (List UInt8) :=
  drawCards (fun cbRandCount => max (cardData.length - cbRandCount) 1) cardData.length rand
    (max cbBufferCount 1) 0 cardData cbCardBuffer

end TexasHoldem

end GameServer
