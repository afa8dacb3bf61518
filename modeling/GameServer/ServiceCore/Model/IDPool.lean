import GameServer.Common.Pool
import GameServer.Common.Run
/-!
# ServiceCore — the allocator at any size

`YSAllocationID` as it stands, with the calls no caller makes: it is made
for any size, and `ReAllocate` makes it larger by drawing all the numbers
anew.
-/

namespace GameServer.ServiceCore

/-- `YSAllocationID`. The map tells which numbers are free. -/
structure IDPool where
  allocationIDQueue : List ℤ := []
  allocationIDMap : Map ℤ Bool := ∅

namespace IDPool

def numbers (nMaxSize : ℤ) : List ℤ := (List.range' 1 (nMaxSize - 1).toNat).map (↑)

/-- The loop of `ReAllocate`: a number is drawn from those that are left and
erased there. `rand k` is what `rand` gives with `k` of them to follow. -/
def drawIDs (rand : ℕ → ℕ) : ℕ → List ℤ → IDPool → Option IDPool
  | 0, _, s => some s
  | rounds + 1, allocationIDVec, s => do
      let nVecIndex := rand rounds % allocationIDVec.length
      let nRandValue ← allocationIDVec[nVecIndex]?
      drawIDs rand rounds (allocationIDVec.eraseIdx nVecIndex)
        { allocationIDQueue := s.allocationIDQueue ++ [nRandValue]
          allocationIDMap := s.allocationIDMap.insert nRandValue true }

def size (s : IDPool) : ℤ := s.allocationIDMap.keys.length

/-- The pool becomes larger, or stays as it is. -/
def reAllocate (s : IDPool) (nMaxSize : ℤ) (rand : ℕ → ℕ) : Option IDPool :=
  if nMaxSize ≤ s.size + 1 then some s
  else drawIDs rand (nMaxSize - 1).toNat (numbers nMaxSize) {}

/-- The mark of a number in the map changes, where it has one. -/
def mark (s : IDPool) (nID : ℤ) (free : Bool) : Map ℤ Bool :=
  if (s.allocationIDMap.lookup nID).isSome then s.allocationIDMap.insert nID free
  else s.allocationIDMap

/-- The number 0 stands for none. -/
def popValue (s : IDPool) : ℤ × IDPool :=
  match s.allocationIDQueue with
  | [] => (0, s)
  | nRet :: rest => (nRet, { allocationIDQueue := rest, allocationIDMap := s.mark nRet false })

/-- A number that is unknown or free is ignored. -/
def pushValue (s : IDPool) (nID : ℤ) : IDPool :=
  if s.allocationIDMap.lookup nID = some false then
    { allocationIDQueue := s.allocationIDQueue ++ [nID], allocationIDMap := s.mark nID true }
  else s

inductive Call
  | popValue
  | pushValue (nID : ℤ)
  | reAllocate (nMaxSize : ℤ) (rand : ℕ → ℕ)

/-- What the callers see of a call. -/
inductive Record
  | popped (nID : ℤ)
  | pushed (nID : ℤ)
  | sized (nMaxSize : ℤ)
  deriving DecidableEq

/-- A call. The constructor is a `ReAllocate` of the empty pool. -/
def step : Machine IDPool Call Record
  | s, .popValue => some (s.popValue.2, [.popped s.popValue.1])
  | s, .pushValue nID => some (s.pushValue nID, [.pushed nID])
  | s, .reAllocate nMaxSize rand =>
      (s.reAllocate nMaxSize rand).map fun s' => (s', [.sized nMaxSize])

end IDPool

end GameServer.ServiceCore
