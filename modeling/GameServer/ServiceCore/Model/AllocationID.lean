import Mathlib.Data.List.Range
/-!
# ServiceCore — the allocator of numbers

`YSAllocationID` hands out the numbers from 1 to 9999 in a random order,
each to one holder at a time. What comes back is queued behind the rest.
-/

namespace GameServer.ServiceCore

def defaultMaxSize : ℕ := 10000

/-- An order in which `ReAllocate` may draw the numbers. -/
def Shuffle : Type := { order : List ℕ // order.Perm (List.range' 1 (defaultMaxSize - 1)) }

/-- `YSAllocationID`. The map tells which numbers are not in use, and these
wait in the queue. -/
structure AllocationID where
  allocationIDQueue : List ℕ
  allocationIDMap : ℕ → Option Bool
  nodup : allocationIDQueue.Nodup
  mem_iff : ∀ n, n ∈ allocationIDQueue ↔ allocationIDMap n = some true
  range : ∀ n, (allocationIDMap n).isSome ↔ 1 ≤ n ∧ n < defaultMaxSize

namespace AllocationID

def reAllocate (order : Shuffle) : AllocationID where
  allocationIDQueue := order.1
  allocationIDMap n := if 1 ≤ n ∧ n < defaultMaxSize then some true else none
  nodup := order.2.nodup_iff.2 List.nodup_range'
  mem_iff n := by
    have hmax : 1 + (defaultMaxSize - 1) = defaultMaxSize := rfl
    rw [order.2.mem_iff, List.mem_range'_1, hmax]
    split <;> simp_all
  range n := by split <;> simp_all

def take (a : AllocationID) (n : ℕ) (rest : List ℕ) (h : a.allocationIDQueue = n :: rest) :
    AllocationID where
  allocationIDQueue := rest
  allocationIDMap := Function.update a.allocationIDMap n (some false)
  nodup := (List.nodup_cons.1 (h ▸ a.nodup)).2
  mem_iff k := by
    have hn := (List.nodup_cons.1 (h ▸ a.nodup)).1
    by_cases hk : k = n
    · rw [hk, Function.update_self]
      exact ⟨fun hmem => absurd hmem hn, nofun⟩
    · rw [Function.update_of_ne hk, ← a.mem_iff, h, List.mem_cons]
      exact ⟨.inr, fun hmem => hmem.resolve_left hk⟩
  range k := by
    by_cases hk : k = n
    · have hmem : n ∈ a.allocationIDQueue := h ▸ List.mem_cons_self
      rw [hk, Function.update_self, ← a.range, (a.mem_iff n).1 hmem]
      exact Iff.rfl
    · rw [Function.update_of_ne hk, a.range]

/-- `PopValue`. The number 0 stands for none. -/
def popValue (a : AllocationID) : ℕ × AllocationID :=
  match h : a.allocationIDQueue with
  | [] => (0, a)
  | n :: rest => (n, a.take n rest h)

def giveBack (a : AllocationID) (n : ℕ) (h : a.allocationIDMap n = some false) : AllocationID where
  allocationIDQueue := a.allocationIDQueue ++ [n]
  allocationIDMap := Function.update a.allocationIDMap n (some true)
  nodup := by
    have hn : n ∉ a.allocationIDQueue := by
      rw [a.mem_iff, h]
      nofun
    refine List.nodup_append.2 ⟨a.nodup, by simp, fun k hk k' hk' heq => hn ?_⟩
    rwa [← List.mem_singleton.1 hk', ← heq]
  mem_iff k := by
    by_cases hk : k = n
    · simp [hk]
    · simp [hk, a.mem_iff]
  range k := by
    by_cases hk : k = n
    · rw [hk, Function.update_self, ← a.range, h]
      exact Iff.rfl
    · rw [Function.update_of_ne hk, a.range]

/-- `PushValue`. A number that is unknown or not in use is ignored. -/
def pushValue (a : AllocationID) (n : ℕ) : AllocationID :=
  if h : a.allocationIDMap n = some false then a.giveBack n h else a

variable {a : AllocationID}

theorem popValue_of_ne (h : a.allocationIDQueue ≠ []) :
    a.allocationIDMap a.popValue.1 = some true ∧
      a.popValue.2.allocationIDMap = Function.update a.allocationIDMap a.popValue.1 (some false) := by
  rw [popValue]
  split
  · rename_i hnil
    exact absurd hnil h
  · rename_i n rest hcons
    have hmem : n ∈ a.allocationIDQueue := hcons ▸ List.mem_cons_self
    exact ⟨(a.mem_iff n).1 hmem, rfl⟩

theorem pushValue_of_used {n : ℕ} (h : a.allocationIDMap n = some false) :
    (a.pushValue n).allocationIDMap = Function.update a.allocationIDMap n (some true) := by
  rw [pushValue, dif_pos h]
  rfl

theorem lt_of_map {n : ℕ} {unused : Bool} (h : a.allocationIDMap n = some unused) :
    1 ≤ n ∧ n < defaultMaxSize :=
  (a.range n).1 (by rw [h]; rfl)

end AllocationID

end GameServer.ServiceCore
