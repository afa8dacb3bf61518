import Mathlib.Data.List.AList
import Mathlib.Data.List.Perm.Basic
/-!
# Pooled items and maps to them

Items are made once and then handed out again and again: an address is in
use or in the free list (`Pool.Holds`), and what is handed out is an
address that nobody uses. A map from keys to addresses is the usual owner
of the addresses in use.
-/

namespace GameServer

variable {α κ ν : Type*}

/-! ## Maps -/

/-- A map under distinct keys. -/
abbrev Map (κ ν : Type*) := AList fun _ : κ => ν

namespace Map

def values (m : Map κ ν) : List ν := m.entries.map (·.2)

theorem values_empty : (∅ : Map κ ν).values = [] := rfl

def mapValues {μ : Type*} (m : Map κ ν) (f : ν → μ) : Map κ μ where
  entries := m.entries.map (.map id fun _ => f)
  nodupKeys := m.nodupKeys.map₂ fun _ => f

variable [DecidableEq κ] {m : Map κ ν} {k k' : κ} {v v' : ν}

theorem lookup_mapValues {μ : Type*} (m : Map κ ν) (f : ν → μ) (k : κ) :
    (Map.mapValues m f).lookup k = (m.lookup k).map f :=
  List.dlookup_map₂ k

theorem mem_values : v ∈ m.values ↔ ∃ k, m.lookup k = some v := by
  simp only [values, List.mem_map]
  constructor
  · rintro ⟨⟨k, v⟩, he, rfl⟩
    exact ⟨k, AList.mem_lookup_iff.2 he⟩
  · rintro ⟨k, hk⟩
    exact ⟨⟨k, v⟩, AList.mem_lookup_iff.1 hk, rfl⟩

theorem mem_values_of_lookup (h : m.lookup k = some v) : v ∈ m.values := mem_values.2 ⟨k, h⟩

theorem values_insert (h : m.lookup k = none) : Map.values (m.insert k v) = v :: m.values := by
  rw [values, AList.entries_insert_of_notMem (AList.lookup_eq_none.1 h)]
  rfl

theorem values_erase (h : m.lookup k = some v) : m.values.Perm (v :: Map.values (m.erase k)) := by
  have hmem : Sigma.mk k v ∈ m.entries := AList.mem_lookup_iff.1 h
  obtain ⟨v', l₁, l₂, -, hentries, herase⟩ := List.exists_of_kerase (List.mem_keys_of_mem hmem)
  have hv : v' = v := by
    have hv' : Sigma.mk k v' ∈ m.entries := by rw [hentries]; simp
    exact List.NodupKeys.eq_of_mk_mem m.nodupKeys hv' hmem
  rw [values, values, show (m.erase k).entries = l₁ ++ l₂ from herase, hentries, hv]
  simp only [List.map_append, List.map_cons]
  exact List.perm_middle

theorem lookup_erase_eq_some (h : (m.erase k).lookup k' = some v) :
    k' ≠ k ∧ m.lookup k' = some v := by
  by_cases hk : k' = k
  · rw [hk, AList.lookup_erase] at h
    cases h
  · rw [AList.lookup_erase_ne hk] at h
    exact ⟨hk, h⟩

theorem lookup_insert_eq_some (h : (m.insert k v).lookup k' = some v') :
    (k' = k ∧ v' = v) ∨ (k' ≠ k ∧ m.lookup k' = some v') := by
  by_cases hk : k' = k
  · rw [hk, AList.lookup_insert] at h
    exact .inl ⟨hk, (Option.some.inj h).symm⟩
  · rw [AList.lookup_insert_ne hk] at h
    exact .inr ⟨hk, h⟩

theorem key_unique (h : m.values.Nodup) (hk : m.lookup k = some v) (hk' : m.lookup k' = some v) :
    k = k' := by
  by_contra hne
  have hperm := values_erase hk
  have hnot := (List.nodup_cons.1 (hperm.nodup_iff.1 h)).1
  exact hnot (mem_values_of_lookup (k := k') (by rwa [AList.lookup_erase_ne (Ne.symm hne)]))

end Map

/-! ## Pools -/

/-- Items by address, how many were made, and the free list. -/
structure Pool (α : Type*) where
  cells : ℕ → α
  size : ℕ := 0
  free : List ℕ := []

namespace Pool

/-- An address for a new item: the first of the free list as it was left
there, or one that is made. -/
def create (p : Pool α) (new : α) : ℕ × Pool α :=
  match p.free with
  | a :: free => (a, { p with free })
  | [] => (p.size, { p with cells := Function.update p.cells p.size new, size := p.size + 1 })

def modify (p : Pool α) (a : ℕ) (f : α → α) : Pool α :=
  { p with cells := Function.update p.cells a (f (p.cells a)) }

/-- The item goes to the free list. -/
def release (p : Pool α) (a : ℕ) (clear : α → α) : Pool α :=
  { p.modify a clear with free := a :: p.free }

/-- Every item made is in use or in the free list, once. -/
def Holds (p : Pool α) (used : List ℕ) : Prop := (used ++ p.free).Perm (List.range p.size)

variable {p : Pool α} {used : List ℕ} {a b : ℕ} {new : α} {f : α → α}

@[simp] theorem modify_cells_self : (p.modify a f).cells a = f (p.cells a) :=
  Function.update_self ..

theorem modify_cells_of_ne (h : b ≠ a) : (p.modify a f).cells b = p.cells b :=
  Function.update_of_ne h ..

@[simp] theorem release_cells_self : (p.release a f).cells a = f (p.cells a) :=
  modify_cells_self

theorem release_cells_of_ne (h : b ≠ a) : (p.release a f).cells b = p.cells b :=
  modify_cells_of_ne h

section

variable (h : p.Holds used)
include h

theorem Holds.nodup : (used ++ p.free).Nodup :=
  h.nodup_iff.2 List.nodup_range

theorem Holds.nodup_used : used.Nodup := (List.nodup_append.1 h.nodup).1

theorem Holds.not_free (ha : a ∈ used) : a ∉ p.free := fun hf =>
  (List.nodup_append.1 h.nodup).2.2 a ha a hf rfl

theorem Holds.lt_size (ha : a ∈ used) : a < p.size :=
  List.mem_range.1 (h.mem_iff.1 (List.mem_append_left _ ha))

theorem Holds.perm {used' : List ℕ} (hp : used.Perm used') : p.Holds used' :=
  (hp.symm.append_right p.free).trans h

theorem Holds.modify : (p.modify a f).Holds used := h

theorem Holds.create_not_used (new : α) : (p.create new).1 ∉ used := by
  intro hmem
  rw [create] at hmem
  split at hmem
  · rename_i a free hfree
    exact h.not_free hmem (by rw [hfree]; exact List.mem_cons_self)
  · exact Nat.lt_irrefl _ (h.lt_size hmem)

theorem Holds.create : (p.create new).2.Holds ((p.create new).1 :: used) := by
  rw [Pool.create]
  cases hfree : p.free with
  | nil =>
    show (p.size :: used ++ []).Perm (List.range (p.size + 1))
    have hused : (used ++ []).Perm (List.range p.size) := by rw [← hfree]; exact h
    rw [List.range_succ, List.cons_append]
    exact (List.Perm.cons _ hused).trans (List.perm_append_singleton _ _).symm
  | cons a free =>
    refine List.Perm.trans ?_ h
    rw [hfree]
    exact List.perm_middle.symm

theorem Holds.create_cells (ha : a ∈ used) : (p.create new).2.cells a = p.cells a := by
  rw [Pool.create]
  cases p.free with
  | nil => exact Function.update_of_ne (Nat.ne_of_lt (h.lt_size ha)) _ _
  | cons b free => rfl

end

theorem Holds.release (h : p.Holds (a :: used)) : (p.release a f).Holds used :=
  List.Perm.trans List.perm_middle h

end Pool

end GameServer
