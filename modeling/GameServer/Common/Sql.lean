import Mathlib.Data.List.AList
import Mathlib.Algebra.BigOperators.Group.List.Basic
/-!
# SQL values and tables

A value that may be `NULL` is an option: a comparison with `NULL` on a side
is not true, and `SELECT @v=…` without a row leaves the variable alone. A
table is a list of rows under distinct keys; an `UPDATE` that fails on the
row it would change is terminated and changes nothing.
-/

namespace GameServer.Sql

variable {α κ ρ : Type*} {M : Type*}

/-! ## Values -/

/-- `IF @a<@b`. -/
def lt [LT α] [DecidableLT α] : Option α → Option α → Bool
  | some a, some b => decide (a < b)
  | _, _ => false

/-- `IF @a<>@b`. -/
def ne [DecidableEq α] : Option α → Option α → Bool
  | some a, some b => decide (a ≠ b)
  | _, _ => false

/-- `SELECT @v=column`, of the row if there is one. -/
def assign (v : Option α) (row : Option (Option α)) : Option α := row.getD v

/-! ## Tables -/

variable [DecidableEq κ]

abbrev Table (κ ρ : Type*) := AList fun _ : κ => ρ

namespace Table

/-- `UPDATE … WHERE key=k`, terminated when the new row cannot be
computed. -/
def update (t : Table κ ρ) (k : κ) (f : ρ → Option ρ) : Table κ ρ :=
  match (t.lookup k).bind f with
  | some r => t.insert k r
  | none => t

/-- `INSERT` of a row under a new key. -/
def insertNew (t : Table κ ρ) (k : κ) (r : ρ) : Table κ ρ :=
  if k ∈ t then t else t.insert k r

/-- `DELETE … WHERE key=k AND c`. -/
def deleteWhere (t : Table κ ρ) (k : κ) (c : ρ → Bool) : Table κ ρ :=
  if (t.lookup k).any c then t.erase k else t

/-- The sum of a column, or of some of them. -/
def total [AddMonoid M] (w : ρ → M) (t : Table κ ρ) : M := (t.entries.map fun e => w e.2).sum

variable {t : Table κ ρ} {k k' : κ} {r r' : ρ} {f : ρ → Option ρ}

theorem update_eq (hk : t.lookup k = some r) (hf : f r = some r') : t.update k f = t.insert k r' := by
  rw [update, hk, Option.bind_some, hf]

theorem update_of_none (hk : t.lookup k = some r) (hf : f r = none) : t.update k f = t := by
  rw [update, hk, Option.bind_some, hf]

theorem lookup_update_of_ne (h : k' ≠ k) : (t.update k f).lookup k' = t.lookup k' := by
  rw [update]
  split
  · exact AList.lookup_insert_ne h
  · rfl

theorem lookup_deleteWhere_of_ne {c : ρ → Bool} (h : k' ≠ k) :
    (t.deleteWhere k c).lookup k' = t.lookup k' := by
  rw [deleteWhere]
  split
  · exact AList.lookup_erase_ne h
  · rfl

/-- A deletion leaves the row it does not match. -/
theorem lookup_deleteWhere_eq_some {c : ρ → Bool} :
    (t.deleteWhere k c).lookup k = some r ↔ t.lookup k = some r ∧ c r = false := by
  rw [deleteWhere]
  cases h : t.lookup k with
  | none => simp [h]
  | some r₀ =>
    cases hc : c r₀ with
    | true =>
      rw [Option.any_some, if_pos hc, AList.lookup_erase]
      simp only [reduceCtorEq, false_iff, not_and, Option.some.injEq]
      rintro rfl
      simp [hc]
    | false =>
      rw [Option.any_some, if_neg (by simp [hc]), h]
      simp only [Option.some.injEq]
      exact ⟨fun hr => ⟨hr, hr ▸ hc⟩, fun hr => hr.1⟩

theorem insertNew_eq (h : t.lookup k = none) : t.insertNew k r = t.insert k r := by
  rw [insertNew, if_neg (AList.lookup_eq_none.1 h)]

section Total

variable [AddCommMonoid M] {w : ρ → M}

theorem total_insert_of_none (h : t.lookup k = none) :
    total w (t.insert k r) = w r + total w t := by
  rw [total, AList.entries_insert_of_notMem (AList.lookup_eq_none.1 h), List.map_cons,
    List.sum_cons]
  rfl

theorem total_erase (h : t.lookup k = some r) : total w t = w r + total w (t.erase k) := by
  have hmem : Sigma.mk k r ∈ t.entries := AList.mem_lookup_iff.1 h
  obtain ⟨r', l₁, l₂, hnot, hentries, herase⟩ :=
    List.exists_of_kerase (List.mem_keys_of_mem hmem)
  have hr : r' = r := by
    have hr' : Sigma.mk k r' ∈ t.entries := by rw [hentries]; simp
    exact List.NodupKeys.eq_of_mk_mem t.nodupKeys hr' hmem
  rw [total, total, show (t.erase k).entries = l₁ ++ l₂ from herase, hentries, hr]
  simp only [List.map_append, List.map_cons, List.sum_append, List.sum_cons]
  exact add_left_comm _ _ _

theorem total_insert (r' : ρ) (h : t.lookup k = some r) :
    total w (t.insert k r') + w r = total w t + w r' := by
  have herase : total w (t.insert k r') = w r' + total w (t.erase k) := by
    rfl
  rw [herase, total_erase h, add_right_comm, add_comm (w r') (w r), add_right_comm]

end Total

/-- An update that changes the weight of the row by `d` changes the sum
by `d`. -/
theorem total_update [AddCommGroup M] {w : ρ → M} {d : M} (hk : t.lookup k = some r)
    (hf : f r = some r') (hw : w r' = w r + d) : total w (t.update k f) = total w t + d := by
  rw [update_eq hk hf]
  have h := total_insert (w := w) r' hk
  rw [hw] at h
  exact add_right_cancel (h.trans (by rw [add_comm (w r) d, add_assoc]))

theorem lookup_update (hk : t.lookup k = some r) (hf : f r = some r') :
    (t.update k f).lookup k = some r' := by
  rw [update_eq hk hf]
  exact AList.lookup_insert _

end Table

end GameServer.Sql
