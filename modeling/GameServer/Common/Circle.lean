import Mathlib.Algebra.Group.Fin.Basic
import Mathlib.Data.Fintype.Card
import Mathlib.Data.List.Rotate
import Mathlib.Tactic.Abel
/-!
# Turns around a table

The seats of a table in turn order from behind a player (`seats`), and a
round over those who take part (`round`). Who comes after the `k`-th of a
round is the next one, and after the last one the first: `find_next`.
-/

namespace GameServer

variable {n : ℕ} [NeZero n] {holds : Fin n → Bool} {p : Fin n}

/-- The seats after `p` in turn order, `p` last. -/
def seats (p : Fin n) : List (Fin n) := (List.range n).map fun k => p + 1 + Fin.ofNat n k

/-- Those after `p` who take part, in turn order. -/
def round (holds : Fin n → Bool) (p : Fin n) : List (Fin n) := (seats p).filter holds

@[simp] theorem length_seats (p : Fin n) : (seats p).length = n := by simp [seats]

theorem getElem_seats {k : ℕ} (hk : k < (seats p).length) :
    (seats p)[k] = p + 1 + Fin.ofNat n k := by simp [seats]

theorem ofNat_mod_add (i j : ℕ) : Fin.ofNat n ((i + j) % n) = Fin.ofNat n i + Fin.ofNat n j := by
  ext
  simp [Fin.val_add]

/-- The seats from behind another player are the same seats, rotated. -/
theorem seats_add (p : Fin n) (j : ℕ) :
    seats (p + 1 + Fin.ofNat n j) = (seats p).rotate (j + 1) := by
  refine List.ext_getElem (by simp) fun i h₁ h₂ => ?_
  have hone : Fin.ofNat n (j + 1) = Fin.ofNat n j + 1 := by
    ext
    simp [Fin.val_add]
  rw [List.getElem_rotate, getElem_seats, getElem_seats, length_seats, ofNat_mod_add, hone]
  abel

theorem nodup_seats (p : Fin n) : (seats p).Nodup := by
  refine List.Nodup.map_on (fun i hi j hj heq => ?_) List.nodup_range
  have := congrArg Fin.val (add_left_cancel heq)
  rwa [Fin.val_ofNat, Fin.val_ofNat, Nat.mod_eq_of_lt (List.mem_range.1 hi),
    Nat.mod_eq_of_lt (List.mem_range.1 hj)] at this

theorem mem_seats (p i : Fin n) : i ∈ seats p := by
  refine List.mem_map.2 ⟨(i - (p + 1)).val, List.mem_range.2 (Fin.isLt _), ?_⟩
  have : Fin.ofNat n (i - (p + 1)).val = i - (p + 1) := by
    simp
  rw [this]
  abel

theorem getLast?_seats (p : Fin n) : (seats p).getLast? = some p := by
  have hpos : 0 < n := Nat.pos_of_neZero n
  have hlast : n - 1 < (seats p).length := by
    rw [length_seats]
    omega
  rw [List.getLast?_eq_getElem?, length_seats, List.getElem?_eq_getElem hlast, getElem_seats]
  have hone : Fin.ofNat n (n - 1) + 1 = 0 := by
    ext
    simp [Fin.val_add, Nat.sub_add_cancel hpos]
  rw [add_assoc, add_comm 1, hone, add_zero]

/-! ## Rounds -/

theorem mem_round {i : Fin n} : i ∈ round holds p ↔ holds i = true := by
  rw [round, List.mem_filter]
  exact and_iff_right (mem_seats p i)

theorem nodup_round (holds : Fin n → Bool) (p : Fin n) : (round holds p).Nodup :=
  (nodup_seats p).filter _

/-- A round has as many turns as there are players who take part. -/
theorem length_round (holds : Fin n → Bool) (p : Fin n) :
    (round holds p).length = (List.finRange n).countP holds := by
  have hperm : (seats p).Perm (List.finRange n) :=
    (List.perm_ext_iff_of_nodup (nodup_seats p) (List.nodup_finRange n)).2
      fun i => iff_of_true (mem_seats p i) (List.mem_finRange i)
  rw [round, ← List.countP_eq_length_filter, hperm.countP_eq]

theorem getLast?_round (hp : holds p = true) : (round holds p).getLast? = some p := by
  obtain ⟨front, hfront⟩ : ∃ front, seats p = front ++ [p] :=
    List.getLast?_eq_some_iff.1 (getLast?_seats p)
  rw [round, hfront, List.filter_append, List.filter_cons_of_pos hp, List.filter_nil,
    List.getLast?_concat]

theorem split_filter {α : Type*} {f : α → Bool} : ∀ {l : List α} {k : ℕ}
    (hk : k < (l.filter f).length), ∃ front back, l = front ++ (l.filter f)[k] :: back ∧
      front.filter f = (l.filter f).take k ∧ back.filter f = (l.filter f).drop (k + 1)
  | [], k, hk => absurd hk (Nat.not_lt_zero k)
  | a :: l, k, hk => by
    by_cases ha : f a = true
    · simp only [List.filter_cons_of_pos ha] at hk ⊢
      match k with
      | 0 => exact ⟨[], l, rfl, rfl, rfl⟩
      | k + 1 =>
        obtain ⟨front, back, hl, hf, hb⟩ := split_filter (Nat.lt_of_succ_lt_succ hk)
        refine ⟨a :: front, back, ?_, ?_, hb⟩
        · rw [List.cons_append, List.getElem_cons_succ, ← hl]
        · rw [List.filter_cons_of_pos ha, hf, List.take_succ_cons]
    · simp only [List.filter_cons_of_neg ha] at hk ⊢
      obtain ⟨front, back, hl, hf, hb⟩ := split_filter hk
      refine ⟨a :: front, back, ?_, ?_, hb⟩
      · rw [List.cons_append, ← hl]
      · rw [List.filter_cons_of_neg ha, hf]

/-- **The round after the `k`-th of a round** is the same round, rotated. -/
theorem round_getElem {k : ℕ} (hk : k < (round holds p).length) :
    round holds (round holds p)[k] = (round holds p).rotate (k + 1) := by
  obtain ⟨front, back, hseats, hfront, hback⟩ := split_filter hk
  have hlen : front.length < (seats p).length := by
    rw [hseats, List.length_append, List.length_cons]
    omega
  have hat : (seats p)[front.length] = (round holds p)[k] := by
    have hget : (seats p)[front.length]? = some (round holds p)[k] := by
      conv_lhs => rw [hseats]
      rw [List.getElem?_append_right le_rfl, Nat.sub_self, List.getElem?_cons_zero]
      rfl
    exact (List.getElem_eq_iff hlen).2 hget
  have hrotated : seats (round holds p)[k] = back ++ front ++ [(round holds p)[k]] := by
    calc seats (round holds p)[k] = (seats p).rotate (front.length + 1) := by
          rw [← seats_add, ← hat, getElem_seats]
      _ = (seats p).drop (front.length + 1) ++ (seats p).take (front.length + 1) :=
          List.rotate_eq_drop_append_take hlen
      _ = back ++ front ++ [(round holds p)[k]] := by
          rw [hseats]
          rw [List.drop_append, List.take_append, List.drop_eq_nil_of_le (Nat.le_succ _),
            List.take_of_length_le (Nat.le_succ _), Nat.add_sub_cancel_left, List.nil_append,
            List.append_assoc]
          rfl
  have hholds : holds (round holds p)[k] = true := mem_round.1 (List.getElem_mem hk)
  have hlast : (round holds p).take k ++ [(round holds p)[k]] = (round holds p).take (k + 1) :=
    List.take_concat_get' _ k hk
  calc round holds (round holds p)[k]
      = back.filter holds ++ front.filter holds ++ [(round holds p)[k]] := by
        rw [round, hrotated, List.filter_append, List.filter_append, List.filter_cons_of_pos hholds,
          List.filter_nil]
    _ = (round holds p).drop (k + 1) ++ (round holds p).take (k + 1) := by
        rw [hfront, hback, List.append_assoc]
        exact congrArg _ hlast
    _ = (round holds p).rotate (k + 1) := (List.rotate_eq_drop_append_take hk).symm

/-- **Who comes next**: after the `k`-th of a round the next one, and after
the last one the first. -/
theorem find_next {k : ℕ} (hk : k < (round holds p).length) :
    (seats (round holds p)[k]).find? holds =
      (round holds p)[(k + 1) % (round holds p).length]? := by
  rw [← List.head?_filter, ← round, round_getElem hk, ← List.rotate_mod,
    List.head?_rotate (Nat.mod_lt _ (by omega))]

end GameServer
