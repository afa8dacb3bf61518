import Mathlib.Data.List.GetD
import Mathlib.Data.List.Perm.Basic
import Mathlib.Order.Lattice
/-!
# Lists that are spread

Every second entry of a list, and then the others (`spread`). Of a list
sorted by a key that has no five entries of one key in a row, the result
has no three (`spread_no_three`).
-/

namespace GameServer

variable {α κ : Type*}

def evens : List α → List α
  | [] => []
  | [a] => [a]
  | a :: _ :: l => a :: evens l

/-- The entries at odd places. -/
def odds : List α → List α
  | [] => []
  | [_] => []
  | _ :: b :: l => b :: odds l

/-- The entries at odd places, then those at even places. -/
def spread (l : List α) : List α := odds l ++ evens l

theorem spread_perm : ∀ l : List α, (spread l).Perm l
  | [] => .refl _
  | [_] => .refl _
  | a :: b :: l => by
    have hrest : (odds l ++ a :: evens l).Perm (a :: spread l) := List.perm_middle
    exact ((hrest.trans ((spread_perm l).cons a)).cons b).trans (.swap a b l)

@[simp] theorem length_odds : ∀ l : List α, (odds l).length = l.length / 2
  | [] => by simp [odds]
  | [_] => by simp [odds]
  | _ :: _ :: l => by
    rw [odds, List.length_cons, length_odds l, List.length_cons, List.length_cons]
    omega

@[simp] theorem length_spread (l : List α) : (spread l).length = l.length := (spread_perm l).length_eq

theorem getD_odds (d : α) : ∀ (l : List α) (i : ℕ), (odds l).getD i d = l.getD (2 * i + 1) d
  | [], _ => rfl
  | [_], _ => rfl
  | _ :: _ :: _, 0 => rfl
  | _ :: _ :: l, i + 1 => getD_odds d l i

theorem getD_evens (d : α) : ∀ (l : List α) (i : ℕ), (evens l).getD i d = l.getD (2 * i) d
  | [], _ => rfl
  | [_], 0 => rfl
  | [_], _ + 1 => rfl
  | _ :: _ :: _, 0 => rfl
  | _ :: _ :: l, i + 1 => getD_evens d l i

theorem getD_spread (d : α) (l : List α) (i : ℕ) : (spread l).getD i d =
    if i < l.length / 2 then l.getD (2 * i + 1) d else l.getD (2 * (i - l.length / 2)) d := by
  rw [spread]
  split_ifs with h
  · rw [List.getD_append _ _ _ _ (by rw [length_odds]; exact h), getD_odds]
  · rw [List.getD_append_right _ _ _ _ (by rw [length_odds]; omega), length_odds, getD_evens]

variable [LinearOrder κ] {key : α → κ} {l : List α} {d : α}

/-- **No three neighbours of one key** in a spread list, when no five
entries that follow one another are of one key, nor all entries, nor the
first four of five. -/
theorem spread_no_three
    (hsorted : ∀ i j, i ≤ j → j < l.length → key (l.getD i d) ≤ key (l.getD j d))
    (hfive : ∀ i, i + 4 < l.length → key (l.getD i d) ≠ key (l.getD (i + 4) d))
    (hall : key (l.getD 0 d) ≠ key (l.getD (l.length - 1) d))
    (hfour : l.length = 5 → key (l.getD 0 d) ≠ key (l.getD 3 d)) (i : ℕ) (hi : i + 2 < l.length) :
    ¬ (key ((spread l).getD i d) = key ((spread l).getD (i + 1) d) ∧
      key ((spread l).getD i d) = key ((spread l).getD (i + 2) d)) := by
  -- what lies between two entries of one key is of that key
  have hbetween : ∀ i j k, i ≤ j → j ≤ k → k < l.length → key (l.getD i d) = key (l.getD k d) →
      key (l.getD i d) = key (l.getD j d) := fun i j k hij hjk hk h =>
    le_antisymm (hsorted i j hij (by omega)) (le_of_le_of_eq (hsorted j k hjk hk) h.symm)
  have hfar : ∀ i k, i + 4 ≤ k → k < l.length → key (l.getD i d) ≠ key (l.getD k d) :=
    fun i k hik hk h => hfive i (by omega) (hbetween i (i + 4) k (by omega) hik hk h)
  rintro ⟨hone, htwo⟩
  rw [getD_spread, getD_spread] at hone htwo
  by_cases hlast : i + 2 < l.length / 2
  · rw [if_pos (by omega), if_pos hlast] at htwo
    exact hfar _ _ (by omega) (by omega) htwo
  by_cases hfirst : l.length / 2 ≤ i
  · rw [if_neg (by omega), if_neg (by omega)] at htwo
    exact hfar _ _ (by omega) (by omega) htwo
  -- the entry at the end of the first part is of the first entry's key
  have hends : key (l.getD 0 d) = key (l.getD (2 * (l.length / 2) - 1) d) := by
    by_cases hi' : i + 1 < l.length / 2
    · rw [if_pos (by omega), if_pos (by omega)] at hone
      rw [if_pos (by omega), if_neg (by omega)] at htwo
      have h₁ : 2 * (i + 1) + 1 = 2 * (l.length / 2) - 1 := by omega
      have h₂ : 2 * (i + 2 - l.length / 2) = 0 := by omega
      rw [h₁] at hone
      rw [h₂] at htwo
      exact htwo.symm.trans hone
    · rw [if_pos (by omega), if_neg (by omega)] at hone
      have h₁ : 2 * i + 1 = 2 * (l.length / 2) - 1 := by omega
      have h₂ : 2 * (i + 1 - l.length / 2) = 0 := by omega
      rw [h₁, h₂] at hone
      exact hone.symm
  by_cases hshort : l.length = 3
  · have hi0 : i = 0 := by omega
    rw [hi0] at htwo hone
    rw [if_pos (by omega), if_neg (by omega)] at htwo hone
    have h₂ : 2 * (0 + 2 - l.length / 2) = l.length - 1 := by omega
    have h₁ : 2 * (0 + 1 - l.length / 2) = 0 := by omega
    rw [h₂] at htwo
    rw [h₁] at hone
    exact hall (hone.symm.trans htwo)
  · rcases Nat.lt_or_ge l.length 6 with hlt | hge
    · by_cases heven : l.length = 5
      · refine hfour heven ?_
        rwa [show 2 * (l.length / 2) - 1 = 3 by omega] at hends
      · refine hall ?_
        rwa [show 2 * (l.length / 2) - 1 = l.length - 1 by omega] at hends
    · exact hfar 0 _ (by omega) (by omega) hends

end GameServer
