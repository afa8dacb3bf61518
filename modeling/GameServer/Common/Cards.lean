import Mathlib.Algebra.BigOperators.Fin
/-!
# Cards taken out of an array

A shuffle that draws from an array and fills the gap with its last entry
(`shuffle_perm`), and the removal of cards that blanks one equal entry for
each card before it closes the gaps. When no card is the blank itself,
what is left and what was removed make up the array
(`removeMarked_perm`). A card that is the blank is found in every gap, so
it is removed without having been there (`removeMarked_isSome_iff`).
What one owner gives away is what the owners have less (`sum_taken_from`),
and the slices a deck is dealt in make it up (`sum_slices`).
-/

namespace GameServer

variable {α : Type*} [DecidableEq α]

/-- `n` draws; `rand i` picks the draw that leaves `i` entries. -/
def shuffle (rand : ℕ → ℕ) : ℕ → List α → List α
  | 0, _ => []
  | n + 1, l =>
      match l[rand n % (n + 1)]? with
      | none => []
      | some c => c :: shuffle rand n ((l.set (rand n % (n + 1)) (l.getD n c)).take n)

/-- Blanks for each card the first entry equal to it, and counts the cards
found. -/
def strikeOut (blank : α) : List α → List α → ℕ × List α
  | [], hand => (0, hand)
  | c :: cards, hand =>
      if c ∈ hand then
        let r := strikeOut blank cards (hand.replace c blank)
        (r.1 + 1, r.2)
      else strikeOut blank cards hand

/-- What is left when every card is found. -/
def removeMarked (blank : α) (cards hand : List α) : Option (List α) :=
  let r := strikeOut blank cards hand
  if r.1 = cards.length then some (r.2.filter (· ≠ blank)) else none

/-! ## The shuffle -/

omit [DecidableEq α] in
/-- One draw: the entry, and what is left when the last one fills the gap. -/
theorem draw_perm {l : List α} {n i : ℕ} (hl : l.length = n + 1) (hi : i < l.length) :
    (l[i] :: (l.set i l[n]).take n).Perm l := by
  have hlast : (l.set i l[n]).drop n = [l[n]] := by
    have hn : n < (l.set i l[n]).length := by rw [List.length_set]; omega
    rw [List.drop_eq_getElem_cons hn, List.drop_of_length_le (by rw [List.length_set]; omega),
      List.getElem_set]
    split_ifs <;> rfl
  have hset : (l.set i l[n]).Perm (l[n] :: l.eraseIdx i) := List.set_perm_cons_eraseIdx hi _
  rw [← List.take_append_drop n (l.set i l[n]), hlast] at hset
  have hrest := ((List.perm_append_singleton _ _).symm.trans hset).cons_inv
  exact (hrest.cons _).trans (List.getElem_cons_eraseIdx_perm hi)

omit [DecidableEq α] in
/-- **A shuffle only moves entries.** -/
theorem shuffle_perm (rand : ℕ → ℕ) :
    ∀ (n : ℕ) (l : List α), l.length = n → (shuffle rand n l).Perm l
  | 0, l, hlen => by
    rw [List.length_eq_zero_iff.1 hlen, shuffle]
  | n + 1, l, hlen => by
    have hi : rand n % (n + 1) < l.length := by
      rw [hlen]
      exact Nat.mod_lt _ n.succ_pos
    have hn : l.getD n l[rand n % (n + 1)] = l[n] := by
      rw [List.getD_eq_getElem?_getD, List.getElem?_eq_getElem, Option.getD_some]
    rw [shuffle, List.getElem?_eq_getElem hi]
    simp only [hn]
    refine ((shuffle_perm rand n _ ?_).cons _).trans (draw_perm hlen hi)
    rw [List.length_take, List.length_set]
    omega

/-! ## The removal -/

variable {blank c : α} {cards hand rest : List α}

theorem replace_perm (h : c ∈ hand) : (hand.replace c blank).Perm (blank :: hand.erase c) := by
  induction hand with
  | nil => cases h
  | cons a hand ih =>
    by_cases hc : a = c
    · rw [hc, List.replace_cons_self, List.erase_cons_head]
    · have hmem : c ∈ hand := (List.mem_cons.1 h).resolve_left (Ne.symm hc)
      have hne : (c == a) = false := beq_false_of_ne (Ne.symm hc)
      rw [List.replace_cons, hne, List.erase_cons_tail (by simpa using hc)]
      exact ((ih hmem).cons a).trans (List.Perm.swap blank a _)

theorem filter_replace_perm (h : c ∈ hand) (hc : c ≠ blank) :
    (hand.filter (· ≠ blank)).Perm (c :: (hand.replace c blank).filter (· ≠ blank)) := by
  have hrest : ((hand.replace c blank).filter (· ≠ blank)).Perm
      ((hand.erase c).filter (· ≠ blank)) := by
    refine ((replace_perm h).filter _).trans ?_
    rw [List.filter_cons_of_neg (by simp)]
  have hall := (List.perm_cons_erase h).filter (· ≠ blank)
  rw [List.filter_cons_of_pos (by simpa using hc)] at hall
  exact hall.trans (hrest.symm.cons c)

theorem mem_replace (h : c ∈ hand) : blank ∈ hand.replace c blank :=
  (replace_perm h).mem_iff.2 List.mem_cons_self

theorem replace_self (c : α) (hand : List α) : hand.replace c c = hand := by
  induction hand with
  | nil => rfl
  | cons a hand ih =>
    rw [List.replace_cons, ih]
    split
    · rename_i h
      rw [beq_iff_eq.1 h]
    · rfl

variable (blank) in
theorem length_strikeOut (cards hand : List α) :
    (strikeOut blank cards hand).2.length = hand.length ∧
      (strikeOut blank cards hand).1 ≤ cards.length := by
  induction cards generalizing hand with
  | nil => exact ⟨rfl, Nat.le_refl 0⟩
  | cons c cards ih =>
    rw [strikeOut, List.length_cons]
    split
    · obtain ⟨hlen, hle⟩ := ih (hand.replace c blank)
      exact ⟨hlen.trans List.length_replace, Nat.succ_le_succ hle⟩
    · obtain ⟨hlen, hle⟩ := ih hand
      exact ⟨hlen, by omega⟩

/-- What is struck out and what is left, blanks not counted. -/
theorem strikeOut_perm (cards hand : List α)
    (h : (strikeOut blank cards hand).1 = cards.length) :
    (hand.filter (· ≠ blank)).Perm
      (cards.filter (· ≠ blank) ++ (strikeOut blank cards hand).2.filter (· ≠ blank)) := by
  induction cards generalizing hand with
  | nil => exact List.Perm.refl _
  | cons c cards ih =>
    rw [strikeOut] at h ⊢
    by_cases hmem : c ∈ hand
    · rw [if_pos hmem] at h ⊢
      have hrest := ih (hand.replace c blank) (Nat.succ.inj h)
      by_cases hc : c = blank
      · subst hc
        rw [List.filter_cons_of_neg (by simp)]
        rw [replace_self] at hrest ⊢
        exact hrest
      · rw [List.filter_cons_of_pos (by simpa using hc), List.cons_append]
        exact (filter_replace_perm hmem hc).trans (hrest.cons c)
    · have hle := (length_strikeOut blank cards hand).2
      rw [if_neg hmem, List.length_cons] at h
      omega

/-- **Which cards are found**: those that are no blank are in the array, and
a blank is found where there is one already, be it the gap of a card found
before. -/
theorem strikeOut_all_iff (cards hand : List α) :
    (strikeOut blank cards hand).1 = cards.length ↔
      (cards.filter (· ≠ blank)).Subperm (hand.filter (· ≠ blank)) ∧
        (cards.head? = some blank → blank ∈ hand) := by
  induction cards generalizing hand with
  | nil => simp [strikeOut]
  | cons c cards ih =>
    have hle := (length_strikeOut blank cards hand).2
    rw [strikeOut, List.length_cons, List.head?_cons]
    by_cases hc : c = blank
    · subst hc
      by_cases hmem : c ∈ hand
      · rw [if_pos hmem, replace_self, Nat.add_right_cancel_iff, ih hand]
        simp [hmem]
      · rw [if_neg hmem]
        exact iff_of_false (by omega) fun h => hmem (h.2 rfl)
    · rw [List.filter_cons_of_pos (by simpa using hc)]
      by_cases hmem : c ∈ hand
      · rw [if_pos hmem, Nat.add_right_cancel_iff, ih (hand.replace c blank),
          (filter_replace_perm hmem hc).subperm_left, List.subperm_cons]
        simp [mem_replace hmem, hc]
      · rw [if_neg hmem]
        refine iff_of_false (by omega) fun h => hmem ?_
        exact (List.mem_filter.1 (h.1.subset List.mem_cons_self)).1

theorem filter_ne_eq_self (hblank : blank ∉ hand) : hand.filter (· ≠ blank) = hand := by
  refine List.filter_eq_self.2 fun a ha => ?_
  have hne : a ≠ blank := fun heq => hblank (heq ▸ ha)
  simpa using hne

/-- **A removal takes out what is no blank**, and leaves no blank. -/
theorem removeMarked_perm (hblank : blank ∉ hand) (h : removeMarked blank cards hand = some rest) :
    hand.Perm (cards.filter (· ≠ blank) ++ rest) ∧ blank ∉ rest := by
  rw [removeMarked] at h
  by_cases hall : (strikeOut blank cards hand).1 = cards.length
  · rw [if_pos hall] at h
    cases h
    have hhand : hand.filter (· ≠ blank) = hand :=
      filter_ne_eq_self hblank
    have := strikeOut_perm cards hand hall
    rw [hhand] at this
    exact ⟨this, by simp⟩
  · rw [if_neg hall] at h
    cases h

/-- **When a removal is done**: the cards that are no blank are in the
array, and a blank is not the first of the cards. -/
theorem removeMarked_isSome_iff (hblank : blank ∉ hand) :
    (removeMarked blank cards hand).isSome ↔
      (cards.filter (· ≠ blank)).Subperm hand ∧ cards.head? ≠ some blank := by
  have hhand : hand.filter (· ≠ blank) = hand :=
    filter_ne_eq_self hblank
  have hall : (strikeOut blank cards hand).1 = cards.length ↔
      (cards.filter (· ≠ blank)).Subperm hand ∧ (cards.head? = some blank → blank ∈ hand) := by
    rw [strikeOut_all_iff, hhand]
  have hhead : (cards.head? = some blank → blank ∈ hand) ↔ cards.head? ≠ some blank :=
    ⟨fun h heq => hblank (h heq), fun h heq => absurd heq h⟩
  rw [hhead] at hall
  rw [← hall, removeMarked]
  by_cases hfound : (strikeOut blank cards hand).1 = cards.length
  · rw [if_pos hfound]
    exact iff_of_true rfl hfound
  · rw [if_neg hfound]
    exact iff_of_false nofun hfound

/-! ## Owners -/

omit [DecidableEq α] in
theorem sum_taken_from {ι M : Type*} [Fintype ι] [DecidableEq ι] [AddCommMonoid M]
    {f g : ι → M} {c : ι} {x : M} (hc : f c = x + g c) (hrest : ∀ i, i ≠ c → g i = f i) :
    ∑ i, f i = x + ∑ i, g i := by
  have hothers : ∑ i ∈ Finset.univ.erase c, g i = ∑ i ∈ Finset.univ.erase c, f i :=
    Finset.sum_congr rfl fun i hi => hrest i (Finset.ne_of_mem_erase hi)
  rw [← Finset.add_sum_erase _ f (Finset.mem_univ c), ← Finset.add_sum_erase _ g (Finset.mem_univ c),
    hc, hothers, add_assoc]

omit [DecidableEq α] in
/-- **A deal**: `k` slices of `n` cards and the rest are the deck. -/
theorem sum_slices (n : ℕ) (deck : List α) : ∀ k : ℕ,
    (∑ i : Fin k, (((deck.drop (i * n)).take n : List α) : Multiset α)) +
      (deck.drop (k * n) : List α) = (deck : Multiset α)
  | 0 => by simp
  | k + 1 => by
    have hcut : ((deck.drop (k * n)).take n : Multiset α) + (deck.drop ((k + 1) * n) : List α) =
        (deck.drop (k * n) : List α) := by
      rw [Multiset.coe_add, Nat.succ_mul, ← List.drop_drop, List.take_append_drop]
    rw [Fin.sum_univ_castSucc, add_assoc]
    simp only [Fin.val_castSucc, Fin.val_last]
    rw [hcut]
    exact sum_slices n deck k

end GameServer
