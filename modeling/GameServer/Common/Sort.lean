import Mathlib.Data.List.Perm.Basic
/-!
# Sorting by exchanges

Two sorts of an array, given by the test that makes them exchange two
entries: `bubbleSort` walks along the array and stops after a walk
without an exchange, `exchangeSort` brings the greatest of what is left
to its end. Both only move entries (`bubbleSort_perm`,
`exchangeSort_perm`), and the array is in order afterwards if the test
says for every two entries which one belongs behind (`sorted_bubbleSort`,
`sorted_exchangeSort`).
-/

namespace GameServer

variable {α : Type*}

/-- One walk over the first `n + 1` entries, exchanging neighbours, and
whether it exchanged any. -/
def bubblePass (swap : α → α → Bool) : ℕ → List α → List α × Bool
  | n + 1, a :: b :: l =>
      if swap a b then
        let r := bubblePass swap n (a :: l)
        (b :: r.1, true)
      else
        let r := bubblePass swap n (b :: l)
        (a :: r.1, r.2)
  | _, l => (l, false)

/-- Walks over one entry less each time, until one exchanges nothing. -/
def bubbleSort (swap : α → α → Bool) : ℕ → List α → List α
  | 0, l => l
  | n + 1, l =>
      let r := bubblePass swap (n + 1) l
      if r.2 then bubbleSort swap n r.1 else r.1

/-- The entry `x` at the end of an array, exchanged with every entry
before it that belongs behind; the array is given from its end. -/
def exchangePass (swap : α → α → Bool) : α → List α → α × List α
  | x, [] => (x, [])
  | x, y :: ys =>
      if swap y x then
        let r := exchangePass swap y ys
        (r.1, x :: r.2)
      else
        let r := exchangePass swap x ys
        (r.1, y :: r.2)

/-- The greatest entry to the end, then the same for what is before it;
the array is given from its end. -/
def exchangeLoop (swap : α → α → Bool) : ℕ → List α → List α
  | _, [] => []
  | 0, l => l
  | n + 1, x :: xs =>
      let r := exchangePass swap x xs
      r.1 :: exchangeLoop swap n r.2

/-- `exchangeLoop` over a whole array. -/
def exchangeSort (swap : α → α → Bool) (l : List α) : List α :=
  (exchangeLoop swap l.length l.reverse).reverse

variable {swap : α → α → Bool}

/-! ## The walks of a bubble sort -/

theorem bubblePass_perm : ∀ (n : ℕ) (l : List α), (bubblePass swap n l).1.Perm l
  | 0, l => by
    cases l <;> rfl
  | n + 1, [] => by rfl
  | n + 1, [a] => by rfl
  | n + 1, a :: b :: l => by
    rw [bubblePass]
    split
    · exact ((bubblePass_perm n (a :: l)).cons b).trans (List.Perm.swap a b l)
    · exact (bubblePass_perm n (b :: l)).cons a

theorem bubbleSort_perm : ∀ (n : ℕ) (l : List α), (bubbleSort swap n l).Perm l
  | 0, l => List.Perm.refl l
  | n + 1, l => by
    rw [bubbleSort]
    split
    · exact (bubbleSort_perm n _).trans (bubblePass_perm (n + 1) l)
    · exact bubblePass_perm (n + 1) l

variable {r : α → α → Prop} [IsTrans α r]

/-- A walk over `front` leaves what is behind it alone and brings an entry
that belongs behind all others to its end. -/
theorem bubblePass_append (hswap : ∀ a b, swap a b = true → r b a)
    (hkeep : ∀ a b, swap a b = false → r a b) :
    ∀ (front back : List α) (n : ℕ), front.length = n + 1 →
      ∃ init m, (bubblePass swap n (front ++ back)).1 = init ++ m :: back ∧
        init.length = n ∧ (∀ a ∈ init, r a m) ∧ (init ++ [m]).Perm front := by
  intro front back n
  induction n generalizing front with
  | zero =>
    intro hlen
    obtain ⟨a, rfl⟩ := List.length_eq_one_iff.1 hlen
    exact ⟨[], a, by cases back <;> rfl, rfl, by simp, List.Perm.refl _⟩
  | succ n ih =>
    intro hlen
    obtain ⟨a, front, rfl⟩ := List.exists_cons_of_length_eq_add_one hlen
    obtain ⟨b, front, rfl⟩ :=
      List.exists_cons_of_length_eq_add_one (Nat.succ.inj hlen)
    -- the entry carried on is `a` after an exchange and `b` otherwise
    have hcase : ∀ x y, r y x → (∃ init m, (bubblePass swap n (x :: front ++ back)).1 =
        init ++ m :: back ∧ init.length = n ∧ (∀ a ∈ init, r a m) ∧
        (init ++ [m]).Perm (x :: front)) →
        ∃ init m, y :: (bubblePass swap n (x :: front ++ back)).1 = init ++ m :: back ∧
          init.length = n + 1 ∧ (∀ a ∈ init, r a m) ∧ (init ++ [m]).Perm (y :: x :: front) := by
      rintro x y hyx ⟨init, m, heq, hinit, hle, hperm⟩
      refine ⟨y :: init, m, by rw [heq, List.cons_append], by simp [hinit], ?_, hperm.cons y⟩
      intro c hc
      rcases List.mem_cons.1 hc with rfl | hc
      · have hx : x ∈ init ++ [m] := hperm.symm.subset List.mem_cons_self
        rcases List.mem_append.1 hx with hx | hx
        · exact IsTrans.trans c x m hyx (hle x hx)
        · rw [List.mem_singleton] at hx
          exact hx ▸ hyx
      · exact hle c hc
    have hlen' : ∀ x : α, (x :: front).length = n + 1 := by
      intro x
      simpa using hlen
    rw [List.cons_append, List.cons_append, bubblePass]
    split
    · obtain ⟨init, m, heq, hinit, hle, hperm⟩ :=
        hcase a b (hswap a b ‹_›) (ih (a :: front) (hlen' a))
      exact ⟨init, m, heq, hinit, hle, hperm.trans (List.Perm.swap a b front)⟩
    · exact hcase b a (hkeep a b (Bool.not_eq_true _ ▸ ‹_›)) (ih (b :: front) (hlen' b))

omit [IsTrans α r] in
/-- A walk without an exchange leaves everything, and what it walked over
is in order. -/
theorem bubblePass_eq_of_false (hkeep : ∀ a b, swap a b = false → r a b) :
    ∀ (n : ℕ) (l : List α), (bubblePass swap n l).2 = false →
      (bubblePass swap n l).1 = l ∧ (l.take (n + 1)).IsChain r
  | 0, [], _ => ⟨rfl, List.IsChain.nil⟩
  | 0, a :: l, _ => ⟨rfl, by simp⟩
  | n + 1, [], _ => ⟨rfl, List.IsChain.nil⟩
  | n + 1, [a], _ => ⟨rfl, by simp⟩
  | n + 1, a :: b :: l, h => by
    rw [bubblePass] at h ⊢
    by_cases hab : swap a b
    · rw [if_pos hab] at h
      exact absurd h (by simp)
    · rw [if_neg hab] at h ⊢
      obtain ⟨heq, hchain⟩ := bubblePass_eq_of_false hkeep n (b :: l) h
      refine ⟨congrArg (a :: ·) heq, ?_⟩
      rw [List.take_succ_cons] at hchain ⊢
      rw [List.take_succ_cons]
      exact List.isChain_cons_cons.2 ⟨hkeep a b (Bool.eq_false_iff.2 hab), hchain⟩

/-- The walks left over once `back` is in its place. -/
theorem pairwise_bubbleSort (hswap : ∀ a b, swap a b = true → r b a)
    (hkeep : ∀ a b, swap a b = false → r a b) :
    ∀ (n : ℕ) (front back : List α), front.length = n + 1 → back.Pairwise r →
      (∀ a ∈ front, ∀ b ∈ back, r a b) → (bubbleSort swap n (front ++ back)).Pairwise r := by
  intro n
  induction n with
  | zero =>
    intro front back hlen hback hle
    obtain ⟨a, rfl⟩ := List.length_eq_one_iff.1 hlen
    exact List.pairwise_cons.2 ⟨hle a List.mem_cons_self, hback⟩
  | succ n ih =>
    intro front back hlen hback hle
    rw [bubbleSort]
    split
    · obtain ⟨init, m, heq, hinit, hm, hperm⟩ := bubblePass_append hswap hkeep front back (n + 1) hlen
      have hfront : ∀ a, a ∈ init ∨ a = m → a ∈ front := by
        intro a ha
        exact hperm.subset (by simpa using ha)
      rw [heq]
      refine ih init (m :: back) hinit ?_ ?_
      · exact List.pairwise_cons.2 ⟨hle m (hfront m (.inr rfl)), hback⟩
      · intro a ha b hb
        rcases List.mem_cons.1 hb with rfl | hb
        · exact hm a ha
        · exact hle a (hfront a (.inl ha)) b hb
    · rename_i hflag
      obtain ⟨heq, hchain⟩ := bubblePass_eq_of_false hkeep (n + 1) (front ++ back)
        (Bool.eq_false_iff.2 hflag)
      rw [← hlen, List.take_left] at hchain
      rw [heq]
      exact List.pairwise_append.2 ⟨List.isChain_iff_pairwise.1 hchain, hback, hle⟩

/-- **A bubble sort sorts.** -/
theorem sorted_bubbleSort (hswap : ∀ a b, swap a b = true → r b a)
    (hkeep : ∀ a b, swap a b = false → r a b) (l : List α) :
    (bubbleSort swap (l.length - 1) l).Pairwise r := by
  rcases Nat.eq_zero_or_pos l.length with h | h
  · rw [List.length_eq_zero_iff.1 h]
    exact List.Pairwise.nil
  · have := pairwise_bubbleSort hswap hkeep (l.length - 1) l [] (by omega) List.Pairwise.nil (by simp)
    rwa [List.append_nil] at this

/-! ## Exchanges with the end -/

variable (swap) in
omit [IsTrans α r] in
theorem exchangePass_perm : ∀ (x : α) (l : List α),
    ((exchangePass swap x l).1 :: (exchangePass swap x l).2).Perm (x :: l)
  | x, [] => List.Perm.refl _
  | x, y :: ys => by
    rw [exchangePass]
    split
    · have := (exchangePass_perm y ys).cons x
      exact (List.Perm.swap _ _ _).trans this
    · have := (exchangePass_perm x ys).cons y
      exact (List.Perm.swap _ _ _).trans (this.trans (List.Perm.swap _ _ _))

/-- The entry brought to the end belongs behind all others. -/
theorem exchangePass_greatest (hswap : ∀ a b, swap a b = true → r b a)
    (hkeep : ∀ a b, swap a b = false → r a b) :
    ∀ (x : α) (l : List α), r x (exchangePass swap x l).1 ∧
      ∀ b ∈ (exchangePass swap x l).2, r b (exchangePass swap x l).1
  | x, [] => by
    refine ⟨?_, by simp [exchangePass]⟩
    by_cases h : swap x x
    · exact hswap x x h
    · exact hkeep x x (Bool.eq_false_iff.2 h)
  | x, y :: ys => by
    rw [exchangePass]
    split
    · obtain ⟨hy, hrest⟩ := exchangePass_greatest hswap hkeep y ys
      have hx := IsTrans.trans x y _ (hswap y x ‹_›) hy
      exact ⟨hx, List.forall_mem_cons.2 ⟨hx, hrest⟩⟩
    · obtain ⟨hx, hrest⟩ := exchangePass_greatest hswap hkeep x ys
      have hy := IsTrans.trans y x _ (hkeep y x (Bool.eq_false_iff.2 ‹_›)) hx
      exact ⟨hx, List.forall_mem_cons.2 ⟨hy, hrest⟩⟩

variable (swap) in
omit [IsTrans α r] in
theorem exchangeLoop_perm : ∀ (n : ℕ) (l : List α), (exchangeLoop swap n l).Perm l
  | _, [] => by
    rw [exchangeLoop]
  | 0, x :: xs => List.Perm.refl _
  | n + 1, x :: xs =>
    ((exchangeLoop_perm n _).cons _).trans (exchangePass_perm swap x xs)

theorem sorted_exchangeLoop (hswap : ∀ a b, swap a b = true → r b a)
    (hkeep : ∀ a b, swap a b = false → r a b) :
    ∀ (n : ℕ) (l : List α), l.length ≤ n → (exchangeLoop swap n l).Pairwise fun a b => r b a
  | _, [], _ => by
    rw [exchangeLoop]
    exact List.Pairwise.nil
  | n + 1, x :: xs, hlen => by
    have hperm := exchangePass_perm swap x xs
    have hlen' : (exchangePass swap x xs).2.length ≤ n := by
      have := hperm.length_eq
      simp only [List.length_cons] at this hlen
      omega
    refine List.pairwise_cons.2 ⟨fun b hb => ?_, sorted_exchangeLoop hswap hkeep n _ hlen'⟩
    exact (exchangePass_greatest hswap hkeep x xs).2 b ((exchangeLoop_perm swap n _).subset hb)

variable (swap) in
omit [IsTrans α r] in
theorem exchangeSort_perm (l : List α) : (exchangeSort swap l).Perm l :=
  (List.reverse_perm _).trans ((exchangeLoop_perm _ _ _).trans (List.reverse_perm l))

/-- **An exchange sort sorts.** -/
theorem sorted_exchangeSort (hswap : ∀ a b, swap a b = true → r b a)
    (hkeep : ∀ a b, swap a b = false → r a b) (l : List α) :
    (exchangeSort swap l).Pairwise r := by
  rw [exchangeSort, List.pairwise_reverse]
  exact sorted_exchangeLoop hswap hkeep l.length l.reverse (Nat.le_of_eq List.length_reverse)

end GameServer
