import Mathlib.Algebra.BigOperators.Field
import Mathlib.Algebra.BigOperators.Group.Finset.Sigma
import Mathlib.Order.Lattice.Nat
import Mathlib.Tactic.FieldSimp
import Mathlib.Tactic.Ring
/-!
# Side pots

The bets of a showdown lie in levels of one chip. Whoever bet up to a
level has put a chip there, and the level is shared by the best hands of
those who still hold cards and bet up to it (`winners`). A level nobody
can win goes back. `fairShare` is what that gives each player, with
fractions of a chip.

Whole chips are handed out as follows: levels with the same winners are
one pot, a winner keeps his own chips in it, and the chips every loser
has there are divided among the winners (`share`). What is missing from
the fair share are the remainders of these divisions, and nothing else
(`fairShare_eq`).

Among players with equal hands a loser's chips can be divided in slices,
from the smallest bet up (`tiedShare`), which gives the same
(`sum_taken_div`).
-/

namespace GameServer

open Finset

/-- The bets, who still holds cards, and how good the hands are. -/
structure Showdown (ι R : Type*) where
  bet : ι → ℕ
  live : Finset ι
  rank : ι → R

namespace Showdown

variable {ι R : Type*} [Fintype ι] [DecidableEq ι] [LinearOrder R] (s : Showdown ι R)

/-- The best hands of those who bet up to level `h`. -/
def winners (h : ℕ) : Finset ι :=
  {p ∈ s.live | h ≤ s.bet p ∧ ∀ q ∈ s.live, h ≤ s.bet q → s.rank q ≤ s.rank p}

/-- Everybody with a chip at level `h`. -/
def level (h : ℕ) : Finset ι := {c | h ≤ s.bet c}

/-- The own chips at levels nobody can win. -/
def returned (p : ι) : ℕ := #{h ∈ Icc 1 (s.bet p) | s.winners h = ∅}

/-- **The side-pot rule**: every level is shared equally by its winners. -/
def fairShare (p : ι) : ℚ :=
  s.returned p + ∑ h ∈ Icc 1 (univ.sup s.bet),
    if p ∈ s.winners h then (#(s.level h) : ℚ) / #(s.winners h) else 0

/-- The own chips at levels one wins. -/
def kept (p : ι) : ℕ := #{h ∈ Icc 1 (s.bet p) | p ∈ s.winners h}

/-- The chips `c` loses at levels that `p` wins as one of `k`. -/
def taken (p c : ι) (k : ℕ) : ℕ :=
  #{h ∈ Icc 1 (s.bet c) | (p ∈ s.winners h ∧ c ∉ s.winners h) ∧ #(s.winners h) = k}

/-- What a player gets in whole chips. -/
def share (p : ι) : ℕ :=
  s.returned p + (s.kept p + ∑ c, ∑ k ∈ range (Fintype.card ι + 1), s.taken p c k / k)

/-- What the divisions leave over. -/
def remainder (p : ι) : ℚ :=
  ∑ c, ∑ k ∈ range (Fintype.card ι + 1), ((s.taken p c k % k : ℕ) : ℚ) / k

variable {s} {p c : ι} {h k : ℕ}

theorem mem_winners : p ∈ s.winners h ↔ p ∈ s.live ∧ h ≤ s.bet p ∧
    ∀ q ∈ s.live, h ≤ s.bet q → s.rank q ≤ s.rank p := by
  simp [winners]

theorem winners_subset_level : s.winners h ⊆ s.level h := by
  intro q hq
  simpa [level] using (mem_winners.1 hq).2.1

theorem winners_nonempty (hp : p ∈ s.live) (hh : h ≤ s.bet p) : (s.winners h).Nonempty := by
  obtain ⟨q, hq, hbest⟩ :=
    exists_max_image {q ∈ s.live | h ≤ s.bet q} s.rank ⟨p, mem_filter.2 ⟨hp, hh⟩⟩
  rw [mem_filter] at hq
  exact ⟨q, mem_winners.2 ⟨hq.1, hq.2, fun b hb hbh => hbest b (mem_filter.2 ⟨hb, hbh⟩)⟩⟩

/-- The fair part of one level: the own chip and a part of every chip
lost there. -/
theorem level_div (hp : p ∈ s.winners h) :
    (#(s.level h) : ℚ) / #(s.winners h) =
      1 + ∑ c, if h ≤ s.bet c ∧ c ∉ s.winners h then (1 : ℚ) / #(s.winners h) else 0 := by
  have hpos : (#(s.winners h) : ℚ) ≠ 0 := by
    exact_mod_cast (card_pos.2 ⟨p, hp⟩).ne'
  have hlost : univ.filter (fun c => h ≤ s.bet c ∧ c ∉ s.winners h) = s.level h \ s.winners h := by
    ext c
    simp [level]
  rw [← sum_filter, hlost, sum_const, nsmul_eq_mul, card_sdiff_of_subset winners_subset_level,
    Nat.cast_sub (card_le_card winners_subset_level)]
  field_simp
  ring

theorem sum_mem_winners : (∑ h ∈ Icc 1 (univ.sup s.bet), if p ∈ s.winners h then (1 : ℚ) else 0) =
    s.kept p := by
  rw [sum_boole, kept]
  congr 2
  ext h
  simp only [mem_filter, mem_Icc]
  constructor
  · rintro ⟨⟨h₁, -⟩, hp⟩
    exact ⟨⟨h₁, (mem_winners.1 hp).2.1⟩, hp⟩
  · rintro ⟨⟨h₁, h₂⟩, hp⟩
    exact ⟨⟨h₁, h₂.trans (le_sup (mem_univ p))⟩, hp⟩

/-- The chips of `c` that `p` has a part in, by the number of winners. -/
theorem sum_taken (c : ι) : (∑ h ∈ Icc 1 (univ.sup s.bet), if p ∈ s.winners h then
    (if h ≤ s.bet c ∧ c ∉ s.winners h then (1 : ℚ) / #(s.winners h) else 0) else 0) =
    ∑ k ∈ range (Fintype.card ι + 1), (s.taken p c k : ℚ) / k := by
  have hset : (Icc 1 (univ.sup s.bet)).filter (fun h => p ∈ s.winners h ∧
      h ≤ s.bet c ∧ c ∉ s.winners h) =
      (Icc 1 (s.bet c)).filter (fun h => p ∈ s.winners h ∧ c ∉ s.winners h) := by
    ext h
    simp only [mem_filter, mem_Icc]
    constructor
    · rintro ⟨⟨h₁, -⟩, hp, h₂, hc⟩
      exact ⟨⟨h₁, h₂⟩, hp, hc⟩
    · rintro ⟨⟨h₁, h₂⟩, hp, hc⟩
      exact ⟨⟨h₁, h₂.trans (le_sup (mem_univ c))⟩, hp, h₂, hc⟩
  simp only [← ite_and]
  rw [← sum_filter, hset, ← sum_fiberwise_of_maps_to (t := range (Fintype.card ι + 1))
    (g := fun h => #(s.winners h))]
  · refine sum_congr rfl fun k _ => ?_
    rw [filter_filter, sum_congr rfl (g := fun _ => (1 : ℚ) / k), sum_const, nsmul_eq_mul, taken]
    · ring
    · intro h hh
      rw [(mem_filter.1 hh).2.2]
  · intro h _
    exact mem_range.2 (Nat.lt_succ_of_le (card_le_univ _))

/-- **Whole chips.** A share falls short of the fair one by the
remainders of the divisions. -/
theorem fairShare_eq (p : ι) : s.fairShare p = s.share p + s.remainder p := by
  have hsplit : ∀ h, (if p ∈ s.winners h then (#(s.level h) : ℚ) / #(s.winners h) else 0) =
      (if p ∈ s.winners h then 1 else 0) + ∑ c, if p ∈ s.winners h then
        (if h ≤ s.bet c ∧ c ∉ s.winners h then (1 : ℚ) / #(s.winners h) else 0) else 0 := by
    intro h
    by_cases hp : p ∈ s.winners h
    · simp only [if_pos hp]
      exact level_div hp
    · simp only [if_neg hp, sum_const_zero, add_zero]
  have hdiv : ∀ c k : ℕ, (c : ℚ) / k = (c / k : ℕ) + ((c % k : ℕ) : ℚ) / k := by
    intro c k
    rcases Nat.eq_zero_or_pos k with rfl | hk
    · simp
    · have hmod : ((k * (c / k) + c % k : ℕ) : ℚ) = c := by rw [Nat.div_add_mod]
      push_cast at hmod
      field_simp
      exact hmod.symm
  rw [fairShare, sum_congr rfl fun h _ => hsplit h, sum_add_distrib, sum_mem_winners, sum_comm,
    sum_congr rfl fun c _ => sum_taken c,
    sum_congr rfl fun c _ => sum_congr rfl fun k _ => hdiv (s.taken p c k) k, share, remainder]
  simp only [sum_add_distrib]
  push_cast
  ring

/-! ## Ties -/

/-- What `p` takes of a loser's `lost` chips above `base`, where the players
of a list with equal hands bet more and more: each slice up to the next
bet is shared by those who bet that far. -/
def tiedShare (bet : ι → ℕ) (lost : ℕ) (p : ι) : ℕ → List ι → ℕ
  | _, [] => 0
  | base, w :: ws =>
      ((lost - base) - (lost - max base (bet w))) / (ws.length + 1) +
        if p = w then 0 else tiedShare bet lost p (max base (bet w)) ws

omit [Fintype ι] in
theorem tiedShare_eq_zero {bet : ι → ℕ} {lost : ℕ} :
    ∀ (l : List ι) {base : ℕ}, lost ≤ base → tiedShare bet lost p base l = 0
  | [], _, _ => rfl
  | w :: ws, base, h => by
    have hslice : lost - base - (lost - max base (bet w)) = 0 := by omega
    rw [tiedShare, hslice, Nat.zero_div, tiedShare_eq_zero ws (h.trans (le_max_left _ _)), ite_self]

/-- The levels above `base` that `p` reaches and that `k` of the list
reach. -/
def tiedLevels (bet : ι → ℕ) (lost base : ℕ) (p : ι) (l : List ι) (k : ℕ) : Finset ℕ :=
  {h ∈ Ioc base (min lost (bet p)) | l.countP (fun q => h ≤ bet q) = k}

section Slices

omit [Fintype ι] [DecidableEq ι]

variable {bet : ι → ℕ} {lost base : ℕ} {w : ι} {ws : List ι}

theorem card_tiedLevels_of_length_lt (hk : ws.length < k) :
    #(tiedLevels bet lost base p ws k) = 0 := by
  refine card_eq_zero.2 (filter_eq_empty_iff.2 fun h _ => ?_)
  have : ws.countP (fun q => h ≤ bet q) ≤ ws.length := List.countP_le_length
  omega

/-- Up to the smallest bet everybody counts; above it whoever made it
does not. -/
theorem countP_cons_reach (hw : ∀ q ∈ ws, bet w ≤ bet q) (h : ℕ) :
    (w :: ws).countP (fun q => h ≤ bet q) =
      if h ≤ bet w then ws.length + 1 else ws.countP (fun q => h ≤ bet q) := by
  split_ifs with hh
  · refine List.countP_eq_length.2 fun q hq => decide_eq_true ?_
    rcases List.mem_cons.1 hq with rfl | hq
    · exact hh
    · exact hh.trans (hw q hq)
  · rw [List.countP_cons_of_neg (by simpa using hh)]

theorem card_tiedLevels_cons (hw : ∀ q ∈ ws, bet w ≤ bet q) (hwp : bet w ≤ bet p) :
    #(tiedLevels bet lost base p (w :: ws) k) =
      (if k = ws.length + 1 then (lost - base) - (lost - max base (bet w)) else 0) +
        #(tiedLevels bet lost (max base (bet w)) p ws k) := by
  have hunion : tiedLevels bet lost base p (w :: ws) k =
      (if k = ws.length + 1 then Ioc base (min lost (bet w)) else ∅) ∪
        tiedLevels bet lost (max base (bet w)) p ws k := by
    ext h
    simp only [tiedLevels, mem_union, mem_filter, mem_Ioc, countP_cons_reach hw]
    by_cases hk : k = ws.length + 1
    · rw [if_pos hk, mem_Ioc]
      split_ifs <;> omega
    · rw [if_neg hk]
      simp only [notMem_empty, false_or]
      split_ifs <;> omega
  rw [hunion, card_union_of_disjoint]
  · congr 1
    split_ifs
    · rw [Nat.card_Ioc]
      omega
    · exact card_empty
  · refine disjoint_left.2 fun h h₁ h₂ => ?_
    simp only [tiedLevels, mem_filter, mem_Ioc] at h₂
    split_ifs at h₁
    · rw [mem_Ioc] at h₁
      omega
    · exact notMem_empty h h₁

end Slices

omit [Fintype ι] in
/-- **Slices.** The levels above `base`, divided by the number of those
who reach them, slice by slice. -/
theorem sum_tiedLevels_div {bet : ι → ℕ} {lost n : ℕ} :
    ∀ (l : List ι) (base : ℕ), l.Pairwise (fun a b => bet a ≤ bet b) → p ∈ l → l.length ≤ n →
      ∑ k ∈ range (n + 1), #(tiedLevels bet lost base p l k) / k = tiedShare bet lost p base l := by
  intro l
  induction l with
  | nil =>
    intro base _ hp
    exact absurd hp List.not_mem_nil
  | cons w ws ih =>
    intro base hsorted hp hlen
    rw [List.length_cons] at hlen
    obtain ⟨hw, hsorted⟩ := List.pairwise_cons.1 hsorted
    have hwp : bet w ≤ bet p := by
      rcases List.mem_cons.1 hp with rfl | hp
      · exact le_rfl
      · exact hw p hp
    have hterm : ∀ k, #(tiedLevels bet lost base p (w :: ws) k) / k =
        (if k = ws.length + 1 then ((lost - base) - (lost - max base (bet w))) / (ws.length + 1)
          else 0) + #(tiedLevels bet lost (max base (bet w)) p ws k) / k := by
      intro k
      rw [card_tiedLevels_cons hw hwp]
      by_cases hk : k = ws.length + 1
      · simp only [hk, if_true, card_tiedLevels_of_length_lt (Nat.lt_succ_self _), Nat.zero_div,
          Nat.add_zero]
      · rw [if_neg hk, if_neg hk, Nat.zero_add, Nat.zero_add]
    rw [sum_congr rfl fun k _ => hterm k, sum_add_distrib, sum_ite_eq' (range (n + 1)), tiedShare,
      if_pos (mem_range.2 (by omega))]
    congr 1
    by_cases hpw : p = w
    · rw [if_pos hpw]
      refine sum_eq_zero fun k _ => ?_
      have hempty : tiedLevels bet lost (max base (bet w)) p ws k = ∅ := by
        rw [tiedLevels, Ioc_eq_empty (by rw [hpw]; omega), filter_empty]
      rw [hempty, card_empty, Nat.zero_div]
    · rw [if_neg hpw]
      exact ih _ hsorted ((List.mem_cons.1 hp).resolve_left hpw) (by omega)

/-! ## The shares of a group of equal hands -/

/-- `l` lists the players with hands as good as the best of it, by their
bets, and `base` is the highest bet of a better hand. -/
structure TiedGroup (s : Showdown ι R) (base : ℕ) (l : List ι) : Prop where
  nodup : l.Nodup
  sorted : l.Pairwise fun a b => s.bet a ≤ s.bet b
  live : ∀ a ∈ l, a ∈ s.live
  mem : ∀ a ∈ l, ∀ b ∈ s.live, s.rank b = s.rank a → b ∈ l
  tied : ∀ a ∈ l, ∀ b ∈ l, s.rank b = s.rank a
  base_ge : ∀ a ∈ l, ∀ b ∈ s.live, s.rank a < s.rank b → s.bet b ≤ base
  base_le : base = 0 ∨ ∀ a ∈ l, ∃ b ∈ s.live, s.rank a < s.rank b ∧ s.bet b = base

variable {base : ℕ} {l : List ι}

section

variable (hl : TiedGroup s base l) (hp : p ∈ l)
include hl hp

theorem TiedGroup.mem_winners_iff (hh : 0 < h) : p ∈ s.winners h ↔ base < h ∧ h ≤ s.bet p := by
  rw [mem_winners]
  constructor
  · rintro ⟨-, hbet, hbest⟩
    rcases hl.base_le with h0 | hbase
    · omega
    · obtain ⟨b, hb, hlt, heq⟩ := hbase p hp
      by_contra hge
      exact absurd (hbest b hb (by omega)) (not_le.2 hlt)
  · rintro ⟨hbase, hbet⟩
    refine ⟨hl.live p hp, hbet, fun q hq hqh => ?_⟩
    by_contra hlt
    have := hl.base_ge p hp q hq (not_le.1 hlt)
    omega

/-- Whoever wins a level with a player of the group is of the group. -/
theorem TiedGroup.winners_eq (hp' : p ∈ s.winners h) (hh : 0 < h) :
    s.winners h = l.toFinset.filter (fun q => h ≤ s.bet q) := by
  have hbase := ((hl.mem_winners_iff hp hh).1 hp').1
  ext q
  rw [mem_filter, List.mem_toFinset]
  constructor
  · intro hq
    obtain ⟨hlive, hbet, hbest⟩ := mem_winners.1 hq
    obtain ⟨hlive', hbet', hbest'⟩ := mem_winners.1 hp'
    refine ⟨hl.mem p hp q hlive ?_, hbet⟩
    exact le_antisymm (hbest' q hlive hbet) (hbest p hlive' hbet')
  · rintro ⟨hq, hbet⟩
    exact (hl.mem_winners_iff hq hh).2 ⟨hbase, hbet⟩

theorem TiedGroup.card_winners (hp' : p ∈ s.winners h) (hh : 0 < h) :
    #(s.winners h) = l.countP (fun q => h ≤ s.bet q) := by
  rw [hl.winners_eq hp hp' hh, List.countP_eq_length_filter,
    ← List.toFinset_card_of_nodup (hl.nodup.filter _), List.toFinset_filter]
  simp only [decide_eq_true_eq]

theorem TiedGroup.kept_eq : s.kept p = s.bet p - base := by
  have hset : (Icc 1 (s.bet p)).filter (fun h => p ∈ s.winners h) = Ioc base (s.bet p) := by
    ext h
    rw [mem_filter, mem_Icc, mem_Ioc]
    constructor
    · rintro ⟨⟨h₁, -⟩, hw⟩
      exact (hl.mem_winners_iff hp h₁).1 hw
    · rintro ⟨h₁, h₂⟩
      exact ⟨⟨by omega, h₂⟩, (hl.mem_winners_iff hp (by omega)).2 ⟨h₁, h₂⟩⟩
  rw [kept, hset, Nat.card_Ioc]

theorem TiedGroup.returned_eq : s.returned p = 0 := by
  refine card_eq_zero.2 (filter_eq_empty_iff.2 fun h hh hempty => ?_)
  exact (winners_nonempty (hl.live p hp) (mem_Icc.1 hh).2).ne_empty hempty

theorem TiedGroup.taken_eq (c : ι) (k : ℕ) :
    s.taken p c k = if c ∈ l then 0 else #(tiedLevels s.bet (s.bet c) base p l k) := by
  split_ifs with hc
  · refine card_eq_zero.2 (filter_eq_empty_iff.2 fun h hh => ?_)
    rw [mem_Icc] at hh
    rintro ⟨⟨hp', hc'⟩, -⟩
    have hbase := ((hl.mem_winners_iff hp hh.1).1 hp').1
    exact hc' ((hl.mem_winners_iff hc hh.1).2 ⟨hbase, hh.2⟩)
  · rw [taken, tiedLevels]
    congr 1
    ext h
    simp only [mem_filter, mem_Icc, mem_Ioc]
    constructor
    · rintro ⟨⟨h₁, h₂⟩, ⟨hp', -⟩, hk⟩
      have := (hl.mem_winners_iff hp h₁).1 hp'
      exact ⟨by omega, by rw [← hl.card_winners hp hp' h₁, hk]⟩
    · rintro ⟨⟨h₁, h₂⟩, hk⟩
      have hp' := (hl.mem_winners_iff hp (by omega)).2 ⟨h₁, by omega⟩
      refine ⟨⟨by omega, by omega⟩, ⟨hp', fun hc' => hc ?_⟩, ?_⟩
      · rw [hl.winners_eq hp hp' (by omega), mem_filter, List.mem_toFinset] at hc'
        exact hc'.1
      · rw [hl.card_winners hp hp' (by omega), hk]

/-- **The share of a player of the group**: his own chips above the better
hands, and his slices of everybody else's. -/
theorem TiedGroup.share_eq :
    s.share p = (s.bet p - base) +
      ∑ c, if c ∈ l then 0 else tiedShare s.bet (s.bet c) p base l := by
  rw [share, hl.returned_eq hp, hl.kept_eq hp, Nat.zero_add]
  congr 1
  refine sum_congr rfl fun c _ => ?_
  simp only [hl.taken_eq hp]
  split_ifs with hc
  · simp
  · refine sum_tiedLevels_div l base hl.sorted hp ?_
    exact (List.toFinset_card_of_nodup hl.nodup) ▸ card_le_univ _

end

/-- **The share of a player who gave up**: his chips above all hands that
are left. -/
theorem share_of_not_live (hp : p ∉ s.live) (hge : ∀ b ∈ s.live, s.bet b ≤ base)
    (hle : base = 0 ∨ ∃ b ∈ s.live, s.bet b = base) : s.share p = s.bet p - base := by
  have hnot : ∀ h, p ∉ s.winners h := fun h hw => hp (mem_winners.1 hw).1
  have hreturned : s.returned p = s.bet p - base := by
    have hset : (Icc 1 (s.bet p)).filter (fun h => s.winners h = ∅) = Ioc base (s.bet p) := by
      ext h
      rw [mem_filter, mem_Icc, mem_Ioc]
      constructor
      · rintro ⟨⟨h₁, h₂⟩, hempty⟩
        rcases hle with h0 | ⟨b, hb, heq⟩
        · omega
        by_contra hlt
        exact (winners_nonempty hb (by omega)).ne_empty hempty
      · rintro ⟨h₁, h₂⟩
        refine ⟨⟨by omega, h₂⟩, filter_eq_empty_iff.2 fun q hq hwin => ?_⟩
        have := hge q hq
        omega
    rw [returned, hset, Nat.card_Ioc]
  rw [share, hreturned]
  simp [kept, taken, hnot]

end Showdown

end GameServer
