import GameServer.Common.SidePot
import GameServer.TexasHoldem.GameLogic
import GameServer.TexasHoldem.Model.Payout
import Mathlib.Algebra.Order.BigOperators.Group.Finset
/-!
# Texas hold'em — the payout is the side-pot rule

The loop pays group after group. As long as no chair with equal cards has
run dry before another one is paid, a group takes from everybody behind
it the chips between the highest bet so far and its own, and that is the
side-pot rule (`winChipScore_eq_share`).
-/

namespace GameServer.TexasHoldem

open Finset

variable {bet : Chair → ℕ} {s : Ledger}
variable {group : List Chair} {d : ℤ} {i : Chair} {gain : Chair → ℕ}

/-- **What every step of the loop keeps.** Nobody has lost more than what
was taken from his bet, and nothing is paid that was not taken. -/
structure Fair (bet : Chair → ℕ) (s : Ledger) : Prop where
  total_nonneg : ∀ i, 0 ≤ s.totalScore i
  total_le : ∀ i, s.totalScore i ≤ bet i
  lost : ∀ i, s.totalScore i ≤ s.userScore i + bet i
  sum_le : ∑ i, s.userScore i ≤ 0

theorem int32_of_range {x : ℤ} (h₁ : -2 ^ 31 ≤ x) (h₂ : x < 2 ^ 31) : int32 x = x := by
  rw [int32, Int.bmod_def]
  omega

theorem Fair.userScore_add_bet_le (hs : Fair bet s) (i : Chair) :
    s.userScore i + bet i ≤ ∑ j, (bet j : ℤ) := by
  have hothers : -∑ j ∈ univ.erase i, s.userScore j ≤ ∑ j ∈ univ.erase i, (bet j : ℤ) := by
    rw [← sum_neg_distrib]
    refine sum_le_sum fun j _ => ?_
    have := hs.lost j
    have := hs.total_nonneg j
    omega
  have hsum := add_sum_erase univ s.userScore (mem_univ i)
  have hbets := add_sum_erase univ (fun j => (bet j : ℤ)) (mem_univ i)
  have := hs.sum_le
  omega

section Steps

variable (hbet : ∑ i, bet i < 2 ^ 31)

include hbet

theorem bet_lt (i : Chair) : (bet i : ℤ) < 2 ^ 31 := by
  have : bet i ≤ ∑ i, bet i := single_le_sum (f := bet) (fun _ _ => Nat.zero_le _) (mem_univ i)
  omega

theorem Fair.userScore_lt (hs : Fair bet s) (i : Chair) : s.userScore i < 2 ^ 31 := by
  have hcast : ∑ j, (bet j : ℤ) < 2 ^ 31 := by exact_mod_cast hbet
  have := hs.userScore_add_bet_le i
  omega

theorem Fair.userScore_ge (hs : Fair bet s) (i : Chair) : -2 ^ 31 ≤ s.userScore i := by
  have := bet_lt hbet i
  have := hs.lost i
  have := hs.total_nonneg i
  omega

end Steps

/-! ## One loser -/

theorem credit_apply {score : ℤ} (hnodup : group.Nodup) :
    ∀ (us : Chair → ℤ) (i : Chair),
      credit group score us i = if i ∈ group then int32 (us i + score) else us i := by
  induction group with
  | nil => intro us i; rfl
  | cons m group ih =>
    intro us i
    obtain ⟨hm, hnodup⟩ := List.nodup_cons.1 hnodup
    rw [credit, List.foldl_cons, ← credit, ih hnodup]
    by_cases him : i = m
    · subst him
      rw [if_neg hm, Function.update_self, if_pos List.mem_cons_self]
    · rw [Function.update_of_ne him]
      simp only [List.mem_cons, him, false_or]

/-- The ledger once `loser` has paid `d` and everybody of a group has got an
equal part of it. -/
def paid (group : List Chair) (loser : Chair) (d : ℤ) (s : Ledger) : Ledger where
  userScore i := s.userScore i + (if i ∈ group then d / group.length else 0) -
    if i = loser then d else 0
  totalScore i := s.totalScore i - if i = loser then d else 0

theorem sum_paid {loser : Chair} (hnodup : group.Nodup) :
    ∑ i, (paid group loser d s).userScore i =
      ∑ i, s.userScore i + group.length * (d / group.length) - d := by
  have hgroup : ∑ i, (if i ∈ group then d / (group.length : ℤ) else 0) =
      group.length * (d / group.length) := by
    simp only [← List.mem_toFinset, sum_ite_mem, univ_inter, sum_const, nsmul_eq_mul,
      List.toFinset_card_of_nodup hnodup]
  simp only [paid, sum_sub_distrib, sum_add_distrib, hgroup, sum_ite_eq', mem_univ, if_true]

theorem Fair.paid {loser : Chair} (hs : Fair bet s)
    (hnodup : group.Nodup) (hloser : loser ∉ group) (hd : 0 ≤ d)
    (hle : d ≤ s.totalScore loser) : Fair bet (paid group loser d s) where
  total_nonneg i := by
    have := hs.total_nonneg i
    by_cases hi : i = loser
    · subst hi
      simp only [TexasHoldem.paid, if_true]
      omega
    · simp only [TexasHoldem.paid, if_neg hi]
      omega
  total_le i := by
    have := hs.total_le i
    simp only [TexasHoldem.paid]
    split_ifs <;> omega
  lost i := by
    have := hs.lost i
    have hpart : 0 ≤ d / (group.length : ℤ) := Int.ediv_nonneg hd (Int.natCast_nonneg _)
    by_cases hi : i = loser
    · subst hi
      simp only [TexasHoldem.paid, if_neg hloser, if_true]
      omega
    · simp only [TexasHoldem.paid, if_neg hi]
      split_ifs <;> omega
  sum_le := by
    rw [sum_paid hnodup]
    have := Int.mul_ediv_self_le (x := d) (k := group.length)
    have := hs.sum_le
    rcases Nat.eq_zero_or_pos group.length with h0 | hpos
    · rw [h0]
      omega
    · have := Int.mul_ediv_self_le (x := d) (k := group.length) (by omega)
      omega

variable {last : Option Chair} {winner loser : Chair} {behind losers : List Chair}

/-- What a loser pays: what the winner has more than the one before, or
what he has left. -/
def slice (s : Ledger) (last : Option Chair) (winner loser : Chair) : ℤ :=
  min (s.totalScore winner - lastScore s last) (s.totalScore loser)

theorem payLoser_eq_paid (hbet : ∑ i, bet i < 2 ^ 31) (hs : Fair bet s)
    (hnodup : (winner :: behind).Nodup) (hloser : loser ∉ winner :: behind)
    (hlast : ¬ (last.isSome ∧ lastScore s last ≤ 0)) (hge : 0 ≤ lastScore s last)
    (hle : lastScore s last ≤ s.totalScore winner) :
    payLoser last winner behind s loser =
      paid (winner :: behind) loser (slice s last winner loser) s := by
  have hd : 0 ≤ slice s last winner loser :=
    le_min (by omega) (hs.total_nonneg loser)
  have hd' : slice s last winner loser ≤ s.totalScore loser := min_le_right _ _
  have hfair := hs.paid hnodup hloser hd hd'
  have hlt := bet_lt hbet
  by_cases hzero : s.totalScore loser = 0
  · have h0 : slice s last winner loser = 0 := by omega
    rw [payLoser, if_pos hzero, paid, h0]
    simp
  · have hwinner := hs.total_le winner
    have hrange : int32 (s.totalScore winner - lastScore s last) =
        s.totalScore winner - lastScore s last := by
      have := hlt winner
      exact int32_of_range (by omega) (by omega)
    have hpart : (slice s last winner loser).tdiv (behind.length + 1) =
        slice s last winner loser / ((winner :: behind).length : ℤ) := by
      rw [Int.tdiv_eq_ediv_of_nonneg hd, List.length_cons]
      rfl
    rw [payLoser, if_neg hzero, if_neg hlast]
    simp only [hrange]
    rw [← slice, hpart]
    have huser := fun i => int32_of_range (hfair.userScore_ge hbet i) (hfair.userScore_lt hbet i)
    simp only [paid] at huser
    refine Ledger.ext (funext fun i => ?_) (funext fun i => ?_)
    · by_cases hi : i = loser
      · subst hi
        have := huser i
        rw [if_neg hloser, if_pos rfl, add_zero] at this
        simp only [paid, Function.update_self, credit_apply hnodup, if_neg hloser, this, if_true,
          add_zero]
      · have := huser i
        rw [if_neg hi, sub_zero] at this
        simp only [paid, Function.update_of_ne hi, credit_apply hnodup, if_neg hi, sub_zero]
        split_ifs with hmem
        · rwa [if_pos hmem] at this
        · rw [add_zero]
    · by_cases hi : i = loser
      · subst hi
        have := hlt i
        have := hs.total_le i
        simp only [paid, Function.update_self, if_true]
        exact int32_of_range (by omega) (by omega)
      · simp only [paid, Function.update_of_ne hi, if_neg hi, sub_zero]

/-! ## All losers of a group -/

theorem totalScore_paid (hi : i ≠ loser) :
    (paid group loser d s).totalScore i = s.totalScore i := by
  simp [paid, hi]

theorem userScore_paid (hi : i ≠ loser) : (paid group loser d s).userScore i =
      s.userScore i + if i ∈ group then d / group.length else 0 := by
  simp [paid, hi]

theorem lastScore_paid (hlast : last ≠ some loser) :
    lastScore (paid group loser d s) last = lastScore s last := by
  cases last with
  | none => rfl
  | some w =>
    have hw : w ≠ loser := fun h => hlast (congrArg some h)
    simp [lastScore, totalScore_paid hw]

theorem slice_paid {c : Chair} (hlast : last ≠ some loser)
    (hwinner : winner ≠ loser) (hc : c ≠ loser) :
    slice (paid group loser d s) last winner c = slice s last winner c := by
  rw [slice, slice, lastScore_paid hlast, totalScore_paid hwinner, totalScore_paid hc]

/-- **A winner is paid by all losers.** -/
theorem foldl_payLoser (hbet : ∑ i, bet i < 2 ^ 31) (hnodup : (winner :: behind).Nodup) :
    ∀ (losers : List Chair) (s : Ledger), Fair bet s → losers.Nodup →
      (∀ c ∈ losers, c ∉ winner :: behind) → (∀ c ∈ losers, last ≠ some c) →
      ¬ (last.isSome ∧ lastScore s last ≤ 0) → 0 ≤ lastScore s last →
      lastScore s last ≤ s.totalScore winner →
      Fair bet (losers.foldl (payLoser last winner behind) s) ∧
      ∀ i, (losers.foldl (payLoser last winner behind) s).totalScore i =
          s.totalScore i - (if i ∈ losers then slice s last winner i else 0) ∧
        (losers.foldl (payLoser last winner behind) s).userScore i =
          s.userScore i + (if i ∈ winner :: behind then
            (losers.map fun c => slice s last winner c / ((winner :: behind).length : ℤ)).sum else 0) -
            (if i ∈ losers then slice s last winner i else 0) := by
  intro losers
  induction losers with
  | nil =>
    intro s hs _ _ _ _ _ _
    refine ⟨hs, fun i => ⟨?_, ?_⟩⟩ <;> simp
  | cons c losers ih =>
    intro s hs hlosers hout hlastout hlast hge hle
    obtain ⟨hc, hlosers⟩ := List.nodup_cons.1 hlosers
    obtain ⟨hcout, hout⟩ := List.forall_mem_cons.1 hout
    obtain ⟨hclast, hlastout⟩ := List.forall_mem_cons.1 hlastout
    have hwc : winner ≠ c := fun h => hcout (h ▸ List.mem_cons_self)
    have hd : 0 ≤ slice s last winner c := le_min (by omega) (hs.total_nonneg c)
    have hfair := hs.paid hnodup hcout hd (min_le_right _ _)
    rw [List.foldl_cons, payLoser_eq_paid hbet hs hnodup hcout hlast hge hle]
    obtain ⟨hfair', hrest⟩ := ih (paid (winner :: behind) c (slice s last winner c) s) hfair hlosers
      hout hlastout (by rwa [lastScore_paid hclast]) (by rwa [lastScore_paid hclast])
      (by rwa [lastScore_paid hclast, totalScore_paid hwc])
    refine ⟨hfair', fun i => ?_⟩
    obtain ⟨htotal, huser⟩ := hrest i
    have hslice : ∀ j, j ≠ c →
        slice (paid (winner :: behind) c (slice s last winner c) s) last winner j =
          slice s last winner j := fun j hj => slice_paid hclast hwc hj
    have hmap : losers.map (fun j => slice (paid (winner :: behind) c (slice s last winner c) s)
        last winner j / ((winner :: behind).length : ℤ)) =
        losers.map fun j => slice s last winner j / ((winner :: behind).length : ℤ) := by
      refine List.map_congr_left fun j hj => ?_
      rw [hslice j fun h => hc (h ▸ hj)]
    rw [htotal, huser, hmap, List.map_cons, List.sum_cons]
    by_cases hi : i = c
    · subst hi
      simp only [paid, if_true, if_neg hc, if_neg hcout, List.mem_cons_self]
      exact ⟨by ring, by ring⟩
    · have hmem : i ∈ c :: losers ↔ i ∈ losers := by simp [hi]
      simp only [hmem, hslice i hi, totalScore_paid hi, userScore_paid hi, true_and]
      split_ifs <;> ring

/-! ## A group -/

/-- **In the middle of a group.** `base` is the highest bet of the groups
before, `cur` the level up to which the losers have paid. The last field
says that no chair of the group has run dry while another one is still
to be paid. -/
structure Paying (bet : Chair → ℕ) (losers : List Chair) (base cur : ℕ) (last : Option Chair)
    (rest : List Chair) (s : Ledger) : Prop where
  fair : Fair bet s
  nodup : rest.Nodup
  sorted : rest.Pairwise fun a b => bet a ≤ bet b
  winner_total : ∀ w ∈ rest, s.totalScore w = (bet w - base : ℕ)
  base_le : base ≤ cur
  last_total : lastScore s last = (cur - base : ℕ)
  cur_le : ∀ w ∈ rest, cur ≤ max base (bet w)
  losers_nodup : losers.Nodup
  losers_out : ∀ c ∈ losers, c ∉ rest ∧ last ≠ some c
  losers_total : ∀ c ∈ losers, s.totalScore c = (bet c - cur : ℕ)
  not_dry : last.isSome → cur = base → ∀ q ∈ rest, base < bet q → ∀ c ∈ losers, bet c ≤ base

/-- No two chairs of a group such that one has run dry at `base`, the other
has not, and somebody behind has chips left. -/
def NoneDry (bet : Chair → ℕ) (losers : List Chair) (base : ℕ) (group : List Chair) : Prop :=
  ∀ p ∈ group, ∀ q ∈ group, bet p ≤ base → base < bet q → ∀ c ∈ losers, bet c ≤ base

/-- What a chair of `lost` chips pays between two levels. -/
def between (lost cur next : ℕ) : ℕ := (lost - cur) - (lost - next)

/-- The losers have paid from one level to another, and the others have
gained. -/
structure PaidUpTo (bet : Chair → ℕ) (losers : List Chair) (cur next : ℕ) (gain : Chair → ℕ)
    (s r : Ledger) : Prop where
  fair : Fair bet r
  total : ∀ i, r.totalScore i =
    s.totalScore i - (if i ∈ losers then between (bet i) cur next else 0 : ℕ)
  user : ∀ i, r.userScore i =
    s.userScore i + gain i - (if i ∈ losers then between (bet i) cur next else 0 : ℕ)

theorem PaidUpTo.refl {next : ℕ} (hs : Fair bet s)
    (hzero : ∀ c ∈ losers, between (bet c) cur next = 0) (hgain : ∀ i, gain i = 0) :
    PaidUpTo bet losers cur next gain s s := by
  have hif : ∀ i, (if i ∈ losers then between (bet i) cur next else 0) = 0 := by
    intro i
    split_ifs with hi
    · exact hzero i hi
    · rfl
  refine ⟨hs, fun i => ?_, fun i => ?_⟩
  · rw [hif]
    simp
  · rw [hif, hgain]
    simp

theorem PaidUpTo.trans {mid next : ℕ} {gain' : Chair → ℕ} {r t : Ledger}
    (h₁ : PaidUpTo bet losers cur mid gain s r) (h₂ : PaidUpTo bet losers mid next gain' r t)
    (hcur : cur ≤ mid) (hmid : mid ≤ next) :
    PaidUpTo bet losers cur next (fun i => gain i + gain' i) s t := by
  have hif : ∀ i, (if i ∈ losers then between (bet i) cur next else 0) =
      (if i ∈ losers then between (bet i) cur mid else 0) +
        (if i ∈ losers then between (bet i) mid next else 0) := by
    intro i
    unfold between
    split_ifs <;> omega
  refine ⟨h₂.fair, fun i => ?_, fun i => ?_⟩
  · rw [h₂.total, h₁.total, hif]
    push_cast
    ring
  · rw [h₂.user, h₁.user, hif]
    push_cast
    ring

def winnerGain (bet : Chair → ℕ) (losers : List Chair) (cur : ℕ) (winner : Chair)
    (behind : List Chair) (i : Chair) : ℕ :=
  if i ∈ winner :: behind then
    (losers.map fun c => between (bet c) cur (max cur (bet winner)) / (behind.length + 1)).sum
  else 0

theorem winnerGain_eq_zero (hzero : ∀ c ∈ losers, between (bet c) cur (max cur (bet winner)) = 0)
    (i : Chair) : winnerGain bet losers cur winner behind i = 0 := by
  unfold winnerGain
  split_ifs
  · refine List.sum_eq_zero_iff.2 fun x hx => ?_
    obtain ⟨c, hc, rfl⟩ := List.mem_map.1 hx
    rw [hzero c hc, Nat.zero_div]
  · rfl

/-- **One winner.** Everybody behind pays up to his bet. -/
theorem Paying.payWinner_paidUpTo (hbet : ∑ i, bet i < 2 ^ 31)
    (hs : Paying bet losers base cur last (winner :: behind) s) :
    PaidUpTo bet losers cur (max cur (bet winner)) (winnerGain bet losers cur winner behind) s
      (payWinner losers last winner behind s) := by
  have hwinner := hs.winner_total winner List.mem_cons_self
  have hlast := hs.last_total
  have hbase := hs.base_le
  have hcur := hs.cur_le winner List.mem_cons_self
  -- nothing is paid where nothing lies between the levels
  have hsame : (∀ c ∈ losers, between (bet c) cur (max cur (bet winner)) = 0) →
      payWinner losers last winner behind s = s →
      PaidUpTo bet losers cur (max cur (bet winner)) (winnerGain bet losers cur winner behind) s
        (payWinner losers last winner behind s) := by
    intro hzero heq
    rw [heq]
    exact PaidUpTo.refl hs.fair hzero (winnerGain_eq_zero hzero)
  by_cases hw0 : s.totalScore winner = 0
  · exact hsame (fun c _ => by unfold between; omega) (if_pos hw0)
  by_cases hequal : last.isSome ∧ int32 (s.totalScore winner - lastScore s last) = 0
  · refine hsame (fun c _ => ?_) (by rw [payWinner, if_neg hw0, if_pos hequal])
    have := bet_lt hbet winner
    have hzero := hequal.2
    rw [int32_of_range (by omega) (by omega)] at hzero
    unfold between
    omega
  by_cases hdry : last.isSome ∧ lastScore s last ≤ 0
  · have hpoor := hs.not_dry hdry.1 (by omega) winner List.mem_cons_self (by omega)
    refine hsame (fun c hc => ?_) ?_
    · have := hpoor c hc
      unfold between
      omega
    · rw [payWinner, if_neg hw0, if_neg hequal]
      have hstay : ∀ c, payLoser last winner behind s c = s := by
        intro c
        rw [payLoser]
        split_ifs <;> rfl
      exact List.foldl_fixed' hstay losers
  · have hslice : ∀ c ∈ losers, slice s last winner c =
        (between (bet c) cur (max cur (bet winner)) : ℤ) := by
      intro c hc
      have := hs.losers_total c hc
      rw [slice, between]
      omega
    obtain ⟨hfair, hvalues⟩ := foldl_payLoser hbet hs.nodup losers s hs.fair hs.losers_nodup
      (fun c hc => (hs.losers_out c hc).1) (fun c hc => (hs.losers_out c hc).2) hdry (by omega)
      (by omega)
    have hif : ∀ i, (if i ∈ losers then slice s last winner i else 0) =
        ((if i ∈ losers then between (bet i) cur (max cur (bet winner)) else 0 : ℕ) : ℤ) := by
      intro i
      split_ifs with hi
      · exact hslice i hi
      · rfl
    have hpart : (losers.map fun c => slice s last winner c / ((winner :: behind).length : ℤ)).sum =
        ((losers.map fun c => between (bet c) cur (max cur (bet winner)) /
          (behind.length + 1)).sum : ℕ) := by
      rw [Nat.cast_list_sum, List.map_map]
      congr 1
      refine List.map_congr_left fun c hc => ?_
      rw [hslice c hc, List.length_cons]
      rfl
    rw [payWinner, if_neg hw0, if_neg hequal]
    refine ⟨hfair, fun i => ?_, fun i => ?_⟩
    · rw [(hvalues i).1, hif]
    · rw [(hvalues i).2, hif, hpart, winnerGain]
      split_ifs <;> rfl

theorem PaidUpTo.total_of_notMem {next : ℕ} {r : Ledger}
    (h : PaidUpTo bet losers cur next gain s r) (hi : i ∉ losers) :
    r.totalScore i = s.totalScore i := by
  rw [h.total, if_neg hi]
  simp

theorem Paying.next (hbet : ∑ i, bet i < 2 ^ 31)
    (hs : Paying bet losers base cur last (winner :: behind) s)
    (hdry : NoneDry bet losers base (winner :: behind)) :
    Paying bet losers base (max cur (bet winner)) (some winner) behind
      (payWinner losers last winner behind s) := by
  have hpaid := hs.payWinner_paidUpTo hbet
  obtain ⟨hwinner, hnodup⟩ := List.nodup_cons.1 hs.nodup
  obtain ⟨hle, hsorted⟩ := List.pairwise_cons.1 hs.sorted
  have hbase := hs.base_le
  have hcur := hs.cur_le winner List.mem_cons_self
  have hout : ∀ w ∈ winner :: behind, w ∉ losers := fun w hw hc => (hs.losers_out w hc).1 hw
  refine ⟨hpaid.fair, hnodup, hsorted, fun w hw => ?_, by omega, ?_, fun w hw => ?_,
    hs.losers_nodup, fun c hc => ⟨?_, ?_⟩, fun c hc => ?_, fun _ heq q hq hlt c hc => ?_⟩
  · have hw' := List.mem_cons_of_mem winner hw
    rw [hpaid.total_of_notMem (hout w hw'), hs.winner_total w hw']
  · have hw' : winner ∈ winner :: behind := List.mem_cons_self
    have htotal : lastScore (payWinner losers last winner behind s) (some winner) =
        (payWinner losers last winner behind s).totalScore winner := rfl
    rw [htotal, hpaid.total_of_notMem (hout winner hw'), hs.winner_total winner hw']
    omega
  · have := hs.cur_le w (List.mem_cons_of_mem _ hw)
    have := hle w hw
    omega
  · exact fun h => (hs.losers_out c hc).1 (List.mem_cons_of_mem _ h)
  · intro h
    exact (hs.losers_out c hc).1 (Option.some.inj h ▸ List.mem_cons_self)
  · rw [hpaid.total, hs.losers_total c hc, if_pos hc, between]
    omega
  · exact hdry winner List.mem_cons_self q (List.mem_cons_of_mem _ hq) (by omega) hlt c hc

def topBet (bet : Chair → ℕ) (cur : ℕ) (group : List Chair) : ℕ :=
  group.foldl (fun m i => max m (bet i)) cur

theorem le_topBet : ∀ (group : List Chair) (cur : ℕ), cur ≤ topBet bet cur group
  | [], _ => le_rfl
  | w :: ws, cur => (le_max_left cur (bet w)).trans (le_topBet ws _)

def groupGain (bet : Chair → ℕ) (losers : List Chair) (cur : ℕ) (group : List Chair)
    (i : Chair) : ℕ :=
  if i ∈ group then (losers.map fun c => Showdown.tiedShare bet (bet c) i cur group).sum else 0

theorem groupGain_cons (hnodup : (winner :: behind).Nodup) (i : Chair) :
    groupGain bet losers cur (winner :: behind) i =
      winnerGain bet losers cur winner behind i +
        groupGain bet losers (max cur (bet winner)) behind i := by
  have hwinner := (List.nodup_cons.1 hnodup).1
  unfold groupGain winnerGain
  by_cases hi : i ∈ winner :: behind
  · rw [if_pos hi, if_pos hi]
    by_cases hiw : i = winner
    · subst hiw
      rw [if_neg hwinner]
      simp only [Showdown.tiedShare, between, if_true, Nat.add_zero]
    · rw [if_pos ((List.mem_cons.1 hi).resolve_left hiw)]
      simp only [Showdown.tiedShare, between, if_neg hiw]
      exact List.sum_map_add
  · rw [if_neg hi, if_neg hi, if_neg fun h => hi (List.mem_cons_of_mem _ h)]

/-- **One group.** Everybody behind pays up to the highest bet of the
group, and the chairs of the group take their slices. -/
theorem Paying.payWinners_paidUpTo (hbet : ∑ i, bet i < 2 ^ 31) :
    ∀ {rest : List Chair} {last : Option Chair} {cur : ℕ} {s : Ledger},
      Paying bet losers base cur last rest s → NoneDry bet losers base rest →
      PaidUpTo bet losers cur (topBet bet cur rest) (groupGain bet losers cur rest) s
        (payWinners losers last rest s) := by
  intro rest
  induction rest with
  | nil =>
    intro last cur s hs _
    refine PaidUpTo.refl hs.fair (fun c _ => ?_) fun i => ?_
    · rw [between, topBet, List.foldl_nil, Nat.sub_self]
    · rw [groupGain, if_neg List.not_mem_nil]
  | cons winner behind ih =>
    intro last cur s hs hdry
    have hdry' : NoneDry bet losers base behind := fun p hp q hq =>
      hdry p (List.mem_cons_of_mem _ hp) q (List.mem_cons_of_mem _ hq)
    have := (hs.payWinner_paidUpTo hbet).trans (ih (hs.next hbet hdry) hdry')
      (le_max_left _ _) (le_topBet _ _)
    have hgain : groupGain bet losers cur (winner :: behind) = _ :=
      funext fun i => groupGain_cons hs.nodup i
    rw [payWinners]
    exact hgain ▸ this

/-! ## All groups -/

variable {R : Type*} [LinearOrder R] {S : Showdown Chair R}

/-- A last group of chairs that gave up, behind everybody still in. -/
structure GaveUp (S : Showdown Chair R) (base : ℕ) (group : List Chair) : Prop where
  notMem : ∀ p ∈ group, p ∉ S.live
  bet_le : ∀ b ∈ S.live, S.bet b ≤ base
  base_le : base = 0 ∨ ∃ b ∈ S.live, S.bet b = base

/-- **Groups in order**, from the best hands down, with no chair run dry
in front of another. -/
def Ranked (S : Showdown Chair R) : ℕ → List (List Chair) → Prop
  | _, [] => True
  | base, group :: groups =>
      group ≠ [] ∧
      (S.TiedGroup base group ∧ NoneDry S.bet groups.flatten base group ∨
        groups = [] ∧ GaveUp S base group) ∧
      (∀ c, c ∉ group → c ∉ groups.flatten → S.bet c ≤ base) ∧
      Ranked S (topBet S.bet base group) groups

theorem Ranked.losersOf_eq : ∀ {groups : List (List Chair)} {base : ℕ}, Ranked S base groups →
    losersOf groups = groups.flatten
  | [], _, _ => rfl
  | group :: groups, _, h => by
    have := h.2.2.2.losersOf_eq
    rw [losersOf] at this ⊢
    rw [List.takeWhile_cons_of_pos (by simpa using h.1), List.flatten_cons, List.flatten_cons, this]

theorem payWinners_nil : ∀ (group : List Chair) (last : Option Chair) (s : Ledger),
    payWinners [] last group s = s
  | [], _, _ => rfl
  | winner :: behind, last, s => by
    have : payWinner [] last winner behind s = s := by
      rw [payWinner, List.foldl_nil]
      split_ifs <;> rfl
    rw [payWinners, this, payWinners_nil behind]

theorem payGroups_singleton (count : ℕ) (group : List Chair) (s : Ledger) :
    payGroups count [group] s = s := by
  cases count with
  | zero => rfl
  | succ count =>
    have hlosers : losersOf [] = [] := rfl
    rw [payGroups, hlosers, payWinners_nil]
    cases count <;> simp [payGroups]

omit [LinearOrder R] in
/-- What a tied chair takes from everybody else is what it takes from the
groups behind. -/
theorem sum_tiedShare {later : List Chair} (hnodup : later.Nodup)
    (hdisj : ∀ c ∈ later, c ∉ group) (hpoor : ∀ c, c ∉ group → c ∉ later → S.bet c ≤ base)
    (p : Chair) : (∑ c, if c ∈ group then 0 else Showdown.tiedShare S.bet (S.bet c) p base group) =
      (later.map fun c => Showdown.tiedShare S.bet (S.bet c) p base group).sum := by
  rw [← List.sum_toFinset _ hnodup]
  have hzero : ∀ c ∈ univ, c ∉ later.toFinset →
      (if c ∈ group then 0 else Showdown.tiedShare S.bet (S.bet c) p base group) = 0 := by
    intro c _ hc
    rw [List.mem_toFinset] at hc
    split_ifs with hg
    · rfl
    · exact Showdown.tiedShare_eq_zero group (hpoor c hg hc)
  rw [← sum_subset (subset_univ later.toFinset) hzero]
  refine sum_congr rfl fun c hc => ?_
  rw [if_neg (hdisj c (List.mem_toFinset.1 hc))]

/-- **All groups.** Everybody gets his share of the side pots. -/
theorem payGroups_share (hbet : ∑ i, S.bet i < 2 ^ 31) :
    ∀ (groups : List (List Chair)) (base count : ℕ) (s : Ledger), Ranked S base groups →
      groups.flatten.Nodup → groups.length ≤ count + 1 → Fair S.bet s →
      (∀ c ∈ groups.flatten, s.totalScore c = (S.bet c - base : ℕ) ∧
        s.userScore c + S.bet c = (S.bet c - base : ℕ)) →
      Fair S.bet (payGroups count groups s) ∧
      (∀ p ∈ groups.flatten, (payGroups count groups s).userScore p + S.bet p = S.share p) ∧
      ∀ p, p ∉ groups.flatten → (payGroups count groups s).userScore p = s.userScore p := by
  intro groups
  induction groups with
  | nil =>
    intro base count s _ _ _ hs _
    cases count <;> exact ⟨hs, fun _ h => absurd h List.not_mem_nil, fun _ _ => rfl⟩
  | cons group groups ih =>
    intro base count s hranked hnodup hcount hs hstate
    obtain ⟨hne, hkind, hpoor, hrest⟩ := hranked
    rw [List.flatten_cons] at hnodup hstate ⊢
    obtain ⟨hgroup, hlater, hdisj⟩ := List.nodup_append.1 hnodup
    by_cases hlast : groups = []
    · subst hlast
      rw [payGroups_singleton]
      refine ⟨hs, fun p hp => ?_, fun _ _ => rfl⟩
      have hp' : p ∈ group := by simpa using hp
      rw [(hstate p hp).2]
      rcases hkind with ⟨htied, -⟩ | ⟨-, hgave⟩
      · rw [htied.share_eq hp', sum_tiedShare List.nodup_nil (List.forall_mem_nil _)
          fun c hc _ => hpoor c hc List.not_mem_nil]
        simp
      · rw [Showdown.share_of_not_live (hgave.notMem p hp') hgave.bet_le hgave.base_le]
    · obtain ⟨htied, hdry⟩ := hkind.resolve_right fun h => hlast h.1
      obtain ⟨count, rfl⟩ : ∃ n, count = n + 1 := by
        have := List.length_pos_iff.2 hlast
        rw [List.length_cons] at hcount
        exact ⟨count - 1, by omega⟩
      have hmem : ∀ c ∈ groups.flatten, c ∉ group := fun c hc h => hdisj c h c hc rfl
      have hpaying : Paying S.bet groups.flatten base base none group s :=
        { fair := hs
          nodup := hgroup
          sorted := htied.sorted
          winner_total := fun w hw => (hstate w (List.mem_append_left _ hw)).1
          base_le := le_rfl
          last_total := by simp [lastScore]
          cur_le := fun _ _ => le_max_left _ _
          losers_nodup := hlater
          losers_out := fun c hc => ⟨hmem c hc, by rintro ⟨⟩⟩
          losers_total := fun c hc => (hstate c (List.mem_append_right _ hc)).1
          not_dry := fun h => absurd h Bool.false_ne_true }
      have hpaid := hpaying.payWinners_paidUpTo hbet hdry
      have htop : base ≤ topBet S.bet base group := le_topBet group base
      rw [payGroups, if_neg (by simpa using hne), hrest.losersOf_eq]
      obtain ⟨hfair, hshare, hsame⟩ := ih (topBet S.bet base group) count
        (payWinners groups.flatten none group s) hrest hlater
        (by rw [List.length_cons] at hcount; omega) hpaid.fair (by
          intro c hc
          have hc' := hstate c (List.mem_append_right _ hc)
          have hgain : groupGain S.bet groups.flatten base group c = 0 := if_neg (hmem c hc)
          rw [hpaid.total, hpaid.user, if_pos hc, hgain, hc'.1, between]
          omega)
      refine ⟨hfair, fun p hp => ?_, fun p hp => ?_⟩
      · by_cases hpg : p ∈ group
        · have hpl : p ∉ groups.flatten := fun h => hmem p h hpg
          have hp' := (hstate p hp).2
          rw [hsame p hpl, hpaid.user, if_neg hpl, htied.share_eq hpg,
            sum_tiedShare hlater hmem hpoor, groupGain, if_pos hpg]
          push_cast at hp' ⊢
          omega
        · exact hshare p ((List.mem_append.1 hp).resolve_left hpg)
      · have hpl : p ∉ groups.flatten := fun h => hp (List.mem_append_right _ h)
        have hpg : p ∉ group := fun h => hp (List.mem_append_left _ h)
        rw [hsame p hpl, hpaid.user, if_neg hpl, groupGain, if_neg hpg]
        simp

end GameServer.TexasHoldem
