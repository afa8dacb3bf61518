import GameServer.Ox.Stages
import Mathlib.Tactic.NormNum
/-!
# Ox — what the banker can lose

The limits divide what the banker has by the number of those who play
against him and by the greatest multiple, so he can pay for all stakes
that were accepted (`Banked.covered`). A hand that is played out then
settles without a shortfall (`Showing.conclude`).
-/

namespace GameServer.Ox

/-! ## Quotients -/

theorem mul_le_of_le_tdiv {x y : ℤ} {k : ℕ} (hpos : 0 < y) (h : y ≤ x.tdiv k) : k * y ≤ x := by
  have hx : 0 ≤ x := by
    by_contra hneg
    have hle : x.tdiv k ≤ (0 : ℤ).tdiv k := by
      obtain rfl | hk := Nat.eq_zero_or_pos k
      · rw [Nat.cast_zero, Int.tdiv_zero, Int.tdiv_zero]
      · exact Int.tdiv_le_tdiv (Int.natCast_pos.2 hk) (not_le.1 hneg).le
    rw [Int.zero_tdiv] at hle
    exact absurd (h.trans hle) (not_le.2 hpos)
  have hk : (k : ℤ) ≠ 0 := by
    rintro hk
    rw [hk, Int.tdiv_zero] at h
    exact absurd h (not_le.2 hpos)
  have hle := Int.tdiv_mul_le x hk
  rw [if_pos hx, Nat.cast_zero, add_zero, mul_comm] at hle
  exact (mul_le_mul_of_nonneg_left h (Int.natCast_nonneg k)).trans hle

theorem tdiv_nonpos {x : ℤ} {k : ℕ} (h : x < k) : x.tdiv k ≤ 0 := by
  obtain hneg | hnonneg := lt_or_ge x 0
  · by_contra hpos
    have := mul_le_of_le_tdiv (not_le.1 hpos) le_rfl
    have := mul_nonneg (Int.natCast_nonneg k) (not_le.1 hpos).le
    omega
  · exact (Int.tdiv_eq_zero_of_lt hnonneg h).le

theorem sum_ite_eq_countP (f : Chair → Bool) (x : ℤ) :
    (∑ i, if f i = true then x else 0) = (List.finRange gamePlayer).countP f * x := by
  rw [Fin.sum_univ_def]
  induction List.finRange gamePlayer with
  | nil => rw [List.map_nil, List.sum_nil, List.countP_nil, Nat.cast_zero, zero_mul]
  | cons i l ih =>
    rw [List.map_cons, List.sum_cons, ih, List.countP_cons]
    split <;> grind

theorem getTimes_le (cards : List UInt8) : getTimes cards ≤ 5 := by
  unfold getTimes
  dsimp only
  split_ifs <;> decide

namespace TableSink

variable {s s' : TableSink} {chair banker i : Chair} {bankerScore : ℤ} {n : ℕ}

theorem winTimes_le (s : TableSink) (i : Chair) : s.winTimes i ≤ 5 := by
  unfold winTimes
  split
  · exact getTimes_le _
  · decide

/-- A stake within its limit, five times over, is a share of what the
banker has. -/
theorem Banked.stake_le (hb : s.Banked banker bankerScore n) (hi : s.idle banker i)
    (hpos : 0 < s.tableScore i) : 5 * s.tableScore i ≤ bankerScore.tdiv (n - 1 : ℕ) := by
  obtain ⟨own, -, hmax, hle⟩ := hb.limits i hi
  exact mul_le_of_le_tdiv (k := 5) hpos ((hle hpos).trans (hmax.trans_le (min_le_left _ _)))

theorem idleScore_le (hstakes : 0 ≤ s.tableScore i) (banker : Chair) :
    s.idleScore banker i ≤ if s.idle banker i then 5 * s.tableScore i else 0 := by
  have htimes : (s.winTimes i : ℤ) ≤ 5 := Nat.cast_le.2 (s.winTimes_le i)
  have hlost : 0 ≤ s.tableScore i * s.winTimes banker := mul_nonneg hstakes (Int.natCast_nonneg _)
  rw [idleScore]
  split
  · split
    · rw [mul_comm]
      exact mul_le_mul_of_nonneg_right htimes hstakes
    · rw [neg_one_mul, neg_mul]
      omega
  · exact le_rfl

theorem Seated.exit_nonneg (hs : s.Seated) : 0 ≤ s.exitScore := by
  rw [hs.exits]
  refine Finset.sum_nonneg fun i _ => ?_
  split
  · exact le_rfl
  · exact hs.stakes i

theorem bankerNet_eq (s : TableSink) (banker : Chair) :
    s.bankerNet banker = -(∑ i, s.idleScore banker i) + s.exitScore := by
  rw [bankerNet, Fin.sum_univ_def]

/-- **The limits cover the banker**: with every stake in, what he has pays
for all of them at the greatest multiple. -/
theorem Banked.covered (hb : s.Banked banker bankerScore n) (hs : s.Seated)
    (hall : ∀ i, s.idle banker i → 0 < s.tableScore i) :
    0 < bankerScore ∧ -bankerScore ≤ s.bankerNet banker := by
  obtain ⟨i, hi, hplays⟩ := hs.exists_playing banker
  have hstake := hb.stake_le ⟨hi, hplays⟩ (hall i ⟨hi, hplays⟩)
  have hpos := hall i ⟨hi, hplays⟩
  generalize hx : bankerScore.tdiv (n - 1 : ℕ) = x at hstake
  have hxpos : 0 < x := by omega
  have hshares : (n - 1 : ℕ) * x ≤ bankerScore := mul_le_of_le_tdiv hxpos hx.ge
  have hone : x ≤ (n - 1 : ℕ) * x := by
    refine le_mul_of_one_le_left hxpos.le ?_
    have := hs.two.trans hb.count
    exact_mod_cast (by omega : 1 ≤ n - 1)
  have hsum : ∑ i, s.idleScore banker i ≤ ∑ i, if s.idle banker i then x else 0 := by
    refine Finset.sum_le_sum fun i _ => (idleScore_le (hs.stakes i) banker).trans ?_
    split
    · next hidle => exact hx ▸ hb.stake_le hidle (hall i hidle)
    · exact le_rfl
  have hcount : (List.finRange gamePlayer).countP (fun i => decide (s.idle banker i)) ≤ n - 1 := by
    have hothers := count_others (fun i => decide (s.Playing i)) banker (decide_eq_true hb.plays)
    have heq : (fun i => decide (s.idle banker i)) =
        fun i => decide (i ≠ banker) && decide (s.Playing i) := by
      funext i
      exact Bool.decide_and _ _
    rw [heq]
    have := hb.count
    rw [userCount_eq] at this
    omega
  have hcover : ∑ i, s.idleScore banker i ≤ (n - 1 : ℕ) * x := by
    refine hsum.trans ?_
    have htotal := sum_ite_eq_countP (fun i => decide (s.idle banker i)) x
    simp only [decide_eq_true_eq] at htotal
    rw [htotal]
    exact mul_le_mul_of_nonneg_right (Nat.cast_le.2 hcount) hxpos.le
  have hexit := hs.exit_nonneg
  rw [bankerNet_eq]
  omega

/-! ## The end of a hand -/

/-- **The settlement** of a hand: the banker loses what he has at most. -/
theorem Showing.conclude (hs : s.Showing) : ∃ banker bankerScore score,
    s.onEventGameConclude = some (s.concludeGame, [.gameEnd banker bankerScore score]) ∧
      -score banker ≤ bankerScore := by
  obtain ⟨banker, bankerScore, n, hb, hall⟩ := hs.banked
  obtain ⟨-, hcovered⟩ := hb.covered hs.seated hall
  have hpaid : s.paidScore banker bankerScore =
      some fun i => if i = banker then s.bankerNet banker else s.idleScore banker i :=
    if_neg fun hshort => by have := hshort.2; omega
  have hnone : ¬ (¬ s.idle banker banker ∧ 0 < s.tableScore banker) := by
    rw [hb.stake]
    exact fun h => lt_irrefl _ h.2
  refine ⟨banker, bankerScore, fun i => if ¬ s.idle banker i ∧ 0 < s.tableScore i
    then -s.tableScore i else if i = banker then s.bankerNet banker else s.idleScore banker i, ?_, ?_⟩
  · rw [onEventGameConclude, hb.user]
    simp only [Option.bind_eq_bind, Option.bind_some, hb.score, gameScore, hpaid, Option.map_some]
  · beta_reduce
    rw [if_neg hnone, if_pos rfl]
    omega

theorem opened_iff (s : TableSink) :
    (List.finRange gamePlayer).countP (fun i =>
      s.oxCard i ≠ none ∧ s.playStatus i = .playing ∨ s.playStatus i ≠ .playing) = gamePlayer ↔
      ∀ i, ¬ s.Closed i := by
  rw [count_eq_all]
  simp only [decide_eq_true_eq]
  refine forall_congr' fun i => ⟨?_, fun h => ?_⟩
  · rintro (hopen | hidle) hclosed
    · exact hopen.1 hclosed.2
    · exact hidle hclosed.1
  · by_cases hplays : s.Playing i
    · exact .inl ⟨fun hnone => h ⟨hplays, hnone⟩, hplays⟩
    · exact .inr hplays

/-- **Cards that are opened**: with the last ones the hand is settled. -/
theorem Showing.openCard {ox : UInt8} (hs : s.Showing) (hclosed : s.oxCard chair = none)
    (hox : ¬ ox > 1) (htype : ¬ (ox = 1 ∧ getCardType (s.handCardData chair) = 0)) :
    ∃ shown : Bool,
      let next : TableSink := { s with oxCard := Function.update s.oxCard chair (some shown) }
      (s.onUserOpenCard chair ox = some (next, [.openCard chair shown]) ∧ next.Opening) ∨
        ∃ banker bankerScore score, s.onUserOpenCard chair ox = some (next.concludeGame,
          [.openCard chair shown, .gameEnd banker bankerScore score]) ∧
            -score banker ≤ bankerScore ∧ ∀ i, s.Closed i → i = chair := by
  obtain ⟨banker, bankerScore, n, hb, hall⟩ := hs.banked
  generalize hshown : decide (ox = 1 ∨ s.playStatus chair = .playing ∧
    getCardType (s.handCardData chair) ≥ oxThreeSame) = shown
  refine ⟨shown, ?_⟩
  intro next
  have hnext : next.Showing := ⟨hs.status,
    ⟨hs.seated.two, hs.seated.present, hs.seated.stakes, hs.seated.exits⟩, banker, bankerScore, n,
    ⟨hb.user, hb.plays, hb.score, hb.stake, hb.limit, hb.count, hb.limits⟩, hall⟩
  have haccept : s.onUserOpenCard chair ox =
      if (List.finRange gamePlayer).countP (fun i => next.oxCard i ≠ none ∧
        next.playStatus i = .playing ∨ next.playStatus i ≠ .playing) = gamePlayer
      then next.onEventGameConclude.map fun r => (r.1, .openCard chair shown :: r.2)
      else some (next, [.openCard chair shown]) := by
    rw [onUserOpenCard, if_neg (not_or.2 ⟨not_not.2 hs.status, not_not.2 hclosed⟩), if_neg hox,
      if_neg htype]
    simp only [hshown]
    rfl
  rw [haccept]
  split_ifs with hopen
  · obtain ⟨banker, bankerScore, score, hconclude, hle⟩ := hnext.conclude
    refine .inr ⟨banker, bankerScore, score, ?_, hle, fun i hi => by_contra fun hne => ?_⟩
    · rw [hconclude, Option.map_some]
    · exact (opened_iff next).1 hopen i
        ⟨hi.1, (Function.update_of_ne hne _ s.oxCard).trans hi.2⟩
  · rw [opened_iff] at hopen
    push Not at hopen
    exact .inl ⟨rfl, hnext, hopen⟩

end TableSink

end GameServer.Ox
