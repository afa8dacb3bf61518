import GameServer.GuanDan.Model.Settlement
import Mathlib.Algebra.Group.Fin.Basic
/-!
# Guandan — what a hand is worth to the four

The losers pay what they can of the stake and the winners halve it. The
revenue is written beside the winners' scores but never taken off them, so
that a hand balances exactly where no revenue is due and the amounts fit
their 32 bits (`balanced_iff`).
-/

namespace GameServer.GuanDan

variable {revenueRatio : UInt16} {ranking : Fin 4 → Chair} {cellScore : ℤ} {userScore : Chair → ℤ}

def ScoreInfo.gross (info : ScoreInfo) : ℤ := info.score + info.revenue

/-- **A hand that balances**: scores and revenues add up to nothing but the
unit that halving an odd loss leaves, no loser loses more than he has, and
the winners receive the same. -/
structure Balanced (first : Chair) (userScore : Chair → ℤ) (info : Chair → ScoreInfo) : Prop where
  sum : ∑ i, (info i).gross = -(-((info (first + 1)).score + (info (first + 3)).score) % 2)
  losers : ∀ i, i = first + 1 ∨ i = first + 3 → -(info i).score ≤ userScore i
  winners : (info first).gross = (info (first + 2)).gross

def stake (ranking : Fin 4 → Chair) (cellScore : ℤ) : ℤ := handScore ranking * cellScore

/-- What a loser can pay of the stake. -/
def paid (ranking : Fin 4 → Chair) (cellScore : ℤ) (userScore : Chair → ℤ) (i : Chair) : ℤ :=
  min (stake ranking cellScore) (userScore i)

/-- The amounts stay in their words, the losers lose something together,
and no revenue is due on what anyone receives. -/
structure Untaxed (revenueRatio : UInt16) (ranking : Fin 4 → Chair) (cellScore : ℤ)
    (userScore : Chair → ℤ) : Prop where
  stake : -2 ^ 31 ≤ stake ranking cellScore ∧ stake ranking cellScore < 2 ^ 31
  low : ∀ i, i = ranking 0 + 1 ∨ i = ranking 0 + 3 → -2 ^ 31 < paid ranking cellScore userScore i
  sum : 0 ≤ paid ranking cellScore userScore (ranking 0 + 1) +
        paid ranking cellScore userScore (ranking 0 + 3) ∧
      paid ranking cellScore userScore (ranking 0 + 1) +
        paid ranking cellScore userScore (ranking 0 + 3) < 2 ^ 31
  losers : ∀ i, i = ranking 0 + 1 ∨ i = ranking 0 + 3 →
    calculateRevenue revenueRatio (-paid ranking cellScore userScore i) = 0
  winners : calculateRevenue revenueRatio ((paid ranking cellScore userScore (ranking 0 + 1) +
    paid ranking cellScore userScore (ranking 0 + 3)) / 2) = 0

theorem long_eq_some {x y : ℤ} : long x = some y ↔ (-2 ^ 31 ≤ x ∧ x < 2 ^ 31) ∧ x = y := by
  rw [long]
  split_ifs with h
  · rw [Option.some.injEq]
    exact ⟨fun hxy => ⟨h, hxy⟩, And.right⟩
  · exact ⟨nofun, fun hxy => absurd hxy.1 h⟩

theorem calculateRevenue_nonneg (revenueRatio : UInt16) (score : ℤ) :
    0 ≤ calculateRevenue revenueRatio score := by
  rw [calculateRevenue]
  split_ifs with h
  · exact Int.tdiv_nonneg (mul_nonneg h.2 (Int.natCast_nonneg _)) (by decide)
  · exact le_rfl

theorem calculateRevenue_of_nonpos {score : ℤ} (h : score ≤ 0) :
    calculateRevenue revenueRatio score = 0 := by
  rw [calculateRevenue]
  split_ifs with hpos
  · rw [le_antisymm h hpos.2, Int.zero_mul, Int.zero_tdiv]
  · rfl

@[simp] theorem scoreInfo_score (revenueRatio : UInt16) (score : ℤ) :
    (scoreInfo revenueRatio score).score = score := by
  simp only [scoreInfo]
  split_ifs <;> simp

@[simp] theorem scoreInfo_gross (revenueRatio : UInt16) (score : ℤ) :
    (scoreInfo revenueRatio score).gross = score + calculateRevenue revenueRatio score := by
  simp only [scoreInfo, ScoreInfo.gross]
  split_ifs with hpos hzero
  · rw [sub_zero]
  · rw [calculateRevenue_of_nonpos hzero.le]
  · rw [calculateRevenue_of_nonpos (not_lt.1 hpos)]

theorem sum_chairs (f : Chair → ℤ) (first : Chair) :
    ∑ i, f i = f first + f (first + 1) + f (first + 2) + f (first + 3) := by
  rw [← Equiv.sum_comp (Equiv.addLeft first) f, Fin.sum_univ_four]
  simp

theorem int32_neg {m : ℤ} (h : m < 2 ^ 31) :
    (-2 ^ 31 < m → int32 (0 - m) = -m) ∧ (m ≤ -2 ^ 31 → m < -int32 (0 - m)) := by
  rw [int32, Int.bmod_def]
  omega

section Losers

variable (ranking : Fin 4 → Chair) (cellScore : ℤ) (userScore : Chair → ℤ)

def lost (i : Chair) : ℤ := int32 (0 - paid ranking cellScore userScore i)

/-- The losers' scores together. -/
def lostBoth : ℤ :=
  lost ranking cellScore userScore (ranking 0 + 1) + lost ranking cellScore userScore (ranking 0 + 3)

end Losers

/-- There are scores when the amounts fit. -/
theorem gameScore_eq_some {score : Chair → ℤ} :
    gameScore ranking cellScore userScore = some score ↔
      (-2 ^ 31 ≤ stake ranking cellScore ∧ stake ranking cellScore < 2 ^ 31) ∧
      (-2 ^ 31 < lostBoth ranking cellScore userScore ∧
        lostBoth ranking cellScore userScore < 2 ^ 31) ∧
      score = fun i =>
        if i = ranking 0 ∨ i = ranking 0 + 2 then
          ((lostBoth ranking cellScore userScore).natAbs : ℤ).tdiv 2
        else lost ranking cellScore userScore i := by
  have hthird : ranking 0 + 1 + 2 = ranking 0 + 3 := by
    rw [add_assoc]
    rfl
  simp only [gameScore, Option.bind_eq_bind, Option.bind_eq_some_iff, long_eq_some, hthird,
    Option.pure_def, Option.some.injEq]
  constructor
  · rintro ⟨x, ⟨hstake, rfl⟩, y, ⟨hboth, rfl⟩, z, ⟨habs, rfl⟩, rfl⟩
    refine ⟨hstake, ?_, rfl⟩
    change -2 ^ 31 ≤ lostBoth ranking cellScore userScore ∧ _ at hboth
    change _ ∧ ((lostBoth ranking cellScore userScore).natAbs : ℤ) < _ at habs
    omega
  · rintro ⟨hstake, hboth, rfl⟩
    refine ⟨_, ⟨hstake, rfl⟩, lostBoth ranking cellScore userScore, ⟨?_, rfl⟩, _, ⟨?_, rfl⟩, rfl⟩
    · exact ⟨hboth.1.le, hboth.2⟩
    · omega

theorem balanced_amounts {stake r r' r₂ : ℤ} (own own' : ℤ)
    (hstake : -2 ^ 31 ≤ stake ∧ stake < 2 ^ 31) (hr : 0 ≤ r) (hr' : 0 ≤ r') (hr₂ : 0 ≤ r₂) {x x' : ℤ} (hx : x = int32 (0 - min stake own))
    (hx' : x' = int32 (0 - min stake own')) :
    ((-2 ^ 31 < x + x' ∧ x + x' < 2 ^ 31) ∧
      ((x + x').natAbs : ℤ).tdiv 2 + r₂ + (x + r) + (((x + x').natAbs : ℤ).tdiv 2 + r₂) + (x' + r') =
        -(-(x + x') % 2) ∧ -x ≤ own ∧ -x' ≤ own') ↔
      (-2 ^ 31 < min stake own ∧ -2 ^ 31 < min stake own') ∧
        (0 ≤ min stake own + min stake own' ∧ min stake own + min stake own' < 2 ^ 31) ∧
          (r = 0 ∧ r' = 0) ∧ r₂ = 0 := by
  obtain ⟨hfit, hcut⟩ := int32_neg (show min stake own < 2 ^ 31 by omega)
  obtain ⟨hfit', hcut'⟩ := int32_neg (show min stake own' < 2 ^ 31 by omega)
  rw [← hx] at hfit hcut
  rw [← hx'] at hfit' hcut'
  have hhalf : ((x + x').natAbs : ℤ).tdiv 2 = ((x + x').natAbs : ℤ) / 2 :=
    Int.tdiv_eq_ediv_of_nonneg (Int.natCast_nonneg _)
  rw [hhalf]
  constructor
  · rintro ⟨hsum, hbalance, hown, hown'⟩
    -- a balance that is cut leaves both at the lowest stake, which do not fit together
    have hlow : ∀ {y u : ℤ}, min stake u ≤ -2 ^ 31 → min stake u < -y → -y ≤ u →
        stake = -2 ^ 31 := by omega
    have hall : stake = -2 ^ 31 → False := by
      intro hmin
      have hboth : x = int32 (2 ^ 31) ∧ x' = int32 (2 ^ 31) := by
        have h := hcut (by omega)
        have h' := hcut' (by omega)
        rw [hx, hx']
        constructor
        · congr 1
          omega
        · congr 1
          omega
      rw [hboth.1, hboth.2] at hsum
      exact absurd hsum (by decide)
    have hfits : -2 ^ 31 < min stake own := by
      by_contra h
      exact hall (hlow (not_lt.1 h) (hcut (not_lt.1 h)) hown)
    have hfits' : -2 ^ 31 < min stake own' := by
      by_contra h
      exact hall (hlow (not_lt.1 h) (hcut' (not_lt.1 h)) hown')
    rw [hfit hfits, hfit' hfits'] at hbalance hsum
    omega
  · rintro ⟨⟨hfits, hfits'⟩, hsum, ⟨rfl, rfl⟩, rfl⟩
    rw [hfit hfits, hfit' hfits']
    omega

theorem balanced_scores {first : Chair} {score : Chair → ℤ} {x x' win : ℤ} (hone : score first = win)
    (htwo : score (first + 1) = x) (hthree : score (first + 2) = win)
    (hfour : score (first + 3) = x') :
    Balanced first userScore (fun i => scoreInfo revenueRatio (score i)) ↔
      win + calculateRevenue revenueRatio win + (x + calculateRevenue revenueRatio x) +
        (win + calculateRevenue revenueRatio win) + (x' + calculateRevenue revenueRatio x') =
          -(-(x + x') % 2) ∧ -x ≤ userScore (first + 1) ∧ -x' ≤ userScore (first + 3) := by
  have hsum : ∑ i, (scoreInfo revenueRatio (score i)).gross =
      win + calculateRevenue revenueRatio win + (x + calculateRevenue revenueRatio x) +
        (win + calculateRevenue revenueRatio win) + (x' + calculateRevenue revenueRatio x') := by
    rw [sum_chairs _ first]
    simp only [scoreInfo_gross, hone, htwo, hthree, hfour]
  constructor
  · rintro ⟨hb, hl, -⟩
    simp only [scoreInfo_score] at hb hl
    rw [hsum, htwo, hfour] at hb
    exact ⟨hb, htwo ▸ hl _ (.inl rfl), hfour ▸ hl _ (.inr rfl)⟩
  · rintro ⟨hb, hl, hl'⟩
    refine ⟨?_, ?_, ?_⟩
    · rw [hsum]
      simp only [scoreInfo_score, htwo, hfour]
      exact hb
    · rintro i (rfl | rfl)
      · simpa only [scoreInfo_score, htwo] using hl
      · simpa only [scoreInfo_score, hfour] using hl'
    · simp only [hone, hthree]

/-- The hand that is settled, by the two losers' scores. -/
theorem settle_balanced : (∃ info, settle revenueRatio ranking cellScore userScore = some info ∧
      Balanced (ranking 0) userScore info) ↔
    (-2 ^ 31 ≤ stake ranking cellScore ∧ stake ranking cellScore < 2 ^ 31) ∧
      (-2 ^ 31 < lostBoth ranking cellScore userScore ∧
        lostBoth ranking cellScore userScore < 2 ^ 31) ∧
      Balanced (ranking 0) userScore fun i => scoreInfo revenueRatio
        (if i = ranking 0 ∨ i = ranking 0 + 2 then
          ((lostBoth ranking cellScore userScore).natAbs : ℤ).tdiv 2
        else lost ranking cellScore userScore i) := by
  simp only [settle, Option.map_eq_some_iff, gameScore_eq_some]
  constructor
  · rintro ⟨info, ⟨s, ⟨hstake, hboth, rfl⟩, rfl⟩, hinfo⟩
    exact ⟨hstake, hboth, hinfo⟩
  · rintro ⟨hstake, hboth, hinfo⟩
    exact ⟨_, ⟨_, ⟨hstake, hboth, rfl⟩, rfl⟩, hinfo⟩

/-- **A hand balances exactly** when its amounts fit and no revenue is
due. -/
theorem balanced_iff :
    (∃ info, settle revenueRatio ranking cellScore userScore = some info ∧
      Balanced (ranking 0) userScore info) ↔
        Untaxed revenueRatio ranking cellScore userScore := by
  have hchairs : ∀ i : Chair, i + 1 ≠ i ∧ i + 1 ≠ i + 2 ∧ i + 3 ≠ i ∧ i + 3 ≠ i + 2 := by decide
  obtain ⟨h₁, h₂, h₃, h₄⟩ := hchairs (ranking 0)
  rw [settle_balanced, balanced_scores (if_pos (.inl rfl)) (if_neg (not_or.2 ⟨h₁, h₂⟩))
    (if_pos (.inr rfl)) (if_neg (not_or.2 ⟨h₃, h₄⟩)), lostBoth]
  set x := lost ranking cellScore userScore (ranking 0 + 1) with hx
  set x' := lost ranking cellScore userScore (ranking 0 + 3) with hx'
  have hamounts := fun hstake => balanced_amounts (userScore (ranking 0 + 1))
    (userScore (ranking 0 + 3)) hstake (calculateRevenue_nonneg revenueRatio x)
    (calculateRevenue_nonneg revenueRatio x') (calculateRevenue_nonneg revenueRatio
      (((x + x').natAbs : ℤ).tdiv 2)) hx hx'
  -- what fits is written as it is
  have hwritten : ∀ {i}, stake ranking cellScore < 2 ^ 31 →
      -2 ^ 31 < paid ranking cellScore userScore i →
      lost ranking cellScore userScore i = -paid ranking cellScore userScore i := by
    intro i hstake hlow
    exact (int32_neg (lt_of_le_of_lt (min_le_left _ _) hstake)).1 hlow
  have hwin : ∀ {a b : ℤ}, 0 ≤ a + b → ((-a + -b).natAbs : ℤ).tdiv 2 = (a + b) / 2 := by
    intro a b hab
    rw [Int.tdiv_eq_ediv_of_nonneg (Int.natCast_nonneg _)]
    omega
  constructor
  · rintro ⟨hstake, hboth, hbalance⟩
    obtain ⟨⟨hlow, hlow'⟩, hsum, ⟨hr, hr'⟩, hr₂⟩ := (hamounts hstake).1 ⟨hboth, hbalance⟩
    have hone := hwritten hstake.2 hlow
    have htwo := hwritten hstake.2 hlow'
    rw [hx, hone] at hr
    rw [hx', htwo] at hr'
    have hpaid : 0 ≤ paid ranking cellScore userScore (ranking 0 + 1) +
        paid ranking cellScore userScore (ranking 0 + 3) := hsum.1
    rw [hx, hx', hone, htwo, hwin hpaid] at hr₂
    refine ⟨hstake, ?_, hsum, ?_, hr₂⟩
    · rintro i (rfl | rfl)
      · exact hlow
      · exact hlow'
    · rintro i (rfl | rfl)
      · exact hr
      · exact hr'
  · rintro ⟨hstake, hlow, hsum, hr, hr₂⟩
    have hone := hwritten hstake.2 (hlow _ (.inl rfl))
    have htwo := hwritten hstake.2 (hlow _ (.inr rfl))
    refine ⟨hstake, (hamounts hstake).2 ⟨⟨hlow _ (.inl rfl), hlow _ (.inr rfl)⟩, hsum, ⟨?_, ?_⟩, ?_⟩⟩
    · rw [hx, hone]
      exact hr _ (.inl rfl)
    · rw [hx', htwo]
      exact hr _ (.inr rfl)
    · rw [hx, hx', hone, htwo, hwin hsum.1]
      exact hr₂

/-- The first two are partners, at a cell score of 100 and a revenue of
five percent: the revenue comes on top. -/
theorem not_balanced : ∃ info, settle 50 ![0, 2, 1, 3] 100 (fun _ => 1000) = some info ∧
    ∑ i, (info i).gross = 30 ∧ ¬ Balanced 0 (fun _ => 1000) info := by
  refine ⟨_, rfl, by decide, fun h => ?_⟩
  have hsum := h.sum
  revert hsum
  decide

end GameServer.GuanDan
