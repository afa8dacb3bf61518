import GameServer.DouDizhu.Model.Settlement
/-!
# Dou Dizhu — scores that add up to zero

The banker plays for two units and each peasant for one. The shares keep
the balance (`sum_userScore`), the multiplier and the revenue do too, so
that a hand that was played out writes zero but in a match that the banker
loses with both peasants played for: he pays, and nobody is paid. A flight
is shared by two halves, rounded, and an odd penalty loses one point.
-/

namespace GameServer.DouDizhu

variable {opt : ScoreRule} {s : ScoreSink}

/-- What is written for a user: the score and the revenue taken off it. -/
def ScoreInfo.total (info : ScoreInfo) : ℤ := info.score + info.revenue

theorem calculateRevenue_nonneg (opt : ScoreRule) (score : ℤ) : 0 ≤ calculateRevenue opt score := by
  rw [calculateRevenue]
  split_ifs with h
  · exact Int.tdiv_nonneg (mul_nonneg h.2 (Int.natCast_nonneg _)) (by decide)
  · exact le_rfl

@[simp] theorem total_charge (opt : ScoreRule) (type : ScoreType) (score : ℤ) :
    (charge opt type score).total = score := by
  have := calculateRevenue_nonneg opt score
  simp only [charge, ScoreInfo.total]
  split_ifs <;> omega

namespace ScoreSink

/-- A match that the banker loses with both peasants played for. -/
def Unpaid (isMatch : Bool) (userTrustee : Chair → Bool) (bankerUser : Chair) (out : Bool) : Prop :=
  isMatch = true ∧ out = false ∧ ∀ i, i ≠ bankerUser → userTrustee i = true

instance (isMatch : Bool) (userTrustee : Chair → Bool) (bankerUser : Chair) (out : Bool) :
    Decidable (Unpaid isMatch userTrustee bankerUser out) :=
  inferInstanceAs (Decidable (_ ∧ _))

/-- **The shares of the three players.** -/
theorem sum_userScore (isMatch : Bool) (userTrustee : Chair → Bool) (bankerUser : Chair)
    (out : Bool) : ∑ i, userScore isMatch userTrustee bankerUser out i =
      if Unpaid isMatch userTrustee bankerUser out then -2 else 0 := by
  revert isMatch userTrustee bankerUser out
  decide +kernel

/-- **A hand that was played out**: the shares, times the cell score, times
the multiplier. -/
theorem sum_concludeNormal {bankerUser : Chair} (chair : Chair) {info : Chair → ScoreInfo}
    (hbanker : s.table.bankerUser = some bankerUser) (h : s.concludeNormal opt chair = some info) :
    ∑ i, (info i).total =
      (if Unpaid (opt.has gameGenreMatch) s.table.userTrustee bankerUser
        (s.table.handCardCount bankerUser = 0) then -2 else 0) *
          opt.cellScore * s.scoreTimes opt bankerUser chair := by
  rw [concludeNormal, hbanker, Option.map_some] at h
  cases h
  simp only [total_charge]
  rw [← Finset.sum_mul, ← Finset.sum_mul, sum_userScore]

/-- **A flight whose penalty is shared**: what two halves leave of it. -/
theorem sum_concludeLeave (hshare : opt.fleeScorePatch = 1) (chair : Chair) (score : ℤ)
    {info : Chair → ScoreInfo} (h : s.concludeLeave opt chair score = some info) :
    ∑ i, (info i).total = -(s.fleeScore opt score).tmod 2 := by
  rw [concludeLeave] at h
  split_ifs at h
  cases h
  have hhalves := Int.mul_tdiv_add_tmod (s.fleeScore opt score) 2
  have hone : ∀ i, (if i = chair then ({ type := .flee, score := -s.fleeScore opt score } : ScoreInfo)
      else charge opt .win ((s.fleeScore opt score).tdiv 2)).total =
        if i = chair then -s.fleeScore opt score else (s.fleeScore opt score).tdiv 2 := by
    intro i
    split_ifs
    · exact add_zero _
    · exact total_charge _ _ _
  simp only [hone]
  have hsum : ∀ (c : Chair) (x y : ℤ), ∑ i, (if i = c then x else y) = x + 2 * y := by
    intro c x y
    rw [Fin.sum_univ_three]
    have hc : c = 0 ∨ c = 1 ∨ c = 2 := by
      revert c
      decide
    rcases hc with rfl | rfl | rfl <;> simp <;> omega
  rw [hsum]
  omega

/-- No multiplier leaves its word. -/
structure Bounded (s : ScoreSink) : Prop where
  times : s.table.bankerScore * 2 ^ s.bombCount.toNat * 2 < 2 ^ 31
  flight : 2 ^ s.bombCount.toNat < 2 ^ 16

/-- The multiplier is zero only where the most it may be is, or the call
is. -/
theorem Bounded.scoreTimes_eq_zero (hs : s.Bounded) (bankerUser chair : Chair) :
    s.scoreTimes opt bankerUser chair = 0 ↔
      opt.maxScoreTimes.toNat = 0 ∨ s.table.bankerScore = 0 := by
  have hpos : 0 < 2 ^ s.bombCount.toNat := Nat.two_pow_pos _
  have htimes := hs.times
  have hbombs : int32 (s.table.bankerScore * 2 ^ s.bombCount.toNat) =
      (s.table.bankerScore * 2 ^ s.bombCount.toNat : ℕ) := by
    rw [← int32_of_lt (by omega : s.table.bankerScore * 2 ^ s.bombCount.toNat < 2 ^ 31)]
    rfl
  have hdouble : int32 ((s.table.bankerScore * 2 ^ s.bombCount.toNat : ℕ) * 2) =
      (s.table.bankerScore * 2 ^ s.bombCount.toNat * 2 : ℕ) := by
    rw [← int32_of_lt htimes]
    rfl
  have hzero : s.table.bankerScore * 2 ^ s.bombCount.toNat = 0 ↔ s.table.bankerScore = 0 := by
    rw [Nat.mul_eq_zero]
    exact or_iff_left hpos.ne'
  rw [← hzero, ScoreSink.scoreTimes, hbombs, hdouble]
  split_ifs <;> omega

/-- The multiplier of a flight. -/
def fleeTimes (opt : ScoreRule) (s : ScoreSink) : ℕ :=
  max (min opt.maxScoreTimes.toNat (2 ^ s.bombCount.toNat)) opt.fleeScoreTimes.toNat

/-- The penalty is cut to what the user has. -/
def Cut (opt : ScoreRule) (s : ScoreSink) (score : ℤ) : Prop :=
  (opt.has scoreGenrePositive = true ∨ opt.has (gameGenreGold ||| gameGenreEducate) = true) ∧
    score < opt.cellScore * s.fleeTimes opt

theorem Bounded.odd_fleeScore (hs : s.Bounded) (score : ℤ) : Odd (s.fleeScore opt score) ↔
    (Cut opt s score ∧ Odd score) ∨
      (¬ Cut opt s score ∧ Odd opt.cellScore ∧ Odd (s.fleeTimes opt)) := by
  have htimes : max (s.leaveTimes opt) opt.fleeScoreTimes.toNat = s.fleeTimes opt := by
    rw [leaveTimes, word_of_lt hs.flight, fleeTimes]
  have hproduct : Odd (opt.cellScore * (s.fleeTimes opt : ℤ)) ↔
      Odd opt.cellScore ∧ Odd (s.fleeTimes opt) := by
    rw [Int.odd_mul, Int.odd_coe_nat]
  rw [fleeScore, htimes, ← hproduct, Cut]
  split_ifs with hgenre
  · simp only [hgenre, true_and]
    rcases lt_or_ge score (opt.cellScore * s.fleeTimes opt) with hlt | hge
    · simp [min_eq_left hlt.le, hlt]
    · simp [min_eq_right hge, not_lt.2 hge]
  · simp [hgenre]

/-- **What is written adds up to zero**, of a flight where the penalty is
shared. -/
def ZeroSum (opt : ScoreRule) (s : ScoreSink) (e : Ending) : Prop :=
  ∀ info, s.settle opt e = some info →
    ((∃ chair score, e = .userLeave chair score) → opt.fleeScorePatch = 1) →
      ∑ i, (info i).total = 0

/-- When something is lost: nobody gets what the banker pays, or half a
point is nobody's. -/
def Loses (opt : ScoreRule) (s : ScoreSink) : Ending → Prop
  | .normal _ => ∃ bankerUser, s.table.bankerUser = some bankerUser ∧
      Unpaid (opt.has gameGenreMatch) s.table.userTrustee bankerUser
        (s.table.handCardCount bankerUser = 0) ∧
      opt.cellScore ≠ 0 ∧ opt.maxScoreTimes.toNat ≠ 0 ∧ s.table.bankerScore ≠ 0
  | .userLeave _ score => ¬ (opt.has gameGenreMatch = true ∧ opt.offLineTrustee = true) ∧
      opt.fleeScorePatch = 1 ∧
      ((Cut opt s score ∧ Odd score) ∨
        (¬ Cut opt s score ∧ Odd opt.cellScore ∧ Odd (s.fleeTimes opt)))

/-- **Exactly then the sum is not zero.** -/
theorem zeroSum_iff (opt : ScoreRule) {s : ScoreSink} (hs : s.Bounded) (e : Ending) :
    ZeroSum opt s e ↔ ¬ Loses opt s e := by
  cases e with
  | normal chair =>
    have hnormal : ¬ ∃ c score, Ending.normal chair = .userLeave c score := by
      rintro ⟨c, score, h⟩
      cases h
    cases hbanker : s.table.bankerUser with
    | none =>
      refine iff_of_true (fun info h => ?_) ?_
      · rw [settle, concludeNormal, hbanker] at h
        cases h
      · rintro ⟨bankerUser, h, -⟩
        exact nomatch hbanker.symm.trans h
    | some bankerUser =>
      obtain ⟨info, hinfo⟩ : ∃ info, s.concludeNormal opt chair = some info := by
        rw [concludeNormal, hbanker]
        exact ⟨_, rfl⟩
      have hsum := sum_concludeNormal chair hbanker hinfo
      have hloses : Loses opt s (.normal chair) ↔ ∑ i, (info i).total ≠ 0 := by
        rw [hsum, Loses]
        simp only [hbanker, Option.some.injEq, exists_eq_left']
        split_ifs with hunpaid
        · simp [hunpaid, hs.scoreTimes_eq_zero]
        · simp [hunpaid]
      rw [hloses, not_not]
      refine ⟨fun h => h info hinfo fun h => absurd h hnormal, fun h info' h' _ => ?_⟩
      cases hinfo.symm.trans h'
      exact h
  | userLeave chair score =>
    by_cases hgoes : opt.has gameGenreMatch = true ∧ opt.offLineTrustee = true
    · refine iff_of_true (fun info h => ?_) fun h => h.1 hgoes
      rw [settle, concludeLeave, if_pos hgoes] at h
      cases h
    · by_cases hshare : opt.fleeScorePatch = 1
      · obtain ⟨info, hinfo⟩ : ∃ info, s.concludeLeave opt chair score = some info := by
          rw [concludeLeave, if_neg hgoes]
          exact ⟨_, rfl⟩
        have hloses : ¬ Loses opt s (.userLeave chair score) ↔ ∑ i, (info i).total = 0 := by
          rw [sum_concludeLeave hshare chair score hinfo, neg_eq_zero, ← Int.dvd_iff_tmod_eq_zero,
            ← even_iff_two_dvd, ← Int.not_odd_iff_even, hs.odd_fleeScore, Loses]
          tauto
        rw [hloses]
        refine ⟨fun h => h info hinfo fun _ => hshare, fun h info' h' _ => ?_⟩
        cases hinfo.symm.trans h'
        exact h
      · exact iff_of_true (fun info _ h => absurd (h ⟨chair, score, rfl⟩) hshare)
          fun h => hshare h.2.1

/-- A match for a cell of five points, which a flight costs. -/
def matchRule : ScoreRule where
  serverType := gameGenreMatch
  revenueRatio := 20
  offLineTrustee := false
  maxScoreTimes := 64
  fleeScoreTimes := 1
  fleeScorePatch := 1
  limitMultiple8 := false
  cellScore := 5

/-- Chair 0 called one, and holds a card when chair 1 is out; both peasants
are played for. -/
def lostHand : ScoreSink where
  table := { bankerUser := some 0, bankerScore := 1, handCardCount := ![1, 0, 3],
             userTrustee := ![false, true, true] }
  bombCount := 0
  outCardCount := ![2, 1, 1]

theorem zeroSum_iff_bounded : lostHand.Bounded ∧
    (ZeroSum matchRule lostHand (.normal 1) ↔ ¬ Loses matchRule lostHand (.normal 1)) :=
  ⟨⟨by decide, by decide⟩, zeroSum_iff matchRule ⟨by decide, by decide⟩ (.normal 1)⟩

/-- **Points are lost**: the banker's ten, and one of the five of a flight. -/
theorem not_zeroSum : ¬ ZeroSum matchRule lostHand (.normal 1) ∧
    ¬ ZeroSum matchRule lostHand (.userLeave 1 0) := by
  refine ⟨fun h => ?_, fun h => ?_⟩
  · have := h _ rfl (by rintro ⟨_, _, h⟩; cases h)
    revert this
    decide +kernel
  · have := h _ rfl fun _ => rfl
    revert this
    decide +kernel

end ScoreSink

end GameServer.DouDizhu
