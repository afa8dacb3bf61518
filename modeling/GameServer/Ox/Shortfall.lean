import GameServer.Ox.Hands
import Mathlib.Tactic.Ring
/-!
# Ox — when the banker cannot pay

The settlement scales winners down when the banker has less than he owes.
What he owes is taken net of what he wins, and what he has gross of it:
the scores of all then make zero only in a few cases
(`settlement_fair_iff`).
-/

namespace GameServer.Ox.TableSink

variable {s s' : TableSink} {chair banker i : Chair} {bankerScore : ℤ} {n : ℕ}
variable {score : Chair → ℤ}

/-- Stakes as they are at a settlement: the banker has none, and those of
players who left are in the pot. -/
structure Settling (s : TableSink) (banker : Chair) : Prop where
  stake : s.tableScore banker = 0
  stakes : ∀ i, 0 ≤ s.tableScore i
  exits : s.exitScore = ∑ i, if s.idle banker i then 0 else s.tableScore i

def winnings (s : TableSink) (banker : Chair) : ℤ := ∑ i, max 0 (s.idleScore banker i)

/-- What the losers lose to him. -/
def losses (s : TableSink) (banker : Chair) : ℤ := ∑ i, max 0 (-s.idleScore banker i)

def winners (s : TableSink) (banker : Chair) : ℕ :=
  (List.finRange gamePlayer).countP fun i => 0 < s.idleScore banker i

/-- **A fair shortfall**: winners are scaled down, and the scores of all
make zero up to a unit for each winner, and not more. -/
def Fair (s : TableSink) (banker : Chair) (bankerScore : ℤ) : Prop :=
  ∃ score, s.gameScore banker bankerScore = some score ∧
    (∀ i, 0 < s.idleScore banker i → score i ≤ s.idleScore banker i) ∧
    ∑ i, score i ≤ 0 ∧ -(s.winners banker : ℤ) < ∑ i, score i

/-- When the shortfall comes out: of the net amount the banker owes and the
gross one he has, the losses times what he has, with what is lost in the
divisions, are covered by what leavers lost, and not by much. -/
def ComesOut (s : TableSink) (banker : Chair) (bankerScore : ℤ) : Prop :=
  let owes := s.winnings banker - s.losses banker - s.exitScore
  let has := bankerScore + s.losses banker
  let rest := ∑ i, max 0 (s.idleScore banker i) * (owes - has) % owes
  (∀ i, 0 < s.idleScore banker i → Fits (s.idleScore banker i * (owes - has))) ∧ has ≤ owes ∧
    s.losses banker * has + rest ≤ s.exitScore * (owes - has) ∧
    s.exitScore * (owes - has) < s.losses banker * has + rest + s.winners banker * owes

instance (s : TableSink) (banker : Chair) (bankerScore : ℤ) :
    Decidable (s.ComesOut banker bankerScore) := inferInstanceAs (Decidable (_ ∧ _ ∧ _ ∧ _))

theorem bankerNet_split (s : TableSink) (banker : Chair) :
    s.bankerNet banker = -(s.winnings banker - s.losses banker - s.exitScore) := by
  have hsum : ∑ i, s.idleScore banker i = s.winnings banker - s.losses banker := by
    rw [winnings, losses, ← Finset.sum_sub_distrib]
    exact Finset.sum_congr rfl fun i _ => by omega
  rw [bankerNet_eq, hsum]
  omega

theorem bankerGetScore_eq (s : TableSink) (banker : Chair) (bankerScore : ℤ) :
    s.bankerGetScore banker bankerScore = bankerScore + s.losses banker := by
  rw [bankerGetScore, losses, Fin.sum_univ_def]

theorem idleScore_of_not_idle (h : ¬ s.idle banker i) : s.idleScore banker i = 0 := if_neg h

/-- The share a winner loses. -/
def cut (s : TableSink) (banker : Chair) (bankerScore : ℤ) (i : Chair) : ℤ :=
  if 0 < s.idleScore banker i then
    (s.scaleProduct banker bankerScore i).tdiv (-s.bankerNet banker) else 0

theorem gameScore_shortfall (hset : s.Settling banker) (hshort : s.Shortfall banker bankerScore)
    (hfits : ∀ i, 0 < s.idleScore banker i → Fits (s.scaleProduct banker bankerScore i)) :
    s.gameScore banker bankerScore = some fun i => (if i = banker then -bankerScore else 0) +
      s.idleScore banker i - s.cut banker bankerScore i -
        if s.idle banker i then 0 else s.tableScore i := by
  rw [gameScore, paidScore, if_pos hshort, if_pos hfits, Option.map_some]
  congr 1
  funext i
  beta_reduce
  rw [cut]
  have hstake := hset.stakes i
  by_cases hi : s.idle banker i
  · rw [if_neg fun h => h.1 hi, if_neg hi.1, if_neg hi.1, if_pos hi]
    split <;> omega
  · rw [idleScore_of_not_idle hi, if_neg (lt_irrefl 0), if_neg (lt_irrefl 0), if_neg hi]
    obtain rfl | hne := eq_or_ne i banker
    · rw [hset.stake, if_neg fun h => lt_irrefl _ h.2, if_pos rfl, if_pos rfl]
      omega
    · rw [if_neg hne, if_neg hne]
      by_cases hpos : 0 < s.tableScore i
      · rw [if_pos ⟨hi, hpos⟩]
        omega
      · omega

/-- **What the scores make**: what the banker owes and has not, without the
shares the winners lose. -/
theorem sum_gameScore (hset : s.Settling banker) (hshort : s.Shortfall banker bankerScore)
    (hscore : s.gameScore banker bankerScore = some score)
    (hfits : ∀ i, 0 < s.idleScore banker i → Fits (s.scaleProduct banker bankerScore i)) :
    ∑ i, score i = -s.bankerNet banker - bankerScore - ∑ i, s.cut banker bankerScore i := by
  rw [gameScore_shortfall hset hshort hfits] at hscore
  cases hscore
  rw [Finset.sum_sub_distrib, Finset.sum_sub_distrib, Finset.sum_add_distrib, ← hset.exits,
    Finset.sum_ite_eq' Finset.univ banker, if_pos (Finset.mem_univ banker), bankerNet_eq]
  omega

/-- Where the banker has more than he owes net, winners are scaled up. -/
theorem cut_nonpos (hnet : s.bankerNet banker < 0)
    (h : -s.bankerNet banker < s.bankerGetScore banker bankerScore) :
    ∑ i, s.cut banker bankerScore i ≤ 0 := by
  refine Finset.sum_nonpos fun i _ => ?_
  rw [cut]
  split_ifs with hwins
  · have hproduct : s.scaleProduct banker bankerScore i ≤ 0 :=
      mul_nonpos_of_nonneg_of_nonpos hwins.le (by omega)
    exact (Int.tdiv_le_tdiv (by omega) hproduct).trans_eq (Int.zero_tdiv _)
  · exact le_rfl

/-- Else the shares are the products without their remainders. -/
theorem owes_mul_cut (h : s.bankerGetScore banker bankerScore ≤ -s.bankerNet banker) (i : Chair) :
    -s.bankerNet banker * s.cut banker bankerScore i =
      max 0 (s.idleScore banker i) *
          (-s.bankerNet banker - s.bankerGetScore banker bankerScore) -
        max 0 (s.idleScore banker i) *
            (-s.bankerNet banker - s.bankerGetScore banker bankerScore) % -s.bankerNet banker := by
  rw [cut]
  split_ifs with hwins
  · have hproduct : 0 ≤ s.scaleProduct banker bankerScore i := mul_nonneg hwins.le (by omega)
    rw [Int.tdiv_eq_ediv_of_nonneg hproduct, max_eq_right hwins.le, ← scaleProduct]
    have := Int.emod_add_mul_ediv (s.scaleProduct banker bankerScore i) (-s.bankerNet banker)
    omega
  · rw [max_eq_left (not_lt.1 hwins), zero_mul, mul_zero, Int.zero_emod, sub_zero]

/-- What all shares make, times what the banker owes. -/
theorem owes_mul_sum_gameScore (hset : s.Settling banker) (hshort : s.Shortfall banker bankerScore)
    (hscore : s.gameScore banker bankerScore = some score)
    (hfits : ∀ i, 0 < s.idleScore banker i → Fits (s.scaleProduct banker bankerScore i))
    (h : s.bankerGetScore banker bankerScore ≤ -s.bankerNet banker) :
    -s.bankerNet banker * ∑ i, score i =
      s.losses banker * s.bankerGetScore banker bankerScore + (∑ i, max 0 (s.idleScore banker i) *
          (-s.bankerNet banker - s.bankerGetScore banker bankerScore) % -s.bankerNet banker) -
        s.exitScore * (-s.bankerNet banker - s.bankerGetScore banker bankerScore) := by
  have hcuts : -s.bankerNet banker * ∑ i, s.cut banker bankerScore i =
      s.winnings banker * (-s.bankerNet banker - s.bankerGetScore banker bankerScore) -
        ∑ i, max 0 (s.idleScore banker i) *
          (-s.bankerNet banker - s.bankerGetScore banker bankerScore) % -s.bankerNet banker := by
    rw [Finset.mul_sum, Finset.sum_congr rfl fun i _ => owes_mul_cut h i, Finset.sum_sub_distrib,
      ← Finset.sum_mul, winnings]
  have hnet := bankerNet_split s banker
  have hget := bankerGetScore_eq s banker bankerScore
  rw [sum_gameScore hset hshort hscore hfits, mul_sub, mul_sub, hcuts]
  generalize s.bankerNet banker = net at *
  generalize s.bankerGetScore banker bankerScore = get at *
  obtain rfl : bankerScore = get - s.losses banker := by omega
  obtain rfl : net = -(s.winnings banker - s.losses banker - s.exitScore) := hnet
  ring

theorem fits_of_gameScore (hshort : s.Shortfall banker bankerScore)
    (hscore : s.gameScore banker bankerScore = some score) :
    ∀ i, 0 < s.idleScore banker i → Fits (s.scaleProduct banker bankerScore i) := by
  by_contra hno
  rw [gameScore, paidScore, if_pos hshort, if_neg hno] at hscore
  cases hscore

/-- Where the banker owes what he has at least, no winner wins more. -/
theorem score_le_idleScore (hset : s.Settling banker) (hshort : s.Shortfall banker bankerScore)
    (hscore : s.gameScore banker bankerScore = some score)
    (h : s.bankerGetScore banker bankerScore ≤ -s.bankerNet banker)
    (hwins : 0 < s.idleScore banker i) : score i ≤ s.idleScore banker i := by
  rw [gameScore_shortfall hset hshort (fits_of_gameScore hshort hscore)] at hscore
  cases hscore
  have hi : s.idle banker i := by
    by_contra hi
    rw [idleScore_of_not_idle hi] at hwins
    exact lt_irrefl _ hwins
  have hproduct : 0 ≤ s.scaleProduct banker bankerScore i := mul_nonneg hwins.le (by omega)
  have hcut : 0 ≤ s.cut banker bankerScore i := by
    rw [cut, if_pos hwins]
    exact Int.tdiv_nonneg hproduct (by have := hshort.1; omega)
  beta_reduce
  rw [if_neg hi.1, if_pos hi]
  omega

/-- **The settlement.** In every run the banker loses what he has at most,
and a shortfall is fair exactly when it comes out. -/
theorem settlement_fair_iff (events : List Event) (r : TableSink × List Output)
    (hrun : Machine.run step {} events = some r) (s : TableSink) (banker : Chair)
    (hset : s.Settling banker) (bankerScore : ℤ) :
    (∀ bankerUser bankerScore gameScore,
      Output.gameEnd bankerUser bankerScore gameScore ∈ r.2 →
        -gameScore bankerUser ≤ bankerScore) ∧
    ((s.Shortfall banker bankerScore → s.Fair banker bankerScore) ↔
      (s.Shortfall banker bankerScore → s.ComesOut banker bankerScore)) := by
  constructor
  · intro bankerUser bankerScore gameScore hend
    obtain ⟨r', hrun', -, hsolvent⟩ := run_stage events
    obtain rfl := Option.some.inj (hrun.symm.trans hrun')
    exact hsolvent _ hend
  · refine imp_congr_right fun hshort => ?_
    have howes : 0 < -s.bankerNet banker := by
      have := hshort.1
      omega
    have hnet := bankerNet_split s banker
    have hget := bankerGetScore_eq s banker bankerScore
    rw [ComesOut]
    simp only [← hget]
    rw [show s.winnings banker - s.losses banker - s.exitScore = -s.bankerNet banker by omega]
    constructor
    · rintro ⟨score, hscore, -, htotal, hrest⟩
      have hfits := fits_of_gameScore hshort hscore
      have hhas : s.bankerGetScore banker bankerScore ≤ -s.bankerNet banker := by
        by_contra hmore
        have hcuts := cut_nonpos hshort.1 (not_le.1 hmore)
        have hsum := sum_gameScore hset hshort hscore hfits
        have := hshort.2
        omega
      have hsum := owes_mul_sum_gameScore hset hshort hscore hfits hhas
      have hle := mul_nonpos_of_nonneg_of_nonpos howes.le htotal
      have hlt := mul_lt_mul_of_pos_left hrest howes
      rw [mul_neg, mul_comm _ (s.winners banker : ℤ)] at hlt
      exact ⟨hfits, hhas, by omega, by omega⟩
    · rintro ⟨hfits, hhas, hle, hlt⟩
      have hscore := gameScore_shortfall hset hshort hfits
      have hsum := owes_mul_sum_gameScore hset hshort hscore hfits hhas
      refine ⟨_, hscore, fun i hwins => score_le_idleScore hset hshort hscore hhas hwins, ?_, ?_⟩
      · refine le_of_mul_le_mul_left ?_ howes
        omega
      · refine lt_of_mul_lt_mul_left ?_ howes.le
        rw [mul_neg, mul_comm _ (s.winners banker : ℤ)]
        omega

/-- Chairs 1 and 2 against the banker on chair 0, nobody with an ox: chair 1
beats him, and chair 2 with `card` as its greatest. -/
def twoAgainst (first second : ℤ) (card : UInt8) : TableSink where
  gameStatus := .playing
  bankerUser := some 0
  tableScore i := if i = 1 then first else if i = 2 then second else 0
  playStatus i := if i = 3 then .null else .playing
  oxCard _ := some false
  handCardData i :=
    if i = 0 then [0x01, 0x02, 0x03, 0x05, 0x0B]
    else if i = 1 then [0x11, 0x12, 0x13, 0x15, 0x0D]
    else [0x21, 0x22, 0x23, 0x25, card]

theorem settling_twoAgainst {first second : ℤ} (hfirst : 0 ≤ first) (hsecond : 0 ≤ second)
    (card : UInt8) : (twoAgainst first second card).Settling 0 := by
  refine ⟨rfl, fun i => ?_, ?_⟩
  · show 0 ≤ if i = 1 then first else if i = 2 then second else 0
    split_ifs
    · exact hfirst
    · exact hsecond
    · exact le_rfl
  · refine (Finset.sum_eq_zero fun i _ => ?_).symm
    match i with
    | 0 | 3 => rfl
    | 1 | 2 => exact if_pos ⟨by decide, rfl⟩

theorem settlement_fair_iff_twoAgainst :
    (twoAgainst 300 150 0x1D).Shortfall 0 150 ∧ (twoAgainst 300 150 0x1D).Fair 0 150 := by
  have hshort : (twoAgainst 300 150 0x1D).Shortfall 0 150 := by decide +kernel
  have hcomes : (twoAgainst 300 150 0x1D).ComesOut 0 150 := by decide +kernel
  exact ⟨hshort, (settlement_fair_iff [] ({}, []) rfl (twoAgainst 300 150 0x1D) 0
    (settling_twoAgainst (by decide) (by decide) 0x1D) 150).2.2 (fun _ => hcomes) hshort⟩

/-- The banker has 20, wins 50 and loses 100: he owes 50 net and has 70
gross, so the winner is scaled up to 140. -/
theorem shortfall_unfair :
    (twoAgainst 100 50 0x09).Settling 0 ∧ (twoAgainst 100 50 0x09).Shortfall 0 20 ∧
      ¬ (twoAgainst 100 50 0x09).Fair 0 20 ∧
      ∃ score, (twoAgainst 100 50 0x09).gameScore 0 20 = some score ∧ score 0 = -20 ∧
        score 1 = 140 ∧ score 2 = -50 ∧ ∑ i, score i = 70 := by
  have hset : (twoAgainst 100 50 0x09).Settling 0 :=
    settling_twoAgainst (by decide) (by decide) 0x09
  have hshort : (twoAgainst 100 50 0x09).Shortfall 0 20 := by decide +kernel
  have hscore := gameScore_shortfall hset hshort (by decide +kernel)
  refine ⟨hset, hshort, ?_, _, hscore, by decide +kernel, by decide +kernel, by decide +kernel,
    by decide +kernel⟩
  rintro ⟨score, hscore', -, htotal, -⟩
  cases hscore.symm.trans hscore'
  exact absurd htotal (by decide +kernel)

end GameServer.Ox.TableSink
