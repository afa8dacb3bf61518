import GameServer.TexasHoldem.SidePots
import GameServer.TexasHoldem.Betting
/-!
# Texas hold'em — the chips of a hand are conserved

What the loop of the payout takes from the losers it gives to the
winners, but for what a division among tied winners leaves over
(`normalUserScore_conserved`). The scores are written for the chairs
that were dealt in and have a user; so if nobody with chips in the hand
leaves, the scores a hand ends with, and their tax, add up to zero
(`settlement_conserves`).
-/

namespace GameServer.TexasHoldem

open Finset

variable {bet : Chair → ℕ} {s : Ledger} {last : Option Chair} {winner : Chair}
  {behind rest losers : List Chair} {d : Deal}

/-! ## The payout -/

/-- Every amount that is divided among the winners of a group is a multiple
of their number. -/
def EvenWinners (losers : List Chair) : Option Chair → List Chair → Ledger → Prop
  | _, [], _ => True
  | last, winner :: behind, s =>
      (last.isSome ∧ lastScore s last ≤ 0 ∨
        ∀ c ∈ losers, ((winner :: behind).length : ℤ) ∣ slice s last winner c) ∧
      EvenWinners losers (some winner) behind (payWinner losers last winner behind s)

/-- The same of all groups the loop pays. -/
def EvenGroups : ℕ → List (List Chair) → Ledger → Prop
  | count + 1, group :: groups, s =>
      group.isEmpty ∨ EvenWinners (losersOf groups) none group s ∧
        EvenGroups count groups (payWinners (losersOf groups) none group s)
  | _, _, _ => True

/-- **In the middle of a group**, whatever has run dry. -/
structure Owing (bet : Chair → ℕ) (losers : List Chair) (last : Option Chair) (rest : List Chair)
    (s : Ledger) : Prop where
  fair : Fair bet s
  nodup : rest.Nodup
  sorted : rest.Pairwise fun a b => s.totalScore a ≤ s.totalScore b
  last_nonneg : 0 ≤ lastScore s last
  last_le : ∀ w ∈ rest, lastScore s last ≤ s.totalScore w
  losers_nodup : losers.Nodup
  losers_out : ∀ c ∈ losers, c ∉ rest ∧ last ≠ some c

/-- **What paying does to the ledger.** Only the losers lose chips, who has
more keeps more, and nobody else's score changes. -/
structure PaidBy (bet : Chair → ℕ) (losers rest : List Chair) (s r : Ledger) : Prop where
  fair : Fair bet r
  total : ∀ i, i ∉ losers → r.totalScore i = s.totalScore i
  ordered : ∀ a ∈ losers, ∀ b ∈ losers, s.totalScore a ≤ s.totalScore b →
    r.totalScore a ≤ r.totalScore b
  user : ∀ i, i ∉ rest → i ∉ losers → r.userScore i = s.userScore i

theorem PaidBy.refl (hs : Fair bet s) : PaidBy bet losers rest s s :=
  ⟨hs, fun _ _ => rfl, fun _ _ _ _ h => h, fun _ _ _ => rfl⟩

theorem sum_ite_mem_list {l : List Chair} (hl : l.Nodup) (f : Chair → ℤ) :
    ∑ i, (if i ∈ l then f i else 0) = (l.map f).sum := by
  simp only [← List.mem_toFinset, sum_ite_mem, univ_inter]
  exact List.sum_toFinset f hl

/-- **One winner.** -/
theorem Owing.payWinner (hbet : ∑ i, bet i < 2 ^ 31) (hs : Owing bet losers last (winner :: behind) s) :
    PaidBy bet losers (winner :: behind) s (payWinner losers last winner behind s) ∧
      ((last.isSome ∧ lastScore s last ≤ 0 ∨
          ∀ c ∈ losers, ((winner :: behind).length : ℤ) ∣ slice s last winner c) →
        ∑ i, (payWinner losers last winner behind s).userScore i = ∑ i, s.userScore i) := by
  have hle := hs.last_le winner List.mem_cons_self
  unfold TexasHoldem.payWinner
  split_ifs with h₁ h₂
  · exact ⟨.refl hs.fair, fun _ => rfl⟩
  · exact ⟨.refl hs.fair, fun _ => rfl⟩
  by_cases hdry : last.isSome ∧ lastScore s last ≤ 0
  · have hstay : ∀ c, payLoser last winner behind s c = s := by
      intro c
      rw [payLoser]
      split_ifs <;> rfl
    rw [List.foldl_fixed' hstay losers]
    exact ⟨.refl hs.fair, fun _ => rfl⟩
  obtain ⟨hfair, hvalues⟩ := foldl_payLoser hbet hs.nodup losers s hs.fair hs.losers_nodup
    (fun c hc => (hs.losers_out c hc).1) (fun c hc => (hs.losers_out c hc).2) hdry hs.last_nonneg hle
  refine ⟨⟨hfair, fun i hi => ?_, fun a ha b hb hab => ?_, fun i hi hi' => ?_⟩, fun heven => ?_⟩
  · rw [(hvalues i).1, if_neg hi, sub_zero]
  · rw [(hvalues a).1, (hvalues b).1, if_pos ha, if_pos hb, slice, slice]
    omega
  · rw [(hvalues i).2, if_neg hi, if_neg hi', add_zero, sub_zero]
  · have hparts := heven.resolve_left hdry
    have hsum : ∑ i, (if i ∈ winner :: behind then
        (losers.map fun c => slice s last winner c / ((winner :: behind).length : ℤ)).sum else 0) =
          (losers.map fun c => slice s last winner c).sum := by
      rw [sum_ite_mem_list hs.nodup, List.map_const', List.sum_replicate, nsmul_eq_mul,
        ← List.sum_map_mul_left]
      congr 1
      exact List.map_congr_left fun c hc => Int.mul_ediv_cancel' (hparts c hc)
    simp only [(hvalues _).2, sum_sub_distrib, sum_add_distrib, hsum, sum_ite_mem_list hs.losers_nodup]
    ring

theorem Owing.next (hbet : ∑ i, bet i < 2 ^ 31) (hs : Owing bet losers last (winner :: behind) s) :
    Owing bet losers (some winner) behind (TexasHoldem.payWinner losers last winner behind s) := by
  obtain ⟨hpaid, -⟩ := hs.payWinner hbet
  obtain ⟨hwinner, hnodup⟩ := List.nodup_cons.1 hs.nodup
  obtain ⟨hle, hsorted⟩ := List.pairwise_cons.1 hs.sorted
  have hout : ∀ w ∈ winner :: behind, w ∉ losers := fun w hw hc => (hs.losers_out w hc).1 hw
  have hsame : ∀ w ∈ winner :: behind,
      (TexasHoldem.payWinner losers last winner behind s).totalScore w = s.totalScore w :=
    fun w hw => hpaid.total w (hout w hw)
  have hlast : lastScore (TexasHoldem.payWinner losers last winner behind s) (some winner) =
      s.totalScore winner := hsame winner List.mem_cons_self
  refine ⟨hpaid.fair, hnodup, ?_, ?_, fun w hw => ?_, hs.losers_nodup, fun c hc => ⟨?_, ?_⟩⟩
  · refine hsorted.imp_of_mem fun {a b} ha hb h => ?_
    rwa [hsame a (List.mem_cons_of_mem _ ha), hsame b (List.mem_cons_of_mem _ hb)]
  · rw [hlast]
    exact hs.fair.total_nonneg winner
  · rw [hlast, hsame w (List.mem_cons_of_mem _ hw)]
    exact hle w hw
  · exact fun h => (hs.losers_out c hc).1 (List.mem_cons_of_mem _ h)
  · intro h
    exact (hs.losers_out c hc).1 (Option.some.inj h ▸ List.mem_cons_self)

/-- **All winners of a group.** -/
theorem Owing.payWinners (hbet : ∑ i, bet i < 2 ^ 31) :
    ∀ (rest : List Chair) (last : Option Chair) (s : Ledger), Owing bet losers last rest s →
      PaidBy bet losers rest s (payWinners losers last rest s) ∧
        (EvenWinners losers last rest s →
          ∑ i, (payWinners losers last rest s).userScore i = ∑ i, s.userScore i)
  | [], _, s, hs => ⟨.refl hs.fair, fun _ => rfl⟩
  | winner :: behind, last, s, hs => by
    obtain ⟨hpaid, hsum⟩ := hs.payWinner hbet
    obtain ⟨hpaid', hsum'⟩ := Owing.payWinners hbet behind (some winner) _ (hs.next hbet)
    rw [TexasHoldem.payWinners]
    refine ⟨⟨hpaid'.fair, fun i hi => ?_, fun a ha b hb hab => ?_, fun i hi hi' => ?_⟩, fun heven => ?_⟩
    · rw [hpaid'.total i hi, hpaid.total i hi]
    · exact hpaid'.ordered a ha b hb (hpaid.ordered a ha b hb hab)
    · rw [hpaid'.user i (fun h => hi (List.mem_cons_of_mem _ h)) hi', hpaid.user i hi hi']
    · rw [EvenWinners] at heven
      rw [hsum' heven.2, hsum heven.1]

theorem losersOf_append {groups tail : List (List Chair)} (hne : ∀ g ∈ groups, g ≠ [])
    (htail : tail = [] ∨ ∃ g, tail = [g]) :
    losersOf (groups ++ tail) = (groups ++ tail).flatten := by
  have hlast : (tail.takeWhile fun g => !g.isEmpty).flatten = tail.flatten := by
    rcases htail with rfl | ⟨g, rfl⟩
    · rfl
    · cases g <;> rfl
  have hall : ∀ g ∈ groups, (!g.isEmpty) = true := fun g hg => by simpa using hne g hg
  rw [losersOf, List.takeWhile_append_of_pos hall, List.flatten_append, List.flatten_append, hlast]

/-- **All groups**, the last one of chairs that gave up. -/
theorem payGroups_conserved (hbet : ∑ i, bet i < 2 ^ 31) {tail : List (List Chair)}
    (htail : tail = [] ∨ ∃ g, tail = [g]) :
    ∀ (groups : List (List Chair)) (count : ℕ) (s : Ledger), Fair bet s →
      (groups ++ tail).flatten.Nodup → (∀ g ∈ groups, g ≠ []) →
      (∀ g ∈ groups, g.Pairwise fun a b => s.totalScore a ≤ s.totalScore b) →
      Fair bet (payGroups count (groups ++ tail) s) ∧
        (∀ i, i ∉ (groups ++ tail).flatten →
          (payGroups count (groups ++ tail) s).userScore i = s.userScore i) ∧
        (EvenGroups count (groups ++ tail) s →
          ∑ i, (payGroups count (groups ++ tail) s).userScore i = ∑ i, s.userScore i) := by
  intro groups
  induction groups with
  | nil =>
    intro count s hs _ _ _
    have hstay : payGroups count ([] ++ tail) s = s := by
      rcases htail with rfl | ⟨g, rfl⟩
      · cases count <;> rfl
      · exact payGroups_singleton count g s
    rw [hstay]
    exact ⟨hs, fun _ _ => rfl, fun _ => rfl⟩
  | cons group groups ih =>
    intro count s hs hnodup hne hsorted
    cases count with
    | zero => exact ⟨hs, fun _ _ => rfl, fun _ => rfl⟩
    | succ count =>
      obtain ⟨hgroup, hne'⟩ := List.forall_mem_cons.1 hne
      obtain ⟨hsort, hsorted'⟩ := List.forall_mem_cons.1 hsorted
      rw [List.cons_append, List.flatten_cons] at hnodup
      obtain ⟨hfirst, hlater, hdisj⟩ := List.nodup_append.1 hnodup
      have hlosers := losersOf_append hne' htail
      have howing : Owing bet (losersOf (groups ++ tail)) none group s :=
        { fair := hs
          nodup := hfirst
          sorted := hsort
          last_nonneg := le_rfl
          last_le := fun w _ => hs.total_nonneg w
          losers_nodup := by rwa [hlosers]
          losers_out := fun c hc => ⟨fun h => hdisj c h c (by rwa [hlosers] at hc) rfl, nofun⟩ }
      obtain ⟨hpaid, hsum⟩ := Owing.payWinners hbet group none s howing
      obtain ⟨hfair, huser, hsum'⟩ := ih count _ hpaid.fair hlater hne' fun g hg =>
        (hsorted' g hg).imp_of_mem fun {a b} ha hb h => by
          have hmem : ∀ c ∈ g, c ∈ losersOf (groups ++ tail) := fun c hc => by
            rw [hlosers, List.flatten_append]
            exact List.mem_append_left _ (List.mem_flatten.2 ⟨g, hg, hc⟩)
          exact hpaid.ordered a (hmem a ha) b (hmem b hb) h
      have hempty : ¬ group.isEmpty = true := by simpa using hgroup
      rw [List.cons_append, payGroups, if_neg hempty]
      refine ⟨hfair, fun i hi => ?_, fun heven => ?_⟩
      · rw [List.flatten_cons, List.mem_append, not_or] at hi
        rw [huser i hi.2, hpaid.user i hi.1 (by rw [hlosers]; exact hi.2)]
      · rw [EvenGroups] at heven
        obtain ⟨hfirst', hrest⟩ := heven.resolve_left hempty
        rw [hsum' hrest, hsum hfirst']

variable (bet d) in
/-- The groups of a hand and, if any gave up, those who did. -/
theorem exists_tail : ∃ tail : List (List Chair), (tail = [] ∨ ∃ g, tail = [g]) ∧
    winnerList d.playStatus (fun i => bet i) (d.order bet) = d.order bet ++ tail ∧
    tail.flatten = (d.tail bet).flatten := by
  rcases Deal.winnerList_eq bet d with h | ⟨hnil, h⟩
  · refine ⟨d.tail bet, ?_, h, rfl⟩
    unfold Deal.tail
    split_ifs
    · exact .inl rfl
    · exact .inr ⟨_, rfl⟩
  · exact ⟨[[]], .inr ⟨[], rfl⟩, h, by rw [hnil]; rfl⟩

/-- No division among tied winners leaves a remainder. -/
def Even (playStatus : Chair → Bool) (handCardData : Chair → UInt8 × UInt8)
    (centerCardData : List UInt8) (totalScore : Chair → ℤ) : Prop :=
  EvenGroups (gamePlayer - 1) (winnerList playStatus totalScore
    (scoreOrder handCardData totalScore gamePlayer (endCardData playStatus handCardData centerCardData)))
    { userScore := fun _ => 0, totalScore }

/-- **The scores of a hand that is played to the end**: nobody loses more
than he has bet, who has nothing to do with the hand gets nothing, and
the sum is zero when no division leaves a remainder. -/
theorem normalUserScore_conserved (hbet : ∑ i, bet i < 2 ^ 31) :
    let us := normalUserScore d.playStatus d.handCardData d.centerCardData fun i => bet i
    (∀ i, -(bet i : ℤ) ≤ us i ∧ us i < 2 ^ 31) ∧
      (∀ i, d.playStatus i = false → bet i = 0 → us i = 0) ∧
      (Even d.playStatus d.handCardData d.centerCardData (fun i => bet i) → ∑ i, us i = 0) := by
  obtain ⟨hnodup, hmem, hne, hsorted⟩ := Deal.groups_spec bet d
  obtain ⟨tail, htail, heq, hflat⟩ := exists_tail bet d
  have hflat' : (d.order bet ++ tail).flatten = (d.order bet ++ d.tail bet).flatten := by
    rw [List.flatten_append, List.flatten_append, hflat]
  obtain ⟨hfair, huser, hsum⟩ := payGroups_conserved hbet htail (d.order bet) (gamePlayer - 1) _
    (fair_start bet) (by rwa [hflat']) (fun g hg => hne g (List.mem_append_left _ hg))
    fun g hg => (hsorted g hg).imp Int.ofNat_le.2
  have hrun : normalUserScore d.playStatus d.handCardData d.centerCardData (fun i => bet i) =
      (payGroups (gamePlayer - 1) (d.order bet ++ tail)
        { userScore := fun _ => 0, totalScore := fun i => bet i }).userScore := by
    rw [← heq]
    rfl
  simp only [hrun]
  refine ⟨fun i => ⟨?_, hfair.userScore_lt hbet i⟩, fun i hplay hzero => ?_, fun heven => ?_⟩
  · have := hfair.lost i
    have := hfair.total_nonneg i
    omega
  · refine huser i ?_
    rw [hflat', hmem, hplay, hzero]
    simp
  · rw [hsum (heq ▸ heven)]
    simp

instance EvenWinners.decidable : ∀ (losers : List Chair) (last : Option Chair) (rest : List Chair)
    (s : Ledger), Decidable (EvenWinners losers last rest s)
  | _, _, [], _ => isTrue trivial
  | losers, last, winner :: behind, s =>
      have := EvenWinners.decidable losers (some winner) behind (payWinner losers last winner behind s)
      inferInstanceAs (Decidable ((_ ∨ ∀ c ∈ losers, _ ∣ slice s last winner c) ∧
        EvenWinners losers (some winner) behind (payWinner losers last winner behind s)))

instance EvenGroups.decidable : ∀ (count : ℕ) (groups : List (List Chair)) (s : Ledger),
    Decidable (EvenGroups count groups s)
  | 0, _, _ => isTrue trivial
  | _ + 1, [], _ => isTrue trivial
  | count + 1, group :: groups, s =>
      have := EvenGroups.decidable count groups (payWinners (losersOf groups) none group s)
      inferInstanceAs (Decidable (_ ∨ EvenWinners (losersOf groups) none group s ∧
        EvenGroups count groups (payWinners (losersOf groups) none group s)))

/-! ## The scores that are written -/

/-- A score with its tax. -/
def Output.written : Output → ℤ
  | .writeUserScore _ score revenue => score + revenue
  | .addScore .. | .turnOver _ => 0

/-- **Chips are conserved**: the scores written with their tax add up to
zero, and nobody loses more than he has bet. -/
def Conserves (h : Hand) (out : List Output) : Prop :=
  (out.map Output.written).sum = 0 ∧
    ∀ chair score revenue, .writeUserScore chair score revenue ∈ out → -h.totalScore chair ≤ score

namespace TableSink

variable {opt : ServiceOption} {s s' q p : TableSink} {c chair : Chair} {l lScore ante : ℤ}
  {out : List Output} {e : TableEvent} {us tax : Chair → ℤ}

/-- **Who has to be written can be.** Who is in the hand, or has chips in it,
was dealt in and has a user, and who is in has his cards. -/
structure Billed (s : TableSink) : Prop where
  seated : ∀ i, s.playStatus i = true ∨ 0 < s.totalScore i →
    s.fristPlayStatus i = true ∧ (s.userItem i).isSome = true
  cards : ∀ i, s.playStatus i = true → s.centerCardData.length = maxCenterCount ∧
    (∀ c ∈ s.centerCardData, c ≠ 0) ∧ (s.handCardData i).1 ≠ 0 ∧ (s.handCardData i).2 ≠ 0

theorem conserves_writeScores (hb : Billed s) (htotal : ∀ i, 0 ≤ s.totalScore i ∧ s.totalScore i < 2 ^ 31)
    (hus : ∀ i, -s.totalScore i ≤ us i ∧ us i < 2 ^ 31)
    (hnone : ∀ i, s.playStatus i = false → s.totalScore i = 0 → us i = 0) (hsum : ∑ i, us i = 0)
    (htax : ∀ i, 0 ≤ tax i ∧ tax i ≤ max (us i) 0) :
    Conserves s.toHand (s.writeScores (fun i => int32 (us i - tax i)) tax) := by
  have hscore : ∀ i, int32 (us i - tax i) = us i - tax i := by
    intro i
    have := htotal i
    have := hus i
    have := htax i
    exact int32_of_range (by omega) (by omega)
  constructor
  · have hmap : (s.writeScores (fun i => int32 (us i - tax i)) tax).map Output.written =
        (chairs.filter fun i => s.fristPlayStatus i && (s.userItem i).isSome).map us := by
      rw [writeScores, List.map_map]
      refine List.map_congr_left fun i _ => ?_
      simp only [Function.comp, Output.written, hscore]
      omega
    rw [hmap, sum_chairs_filter]
    refine Eq.trans (sum_congr rfl fun i _ => ?_) hsum
    split_ifs with hi
    · rfl
    · have hno : ¬ (s.playStatus i = true ∨ 0 < s.totalScore i) := by
        intro h
        obtain ⟨h₁, h₂⟩ := hb.seated i h
        rw [h₁, h₂] at hi
        exact hi rfl
      rw [not_or, Bool.not_eq_true] at hno
      have := htotal i
      exact (hnone i hno.1 (by omega)).symm
  · intro i score revenue hmem
    simp only [writeScores, List.mem_map] at hmem
    obtain ⟨j, -, hj⟩ := hmem
    cases hj
    have := hus i
    have := htax i
    have := htotal i
    rw [hscore]
    omega

theorem gameTax_range (hratio : opt.revenueRatio ≤ 1000) {u : ℤ} (hu : u < 2 ^ 31) :
    0 ≤ gameTax opt u ∧ gameTax opt u ≤ max u 0 := by
  unfold gameTax calculateRevenue
  by_cases hpos : u > 0
  · rw [if_pos hpos]
    by_cases hr : opt.revenueRatio > 0 ∧ u ≥ 0
    · have hle : u * opt.revenueRatio ≤ u * 1000 :=
        mul_le_mul_of_nonneg_left (by exact_mod_cast hratio) hpos.le
      have hnonneg : 0 ≤ u * opt.revenueRatio := mul_nonneg hpos.le (Int.natCast_nonneg _)
      rw [if_pos hr, Int.tdiv_eq_ediv_of_nonneg hnonneg, int32_of_range (by omega) (by omega)]
      omega
    · rw [if_neg hr, int32_of_range (by omega) (by omega)]
      omega
  · rw [if_neg hpos]
    omega

/-- The amounts a hand is settled with fit a `LONG`, and the tax is no more
than what is taxed. -/
def Payable (opt : ServiceOption) (s : TableSink) : Prop :=
  ∑ i, s.totalScore i < 2 ^ 31 ∧ opt.revenueRatio ≤ 1000

/-- **A hand that is played to the end.** -/
theorem conserves_normal (hs : Chips ante s.toHand) (hb : Billed s) (hpay : Payable opt s)
    (heven : Even s.playStatus s.handCardData s.centerCardData s.totalScore)
    (going : s.gameOver = false) (h : s.concludeNormal opt = some (s', out)) :
    Conserves s.toHand out := by
  have hnonneg : ∀ i, 0 ≤ s.totalScore i := fun i => (hs.table_nonneg i).trans (hs.table_le i)
  obtain ⟨bet, hbet⟩ : ∃ bet : Chair → ℕ, s.totalScore = fun i => (bet i : ℤ) :=
    ⟨fun i => (s.totalScore i).toNat, funext fun i => (Int.toNat_of_nonneg (hnonneg i)).symm⟩
  obtain ⟨d, hplay, hhand, hcards⟩ : ∃ d : Deal, d.playStatus = s.playStatus ∧
      d.handCardData = s.handCardData ∧ endCardData s.playStatus s.handCardData d.centerCardData =
        endCardData s.playStatus s.handCardData s.centerCardData := by
    by_cases hsome : ∃ i, s.playStatus i = true
    · obtain ⟨i, hi⟩ := hsome
      obtain ⟨hlen, hne, -⟩ := hb.cards i hi
      exact ⟨⟨s.playStatus, s.handCardData, s.centerCardData, hlen, hne,
        fun j hj => (hb.cards j hj).2.2⟩, rfl, rfl, rfl⟩
    · -- nobody is in, and the cards do not matter
      rw [not_exists] at hsome
      refine ⟨⟨s.playStatus, s.handCardData, someCards.center, someCards.center_length,
        someCards.center_ne, fun j hj => absurd hj (hsome j)⟩, rfl, rfl, funext fun i => ?_⟩
      rw [endCardData, endCardData, if_neg (hsome i), if_neg (hsome i)]
  have hscore : normalUserScore s.playStatus s.handCardData s.centerCardData s.totalScore =
      normalUserScore d.playStatus d.handCardData d.centerCardData fun i => bet i := by
    unfold normalUserScore
    rw [hplay, hhand, hcards, hbet]
  have heven' : Even d.playStatus d.handCardData d.centerCardData fun i => bet i := by
    unfold Even at heven ⊢
    rwa [hplay, hhand, hcards, ← hbet]
  have hsum : ∑ i, bet i < 2 ^ 31 := by
    have := hpay.1
    simp only [hbet] at this
    exact_mod_cast this
  obtain ⟨hrange, hnone, hzero⟩ := normalUserScore_conserved (d := d) hsum
  rw [← hscore] at hrange hnone hzero
  have hbet' : ∀ i, s.totalScore i = bet i := fun i => congrFun hbet i
  rw [concludeNormal_writes h going]
  refine conserves_writeScores hb (fun i => ⟨hnonneg i, hs.total_lt i⟩)
    (fun i => by rw [hbet']; exact hrange i) (fun i hi hi' => hnone i (by rw [hplay]; exact hi) ?_)
    (hzero heven') fun i => ?_
  · rw [hbet'] at hi'
    exact_mod_cast hi'
  · split_ifs
    · exact gameTax_range hpay.2 (hrange i).2
    · exact ⟨le_rfl, le_max_right _ _⟩

/-- Who gave up pays the last one in the hand. -/
theorem noPlayerScore_spec (hs : Chips ante s.toHand) (hsum : ∑ i, s.totalScore i < 2 ^ 31)
    (hone : s.playCount = 1) : ∃ w, s.playStatus w = true ∧ ∀ i, s.noPlayerScore i =
      if i = w then ∑ j ∈ univ.erase w, s.totalScore j else -s.totalScore i := by
  have hnonneg : ∀ i, 0 ≤ s.totalScore i := fun i => (hs.table_nonneg i).trans (hs.table_le i)
  rw [Hand.playCount, countP_chairs, card_eq_one] at hone
  obtain ⟨w, hw⟩ := hone
  have hplay : ∀ i, s.playStatus i = true ↔ i = w := fun i => by
    have := Finset.ext_iff.1 hw i
    simpa using this
  refine ⟨w, (hplay w).2 rfl, fun i => ?_⟩
  have hothers : ((chairs.filter (· ≠ i)).map s.totalScore).sum = ∑ j ∈ univ.erase i, s.totalScore j := by
    rw [sum_chairs_filter, ← sum_filter]
    refine sum_congr ?_ fun _ _ => rfl
    ext j
    simp
  have hle : ∑ j ∈ univ.erase i, s.totalScore j ≤ ∑ j, s.totalScore j :=
    sum_le_sum_of_subset_of_nonneg (erase_subset _ _) fun j _ _ => hnonneg j
  unfold noPlayerScore
  by_cases hi : i = w
  · have htrue : ¬ s.playStatus i = false := by
      rw [(hplay i).2 hi]
      decide
    rw [if_neg htrue, if_pos hi, foldl_int32_add hnonneg le_rfl (by rw [hothers]; omega), zero_add,
      hothers, hi]
  · have hfalse : s.playStatus i = false := by
      rw [← Bool.not_eq_true]
      exact fun h => hi ((hplay i).1 h)
    have := hs.total_lt i
    have := hnonneg i
    rw [if_pos hfalse, if_neg hi]
    split_ifs
    · rw [int32_of_range (by omega) (by omega), zero_sub]
    · omega

/-- **A hand with one player left, or none.** -/
theorem conserves_noPlayer (hs : Chips ante s.toHand) (hb : Billed s) (hpay : Payable opt s)
    (hone : s.playCount ≤ 1) : Conserves s.toHand (s.concludeNoPlayer opt).2 := by
  have hnonneg : ∀ i, 0 ≤ s.totalScore i := fun i => (hs.table_nonneg i).trans (hs.table_le i)
  rw [concludeNoPlayer_writes]
  split_ifs with hzero
  · exact ⟨rfl, nofun⟩
  obtain ⟨w, hw, hscore⟩ := noPlayerScore_spec hs hpay.1 (by omega)
  have hsum := add_sum_erase univ s.totalScore (mem_univ w)
  have hothers : 0 ≤ ∑ j ∈ univ.erase w, s.totalScore j := sum_nonneg fun j _ => hnonneg j
  have hlt := hpay.1
  have hrange : ∀ i, -s.totalScore i ≤ s.noPlayerScore i ∧ s.noPlayerScore i < 2 ^ 31 := by
    intro i
    have := hnonneg i
    have := hnonneg w
    rw [hscore]
    split_ifs <;> omega
  refine conserves_writeScores hb (fun i => ⟨hnonneg i, hs.total_lt i⟩) hrange (fun i hi hi' => ?_) ?_
    fun i => gameTax_range hpay.2 (hrange i).2
  · have hne : i ≠ w := by
      rintro rfl
      rw [hw] at hi
      cases hi
    rw [hscore, if_neg hne, hi', neg_zero]
  · rw [← add_sum_erase univ s.noPlayerScore (mem_univ w), hscore, if_pos rfl, ← sum_add_distrib]
    refine sum_eq_zero fun i hi => ?_
    rw [hscore, if_neg (ne_of_mem_erase hi), add_neg_cancel]

/-! ## Every event -/

/-- **An event that keeps the chips together.** A hand that is played to the
end leaves no remainder to divide, one that is not has at most one player
left, and nobody leaves who has chips in the hand or stays in it. -/
def Balanced (opt : ServiceOption) (s : TableSink) : TableEvent → Prop
  | .timer .normalEnd => s.gameOver = false → Payable opt s ∧
      Even s.playStatus s.handCardData s.centerCardData s.totalScore
  | .timer .addBuffer => s.gameOver = false → s.balanceCount = 4 → Payable opt s ∧
      Even s.playStatus s.handCardData s.centerCardData s.totalScore
  | .timer .noPlayer | .lookNoCard => Payable opt s ∧ s.playCount ≤ 1
  | .standUp chair => s.totalScore chair = 0 ∧ (s.playStatus chair = true →
      s.gameOver = false ∧ s.wCurrentUser = some chair ∧ s.inGame chair = true)
  | _ => True

instance : Decidable (Payable opt s) := inferInstanceAs (Decidable (_ ∧ _))

instance {playStatus : Chair → Bool} {handCardData : Chair → UInt8 × UInt8}
    {centerCardData : List UInt8} {totalScore : Chair → ℤ} :
    Decidable (Even playStatus handCardData centerCardData totalScore) :=
  EvenGroups.decidable ..

instance : ∀ e, Decidable (Balanced opt s e)
  | .timer .normalEnd => inferInstanceAs (Decidable (_ → _ ∧ Even ..))
  | .timer .addBuffer => inferInstanceAs (Decidable (_ → _ → _ ∧ Even ..))
  | .timer .noPlayer | .lookNoCard => inferInstanceAs (Decidable (_ ∧ _))
  | .standUp _ => inferInstanceAs (Decidable (_ ∧ (_ → _)))
  | .timer .game | .timer .sendCard | .startGame _ | .addScore .. | .giveUp _ | .sitDown ..
  | .lookCard | .gameOver | .playEnd .. | .dismiss | .addTakeGold .. | .userScore ..
  | .offLine _ | .onLine _ => isTrue trivial

theorem Idle.billed (hidle : Idle s.toHand) : Billed s := by
  have hplay : s.playStatus = fun _ => false := by rw [hidle]
  have htotal : s.totalScore = fun _ => 0 := by rw [hidle]
  refine ⟨fun i hi => ?_, fun i hi => ?_⟩
  · rw [hplay, htotal] at hi
    rcases hi with h | h
    · cases h
    · exact absurd h (lt_irrefl _)
  · rw [hplay] at hi
    cases hi

/-- Chips may go off the table and players out of the hand, and who has
neither may leave. -/
theorem Billed.of_kept (hb : Billed s) (kept : Kept s s')
    (play : ∀ i, s'.playStatus i = true → s.playStatus i = true)
    (total : ∀ i, 0 < s'.totalScore i → s.playStatus i = true ∨ 0 < s.totalScore i)
    (seat : ∀ i, s'.playStatus i = true ∨ 0 < s'.totalScore i → (s.userItem i).isSome = true →
      (s'.userItem i).isSome = true) : Billed s' := by
  refine ⟨fun i hi => ?_, fun i hi => ?_⟩
  · obtain ⟨hfrist, hsome⟩ := hb.seated i (hi.elim (fun h => .inl (play i h)) (total i))
    rw [kept.fristPlayStatus]
    exact ⟨hfrist, seat i hi hsome⟩
  · rw [kept.centerCardData, kept.handCardData]
    exact hb.cards i (play i hi)

theorem Bets.conserves (hb : Bets q c lScore l s' out) (h : Hand) :
    Conserves h out ∧ ∀ chair score revenue, .writeUserScore chair score revenue ∉ out := by
  rcases afterBet_cases hb.after with ⟨-, -, rfl⟩ | ⟨-, -, rfl⟩
  · refine ⟨⟨rfl, fun _ _ _ hmem => ?_⟩, fun _ _ _ hmem => ?_⟩ <;> simp at hmem
  · refine ⟨⟨rfl, fun _ _ _ hmem => ?_⟩, fun _ _ _ hmem => ?_⟩ <;> simp at hmem

theorem Bets.billed (hbets : Bets q c lScore l s' out) (hs : Chips ante q.toHand) (hst : Stake q c l)
    (hb : Billed q) (hplay : q.playStatus c = true ∨ l = 0 ∧ q.chipTypeID ≠ .allIn) : Billed s' := by
  have hp := placed_bet hs hst
  obtain ⟨huser, hkept, hplay', -, htotal, -, -⟩ := afterBet_table hbets.after
  obtain ⟨huser', -, -, hkept'⟩ := bet_table q c l
  refine hb.of_kept ⟨hkept.1.trans hkept'.1, hkept.2.trans hkept'.2, hkept.3.trans hkept'.3,
    hkept.4.trans hkept'.4, hkept.5.trans hkept'.5⟩ (fun i hi => ?_) (fun i hi => ?_) fun i _ hi => ?_
  · rwa [hplay', hp.playStatus] at hi
  · rw [htotal, hp.totalScore] at hi
    by_cases hic : i = c
    · subst hic
      refine hplay.imp_right fun ⟨hl, htype⟩ => ?_
      rw [Function.update_self] at hi
      split_ifs at hi with hall
      · have := hall.resolve_right htype
        omega
      · omega
    · rw [Function.update_of_ne hic] at hi
      exact .inr hi
  · rwa [huser, huser']

/-- Who folds has no more in than before. -/
theorem Folds.billed (hf : Folds s chair s' out) (hs : Chips ante s.toHand) (hb : Billed s) :
    (Billed s' ∧ s'.playStatus chair = false ∧
      (s.totalScore chair = 0 → s'.totalScore chair ≤ 0)) ∧
      Conserves s.toHand out ∧ ∀ chair score revenue, .writeUserScore chair score revenue ∉ out := by
  obtain ⟨s₁, hcase, rfl⟩ := hf.after
  have hout : Billed (s.outOf chair) := by
    refine hb.of_kept ⟨rfl, rfl, rfl, rfl, rfl⟩ (fun i hi => ?_) (fun _ => .inr) fun _ _ h => h
    by_cases hic : i = chair
    · rw [hic, outOf_playStatus] at hi
      cases hi
    · exact (Function.update_of_ne hic _ _).symm.trans hi
  have hkey : (Billed s₁ ∧ s₁.playStatus chair = false ∧
      (s.totalScore chair = 0 → s₁.totalScore chair ≤ 0)) ∧
      Conserves s.toHand out ∧ ∀ chair score revenue, .writeUserScore chair score revenue ∉ out := by
    rcases hcase with ⟨l, hbets⟩ | ⟨rfl, rfl, -⟩
    · obtain ⟨rfl, hst⟩ := hbets.stake_zero (chips_outOf hs) (outOf_type s chair)
      have hp := placed_bet (chips_outOf hs) hst
      obtain ⟨-, -, hplay, -, htotal, -, -⟩ := afterBet_table hbets.after
      refine ⟨⟨hbets.billed (chips_outOf hs) hst hout (.inr ⟨rfl, (outOf_type s chair).2⟩), ?_,
        fun hzero => ?_⟩, hbets.conserves s.toHand⟩
      · rw [hplay, hp.playStatus, outOf_playStatus]
      · have hsame : (s.outOf chair).totalScore chair = s.totalScore chair := rfl
        rw [htotal, hp.totalScore, Function.update_self]
        split_ifs with hall
        · have := hall.resolve_right (outOf_type s chair).2
          omega
        · omega
    · exact ⟨⟨hout, outOf_playStatus s chair, fun h => h.le⟩, ⟨rfl, nofun⟩, nofun⟩
  split_ifs
  · exact hkey
  · obtain ⟨⟨h₁, h₂, h₃⟩, h₄⟩ := hkey
    exact ⟨⟨⟨h₁.seated, h₁.cards⟩, h₂, h₃⟩, h₄⟩

variable (opt) in
theorem startGame_cards (idle : s.gameStarted = false)
    (two : 2 ≤ chairs.countP fun i => (s.userItem i).isSome) (cards : HandCards) :
    (s.startGame opt cards).centerCardData = cards.center ∧
      (∀ i, s.seats i = true → (s.startGame opt cards).handCardData i = cards.hand i) := by
  have hgo : ¬ (s.gameStarted = true ∨ chairs.countP (fun i => (s.userItem i).isSome) < 2) := by
    rintro (hgo | hgo)
    · rw [idle] at hgo
      cases hgo
    · omega
  rw [startGame, if_neg hgo]
  refine ⟨rfl, fun i hi => ?_⟩
  have hseat : (s.enterGame.userItem i).isSome = true := (enterGame_user s i).1.trans hi
  exact if_pos hseat

theorem billed_startGame (hfit : FitStart opt s) (idle : s.gameStarted = false)
    (two : 2 ≤ chairs.countP fun i => (s.userItem i).isSome) (cards : HandCards) :
    Billed (s.startGame opt cards) := by
  have hd := dealt_startGame hfit idle two cards
  obtain ⟨hcenter, hhand⟩ := startGame_cards opt idle two cards
  refine ⟨fun i hi => ?_, fun i hi => ?_⟩
  · have hseat : s.seats i = true := by
      rcases hi with hi | hi
      · rwa [hd.playStatus] at hi
      · rw [hd.totalScore, hd.tableScore] at hi
        by_contra hno
        rw [if_neg hno] at hi
        exact lt_irrefl _ hi
    rw [hd.fristPlayStatus]
    exact ⟨hseat, inGame_isSome ((hd.inGame i).trans hseat)⟩
  · rw [hd.playStatus] at hi
    rw [hcenter, hhand i hi]
    exact ⟨cards.center_length, cards.center_ne, cards.hand_ne i⟩

/-- **Every such event conserves chips**, and one that writes scores ends the
hand. -/
theorem step_conserves (hs : Sound opt s) (hb : Billed s) (hfits : Fits opt s e)
    (hbal : Balanced opt s e) (h : step opt s e = some (s', out)) :
    Billed s' ∧ Conserves s.toHand out ∧
      ((∃ chair score revenue, .writeUserScore chair score revenue ∈ out) → s'.gameStarted = false) := by
  have hnothing : Conserves s.toHand [] ∧
      ((∃ chair score revenue, .writeUserScore chair score revenue ∈ ([] : List Output)) →
        s'.gameStarted = false) := ⟨⟨rfl, nofun⟩, fun ⟨_, _, _, hmem⟩ => absurd hmem List.not_mem_nil⟩
  have hconcluded : Concluded s s' → Billed s' := fun hc =>
    ((hc.sound hs).idle hc.gameStarted).billed
  cases step_change h with
  | quiet hand kept seats _ =>
    refine ⟨hb.of_kept kept (fun i hi => by rwa [hand] at hi) (fun i hi => .inr (by rwa [hand] at hi))
      fun i _ hi => ?_, hnothing⟩
    rwa [seats.seated]
  | start idle two => exact ⟨billed_startGame (hfits idle two) idle two _, hnothing⟩
  | @bet chair lScore type l _ _ _ play bets =>
    have hchips : Chips (setScore opt 3) { s with chipTypeID := type }.toHand := hs.chips
    obtain ⟨h₁, h₂⟩ := bets.conserves s.toHand
    exact ⟨bets.billed hchips (bets.stake hchips play) ⟨hb.seated, hb.cards⟩ (.inl play), h₁,
      fun ⟨i, a, b, hmem⟩ => absurd hmem (h₂ i a b)⟩
  | @pass chair l _ _ free bets =>
    have hchips : Chips (setScore opt 3)
        { s.killGameTimer .game with chipTypeID := .pass }.toHand := hs.chips
    obtain ⟨rfl, hstake⟩ := bets.stake_zero hchips ⟨nofun, nofun⟩
    obtain ⟨h₁, h₂⟩ := bets.conserves s.toHand
    exact ⟨bets.billed hchips hstake ⟨hb.seated, hb.cards⟩ (.inr ⟨rfl, nofun⟩), h₁,
      fun ⟨i, a, b, hmem⟩ => absurd hmem (h₂ i a b)⟩
  | @fold _ s₀ chair _ _ hand event folds =>
    have hkey : Billed s₀ ∧ Chips (setScore opt 3) s₀.toHand ∧ s₀.totalScore = s.totalScore := by
      rcases hand with rfl | rfl
      · exact ⟨hb, hs.chips, rfl⟩
      · exact ⟨⟨hb.seated, hb.cards⟩, hs.chips, rfl⟩
    obtain ⟨⟨h₁, -, -⟩, ⟨h₂, h₃⟩, h₄⟩ := folds.billed hkey.2.1 hkey.1
    rw [hkey.2.2] at h₃
    exact ⟨h₁, ⟨h₂, h₃⟩, fun ⟨i, a, b, hmem⟩ => absurd hmem (h₄ i a b)⟩
  | @leave chair s₁ out seated =>
    obtain ⟨hzero, hstay⟩ := hbal
    have hleave : ∀ t : TableSink, Billed t → t.playStatus chair = false → t.totalScore chair ≤ 0 →
        Billed { t with userItem := Function.update t.userItem chair none } := by
      intro t ht hplay htotal
      refine ht.of_kept ⟨rfl, rfl, rfl, rfl, rfl⟩ (fun _ h => h) (fun _ => .inr) fun i hi hsome => ?_
      have hic : i ≠ chair := by
        rintro rfl
        rcases hi with hi | hi
        · exact absurd hi (by rw [hplay]; decide)
        · exact absurd htotal (not_le.2 hi)
      dsimp only
      rwa [Function.update_of_ne hic]
    rcases seated with ⟨rfl, rfl, hno⟩ | folds
    · refine ⟨hleave s₁ hb ?_ hzero.le, hnothing⟩
      rw [← Bool.not_eq_true]
      intro hplay
      obtain ⟨hover, hcur, hin⟩ := hstay hplay
      rcases hno with h | h | h | h
      · have := hs.current hcur
        rw [h] at this
        cases this
      · rw [h] at hin
        cases hin
      · rw [h] at hover
        cases hover
      · exact h hcur
    · obtain ⟨⟨h₁, h₂, h₃⟩, h₄, h₅⟩ := folds.billed hs.chips hb
      exact ⟨hleave s₁ h₁ h₂ (h₃ hzero), h₄, fun ⟨i, a, b, hmem⟩ => absurd hmem (h₅ i a b)⟩
  | @sit chair userScore trusteeScore empty =>
    refine ⟨hb.of_kept ⟨rfl, rfl, rfl, rfl, rfl⟩ (fun _ h => h) (fun _ => .inr) fun i _ hi => ?_, hnothing⟩
    have hic : i ≠ chair := by
      rintro rfl
      rw [empty] at hi
      cases hi
    dsimp only
    rwa [Function.update_of_ne hic]
  | @take chair lookon lAddTake u user free =>
    obtain ⟨hand, kept, huser, -⟩ := onUserAddTakeGold_kept opt s chair u.trusteeScore (int32 lAddTake)
    refine ⟨hb.of_kept kept (fun i hi => by rwa [hand] at hi) (fun i hi => .inr (by rwa [hand] at hi))
      fun i _ hi => ?_, hnothing⟩
    rwa [huser]
  | deal hand kept seats _ =>
    refine ⟨hb.of_kept kept (fun i hi => by rwa [hand] at hi) (fun i hi => .inr (by rwa [hand] at hi))
      fun i _ hi => ?_, hnothing⟩
    rwa [seats.seated]
  | normal timer notOver concludes concluded =>
    refine ⟨hconcluded concluded, ?_, fun _ => concluded.gameStarted⟩
    rcases timer with rfl | ⟨rfl, hfour⟩
    · obtain ⟨hpay, heven⟩ := hbal notOver
      exact conserves_normal (s := s.killGameTimer .normalEnd) hs.chips ⟨hb.seated, hb.cards⟩ hpay heven
        notOver concludes
    · obtain ⟨hpay, heven⟩ := hbal notOver hfour
      exact conserves_normal (s := s.killGameTimer .addBuffer) hs.chips ⟨hb.seated, hb.cards⟩ hpay heven
        notOver concludes
  | noPlayer event writes concluded =>
    refine ⟨hconcluded concluded, ?_, fun _ => concluded.gameStarted⟩
    have hkey : Payable opt s ∧ s.playCount ≤ 1 := by
      rcases event with rfl | rfl
      · exact hbal
      · exact hbal
    rw [writes]
    exact conserves_noPlayer hs.chips hb hkey.1 hkey.2
  | reset concluded => exact ⟨hconcluded concluded, hnothing⟩

/-- **A hand conserves chips**, in every run of such events: whenever scores
are written the hand is over, they and their tax add up to zero, and
nobody loses more than he has bet. -/
theorem settlement_conserves {es : List TableEvent} {r : TableSink × List Output}
    (hes : Machine.Along (step opt) (fun s e => Fits opt s e ∧ Balanced opt s e) {} (es ++ [e]))
    (hr : Machine.run (step opt) {} es = some r) (h : step opt r.1 e = some (s', out)) :
    Conserves r.1.toHand out ∧
      ((∃ chair score revenue, .writeUserScore chair score revenue ∈ out) → s'.gameStarted = false) := by
  obtain ⟨hes₁, hes₂⟩ := Machine.along_append hes
  have hinit : Billed ({} : TableSink) := Idle.billed rfl
  obtain ⟨hs, hb⟩ := Machine.inv_run (P := fun s => Sound opt s ∧ Billed s)
    (fun s e s' out ⟨hs, hb⟩ hok hstep =>
      ⟨step_keeps_sound hs hok.1 hstep, (step_conserves hs hb hok.1 hok.2 hstep).1⟩)
    es {} r ⟨sound_init opt, hinit⟩ hes₁ hr
  have hok := (hes₂ r hr).1
  exact (step_conserves hs hb hok.1 hok.2 h).2

def acesCards : HandCards where
  hand i := if i = 0 then (0x01, 0x11) else (0x07, 0x13)
  center := [0x0D, 0x1B, 0x29, 0x08, 0x02]
  center_length := someCards.center_length
  center_ne := someCards.center_ne
  hand_ne := by decide

/-- The scores and the tax an output writes. -/
def scores : Output → Option (Chair × ℤ × ℤ)
  | .writeUserScore chair score revenue => some (chair, score, revenue)
  | .addScore .. | .turnOver _ => none

/-- Both players are all in with a thousand chips, and the aces win them, less
the tax. -/
theorem settlement_conserves_allIn : ∃ r s' out,
    Machine.run (step smallTable) {} [.sitDown 0 1000 1000, .sitDown 1 1000 1000,
        .startGame acesCards, .addScore 1 0 .allIn, .addScore 0 0 .gen, .timer .addBuffer] = some r ∧
      step smallTable r.1 (.timer .normalEnd) = some (s', out) ∧
      out.map scores = [some (0, 950, 50), some (1, -1000, 0)] ∧ Conserves r.1.toHand out := by
  have hrun : ((Machine.run (step smallTable) {} [.sitDown 0 1000 1000, .sitDown 1 1000 1000,
      .startGame acesCards, .addScore 1 0 .allIn, .addScore 0 0 .gen, .timer .addBuffer]).bind fun r =>
        (step smallTable r.1 (.timer .normalEnd)).map fun x => x.2.map scores) =
      some [some (0, 950, 50), some (1, -1000, 0)] := by decide +kernel
  obtain ⟨r, hr, hstep⟩ := Option.bind_eq_some_iff.1 hrun
  obtain ⟨⟨s', out⟩, hs', heq⟩ := Option.map_eq_some_iff.1 hstep
  exact ⟨r, s', out, hr, hs', heq, (settlement_conserves (by decide +kernel) hr hs').1⟩

/-- **Chips out of nothing.** The small blind leaves the table on his turn: the
big blind is paid his five chips, and he never pays them. -/
theorem leaver_never_pays : ∃ r s' out,
    Machine.run (step smallTable) {} (headsUp ++ [.standUp 1]) = some r ∧
      step smallTable r.1 (.timer .noPlayer) = some (s', out) ∧ r.1.totalScore 1 = 5 ∧
      out.map scores = [some (0, 5, 0)] ∧ ¬ Conserves r.1.toHand out := by
  have hrun : ((Machine.run (step smallTable) {} (headsUp ++ [.standUp 1])).bind fun r =>
        (step smallTable r.1 (.timer .noPlayer)).map fun x => decide (r.1.totalScore 1 = 5 ∧
          x.2.map scores = [some (0, 5, 0)] ∧ (x.2.map Output.written).sum = 5)) = some true := by
    decide +kernel
  obtain ⟨r, hr, hstep⟩ := Option.bind_eq_some_iff.1 hrun
  obtain ⟨⟨s', out⟩, hs', heq⟩ := Option.map_eq_some_iff.1 hstep
  obtain ⟨htotal, hscores, hsum⟩ := of_decide_eq_true heq
  refine ⟨r, s', out, hr, hs', htotal, hscores, fun h => ?_⟩
  have hzero := h.1
  rw [hsum] at hzero
  cases hzero

end TableSink

end GameServer.TexasHoldem
