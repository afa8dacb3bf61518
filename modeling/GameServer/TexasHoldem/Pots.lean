import GameServer.TexasHoldem.Betting
import Mathlib.Algebra.BigOperators.Fin
/-!
# Texas hold'em — the pots of a closed round

The pots a round is closed with are the chips of all players between
rising levels, each for the players still in who reach its level
(`Layered`), as long as a player who has not bet as much as another is
all in (`splitPools_layered`). A player who can bet has in what there was
before the round and what he has on the table (`Levelled`); so with the
bets of the round matched the pots are right (`closed_pots_right`).
-/

namespace GameServer.TexasHoldem

open Finset

variable {base : ℤ}

/-! ## Pots at rising levels -/

/-- What a chair has in above a level. -/
def above (total : Chair → ℤ) (low : ℤ) (i : Chair) : ℤ := max (total i - low) 0

theorem decide_above {total : Chair → ℤ} {low : ℤ} (i : Chair) :
    decide (above total low i > 0) = true ↔ low < total i := by
  rw [decide_eq_true_iff, above]
  omega

/-- **Pots between rising levels**: the chips of all chairs between a level
and the next one, for the chairs still in that reach it. -/
def Layered (total : Chair → ℤ) (play : Chair → Bool) : ℤ → List ChipPool → ℤ → Prop
  | low, [], top => low = top
  | low, pool :: pools, top => ∃ high, low < high ∧
      pool.score = ∑ i, (min (total i) high - min (total i) low) ∧
      pool.handChair = chairs.filter (fun i => play i && decide (high ≤ total i)) ∧
      Layered total play high pools top

variable {total : Chair → ℤ} {play showBuffer : Chair → Bool} {low high top : ℤ}
  {pools : List ChipPool}

/-- The pots hold the chips between the first level and the last. -/
theorem Layered.sum : ∀ {pools : List ChipPool} {low : ℤ}, Layered total play low pools top →
    (pools.map ChipPool.score).sum = ∑ i, (min (total i) top - min (total i) low)
  | [], low, h => by
    rw [show low = top from h]
    simp
  | pool :: pools, low, ⟨high, _, hscore, _, h⟩ => by
    rw [List.map_cons, List.sum_cons, hscore, h.sum, ← sum_add_distrib]
    exact sum_congr rfl fun i _ => by omega

theorem Layered.append {mid : ℤ} {pools' : List ChipPool} (h' : Layered total play mid pools' top) :
    ∀ {pools : List ChipPool} {low : ℤ}, Layered total play low pools mid →
      Layered total play low (pools ++ pools') top
  | [], low, h => by
    rw [show low = mid from h]
    exact h'
  | _ :: _, _, ⟨high, hlt, hscore, hchairs, h⟩ => ⟨high, hlt, hscore, hchairs, h'.append h⟩

namespace TableSink

/-- The chips of a pot that is closed at `high`. -/
theorem takePool_spec (hsum : ∑ i, total i < 2 ^ 31) (hnonneg : ∀ i, 0 ≤ total i)
    (hbuffer : ∀ i, showBuffer i = true → play i = true) {owner : Chair} (howner : play owner = true)
    (hlow : 0 ≤ low) (hlt : low < high) :
    let r := takePool play showBuffer owner (high - low) (above total low)
    r.1.score = ∑ i, (min (total i) high - min (total i) low) ∧
      r.1.handChair = chairs.filter (fun i => play i && decide (low < total i)) ∧
      r.2 = above total high := by
  have hle : ∀ i, total i ≤ ∑ j, total j := fun i => single_le_sum (fun j _ => hnonneg j) (mem_univ i)
  have htake : ∀ i, (if above total low i > high - low then high - low else above total low i) =
      min (total i) high - min (total i) low := by
    intro i
    simp only [above]
    split_ifs <;> omega
  refine ⟨?_, ?_, ?_⟩
  · simp only [takePool, htake]
    rw [foldl_int32_add (fun i => by omega) le_rfl, zero_add, sum_chairs_filter]
    · refine sum_congr rfl fun i _ => ?_
      by_cases hi : low < total i
      · rw [if_pos ((decide_above i).2 hi)]
      · rw [if_neg (mt (decide_above i).1 hi)]
        omega
    · rw [zero_add, sum_chairs_filter]
      refine lt_of_le_of_lt (sum_le_sum fun i _ => ?_) hsum
      have := hnonneg i
      split_ifs <;> omega
  · refine List.filter_congr fun i _ => ?_
    have hpos : above total low i > 0 ↔ low < total i := decide_eq_true_iff.symm.trans (decide_above i)
    have hin : play i = true ∨ showBuffer i = true ↔ play i = true :=
      ⟨fun h => h.elim id (hbuffer i), .inl⟩
    simp only [hpos, howner, hin, true_and, Bool.decide_and, Bool.decide_eq_true]
    exact Bool.and_comm ..
  · funext i
    have := hle i
    have := hnonneg i
    simp only [takePool, htake]
    rw [int32_of_range (by simp only [above]; omega) (by simp only [above]; omega)]
    simp only [above]
    split_ifs <;> omega

/-- **The pots of the all-in levels.** A player still in has bet an all-in
amount of his own, or no less than all of them. -/
theorem takePools_layered (hsum : ∑ i, total i < 2 ^ 31) (hnonneg : ∀ i, 0 ≤ total i)
    (hbuffer : ∀ i, showBuffer i = true → play i = true) :
    ∀ (entries : List (ℤ × Chair)) (low : ℤ), 0 ≤ low → entries.Pairwise (fun a b => a.1 ≤ b.1) →
      (∀ x ∈ entries, x.1 = 0 ∨ low ≤ x.1 ∧ total x.2 = x.1 ∧ play x.2 = true) →
      (∀ i, play i = true → low < total i →
        (∃ x ∈ entries, x.1 = total i) ∨ ∀ x ∈ entries, x.1 ≤ total i) →
      ∃ high, low ≤ high ∧ (∀ x ∈ entries, x.1 ≤ high) ∧
        (takePools play showBuffer entries low (above total low)).2 = above total high ∧
        Layered total play low (takePools play showBuffer entries low (above total low)).1 high := by
  intro entries
  induction entries with
  | nil => exact fun low _ _ _ _ => ⟨low, le_rfl, nofun, rfl, rfl⟩
  | cons x entries ih =>
    obtain ⟨bet, owner⟩ := x
    intro low hlow hsorted hentries hflat
    obtain ⟨hhead, htail⟩ := List.pairwise_cons.1 hsorted
    have hentries' : ∀ y ∈ entries, y.1 = 0 ∨ low ≤ y.1 ∧ total y.2 = y.1 ∧ play y.2 = true :=
      fun y hy => hentries y (List.mem_cons_of_mem _ hy)
    by_cases hskip : bet ≤ low
    · -- nothing is left to take at this level
      have hpools : takePools play showBuffer ((bet, owner) :: entries) low (above total low) =
          takePools play showBuffer entries low (above total low) := by
        rw [takePools]
        rcases hentries _ List.mem_cons_self with h | ⟨h, htotal, -⟩
        · rw [if_pos (.inl h)]
        · have hzero : above total low owner = 0 := by
            simp only [above]
            dsimp only at htotal
            omega
          rw [if_pos (.inr hzero)]
      obtain ⟨high, hle, hmax, hrest, hlayered⟩ := ih low hlow htail hentries' fun i hi hlt => by
        rcases hflat i hi hlt with ⟨y, hy, heq⟩ | hall
        · rcases List.mem_cons.1 hy with rfl | hy
          · dsimp only at heq
            omega
          · exact .inl ⟨y, hy, heq⟩
        · exact .inr fun y hy => hall y (List.mem_cons_of_mem _ hy)
      rw [hpools]
      refine ⟨high, hle, fun y hy => ?_, hrest, hlayered⟩
      rcases List.mem_cons.1 hy with rfl | hy
      · exact hskip.trans hle
      · exact hmax y hy
    · rw [not_le] at hskip
      obtain ⟨-, htotal, hplay⟩ := (hentries _ List.mem_cons_self).resolve_left fun h => by
        dsimp only at h
        omega
      dsimp only at htotal hplay
      have hlt : total owner < 2 ^ 31 :=
        lt_of_le_of_lt (single_le_sum (fun j _ => hnonneg j) (mem_univ owner)) hsum
      have hne : above total low owner ≠ 0 := by
        simp only [above]
        omega
      obtain ⟨hscore, hchairs, hleft⟩ := takePool_spec hsum hnonneg hbuffer hplay hlow hskip
      have hpools : takePools play showBuffer ((bet, owner) :: entries) low (above total low) =
          ((takePool play showBuffer owner (bet - low) (above total low)).1 ::
            (takePools play showBuffer entries bet (above total bet)).1,
            (takePools play showBuffer entries bet (above total bet)).2) := by
        rw [takePools, if_neg (by omega), if_neg (by omega), int32_of_range (by omega) (by omega)]
        simp only [hleft]
      obtain ⟨high, hle, hmax, hrest, hlayered⟩ := ih bet (by omega) htail
        (fun y hy => (hentries' y hy).imp_right fun ⟨_, h⟩ => ⟨hhead y hy, h⟩) fun i hi hlt' => by
          rcases hflat i hi (hskip.trans hlt') with ⟨y, hy, heq⟩ | hall
          · rcases List.mem_cons.1 hy with rfl | hy
            · dsimp only at heq
              omega
            · exact .inl ⟨y, hy, heq⟩
          · exact .inr fun y hy => hall y (List.mem_cons_of_mem _ hy)
      rw [hpools]
      refine ⟨high, hskip.le.trans hle, fun y hy => ?_, hrest, bet, hskip, hscore, ?_, hlayered⟩
      · rcases List.mem_cons.1 hy with rfl | hy
        · exact hle
        · exact hmax y hy
      · -- who is still in with something above the level before reaches this one
        rw [hchairs]
        refine List.filter_congr fun i _ => ?_
        cases hi : play i with
        | false => rfl
        | true =>
          rw [Bool.true_and, Bool.true_and, decide_eq_decide]
          refine ⟨fun hlt' => ?_, fun h => lt_of_lt_of_le hskip h⟩
          rcases hflat i hi hlt' with ⟨y, hy, heq⟩ | hall
          · rcases List.mem_cons.1 hy with rfl | hy
            · exact heq.le
            · exact (hhead y hy).trans heq.le
          · exact hall _ List.mem_cons_self

variable {opt : ServiceOption} {s s' q p : TableSink} {c chair : Chair} {l lScore ante : ℤ}
  {out : List Output} {e : TableEvent}

/-- **The pots are right**: they hold what all players have in, in layers for
the players still in that reach them. -/
def PotsRight (h : Hand) : Prop :=
  (h.aryChipPool.map ChipPool.score).sum = ∑ i, h.totalScore i ∧
    ∃ top, Layered h.totalScore h.playStatus 0 h.aryChipPool top

/-- What is left of the chips, above the last all-in level. -/
theorem restPool_layered (hsum : ∑ i, total i < 2 ^ 31) (hnonneg : ∀ i, 0 ≤ total i) (hlow : 0 ≤ low)
    (hflat : ∀ i, play i = true → low < total i → ∀ j, total j ≤ total i) :
    ∃ top, (∀ i, total i ≤ top) ∧ Layered total play low [restPool play (above total low)] top := by
  obtain ⟨m, -, hmax⟩ := exists_max_image univ total ⟨0, mem_univ _⟩
  have hmax' : ∀ i, total i ≤ max (total m) (low + 1) := fun i => (hmax i (mem_univ i)).trans (le_max_left _ _)
  refine ⟨max (total m) (low + 1), hmax', max (total m) (low + 1), by omega, ?_, ?_, rfl⟩
  · have hscore : ∀ i, (if decide (above total low i > 0) = true then above total low i else 0) =
        min (total i) (max (total m) (low + 1)) - min (total i) low := by
      intro i
      have := hmax' i
      by_cases hi : low < total i
      · rw [if_pos ((decide_above i).2 hi), above]
        omega
      · rw [if_neg (mt (decide_above i).1 hi)]
        omega
    have habove : ∀ i, 0 ≤ above total low i := fun i => le_max_right _ _
    simp only [restPool]
    rw [foldl_int32_add habove le_rfl, zero_add, sum_chairs_filter]
    · exact sum_congr rfl fun i _ => hscore i
    · rw [zero_add, sum_chairs_filter]
      refine lt_of_le_of_lt (sum_le_sum fun i _ => ?_) hsum
      rw [hscore]
      have := hnonneg i
      omega
  · refine List.filter_congr fun i _ => ?_
    have hpos : above total low i > 0 ↔ low < total i := decide_eq_true_iff.symm.trans (decide_above i)
    simp only [hpos]
    cases hi : play i with
    | false => simp
    | true =>
      simp only [and_true, Bool.true_and, decide_eq_decide]
      refine ⟨fun hlt => ?_, fun h => by omega⟩
      have := hflat i hi hlt m
      omega

/-- **A round is split into right pots** if every player still in with chips
on the table has the most of all, or the same as one who is all in. -/
theorem splitPools_layered (hsum : ∑ i, s.totalScore i < 2 ^ 31) (hnonneg : ∀ i, 0 ≤ s.totalScore i)
    (hbuffer : ∀ i, s.showHandBuffer i = true → s.playStatus i = true)
    (hflat : ∀ i, s.playStatus i = true → 0 < s.totalScore i →
      (∃ j, s.playStatus j = true ∧ s.userMaxScore j ≤ s.totalScore j ∧
        s.totalScore j = s.totalScore i) ∨ ∀ j, s.totalScore j ≤ s.totalScore i) :
    ∃ top, (∀ i, s.totalScore i ≤ top) ∧ Layered s.totalScore s.playStatus 0 s.splitPools top := by
  have hzero : above s.totalScore 0 = s.totalScore := by
    funext i
    have := hnonneg i
    simp only [above]
    omega
  unfold splitPools
  split_ifs with hany
  · dsimp only
    obtain ⟨entries, hdef⟩ : ∃ entries, entries = sortValueList (chairs.map fun i =>
        (if s.playStatus i ∧ s.totalScore i > 0 ∧ s.totalScore i ≥ s.userMaxScore i then
          s.totalScore i else 0, i)) := ⟨_, rfl⟩
    rw [← hdef]
    have hentries : ∀ x, x ∈ entries ↔ ∃ i, x =
        (if s.playStatus i ∧ s.totalScore i > 0 ∧ s.totalScore i ≥ s.userMaxScore i then
          s.totalScore i else 0, i) := by
      intro x
      rw [hdef, sortValueList, (bubbleSort_perm _ _).mem_iff, List.mem_map]
      exact ⟨fun ⟨i, _, h⟩ => ⟨i, h.symm⟩, fun ⟨i, h⟩ => ⟨i, List.mem_finRange i, h.symm⟩⟩
    have hsorted : entries.Pairwise (fun a b => a.1 ≤ b.1) := by
      rw [hdef]
      have : IsTrans (ℤ × Chair) (fun a b => a.1 ≤ b.1) := ⟨fun a b c => le_trans⟩
      refine sorted_bubbleSort (fun a b h => by simpa using h) (fun a b h => ?_) _
      have hnot : ¬ a.1 ≥ b.1 := by simpa using h
      omega
    have hbets : ∀ x ∈ entries, x.1 = 0 ∨ 0 ≤ x.1 ∧ s.totalScore x.2 = x.1 ∧ s.playStatus x.2 = true := by
      intro x hx
      obtain ⟨i, rfl⟩ := (hentries x).1 hx
      dsimp only
      split_ifs with hi
      · exact .inr ⟨hnonneg i, rfl, hi.1⟩
      · exact .inl rfl
    have hle : ∀ x ∈ entries, ∀ i, (∀ j, s.totalScore j ≤ s.totalScore i) → x.1 ≤ s.totalScore i := by
      intro x hx i hi
      have := hnonneg i
      rcases hbets x hx with h | ⟨-, h, -⟩
      · omega
      · exact h ▸ hi x.2
    have hmem : ∀ i j, s.playStatus j = true → s.userMaxScore j ≤ s.totalScore j →
        s.totalScore j = s.totalScore i → 0 < s.totalScore i → ∃ x ∈ entries, x.1 = s.totalScore i := by
      intro i j hj hall heq hpos
      refine ⟨_, (hentries _).2 ⟨j, rfl⟩, ?_⟩
      dsimp only
      rw [if_pos ⟨hj, by omega, hall⟩, heq]
    obtain ⟨high, hlow, hmax, hrest, hlayered⟩ := takePools_layered hsum hnonneg hbuffer entries 0
      le_rfl hsorted hbets fun i hi hlt => (hflat i hi hlt).imp
        (fun ⟨j, hj, hall, heq⟩ => hmem i j hj hall heq hlt) fun h x hx => hle x hx i h
    obtain ⟨top, htop, hlast⟩ := restPool_layered hsum hnonneg hlow fun i hi hlt =>
      (hflat i hi (lt_of_le_of_lt hlow hlt)).resolve_left fun ⟨j, hj, hall, heq⟩ => by
        obtain ⟨x, hx, hxi⟩ := hmem i j hj hall heq (lt_of_le_of_lt hlow hlt)
        have := hmax x hx
        omega
    rw [hzero] at hrest hlayered
    rw [hrest]
    exact ⟨top, htop, hlast.append hlayered⟩
  · obtain ⟨top, hle, h⟩ := restPool_layered hsum hnonneg le_rfl fun i hi hlt =>
      (hflat i hi hlt).resolve_left fun ⟨j, hj, hall, _⟩ => hany (by
        rw [List.any_eq_true]
        exact ⟨j, List.mem_finRange j, by simpa [hj] using hall⟩)
    rw [hzero] at h
    exact ⟨top, hle, h⟩

/-! ## The totals of a hand -/

/-- **What a hand keeps of the totals.** Who can bet has in what there was
before the round, `base`, and what he has on the table, and nobody has
more in than the bet adds to it. Who has gone all in in this round is
still in. -/
structure Levelled (base : ℤ) (h : Hand) : Prop where
  even : ∀ i, h.canBet i = true → h.totalScore i = base + h.tableScore i
  le : ∀ i, h.totalScore i ≤ base + h.balanceScore
  turnMax : ∀ i, h.playStatus i = true → h.turnMaxScore i = h.userMaxScore i - h.totalScore i
  buffer : ∀ i, h.showHandBuffer i = true →
    h.playStatus i = true ∧ h.userMaxScore i ≤ h.totalScore i
  sum : ∑ i, (if h.playStatus i = true then h.userMaxScore i else h.totalScore i) < 2 ^ 31

/-- Who is not in the hand may bring what he likes. -/
theorem Levelled.of_gold {h : Hand} {gold max' : Chair → ℤ} (hl : Levelled base h)
    (hmax : ∀ i, h.playStatus i = true → max' i = h.userMaxScore i) :
    Levelled base { h with userTakeGold := gold, userMaxScore := max' } where
  even := hl.even
  le := hl.le
  turnMax i hi := by
    dsimp only
    rw [hmax i hi]
    exact hl.turnMax i hi
  buffer i hi := by
    obtain ⟨hin, hall⟩ := hl.buffer i hi
    dsimp only
    rw [hmax i hin]
    exact ⟨hin, hall⟩
  sum := by
    refine lt_of_eq_of_lt (sum_congr rfl fun i _ => ?_) hl.sum
    dsimp only
    split_ifs with hi
    · rw [hmax i hi]
    · rfl

theorem Levelled.total_sum {h : Hand} (hl : Levelled base h) (hs : Chips ante h) :
    ∑ i, h.totalScore i < 2 ^ 31 := by
  refine lt_of_le_of_lt (sum_le_sum fun i _ => ?_) hl.sum
  split_ifs with hi
  · exact hs.total_le i hi
  · exact le_rfl

/-- A bet that is all in is of all there is. -/
def Exact (q : TableSink) (c : Chair) (l : ℤ) : Prop :=
  q.goesAllIn c l → q.playStatus c = true ∧ q.userMaxScore c ≤ q.totalScore c + l

/-- **A bet keeps the totals level.** -/
theorem Levelled.placed (hl : Levelled base q.toHand) (hs : Chips ante q.toHand)
    (hst : Stake q c l) (hp : Placed q c l p) (hexact : Exact q c l)
    (hplays : q.playStatus c = true ∨ l = 0)
    (hallIn : ∀ i, q.playStatus i = true → q.showHand i = true → q.userMaxScore i ≤ q.totalScore i) :
    Levelled base p.toHand := by
  have hnonneg := hst.nonneg
  have hle := hst.le
  have htotal : p.totalScore c = q.totalScore c + l := by
    rw [hp.totalScore, Function.update_self]
    split_ifs with hall
    · have := (hexact hall).2
      omega
    · rfl
  have hother : ∀ i, i ≠ c → p.totalScore i = q.totalScore i ∧ p.tableScore i = q.tableScore i := by
    intro i hi
    rw [hp.totalScore, hp.tableScore, Function.update_of_ne hi, Function.update_of_ne hi]
    exact ⟨rfl, rfl⟩
  have hbal : p.balanceScore = max q.balanceScore (q.tableScore c + l) := hp.balanceScore
  constructor
  · intro i hi
    by_cases hic : i = c
    · subst hic
      rw [hp.canBet_self, Bool.and_eq_true] at hi
      have := hl.even i hi.1
      rw [htotal, hp.tableScore, Function.update_self]
      omega
    · rw [hp.canBet_of_ne hic] at hi
      rw [(hother i hic).1, (hother i hic).2]
      exact hl.even i hi
  · intro i
    have := hl.le i
    by_cases hic : i = c
    · subst hic
      rw [htotal, hbal]
      by_cases hcan : q.canBet i = true
      · have := hl.even i hcan
        omega
      · -- who is all in has nothing left to bet
        have hzero : l = 0 := by
          rcases hplays with hplay | h
          · rw [Hand.canBet, hplay, Bool.true_and, Bool.not_eq_true', Bool.not_eq_false] at hcan
            have := hallIn i hplay hcan
            omega
          · exact h
        omega
    · rw [(hother i hic).1, hbal]
      omega
  · intro i hi
    rw [hp.playStatus] at hi
    have := hl.turnMax i hi
    rw [hp.turnMaxScore, hp.userMaxScore]
    by_cases hic : i = c
    · subst hic
      have := hs.max_lt i
      have := hs.table_nonneg i
      have := hs.table_le i
      rw [Function.update_self, htotal, int32_of_range (by omega) (by omega)]
      omega
    · rwa [Function.update_of_ne hic, (hother i hic).1]
  · intro i hi
    rw [hp.showHandBuffer] at hi
    rw [hp.playStatus, hp.userMaxScore]
    by_cases hic : i = c
    · subst hic
      rw [Function.update_self, Bool.or_eq_true, decide_eq_true_eq] at hi
      rw [htotal]
      rcases hi with hi | hi
      · have := hl.buffer i hi
        exact ⟨this.1, by omega⟩
      · exact hexact hi
    · rw [Function.update_of_ne hic] at hi
      rw [(hother i hic).1]
      exact hl.buffer i hi
  · rw [hp.playStatus, hp.userMaxScore]
    refine lt_of_eq_of_lt (sum_congr rfl fun i _ => ?_) hl.sum
    by_cases hic : i = c
    · subst hic
      split_ifs with hplay
      · rfl
      · have := hplays.resolve_left hplay
        omega
    · rw [(hother i hic).1]

/-- Who can bet has the most of all when the bets are matched, so the pots
are right. -/
theorem closed_pots_right (hl : Levelled base p.toHand) (hs : Chips ante p.toHand)
    (hmatched : AllMatched p.toHand)
    (hallIn : ∀ i, p.playStatus i = true → p.showHand i = true → p.userMaxScore i ≤ p.totalScore i) :
    PotsRight (p.countBet c l).closeRound.toHand := by
  have hnonneg : ∀ i, 0 ≤ p.totalScore i := fun i => (hs.table_nonneg i).trans (hs.table_le i)
  have hsplit := splitPools_layered (s := p.countBet c l) (hl.total_sum hs) hnonneg
    (fun i hi => (hl.buffer i hi).1) fun i hi hpos => by
      by_cases hcan : p.canBet i = true
      · have := hl.even i hcan
        have := hmatched i hcan
        refine .inr fun j => ?_
        have hle : p.totalScore j ≤ p.totalScore i := by
          have := hl.le j
          omega
        exact hle
      · have hi' : p.playStatus i = true := hi
        rw [Hand.canBet, hi', Bool.true_and, Bool.not_eq_true', Bool.not_eq_false] at hcan
        exact .inl ⟨i, hi, hallIn i hi' hcan, rfl⟩
  obtain ⟨top, htop, hlayered⟩ := hsplit
  rw [closeRound_hand]
  refine ⟨hlayered.sum.trans (sum_congr rfl fun i _ => ?_), top, hlayered⟩
  have h₁ := hnonneg i
  have h₂ : p.totalScore i ≤ top := htop i
  have h₃ : (p.countBet c l).totalScore i = p.totalScore i := rfl
  dsimp only
  omega

/-- After the bet the round goes on, or a new one begins with what is in. -/
theorem Levelled.afterBet (hl : Levelled base p.toHand) (hs : Chips ante p.toHand)
    (hmatched : (p.countBet c l).finishTurn (chairBehind c (p.nextHops c)) = true → AllMatched p.toHand)
    (hallIn : ∀ i, p.playStatus i = true → p.showHand i = true → p.userMaxScore i ≤ p.totalScore i)
    (h : p.afterBet c l = (s', out)) :
    (∃ base', Levelled base' s'.toHand) ∧ ∀ bets, .turnOver bets ∈ out → PotsRight s'.toHand := by
  have hrange : ∀ i, int32 (p.userMaxScore i - p.totalScore i) = p.userMaxScore i - p.totalScore i := by
    intro i
    have := hs.table_nonneg i
    have := hs.table_le i
    have := hs.total_lt i
    have := hs.max_nonneg i
    have := hs.max_lt i
    exact int32_of_range (by omega) (by omega)
  rcases afterBet_cases h with ⟨hfinish, rfl, rfl⟩ | ⟨-, rfl, rfl⟩
  · have hall := hmatched hfinish
    refine ⟨⟨base + p.balanceScore, ?_⟩, fun _ _ => closed_pots_right hl hs hall hallIn⟩
    rw [closeRound_hand]
    exact
      { even := fun i hi => by
          have hi' : p.canBet i = true := hi
          have h₁ := hl.even i hi'
          have h₂ := hall i hi'
          have h₃ : (p.countBet c l).totalScore i = p.totalScore i := rfl
          dsimp only
          omega
        le := fun i => (hl.le i).trans (add_zero _).ge
        turnMax := fun i hi => (if_pos hi).trans (hrange i)
        buffer := nofun
        sum := hl.sum }
  · refine ⟨⟨base, hl.even, hl.le, fun i hi => ?_, hl.buffer, hl.sum⟩, fun bets hmem => ?_⟩
    · have hdef : ((p.countBet c l).continueTurn (chairBehind c (p.nextHops c))).turnMaxScore i =
          Function.update p.turnMaxScore (chairBehind c (p.nextHops c))
            (int32 (p.userMaxScore (chairBehind c (p.nextHops c)) -
              p.totalScore (chairBehind c (p.nextHops c)))) i := rfl
      rw [hdef]
      by_cases hic : i = chairBehind c (p.nextHops c)
      · rw [hic, Function.update_self]
        exact hrange _
      · rw [Function.update_of_ne hic]
        exact hl.turnMax i hi
    · rw [List.mem_singleton] at hmem
      cases hmem

/-! ## Every event -/

/-- **An event that keeps the pots right.** What the players of a hand bring
adds up to a `LONG`; who folds, or is timed out, is not all in, unless he
is still in and passes; and gold is not brought to a player in the hand. -/
def PotSafe (s : TableSink) : TableEvent → Prop
  | .startGame _ => s.gameStarted = false →
      2 ≤ chairs.countP (fun i => (s.userItem i).isSome) → ∑ i, s.brings i < 2 ^ 31
  | .giveUp chair => s.wCurrentUser = some chair → s.gameOver = false →
      s.playStatus chair = true → s.totalScore chair < s.userMaxScore chair
  | .timer .game => ∀ c, s.wCurrentUser = some c → s.gameOver = false →
      s.totalScore c < s.userMaxScore c ∨ s.turnLessScore = 0 ∧ s.playStatus c = true
  | .standUp chair => s.wCurrentUser = some chair → s.gameOver = false →
      s.totalScore chair < s.userMaxScore chair
  | .addTakeGold chair lookon _ => lookon = true ∨ s.inGame chair = false →
      s.playStatus chair = false
  | _ => True

instance : ∀ e, Decidable (PotSafe s e)
  | .startGame _ => inferInstanceAs (Decidable (_ → _ → _))
  | .giveUp _ => inferInstanceAs (Decidable (_ → _ → _ → _))
  | .timer .game => inferInstanceAs (Decidable (∀ _, _ → _ → _))
  | .standUp _ => inferInstanceAs (Decidable (_ → _ → _))
  | .addTakeGold .. => inferInstanceAs (Decidable (_ → _))
  | .timer .addBuffer | .timer .normalEnd | .timer .sendCard | .timer .noPlayer | .addScore ..
  | .sitDown .. | .lookCard | .lookNoCard | .gameOver | .playEnd .. | .dismiss | .userScore ..
  | .offLine _ | .onLine _ => isTrue trivial

def LevelHand (s : TableSink) : Prop := s.gameStarted = true → ∃ base, Levelled base s.toHand

theorem Dealt.levelled {t : TableSink} (hd : Dealt opt s t) (hfit : FitStart opt s)
    (hb : Betting t.toHand) (hsum : ∑ i, s.brings i < 2 ^ 31) : Levelled 0 t.toHand where
  even i _ := (hd.totalScore i).trans (zero_add _).symm
  le i := by
    rw [hd.totalScore, zero_add]
    exact hb.le i
  turnMax i hi := by
    rw [hd.playStatus] at hi
    rw [hd.turnMaxScore i hi, hd.userMaxScore]
  buffer i hi := by
    rw [hd.showHandBuffer, hd.showHand, Bool.and_eq_true, decide_eq_true_eq] at hi
    rw [hd.playStatus, hd.userMaxScore, hd.totalScore, hd.tableScore, if_pos hi.1]
    exact ⟨hi.1, by omega⟩
  sum := by
    refine lt_of_le_of_lt (sum_le_sum fun i _ => ?_) hsum
    rw [hd.playStatus, hd.userMaxScore, hd.totalScore, hd.tableScore]
    have := hfit.brings i
    split_ifs <;> omega

theorem Bets.exact (hb : Bets q c lScore l s' out) (hl : Levelled base q.toHand)
    (hs : Chips ante q.toHand) (hplay : q.playStatus c = true) : Exact q c l := by
  rintro (hle | htype)
  · exact ⟨hplay, hle⟩
  · have hmax := hl.turnMax c hplay
    have hchip := hb.chipIn
    have := hs.max_nonneg c
    have := hs.max_lt c
    have htype' : ¬ q.chipTypeID = .gen := by
      rw [htype]
      decide
    rw [TableSink.chipIn, askedScore, if_neg htype', if_pos htype, hmax, sub_add_cancel,
      int32_of_range (by omega) (by omega), if_neg (lt_irrefl _)] at hchip
    exact ⟨hplay, by omega⟩

theorem not_turnOver_writeScores {score revenue : Chair → ℤ} {bets : TableBets} :
    Output.turnOver bets ∉ s.writeScores score revenue := by
  simp [writeScores]

theorem Answers.levelled (ha : Answers q c l) (hl : Levelled base q.toHand)
    (hs : Chips ante q.toHand) (hst : Stake q c l) (hexact : Exact q c l)
    (hallIn : ∀ i, q.playStatus i = true → q.showHand i = true → q.userMaxScore i ≤ q.totalScore i)
    (h : (q.bet c l).afterBet c l = (s', out)) :
    (∃ base', Levelled base' s'.toHand) ∧ ∀ bets, .turnOver bets ∈ out → PotsRight s'.toHand := by
  have hp := placed_bet hs hst
  exact (hl.placed hs hst hp hexact ha.plays hallIn).afterBet (hp.chips hs hst) (ha.closed hp)
    (hp.allIn hst.nonneg hallIn) h

/-- **A fold keeps the totals level**, of a player who is not all in. -/
theorem Folds.levelled (hf : Folds s chair s' out) (hs : Chips ante s.toHand)
    (hb : Betting s.toHand) (hl : Levelled base s.toHand)
    (hless : s.totalScore chair < s.userMaxScore chair) :
    (∃ base', Levelled base' s'.toHand) ∧ ∀ bets, .turnOver bets ∈ out → PotsRight s'.toHand := by
  obtain ⟨s₁, hcase, rfl⟩ := hf.after
  have hplay : ∀ i, (s.outOf chair).playStatus i = true → i ≠ chair ∧ s.playStatus i = true := by
    intro i hi
    have hic : i ≠ chair := by
      rintro rfl
      rw [outOf_playStatus] at hi
      cases hi
    exact ⟨hic, (Function.update_of_ne hic _ _).symm.trans hi⟩
  have hout : Levelled base (s.outOf chair).toHand :=
    { even := fun i hi => by
        have hic : i ≠ chair := by
          rintro rfl
          rw [canBet_outOf_self] at hi
          cases hi
        exact hl.even i (canBet_outOf_of_ne hic ▸ hi)
      le := hl.le
      turnMax := fun i hi => hl.turnMax i (hplay i hi).2
      buffer := fun i hi => by
        obtain ⟨hin, hall⟩ := hl.buffer i hi
        have hic : i ≠ chair := by
          rintro rfl
          omega
        exact ⟨(Function.update_of_ne hic _ _).trans hin, hall⟩
      sum := by
        refine lt_of_le_of_lt (sum_le_sum fun i _ => ?_) hl.sum
        have htotal : (s.outOf chair).totalScore i = s.totalScore i := rfl
        have hmax : (s.outOf chair).userMaxScore i = s.userMaxScore i := rfl
        rw [htotal, hmax]
        split_ifs with h₁ h₂
        · exact le_rfl
        · exact absurd (hplay i h₁).2 h₂
        · exact hs.total_le i (by assumption)
        · exact le_rfl }
  have hkey : (∃ base', Levelled base' s₁.toHand) ∧
      ∀ bets, .turnOver bets ∈ out → PotsRight s₁.toHand := by
    rcases hcase with ⟨l, hbets⟩ | ⟨rfl, rfl, -⟩
    · obtain ⟨rfl, hst⟩ := hbets.stake_zero (chips_outOf hs) (outOf_type s chair)
      refine (answers_outOf hb hf.current).levelled hout (chips_outOf hs) hst ?_
        (fun i hi hshow => ?_) hbets.after
      · rintro (hall | htype)
        · have hall' : s.userMaxScore chair ≤ s.totalScore chair + 0 := hall
          omega
        · exact absurd htype (outOf_type s chair).2
      · obtain ⟨hic, hin⟩ := hplay i hi
        exact hb.allIn i hin ((Function.update_of_ne hic _ _).symm.trans hshow)
    · exact ⟨⟨base, hout⟩, nofun⟩
  split_ifs
  · exact hkey
  · exact hkey

/-- **Every such event keeps the totals level**, and a round it closes has
right pots. -/
theorem step_keeps_levelled (hs : Sound opt s) (hb : Betting s.toHand) (hl : LevelHand s)
    (hfits : Fits opt s e) (horder : Orderly opt s e) (hsafe : PotSafe s e)
    (h : step opt s e = some (s', out)) :
    LevelHand s' ∧ ∀ bets, .turnOver bets ∈ out → PotsRight s'.toHand := by
  cases step_change h with
  | quiet hand kept _ _ =>
    refine ⟨fun hstart => ?_, nofun⟩
    rw [hand]
    exact hl (kept.gameStarted ▸ hstart)
  | start idle two =>
    have hdealt := dealt_startGame (hfits idle two) idle two
    exact ⟨fun _ => ⟨0, (hdealt _).levelled (hfits idle two)
      ((hdealt _).betting (hfits idle two) two (horder idle two)) (hsafe idle two)⟩, nofun⟩
  | @bet chair lScore type l _ _ _ play bets =>
    have hchips : Chips (setScore opt 3) { s with chipTypeID := type }.toHand := hs.chips
    have hstake := bets.stake hchips play
    have hcur : s.wCurrentUser = some chair := bets.current
    have hhonest : Honest { s with chipTypeID := type } chair l := by
      have := horder hcur
      rw [bets.chipIn] at this
      exact this bets.nonneg bets.gold
    obtain ⟨base, hbase⟩ := hl (hs.current hcur)
    obtain ⟨h₁, h₂⟩ := (answers_honest hb hcur play bets.nonneg hhonest).levelled hbase hchips hstake
      (bets.exact hbase hchips play) hb.allIn bets.after
    exact ⟨fun _ => h₁, h₂⟩
  | @pass chair l _ _ free bets =>
    have hchips : Chips (setScore opt 3)
        { s.killGameTimer .game with chipTypeID := .pass }.toHand := hs.chips
    obtain ⟨rfl, hstake⟩ := bets.stake_zero hchips ⟨nofun, nofun⟩
    obtain ⟨base, hbase⟩ := hl (hs.current bets.current)
    obtain ⟨h₁, h₂⟩ := (answers_pass hb bets.current free).levelled hbase hchips hstake
      (by
        rintro (hall | htype)
        · have hall' : s.userMaxScore chair ≤ s.totalScore chair + 0 := hall
          exact ⟨((hsafe chair bets.current bets.notOver).resolve_left (by omega)).2, hall⟩
        · cases htype) hb.allIn bets.after
    exact ⟨fun _ => h₁, h₂⟩
  | @fold _ s₀ chair _ _ hand event folds =>
    have hcur : s.wCurrentUser = some chair := by
      rcases hand with rfl | rfl <;> exact folds.current
    have hover : s.gameOver = false := by
      rcases hand with rfl | rfl <;> exact folds.notOver
    have hless : s.totalScore chair < s.userMaxScore chair := by
      rcases event with ⟨rfl, hplay⟩ | ⟨rfl, hfree⟩
      · exact hsafe hcur hover hplay
      · exact (hsafe chair hcur hover).resolve_right fun h => hfree h.1
    obtain ⟨base, hbase⟩ := hl (hs.current hcur)
    have hkey : (∃ base', Levelled base' s'.toHand) ∧
        ∀ bets, .turnOver bets ∈ out → PotsRight s'.toHand := by
      rcases hand with rfl | rfl
      · exact folds.levelled hs.chips hb hbase hless
      · exact folds.levelled hs.chips hb hbase hless
    exact ⟨fun _ => hkey.1, hkey.2⟩
  | @leave chair s₁ out seated =>
    rcases seated with ⟨rfl, rfl, -⟩ | folds
    · exact ⟨hl, nofun⟩
    · obtain ⟨base, hbase⟩ := hl (hs.current folds.current)
      obtain ⟨h₁, h₂⟩ := folds.levelled hs.chips hb hbase (hsafe folds.current folds.notOver)
      exact ⟨fun _ => h₁, h₂⟩
  | @sit chair userScore _ _ =>
    have hplay : s.playStatus chair = false := hfits.2
    refine ⟨fun hstart => ?_, nofun⟩
    obtain ⟨base, hbase⟩ := hl hstart
    exact ⟨base, hbase.of_gold fun i hi => Function.update_of_ne (ne_of_play hplay i hi) ..⟩
  | @take chair lookon lAddTake u user free =>
    obtain ⟨hand, kept, -⟩ := onUserAddTakeGold_kept opt s chair u.trusteeScore (int32 lAddTake)
    have hmax := userMaxScore_onUserAddTakeGold opt s chair u.trusteeScore (int32 lAddTake)
    have hplay := hsafe free
    refine ⟨fun hstart => ?_, nofun⟩
    obtain ⟨base, hbase⟩ := hl (kept.gameStarted ▸ hstart)
    rw [hand]
    exact ⟨base, hbase.of_gold fun i hi => hmax i (ne_of_play hplay i hi)⟩
  | deal hand kept _ _ =>
    have hzero : s.balanceScore = 0 := horder
    refine ⟨fun hstart => ?_, nofun⟩
    obtain ⟨base, hbase⟩ := hl (kept.gameStarted ▸ hstart)
    rw [hand]
    refine ⟨base, fun i hi => ?_, hbase.le, hbase.turnMax, hbase.buffer, hbase.sum⟩
    have := hb.le i
    have := hs.chips.table_nonneg i
    have := hbase.even i hi
    dsimp only
    omega
  | normal _ notOver concludes concluded =>
    refine ⟨fun hstart => ?_, fun bets hmem => ?_⟩
    · rw [concluded.gameStarted] at hstart
      cases hstart
    · rw [concludeNormal_writes concludes notOver] at hmem
      exact absurd hmem not_turnOver_writeScores
  | noPlayer _ writes concluded =>
    refine ⟨fun hstart => ?_, fun bets hmem => ?_⟩
    · rw [concluded.gameStarted] at hstart
      cases hstart
    · rw [writes, concludeNoPlayer_writes] at hmem
      split_ifs at hmem
      · cases hmem
      · exact absurd hmem not_turnOver_writeScores
  | reset concluded =>
    refine ⟨fun hstart => ?_, nofun⟩
    rw [concluded.gameStarted] at hstart
    cases hstart

/-- **Every round is closed with right pots**, in every run of such events:
they add up to what all players have in, and every pot is for the players
still in that have bet up to its level. -/
theorem round_closes_pots {es : List TableEvent} {r : TableSink × List Output}
    (hes : Machine.Along (step opt) (fun s e => Fits opt s e ∧ Orderly opt s e ∧ PotSafe s e) {} (es ++ [e]))
    (hr : Machine.run (step opt) {} es = some r) (h : step opt r.1 e = some (s', out)) :
    ∀ bets, .turnOver bets ∈ out → PotsRight s'.toHand := by
  obtain ⟨hes₁, hes₂⟩ := Machine.along_append hes
  have hinit : Betting ({} : TableSink).toHand := Idle.betting rfl
  obtain ⟨hs, hb, hl⟩ := Machine.inv_run
    (P := fun s => Sound opt s ∧ Betting s.toHand ∧ LevelHand s)
    (fun s e s' out ⟨hs, hb, hl⟩ hok hstep =>
      ⟨step_keeps_sound hs hok.1 hstep, (step_keeps_betting hs hb hok.1 hok.2.1 hstep).1,
        (step_keeps_levelled hs hb hl hok.1 hok.2.1 hok.2.2 hstep).1⟩)
    es {} r ⟨sound_init opt, hinit, nofun⟩ hes₁ hr
  have hok := (hes₂ r hr).1
  exact (step_keeps_levelled hs hb hl hok.1 hok.2.1 hok.2.2 h).2

/-- Three players, the second one with twenty chips. -/
def threeHanded : List TableEvent :=
  [.sitDown 0 100 100, .sitDown 1 20 20, .sitDown 2 100 100, .startGame someCards]

/-- A raise to thirty, twenty all in and a call: a pot for all three, and one
for the two others. -/
theorem round_closes_pots_threeHanded : ∃ r s' out,
    Machine.run (step smallTable) {} (threeHanded ++ [.addScore 0 30 .add, .addScore 1 0 .allIn]) =
        some r ∧ step smallTable r.1 (.addScore 2 0 .gen) = some (s', out) ∧
      s'.aryChipPool = [⟨60, [0, 1, 2]⟩, ⟨20, [0, 2]⟩] ∧ PotsRight s'.toHand := by
  have hrun : ((Machine.run (step smallTable) {}
      (threeHanded ++ [.addScore 0 30 .add, .addScore 1 0 .allIn])).bind fun r =>
        (step smallTable r.1 (.addScore 2 0 .gen)).map fun x =>
          (x.1.aryChipPool, x.2.any (· matches .turnOver _))) =
      some ([⟨60, [0, 1, 2]⟩, ⟨20, [0, 2]⟩], true) := by decide +kernel
  obtain ⟨r, hr, hstep⟩ := Option.bind_eq_some_iff.1 hrun
  obtain ⟨⟨s', out⟩, hs', heq⟩ := Option.map_eq_some_iff.1 hstep
  obtain ⟨hpool, hany⟩ := Prod.mk.inj heq
  obtain ⟨o, ho, hover⟩ := List.any_eq_true.1 hany
  cases o with
  | turnOver bets =>
    exact ⟨r, s', out, hr, hs', hpool, round_closes_pots (by decide +kernel) hr hs' bets ho⟩
  | writeUserScore | addScore => cases hover

/-- **A pot for a player who has not bet up to it.** After two passes over an
unmatched blind both players are in the one pot, with five and ten chips. -/
theorem passes_share_pot : ∃ r s' out,
    Machine.run (step smallTable) {} (headsUp ++ [.addScore 1 0 .pass]) = some r ∧
      step smallTable r.1 (.addScore 0 0 .pass) = some (s', out) ∧
      (∃ bets, .turnOver bets ∈ out) ∧ ¬ PotsRight s'.toHand := by
  have hrun : ((Machine.run (step smallTable) {} (headsUp ++ [.addScore 1 0 .pass])).bind fun r =>
        (step smallTable r.1 (.addScore 0 0 .pass)).map fun x =>
          (x.1.aryChipPool, x.1.totalScore, x.2.any (· matches .turnOver _))) =
      some ([⟨15, [0, 1]⟩], ![10, 5, 0, 0, 0, 0, 0, 0, 0], true) := by decide +kernel
  obtain ⟨r, hr, hstep⟩ := Option.bind_eq_some_iff.1 hrun
  obtain ⟨⟨s', out⟩, hs', heq⟩ := Option.map_eq_some_iff.1 hstep
  obtain ⟨hpool, heq'⟩ := Prod.mk.inj heq
  obtain ⟨htotal, hany⟩ := Prod.mk.inj heq'
  obtain ⟨o, ho, hover⟩ := List.any_eq_true.1 hany
  cases o with
  | turnOver bets =>
    refine ⟨r, s', out, hr, hs', ⟨bets, ho⟩, ?_⟩
    rintro ⟨-, top, hlayered⟩
    dsimp only at hpool htotal
    rw [hpool, htotal] at hlayered
    obtain ⟨high, -, hscore, hchairs, -⟩ := hlayered
    have hone : (1 : Chair) ∈ chairs.filter fun i => s'.playStatus i &&
        decide (high ≤ (![10, 5, 0, 0, 0, 0, 0, 0, 0] : Chair → ℤ) i) := hchairs ▸ (by decide)
    -- the small blind is in the pot, which is closed at his five chips then
    have hfive : high ≤ 5 := by
      have := (List.mem_filter.1 hone).2
      rw [Bool.and_eq_true, decide_eq_true_eq] at this
      exact this.2
    simp [Fin.sum_univ_succ] at hscore
    omega
  | writeUserScore | addScore => cases hover

end TableSink

end GameServer.TexasHoldem
