import GameServer.TexasHoldem.Payout
import Mathlib.Data.Fin.VecNotation
import Mathlib.Tactic.NormNum
/-!
# Texas hold'em — the side pots of a hand

`SelectMaxUser` finds the groups of equal hands from the best down, so a
normal end pays everybody his share of the side pots (`sidePots_settled`)
— as long as no tied chair has run dry: better hands have won all its
chips, another chair with an equal hand has chips left, and so has
somebody behind. Then the loop skips the other chair too
(`winChipScore_dry`).
-/

namespace GameServer.TexasHoldem

open Finset

variable {R : Type*} [LinearOrder R] {S : Showdown Chair R}

/-! ## The search for the groups -/

/-- The highest bet of a hand better than that of `p`. -/
def aboveBet (S : Showdown Chair R) (p : Chair) : ℕ :=
  {q ∈ S.live | S.rank p < S.rank q}.sup S.bet

theorem aboveBet_eq_sup {p : Chair} {done : Finset Chair} (hsub : done ⊆ S.live)
    (h : ∀ b ∈ S.live, S.rank p < S.rank b ↔ b ∈ done) : aboveBet S p = done.sup S.bet := by
  unfold aboveBet
  congr 1
  ext b
  rw [mem_filter]
  constructor
  · rintro ⟨hb, hlt⟩
    exact (h b hb).1 hlt
  · intro hb
    exact ⟨hsub hb, (h b (hsub hb)).2 hb⟩

/-- **A tied chair has run dry.** Better hands have won all its chips,
another chair with an equal hand has chips left, and so has somebody
behind them. -/
def RunsDry (S : Showdown Chair R) : Prop :=
  ∃ p ∈ S.live, ∃ q ∈ S.live, S.rank q = S.rank p ∧ S.bet p ≤ aboveBet S p ∧
    aboveBet S p < S.bet q ∧ ∃ c, (c ∉ S.live ∨ S.rank c < S.rank p) ∧ aboveBet S p < S.bet c

theorem topBet_eq {bet : Chair → ℕ} : ∀ (group : List Chair) (base : ℕ),
    topBet bet base group = max base (group.toFinset.sup bet)
  | [], base => by simp [topBet]
  | w :: ws, base => by
    have htail : topBet bet (max base (bet w)) ws = max (max base (bet w)) (ws.toFinset.sup bet) :=
      topBet_eq ws _
    rw [topBet, List.foldl_cons, ← topBet, htail, List.toFinset_cons, sup_insert]
    simp only [Nat.max_def]
    split_ifs <;> omega

/-- **In the middle of the search.** `done` are the chairs found so far,
all with better hands than the others, and the others still have their
cards. -/
structure Searching (S : Showdown Chair (List ℕ)) (temp : Chair → List UInt8)
    (done : Finset Chair) : Prop where
  subset : done ⊆ S.live
  hasCards : ∀ i, HasCards temp i ↔ i ∈ S.live ∧ i ∉ done
  length : ∀ i, HasCards temp i → (temp i).length = 5
  rank : ∀ i, HasCards temp i → handRank (temp i) = S.rank i
  better : ∀ a ∈ done, ∀ b, HasCards temp b → S.rank b < S.rank a

section Search

variable {S : Showdown Chair (List ℕ)} {temp : Chair → List UInt8} {done : Finset Chair}
variable {hand : Chair → UInt8 × UInt8} {addScore : Chair → ℤ} {group : List Chair}

section

variable (hs : Searching S temp done)
include hs

theorem Searching.bestHand_iff (i : Chair) :
    BestHand temp i ↔ HasCards temp i ∧ ∀ j, HasCards temp j → S.rank j ≤ S.rank i := by
  unfold BestHand
  refine and_congr_right fun hi => forall_congr' fun j => ?_
  constructor
  · intro h hj
    rw [← hs.rank j hj, ← hs.rank i hi]
    exact h hj
  · intro h hj
    rw [hs.rank j hj, hs.rank i hi]
    exact h hj

/-- The better hands of a chair just found are those found before. -/
theorem Searching.better_iff {a b : Chair} (ha : BestHand temp a) (hb : b ∈ S.live) :
    S.rank a < S.rank b ↔ b ∈ done := by
  rw [hs.bestHand_iff] at ha
  constructor
  · intro hlt
    by_contra hdone
    exact absurd (ha.2 b ((hs.hasCards b).2 ⟨hb, hdone⟩)) (not_le.2 hlt)
  · intro hdone
    exact hs.better b hdone a ha.1

theorem Searching.tiedGroup (hgroup : selectMaxUser temp hand (fun i => S.bet i) = some group) :
    S.TiedGroup (done.sup S.bet) group := by
  obtain ⟨-, hnodup, hmem, hsorted⟩ := selectMaxUser_spec hs.length hgroup
  have hbest : ∀ a ∈ group, HasCards temp a ∧ ∀ j, HasCards temp j → S.rank j ≤ S.rank a :=
    fun a ha => (hs.bestHand_iff a).1 ((hmem a).1 ha)
  refine ⟨hnodup, ?_, fun a ha => ((hs.hasCards a).1 (hbest a ha).1).1, fun a ha b hb heq => ?_,
    fun a ha b hb => ?_, fun a ha b hb hlt => ?_, ?_⟩
  · exact hsorted.imp fun h => by exact_mod_cast h
  · have hdone : b ∉ done := by
      intro h
      exact absurd (hs.better b h a (hbest a ha).1) (by rw [heq]; exact lt_irrefl _)
    rw [hmem, hs.bestHand_iff]
    exact ⟨(hs.hasCards b).2 ⟨hb, hdone⟩, fun j hj => heq ▸ (hbest a ha).2 j hj⟩
  · exact le_antisymm ((hbest a ha).2 b (hbest b hb).1) ((hbest b hb).2 a (hbest a ha).1)
  · exact le_sup (f := S.bet) ((hs.better_iff ((hmem a).1 ha) hb).1 hlt)
  · rcases done.eq_empty_or_nonempty with rfl | hne
    · exact .inl rfl
    · obtain ⟨b, hb, heq⟩ := exists_mem_eq_sup done hne S.bet
      exact .inr fun a ha => ⟨b, hs.subset hb, hs.better b hb a (hbest a ha).1, heq.symm⟩

theorem Searching.aboveBet_eq {p : Chair} (hp : BestHand temp p) : aboveBet S p = done.sup S.bet :=
  aboveBet_eq_sup hs.subset fun _ hb => hs.better_iff hp hb

theorem Searching.next (hgroup : selectMaxUser temp hand addScore = some group) :
    Searching S (removeCards temp group) (done ∪ group.toFinset) := by
  obtain ⟨-, -, hmem, -⟩ := selectMaxUser_spec hs.length hgroup
  have hcards : ∀ i, HasCards (removeCards temp group) i ↔ HasCards temp i ∧ i ∉ group := by
    intro i
    unfold HasCards removeCards
    split_ifs with hi
    · simp [hi, maxCenterCount]
    · simp [hi]
  have heq : ∀ i, i ∉ group → removeCards temp group i = temp i := fun i hi => if_neg hi
  refine ⟨union_subset hs.subset fun i hi => ?_, fun i => ?_, fun i hi => ?_, fun i hi => ?_,
    fun a ha b hb => ?_⟩
  · rw [List.mem_toFinset, hmem] at hi
    exact ((hs.hasCards i).1 hi.1).1
  · rw [hcards, hs.hasCards, mem_union, List.mem_toFinset]
    tauto
  · rw [hcards] at hi
    rw [heq i hi.2]
    exact hs.length i hi.1
  · rw [hcards] at hi
    rw [heq i hi.2]
    exact hs.rank i hi.1
  · rw [hcards] at hb
    rw [mem_union, List.mem_toFinset] at ha
    rcases ha with ha | ha
    · exact hs.better a ha b hb.1
    · have hbest := (hs.bestHand_iff a).1 ((hmem a).1 ha)
      refine lt_of_le_of_ne (hbest.2 b hb.1) fun h => hb.2 ?_
      rw [hmem, hs.bestHand_iff]
      exact ⟨hb.1, fun j hj => h ▸ hbest.2 j hj⟩

/-- Whom the search finds was still to be found, so fewer are left. -/
theorem Searching.card_next (hgroup : selectMaxUser temp hand addScore = some group) :
    (∀ i ∈ group, i ∈ S.live ∧ i ∉ done) ∧
      #(S.live \ (done ∪ group.toFinset)) < #(S.live \ done) := by
  obtain ⟨hne, -, hmem, -⟩ := selectMaxUser_spec hs.length hgroup
  have hnew : ∀ i ∈ group, i ∈ S.live ∧ i ∉ done :=
    fun i hi => (hs.hasCards i).1 ((hmem i).1 hi).1
  obtain ⟨w, hw⟩ := List.exists_mem_of_ne_nil group hne
  refine ⟨hnew, card_lt_card ⟨sdiff_subset_sdiff le_rfl subset_union_left, fun h => ?_⟩⟩
  have := h (mem_sdiff.2 (hnew w hw))
  simp [hw] at this

end

/-- The chairs that gave up with chips in, as the group behind all
others. -/
structure GiveUpTail (S : Showdown Chair (List ℕ)) (tail : List (List Chair)) : Prop where
  one : tail = [] ∨ ∃ g, tail = [g] ∧ g ≠ []
  notMem : ∀ p ∈ tail.flatten, p ∉ S.live
  bet_eq : ∀ c, c ∉ S.live → c ∉ tail.flatten → S.bet c = 0

theorem ranked_tail {tail : List (List Chair)} (htail : GiveUpTail S tail) :
    Ranked S (S.live.sup S.bet) tail := by
  rcases htail.one with rfl | ⟨g, rfl, hg⟩
  · trivial
  · have hflat : ∀ c, c ∈ [g].flatten ↔ c ∈ g := by simp
    refine ⟨hg, .inr ⟨rfl, fun p hp => htail.notMem p ((hflat p).2 hp), fun b hb => le_sup hb, ?_⟩,
      fun c hc _ => ?_, trivial⟩
    · rcases S.live.eq_empty_or_nonempty with h | h
      · exact .inl (by rw [h]; rfl)
      · obtain ⟨b, hb, heq⟩ := exists_mem_eq_sup S.live h S.bet
        exact .inr ⟨b, hb, heq.symm⟩
    · by_cases hlive : c ∈ S.live
      · exact le_sup hlive
      · rw [htail.bet_eq c hlive fun h => hc ((hflat c).1 h)]
        exact Nat.zero_le _

variable (hand) in
/-- **The search finds everybody still in, once.** -/
theorem scoreOrder_spec : ∀ (count : ℕ) (temp : Chair → List UInt8) (done : Finset Chair),
    Searching S temp done → #(S.live \ done) ≤ count →
      (scoreOrder hand (fun i => S.bet i) count temp).flatten.Nodup ∧
      (∀ i, i ∈ (scoreOrder hand (fun i => S.bet i) count temp).flatten ↔ i ∈ S.live ∧ i ∉ done) ∧
      ∀ g ∈ scoreOrder hand (fun i => S.bet i) count temp,
        g ≠ [] ∧ g.Pairwise fun a b => S.bet a ≤ S.bet b := by
  intro count
  induction count with
  | zero =>
    intro temp done hs hcard
    have hsub : S.live ⊆ done := sdiff_eq_empty_iff_subset.1 (card_eq_zero.1 (by omega))
    exact ⟨List.nodup_nil, fun i => ⟨nofun, fun h => absurd (hsub h.1) h.2⟩, nofun⟩
  | succ count ih =>
    intro temp done hs hcard
    rw [scoreOrder]
    cases hgroup : selectMaxUser temp hand (fun i => S.bet i) with
    | none =>
      rw [selectMaxUser_eq_none] at hgroup
      refine ⟨List.nodup_nil, fun i => ⟨nofun, fun h => ?_⟩, nofun⟩
      exact absurd ((hs.hasCards i).2 h) (hgroup i)
    | some group =>
      obtain ⟨hne, hnodup, hmem, hsorted⟩ := selectMaxUser_spec hs.length hgroup
      obtain ⟨hnew, hlt⟩ := hs.card_next hgroup
      have hcard' : #(S.live \ (done ∪ group.toFinset)) ≤ count := by omega
      obtain ⟨hlater, hflat, hgroups⟩ := ih _ _ (hs.next hgroup) hcard'
      have hrest : ∀ i, i ∈ (scoreOrder hand (fun i => S.bet i) count
          (removeCards temp group)).flatten ↔ i ∈ S.live ∧ i ∉ done ∧ i ∉ group := by
        intro i
        rw [hflat, mem_union, List.mem_toFinset]
        tauto
      refine ⟨?_, fun i => ?_, fun g hg => ?_⟩
      · rw [List.flatten_cons]
        refine List.nodup_append.2 ⟨hnodup, hlater, fun a ha b hb hab => ?_⟩
        exact ((hrest b).1 hb).2.2 (hab ▸ ha)
      · rw [List.flatten_cons, List.mem_append, hrest]
        constructor
        · rintro (hi | hi)
          · exact hnew i hi
          · exact ⟨hi.1, hi.2.1⟩
        · intro hi
          by_cases h : i ∈ group
          · exact .inl h
          · exact .inr ⟨hi.1, hi.2, h⟩
      · rcases List.mem_cons.1 hg with rfl | hg
        · exact ⟨hne, hsorted.imp fun h => by exact_mod_cast h⟩
        · exact hgroups g hg

variable (hand) in
/-- **The search finds the groups in order.** -/
theorem ranked_scoreOrder {tail : List (List Chair)} (htail : GiveUpTail S tail)
    (hdry : ¬ RunsDry S) :
    ∀ (count : ℕ) (temp : Chair → List UInt8) (done : Finset Chair), Searching S temp done →
      #(S.live \ done) ≤ count →
      Ranked S (done.sup S.bet) (scoreOrder hand (fun i => S.bet i) count temp ++ tail) := by
  intro count
  induction count with
  | zero =>
    intro temp done hs hcard
    have hsub : S.live ⊆ done := sdiff_eq_empty_iff_subset.1 (card_eq_zero.1 (by omega))
    have heq : done = S.live := hs.subset.antisymm hsub
    rw [heq]
    exact ranked_tail htail
  | succ count ih =>
    intro temp done hs hcard
    obtain ⟨-, hall, -⟩ := scoreOrder_spec hand (count + 1) temp done hs hcard
    rw [scoreOrder] at hall ⊢
    cases hgroup : selectMaxUser temp hand (fun i => S.bet i) with
    | none =>
      rw [hgroup] at hall
      have hsub : S.live ⊆ done := by
        intro i hi
        by_contra h
        exact List.not_mem_nil ((hall i).2 ⟨hi, h⟩)
      have heq : done = S.live := hs.subset.antisymm hsub
      rw [heq]
      exact ranked_tail htail
    | some group =>
      obtain ⟨hne, hnodup, hmem, -⟩ := selectMaxUser_spec hs.length hgroup
      have htied := hs.tiedGroup hgroup
      obtain ⟨hnew, hlt⟩ := hs.card_next hgroup
      have hcard' : #(S.live \ (done ∪ group.toFinset)) ≤ count := by omega
      have hsup : topBet S.bet (done.sup S.bet) group = (done ∪ group.toFinset).sup S.bet := by
        rw [topBet_eq, sup_union]
      obtain ⟨-, hflat, -⟩ := scoreOrder_spec hand count _ _ (hs.next hgroup) hcard'
      have hbehind : ∀ i, i ∈ (scoreOrder hand (fun i => S.bet i) count (removeCards temp group) ++
          tail).flatten ↔ (i ∈ S.live ∧ i ∉ done ∧ i ∉ group) ∨ i ∈ tail.flatten := by
        intro i
        rw [List.flatten_append, List.mem_append, hflat, mem_union, List.mem_toFinset]
        tauto
      refine ⟨hne, .inl ⟨htied, fun p hp q hq hpoor hrich c hc => ?_⟩, fun c hc hc' => ?_, ?_⟩
      · -- whoever is behind and richer makes `p` run dry
        have habove := hs.aboveBet_eq ((hmem p).1 hp)
        by_contra hlt
        refine hdry ⟨p, htied.live p hp, q, htied.live q hq, htied.tied p hp q hq,
          by rw [habove]; exact hpoor, by rw [habove]; exact hrich, c, ?_,
          by rw [habove]; exact not_le.1 hlt⟩
        rcases (hbehind c).1 hc with ⟨hlive, hdone, hout⟩ | hc
        · have hbest := (hs.bestHand_iff p).1 ((hmem p).1 hp)
          refine .inr (lt_of_le_of_ne (hbest.2 c ((hs.hasCards c).2 ⟨hlive, hdone⟩)) fun h => ?_)
          exact hout (htied.mem p hp c hlive h)
        · exact .inl (htail.notMem c hc)
      · obtain ⟨hnot, htailnot⟩ := not_or.1 fun h => hc' ((hbehind c).2 h)
        by_cases hlive : c ∈ S.live
        · have hdone : c ∈ done := by
            by_contra h
            exact hnot ⟨hlive, h, hc⟩
          exact le_sup hdone
        · rw [htail.bet_eq c hlive htailnot]
          exact Nat.zero_le _
      · rw [hsup]
        exact ih _ _ (hs.next hgroup) hcard'

end Search

/-! ## The whole hand -/

/-- The cards of a hand that is played to the end: five in the centre and
two for every chair still in. -/
structure Deal where
  playStatus : Chair → Bool
  handCardData : Chair → UInt8 × UInt8
  centerCardData : List UInt8
  center_length : centerCardData.length = maxCenterCount
  center_ne : ∀ c ∈ centerCardData, c ≠ 0
  hand_ne : ∀ i, playStatus i = true → (handCardData i).1 ≠ 0 ∧ (handCardData i).2 ≠ 0

namespace Deal

variable (d : Deal) (bet : Chair → ℕ)

/-- `cbEndCardData` of the hand. -/
def endCards (i : Chair) : List UInt8 :=
  endCardData d.playStatus d.handCardData d.centerCardData i

def showdown : Showdown Chair (List ℕ) where
  bet := bet
  live := {i | d.playStatus i = true}
  rank i := handRank (d.endCards i)

/-- `WinnerList` before the chairs that gave up are added. -/
def order : List (List Chair) :=
  scoreOrder d.handCardData (fun i => bet i) gamePlayer d.endCards

def giveUp : List Chair := chairs.filter fun i => d.playStatus i = false ∧ (bet i : ℤ) > 0

/-- They are a group if there are any. -/
def tail : List (List Chair) := if d.giveUp bet = [] then [] else [d.giveUp bet]

variable {d bet}

theorem hasCards_endCards (i : Chair) : HasCards d.endCards i ↔ d.playStatus i = true := by
  unfold HasCards endCards endCardData
  split_ifs with hi
  · obtain ⟨hlen, hne⟩ := fiveFromSeven_spec d.center_length (d.hand_ne i hi) d.center_ne
    obtain ⟨c, cs, heq⟩ := List.exists_cons_of_length_eq_add_one hlen
    rw [heq] at hne ⊢
    exact iff_of_true (hne c List.mem_cons_self) hi
  · simp [hi, maxCenterCount]

theorem mem_live (i : Chair) : i ∈ (d.showdown bet).live ↔ d.playStatus i = true := by
  simp [showdown]

theorem searching : Searching (d.showdown bet) d.endCards ∅ where
  subset := empty_subset _
  hasCards i := by simp [hasCards_endCards, mem_live]
  length i hi := by
    rw [hasCards_endCards] at hi
    rw [endCards, endCardData, if_pos hi]
    exact (fiveFromSeven_spec d.center_length (d.hand_ne i hi) d.center_ne).1
  rank _ _ := rfl
  better := nofun

theorem mem_tail (i : Chair) : i ∈ (d.tail bet).flatten ↔ d.playStatus i = false ∧ 0 < bet i := by
  have hmem : i ∈ d.giveUp bet ↔ d.playStatus i = false ∧ 0 < bet i := by
    simp [giveUp, chairs]
  unfold tail
  split_ifs with h
  · rw [← hmem, h]
    simp
  · rw [← hmem]
    simp

theorem giveUpTail : GiveUpTail (d.showdown bet) (d.tail bet) where
  one := by
    unfold tail
    split_ifs with h
    · exact .inl rfl
    · exact .inr ⟨_, rfl, h⟩
  notMem p hp := by
    rw [mem_tail] at hp
    rw [mem_live, hp.1]
    exact Bool.false_ne_true
  bet_eq c hc hc' := by
    rw [mem_live, Bool.not_eq_true] at hc
    rw [mem_tail] at hc'
    have : ¬ 0 < bet c := fun h => hc' ⟨hc, h⟩
    exact Nat.eq_zero_of_not_pos this

end Deal

theorem payGroups_append_nil : ∀ (groups : List (List Chair)) (count : ℕ) (s : Ledger),
    payGroups count (groups ++ [[]]) s = payGroups count groups s
  | [], 0, _ => rfl
  | [], _ + 1, _ => rfl
  | _ :: _, 0, _ => rfl
  | group :: groups, count + 1, s => by
    have hlosers : losersOf (groups ++ [[]]) = losersOf groups := by
      unfold losersOf
      rw [List.takeWhile_append]
      split_ifs with h
      · simp [(List.takeWhile_prefix _).eq_of_length h]
      · rfl
    rw [List.cons_append, payGroups, payGroups, hlosers, payGroups_append_nil groups]

theorem length_le_flatten : ∀ {groups : List (List Chair)}, (∀ g ∈ groups, g ≠ []) →
    groups.length ≤ groups.flatten.length
  | [], _ => le_rfl
  | group :: groups, h => by
    obtain ⟨hne, hrest⟩ := List.forall_mem_cons.1 h
    have := List.length_pos_iff.2 hne
    have := length_le_flatten hrest
    rw [List.length_cons, List.flatten_cons, List.length_append]
    omega

section Hand

variable (bet : Chair → ℕ) (d : Deal)

/-- **The groups of a hand**: everybody still in or with chips in, once, and
who is in a group by the chips he has in. -/
theorem Deal.groups_spec : (d.order bet ++ d.tail bet).flatten.Nodup ∧
    (∀ i, i ∈ (d.order bet ++ d.tail bet).flatten ↔ d.playStatus i = true ∨ 0 < bet i) ∧
    (∀ g ∈ d.order bet ++ d.tail bet, g ≠ []) ∧
    ∀ g ∈ d.order bet, g.Pairwise fun a b => bet a ≤ bet b := by
  obtain ⟨hnodup, hmem, hgroups⟩ := scoreOrder_spec (S := d.showdown bet) d.handCardData
    gamePlayer d.endCards ∅ d.searching (card_le_univ _)
  have hmem' : ∀ i, i ∈ (d.order bet).flatten ↔ d.playStatus i = true := by
    intro i
    refine (hmem i).trans ?_
    simp [Deal.mem_live]
  have htail : (d.tail bet).flatten.Nodup := by
    unfold Deal.tail
    split_ifs
    · exact List.nodup_nil
    · simpa [Deal.giveUp, chairs] using (List.nodup_finRange _).filter _
  rw [List.flatten_append]
  refine ⟨List.nodup_append.2 ⟨hnodup, htail, fun a ha b hb hab => ?_⟩, fun i => ?_, fun g hg => ?_,
    fun g hg => (hgroups g hg).2⟩
  · rw [hmem'] at ha
    rw [Deal.mem_tail, ← hab, ha] at hb
    exact absurd hb.1 (by decide)
  · rw [List.mem_append, hmem', Deal.mem_tail]
    cases d.playStatus i <;> simp
  · rcases List.mem_append.1 hg with hg | hg
    · exact (hgroups g hg).1
    · unfold Deal.tail at hg
      split_ifs at hg with hnil
      · cases hg
      · rw [List.mem_singleton] at hg
        exact hg ▸ hnil

theorem Deal.length_groups : (d.order bet ++ d.tail bet).length ≤ gamePlayer := by
  obtain ⟨hnodup, -, hne, -⟩ := Deal.groups_spec bet d
  exact (length_le_flatten hne).trans (by simpa using hnodup.length_le_card)

/-- The groups of a hand, and behind them those who gave up. -/
theorem Deal.winnerList_eq :
    winnerList d.playStatus (fun i => bet i) (d.order bet) = d.order bet ++ d.tail bet ∨
      d.tail bet = [] ∧
        winnerList d.playStatus (fun i => bet i) (d.order bet) = d.order bet ++ [[]] := by
  have hlen := Deal.length_groups bet d
  have hgive : (chairs.filter fun i => d.playStatus i = false ∧ (bet i : ℤ) > 0) = d.giveUp bet := rfl
  unfold winnerList
  simp only [hgive]
  unfold Deal.tail at hlen ⊢
  by_cases hnil : d.giveUp bet = []
  · rw [if_pos hnil, hnil, List.append_nil]
    split_ifs
    · exact .inr ⟨rfl, rfl⟩
    · refine .inl ?_
      cases d.order bet <;> simp
  · rw [if_neg hnil, List.length_append, List.length_singleton] at hlen
    rw [if_neg hnil, if_pos (by omega)]
    exact .inl rfl

variable {bet d}

theorem Deal.payGroups_winnerList (s : Ledger) :
    payGroups (gamePlayer - 1) (winnerList d.playStatus (fun i => bet i) (d.order bet)) s =
      payGroups (gamePlayer - 1) (d.order bet ++ d.tail bet) s := by
  rcases Deal.winnerList_eq bet d with h | ⟨hnil, h⟩
  · rw [h]
  · rw [h, hnil, List.append_nil, payGroups_append_nil]

theorem Deal.normalUserScore_eq :
    normalUserScore d.playStatus d.handCardData d.centerCardData (fun i => bet i) =
      (payGroups (gamePlayer - 1) (d.order bet ++ d.tail bet)
        { userScore := fun _ => 0, totalScore := fun i => bet i }).userScore := by
  rw [← Deal.payGroups_winnerList]
  rfl

theorem fair_start (bet : Chair → ℕ) :
    Fair bet { userScore := fun _ => 0, totalScore := fun i => bet i } :=
  ⟨fun _ => Int.natCast_nonneg _, fun _ => le_rfl, fun i => by simp, by simp⟩

variable (hdry : ¬ RunsDry (d.showdown bet))

include hdry

theorem Deal.normalUserScore_spec (hbet : ∑ i, bet i < 2 ^ 31) :
    let us := normalUserScore d.playStatus d.handCardData d.centerCardData fun i => bet i
    (∀ i, us i + bet i = (d.showdown bet).share i) ∧
      ∀ i, 0 ≤ us i + bet i ∧ us i + bet i ≤ ∑ j, (bet j : ℤ) := by
  have hranked : Ranked (d.showdown bet) 0 (d.order bet ++ d.tail bet) :=
    ranked_scoreOrder d.handCardData d.giveUpTail hdry gamePlayer d.endCards ∅ d.searching
      (card_le_univ _)
  obtain ⟨hnodup, hmem, -⟩ := Deal.groups_spec bet d
  obtain ⟨hfair, hshare, hsame⟩ := payGroups_share hbet _ 0 (gamePlayer - 1) _ hranked hnodup
    (Deal.length_groups bet d) (fair_start bet) (fun c _ => ⟨rfl, by simp [Deal.showdown]⟩)
  simp only [Deal.normalUserScore_eq]
  refine ⟨fun i => ?_, fun i => ⟨?_, hfair.userScore_add_bet_le i⟩⟩
  · by_cases hi : i ∈ (d.order bet ++ d.tail bet).flatten
    · exact hshare i hi
    · rw [hsame i hi]
      rw [hmem, not_or] at hi
      have hout : i ∉ (d.showdown bet).live := by
        rw [Deal.mem_live]
        exact hi.1
      have hzero : (d.showdown bet).bet i = 0 := Nat.eq_zero_of_not_pos hi.2
      rw [Showdown.share_of_not_live hout (fun b hb => le_sup (f := bet) hb) ?_, hzero]
      · simpa [Deal.showdown] using hzero
      · rcases (d.showdown bet).live.eq_empty_or_nonempty with h | h
        · exact .inl (by rw [h]; rfl)
        · obtain ⟨b, hb, heq⟩ := exists_mem_eq_sup _ h bet
          exact .inr ⟨b, hb, heq.symm⟩
  · have := hfair.lost i
    have := hfair.total_nonneg i
    simp only [Deal.showdown] at *
    omega

end Hand

/-- **Settled by the side-pot rule**: everybody receives his fair share of
every level, but for what the divisions leave over. -/
def Settled (d : Deal) (bet : Chair → ℕ) : Prop :=
  ∀ i, (d.showdown bet).fairShare i =
    (winChipScore d.playStatus d.handCardData d.centerCardData (fun i => bet i) i : ℚ) +
      (d.showdown bet).remainder i

/-- **The payout is the side-pot rule**, if no tied chair has run dry. -/
theorem sidePots_settled (d : Deal) (bet : Chair → ℕ) (hbet : ∑ i, bet i < 2 ^ 31)
    (hdry : ¬ RunsDry (d.showdown bet)) : Settled d bet := by
  obtain ⟨hshare, hrange⟩ := Deal.normalUserScore_spec hdry hbet
  intro i
  have hcast : ∑ j, (bet j : ℤ) < 2 ^ 31 := by exact_mod_cast hbet
  have hwin : winChipScore d.playStatus d.handCardData d.centerCardData (fun i => bet i) i =
      (d.showdown bet).share i := by
    have := hrange i
    rw [winChipScore, int32_of_range (by omega) (by omega), hshare i]
  rw [Showdown.fairShare_eq, hwin, Int.cast_natCast]

instance (S : Showdown Chair R) : Decidable (RunsDry S) :=
  inferInstanceAs (Decidable (∃ p ∈ S.live, ∃ q ∈ S.live, S.rank q = S.rank p ∧
    S.bet p ≤ aboveBet S p ∧ aboveBet S p < S.bet q ∧
    ∃ c, (c ∉ S.live ∨ S.rank c < S.rank p) ∧ aboveBet S p < S.bet c))

/-- Aces, two equal hands behind them, and a fourth chair that gave up. -/
def acesDeal : Deal where
  playStatus i := decide (i < 3)
  handCardData := ![(0x01, 0x11), (0x07, 0x13), (0x17, 0x03), (0x05, 0x04),
    (0, 0), (0, 0), (0, 0), (0, 0), (0, 0)]
  centerCardData := [0x0D, 0x1B, 0x29, 0x08, 0x02]
  center_length := center_length_king
  center_ne := center_ne_king
  hand_ne := by decide

/-- The aces are all in with ten chips, the equal hands have twenty and
thirty in: the second takes twenty chips of the one who gave up. -/
theorem sidePots_settled_aces : Settled acesDeal ![10, 20, 30, 30, 0, 0, 0, 0, 0] ∧
    winChipScore acesDeal.playStatus acesDeal.handCardData acesDeal.centerCardData
      (fun i => (![10, 20, 30, 30, 0, 0, 0, 0, 0] : Chair → ℕ) i) 2 = 35 :=
  ⟨sidePots_settled acesDeal _ (by decide) (by decide +kernel), by decide +kernel⟩

/-- If the first of the equal hands has ten chips in as well, it has run
dry: the other one does not get the twenty chips behind it. -/
theorem winChipScore_dry : ¬ Settled acesDeal ![10, 10, 30, 30, 0, 0, 0, 0, 0] := by
  intro h
  have hfair := h 2
  have hshare : (acesDeal.showdown ![10, 10, 30, 30, 0, 0, 0, 0, 0]).share 2 = 40 := by decide +kernel
  have hwin : winChipScore acesDeal.playStatus acesDeal.handCardData acesDeal.centerCardData
      (fun i => (![10, 10, 30, 30, 0, 0, 0, 0, 0] : Chair → ℕ) i) 2 = 20 := by decide +kernel
  rw [Showdown.fairShare_eq, hshare, hwin] at hfair
  norm_num at hfair

/-! ## Who wins -/

theorem sortCardList_perm (cards : List UInt8) : (sortCardList cards).Perm cards :=
  bubbleSort_perm _ _

theorem antisymm_cardOrder : Std.Antisymm fun x y => cardOrder y ≤ cardOrder x :=
  ⟨fun _ _ hxy hyx => cardOrder_injective (le_antisymm hyx hxy)⟩

theorem sublist_of_subperm {five seven : List UInt8} (h : five.Subperm seven) :
    (sortCardList five).Sublist (sortCardList seven) := by
  have hanti := antisymm_cardOrder
  have hsub := (sortCardList_perm five).subperm.trans
    (h.trans (sortCardList_perm seven).symm.subperm)
  exact List.sublist_of_subperm_of_pairwise hsub (pairwise_sortCardList five)
    (pairwise_sortCardList seven)

/-- The five of a player are the best that can be taken of his seven. -/
theorem handRank_five_le {hand : UInt8 × UInt8} {center five : List UInt8}
    (hlen : center.length = maxCenterCount) (h : five.Subperm (hand.1 :: hand.2 :: center))
    (hfive : five.length = 5) :
    handRank (sortCardList five) ≤ handRank (fiveFromSeven hand center) := by
  obtain ⟨-, -, -, hmax⟩ := fiveFromSeven_eq hand hlen
  exact hmax _ (sublist_of_subperm h) ((sortCardList_perm five).length_eq.trans hfive)

theorem sortCardList_fiveFromSeven {hand : UInt8 × UInt8} {center : List UInt8}
    (hlen : center.length = maxCenterCount) :
    sortCardList (fiveFromSeven hand center) = fiveFromSeven hand center := by
  obtain ⟨-, -, hsub, -⟩ := fiveFromSeven_eq hand hlen
  have hanti := antisymm_cardOrder
  exact (sortCardList_perm _).eq_of_pairwise' (pairwise_sortCardList _)
    ((pairwise_sortCardList _).sublist hsub)

/-- **Who wins a showdown**: the players still in whose five cards no five
of the seven of any player still in beat. -/
theorem Deal.wins_iff (d : Deal) (addScore : Chair → ℤ) {l : List Chair}
    (h : selectMaxUser d.endCards d.handCardData addScore = some l) (i : Chair) :
    i ∈ l ↔ d.playStatus i = true ∧ ∀ j, d.playStatus j = true → ∀ five : List UInt8,
      five.Subperm ((d.handCardData j).1 :: (d.handCardData j).2 :: d.centerCardData) →
        five.length = 5 → compareCard (sortCardList five) (d.endCards i) ≠ 2 := by
  have hend : ∀ j, d.playStatus j = true →
      d.endCards j = fiveFromSeven (d.handCardData j) d.centerCardData := fun j hj => by
    rw [endCards, endCardData, if_pos hj]
  have hlength : ∀ j, d.playStatus j = true → (d.endCards j).length = 5 := fun j hj => by
    rw [hend j hj]
    exact (fiveFromSeven_eq _ d.center_length).2.1
  have hsearch : Searching (d.showdown fun _ => 0) d.endCards ∅ := searching
  rw [(selectMaxUser_spec hsearch.length h).2.2.1 i, BestHand, hasCards_endCards]
  refine and_congr_right fun hi => ⟨fun hbest j hj five hsub hfive => ?_, fun hbest j hj => ?_⟩
  · have hsorted : (sortCardList five).length = 5 := (sortCardList_perm five).length_eq.trans hfive
    have hle := handRank_five_le d.center_length hsub hfive
    rw [← hend j hj] at hle
    rw [Ne, compareCard_eq_two_iff hsorted (hlength i hi), not_lt]
    exact hle.trans (hbest j ((hasCards_endCards j).2 hj))
  · rw [hasCards_endCards] at hj
    have hsub : (d.endCards j).Subperm
        ((d.handCardData j).1 :: (d.handCardData j).2 :: d.centerCardData) := by
      rw [hend j hj]
      exact (fiveFromSeven_eq _ d.center_length).2.2.1.subperm.trans (sortCardList_perm _).subperm
    have htwo := hbest j hj _ hsub (hlength j hj)
    rw [hend j hj, sortCardList_fiveFromSeven d.center_length, ← hend j hj, Ne,
      compareCard_eq_two_iff (hlength j hj) (hlength i hi), not_lt] at htwo
    exact htwo

/-- The aces of the first chair win over the first five of another seven. -/
theorem Deal.wins_iff_aces : compareCard (sortCardList [0x07, 0x13, 0x0D, 0x1B, 0x29])
    (acesDeal.endCards 0) ≠ 2 := by
  have h := (Deal.wins_iff acesDeal 0 (l := [0]) (by decide +kernel) 0).1
    List.mem_cons_self
  have hsub : [0x07, 0x13, 0x0D, 0x1B, 0x29].Subperm
      ((acesDeal.handCardData 1).1 :: (acesDeal.handCardData 1).2 :: acesDeal.centerCardData) :=
    (List.take_sublist 5 [0x07, 0x13, 0x0D, 0x1B, 0x29, 0x08, 0x02]).subperm
  exact h.2 1 (by decide) _ hsub rfl

end GameServer.TexasHoldem
