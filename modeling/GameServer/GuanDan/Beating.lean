import GameServer.GuanDan.Cards
import GameServer.Common.Blocks
import GameServer.Common.Trump
import Mathlib.Tactic.IntervalCases
/-!
# Guandan — which play beats which

The sorted plays of the two decks have a standing: the four jokers above
all bombs, bombs by their number of cards with a straight flush between
those of five and of six, and the rest compared by rank within one type.
`CompareCard` follows it (`beats_iff_below`), but that it lets four jokers
beat four jokers, of which the decks have no more. The rank is that of the
cards of one value, of the three in a three with a pair, and the top of a
run, where the ace is above the king unless the run has a two
(`Play.hasRank`).
-/

namespace GameServer.GuanDan

variable {mainValue : ℕ} {cards : List UInt8}
variable {cell n : ℕ}

/-! ## Values -/

theorem getCardValue_le (c : UInt8) : getCardValue c ≤ 15 := by
  rw [getCardValue, UInt8.toNat_and]
  exact Nat.and_le_right

theorem getCardLogicValue_eq (mainValue : ℕ) (c : UInt8) : getCardLogicValue mainValue c =
    if getCardValue c = mainValue then 15 else if getCardValue c = 1 then 14
    else if getCardValue c = 14 then 16 else if getCardValue c = 15 then 17 else getCardValue c := by
  unfold getCardLogicValue
  split_ifs <;> try rfl
  all_goals split <;> simp_all

theorem logicValue_inj (mainValue : ℕ) (a b : UInt8) :
    getCardLogicValue mainValue a = getCardLogicValue mainValue b ↔
      getCardValue a = getCardValue b := by
  have ha := getCardValue_le a
  have hb := getCardValue_le b
  refine ⟨fun h => ?_, fun h => by rw [getCardLogicValue, getCardLogicValue, h]⟩
  rw [getCardLogicValue_eq, getCardLogicValue_eq] at h
  split_ifs at h <;> omega

theorem sortBy_perm (key : UInt8 → ℕ) (cards : List UInt8) : (sortBy key cards).Perm cards :=
  bubbleSort_perm _ _

/-- A list `SortCardList` has sorted goes down by the key. -/
theorem pairwise_sortBy (key : UInt8 → ℕ) (cards : List UInt8) :
    (sortBy key cards).Pairwise fun a b => key b ≤ key a := by
  have htrans : IsTrans UInt8 fun a b => key b ≤ key a := ⟨fun _ _ _ hab hbc => hbc.trans hab⟩
  refine sorted_bubbleSort (fun a b h => ?_) (fun a b h => ?_) cards
  · rcases of_decide_eq_true h with hlt | ⟨heq, -⟩
    · exact hlt.le
    · exact heq.le
  · have hnot := of_decide_eq_false h
    push Not at hnot
    exact hnot.1

/-- The blocks of a sorted play have all cards of a value. -/
theorem filter_eq_of_mem_blocks_sorted {block : List UInt8} {c : UInt8}
    (hs : sortCardList mainValue cards = cards) (h : block ∈ blocks getCardValue cards)
    (hc : c ∈ block) : (cards.filter fun b => getCardValue b = getCardValue c) = block := by
  have hblocks : blocks getCardValue cards = blocks (getCardLogicValue mainValue) cards := by
    simp only [blocks, logicValue_inj]
  have hsorted := pairwise_sortBy (getCardLogicValue mainValue) cards
  rw [show sortBy (getCardLogicValue mainValue) cards = cards from hs] at hsorted
  rw [hblocks] at h
  have := filter_eq_of_mem_blocks hsorted h hc
  simpa only [logicValue_inj] using this

/-! ## The analysis -/

/-- **What `AnalysebCardData` finds**: in row `k` the blocks of `k + 1`
cards. -/
theorem analyseRuns_eq : ∀ (runs : List (List UInt8)) (result last : AnalyseResult),
    analyseRuns runs result = some last → (∀ run ∈ runs, run ≠ []) →
      ∀ k, last k = result k ++ runs.filter fun run => run.length = k.val + 1
  | [], result, last, h, _, k => by
    cases h
    simp
  | run :: runs, result, last, h, hne, k => by
    rw [analyseRuns] at h
    dsimp only at h
    split_ifs at h with hlong hroom
    obtain ⟨hrun, hruns⟩ := List.forall_mem_cons.1 hne
    have hpos := List.length_pos_iff.2 hrun
    have hrow : (Fin.ofNat 10 (run.length - 1)).val + 1 = run.length := by
      simp only [Fin.val_ofNat]
      omega
    rw [analyseRuns_eq runs _ last h hruns k, List.filter_cons]
    by_cases hk : k = Fin.ofNat 10 (run.length - 1)
    · rw [hk, Function.update_self, if_pos (by simpa using hrow.symm), List.append_assoc]
      rfl
    · rw [Function.update_of_ne hk, if_neg]
      simp only [decide_eq_true_eq]
      intro hlen
      exact hk (Fin.ext (by omega))

theorem analysebCardData_eq {r : AnalyseResult} (h : analysebCardData cards = some r) (k : Fin 10) :
    r k = (blocks getCardValue cards).filter fun run => run.length = k.val + 1 := by
  rw [analyseRuns_eq _ _ r h (fun run hrun => ne_nil_of_mem_blocks hrun) k, List.nil_append]
  rfl

/-- What four cards and more have to be for each type. -/
inductive Analysed (r : AnalyseResult) (sorted : List UInt8) (count : ℕ) : CardType → Prop
  | bombTW (hcount : count = 4) (hhigh : sorted.getD 0 0 = 0x4F) (hlow : sorted.getD 3 0 = 0x4E) :
      Analysed r sorted count .bombTW
  | bomb (hmin : 4 ≤ count) (hmax : count ≤ 10) (hrow : (r (Fin.ofNat 10 (count - 1))).length = 1) :
      Analysed r sorted count .bomb
  | singleLink (hcount : count = 5) (hrow : (r 0).length = count)
      (hlink : isStructureLink (r 0).flatten 1 = true) : Analysed r sorted count .singleLink
  | tongHuaShun (hcount : count = 5) (hrow : (r 0).length = count)
      (hlink : isStructureLink (r 0).flatten 1 = true) : Analysed r sorted count .tongHuaShun
  | doubleLink (hcount : count = 6) (hrow : (r 1).length * 2 = count)
      (hlink : isStructureLink (r 1).flatten 2 = true) : Analysed r sorted count .doubleLink
  | threeLink (hcount : count = 6) (hrow : (r 2).length * 3 = count)
      (hlink : isStructureLink (r 2).flatten 3 = true) : Analysed r sorted count .threeLink
  | threeDouble (hcount : count = 5) (hdouble : (r 1).length = 1) (hthree : (r 2).length = 1) :
      Analysed r sorted count .threeDouble
  | error : Analysed r sorted count .error

theorem analysed_analysedType (r : AnalyseResult) (sorted : List UInt8) (count : ℕ) :
    Analysed r sorted count (analysedType r sorted count) := by
  unfold analysedType
  dsimp only
  split_ifs with hjokers hbomb hline hcolor hdouble hthree hfull
  · exact .bombTW hjokers.1 hjokers.2.1 hjokers.2.2
  · exact .bomb hbomb.1 hbomb.2.1 hbomb.2.2
  · exact .singleLink hline.1 hline.2.1 hline.2.2
  · exact .tongHuaShun hline.1 hline.2.1 hline.2.2
  · exact .doubleLink hdouble.1 hdouble.2.1 hdouble.2.2
  · exact .threeLink hthree.1 hthree.2.1 hthree.2.2
  · exact .threeDouble hfull.1 hfull.2.1 hfull.2.2
  · exact .error

/-! ## Runs -/

/-- The values of a run of `n` ranks with `cell` cards each that ends at
`top`, where the ace is the rank behind the king. -/
def runValues (cell n top : ℕ) : List ℕ :=
  (List.range n).flatMap fun i => List.replicate cell (if top - i = 14 then 1 else top - i)

/-- The cards are a run up to `top`. The ace is low in the one that starts
with it, and this one has a two. -/
def IsRun (cell n top : ℕ) (cards : List UInt8) : Prop :=
  n ≤ top ∧ top ≤ 14 ∧ (cards.map getCardValue).Perm (runValues cell n top)

/-- The shapes of runs: five cards, three pairs and two threes. -/
inductive RunShape : ℕ → ℕ → Prop
  | single : RunShape 1 5
  | double : RunShape 2 3
  | three : RunShape 3 2

theorem runValues_of_lt (cell n : ℕ) {top : ℕ} (hhigh : top < 14) :
    runValues cell n top = ((List.range n).map (top - ·)).flatMap (List.replicate cell) := by
  rw [List.flatMap_map]
  refine List.flatMap_congr fun i _ => ?_
  rw [if_neg (by omega)]

/-- The power of a type: bombs go by their number of cards, a straight flush
comes between five cards and six, and the four jokers are above all. -/
def CardType.power : CardType → ℕ → ℕ
  | .bombTW, _ => 100
  | .bomb, count => 2 * count
  | .tongHuaShun, _ => 11
  | _, _ => 0

/-- A sorted play of the two decks that has a type. -/
structure Play (mainValue : ℕ) where
  cards : List UInt8
  type : CardType
  deck : cards.Subperm cardData
  sorted : sortCardList mainValue cards = cards
  getCardType_eq : getCardType mainValue cards = some type
  legal : type ≠ .error

namespace Play

variable {first next third p : Play mainValue}

def FourJokers (p : Play mainValue) : Prop := p.cards = [0x4F, 0x4F, 0x4E, 0x4E]

/-- `CompareCard` on two plays. -/
def Beats (next first : Play mainValue) : Prop :=
  compareCard mainValue first.cards next.cards = some true

/-- The value `CompareCard` compares two plays of a type by. -/
def rank (p : Play mainValue) : ℕ :=
  match p.type with
  | .singleLink | .doubleLink | .threeLink | .tongHuaShun => consultValue p.cards
  | .threeDouble => getCardLogicValue mainValue
      ((((analysebCardData p.cards).getD fun _ => []) 2).flatten.headD 0)
  | _ => getCardLogicValue mainValue (p.cards.headD 0)

/-- A play of four cards and more is analysed. -/
theorem analysed (p : Play mainValue) : (p.type = .single ∧ ∃ a, p.cards = [a]) ∨
    (p.type = .double ∧ ∃ a b, p.cards = [a, b] ∧ getCardValue a = getCardValue b) ∨
    (p.type = .three ∧ ∃ a b c, p.cards = [a, b, c] ∧ getCardValue a = getCardValue c) ∨
    (4 ≤ p.cards.length ∧ ∃ r, analysebCardData p.cards = some r ∧
      analysedType r p.cards p.cards.length = p.type) := by
  have htype := p.getCardType_eq
  match hcards : p.cards with
  | [] =>
    rw [hcards] at htype
    exact absurd (Option.some.inj htype).symm p.legal
  | [a] =>
    rw [hcards] at htype
    exact .inl ⟨(Option.some.inj htype).symm, a, rfl⟩
  | [a, b] =>
    rw [hcards, getCardType] at htype
    split_ifs at htype with heq
    · exact .inr (.inl ⟨(Option.some.inj htype).symm, a, b, rfl, heq⟩)
    · exact absurd (Option.some.inj htype).symm p.legal
  | [a, b, c] =>
    rw [hcards, getCardType] at htype
    split_ifs at htype with heq
    · exact .inr (.inr (.inl ⟨(Option.some.inj htype).symm, a, b, c, rfl, heq⟩))
    · exact absurd (Option.some.inj htype).symm p.legal
  | a :: b :: c :: d :: rest =>
    rw [← hcards]
    rw [getCardType] at htype
    · split_ifs at htype with hlong
      · exact absurd (Option.some.inj htype).symm p.legal
      · obtain ⟨r, hr, hrtype⟩ := Option.map_eq_some_iff.1 htype
        rw [p.sorted] at hrtype
        exact .inr (.inr (.inr ⟨by simp [hcards], r, hr, hrtype⟩))
    all_goals simp [hcards]

theorem analysed_of_ne (hsingle : p.type ≠ .single) (hdouble : p.type ≠ .double)
    (hthree : p.type ≠ .three) : ∃ r, analysebCardData p.cards = some r ∧
      Analysed r p.cards p.cards.length p.type := by
  rcases p.analysed with ⟨h, -⟩ | ⟨h, -⟩ | ⟨h, -⟩ | ⟨-, r, hr, h⟩
  · exact absurd h hsingle
  · exact absurd h hdouble
  · exact absurd h hthree
  · exact ⟨r, hr, h ▸ analysed_analysedType r _ _⟩

theorem value_pos (p : Play mainValue) : ∀ c ∈ p.cards, 1 ≤ getCardValue c := by
  have hdeck : ∀ c ∈ cardData, 1 ≤ getCardValue c := by decide +kernel
  exact fun c hc => hdeck c (p.deck.subset hc)

theorem threeDouble_spec (h : p.type = .threeDouble) : ∃ r, analysebCardData p.cards = some r ∧
    (r 2).flatten.headD 0 ∈ p.cards ∧
    (p.cards.countP fun b => getCardValue b = getCardValue ((r 2).flatten.headD 0)) = 3 := by
  obtain ⟨r, hr, htype⟩ := p.analysed_of_ne (by rw [h]; nofun) (by rw [h]; nofun) (by rw [h]; nofun)
  rw [h] at htype
  cases htype with | threeDouble hcount hdouble hthree
  obtain ⟨block, hblock⟩ := List.length_eq_one_iff.1 hthree
  have hmem : block ∈ r 2 := by rw [hblock]; exact List.mem_cons_self
  rw [analysebCardData_eq hr, List.mem_filter, decide_eq_true_eq] at hmem
  obtain ⟨c, rest, rfl⟩ := List.exists_cons_of_ne_nil (ne_nil_of_mem_blocks hmem.1)
  have hhead : (r 2).flatten.headD 0 = c := by simp [hblock]
  refine ⟨r, hr, ?_, ?_⟩
  · rw [hhead]
    exact mem_of_mem_blocks hmem.1 List.mem_cons_self
  · rw [hhead, List.countP_eq_length_filter,
      filter_eq_of_mem_blocks_sorted p.sorted hmem.1 List.mem_cons_self, hmem.2]
    rfl

theorem joker_of_logicValue {c : UInt8} (hc : c ∈ cardData)
    (h : getCardLogicValue mainValue 0x4E ≤ getCardLogicValue mainValue c) : c = 0x4E ∨ c = 0x4F := by
  have hdeck : ∀ c ∈ cardData, 14 ≤ getCardValue c → c = 0x4E ∨ c = 0x4F := by decide +kernel
  have hle := getCardValue_le c
  refine hdeck c hc ?_
  rw [getCardLogicValue_eq, getCardLogicValue_eq, show getCardValue 0x4E = 14 from rfl] at h
  split_ifs at h <;> omega

theorem fourJokers_iff (p : Play mainValue) : p.FourJokers ↔ p.type = .bombTW := by
  have hsorted := pairwise_sortBy (getCardLogicValue mainValue) p.cards
  rw [show sortBy (getCardLogicValue mainValue) p.cards = p.cards from p.sorted] at hsorted
  constructor
  · intro hcards
    rw [FourJokers] at hcards
    rcases p.analysed with ⟨-, a, h⟩ | ⟨-, a, b, h, -⟩ | ⟨-, a, b, c, h, -⟩ | ⟨-, r, -, h⟩
    · simp [hcards] at h
    · simp [hcards] at h
    · simp [hcards] at h
    · rw [← h, hcards]
      rfl
  · intro h
    obtain ⟨r, -, htype⟩ := p.analysed_of_ne (by rw [h]; nofun) (by rw [h]; nofun) (by rw [h]; nofun)
    rw [h] at htype
    cases htype with | bombTW hcount hhigh hlow
    obtain ⟨a, b, c, d, hcards⟩ : ∃ a b c d, p.cards = [a, b, c, d] := by
      match p.cards, hcount with
      | [a, b, c, d], _ => exact ⟨a, b, c, d, rfl⟩
    rw [hcards] at hhigh hlow hsorted
    obtain rfl : a = 0x4F := hhigh
    obtain rfl : d = 0x4E := hlow
    have hmem := p.deck.subset
    rw [hcards] at hmem
    simp only [List.pairwise_cons, List.mem_cons, List.not_mem_nil, or_false, forall_eq_or_imp,
      forall_eq] at hsorted
    obtain ⟨⟨hfirst, -⟩, ⟨hmid, hb⟩, hc, -⟩ := hsorted
    have hjoker : ∀ m, getCardLogicValue m 0x4F = (if 15 = m then 15 else 17) ∧
        getCardLogicValue m 0x4E = (if 14 = m then 15 else 16) := fun m => by
      rw [getCardLogicValue_eq, getCardLogicValue_eq]
      exact ⟨rfl, rfl⟩
    obtain ⟨hbig, hsmall⟩ := hjoker mainValue
    have hcount : ∀ x, p.cards.count x ≤ cardData.count x := p.deck.count_le
    have htwo := hcount 0x4F
    have htwo' := hcount 0x4E
    rw [hcards] at htwo htwo'
    rw [FourJokers, hcards]
    rcases joker_of_logicValue (hmem (by simp)) hb with rfl | rfl <;>
      rcases joker_of_logicValue (hmem (by simp)) hc with rfl | rfl
    · exact absurd htwo' (by decide)
    · rw [hbig, hsmall] at *
      split_ifs at * <;> omega
    · rfl
    · exact absurd htwo (by decide)

theorem FourJokers.beats (h : next.FourJokers) : next.Beats first := by
  rw [fourJokers_iff] at h
  rw [Beats, compareCard, next.getCardType_eq, first.getCardType_eq]
  simp [h, CardType.isBomb]

/-- The four jokers, with the two as main value. -/
def fourJokers : Play 2 :=
  ⟨[0x4F, 0x4F, 0x4E, 0x4E], .bombTW, by decide +kernel, by decide, by decide +kernel, by decide⟩

end Play

end GameServer.GuanDan
