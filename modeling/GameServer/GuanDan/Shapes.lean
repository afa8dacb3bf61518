import GameServer.GuanDan.Arrays
/-!
# Guandan — a type and the values of its cards

The type of five or six cards is that of their values in order, but for the
colour of a straight (`getCardType_congr`). What has a type is a
combination of the rules (`Combination`), or one of a few kinds of cards
that are none (`Slip`).
-/

namespace GameServer.GuanDan

variable {mainValue mainValue' : ℕ} {cards order : List UInt8} {t : CardType} {cell n count : ℕ}
  {r r' : AnalyseResult}
variable {top : ℕ} {sorted : List UInt8}

/-! ## Sorted values -/

/-- The values of the cards, the greatest first. -/
def sortedValues (cards : List UInt8) : List ℕ := (sortBy getCardValue cards).map getCardValue

theorem sortedValues_perm (cards : List UInt8) :
    (sortedValues cards).Perm (cards.map getCardValue) := (sortBy_perm _ _).map _

theorem sortedValues_eq {vs : List ℕ} (hs : vs.Pairwise fun a b => b ≤ a)
    (h : (cards.map getCardValue).Perm vs) : sortedValues cards = vs :=
  List.Perm.eq_of_pairwise (fun _ _ _ _ hab hba => le_antisymm hba hab)
    (List.pairwise_map.2 (pairwise_sortBy getCardValue cards)) hs ((sortedValues_perm cards).trans h)

theorem sortedValues_congr (h : (cards.map getCardValue).Perm (order.map getCardValue)) :
    sortedValues cards = sortedValues order :=
  sortedValues_eq (List.pairwise_map.2 (pairwise_sortBy getCardValue order))
    (h.trans (sortedValues_perm order).symm)

/-- `IsStructureLink` on the sorted values. -/
def Linked (cell : ℕ) (vs : List ℕ) : Prop :=
  vs.getD 0 0 < 14 ∧ ∀ i ∈ List.range (vs.length / cell), 1 ≤ i →
    (vs.getD (i * cell) 0 = 1 ∧ vs.getD 0 0 = 13) ∨ vs.getD 0 0 = vs.getD (i * cell) 0 + i

theorem isStructureLink_iff (cards : List UInt8) (cell : ℕ) :
    isStructureLink cards cell = true ↔ Linked cell (sortedValues cards) := by
  have hget : ∀ i, getCardValue ((sortBy getCardValue cards).getD i 0) =
      (sortedValues cards).getD i 0 := fun i => by
    rw [sortedValues, List.getD_eq_getElem?_getD, List.getD_eq_getElem?_getD, List.getElem?_map]
    cases (sortBy getCardValue cards)[i]? <;> rfl
  have hhead : getCardValue ((sortBy getCardValue cards).headD 0) =
      (sortedValues cards).getD 0 0 := by
    rw [← hget]
    cases sortBy getCardValue cards <;> rfl
  have hlen : (sortedValues cards).length = cards.length := by
    rw [(sortedValues_perm cards).length_eq, List.length_map]
  rw [isStructureLink, decide_eq_true_iff, Linked, hlen, hhead]
  simp only [hget]

theorem isStructureLink_congr (h : (cards.map getCardValue).Perm (order.map getCardValue)) :
    isStructureLink cards cell = isStructureLink order cell := by
  rw [Bool.eq_iff_iff, isStructureLink_iff, isStructureLink_iff, sortedValues_congr h]

/-! ## The rows and the values -/

theorem row_values (hr : analysebCardData cards = some r) (k : Fin 10) :
    (r k).map (List.map getCardValue) =
      (blocks id (cards.map getCardValue)).filter fun block => block.length = k.val + 1 := by
  rw [analysebCardData_eq hr, blocks_map (fun _ => rfl), List.filter_map]
  congr 1
  refine List.filter_congr fun block _ => ?_
  simp

/-- A type but for the colour of a straight. -/
def CardType.plain : CardType → CardType
  | .tongHuaShun => .singleLink
  | t => t

theorem plain_analysedType_congr {sorted' : List UInt8} (hcount : count ≠ 4)
    (h : ∀ k, (r k).map (List.map getCardValue) = (r' k).map (List.map getCardValue)) :
    (analysedType r sorted count).plain = (analysedType r' sorted' count).plain := by
  have hlen : ∀ k, (r k).length = (r' k).length := fun k => by
    simpa using congrArg List.length (h k)
  have hlink : ∀ k cell, isStructureLink (r k).flatten cell = isStructureLink (r' k).flatten cell :=
    fun k cell => isStructureLink_congr (.of_eq (by rw [List.map_flatten, List.map_flatten, h k]))
  unfold analysedType
  dsimp only
  simp only [hlen, hlink, hcount, false_and, if_false]
  split_ifs <;> rfl

theorem getCardType_of_large (hmin : 4 ≤ cards.length) : getCardType mainValue cards =
    if maxCount < cards.length then some .error
    else (analysebCardData cards).map
      (analysedType · (sortCardList mainValue cards) cards.length) := by
  obtain _ | ⟨a, _ | ⟨b, _ | ⟨c, _ | ⟨d, rest⟩⟩⟩⟩ := cards
  iterate 4 exact absurd hmin (by simp)
  rw [getCardType] <;> simp

theorem getCardType_eq_map (hmin : 4 ≤ cards.length) (hmax : cards.length ≤ maxCount) :
    getCardType mainValue cards = (analysebCardData cards).map
      (analysedType · (sortCardList mainValue cards) cards.length) := by
  rw [getCardType_of_large hmin, if_neg (not_lt.2 hmax)]

theorem exists_analysed (hmin : 4 ≤ cards.length) (hmax : cards.length ≤ 10) :
    ∃ r, analysebCardData cards = some r ∧ getCardType mainValue cards =
      some (analysedType r (sortCardList mainValue cards) cards.length) := by
  have hmaxCount : maxCount = 28 := rfl
  have hsome := @getCardType_isSome_of_ten mainValue cards hmax
  have hmap := @getCardType_eq_map mainValue cards hmin (by omega)
  rw [hmap, Option.isSome_map] at hsome
  obtain ⟨r, hr⟩ := Option.isSome_iff_exists.1 hsome
  exact ⟨r, hr, by rw [hmap, hr]; rfl⟩

/-- **The values of five or six cards tell the type**, but for the colour of
a straight. -/
theorem getCardType_congr (hlen : cards.length = 5 ∨ cards.length = 6)
    (hvalues : cards.map getCardValue = order.map getCardValue) :
    (getCardType mainValue cards).map CardType.plain =
      (getCardType mainValue' order).map CardType.plain := by
  have hsame : cards.length = order.length := by simpa using congrArg List.length hvalues
  obtain ⟨r, hr, ht⟩ := @exists_analysed mainValue cards (by omega) (by omega)
  obtain ⟨r', hr', ht'⟩ := @exists_analysed mainValue' order (by omega) (by omega)
  rw [ht, ht', Option.map_some, Option.map_some, hsame, plain_analysedType_congr (by omega) fun k => ?_]
  rw [row_values hr, row_values hr', hvalues]

/-! ## Lines -/

/-- The cards stand in blocks of `cell`. -/
def Celled (cell : ℕ) (cards : List UInt8) : Prop :=
  ∀ block ∈ blocks getCardValue cards, block.length = cell

theorem row_of_celled (hr : analysebCardData cards = some r) (h : Celled cell cards) (k : Fin 10) :
    r k = if k.val + 1 = cell then blocks getCardValue cards else [] := by
  rw [analysebCardData_eq hr]
  split_ifs with hk
  · exact List.filter_eq_self.2 fun block hblock => decide_eq_true ((h block hblock).trans hk.symm)
  · refine List.filter_eq_nil_iff.2 fun block hblock hlen => hk ?_
    exact (of_decide_eq_true hlen).symm.trans (h block hblock)

/-- The cards of the first colour that have given values. -/
def plainCards (vs : List ℕ) : List UInt8 := vs.map UInt8.ofNat

theorem map_plainCards {vs : List ℕ} (h : ∀ v ∈ vs, v < 16) :
    (plainCards vs).map getCardValue = vs := by
  have hvalue : ∀ v < 16, getCardValue (UInt8.ofNat v) = v := by decide
  rw [plainCards, List.map_map]
  exact (List.map_congr_left fun v hv => hvalue v (h v hv)).trans (List.map_id vs)

theorem isStructureLink_of_isRun (hshape : RunShape cell n) (h : IsRun cell n top cards) :
    isStructureLink cards cell = true := by
  obtain ⟨hlow, hhigh, hvalues⟩ := h
  have hplain : ∀ top ≤ 14, (5 ≤ top → isStructureLink (plainCards (runValues 1 5 top)) 1 = true) ∧
      (3 ≤ top → isStructureLink (plainCards (runValues 2 3 top)) 2 = true) ∧
      (2 ≤ top → isStructureLink (plainCards (runValues 3 2 top)) 3 = true) := by decide +kernel
  have hlt : ∀ top ≤ 14, (∀ v ∈ runValues 1 5 top, v < 16) ∧ (∀ v ∈ runValues 2 3 top, v < 16) ∧
      ∀ v ∈ runValues 3 2 top, v < 16 := by decide
  obtain ⟨hone, htwo, hthree⟩ := hplain top hhigh
  obtain ⟨hltOne, hltTwo, hltThree⟩ := hlt top hhigh
  cases hshape with
  | single => rw [← hone hlow, isStructureLink_congr (hvalues.trans (.of_eq (map_plainCards hltOne).symm))]
  | double => rw [← htwo hlow, isStructureLink_congr (hvalues.trans (.of_eq (map_plainCards hltTwo).symm))]
  | three =>
    rw [← hthree hlow, isStructureLink_congr (hvalues.trans (.of_eq (map_plainCards hltThree).symm))]

/-- The type of a run whose cards stand in blocks. -/
def lineType (cards : List UInt8) : ℕ → CardType
  | 1 => if colorOf cards = 0xF0 then .singleLink else .tongHuaShun
  | 2 => .doubleLink
  | _ => .threeLink

theorem length_of_isRun (h : IsRun cell n top cards) : cards.length = n * cell := by
  have := h.2.2.length_eq
  simpa [runValues] using this

/-- **A run whose cards stand in blocks** has the type of the run. -/
theorem getCardType_of_celled (hshape : RunShape cell n) (hrun : IsRun cell n top cards)
    (h : Celled cell cards) : getCardType mainValue cards = some (lineType cards cell) := by
  have hlen := length_of_isRun hrun
  have hlink := isStructureLink_of_isRun hshape hrun
  have hmul := length_blocks_mul h
  obtain ⟨r, hr, ht⟩ := @exists_analysed mainValue cards (by cases hshape <;> omega)
    (by cases hshape <;> omega)
  have hrow := row_of_celled hr h
  have hbomb : ¬ (4 ≤ cards.length ∧ cards.length ≤ 10 ∧
      (r (Fin.ofNat 10 (cards.length - 1))).length = 1) := by
    rintro ⟨-, -, hone⟩
    rw [hrow, if_neg (by cases hshape <;> rw [hlen] <;> decide)] at hone
    exact absurd hone nofun
  rw [ht]
  congr 1
  unfold analysedType
  dsimp only
  cases hshape with
  | single =>
    have hzero : r 0 = blocks getCardValue cards := (hrow 0).trans (if_pos rfl)
    have hflat : (r 0).flatten = cards := by rw [hzero, flatten_blocks]
    rw [if_neg (by omega), if_neg hbomb, hflat, if_pos ⟨hlen, by rw [hzero]; omega, hlink⟩]
    rfl
  | double =>
    have hone : r 1 = blocks getCardValue cards := (hrow 1).trans (if_pos rfl)
    rw [if_neg (by omega), if_neg hbomb, if_neg (by omega),
      if_pos ⟨hlen, by rw [hone, hmul], by rw [hone, flatten_blocks]; exact hlink⟩, lineType]
  | three =>
    have hone : r 1 = [] := (hrow 1).trans (if_neg (by decide))
    have htwo : r 2 = blocks getCardValue cards := (hrow 2).trans (if_pos rfl)
    rw [if_neg (by omega), if_neg hbomb, if_neg (by omega),
      if_neg (by rw [hone, List.length_nil]; omega),
      if_pos ⟨hlen, by rw [htwo, hmul], by rw [htwo, flatten_blocks]; exact hlink⟩, lineType]
    all_goals nofun

/-- In a sorted play every value of a run stands in one block. -/
theorem celled_of_sorted (hshape : RunShape cell n)
    (hs : sortCardList mainValue cards = cards) (hrun : IsRun cell n top cards) :
    Celled cell cards := by
  intro block hblock
  obtain ⟨c, rest, hc⟩ := List.exists_cons_of_ne_nil (ne_nil_of_mem_blocks hblock)
  have hmem : c ∈ block := hc ▸ List.mem_cons_self
  have hcards := mem_of_mem_blocks hblock hmem
  have hcount : ∀ top ≤ 14, n ≤ top → ∀ v ∈ runValues cell n top, (runValues cell n top).count v = cell := by
    cases hshape <;> decide
  rw [← filter_eq_of_mem_blocks_sorted hs hblock hmem, ← List.countP_eq_length_filter]
  have hvalue := hcount top hrun.2.1 hrun.1 _ (hrun.2.2.subset (List.mem_map_of_mem hcards))
  rw [← hrun.2.2.count_eq, List.count, List.countP_map] at hvalue
  exact hvalue

/-! ## Combinations -/

def OneRank (cards : List UInt8) : Prop :=
  ∀ a ∈ cards, ∀ b ∈ cards, getCardValue a = getCardValue b

def OneColor (cards : List UInt8) : Prop :=
  ∀ a ∈ cards, ∀ b ∈ cards, getCardColor a = getCardColor b

def sameType : ℕ → CardType
  | 2 => .double
  | 3 => .three
  | _ => .bomb

/-- **The combinations of the rules** and their types. -/
inductive Combination : CardType → List UInt8 → Prop
  | single {cards : List UInt8} (h : cards.length = 1) : Combination .single cards
  | same {cards : List UInt8} (hmin : 2 ≤ cards.length) (hmax : cards.length ≤ 10)
      (h : OneRank cards) : Combination (sameType cards.length) cards
  | fourJokers {cards : List UInt8} (h : cards.Perm [0x4F, 0x4F, 0x4E, 0x4E]) :
      Combination .bombTW cards
  | straight {cards : List UInt8} (top : ℕ) (h : IsRun 1 5 top cards) (hcolor : ¬ OneColor cards) :
      Combination .singleLink cards
  | straightFlush {cards : List UInt8} (top : ℕ) (h : IsRun 1 5 top cards)
      (hcolor : OneColor cards) : Combination .tongHuaShun cards
  | pairs {cards : List UInt8} (top : ℕ) (h : IsRun 2 3 top cards) : Combination .doubleLink cards
  | triples {cards : List UInt8} (top : ℕ) (h : IsRun 3 2 top cards) : Combination .threeLink cards
  | full {cards : List UInt8} (a b : ℕ) (hne : a ≠ b)
      (h : (cards.map getCardValue).Perm [a, a, a, b, b]) : Combination .threeDouble cards

/-- **What is no combination and gets a type**: three cards whose outer ones
are a pair, a run with aces for its low end, and kings between aces. -/
inductive Slip : CardType → List UInt8 → Prop
  | outer {cards : List UInt8} (a b : ℕ) (hne : a ≠ b)
      (h : (cards.map getCardValue).Perm [a, a, b]) : Slip .three cards
  | aces {cards : List UInt8} (t : CardType) (ht : t = .singleLink ∨ t = .tongHuaShun)
      (h : (cards.map getCardValue).Perm [13, 12, 11, 1, 1] ∨
        (cards.map getCardValue).Perm [13, 12, 1, 1, 1]) : Slip t cards
  | kings {cards : List UInt8} (h : (cards.map getCardValue).Perm [13, 13, 1, 1, 1, 1]) :
      Slip .doubleLink cards

/-- Bytes with a value and a colour of the decks. -/
def Valued (cards : List UInt8) : Prop :=
  ∀ c ∈ cards, 1 ≤ getCardValue c ∧ getCardColor c ≤ 0x40

/-- Cards of the two decks. -/
def FromDecks (cards : List UInt8) : Prop := cards.Subperm cardData

theorem FromDecks.perm (h : FromDecks cards) (hperm : order.Perm cards) : FromDecks order :=
  (hperm.subperm).trans h

theorem FromDecks.valued (h : FromDecks cards) : Valued cards := by
  have hdeck : ∀ c ∈ cardData, 1 ≤ getCardValue c ∧ getCardColor c ≤ 0x40 := by decide +kernel
  exact fun c hc => hdeck c (h.subset hc)

theorem Valued.perm (h : Valued cards) (hperm : order.Perm cards) : Valued order :=
  fun c hc => h c (hperm.subset hc)

theorem OneRank.perm (h : OneRank cards) (hperm : order.Perm cards) : OneRank order :=
  fun a ha b hb => h a (hperm.subset ha) b (hperm.subset hb)

theorem OneColor.perm (h : OneColor cards) (hperm : order.Perm cards) : OneColor order :=
  fun a ha b hb => h a (hperm.subset ha) b (hperm.subset hb)

theorem oneColor_congr (h : order.Perm cards) : OneColor order ↔ OneColor cards :=
  ⟨fun hone => hone.perm h.symm, fun hone => hone.perm h⟩

theorem colorOf_eq_iff (h : Valued cards) (hne : cards ≠ []) :
    colorOf cards = 0xF0 ↔ ¬ OneColor cards := by
  obtain ⟨c, rest, rfl⟩ := List.exists_cons_of_ne_nil hne
  have hle := (h c List.mem_cons_self).2
  rw [colorOf]
  split_ifs with hall
  · refine iff_of_false (fun heq => ?_)
      (not_not.2 fun a ha b hb => (hall a ha).trans (hall b hb).symm)
    rw [List.headD_cons] at heq
    rw [heq] at hle
    exact absurd hle (by decide)
  · exact iff_of_true rfl fun hone => hall fun a ha => hone a ha c List.mem_cons_self

/-! ## What has a type -/

/-- The values of cards in blocks, one for each block, from the greatest. -/
theorem exists_heads (hcell : 0 < cell) (h : Celled cell cards) :
    ∃ ds : List ℕ, (ds.Pairwise fun a b => b ≤ a) ∧ ds.length * cell = cards.length ∧
      sortedValues cards = ds.flatMap (List.replicate cell) := by
  have hvalues := map_flatten_of_length hcell 0 (blocks getCardValue cards) h
    fun b hb x hx y hy => key_eq_of_mem_blocks hb hx hy
  rw [flatten_blocks] at hvalues
  generalize hheads : (blocks getCardValue cards).map (fun b => getCardValue (b.headD 0)) = hs at hvalues
  have hlen : hs.length * cell = cards.length := by
    rw [← hheads, List.length_map, length_blocks_mul h]
  have hperm := List.mergeSort_perm hs fun a b => decide (b ≤ a)
  have hpair : (hs.mergeSort fun a b => decide (b ≤ a)).Pairwise fun a b => b ≤ a := by
    refine (List.pairwise_mergeSort (fun a b c hab hbc => ?_) (fun a b => ?_) hs).imp
      fun hab => of_decide_eq_true hab
    · exact decide_eq_true ((of_decide_eq_true hbc).trans (of_decide_eq_true hab))
    · simpa using Nat.le_total _ _
  refine ⟨_, hpair, by rw [hperm.length_eq, hlen], sortedValues_eq ?_ ?_⟩
  · rw [List.pairwise_flatMap]
    refine ⟨fun a _ => List.pairwise_replicate.2 (.inr le_rfl), hpair.imp fun hab x hx y hy => ?_⟩
    rw [List.eq_of_mem_replicate hx, List.eq_of_mem_replicate hy]
    exact hab
  · rw [hvalues]
    exact (hperm.symm.flatMap_right _)

/-- **What `IsStructureLink` takes**, block by block: a run, or aces behind a
king that are counted as often as they come. -/
theorem run_or_aces (hshape : RunShape cell n) (hvalued : Valued cards)
    (hlen : cards.length = n * cell) (h : Celled cell cards)
    (hlink : isStructureLink cards cell = true) : (∃ top, IsRun cell n top cards) ∨
      (cell = 1 ∧ ∃ vs ∈ [[13, 12, 11, 1, 1], [13, 12, 1, 1, 1], [13, 1, 1, 1, 1]],
        (cards.map getCardValue).Perm vs) ∨
      (cell = 2 ∧ (cards.map getCardValue).Perm [13, 13, 1, 1, 1, 1]) := by
  obtain ⟨ds, hds, hcount, hsorted⟩ := exists_heads (by cases hshape <;> omega) h
  have hperm := (sortedValues_perm cards).symm
  rw [hsorted] at hperm
  have hposds : ∀ d ∈ ds, 1 ≤ d := by
    intro d hd
    have hmem : d ∈ ds.flatMap (List.replicate cell) :=
      List.mem_flatMap.2 ⟨d, hd, List.mem_replicate.2 ⟨by cases hshape <;> omega, rfl⟩⟩
    obtain ⟨c, hc, rfl⟩ := List.mem_map.1 (hperm.symm.subset hmem)
    exact (hvalued c hc).1
  rw [isStructureLink_iff, hsorted, Linked] at hlink
  clear hsorted
  cases hshape with
  | single =>
    obtain ⟨a, b, c, d, e, rfl⟩ : ∃ a b c d e, ds = [a, b, c, d, e] := by
      have hlen : ds.length = 5 := by omega
      match ds, hlen with
      | [a, b, c, d, e], _ => exact ⟨a, b, c, d, e, rfl⟩
    simp [List.range_succ, List.replicate_succ] at hlink hposds hds
    obtain ⟨hlt, hb, hc, hd, he⟩ := hlink
    obtain ⟨-, hposb, hposc, hposd, hpose⟩ := hposds
    obtain ⟨-, ⟨hcb, -, -⟩, ⟨hdc, -⟩, hed⟩ := hds
    -- from the first ace on, all are aces
    rcases hb with ⟨rfl, rfl⟩ | rfl
    · obtain rfl : c = 1 := le_antisymm hcb hposc
      obtain rfl : d = 1 := le_antisymm hdc hposd
      obtain rfl : e = 1 := le_antisymm hed hpose
      exact .inr (.inl ⟨rfl, _, by simp, hperm⟩)
    rcases hc with ⟨rfl, ha⟩ | hc
    · obtain rfl : b = 12 := by omega
      obtain rfl : d = 1 := le_antisymm hdc hposd
      obtain rfl : e = 1 := le_antisymm hed hpose
      exact .inr (.inl ⟨rfl, _, by simp, hperm⟩)
    rcases hd with ⟨rfl, ha⟩ | hd
    · obtain rfl : b = 12 := by omega
      obtain rfl : c = 11 := by omega
      obtain rfl : e = 1 := le_antisymm hed hpose
      exact .inr (.inl ⟨rfl, _, by simp, hperm⟩)
    rcases he with ⟨rfl, ha⟩ | he
    · obtain rfl : b = 12 := by omega
      obtain rfl : c = 11 := by omega
      obtain rfl : d = 10 := by omega
      exact .inl ⟨14, by omega, by omega, hperm.trans (by decide)⟩
    obtain ⟨rfl, rfl, rfl⟩ : c = b + 1 - 2 ∧ d = b + 1 - 3 ∧ e = b + 1 - 4 := by omega
    exact .inl ⟨b + 1, by omega, by omega, hperm.trans (.of_eq (runValues_of_lt 1 5 (by omega)).symm)⟩
  | double =>
    obtain ⟨a, b, c, rfl⟩ : ∃ a b c, ds = [a, b, c] := by
      have hlen : ds.length = 3 := by omega
      match ds, hlen with
      | [a, b, c], _ => exact ⟨a, b, c, rfl⟩
    simp [List.range_succ, List.replicate_succ] at hlink hposds hds
    have hcases : (b + 1 = a ∧ c + 2 = a) ∨ (a = 13 ∧ b = 12 ∧ c = 1) ∨
        (a = 13 ∧ b = 1 ∧ c = 1) := by omega
    rcases hcases with hrun | ⟨rfl, rfl, rfl⟩ | ⟨rfl, rfl, rfl⟩
    · obtain ⟨rfl, rfl⟩ : b = a - 1 ∧ c = a - 2 := by omega
      exact .inl ⟨a, by omega, by omega, hperm.trans (.of_eq (runValues_of_lt 2 3 (by omega)).symm)⟩
    · exact .inl ⟨14, by omega, by omega, hperm.trans (by decide)⟩
    · exact .inr (.inr ⟨rfl, hperm⟩)
  | three =>
    obtain ⟨a, b, rfl⟩ : ∃ a b, ds = [a, b] := by
      have hlen : ds.length = 2 := by omega
      match ds, hlen with
      | [a, b], _ => exact ⟨a, b, rfl⟩
    simp [List.range_succ, List.replicate_succ] at hlink hposds hds
    have hcases : b + 1 = a ∨ (a = 13 ∧ b = 1) := by omega
    rcases hcases with hrun | ⟨rfl, rfl⟩
    · obtain rfl : b = a - 1 := by omega
      exact .inl ⟨a, by omega, by omega, hperm.trans (.of_eq (runValues_of_lt 3 2 (by omega)).symm)⟩
    · exact .inl ⟨14, by omega, by omega, hperm.trans (by decide)⟩

theorem celled_of_row (hr : analysebCardData cards = some r) {k : Fin 10}
    (hall : (r k).length * (k.val + 1) = cards.length) : Celled (k.val + 1) cards := by
  refine (length_of_filter_length _ fun b hb => ne_nil_of_mem_blocks hb).2 ?_
  rw [← analysebCardData_eq hr, flatten_blocks, hall]

theorem oneRank_of_row (hr : analysebCardData cards = some r) {k : Fin 10} (hlen : cards.length = k.val + 1)
    (hone : (r k).length = 1) : OneRank cards := by
  obtain ⟨block, hblock⟩ := List.length_eq_one_iff.1 hone
  have hmem : block ∈ r k := hblock ▸ List.mem_cons_self
  rw [analysebCardData_eq hr, List.mem_filter] at hmem
  obtain rfl := eq_of_mem_blocks_of_length hmem.1 ((of_decide_eq_true hmem.2).trans hlen.symm)
  exact fun a ha b hb => key_eq_of_mem_blocks hmem.1 ha hb

/-- Three cards of a value next to each other and two of another. -/
theorem full_of_rows (hr : analysebCardData cards = some r) (hlen : cards.length = 5)
    (hdouble : (r 1).length = 1) (hthree : (r 2).length = 1) :
    ∃ a b, a ≠ b ∧ (cards.map getCardValue).Perm [a, a, a, b, b] := by
  obtain ⟨three, hthree⟩ := List.length_eq_one_iff.1 hthree
  obtain ⟨two, htwo⟩ := List.length_eq_one_iff.1 hdouble
  have hmemThree : three ∈ r 2 := hthree ▸ List.mem_cons_self
  have hmemTwo : two ∈ r 1 := htwo ▸ List.mem_cons_self
  obtain ⟨rest, hperm⟩ := exists_perm_blocks (show 3 ≠ 2 by omega) getCardValue cards
  have hrow₂ : ((blocks getCardValue cards).filter fun b => b.length = 3) = r 2 :=
    (analysebCardData_eq hr 2).symm
  have hrow₁ : ((blocks getCardValue cards).filter fun b => b.length = 2) = r 1 :=
    (analysebCardData_eq hr 1).symm
  rw [hrow₂, hrow₁, hthree, htwo, List.flatten_singleton, List.flatten_singleton] at hperm
  rw [analysebCardData_eq hr, List.mem_filter] at hmemThree hmemTwo
  have hlen₃ : three.length = 3 := of_decide_eq_true hmemThree.2
  have hlen₂ : two.length = 2 := of_decide_eq_true hmemTwo.2
  match three, two, hlen₃, hlen₂ with
  | [a, a', a''], [b, b'], _, _ =>
    have hrest : rest = [] := List.length_eq_zero_iff.1 (by
      have := hperm.length_eq
      simp only [List.length_append, List.length_cons, List.length_nil] at this
      omega)
    have ha : ∀ x ∈ [a, a', a''], getCardValue x = getCardValue a := fun x hx =>
      key_eq_of_mem_blocks hmemThree.1 hx List.mem_cons_self
    have hb : ∀ x ∈ [b, b'], getCardValue x = getCardValue b := fun x hx =>
      key_eq_of_mem_blocks hmemTwo.1 hx List.mem_cons_self
    rw [hrest, List.append_nil] at hperm
    refine ⟨getCardValue a, getCardValue b, fun hab => ?_, ?_⟩
    · -- of one value they would be one block
      have hall : ∀ x ∈ cards, getCardValue x = getCardValue a := fun x hx => by
        rcases List.mem_append.1 (hperm.subset hx) with hx | hx
        · exact ha x hx
        · exact (hb x hx).trans hab.symm
      have hblocks := blocks_of_forall (List.ne_nil_of_length_pos (by omega : 0 < cards.length))
        fun x hx y hy => (hall x hx).trans (hall y hy).symm
      rw [hblocks, List.mem_singleton] at hmemTwo
      rw [← hmemTwo.1] at hlen
      cases hlen
    · refine (hperm.map getCardValue).trans (.of_eq ?_)
      simp [ha a' (by simp), ha a'' (by simp), hb b' (by simp)]

/-- `SortCardList` goes by the cards alone. -/
theorem sortBy_congr (key : UInt8 → ℕ) (h : cards.Perm order) : sortBy key cards = sortBy key order := by
  let R : UInt8 → UInt8 → Prop := fun a b =>
    key b < key a ∨ (key a = key b ∧ b.toNat ≤ a.toNat)
  have htrans : IsTrans UInt8 R := ⟨fun a b c hab hbc => by
    rcases hab with hab | ⟨hab, hle⟩ <;> rcases hbc with hbc | ⟨hbc, hle'⟩
    · exact .inl (hbc.trans hab)
    · exact .inl (hbc ▸ hab)
    · exact .inl (hab ▸ hbc)
    · exact .inr ⟨hab.trans hbc, hle'.trans hle⟩⟩
  have hsorted : ∀ l, (sortBy key l).Pairwise R := fun l => by
    refine sorted_bubbleSort (fun a b hswap => ?_) (fun a b hkeep => ?_) l
    · rcases of_decide_eq_true hswap with hlt | ⟨heq, hlt⟩
      · exact .inl hlt
      · exact .inr ⟨heq.symm, (UInt8.lt_iff_toNat_lt.1 hlt).le⟩
    · have hnot := of_decide_eq_false hkeep
      push Not at hnot
      rcases Nat.lt_or_eq_of_le hnot.1 with hlt | heq
      · exact .inl hlt
      · have hge := hnot.2 heq.symm
        rw [UInt8.lt_iff_toNat_lt] at hge
        exact .inr ⟨heq.symm, not_lt.1 hge⟩
  refine List.Perm.eq_of_pairwise (fun a b _ _ hab hba => UInt8.toNat_inj.1 ?_) (hsorted cards)
    (hsorted order) ((sortBy_perm key cards).trans (h.trans (sortBy_perm key order).symm))
  rcases hab with hab | ⟨hab, hle⟩ <;> rcases hba with hba | ⟨hba, hle'⟩ <;> omega

theorem fourJokers_of_sorted (h : FromDecks cards) (hcount : cards.length = 4)
    (hhigh : (sortCardList mainValue cards).getD 0 0 = 0x4F)
    (hlow : (sortCardList mainValue cards).getD 3 0 = 0x4E) : cards.Perm [0x4F, 0x4F, 0x4E, 0x4E] := by
  have hperm : (sortCardList mainValue cards).Perm cards := sortBy_perm _ _
  have hfix : sortCardList mainValue (sortCardList mainValue cards) = sortCardList mainValue cards :=
    sortBy_congr _ hperm
  obtain ⟨r, -, ht⟩ := @exists_analysed mainValue (sortCardList mainValue cards)
    (by rw [hperm.length_eq]; omega) (by rw [hperm.length_eq]; omega)
  have htype : getCardType mainValue (sortCardList mainValue cards) = some .bombTW := by
    rw [ht, hfix, hperm.length_eq]
    unfold analysedType
    dsimp only
    rw [if_pos ⟨hcount, hhigh, hlow⟩]
  let p : Play mainValue := ⟨sortCardList mainValue cards, .bombTW, h.perm hperm, hfix, htype, nofun⟩
  have hjokers : p.cards = [0x4F, 0x4F, 0x4E, 0x4E] := p.fourJokers_iff.2 rfl
  rw [← hjokers]
  exact hperm.symm

theorem flatten_row (hr : analysebCardData cards = some r) {k : Fin 10}
    (h : Celled (k.val + 1) cards) : (r k).flatten = cards := by
  rw [row_of_celled hr h, if_pos rfl, flatten_blocks]

/-- The row of a link has all cards. -/
theorem line_of_row (h : Valued cards) (hshape : RunShape cell n) (hcount : cards.length = n * cell)
    (hr : analysebCardData cards = some r) {k : Fin 10} (hk : k.val + 1 = cell)
    (hrow : (r k).length * cell = cards.length) (hlink : isStructureLink (r k).flatten cell = true)
    (ht : getCardType mainValue cards = some t)
    (hsingle : cell = 1 → t = .singleLink ∨ t = .tongHuaShun) (hdouble : cell = 2 → t = .doubleLink) :
    Combination t cards ∨ Slip t cards := by
  subst hk
  have hcelled := celled_of_row hr hrow
  rw [flatten_row hr hcelled] at hlink
  rcases run_or_aces hshape h hcount hcelled hlink with ⟨top, hrun⟩ | hace | hking
  · left
    rw [getCardType_of_celled hshape hrun hcelled] at ht
    rw [← Option.some.inj ht]
    generalize k.val + 1 = cell at hshape hrun hcount
    cases hshape with
    | single =>
      have hcolor := colorOf_eq_iff h (List.ne_nil_of_length_pos (by omega : 0 < cards.length))
      by_cases hone : OneColor cards
      · rw [lineType, if_neg fun heq => hcolor.1 heq hone]
        exact .straightFlush top hrun hone
      · rw [lineType, if_pos (hcolor.2 hone)]
        exact .straight top hrun hone
    | double => exact .pairs top hrun
    | three => exact .triples top hrun
  · obtain ⟨hone, vs, hvs, hperm⟩ := hace
    simp only [List.mem_cons, List.not_mem_nil, or_false] at hvs
    rcases hvs with rfl | rfl | rfl
    · exact .inr (.aces t (hsingle hone) (.inl hperm))
    · exact .inr (.aces t (hsingle hone) (.inr hperm))
    · -- two of four aces would be neighbours
      exfalso
      rw [hone] at hcelled
      have hchain := length_blocks_one_iff.1 hcelled
      have hfive : cards.length = 5 := by simpa using hperm.length_eq
      match cards, hfive with
      | [a, b, c, d, e], _ =>
        simp only [List.isChain_cons_cons, List.isChain_singleton, and_true] at hchain
        have hcount := hperm.count_eq 1
        simp only [List.map_cons, List.map_nil, List.count_cons, List.count_nil, beq_iff_eq] at hcount
        split_ifs at hcount <;> omega
  · rw [hdouble hking.1]
    exact .inr (.kings hking.2)

/-- **What has a type is a combination, or one of the slips.** -/
theorem Valued.combination_or_slip (h : Valued cards)
    (hfour : cards.length = 4 → FromDecks cards) (ht : getCardType mainValue cards = some t)
    (hne : t ≠ .error) : Combination t cards ∨ Slip t cards := by
  by_cases hmin : 4 ≤ cards.length
  · by_cases hmax : maxCount < cards.length
    · rw [getCardType_of_large hmin, if_pos hmax] at ht
      exact absurd (Option.some.inj ht).symm hne
    rw [getCardType_eq_map hmin (not_lt.1 hmax)] at ht
    obtain ⟨r, hr, htype⟩ := Option.map_eq_some_iff.1 ht
    have htype' : getCardType mainValue cards = some t := by
      rw [getCardType_eq_map hmin (not_lt.1 hmax), hr, Option.map_some, htype]
    have hanalysed := analysed_analysedType r (sortCardList mainValue cards) cards.length
    rw [htype] at hanalysed
    cases hanalysed with
    | bombTW hcount hhigh hlow => exact .inl (.fourJokers (fourJokers_of_sorted (hfour hcount) hcount hhigh hlow))
    | bomb hmin hten hrow =>
      left
      have hsame : sameType cards.length = .bomb := by
        rw [sameType]
        all_goals omega
      rw [← hsame]
      refine .same (by omega) hten (oneRank_of_row hr ?_ hrow)
      simp only [Fin.val_ofNat]
      omega
    | singleLink hcount hrow hlink =>
      exact line_of_row h .single hcount hr rfl ((Nat.mul_one _).trans hrow) hlink htype'
        (fun _ => .inl rfl) (by simp)
    | tongHuaShun hcount hrow hlink =>
      exact line_of_row h .single hcount hr rfl ((Nat.mul_one _).trans hrow) hlink htype'
        (fun _ => .inr rfl) (by simp)
    | doubleLink hcount hrow hlink =>
      exact line_of_row h .double hcount hr rfl hrow hlink htype' (by simp) fun _ => rfl
    | threeLink hcount hrow hlink =>
      exact line_of_row h .three hcount hr rfl hrow hlink htype' (by simp) (by simp)
    | threeDouble hcount hdouble hthree =>
      obtain ⟨a, b, hab, hperm⟩ := full_of_rows hr hcount hdouble hthree
      exact .inl (.full a b hab hperm)
    | error => exact absurd rfl hne
  obtain _ | ⟨a, _ | ⟨b, _ | ⟨c, _ | ⟨_, _⟩⟩⟩⟩ := cards
  · exact absurd (Option.some.inj ht).symm hne
  · rw [← Option.some.inj ht]
    exact .inl (.single rfl)
  · rw [getCardType] at ht
    split_ifs at ht with hab
    · rw [← Option.some.inj ht]
      have hrank : OneRank [a, b] := fun x hx y hy => by
        simp only [List.mem_cons, List.not_mem_nil, or_false] at hx hy
        rcases hx with rfl | rfl <;> rcases hy with rfl | rfl <;> simp [hab]
      have hsame : Combination (sameType [a, b].length) [a, b] := .same le_rfl (by simp) hrank
      exact .inl hsame
    · exact absurd (Option.some.inj ht).symm hne
  · rw [getCardType] at ht
    split_ifs at ht with hac
    · rw [← Option.some.inj ht]
      by_cases hab : getCardValue b = getCardValue a
      · have hrank : OneRank [a, b, c] := fun x hx y hy => by
          simp only [List.mem_cons, List.not_mem_nil, or_false] at hx hy
          rcases hx with rfl | rfl | rfl <;> rcases hy with rfl | rfl | rfl <;> simp [hab, hac]
        have hsame : Combination (sameType [a, b, c].length) [a, b, c] :=
          .same (by simp) (by simp) hrank
        exact .inl hsame
      · refine .inr (.outer (getCardValue a) (getCardValue b) (Ne.symm hab) ?_)
        rw [List.map_cons, List.map_cons, List.map_cons, ← hac]
        exact (List.Perm.swap _ _ _).cons _
    · exact absurd (Option.some.inj ht).symm hne
  · exact absurd (by simp) hmin

/-! ## Types that do not depend on the order -/

theorem nodup_of_isRun (h : IsRun 1 5 top cards) : (cards.map getCardValue).Nodup := by
  have hrun : ∀ top ≤ 14, 5 ≤ top → (runValues 1 5 top).Nodup := by decide
  exact h.2.2.nodup_iff.2 (hrun top h.2.1 h.1)

theorem celled_of_nodup (h : (cards.map getCardValue).Nodup) : Celled 1 cards :=
  length_blocks_one_iff.2 (List.pairwise_map.1 h).isChain

theorem OneRank.getCardType (h : OneRank cards) (hmin : 2 ≤ cards.length) (hmax : cards.length ≤ 10) :
    getCardType mainValue cards = some (sameType cards.length) := by
  by_cases hfour : 4 ≤ cards.length
  · obtain ⟨r, hr, ht⟩ := @exists_analysed mainValue cards hfour hmax
    have hrow : (r (Fin.ofNat 10 (cards.length - 1))).length = 1 := by
      have hk : (Fin.ofNat 10 (cards.length - 1)).val + 1 = cards.length := by
        simp only [Fin.val_ofNat]
        omega
      rw [analysebCardData_eq hr, blocks_of_forall (List.ne_nil_of_length_pos (by omega)) h, hk,
        List.filter_cons, if_pos (by simp)]
      rfl
    have hjokers : ¬ (cards.length = 4 ∧ (sortCardList mainValue cards).getD 0 0 = 0x4F ∧
        (sortCardList mainValue cards).getD 3 0 = 0x4E) := by
      rintro ⟨hlen, hhigh, hlow⟩
      have hperm : (sortCardList mainValue cards).Perm cards := sortBy_perm _ _
      have hmem : ∀ i < 4, (sortCardList mainValue cards).getD i 0 ∈ cards := fun i hi => by
        rw [List.getD_eq_getElem _ _ (by rw [hperm.length_eq]; omega)]
        exact hperm.subset (List.getElem_mem _)
      have := h _ (hmem 0 (by omega)) _ (hmem 3 (by omega))
      rw [hhigh, hlow] at this
      exact absurd this (by decide)
    rw [ht]
    congr 1
    unfold analysedType
    dsimp only
    rw [if_neg hjokers, if_pos ⟨hfour, hmax, hrow⟩, sameType]
    all_goals omega
  match cards with
  | [a, b] =>
    rw [GuanDan.getCardType, if_pos (h a (by simp) b (by simp))]
    rfl
  | [a, b, c] =>
    rw [GuanDan.getCardType, if_pos (h a (by simp) c (by simp))]
    rfl
  | [] | [_] => exact absurd hmin (by simp)
  | _ :: _ :: _ :: _ :: _ => exact absurd (by simp) hfour

theorem getCardType_of_run (hrun : IsRun 1 5 top cards) :
    getCardType mainValue cards = some (lineType cards 1) :=
  getCardType_of_celled .single hrun (celled_of_nodup (nodup_of_isRun hrun))

theorem lineType_one (h : Valued cards) (hne : cards ≠ []) [Decidable (OneColor cards)] :
    lineType cards 1 = if OneColor cards then .tongHuaShun else .singleLink := by
  have hcolor := colorOf_eq_iff h hne
  rw [lineType]
  by_cases hone : OneColor cards
  · rw [if_pos hone, if_neg fun heq => hcolor.1 heq hone]
  · rw [if_neg hone, if_pos (hcolor.2 hone)]

/-- Four jokers are told in any order. -/
theorem bombTW_perm (hperm : order.Perm cards) (ht : getCardType mainValue order = some .bombTW) :
    getCardType mainValue cards = some .bombTW := by
  have hfour : 4 ≤ order.length := by
    by_contra hshort
    obtain _ | ⟨a, _ | ⟨b, _ | ⟨c, _ | ⟨_, _⟩⟩⟩⟩ := order
    · cases ht
    · cases ht
    · rw [getCardType] at ht
      split_ifs at ht <;> cases ht
    · rw [getCardType] at ht
      split_ifs at ht <;> cases ht
    · exact hshort (by simp)
  have hmax : order.length ≤ maxCount := by
    by_contra hlong
    rw [getCardType_of_large hfour, if_pos (not_le.1 hlong)] at ht
    cases ht
  rw [getCardType_eq_map hfour hmax] at ht
  obtain ⟨r, -, htype⟩ := Option.map_eq_some_iff.1 ht
  have hanalysed := analysed_analysedType r (sortCardList mainValue order) order.length
  rw [htype] at hanalysed
  cases hanalysed with
  | bombTW hcount hhigh hlow =>
    rw [hperm.length_eq] at hcount
    rw [show sortCardList mainValue order = sortCardList mainValue cards from sortBy_congr _ hperm]
      at hhigh hlow
    obtain ⟨r', -, ht'⟩ := @exists_analysed mainValue cards (by omega) (by omega)
    rw [ht']
    unfold analysedType
    dsimp only
    rw [if_pos ⟨hcount, hhigh, hlow⟩]

/-- **The combinations whose type does not depend on the order**: all but
pairs and triples in a row and a three with a pair. -/
theorem Combination.getCardType_perm (h : Valued order) (hperm : order.Perm cards)
    (hc : Combination t order) (ht : getCardType mainValue order = some t)
    (hpairs : t ≠ .doubleLink) (htriples : t ≠ .threeLink) (hfull : t ≠ .threeDouble) :
    getCardType mainValue cards = some t := by
  have hcards : Valued cards := h.perm hperm.symm
  have hline : ∀ top, IsRun 1 5 top order → getCardType mainValue cards = getCardType mainValue order := by
    intro top hrun
    have hrun' : IsRun 1 5 top cards := ⟨hrun.1, hrun.2.1, (hperm.map _).symm.trans hrun.2.2⟩
    have hne : order ≠ [] := List.ne_nil_of_length_pos (by rw [length_of_isRun hrun]; omega)
    have hne' : cards ≠ [] := List.ne_nil_of_length_pos (by rw [length_of_isRun hrun']; omega)
    classical
    rw [getCardType_of_run hrun, getCardType_of_run hrun', lineType_one h hne,
      lineType_one hcards hne']
    simp only [oneColor_congr hperm]
  cases hc with
  | single hlen =>
    obtain ⟨c, hcards⟩ := List.length_eq_one_iff.1 (hperm.length_eq.symm.trans hlen)
    rw [hcards]
    rfl
  | same hmin hmax hone =>
    rw [hperm.length_eq] at hmin hmax ⊢
    exact (hone.perm hperm.symm).getCardType hmin hmax
  | fourJokers hjokers => exact bombTW_perm hperm ht
  | straight top hrun => rw [hline top hrun, ht]
  | straightFlush top hrun => rw [hline top hrun, ht]
  | pairs => exact absurd rfl hpairs
  | triples => exact absurd rfl htriples
  | full => exact absurd rfl hfull

/-- The types of lines come from blocks of one size. -/
theorem celled_of_type (ht : getCardType mainValue cards = some t) :
    (t = .singleLink ∨ t = .tongHuaShun → Celled 1 cards) ∧ (t = .doubleLink → Celled 2 cards) ∧
      (t = .threeLink → Celled 3 cards) := by
  by_cases hlarge : 4 ≤ cards.length ∧ cards.length ≤ maxCount
  · rw [getCardType_eq_map hlarge.1 hlarge.2] at ht
    obtain ⟨r, hr, htype⟩ := Option.map_eq_some_iff.1 ht
    have hanalysed := analysed_analysedType r (sortCardList mainValue cards) cards.length
    rw [htype] at hanalysed
    refine ⟨?_, ?_, ?_⟩
    · rintro (rfl | rfl)
      · cases hanalysed with
        | singleLink hcount hall =>
          exact @celled_of_row _ r hr 0 (by rw [hall]; exact Nat.mul_one _)
      · cases hanalysed with
        | tongHuaShun hcount hall =>
          exact @celled_of_row _ r hr 0 (by rw [hall]; exact Nat.mul_one _)
    · rintro rfl
      cases hanalysed with
      | doubleLink hcount hall => exact @celled_of_row _ r hr 1 hall
    · rintro rfl
      cases hanalysed with
      | threeLink hcount hall => exact @celled_of_row _ r hr 2 hall
  · have hsmall : t = .error ∨ t = .single ∨ t = .double ∨ t = .three := by
      match cards with
      | [] => exact .inl (Option.some.inj ht).symm
      | [_] => exact .inr (.inl (Option.some.inj ht).symm)
      | [a, b] =>
        rw [getCardType] at ht
        split_ifs at ht
        · exact .inr (.inr (.inl (Option.some.inj ht).symm))
        · exact .inl (Option.some.inj ht).symm
      | [a, _, b] =>
        rw [getCardType] at ht
        split_ifs at ht
        · exact .inr (.inr (.inr (Option.some.inj ht).symm))
        · exact .inl (Option.some.inj ht).symm
      | a :: b :: c :: d :: rest =>
        rw [getCardType] at ht
        · rw [if_pos (by simp only [List.length_cons] at hlarge ⊢; omega)] at ht
          exact .inl (Option.some.inj ht).symm
        all_goals simp
    rcases hsmall with rfl | rfl | rfl | rfl <;> exact ⟨(by simp), (by simp), (by simp)⟩

/-- In a sorted play whose blocks have one size every value comes as often. -/
theorem count_of_celled (hs : sortCardList mainValue cards = cards) (h : Celled cell cards)
    {v : ℕ} (hv : v ∈ cards.map getCardValue) : (cards.map getCardValue).count v = cell := by
  obtain ⟨c, hc, rfl⟩ := List.mem_map.1 hv
  rw [← flatten_blocks getCardValue cards] at hc
  obtain ⟨block, hblock, hmem⟩ := List.mem_flatten.1 hc
  rw [← h block hblock, ← filter_eq_of_mem_blocks_sorted hs hblock hmem,
    ← List.countP_eq_length_filter, List.count_eq_countP, List.countP_map]
  rfl

/-- **A sorted play of five or six cards that has a type** is a combination. -/
theorem Valued.combination_of_sorted (h : Valued cards) (hs : sortCardList mainValue cards = cards)
    (hlen : cards.length = 5 ∨ cards.length = 6) (ht : getCardType mainValue cards = some t)
    (hne : t ≠ .error) : Combination t cards := by
  rcases h.combination_or_slip (by omega) ht hne with hc | hslip
  · exact hc
  obtain ⟨hone, htwo, -⟩ := celled_of_type ht
  cases hslip with
  | outer a b hab hvalues =>
    have hthree := hvalues.length_eq
    simp only [List.length_map, List.length_cons, List.length_nil] at hthree
    omega
  | aces t htype hvalues =>
    have hcount := fun hmem => @count_of_celled mainValue cards 1 hs (hone htype) 1 hmem
    rcases hvalues with hvalues | hvalues
    · rw [hvalues.mem_iff, hvalues.count_eq] at hcount
      exact absurd (hcount (by decide)) (by decide)
    · rw [hvalues.mem_iff, hvalues.count_eq] at hcount
      exact absurd (hcount (by decide)) (by decide)
  | kings hvalues =>
    have hcount := fun hmem => @count_of_celled mainValue cards 2 hs (htwo rfl) 1 hmem
    rw [hvalues.mem_iff, hvalues.count_eq] at hcount
    exact absurd (hcount (by decide)) (by decide)

/-! ## Types that do -/

theorem length_flatten_row (hr : analysebCardData cards = some r) (k : Fin 10) :
    (r k).flatten.length = (r k).length * (k.val + 1) := by
  have hlen : ∀ block ∈ r k, block.length = k.val + 1 := fun block hblock => by
    rw [analysebCardData_eq hr, List.mem_filter] at hblock
    exact of_decide_eq_true hblock.2
  rw [List.length_flatten, List.map_congr_left hlen, List.map_const', List.sum_replicate_nat]

theorem sum_rows_le_length (hr : analysebCardData cards = some r) {rows : List (Fin 10)}
    (hrows : rows.Nodup) : (rows.map fun k => (r k).length * (k.val + 1)).sum ≤ cards.length := by
  have := sum_rows_le (blocks getCardValue cards) rows hrows
  simp only [← analysebCardData_eq hr, length_flatten_row hr, flatten_blocks] at this
  exact this

/-- **A card that stands alone** leaves no type, but where all of them do. -/
theorem error_of_lone {c : UInt8} (hlen : cards.length = 5 ∨ cards.length = 6)
    (hlone : [c] ∈ blocks getCardValue cards) (hfive : cards.length = 5 → ¬ Celled 1 cards) :
    getCardType mainValue cards = some .error := by
  obtain ⟨r, hr, ht⟩ := @exists_analysed mainValue cards (by omega) (by omega)
  have hmem : [c] ∈ r 0 := by
    rw [analysebCardData_eq hr, List.mem_filter]
    exact ⟨hlone, rfl⟩
  have hpos := List.length_pos_of_mem hmem
  have hsum : ∀ k : Fin 10, k ≠ 0 → (r 0).length + (r k).length * (k.val + 1) ≤ cards.length := by
    intro k hk
    simpa using sum_rows_le_length hr (show [0, k].Nodup by simpa using hk.symm)
  rw [ht]
  congr 1
  by_contra hne
  have hanalysed := analysed_analysedType r (sortCardList mainValue cards) cards.length
  generalize analysedType r (sortCardList mainValue cards) cards.length = t at hne hanalysed
  cases hanalysed with
  | bombTW hcount => omega
  | bomb hfour hten hone =>
    have hk : (Fin.ofNat 10 (cards.length - 1)).val = cards.length - 1 := by
      simp only [Fin.val_ofNat]
      omega
    have := hsum (Fin.ofNat 10 (cards.length - 1)) fun hzero => by
      rw [hzero] at hk
      simp only [Fin.isValue, Fin.val_zero] at hk
      omega
    rw [hone, hk] at this
    omega
  | singleLink hcount hall | tongHuaShun hcount hall =>
    exact hfive hcount (@celled_of_row _ r hr 0 (by rw [hall]; exact Nat.mul_one _))
  | doubleLink hcount hall =>
    have := hsum 1 (by decide)
    simp only [Fin.isValue, Fin.val_one] at this
    omega
  | threeLink hcount hall =>
    have := hsum 2 (by decide)
    simp only [Fin.isValue, Fin.val_two] at this
    omega
  | threeDouble hcount hdouble hthree =>
    have := sum_rows_le_length hr (show [(0 : Fin 10), 1, 2].Nodup by decide)
    simp [hdouble, hthree] at this
    omega
  | error => exact hne rfl

/-- Three cards of a value and two of another, one after the other. -/
theorem getCardType_of_full {a b : ℕ} (hne : a ≠ b) (h : cards.map getCardValue = [a, a, a, b, b]) :
    getCardType mainValue cards = some .threeDouble := by
  have hlt : ∀ v ∈ cards.map getCardValue, v < 16 := fun v hv => by
    obtain ⟨c, -, rfl⟩ := List.mem_map.1 hv
    have := getCardValue_le c
    omega
  have hplain : ∀ a < 16, ∀ b < 16, a ≠ b →
      getCardType 0 (plainCards [a, a, a, b, b]) = some .threeDouble := by decide +kernel
  rw [h] at hlt
  have htype := hplain a (hlt a (by simp)) b (hlt b (by simp)) hne
  have hcongr := @getCardType_congr mainValue 0 cards (plainCards [a, a, a, b, b])
    (.inl (by simpa using congrArg List.length h)) (by rw [h, map_plainCards hlt])
  rw [htype] at hcongr
  obtain ⟨t, ht, hplain⟩ := Option.map_eq_some_iff.1 hcongr
  rw [ht]
  cases t <;> first | rfl | cases hplain

/-- The values of a sorted play are those of its cards in sorted order. -/
theorem values_sortCardList
    (hs : order.Pairwise fun a b => getCardLogicValue mainValue b ≤ getCardLogicValue mainValue a)
    (h : (cards.map getCardValue).Perm (order.map getCardValue)) :
    (sortCardList mainValue cards).map getCardValue = order.map getCardValue := by
  let logic : ℕ → ℕ := fun v => getCardLogicValue mainValue (UInt8.ofNat v)
  have hvalue : ∀ v < 16, getCardValue (UInt8.ofNat v) = v := by decide
  have hlogic : ∀ l : List UInt8, l.map (getCardLogicValue mainValue) = (l.map getCardValue).map logic := by
    intro l
    rw [List.map_map]
    refine List.map_congr_left fun c _ => (logicValue_inj mainValue _ _).2 ?_
    exact (hvalue _ (by have := getCardValue_le c; omega)).symm
  have hinj : ∀ l l' : List UInt8, l.map (getCardLogicValue mainValue) =
      l'.map (getCardLogicValue mainValue) → l.map getCardValue = l'.map getCardValue := by
    intro l
    induction l with
    | nil =>
      intro l' h
      rw [List.map_eq_nil_iff.1 h.symm]
    | cons a l ih =>
      intro l' h
      obtain ⟨b, rest, rfl, hab, hrest⟩ := List.map_eq_cons_iff.1 h.symm
      rw [List.map_cons, List.map_cons, ih rest hrest.symm, (logicValue_inj mainValue a b).1 hab.symm]
  refine hinj _ _ (List.Perm.eq_of_pairwise (fun _ _ _ _ hab hba => le_antisymm hba hab)
    (List.pairwise_map.2 (pairwise_sortBy _ cards)) (List.pairwise_map.2 hs) ?_)
  have hsort : (sortCardList mainValue cards).Perm cards := sortBy_perm _ cards
  refine (hsort.map _).trans ?_
  rw [hlogic, hlogic]
  exact h.map logic

def valuesByCount (vs : List ℕ) : List ℕ :=
  (List.finRange 10).reverse.flatMap fun k =>
    ((blocks id vs).filter fun block => block.length = k.val + 1).flatten

theorem values_sortByCount (h : sortByCount mainValue cards = some sorted) :
    sorted.map getCardValue = valuesByCount ((sortCardList mainValue cards).map getCardValue) := by
  obtain ⟨r, hr, rfl⟩ := Option.map_eq_some_iff.1 h
  rw [List.map_flatMap, valuesByCount]
  refine List.flatMap_congr fun k _ => ?_
  rw [List.map_flatten, row_values hr]

/-- Three cards of a value and two of another, sorted by their number, are a
three with a pair. -/
theorem getCardType_of_sortByCount {a b : ℕ} (hne : a ≠ b)
    (h : (cards.map getCardValue).Perm [a, a, a, b, b])
    (hsort : sortByCount mainValue cards = some sorted) :
    getCardType mainValue sorted = some .threeDouble := by
  have hlt : ∀ v ∈ [a, a, a, b, b], v < 16 := fun v hv => by
    obtain ⟨c, -, rfl⟩ := List.mem_map.1 (h.symm.subset hv)
    have := getCardValue_le c
    omega
  have hcount : ∀ a < 16, ∀ b < 16, a ≠ b → valuesByCount [a, a, a, b, b] = [a, a, a, b, b] ∧
      valuesByCount [b, b, a, a, a] = [a, a, a, b, b] := by decide +kernel
  obtain ⟨hfirst, hlast⟩ := hcount a (hlt a (by simp)) b (hlt b (by simp)) hne
  refine getCardType_of_full hne ?_
  rw [values_sortByCount hsort]
  -- the greater of the two values comes first
  rcases Nat.le_total (getCardLogicValue mainValue (UInt8.ofNat b))
    (getCardLogicValue mainValue (UInt8.ofNat a)) with hle | hle
  · have hplain := map_plainCards hlt
    rw [values_sortCardList (by simp [plainCards, hle]) (h.trans (.of_eq hplain.symm)), hplain, hfirst]
  · have hplain : (plainCards [b, b, a, a, a]).map getCardValue = [b, b, a, a, a] :=
      map_plainCards fun v hv => hlt v (by
        simp only [List.mem_cons, List.not_mem_nil, or_false] at hv ⊢
        tauto)
    have hswap : [a, a, a, b, b].Perm [b, b, a, a, a] :=
      (List.perm_append_comm : ([a, a, a] ++ [b, b]).Perm ([b, b] ++ [a, a, a]))
    rw [values_sortCardList (by simp [plainCards, hle]) ((h.trans hswap).trans (.of_eq hplain.symm)),
      hplain, hlast]

end GameServer.GuanDan
