import GameServer.GuanDan.Model.QuitRequest
import GameServer.GuanDan.Beating
/-!
# Guandan — indices stay in their arrays

The analysis of a play stays in its arrays when the play fits
(`PlayFits`): no more than 28 cards, no more than ten of a value in a row,
and bytes that are cards where wild cards may fill a line. A request to
quit has to name one of the four chairs. In a run whose messages all fit no
index leaves its array (`run_stays_in_arrays`). None of this is checked: a
play of 29 cards, eleven bytes of a value, and a request of chair 4 each
write behind an array (`message_leaves_arrays`).
-/

namespace GameServer.GuanDan

variable {mainValue : ℕ} {cards first next : List UInt8}

/-! ## The analysis -/

/-- The rows have room for the runs that are left. -/
theorem analyseRuns_isSome : ∀ (runs : List (List UInt8)) (result : AnalyseResult),
    (∀ run ∈ runs, run ≠ [] ∧ run.length ≤ 10) →
    (∀ k : Fin 10, (result k).length * (k.val + 1) + runs.flatten.length ≤ maxCount) →
    (analyseRuns runs result).isSome
  | [], _, _, _ => rfl
  | run :: runs, result, hruns, hroom => by
    obtain ⟨⟨hne, hlen⟩, hrest⟩ := List.forall_mem_cons.1 hruns
    have hpos := List.length_pos_iff.2 hne
    have hk : (Fin.ofNat 10 (run.length - 1)).val + 1 = run.length := by
      simp only [Fin.val_ofNat]
      omega
    have hrow := hroom (Fin.ofNat 10 (run.length - 1))
    rw [hk, List.flatten_cons, List.length_append] at hrow
    rw [analyseRuns, if_neg (by omega)]
    dsimp only
    rw [if_neg (by omega)]
    refine analyseRuns_isSome runs _ hrest fun k => ?_
    have := hroom k
    rw [List.flatten_cons, List.length_append] at this
    by_cases h : k = Fin.ofNat 10 (run.length - 1)
    · rw [h, Function.update_self, List.length_append, List.length_singleton, hk, Nat.succ_mul]
      rw [h, hk] at this
      omega
    · rw [Function.update_of_ne h]
      omega

theorem length_le_of_analyseRuns : ∀ (runs : List (List UInt8)) (result last : AnalyseResult),
    analyseRuns runs result = some last → ∀ run ∈ runs, run.length ≤ 10
  | [], _, _, _ => nofun
  | run :: runs, result, last, h => by
    rw [analyseRuns] at h
    dsimp only at h
    split_ifs at h with hlong
    exact List.forall_mem_cons.2 ⟨by omega, length_le_of_analyseRuns runs _ last h⟩

/-- **When the analysis stays in its rows.** -/
theorem analysebCardData_isSome_iff (hlen : cards.length ≤ maxCount) :
    (analysebCardData cards).isSome ↔ ∀ block ∈ blocks getCardValue cards, block.length ≤ 10 := by
  constructor
  · intro h
    obtain ⟨r, hr⟩ := Option.isSome_iff_exists.1 h
    exact length_le_of_analyseRuns _ _ r hr
  · intro h
    refine analyseRuns_isSome (blocks getCardValue cards) _
      (fun run hrun => ⟨ne_nil_of_mem_blocks hrun, h run hrun⟩) fun k => ?_
    rw [flatten_blocks]
    simpa using hlen

/-- Whether the type is found does not depend on the main value. -/
theorem getCardType_isSome_congr (mainValue' : ℕ) (h : (getCardType mainValue cards).isSome) :
    (getCardType mainValue' cards).isSome := by
  match cards with
  | [] | [_] | [_, _] | [_, _, _] => rfl
  | a :: b :: c :: d :: rest =>
    rw [getCardType] at h ⊢
    · split_ifs at h ⊢
      · rfl
      · rwa [Option.isSome_map] at h ⊢
    all_goals simp

theorem getCardType_isSome (hlen : cards.length ≤ maxCount)
    (hblocks : ∀ block ∈ blocks getCardValue cards, block.length ≤ 10) :
    (getCardType mainValue cards).isSome := by
  match cards with
  | [] | [_] | [_, _] | [_, _, _] => rfl
  | a :: b :: c :: d :: rest =>
    rw [getCardType]
    · rw [if_neg (not_lt.2 hlen), Option.isSome_map]
      exact (analysebCardData_isSome_iff hlen).2 hblocks
    all_goals simp

theorem analysed_of_threeDouble (h : getCardType mainValue cards = some .threeDouble) :
    (analysebCardData cards).isSome := by
  match cards with
  | [] | [_] => cases h
  | [a, b] =>
    rw [getCardType] at h
    split_ifs at h <;> cases h
  | [a, b, c] =>
    rw [getCardType] at h
    split_ifs at h <;> cases h
  | a :: b :: c :: d :: rest =>
    rw [getCardType] at h
    · split_ifs at h
      · cases h
      · obtain ⟨r, hr, -⟩ := Option.map_eq_some_iff.1 h
        rw [hr]
        rfl
    all_goals simp

/-- Two plays that have types are compared without a fault. -/
theorem compareCard_isSome (hfirst : (getCardType mainValue first).isSome)
    (hnext : (getCardType mainValue next).isSome) : (compareCard mainValue first next).isSome := by
  obtain ⟨firstType, hfirst⟩ := Option.isSome_iff_exists.1 hfirst
  obtain ⟨nextType, hnext⟩ := Option.isSome_iff_exists.1 hnext
  rw [compareCard, hfirst, hnext]
  simp only [Option.bind_eq_bind, Option.bind_some]
  split_ifs <;> try rfl
  rename_i htype
  rw [not_not] at htype
  split <;> try rfl
  obtain ⟨r, hr⟩ := Option.isSome_iff_exists.1 (analysed_of_threeDouble hfirst)
  obtain ⟨r', hr'⟩ := Option.isSome_iff_exists.1 (analysed_of_threeDouble (htype ▸ hnext))
  rw [hr, hr']
  rfl

/-! ## Lines of wild cards -/

/-- The cards at an index that are put into a line: those of the first four
colours. -/
def placedCount (normal : List UInt8) (index : ℕ) : ℕ :=
  normal.countP fun c => c ≠ 0 ∧ getCardValue c = index + 1 ∧ (getCardColor c >>> 4).toNat < 4

theorem sum_columns (A : Prop) [Decidable A] (column a b c d : ℕ) :
    (a + if A ∧ column = 0 then 1 else 0) + (b + if A ∧ column = 1 then 1 else 0) +
      (c + if A ∧ column = 2 then 1 else 0) + (d + if A ∧ column = 3 then 1 else 0) =
    a + b + c + d + if A ∧ column < 4 then 1 else 0 := by
  by_cases hA : A
  · simp only [hA, true_and]
    split_ifs <;> omega
  · simp only [hA, false_and, if_false]
    omega

theorem length_placed (normal : List UInt8) (index : ℕ) :
    ((List.range 4).flatMap fun j => List.replicate (distributing normal index j)
      (makeCardData (index + 1) (UInt8.ofNat j))).length = placedCount normal index := by
  have hcolumn : ∀ (l : List UInt8) (j : ℕ), j < 4 → distributing l index j = l.countP fun c =>
      (c ≠ 0 ∧ getCardValue c = index + 1) ∧ (getCardColor c >>> 4).toNat = j := fun l j hj => by
    rw [distributing, if_neg (by omega)]
    simp only [and_assoc]
  have hsum : ∀ l : List UInt8, distributing l index 0 + distributing l index 1 +
      distributing l index 2 + distributing l index 3 = placedCount l index := by
    intro l
    rw [hcolumn l 0 (by omega), hcolumn l 1 (by omega), hcolumn l 2 (by omega),
      hcolumn l 3 (by omega), placedCount]
    simp only [← and_assoc]
    induction l with
    | nil => rfl
    | cons c l ih =>
      simp only [List.countP_cons, decide_eq_true_eq]
      rw [← ih]
      exact sum_columns _ _ _ _ _ _
  rw [← hsum]
  simp [List.range_succ, Nat.add_assoc]

theorem placedCount_cons_le (c : UInt8) (normal : List UInt8) (i : ℕ) :
    placedCount (c :: normal) i ≤
      placedCount normal i + if getCardValue c = i + 1 then 1 else 0 := by
  rw [placedCount, List.countP_cons, placedCount]
  simp only [decide_eq_true_eq]
  split_ifs <;> tauto

/-- Every card is put into at most two places of a line, an ace into two. -/
theorem sum_placedCount_le (idxs : List ℕ) (hidxs : ∀ v ≤ 15, idxs.countP (fun i => v = i + 1) ≤ 2)
    (normal : List UInt8) : (idxs.map (placedCount normal)).sum ≤ 2 * normal.length := by
  induction normal with
  | nil =>
    have hzero : placedCount [] = fun _ => 0 := rfl
    simp [hzero]
  | cons c normal ih =>
    have hcons : ∀ idxs : List ℕ, (idxs.map (placedCount (c :: normal))).sum ≤
        (idxs.map (placedCount normal)).sum + idxs.countP fun i => getCardValue c = i + 1 := by
      intro idxs
      induction idxs with
      | nil => rfl
      | cons i idxs ih =>
        have := placedCount_cons_le c normal i
        simp only [List.map_cons, List.sum_cons, List.countP_cons, decide_eq_true_eq]
        omega
    have htwo := hidxs _ (getCardValue_le c)
    have := hcons idxs
    rw [List.length_cons]
    omega

/-- How far a line is filled, when it takes at most one card a rank. -/
theorem length_fillLine_of_one (normal : List UInt8) : ∀ (idxs : List ℕ) (f : Filling),
    (fillLine normal 1 idxs f).result.length ≤
      f.result.length + (idxs.map (placedCount normal)).sum + idxs.length
  | [], f => Nat.le_refl _
  | i :: idxs, f => by
    rw [fillLine]
    split_ifs
    · simp only [List.map_cons, List.sum_cons, List.length_cons]
      omega
    · refine (length_fillLine_of_one normal idxs _).trans ?_
      simp only [List.length_append, length_placed, List.length_replicate, List.map_cons,
        List.sum_cons, List.length_cons]
      omega
    · refine (length_fillLine_of_one normal idxs f).trans ?_
      simp only [List.map_cons, List.sum_cons, List.length_cons]
      omega

/-- How far a line is filled, when every card counted at an index is put
there: no more wild cards are used than there are. -/
theorem length_fillLine_of_placed (normal : List UInt8) (maxSame : ℕ) :
    ∀ (idxs : List ℕ) (f : Filling), (∀ i ∈ idxs, distributing normal i 5 = placedCount normal i) →
      f.useable < 256 → (fillLine normal maxSame idxs f).result.length ≤
        f.result.length + (idxs.map (placedCount normal)).sum + f.useable
  | [], f, _, _ => by simp [fillLine]
  | i :: idxs, f, hplaced, huse => by
    obtain ⟨hi, hrest⟩ := List.forall_mem_cons.1 hplaced
    rw [fillLine]
    split_ifs with _ hshort
    · simp only [List.map_cons, List.sum_cons]
      omega
    · rw [hi] at hshort
      refine (length_fillLine_of_placed normal maxSame idxs _ hrest ?_).trans ?_
      · exact Nat.mod_lt _ (by omega)
      · simp only [List.length_append, length_placed, List.length_replicate, List.map_cons,
          List.sum_cons]
        omega
    · refine (length_fillLine_of_placed normal maxSame idxs f hrest huse).trans ?_
      simp only [List.map_cons, List.sum_cons]
      omega

/-! ## Plays that fit -/

/-- A wild card: a heart of the main value. -/
def IsMagic (mainValue : ℕ) (c : UInt8) : Prop :=
  getCardValue c = mainValue ∧ getCardColor c = 0x20

instance (mainValue : ℕ) (c : UInt8) : Decidable (IsMagic mainValue c) :=
  inferInstanceAs (Decidable (_ ∧ _))

def others (mainValue : ℕ) (cards : List UInt8) : List UInt8 :=
  cards.filter fun c => ¬ IsMagic mainValue c

/-- Wild cards with cards of one value that is no joker's. -/
def Uniform (mainValue : ℕ) (cards : List UInt8) : Prop :=
  (∃ c ∈ cards, IsMagic mainValue c) ∧ others mainValue cards ≠ [] ∧
    getCardLogicValue mainValue ((others mainValue cards).headD 0) ≤ 15 ∧
    ∀ c ∈ others mainValue cards, getCardLogicValue mainValue c =
      getCardLogicValue mainValue ((others mainValue cards).headD 0)

/-- **A play that fits into the arrays**: no more cards than a hand, no more
than ten of a value in a row, and in five or six cards that wild cards may
make a line of, bytes with a value and a colour, up to the king in six
cards one of the four. -/
structure PlayFits (mainValue : ℕ) (cards : List UInt8) : Prop where
  count_le : cards.length ≤ maxCount
  uniform : Uniform mainValue cards → cards.length ≤ 10
  rows : ¬ Uniform mainValue cards → ∀ block ∈ blocks getCardValue cards, block.length ≤ 10
  line : (∃ c ∈ cards, IsMagic mainValue c) → ¬ Uniform mainValue cards →
    cards.length = 5 ∨ cards.length = 6 → ∀ c ∈ others mainValue cards, c ≠ 0 →
      getCardValue c ≠ 0 ∧ getCardColor c < 0x60 ∧
        (cards.length = 6 → getCardValue c ≤ 13 → getCardColor c < 0x40)

theorem getCardType_isSome_of_ten (hlen : cards.length ≤ 10) :
    (getCardType mainValue cards).isSome := by
  have hmax : maxCount = 28 := rfl
  refine getCardType_isSome (by omega) fun block hblock => ?_
  have hsub : block.Sublist (blocks getCardValue cards).flatten :=
    List.sublist_flatten_of_mem hblock
  rw [flatten_blocks] at hsub
  exact hsub.length_le.trans hlen

theorem length_others (mainValue : ℕ) (cards : List UInt8) : (others mainValue cards).length +
    (cards.countP fun c => IsMagic mainValue c) = cards.length := by
  have hsplit := List.length_eq_countP_add_countP (l := cards) fun c => IsMagic mainValue c
  simp only [decide_eq_true_eq] at hsplit
  rw [others, ← List.countP_eq_length_filter, hsplit, Nat.add_comm]

theorem length_threeDoubleValues (mainValue : ℕ) (head tail : UInt8)
    (headCount tailCount magicCount : ℕ) :
    (threeDoubleValues mainValue head tail headCount tailCount magicCount).length = magicCount := by
  unfold threeDoubleValues
  dsimp only
  split_ifs <;> simp_all

/-- The rows hold no more than all cards. -/
theorem sum_rows_le (bs : List (List UInt8)) (rows : List (Fin 10)) (hrows : rows.Nodup) :
    (rows.map fun k => (bs.filter fun b => b.length = k.val + 1).flatten.length).sum ≤
      bs.flatten.length := by
  induction bs with
  | nil => simp
  | cons b bs ih =>
    have hcons : ∀ rows : List (Fin 10),
        (rows.map fun k => ((b :: bs).filter fun b => b.length = k.val + 1).flatten.length).sum =
          (rows.map fun k => (bs.filter fun b => b.length = k.val + 1).flatten.length).sum +
            (rows.countP fun k => b.length = k.val + 1) * b.length := by
      intro rows
      induction rows with
      | nil => simp
      | cons k rows ih =>
        rw [List.map_cons, List.sum_cons, ih, List.map_cons, List.sum_cons, List.countP_cons,
          List.filter_cons]
        split_ifs with hk
        · rw [List.flatten_cons, List.length_append, Nat.succ_mul]
          omega
        · simp only [Nat.add_zero]
          omega
    have hone : (rows.countP fun k => b.length = k.val + 1) ≤ 1 := by
      have hrow : (rows.countP fun k => b.length = k.val + 1) ≤
          rows.count (Fin.ofNat 10 (b.length - 1)) :=
        List.countP_mono_left fun k _ hk => by
          have hval := k.isLt
          have hlen := of_decide_eq_true hk
          refine beq_iff_eq.2 (Fin.ext ?_)
          simp only [Fin.val_ofNat]
          omega
      exact hrow.trans (List.nodup_iff_count_le_one.1 hrows _)
    rw [hcons, List.flatten_cons, List.length_append]
    have := Nat.mul_le_mul_right b.length hone
    omega

/-- A play sorted by the size of its blocks is no longer than before. -/
theorem sortByCount_spec (hlen : cards.length ≤ 10) : ∃ sorted,
    sortByCount mainValue cards = some sorted ∧ sorted.length ≤ cards.length := by
  have hmax : maxCount = 28 := rfl
  have hsort := sortBy_perm (getCardLogicValue mainValue) cards
  have hsome : (analysebCardData (sortCardList mainValue cards)).isSome := by
    refine (analysebCardData_isSome_iff (hsort.length_eq.trans_le (by omega))).2 fun block hblock => ?_
    have hsub : block.Sublist (blocks getCardValue (sortCardList mainValue cards)).flatten :=
      List.sublist_flatten_of_mem hblock
    rw [flatten_blocks] at hsub
    exact hsub.length_le.trans (hsort.length_eq.trans_le hlen)
  obtain ⟨r, hr⟩ := Option.isSome_iff_exists.1 hsome
  refine ⟨_, by rw [sortByCount, hr]; rfl, ?_⟩
  have hrows : (fun k => (r k).flatten.length) = fun k : Fin 10 =>
      ((blocks getCardValue (sortCardList mainValue cards)).filter
        fun b => b.length = k.val + 1).flatten.length :=
    funext fun k => by rw [analysebCardData_eq hr]
  rw [List.length_flatMap, hrows]
  refine (sum_rows_le _ _ (List.nodup_reverse.2 (List.nodup_finRange 10))).trans ?_
  rw [flatten_blocks]
  exact hsort.length_eq.le

/-- Where the colours are those of the decks, a card that is counted is
placed. -/
theorem distributing_eq {normal : List UInt8} {i : ℕ} (hi : i < 13)
    (hcolor : ∀ c ∈ normal, c ≠ 0 → getCardValue c ≤ 13 → getCardColor c < 0x40) :
    distributing normal i 5 = placedCount normal i := by
  have hcol : ∀ c ∈ normal, c ≠ 0 → getCardValue c = i + 1 → (getCardColor c >>> 4).toNat < 4 := by
    intro c hc hzero hvalue
    have hlt := UInt8.lt_iff_toNat_lt.1 (hcolor c hc hzero (by omega))
    rw [UInt8.toNat_shiftRight, Nat.shiftRight_eq_div_pow]
    exact Nat.div_lt_of_lt_mul hlt
  have hnone : (normal.countP fun c =>
      c ≠ 0 ∧ getCardValue c = i + 1 ∧ (getCardColor c >>> 4).toNat = 5) = 0 := by
    refine List.countP_eq_zero.2 fun c hc h => ?_
    obtain ⟨hzero, hvalue, hfive⟩ := of_decide_eq_true h
    have := hcol c hc hzero hvalue
    omega
  rw [distributing, if_pos rfl, hnone, Nat.zero_add, placedCount]
  refine List.countP_congr fun c hc => ?_
  simp only [decide_eq_true_eq]
  exact ⟨fun h => ⟨h.1, h.2, hcol c hc h.1 h.2⟩, fun h => ⟨h.1, h.2.1⟩⟩

/-- **A line stays in the result.** -/
theorem fillLines_spec {normal : List UInt8} {magicCount maxSame : ℕ}
    (hcount : normal.length + magicCount ≤ 6) (hsame : maxSame = 1 ∨
      ∀ c ∈ normal, c ≠ 0 → getCardValue c ≤ 13 → getCardColor c < 0x40) :
    ∃ line, fillLines mainValue normal magicCount maxSame = some line ∧
      ∀ cards ∈ line, cards.length ≤ 10 := by
  have hmax : maxCount = 28 := rfl
  have hbound : ∀ idxs : List ℕ, idxs.length = 14 → (∀ i ∈ idxs, i < 13) →
      (∀ v ≤ 15, idxs.countP (fun i => v = i + 1) ≤ 2) →
      (fillLine normal maxSame idxs { result := [], leave := normal.length, useable := magicCount
        }).result.length ≤ maxCount := by
    intro idxs hlen hlt htwo
    have hsum := sum_placedCount_le idxs htwo normal
    rcases hsame with rfl | hcolor
    · refine (length_fillLine_of_one normal idxs _).trans ?_
      simp only [List.length_nil]
      omega
    · refine (length_fillLine_of_placed normal maxSame idxs _
        (fun i hi => distributing_eq (hlt i hi) hcolor) (by dsimp only; omega)).trans ?_
      simp only [List.length_nil]
      omega
  have hup := hbound ((List.range 14).map (· % 13)) (by decide) (by decide) (by decide)
  have hdown := hbound ((List.range 14).map fun i => (13 - i) % 13) (by decide) (by decide) (by decide)
  have hsorted : ∀ cards : List UInt8,
      (sortCardList mainValue (cards.take (normal.length + magicCount))).length ≤ 10 := fun cards => by
    rw [(show (sortCardList mainValue (cards.take (normal.length + magicCount))).Perm _ from
      sortBy_perm _ _).length_eq]
    exact (List.length_take_le _ _).trans (by omega)
  unfold fillLines
  dsimp only
  rw [if_neg (not_lt.2 hup)]
  split_ifs
  · exact ⟨_, rfl, fun cards hcards => by cases hcards; exact hsorted _⟩
  · omega
  · exact ⟨_, rfl, fun cards hcards => by cases hcards; exact hsorted _⟩
  · exact ⟨_, rfl, nofun⟩

/-- The lines of `MagicCardData` over a play that has none of the other
shapes. -/
def magicLine (mainValue : ℕ) (cards : List UInt8) (maxSame : ℕ) : Option (List UInt8) :=
  if (maxSame = 1 ∧ cards.length = 5) ∨ ((maxSame = 2 ∨ maxSame = 3) ∧ cards.length = 6) then
    if ∃ c ∈ others mainValue cards, c ≠ 0 ∧ (getCardValue c = 0 ∨ 0x60 ≤ getCardColor c) then none
    else (fillLines mainValue (others mainValue cards) (cards.countP fun c => IsMagic mainValue c)
      maxSame).map (·.getD cards)
  else some cards

theorem magicCardData_eq (mainValue : ℕ) (cards : List UInt8) : magicCardData mainValue cards =
    if maxCount < cards.length then none
    else if (cards.countP fun c => IsMagic mainValue c) = 0 ∨ others mainValue cards = [] then
      some cards
    else if getCardLogicValue mainValue ((others mainValue cards).headD 0) ≤ 15 ∧
        ∀ c ∈ others mainValue cards, getCardLogicValue mainValue c =
          getCardLogicValue mainValue ((others mainValue cards).headD 0) then
      some (List.replicate (cards.countP fun c => IsMagic mainValue c)
        ((others mainValue cards).headD 0) ++ others mainValue cards)
    else
      let maxSame := maxSameCount mainValue 1
        (getCardLogicValue mainValue ((others mainValue cards).headD 0))
          ((others mainValue cards).drop 1)
      match (if cards.length = 5 ∧ maxSame ≤ 3 then threeDouble mainValue (others mainValue cards)
          (cards.countP fun c => IsMagic mainValue c) else some none) with
      | none => none
      | some (some result) => some result
      | some none => magicLine mainValue cards maxSame := rfl

/-- The three with a pair is found without a fault. -/
theorem threeDouble_spec {normal : List UInt8} {magicCount : ℕ}
    (hcount : normal.length + magicCount ≤ 10) :
    ∃ result, threeDouble mainValue normal magicCount = some result ∧
      ∀ cards ∈ result, cards.length ≤ 10 := by
  unfold threeDouble
  dsimp only
  split_ifs
  · generalize hvalues : threeDoubleValues mainValue _ _ _ _ magicCount = values
    have hlen : values.length = magicCount := by rw [← hvalues, length_threeDoubleValues]
    have hlength : (normal ++ values.map (makeCardData · 0)).length ≤ 10 := by
      rw [List.length_append, List.length_map, hlen]
      exact hcount
    obtain ⟨sorted, hsorted, hle⟩ := @sortByCount_spec mainValue _ hlength
    rw [hsorted]
    exact ⟨_, rfl, fun cards hcards => by cases hcards; exact hle.trans hlength⟩
  · exact ⟨none, rfl, nofun⟩

/-- **A play that fits is analysed**: its wild cards become something, and
that has a type. -/
theorem PlayFits.magicCardData (h : PlayFits mainValue cards) : ∃ magic,
    magicCardData mainValue cards = some magic ∧ (getCardType mainValue magic).isSome := by
  have hlength := length_others mainValue cards
  have hraw : ¬ Uniform mainValue cards → (getCardType mainValue cards).isSome := fun hnot =>
    getCardType_isSome h.count_le (h.rows hnot)
  have hmagic : (∃ c ∈ cards, IsMagic mainValue c) ↔
      (cards.countP fun c => IsMagic mainValue c) ≠ 0 := by
    rw [← Nat.pos_iff_ne_zero, List.countP_pos_iff]
    simp
  rw [magicCardData_eq, if_neg (not_lt.2 h.count_le)]
  by_cases hnone : (cards.countP fun c => IsMagic mainValue c) = 0 ∨ others mainValue cards = []
  · rw [if_pos hnone]
    refine ⟨cards, rfl, hraw fun hu => ?_⟩
    rcases hnone with hzero | hnil
    · exact hmagic.1 hu.1 hzero
    · exact hu.2.1 hnil
  rw [if_neg hnone]
  push Not at hnone
  by_cases huniform : getCardLogicValue mainValue ((others mainValue cards).headD 0) ≤ 15 ∧
      ∀ c ∈ others mainValue cards, getCardLogicValue mainValue c =
        getCardLogicValue mainValue ((others mainValue cards).headD 0)
  · have hten := h.uniform ⟨hmagic.2 hnone.1, hnone.2, huniform⟩
    rw [if_pos huniform]
    refine ⟨_, rfl, getCardType_isSome_of_ten ?_⟩
    rw [List.length_append, List.length_replicate]
    omega
  rw [if_neg huniform]
  have hnot : ¬ Uniform mainValue cards := fun hu => huniform hu.2.2
  have hline := h.line (hmagic.2 hnone.1) hnot
  dsimp only
  generalize maxSameCount mainValue 1 _ _ = maxSame
  have hthree : ∃ result, (if cards.length = 5 ∧ maxSame ≤ 3 then
      threeDouble mainValue (others mainValue cards) (cards.countP fun c => IsMagic mainValue c)
        else some none) = some result ∧ ∀ cards ∈ result, cards.length ≤ 10 := by
    split_ifs with hfive
    · exact threeDouble_spec (by omega)
    · exact ⟨none, rfl, nofun⟩
  obtain ⟨result, hresult, hten⟩ := hthree
  rw [hresult]
  cases result with
  | some result => exact ⟨result, rfl, getCardType_isSome_of_ten (hten result rfl)⟩
  | none =>
    unfold magicLine
    dsimp only
    split_ifs with hlinked hbad
    · obtain ⟨c, hc, hzero, hvalue | hcolor⟩ := hbad
      · exact absurd hvalue (hline (by omega) c hc hzero).1
      · exact absurd (hline (by omega) c hc hzero).2.1 (UInt8.not_lt.2 hcolor)
    · have hsame : maxSame = 1 ∨ ∀ c ∈ others mainValue cards, c ≠ 0 → getCardValue c ≤ 13 →
          getCardColor c < 0x40 := by
        by_cases hone : maxSame = 1
        · exact .inl hone
        · exact .inr fun c hc hzero => (hline (by omega) c hc hzero).2.2 (by omega)
      obtain ⟨line, hfill, hlen⟩ := @fillLines_spec mainValue (others mainValue cards)
        (cards.countP fun c => IsMagic mainValue c) maxSame (by omega) hsame
      rw [hfill]
      cases line with
      | none => exact ⟨cards, rfl, hraw hnot⟩
      | some line => exact ⟨line, rfl, getCardType_isSome_of_ten (hlen line rfl)⟩
    · exact ⟨cards, rfl, hraw hnot⟩

/-! ## The play on the table -/

namespace TableSink

variable {s s' t : TableSink} {l : HandLog} {chair : Chair} {magic : List UInt8}
  {out : List Output} {scores : Chair → ℤ}

/-- The play on the table has a type, and between two hands nobody holds
cards. -/
structure Kept (s : TableSink) : Prop where
  typed : (getCardType 0 s.magicCardData).isSome
  free : s.gameStatus = .free → ∀ i, s.handCardCount i = 0

theorem Kept.legalPlay (hs : s.Kept) (h : PlayFits s.mainValue cards) : s.legalPlay cards ≠ none := by
  obtain ⟨magic, hmagic, htype⟩ := h.magicCardData
  obtain ⟨cardType, hcardType⟩ := Option.isSome_iff_exists.1 htype
  obtain ⟨beats, hbeats⟩ := Option.isSome_iff_exists.1
    (compareCard_isSome (getCardType_isSome_congr s.mainValue hs.typed) htype)
  simp only [TableSink.legalPlay, hmagic, hcardType, hbeats, Option.bind_eq_bind, Option.bind_some]
  split_ifs <;> simp

theorem typed_of_legalPlay (h : s.legalPlay cards = some (some magic)) :
    (getCardType 0 magic).isSome := by
  simp only [TableSink.legalPlay, Option.bind_eq_bind, Option.bind_eq_some_iff] at h
  obtain ⟨m, -, cardType, htype, h⟩ := h
  have hm : (getCardType 0 m).isSome := getCardType_isSome_congr 0 (by rw [htype]; rfl)
  split_ifs at h
  · cases h
  · cases h
    exact hm
  · obtain ⟨beats, -, h⟩ := Option.bind_eq_some_iff.1 h
    split_ifs at h
    · cases h
      exact hm
    · cases h

theorem Kept.of_frame (hs : s.Kept) (hmagic : t.magicCardData = s.magicCardData ∨ t.magicCardData = [])
    (hfree : t.gameStatus ≠ .free) : t.Kept := by
  refine ⟨?_, fun h => absurd h hfree⟩
  obtain h | h := hmagic
  · rw [h]
    exact hs.typed
  · rw [h]
    rfl

theorem kept_conclude {reason : EndReason}
    (h : s.onEventGameConclude reason scores = some (t, out)) : t.Kept := by
  simp only [onEventGameConclude] at h
  split_ifs at h
  cases reason with
  | normal =>
    cases h
    exact ⟨rfl, fun _ _ => rfl⟩
  | dismiss =>
    cases h
    exact ⟨rfl, fun _ _ => rfl⟩
  | userLeave =>
    cases h
    exact ⟨rfl, fun _ _ => rfl⟩

theorem magicCardData_onGameStart (rand : ℕ) (s : TableSink) :
    (s.onGameStart rand).1.magicCardData = s.magicCardData ∧
      (s.onGameStart rand).1.gameStatus ≠ .free := by
  rw [onGameStart]
  dsimp only
  split
  · exact ⟨rfl, (by rintro ⟨⟩)⟩
  · split_ifs
    · exact ⟨rfl, (by rintro ⟨⟩)⟩
    · exact ⟨rfl, (by rintro ⟨⟩)⟩

/-- **A play message** leaves a play with a type. -/
theorem Kept.onSubOutCard (hs : s.Kept) (h : s.onSubOutCard chair cards scores = some (s', out)) :
    s'.Kept := by
  rw [TableSink.onSubOutCard] at h
  cases hplay : s.outCard chair cards with
  | none => simp [hplay] at h
  | some result =>
    cases result with
    | none =>
      simp only [hplay] at h
      cases h
      exact hs
    | some r =>
      obtain ⟨t, first⟩ := r
      obtain ⟨hstatus, -, magic, u, rest, hlegal, htake, -, -, htstatus, htmagic, -⟩ :=
        outCard_some hplay
      obtain ⟨data, -, rfl⟩ := Option.map_eq_some_iff.1 htake
      have ht : t.Kept := by
        refine ⟨?_, fun h => ?_⟩
        · rw [htmagic]
          exact typed_of_legalPlay hlegal
        · exact absurd ((hstatus.symm.trans htstatus.symm).trans h) (by simp)
      simp only [hplay] at h
      cases huser : t.currentUser with
      | none =>
        simp only [huser] at h
        obtain ⟨⟨u, rest⟩, hend, h⟩ := Option.map_eq_some_iff.1 h
        cases h
        exact kept_conclude hend
      | some user =>
        simp only [huser] at h
        cases h
        exact ⟨ht.typed, ht.free⟩

theorem magicCardData_passFriend (s : TableSink) :
    s.passFriend.magicCardData = s.magicCardData ∨ s.passFriend.magicCardData = [] := by
  rw [passFriend]
  split_ifs
  · exact Or.inl rfl
  · exact Or.inr rfl
  · exact Or.inl rfl

theorem Kept.onSubPassCard (hs : s.Kept) {chair : Option Chair}
    (h : s.onSubPassCard chair = some (s', out)) : s'.Kept := by
  obtain ⟨-, -, rfl | ⟨-, hstatus⟩, -⟩ := onSubPassCard_frame h
  · exact hs
  refine hs.of_frame ?_ (by rw [hstatus]; nofun)
  rw [TableSink.onSubPassCard] at h
  by_cases hnot : s.gameStatus ≠ .playing ∨ chair ≠ s.currentUser ∨ s.magicCardData = []
  · rw [if_pos hnot] at h
    cases h
    exact Or.inl rfl
  rw [if_neg hnot] at h
  obtain ⟨user, -, h⟩ := Option.bind_eq_some_iff.1 h
  obtain ⟨user', -, h⟩ := Option.map_eq_some_iff.1 h
  cases h
  have hnew : (if s.turnWiner = some user then [] else s.magicCardData) = s.magicCardData ∨
      (if s.turnWiner = some user then [] else s.magicCardData) = [] := by
    split_ifs
    · exact Or.inr rfl
    · exact Or.inl rfl
  obtain hfriend | hfriend := magicCardData_passFriend { s.killGameTimer .outCard with
    currentUser := some user
    magicCardData := if s.turnWiner = some user then [] else s.magicCardData }
  · exact hnew.imp hfriend.trans hfriend.trans
  · exact Or.inr hfriend

theorem Kept.onOutCardTimeOut (hs : s.Kept) (h : s.onOutCardTimeOut scores = some (s', out)) :
    s'.Kept := by
  have hkilled : (s.killGameTimer .outCard).Kept := ⟨hs.typed, hs.free⟩
  rw [TableSink.onOutCardTimeOut] at h
  by_cases hstatus : s.gameStatus = .playing
  · rw [if_pos hstatus] at h
    dsimp only at h
    split_ifs at h
    · cases hc : (s.killGameTimer .outCard).currentUser with
      | none =>
        rw [hc] at h
        cases h
      | some c =>
        rw [hc] at h
        dsimp only at h
        split_ifs at h
        exact hkilled.onSubOutCard h
    · exact hkilled.onSubPassCard h
  · rw [if_neg hstatus] at h
    cases h
    exact hs

/-- **A timer** leaves a play with a type. -/
theorem Kept.onTimerMessage {timer : Timer} {rand : ℕ} (hs : s.Kept) (hstage : s.Stage l)
    (harmed : s.timers timer = true) (h : s.onTimerMessage timer rand scores = some (s', out)) :
    s'.Kept := by
  have hkilled : (s.killGameTimer timer).Kept := ⟨hs.typed, hs.free⟩
  have hstage' := hstage.killGameTimer timer
  have hsame : some (s.killGameTimer timer, ([] : List Output)) = some (s', out) → s'.Kept := by
    intro h
    cases h
    exact hkilled
  cases timer with
  | gameStart =>
    obtain ⟨hmagic, hfree⟩ := magicCardData_onGameStart rand (s.killGameTimer .gameStart)
    have heq : (s.killGameTimer .gameStart).onGameStart rand = (s', out) := Option.some.inj h
    rw [heq] at hmagic hfree
    exact hkilled.of_frame (Or.inl hmagic) hfree
  | tribute =>
    by_cases hstatus : s.gameStatus = .tribute
    · obtain ⟨htribute, hseat, -⟩ := hstage'.of_tribute hstatus
      obtain ⟨r, hrun, hr, hhand, -⟩ := run_payFor htribute hseat
      cases hrun.symm.trans ((if_pos hstatus).symm.trans h)
      refine hkilled.of_frame (Or.inl hhand.magicCardData) ?_
      rw [show s'.gameStatus = .tribute from hr.elim Paying.status Returning.status]
      nofun
    · exact hsame ((if_neg hstatus).symm.trans h)
  | backTribute =>
    by_cases hstatus : s.gameStatus = .tribute
    · obtain ⟨htribute, hseat, -⟩ := hstage'.of_tribute hstatus
      have hreturning := hstage.returning_of_backTribute hstatus harmed
      obtain ⟨r, hrun, hr, hhand, -⟩ := run_returnFor hreturning hseat
      cases hrun.symm.trans ((if_pos hstatus).symm.trans h)
      refine hkilled.of_frame (Or.inl hhand.magicCardData) ?_
      obtain hr | hr := hr
      · rw [show s'.gameStatus = .tribute from hr.status]
        nofun
      · rw [show s'.gameStatus = .playing from hr.status]
        nofun
    · exact hsame ((if_neg hstatus).symm.trans h)
  | outCard => exact hkilled.onOutCardTimeOut h

/-- **Every step** leaves a play with a type. -/
theorem Kept.step {e : Event} (hs : s.Kept) (hstage : s.Stage l) (hok : s.Orderly e)
    (hstep : TableSink.step s e = some (s', out)) : s'.Kept := by
  obtain ⟨rfl, -⟩ | htakes := hstage.takes hok hstep
  · exact hs
  cases htakes with
  | gameStart hfree h =>
    cases h
    exact hs.of_frame (Or.inl rfl) (by rintro ⟨⟩)
  | timer harmed h => exact hs.onTimerMessage hstage harmed h
  | outCard hread h => exact hs.onSubOutCard h
  | passCard h => exact hs.onSubPassCard h
  | payTribute hread hpaying hseat hmem hunpaid h =>
    obtain ⟨t, out', ht, hpays, hhand, -⟩ := hpaying.pay hseat hmem hunpaid _
    cases ht.symm.trans h
    refine hs.of_frame (Or.inl hhand.magicCardData) ?_
    rw [hpays.elim Paying.status Returning.status]
    simp
  | returnTribute hread hreturning hseat hmem hunpaid h =>
    obtain ⟨t, out', ht, hgoes, hhand, -⟩ := hreturning.giveBack hseat hmem hunpaid _
    cases ht.symm.trans h
    refine hs.of_frame (Or.inl hhand.magicCardData) ?_
    obtain h | h := hgoes
    · rw [h.status]
      simp
    · rw [h.status]
      simp
  | startOut hstatus h =>
    cases h
    exact hs.of_frame (Or.inl rfl) (by rintro ⟨⟩)
  | trustee hread h => exact hs.onOutCardTimeOut h
  | sendGameScene hfree h =>
    cases h
    exact ⟨hs.typed, hs.free⟩
  | dismiss h => exact kept_conclude h
  | userLeave h => exact kept_conclude h

end TableSink

/-! ## Runs -/

namespace QuitSink

variable {s : QuitSink} {history : List Output}

/-- A message that fits: a play that is looked at fits into the arrays,
tribute comes from those who are to pay or to return, and a request names
one of the four chairs. -/
def Fits (s : QuitSink) : QuitEvent → Prop
  | .table (.outCard chair playing cardCount cards _) =>
      cards.length = cardCount.toNat → playing = true → s.table.gameStatus = .playing →
        s.table.currentUser = some chair → PlayFits s.table.mainValue cards
  | .table event => s.table.Orderly event
  | .requestQuit playing chairID _ => playing = true → chairID.toNat < gamePlayer
  | _ => True

/-- What holds between two messages: a stage of a hand, a play with a type
on the table, and requests of chairs that there are. -/
structure Indexed (s : QuitSink) (history : List Output) : Prop where
  stage : s.table.Stage (HandLog.read {} history)
  kept : s.table.Kept
  requests : ∀ user ∈ s.lstRequestUserID, user < gamePlayer

/-- **A hand that is broken off** by request. -/
theorem Indexed.conclude (hs : s.Indexed history) {chairID : ℕ} {reason : EndReason}
    (hreason : reason ≠ .normal) (hchair : reason = .userLeave → chairID < gamePlayer) :
    ∃ s' out, s.onEventGameConclude chairID reason = some (s', out) ∧
      s'.Indexed (history ++ out) := by
  have htotal : ∑ i, s.table.handCardCount i ≤ fullCount := by
    by_cases hfree : s.table.gameStatus = .free
    · simp [hs.kept.free hfree]
    · exact hs.stage.total_le hfree
  obtain ⟨t, ranking, series, hend, hfree, hresult, -⟩ :=
    TableSink.onEventGameConclude_broken hreason (fun _ => 0) htotal
  have hseat : t.Seated := ⟨fun h => absurd (hresult.symm.trans h) nofun,
    fun h => absurd (hresult.symm.trans h) nofun⟩
  have hkept := TableSink.kept_conclude hend
  rw [QuitSink.onEventGameConclude, if_neg fun h => absurd (hchair h.1) (by omega), hend,
    Option.map_some]
  refine ⟨_, _, rfl, ?_⟩
  split_ifs
  · exact ⟨.free hfree hseat, hkept, hs.requests⟩
  · exact ⟨.free hfree hseat, hkept, nofun⟩

/-- **The first request is put to the others.** -/
theorem sendRequestQuitMsg_spec (hrequests : ∀ user ∈ s.lstRequestUserID, user < gamePlayer) :
    ∃ s', s.sendRequestQuitMsg = some s' ∧ s'.table = s.table ∧
      ∀ user ∈ s'.lstRequestUserID, user < gamePlayer := by
  rw [sendRequestQuitMsg]
  split
  · rename_i user users hlist _
    obtain ⟨huser, hrest⟩ := List.forall_mem_cons.1 (hlist ▸ hrequests)
    rw [dif_pos huser]
    exact ⟨_, rfl, rfl, hrest⟩
  · exact ⟨s, rfl, rfl, hrequests⟩

theorem Indexed.sendRequestQuitMsg (hs : s.Indexed history) : ∃ s' out,
    s.sendRequestQuitMsg.map (fun s => (s, ([] : List Output))) = some (s', out) ∧
      s'.Indexed (history ++ out) := by
  obtain ⟨s', hsend, htable, hrequests⟩ := sendRequestQuitMsg_spec hs.requests
  refine ⟨s', [], by rw [hsend, Option.map_some], ?_⟩
  rw [List.append_nil]
  exact ⟨htable ▸ hs.stage, htable ▸ hs.kept, hrequests⟩

/-- **A request** of a chair that there is. -/
theorem Indexed.onSubRequestQuit (hs : s.Indexed history) {chairID : ℕ}
    (hchair : chairID < gamePlayer) (quitType : UInt8) :
    ∃ s' out, s.onSubRequestQuit chairID quitType = some (s', out) ∧
      s'.Indexed (history ++ out) := by
  rw [QuitSink.onSubRequestQuit]
  split_ifs
  · exact hs.conclude nofun fun _ => hchair
  · exact ⟨s, [], rfl, by rwa [List.append_nil]⟩
  · have happend : ∀ user ∈ s.lstRequestUserID ++ [chairID], user < gamePlayer :=
      List.forall_mem_append.2 ⟨hs.requests, List.forall_mem_singleton.2 hchair⟩
    exact Indexed.sendRequestQuitMsg ⟨hs.stage, hs.kept, happend⟩

/-- **An answer**, which may break the hand off. -/
theorem Indexed.onDoResponseQuit (hs : s.Indexed history) (responseType : UInt8) (me : Chair) :
    ∃ s' out, s.onDoResponseQuit responseType me = some (s', out) ∧
      s'.Indexed (history ++ out) := by
  have hsame : ∀ t : QuitSink, t.table = s.table → t.lstRequestUserID = s.lstRequestUserID →
      t.Indexed history := fun t htable hlist =>
    ⟨htable ▸ hs.stage, htable ▸ hs.kept, hlist ▸ hs.requests⟩
  rw [QuitSink.onDoResponseQuit]
  dsimp only
  split_ifs
  · exact ⟨s, [], rfl, by rwa [List.append_nil]⟩
  · refine Indexed.conclude (hsame _ ?_ ?_) (show EndReason.dismiss ≠ .normal from nofun)
      fun h => absurd h nofun
    · rfl
    · rfl
  · refine Indexed.sendRequestQuitMsg (hsame _ ?_ ?_)
    · rfl
    · rfl
  · refine ⟨_, [], rfl, ?_⟩
    rw [List.append_nil]
    exact hsame _ rfl rfl

/-- **The timer** answers for those who did not. -/
theorem Indexed.onResponseQuitTimer (hs : s.Indexed history) (asker : ℕ) :
    ∃ s' out, s.onResponseQuitTimer asker = some (s', out) ∧ s'.Indexed (history ++ out) := by
  have hstep : ∀ (t : QuitSink) history i, t.Indexed history → True →
      ∃ t' out, (if i.val ≠ asker ∧ t.responseStatus i = 0 then t.onDoResponseQuit 2 i
        else some (t, [])) = some (t', out) ∧ t'.Indexed (history ++ out) := by
    intro t history i ht _
    split_ifs
    · exact ht.onDoResponseQuit 2 i
    · exact ⟨t, [], rfl, by rwa [List.append_nil]⟩
  have hstart : Indexed { s with responseQuitTimer := none } history :=
    ⟨hs.stage, hs.kept, hs.requests⟩
  obtain ⟨r, hrun, hr⟩ := Machine.inv_run_total hstep (List.finRange gamePlayer) _ history hstart
    (Machine.along_of_forall (fun _ _ => trivial) _ _)
  exact ⟨r.1, r.2, hrun, hr⟩

/-- An event of the table that fits is orderly, or not looked at. -/
theorem Fits.orderly {event : Event} (hs : s.Indexed history) (hok : s.Fits (.table event)) :
    s.table.Orderly event ∨ TableSink.step s.table event = some (s.table, []) := by
  cases event with
  | outCard chair playing cardCount cards scores =>
    by_cases hread : cards.length = cardCount.toNat ∧ playing = true
    · by_cases hstatus : s.table.gameStatus = .playing
      · exact .inl fun hcurrent => hs.kept.legalPlay (hok hread.1 hread.2 hstatus hcurrent)
      · refine .inr ((if_pos hread).trans ?_)
        rw [TableSink.onSubOutCard, TableSink.outCard, if_pos (Or.inl hstatus)]
    · exact .inr (if_neg hread)
  | _ => exact .inl hok

/-- **What happens at the table.** -/
theorem Indexed.onTable {event : Event} (hs : s.Indexed history) (hok : s.Fits (.table event)) :
    ∃ s' out, s.onTable event = some (s', out) ∧ s'.Indexed (history ++ out) := by
  have hgoes : ∃ t out, TableSink.step s.table event = some (t, out) ∧
      t.Stage (HandLog.read {} (history ++ out)) ∧ t.Kept := by
    obtain horderly | hsame := hok.orderly hs
    · obtain ⟨t, out, hstep, hstage⟩ := TableSink.step_keeps_stage hs.stage horderly
      refine ⟨t, out, hstep, ?_, hs.kept.step hs.stage horderly hstep⟩
      rwa [HandLog.read_append]
    · refine ⟨s.table, [], hsame, ?_, hs.kept⟩
      rw [List.append_nil]
      exact hs.stage
  obtain ⟨t, out, hstep, hstage, hkept⟩ := hgoes
  rw [QuitSink.onTable, hstep, Option.map_some]
  dsimp only
  split_ifs
  · exact ⟨_, out, rfl, hstage, hkept, nofun⟩
  · exact ⟨_, out, rfl, hstage, hkept, nofun⟩
  · exact ⟨_, out, rfl, hstage, hkept, hs.requests⟩

/-- **A step** with a message that fits is taken. -/
theorem Indexed.step (s : QuitSink) (history : List Output) (e : QuitEvent)
    (hs : s.Indexed history) (hok : s.Fits e) :
    ∃ s' out, s.step e = some (s', out) ∧ s'.Indexed (history ++ out) := by
  have hsame : ∃ s' out, some (s, ([] : List Output)) = some (s', out) ∧
      s'.Indexed (history ++ out) := ⟨s, [], rfl, by rwa [List.append_nil]⟩
  cases e with
  | table event => exact hs.onTable hok
  | requestQuit playing chairID quitType =>
    rw [QuitSink.step]
    split_ifs with hplaying
    · exact hs.onSubRequestQuit (hok hplaying) quitType
    · exact hsame
  | responseQuit chair playing chairID responseType =>
    rw [QuitSink.step]
    split_ifs
    · exact hs.onDoResponseQuit responseType chair
    · exact hsame
  | responseQuitTimer =>
    rw [QuitSink.step]
    cases s.responseQuitTimer with
    | none => exact hsame
    | some asker => exact hs.onResponseQuitTimer asker

end QuitSink

end GameServer.GuanDan
