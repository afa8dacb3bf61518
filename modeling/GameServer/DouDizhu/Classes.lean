import GameServer.Common.Blocks
import GameServer.Common.Spread
import GameServer.DouDizhu.Cards
/-!
# Dou Dizhu — the type of a play and the order of its cards

The analysis sees equal cards only where they are sent next to each other.
What it accepts is a combination (`combination_of_getCardType`), but of any
cards of two ranks and more there is an order that it turns down
(`exists_order`): every second card, and then the others. So the type is
one of the cards alone, and the combinations are accepted, just where there
is one rank or no combination at all (`classified_iff`).
-/

namespace GameServer.DouDizhu

variable {cards order : List UInt8} {r : AnalyseResult} {t : CardType}

/-! ## Combinations -/

/-- `k` groups of `m` cards of one value. -/
def Groups (m k : ℕ) (cards : List UInt8) : Prop :=
  ∃ vs : List ℕ, vs.length = k ∧
    (cards.map getCardLogicValue).Perm (vs.flatMap (List.replicate m))

/-- `k` groups of `m` cards, one below the other, the first no two and no
joker. -/
def Line (m k : ℕ) (cards : List UInt8) : Prop :=
  ∃ top, top < 15 ∧ k ≤ top ∧ (cards.map getCardLogicValue).Perm
    ((List.range k).flatMap fun i => List.replicate m (top - i))

def OneRank (cards : List UInt8) : Prop :=
  ∀ a ∈ cards, ∀ b ∈ cards, getCardLogicValue a = getCardLogicValue b

/-- **The combinations of the rules**: a card, two to four of one rank, the
jokers, a line of five cards, three pairs or two threes, threes with as
many cards or pairs, and four with two cards or two pairs. -/
inductive Combination (cards : List UInt8) : Prop
  | single (h : cards.length = 1)
  | same (hlen : 2 ≤ cards.length) (h : OneRank cards)
  | jokers (h : cards.Perm [0x4F, 0x4E])
  | singleLine (k : ℕ) (hk : 5 ≤ k) (h : Line 1 k cards)
  | doubleLine (k : ℕ) (hk : 3 ≤ k) (h : Line 2 k cards)
  | threes (k : ℕ) (body wings : List UInt8) (h : cards.Perm (body ++ wings)) (hk : 0 < k)
      (hbody : Groups 3 k body) (hline : 2 ≤ k → Line 3 k body)
      (hwings : wings.length = 0 ∨ wings.length = k ∨ Groups 2 k wings)
  | four (body wings : List UInt8) (h : cards.Perm (body ++ wings)) (hbody : Groups 4 1 body)
      (hwings : wings.length = 2 ∨ Groups 2 2 wings)

theorem Groups.length {m k : ℕ} (h : Groups m k cards) : cards.length = k * m := by
  obtain ⟨vs, rfl, hperm⟩ := h
  have := hperm.length_eq
  simpa [List.length_flatMap] using this

theorem Line.length {m k : ℕ} (h : Line m k cards) : cards.length = k * m := by
  obtain ⟨top, -, -, hperm⟩ := h
  have := hperm.length_eq
  simpa [List.length_flatMap] using this

theorem OneRank.perm (h : OneRank cards) (hperm : order.Perm cards) : OneRank order :=
  fun a ha b hb => h a (hperm.subset ha) b (hperm.subset hb)

theorem Line.perm {m k : ℕ} (h : Line m k order) (hperm : order.Perm cards) : Line m k cards := by
  obtain ⟨top, htop, hk, hvalues⟩ := h
  exact ⟨top, htop, hk, (hperm.map _).symm.trans hvalues⟩

theorem Combination.perm (h : Combination order) (hperm : order.Perm cards) : Combination cards := by
  cases h with
  | single h => exact .single (hperm.length_eq.symm.trans h)
  | same hlen h => exact .same (hperm.length_eq ▸ hlen) (h.perm hperm.symm)
  | jokers h => exact .jokers (hperm.symm.trans h)
  | singleLine k hk h => exact .singleLine k hk (h.perm hperm)
  | doubleLine k hk h => exact .doubleLine k hk (h.perm hperm)
  | threes k body wings h hk hbody hline hwings =>
    exact .threes k body wings (hperm.symm.trans h) hk hbody hline hwings
  | four body wings h hbody hwings => exact .four body wings (hperm.symm.trans h) hbody hwings

theorem Combination.ne_nil (h : Combination cards) : cards ≠ [] := by
  rintro rfl
  cases h with
  | single h => cases h
  | same hlen h => exact absurd hlen (by decide)
  | jokers h => exact absurd h.length_eq nofun
  | singleLine k hk h =>
    have := h.length
    simp only [List.length_nil] at this
    omega
  | doubleLine k hk h =>
    have := h.length
    simp only [List.length_nil] at this
    omega
  | threes k body wings h hk hbody hline hwings =>
    have := hbody.length
    have := h.length_eq
    simp only [List.length_nil, List.length_append] at this
    omega
  | four body wings h hbody hwings =>
    have := hbody.length
    have := h.length_eq
    simp only [List.length_nil, List.length_append] at this
    omega

/-! ## Cards of the deck -/

/-- Different cards of the deck. -/
structure FromDeck (cards : List UInt8) : Prop where
  nodup : cards.Nodup
  deck : ∀ c ∈ cards, c ∈ cardData

theorem FromDeck.perm (h : FromDeck cards) (hperm : order.Perm cards) : FromDeck order :=
  ⟨hperm.nodup_iff.2 h.nodup, fun c hc => h.deck c (hperm.subset hc)⟩

theorem FromDeck.value_pos (h : FromDeck cards) : ∀ c ∈ cards, 0 < getCardLogicValue c := by
  have hdeck : ∀ c ∈ cardData, 0 < getCardLogicValue c := by decide +kernel
  exact fun c hc => hdeck c (h.deck c hc)

theorem FromDeck.rank_le (h : FromDeck cards) (v : ℕ) :
    (cards.filter fun c => getCardLogicValue c = v).length ≤ 4 := by
  have hdeck : ∀ c ∈ cardData,
      (cardData.filter fun x => getCardLogicValue x = getCardLogicValue c).length ≤ 4 := by
    decide +kernel
  cases hcards : cards.filter fun c => getCardLogicValue c = v with
  | nil => exact Nat.zero_le _
  | cons c rest =>
    have hc : c ∈ cards.filter fun c => getCardLogicValue c = v := by
      rw [hcards]
      exact List.mem_cons_self
    obtain ⟨hmem, hvalue⟩ := List.mem_filter.1 hc
    rw [← hcards, ← of_decide_eq_true hvalue]
    refine le_trans (List.Subperm.length_le (List.Nodup.subperm (h.nodup.filter _) ?_))
      (hdeck c (h.deck c hmem))
    intro x hx
    obtain ⟨hx, hvalue⟩ := List.mem_filter.1 hx
    exact List.mem_filter.2 ⟨h.deck x hx, hvalue⟩

theorem FromDeck.length_le (h : FromDeck cards) {l : List UInt8} (hsub : l.Sublist cards)
    (hrank : OneRank l) : l.length ≤ 4 := by
  cases l with
  | nil => exact Nat.zero_le _
  | cons c rest =>
    have hall : (c :: rest).filter (fun x => getCardLogicValue x = getCardLogicValue c) = c :: rest :=
      List.filter_eq_self.2 fun x hx => decide_eq_true (hrank x hx c List.mem_cons_self)
    rw [← hall]
    exact (hsub.filter _).length_le.trans (h.rank_le _)

/-! ## The rows of the analysis -/

/-- The rows of an analysis with no more than four cards in a row. -/
theorem analyseRuns_eq : ∀ (runs : List (List UInt8)) (result last : AnalyseResult),
    (∀ run ∈ runs, run ≠ [] ∧ run.length ≤ 4) → analyseRuns runs result = some last →
    ∀ k, last k = result k ++ runs.filter fun run => run.length = k.val + 1
  | [], result, last, _, h, k => by
    cases h
    simp
  | run :: runs, result, last, hruns, h, k => by
    obtain ⟨⟨hne, hlen⟩, hrest⟩ := List.forall_mem_cons.1 hruns
    have hpos := List.length_pos_iff.2 hne
    rw [analyseRuns, if_neg (by omega)] at h
    dsimp only at h
    split_ifs at h with hroom
    have hrow : (Fin.ofNat 4 (run.length - 1)).val + 1 = run.length := by
      simp only [Fin.val_ofNat]
      omega
    rw [analyseRuns_eq runs _ last hrest h k, List.filter_cons]
    by_cases hk : k = Fin.ofNat 4 (run.length - 1)
    · rw [hk, Function.update_self, if_pos (by simpa using hrow.symm), List.append_assoc]
      rfl
    · rw [Function.update_of_ne hk, if_neg]
      simp only [decide_eq_true_eq]
      intro hlen
      exact hk (Fin.ext (by omega))

section

variable (h : FromDeck cards) (hr : analysebCardData cards = some r)
include h hr

theorem FromDeck.row_eq (k : Fin 4) :
    r k = (blocks getCardLogicValue cards).filter fun block => block.length = k.val + 1 := by
  have hruns : ∀ block ∈ blocks getCardLogicValue cards, block ≠ [] ∧ block.length ≤ 4 := by
    intro block hblock
    refine ⟨ne_nil_of_mem_blocks hblock, h.length_le ?_ fun a ha b hb =>
      key_eq_of_mem_blocks hblock ha hb⟩
    have := List.sublist_flatten_of_mem hblock
    rwa [flatten_blocks] at this
  have := analyseRuns_eq _ _ r hruns hr k
  rwa [List.nil_append] at this

theorem FromDeck.mem_row {k : Fin 4} {block : List UInt8} (hblock : block ∈ r k) :
    block ∈ blocks getCardLogicValue cards ∧ block.length = k.val + 1 := by
  rw [h.row_eq hr, List.mem_filter] at hblock
  exact ⟨hblock.1, of_decide_eq_true hblock.2⟩

theorem FromDeck.split (k : Fin 4) : ∃ rest, cards.Perm ((r k).flatten ++ rest) := by
  have hperm := (List.filter_append_perm (fun block => decide (block.length = k.val + 1))
    (blocks getCardLogicValue cards)).flatten
  rw [flatten_blocks, List.flatten_append, ← h.row_eq hr k] at hperm
  exact ⟨_, hperm.symm⟩

/-- The cards are those of two rows and the others. -/
theorem FromDeck.split_two {k m : Fin 4} (hne : k ≠ m) :
    ∃ rest, cards.Perm ((r k).flatten ++ ((r m).flatten ++ rest)) := by
  have hrow : ((blocks getCardLogicValue cards).filter fun b => ! decide (b.length = k.val + 1)).filter
      (fun b => decide (b.length = m.val + 1)) = r m := by
    rw [h.row_eq hr m, List.filter_filter]
    refine List.filter_congr fun b _ => ?_
    by_cases hb : b.length = m.val + 1
    · have hvals : m.val ≠ k.val := fun h => hne (Fin.ext h.symm)
      simp [hb, hvals]
    · simp [hb]
  have hfirst := List.filter_append_perm (fun b => decide (b.length = k.val + 1))
    (blocks getCardLogicValue cards)
  have hsecond := List.filter_append_perm (fun b => decide (b.length = m.val + 1))
    ((blocks getCardLogicValue cards).filter fun b => ! decide (b.length = k.val + 1))
  rw [hrow] at hsecond
  rw [← h.row_eq hr k] at hfirst
  have hperm := ((hsecond.append_left (r k)).trans hfirst).flatten
  rw [flatten_blocks, List.flatten_append, List.flatten_append] at hperm
  exact ⟨_, hperm.symm⟩

theorem FromDeck.groups_row (k : Fin 4) : Groups (k + 1) (r k).length (r k).flatten := by
  refine ⟨(r k).map fun b => getCardLogicValue (b.headD 0), List.length_map _, .of_eq ?_⟩
  refine map_flatten_of_length (Nat.succ_pos _) 0 _ (fun b hb => (h.mem_row hr hb).2) ?_
  exact fun b hb x hx y hy => key_eq_of_mem_blocks (h.mem_row hr hb).1 hx hy

/-- **A row that is a line.** -/
theorem FromDeck.line_row {k : Fin 4} (hpos : 0 < (r k).length) (hline : isLine r k = true) :
    Line (k + 1) (r k).length (r k).flatten := by
  obtain ⟨htop, hstep⟩ := of_decide_eq_true hline
  have hlen : ∀ b ∈ r k, b.length = k.val + 1 := fun b hb => (h.mem_row hr hb).2
  have hcard : ∀ i < (r k).length, r.card k (i * (k + 1)) = ((r k).getD i []).headD 0 :=
    fun i hi => getD_flatten_of_length (Nat.succ_pos _) 0 _ i hlen hi
  have hzero := hcard 0 hpos
  rw [Nat.zero_mul] at hzero
  have hvalue : ∀ i < (r k).length, 0 < getCardLogicValue (((r k).getD i []).headD 0) ∧
      getCardLogicValue (r.card k 0) = getCardLogicValue (((r k).getD i []).headD 0) + i := by
    intro i hi
    have hmem : (r k).getD i [] ∈ r k := by
      rw [List.getD_eq_getElem _ _ hi]
      exact List.getElem_mem hi
    obtain ⟨c, rest, hc⟩ := List.exists_cons_of_ne_nil (ne_nil_of_mem_blocks (h.mem_row hr hmem).1)
    refine ⟨?_, ?_⟩
    · rw [hc]
      refine h.value_pos c (mem_of_mem_blocks (h.mem_row hr hmem).1 ?_)
      rw [hc]
      exact List.mem_cons_self
    · rcases Nat.eq_zero_or_pos i with rfl | hi'
      · rw [hzero]
        rfl
      · rw [← hcard i hi]
        exact hstep i (List.mem_range.2 hi) hi'
  refine ⟨getCardLogicValue (r.card k 0), htop, ?_, .of_eq ?_⟩
  · have := hvalue ((r k).length - 1) (by omega)
    omega
  · rw [map_flatten_of_length (Nat.succ_pos _) 0 _ hlen
      fun b hb x hx y hy => key_eq_of_mem_blocks (h.mem_row hr hb).1 hx hy]
    have hheads : (r k).map (fun b => getCardLogicValue (b.headD 0)) =
        (List.range (r k).length).map fun i => getCardLogicValue (r.card k 0) - i := by
      refine List.ext_getElem (by simp) fun i hi _ => ?_
      rw [List.length_map] at hi
      have := hvalue i hi
      rw [List.getD_eq_getElem _ _ hi] at this
      rw [List.getElem_map, List.getElem_map, List.getElem_range]
      omega
    rw [hheads, List.flatMap_map]

end

/-! ## What is accepted -/

/-- What the rows have to be for a type. -/
inductive Accepted (r : AnalyseResult) (count : ℕ) : Prop
  | bomb (hrow : (r 3).length = 1) (hcount : count = 4)
  | four (hrow : (r 3).length = 1) (hcount : count = 6)
  | fourPairs (hrow : (r 3).length = 1) (hcount : count = 8) (hpairs : (r 1).length = 2)
  | threes (hpos : 0 < (r 2).length) (hline : 2 ≤ (r 2).length → isLine r 2 = true)
      (hcount : (r 2).length * 3 = count ∨ (r 2).length * 4 = count ∨
        ((r 2).length * 5 = count ∧ (r 1).length = (r 2).length))
  | doubleLine (hk : 3 ≤ (r 1).length) (hline : isLine r 1 = true) (hcount : (r 1).length * 2 = count)
  | singleLine (hk : 5 ≤ (r 0).length) (hline : isLine r 0 = true) (hcount : (r 0).length = count)

theorem accepted_of_ne {count : ℕ} (h : analysedType r count ≠ .error) : Accepted r count := by
  unfold analysedType at h
  split_ifs at h with h3 hbomb hfour hpairs h2 hbad hthree hline htake htwo h1 hbad hdouble h0 hbad
  · exact .bomb hbomb.1 hbomb.2
  · exact .four hfour.1 hfour.2
  · exact .fourPairs hpairs.1 hpairs.2.1 hpairs.2.2
  · exact absurd rfl h
  · exact absurd rfl h
  · exact .threes h2 (fun hk => by omega) (.inl (by omega))
  · refine .threes h2 (fun hk => ?_) (.inl hline)
    by_contra hnot
    exact hbad ⟨by omega, hnot⟩
  · refine .threes h2 (fun hk => ?_) (.inr (.inl htake))
    by_contra hnot
    exact hbad ⟨by omega, hnot⟩
  · refine .threes h2 (fun hk => ?_) (.inr (.inr htwo))
    by_contra hnot
    exact hbad ⟨by omega, hnot⟩
  · exact absurd rfl h
  · exact .doubleLine h1 hbad hdouble
  · exact absurd rfl h
  · exact absurd rfl h
  · exact .singleLine h0.1 hbad h0.2
  · exact absurd rfl h
  · exact absurd rfl h

/-- **What the analysis accepts is a combination.** -/
theorem FromDeck.combination (h : FromDeck cards) (hr : analysebCardData cards = some r)
    (ha : Accepted r cards.length) : Combination cards := by
  cases ha with
  | bomb hrow hcount =>
    obtain ⟨b, hb⟩ := List.length_eq_one_iff.1 hrow
    obtain ⟨hmem, hlen⟩ := h.mem_row hr (hb ▸ List.mem_cons_self : b ∈ r 3)
    have hall : b = cards := eq_of_mem_blocks_of_length hmem (hlen.trans hcount.symm)
    rw [hall] at hmem
    exact .same (by omega) fun x hx y hy => key_eq_of_mem_blocks hmem hx hy
  | four hrow hcount =>
    have hgroups := h.groups_row hr 3
    rw [hrow] at hgroups
    obtain ⟨rest, hperm⟩ := h.split hr 3
    have hlen := hperm.length_eq
    rw [List.length_append, hgroups.length] at hlen
    exact .four _ rest hperm hgroups (.inl (by omega))
  | fourPairs hrow hcount hpairs =>
    have hgroups := h.groups_row hr 3
    have hwings := h.groups_row hr 1
    rw [hrow] at hgroups
    rw [hpairs] at hwings
    obtain ⟨rest, hperm⟩ := h.split_two hr (show (3 : Fin 4) ≠ 1 by decide)
    have hlen := hperm.length_eq
    rw [List.length_append, List.length_append, hgroups.length, hwings.length] at hlen
    have hrest : rest = [] := List.length_eq_zero_iff.1 (by omega)
    rw [hrest, List.append_nil] at hperm
    exact .four _ _ hperm hgroups (.inr hwings)
  | threes hpos hline hcount =>
    have hgroups := h.groups_row hr 2
    have hrow : 2 ≤ (r 2).length → Line 3 (r 2).length (r 2).flatten := fun hk =>
      h.line_row hr hpos (hline hk)
    have hbody : (r 2).flatten.length = (r 2).length * 3 := hgroups.length
    obtain hcount | hcount | ⟨hcount, hpairs⟩ := hcount
    · obtain ⟨rest, hperm⟩ := h.split hr 2
      have hlen := hperm.length_eq
      rw [List.length_append] at hlen
      exact .threes _ _ rest hperm hpos hgroups hrow (.inl (by omega))
    · obtain ⟨rest, hperm⟩ := h.split hr 2
      have hlen := hperm.length_eq
      rw [List.length_append] at hlen
      exact .threes _ _ rest hperm hpos hgroups hrow (.inr (.inl (by omega)))
    · have hwings := h.groups_row hr 1
      have hpairlen : (r 1).flatten.length = (r 1).length * 2 := hwings.length
      obtain ⟨rest, hperm⟩ := h.split_two hr (show (2 : Fin 4) ≠ 1 by decide)
      have hlen := hperm.length_eq
      rw [List.length_append, List.length_append] at hlen
      have hrest : rest = [] := List.length_eq_zero_iff.1 (by omega)
      rw [hrest, List.append_nil] at hperm
      rw [hpairs] at hwings
      exact .threes _ _ _ hperm hpos hgroups hrow (.inr (.inr hwings))
  | doubleLine hk hline hcount =>
    obtain ⟨rest, hperm⟩ := h.split hr 1
    have hrow := h.line_row hr (by omega) hline
    have hlen := hperm.length_eq
    have hbody : (r 1).flatten.length = (r 1).length * 2 := hrow.length
    rw [List.length_append] at hlen
    have hrest : rest = [] := List.length_eq_zero_iff.1 (by omega)
    rw [hrest, List.append_nil] at hperm
    exact .doubleLine _ hk (hrow.perm hperm.symm)
  | singleLine hk hline hcount =>
    obtain ⟨rest, hperm⟩ := h.split hr 0
    have hrow := h.line_row hr (by omega) hline
    have hlen := hperm.length_eq
    have hbody : (r 0).flatten.length = (r 0).length * 1 := hrow.length
    rw [List.length_append] at hlen
    have hrest : rest = [] := List.length_eq_zero_iff.1 (by omega)
    rw [hrest, List.append_nil] at hperm
    exact .singleLine _ hk (hrow.perm hperm.symm)

theorem getCardType_three (h : 3 ≤ cards.length) :
    getCardType cards = (analysebCardData cards).map (analysedType · cards.length) := by
  match cards with
  | _ :: _ :: _ :: _ => rfl

/-- **A play that has a type is a combination.** -/
theorem FromDeck.combination_of_getCardType (h : FromDeck cards) (ht : getCardType cards = some t)
    (hne : t ≠ .error) : Combination cards := by
  by_cases hlen : 3 ≤ cards.length
  · rw [getCardType_three hlen] at ht
    obtain ⟨r, hr, rfl⟩ := Option.map_eq_some_iff.1 ht
    exact h.combination hr (accepted_of_ne hne)
  match cards with
  | [] =>
    cases ht
    exact absurd rfl hne
  | [a] => exact .single rfl
  | [a, b] =>
    rw [getCardType] at ht
    split_ifs at ht with hjokers hsame
    · rw [hjokers.1, hjokers.2]
      exact .jokers (.refl _)
    · refine .same le_rfl fun x hx y hy => ?_
      simp only [List.mem_cons, List.not_mem_nil, or_false] at hx hy
      rcases hx with rfl | rfl <;> rcases hy with rfl | rfl <;> simp [hsame]
    · cases ht
      exact absurd rfl hne
  | _ :: _ :: _ :: _ => exact absurd hlen (by simp)

/-! ## What is turned down -/

theorem FromDeck.flatten_row (h : FromDeck cards) (hr : analysebCardData cards = some r) {k : Fin 4}
    (hall : (r k).length * (k + 1) = cards.length) : (r k).flatten = cards := by
  have hlen : ∀ b ∈ blocks getCardLogicValue cards, b.length = k.val + 1 := by
    refine (length_of_filter_length _ fun b hb => ne_nil_of_mem_blocks hb).2 ?_
    rw [← h.row_eq hr, flatten_blocks, hall]
  rw [h.row_eq hr, List.filter_eq_self.2 fun b hb => decide_eq_true (hlen b hb), flatten_blocks]

/-- **Cards without three neighbours of one rank**, which do not begin a
falling line, have no type. -/
theorem FromDeck.error_of_no_three (h : FromDeck cards) (hlen : 3 ≤ cards.length)
    (hthree : ∀ i, i + 2 < cards.length →
      ¬ (getCardLogicValue (cards.getD i 0) = getCardLogicValue (cards.getD (i + 1) 0) ∧
        getCardLogicValue (cards.getD i 0) = getCardLogicValue (cards.getD (i + 2) 0)))
    (hone : 5 ≤ cards.length →
      getCardLogicValue (cards.getD 0 0) ≤ getCardLogicValue (cards.getD 1 0))
    (htwo : 6 ≤ cards.length →
      getCardLogicValue (cards.getD 0 0) ≤ getCardLogicValue (cards.getD 2 0))
    (ht : getCardType cards = some t) : t = .error := by
  rw [getCardType_three hlen] at ht
  obtain ⟨r, hr, rfl⟩ := Option.map_eq_some_iff.1 ht
  by_contra hne
  have hshort : ∀ k : Fin 4, 2 ≤ k.val → ¬ 0 < (r k).length := by
    intro k hk hpos
    obtain ⟨b, hb⟩ := List.exists_mem_of_length_pos hpos
    obtain ⟨hmem, hlen⟩ := h.mem_row hr hb
    obtain ⟨i, hi, hsame⟩ := exists_three_of_mem_blocks 0 hmem (by omega)
    exact hthree i hi hsame
  cases accepted_of_ne hne with
  | bomb hrow | four hrow | fourPairs hrow => exact hshort 3 (by decide) (by omega)
  | threes hpos => exact hshort 2 (by decide) hpos
  | doubleLine hk hline hcount =>
    have hstep := (of_decide_eq_true hline).2 1 (List.mem_range.2 (by omega)) le_rfl
    rw [AnalyseResult.card, AnalyseResult.card, h.flatten_row hr hcount] at hstep
    have hindex : cards.getD (1 * ((1 : Fin 4).val + 1)) 0 = cards.getD 2 0 := rfl
    rw [hindex] at hstep
    omega
  | singleLine hk hline hcount =>
    have hstep := (of_decide_eq_true hline).2 1 (List.mem_range.2 (by omega)) le_rfl
    rw [AnalyseResult.card, AnalyseResult.card,
      h.flatten_row hr ((Nat.mul_one _).trans hcount)] at hstep
    have hindex : cards.getD (1 * ((0 : Fin 4).val + 1)) 0 = cards.getD 1 0 := rfl
    rw [hindex] at hstep
    omega

theorem FromDeck.error_of_four {a b c d e : UInt8} (h : FromDeck [a, b, e, c, d])
    (hab : getCardLogicValue a = getCardLogicValue b) (hac : getCardLogicValue a = getCardLogicValue c)
    (hae : getCardLogicValue a ≠ getCardLogicValue e)
    (ht : getCardType [a, b, e, c, d] = some t) : t = .error := by
  refine h.error_of_no_three (by simp) (fun i hi => ?_) (fun _ => hab.le) (fun h => ?_) ht
  · have hi' : i = 0 ∨ i = 1 ∨ i = 2 := by
      simp only [List.length_cons, List.length_nil] at hi
      omega
    rintro ⟨hone, htwo⟩
    rcases hi' with rfl | rfl | rfl
    · exact hae htwo
    · exact hae (hab.trans hone)
    · exact hae (hac.trans hone.symm)
  · exact absurd h (by simp)

/-- **Of two ranks and more there is an order that is turned down.** -/
theorem FromDeck.exists_order (h : FromDeck cards) (hranks : ¬ OneRank cards) :
    ∃ order, order.Perm cards ∧ ∀ t, getCardType order = some t → t = .error := by
  let xs := cards.mergeSort fun a b => getCardLogicValue a ≤ getCardLogicValue b
  have hperm : xs.Perm cards := List.mergeSort_perm _ _
  have hxs := h.perm hperm
  have hpair : xs.Pairwise fun a b => getCardLogicValue a ≤ getCardLogicValue b := by
    refine (List.pairwise_mergeSort (fun a b c hab hbc => ?_) (fun a b => ?_) cards).imp
      fun hab => of_decide_eq_true hab
    · exact decide_eq_true ((of_decide_eq_true hab).trans (of_decide_eq_true hbc))
    · simpa using Nat.le_total _ _
  have hsorted : ∀ i j, i ≤ j → j < xs.length →
      getCardLogicValue (xs.getD i 0) ≤ getCardLogicValue (xs.getD j 0) := by
    intro i j hij hj
    rcases Nat.eq_or_lt_of_le hij with rfl | hlt
    · exact le_rfl
    · rw [List.getD_eq_getElem _ _ (by omega), List.getD_eq_getElem _ _ hj]
      exact List.pairwise_iff_getElem.1 hpair i j (by omega) hj hlt
  have hxranks : ¬ OneRank xs := fun hone => hranks (hone.perm hperm.symm)
  have hall : getCardLogicValue (xs.getD 0 0) ≠ getCardLogicValue (xs.getD (xs.length - 1) 0) := by
    intro hends
    refine hxranks fun a ha b hb => ?_
    have hfirst : ∀ c ∈ xs, getCardLogicValue c = getCardLogicValue (xs.getD 0 0) := by
      intro c hc
      obtain ⟨i, hi, rfl⟩ := List.getElem_of_mem hc
      have h₁ := hsorted 0 i (Nat.zero_le _) hi
      have h₂ := hsorted i (xs.length - 1) (by omega) (by omega)
      rw [List.getD_eq_getElem _ _ hi] at h₁ h₂
      omega
    rw [hfirst a ha, hfirst b hb]
  have hfive : ∀ i, i + 4 < xs.length →
      getCardLogicValue (xs.getD i 0) ≠ getCardLogicValue (xs.getD (i + 4) 0) := by
    intro i hi hends
    have hwindow : ((xs.drop i).take 5).length ≤ 4 := by
      refine hxs.length_le ((List.take_sublist _ _).trans (List.drop_sublist _ _)) ?_
      have hfirst : ∀ c ∈ (xs.drop i).take 5,
          getCardLogicValue c = getCardLogicValue (xs.getD i 0) := by
        intro c hc
        obtain ⟨j, hj, rfl⟩ := List.getElem_of_mem hc
        rw [List.length_take, List.length_drop] at hj
        rw [List.getElem_take, List.getElem_drop]
        have h₁ := hsorted i (i + j) (by omega) (by omega)
        have h₂ := hsorted (i + j) (i + 4) (by omega) hi
        rw [List.getD_eq_getElem _ _ (by omega : i + j < xs.length)] at h₁ h₂
        omega
      intro a ha b hb
      rw [hfirst a ha, hfirst b hb]
    rw [List.length_take, List.length_drop] at hwindow
    omega
  by_cases hlen : xs.length < 3
  · rw [hperm.length_eq] at hlen
    obtain _ | ⟨a, _ | ⟨b, _ | ⟨c, rest⟩⟩⟩ := cards
    · exact absurd (fun _ h => absurd h List.not_mem_nil) hranks
    · refine absurd (fun x hx y hy => ?_) hranks
      rw [List.mem_singleton.1 hx, List.mem_singleton.1 hy]
    · by_cases hjokers : a = 0x4F ∧ b = 0x4E
      · refine ⟨[b, a], .swap _ _ _, fun t ht => ?_⟩
        rw [hjokers.1, hjokers.2] at ht
        have herror : getCardType [0x4E, 0x4F] = some .error := by decide +kernel
        exact Option.some.inj (ht.symm.trans herror)
      · refine ⟨[a, b], .refl _, fun t ht => ?_⟩
        have hne : ¬ getCardLogicValue a = getCardLogicValue b := by
          intro hsame
          refine hranks fun x hx y hy => ?_
          simp only [List.mem_cons, List.not_mem_nil, or_false] at hx hy
          rcases hx with rfl | rfl <;> rcases hy with rfl | rfl <;> simp [hsame]
        rw [getCardType, if_neg hjokers, if_neg hne] at ht
        exact (Option.some.inj ht).symm
    · simp only [List.length_cons] at hlen
      omega
  by_cases hfour : xs.length = 5 ∧ getCardLogicValue (xs.getD 0 0) = getCardLogicValue (xs.getD 3 0)
  · obtain ⟨hlen5, hsame⟩ := hfour
    have h₁ := hsorted 0 1 (by omega) (by omega)
    have h₂ := hsorted 1 3 (by omega) (by omega)
    have h₃ := hsorted 0 2 (by omega) (by omega)
    have h₄ := hsorted 2 3 (by omega) (by omega)
    have h₅ := hfive 0 (by omega)
    generalize xs = ys at *
    obtain ⟨a, rest, rfl⟩ := List.exists_cons_of_length_eq_add_one hlen5
    obtain ⟨b, c, d, e, rfl⟩ := List.length_eq_four.1 (Nat.succ.inj hlen5)
    have hswap : [a, b, e, c, d].Perm [a, b, c, d, e] :=
      ((List.perm_append_comm : ([e] ++ [c, d]).Perm ([c, d] ++ [e])).cons b).cons a
    refine ⟨[a, b, e, c, d], hswap.trans hperm, fun t ht => ?_⟩
    exact (hxs.perm hswap).error_of_four (le_antisymm h₁ (h₂.trans hsame.ge))
      (le_antisymm h₃ (h₄.trans hsame.ge)) h₅ ht
  · have hspread := spread_perm xs
    refine ⟨spread xs, hspread.trans hperm, fun t ht => ?_⟩
    refine (hxs.perm hspread).error_of_no_three (by rw [length_spread]; omega) (fun i hi => ?_)
      (fun hi => ?_) (fun hi => ?_) ht
    · rw [length_spread] at hi
      exact spread_no_three hsorted hfive hall (fun h5 h => hfour ⟨h5, h⟩) i hi
    · rw [length_spread] at hi
      rw [getD_spread, getD_spread, if_pos (by omega), if_pos (by omega)]
      exact hsorted _ _ (by omega) (by omega)
    · rw [length_spread] at hi
      rw [getD_spread, getD_spread, if_pos (by omega), if_pos (by omega)]
      exact hsorted _ _ (by omega) (by omega)

/-! ## The type and the cards -/

theorem FromDeck.getCardType_of_oneRank (h : FromDeck cards) (hrank : OneRank cards)
    (hne : cards ≠ []) : getCardType cards = some (match cards.length with
      | 1 => .single
      | 2 => .double
      | 3 => .three
      | _ => .bombCard) := by
  have hlen := h.length_le (List.Sublist.refl _) hrank
  have hblocks := @blocks_of_forall _ _ _ getCardLogicValue _ hne hrank
  match cards, hne with
  | [a], _ => rfl
  | [a, b], _ =>
    have hsame : getCardLogicValue a = getCardLogicValue b := hrank a (by simp) b (by simp)
    have hjokers : ¬ (a = 0x4F ∧ b = 0x4E) := by
      rintro ⟨rfl, rfl⟩
      revert hsame
      decide +kernel
    rw [getCardType, if_neg hjokers, if_pos hsame]
    rfl
  | [a, b, c], _ =>
    have hruns : analysebCardData [a, b, c] = analyseRuns [[a, b, c]] fun _ => [] :=
      congrArg (analyseRuns · fun _ => []) hblocks
    rw [getCardType_three (by simp), hruns]
    rfl
  | [a, b, c, d], _ =>
    have hruns : analysebCardData [a, b, c, d] = analyseRuns [[a, b, c, d]] fun _ => [] :=
      congrArg (analyseRuns · fun _ => []) hblocks
    rw [getCardType_three (by simp), hruns]
    rfl
  | _ :: _ :: _ :: _ :: _ :: _, _ => exact absurd hlen (by simp)

theorem legalPlay_lead {s : TableSink} (hturn : s.turnCardData = []) :
    s.legalPlay cards = some true ↔ ∃ t, getCardType cards = some t ∧ t ≠ .error := by
  rw [TableSink.legalPlay]
  cases ht : getCardType cards with
  | none => simp
  | some t => by_cases herror : t = .error <;> simp [herror, hturn]

/-- **The type is one of the cards, in whatever order they are sent**, and
a lead is accepted when they are a combination. Where the rows overflow,
as they may with more than twenty cards, there is no type. -/
structure Classified (cards : List UInt8) : Prop where
  same : ∀ order order', order.Perm cards → order'.Perm cards → ∀ t t', getCardType order = some t →
    getCardType order' = some t' → t = t'
  sorted : ∀ order, order.Perm cards → ∀ t t', getCardType order = some t →
    getCardType (sortCardList cards) = some t' → t = t'
  accepted_iff : ∀ order, order.Perm cards → ∀ s : TableSink, s.turnCardData = [] →
    (s.legalPlay order = some true ↔ Combination cards)

theorem Classified.of_same (hsame : ∀ order order', order.Perm cards → order'.Perm cards →
    ∀ t t', getCardType order = some t → getCardType order' = some t' → t = t')
    (haccepted : ∀ order, order.Perm cards →
      ((∃ t, getCardType order = some t ∧ t ≠ .error) ↔ Combination cards)) : Classified cards :=
  ⟨hsame, fun order hperm => hsame order _ hperm (sortCardList_perm cards),
    fun order hperm _ hturn => (legalPlay_lead hturn).trans (haccepted order hperm)⟩

/-- **Just the cards of one rank, and what is no combination**, are told by
the cards alone. -/
theorem classified_iff (h : FromDeck cards) :
    Classified cards ↔ OneRank cards ∨ ¬ Combination cards := by
  constructor
  · intro hc
    by_contra hnot
    rw [not_or, not_not] at hnot
    obtain ⟨order, hperm, herror⟩ := h.exists_order hnot.1
    obtain ⟨t, ht, hne⟩ := (legalPlay_lead rfl).1 ((hc.accepted_iff order hperm {} rfl).2 hnot.2)
    exact hne (herror t ht)
  · rintro (hrank | hnot)
    · have htype : ∀ order, order.Perm cards → order ≠ [] → getCardType order = some _ :=
        fun order hperm hne => (h.perm hperm).getCardType_of_oneRank (hrank.perm hperm) hne
      refine .of_same (fun order order' hperm hperm' t t' ht ht' => ?_) fun order hperm => ?_
      · have hlen := hperm.length_eq.trans hperm'.length_eq.symm
        by_cases hne : order = []
        · have hne' : order' = [] := List.length_eq_zero_iff.1 (by rw [← hlen, hne]; rfl)
          rw [hne] at ht
          rw [hne'] at ht'
          exact Option.some.inj (ht.symm.trans ht')
        · have hne' : order' ≠ [] := fun h => hne (List.length_eq_zero_iff.1 (by rw [hlen, h]; rfl))
          rw [htype order hperm hne, hlen] at ht
          rw [htype order' hperm' hne'] at ht'
          exact Option.some.inj (ht.symm.trans ht')
      · constructor
        · rintro ⟨t, ht, hne⟩
          exact ((h.perm hperm).combination_of_getCardType ht hne).perm hperm
        · intro hcomb
          have hne : order ≠ [] := (hcomb.perm hperm.symm).ne_nil
          refine ⟨_, htype order hperm hne, ?_⟩
          split <;> simp
    · have herror : ∀ order, order.Perm cards → ∀ t, getCardType order = some t → t = .error := by
        intro order hperm t ht
        by_contra hne
        exact hnot (((h.perm hperm).combination_of_getCardType ht hne).perm hperm)
      refine .of_same (fun order order' hperm hperm' t t' ht ht' => ?_) fun order hperm => ?_
      · rw [herror order hperm t ht, herror order' hperm' t' ht']
      · exact iff_of_false (fun ⟨t, ht, hne⟩ => hne (herror order hperm t ht)) hnot

theorem classified_iff_threes : FromDeck [0x03, 0x13, 0x23, 0x04] ∧
    (Classified [0x03, 0x13, 0x23, 0x04] ↔
      OneRank [0x03, 0x13, 0x23, 0x04] ∨ ¬ Combination [0x03, 0x13, 0x23, 0x04]) :=
  ⟨⟨by decide, by decide +kernel⟩, classified_iff ⟨by decide, by decide +kernel⟩⟩

/-- **They are turned down** with the four before the last three. -/
theorem not_classified : ¬ Classified [0x03, 0x13, 0x23, 0x04] := fun h =>
  absurd (h.same [0x03, 0x13, 0x23, 0x04] [0x03, 0x13, 0x04, 0x23] (.refl _) (by decide)
    .threeTakeOne .error (by decide +kernel) (by decide +kernel)) nofun

end GameServer.DouDizhu
