import GameServer.GuanDan.Wild
/-!
# Guandan — the type of a play and the order of its cards

The plays the analysis misreads in some order: what makes a three with a
pair, pairs or triples in a row, three cards with a pair around another
card, and a few cards with aces. The type of any other play, its wild cards
resolved, is one of its cards alone, and a type of the combinations of the
rules (`FromDecks.classified`).
-/

namespace GameServer.GuanDan

variable {mainValue : ℕ} {cards order : List UInt8} {t : CardType} {vs : List ℕ}
variable {a b top : ℕ} {idxs : List ℕ}

/-! ## Plays and their cards -/

/-- Cards in which each wild card stands for an ordinary one. -/
def Replaces (mainValue : ℕ) (cards replaced : List UInt8) : Prop :=
  ∃ stand : List UInt8, stand.length = wildCount mainValue cards ∧
    (∀ c ∈ stand, 1 ≤ getCardValue c ∧ getCardValue c ≤ 13 ∧ getCardColor c < 0x40) ∧
      replaced.Perm (others mainValue cards ++ stand)

/-- The wild cards stand for values that make up `vs` with those of the
other cards. -/
def Makes (mainValue : ℕ) (cards : List UInt8) (vs : List ℕ) : Prop :=
  ∃ stand : List ℕ, stand.length = wildCount mainValue cards ∧
    ((others mainValue cards).map getCardValue ++ stand).Perm vs

/-- **The type is one of the cards**: the same in any order, and but for
`CT_ERROR` that of a combination the wild cards can make. -/
structure Classified (mainValue : ℕ) (cards : List UInt8) : Prop where
  same : ∀ order order', order.Perm cards → order'.Perm cards →
    getMagicCardType mainValue order = getMagicCardType mainValue order'
  combination : ∀ order, order.Perm cards → ∀ t, getMagicCardType mainValue order = some t →
    t ≠ .error → ∃ replaced, Replaces mainValue cards replaced ∧ Combination t replaced

/-- **What the analysis misreads in some order**: three cards of which just
two are of a value; other cards of two ranks and more that the wild ones
make a three with a pair, pairs or triples in a row; a king, a queen, a jack
and two aces that are no wild cards; and without wild cards a king, a queen
and three aces, or two kings and four aces. -/
inductive Misread (mainValue : ℕ) (cards : List UInt8) : Prop
  | outer (a b : ℕ) (hne : a ≠ b) (hnot : ¬ Uniform mainValue cards)
      (h : (cards.map getCardValue).Perm [a, a, b])
  | full (a b : ℕ) (hranks : ¬ OneRank (others mainValue cards))
      (h : Makes mainValue cards [a, a, a, b, b])
  | pairs (top : ℕ) (hlow : 3 ≤ top) (hhigh : top ≤ 14) (hranks : ¬ OneRank (others mainValue cards))
      (h : Makes mainValue cards (runValues 2 3 top))
  | triples (top : ℕ) (hlow : 2 ≤ top) (hhigh : top ≤ 14)
      (hranks : ¬ OneRank (others mainValue cards)) (h : Makes mainValue cards (runValues 3 2 top))
  | aces (hwild : wildCount mainValue cards = 0 ∨ mainValue ≠ 1)
      (h : (cards.map getCardValue).Perm [13, 12, 11, 1, 1])
  | threeAces (hwild : wildCount mainValue cards = 0)
      (h : (cards.map getCardValue).Perm [13, 12, 1, 1, 1])
  | kings (hwild : wildCount mainValue cards = 0)
      (h : (cards.map getCardValue).Perm [13, 13, 1, 1, 1, 1])

theorem others_perm (h : order.Perm cards) : (others mainValue order).Perm (others mainValue cards) :=
  h.filter _

theorem wildCount_perm (h : order.Perm cards) : wildCount mainValue order = wildCount mainValue cards :=
  h.countP_eq _

def wilds (mainValue : ℕ) (cards : List UInt8) : List UInt8 :=
  cards.filter fun c => IsMagic mainValue c

theorem length_wilds (mainValue : ℕ) (cards : List UInt8) :
    (wilds mainValue cards).length = wildCount mainValue cards :=
  List.countP_eq_length_filter.symm

theorem others_append_wilds (mainValue : ℕ) (cards : List UInt8) :
    (others mainValue cards ++ wilds mainValue cards).Perm cards := by
  have hsplit := List.filter_append_perm (fun c => decide (¬ IsMagic mainValue c)) cards
  simpa [others, wilds] using hsplit

theorem uniform_iff : Uniform mainValue cards ↔ 0 < wildCount mainValue cards ∧
    others mainValue cards ≠ [] ∧ OneRank (others mainValue cards) ∧
      ∀ c ∈ others mainValue cards, getCardLogicValue mainValue c ≤ 15 := by
  have hwild : (∃ c ∈ cards, IsMagic mainValue c) ↔ 0 < wildCount mainValue cards := by
    rw [wildCount, List.countP_pos_iff]
    simp
  rw [Uniform, hwild]
  refine and_congr_right fun _ => and_congr_right fun hne => ?_
  obtain ⟨c, rest, hothers⟩ := List.exists_cons_of_ne_nil hne
  have hmem : c ∈ others mainValue cards := hothers ▸ List.mem_cons_self
  have hhead : (others mainValue cards).headD 0 = c := by rw [hothers]; rfl
  rw [hhead]
  constructor
  · rintro ⟨hlow, hall⟩
    exact ⟨fun a ha b hb => (logicValue_inj mainValue a b).1 ((hall a ha).trans (hall b hb).symm),
      fun a ha => (hall a ha).trans_le hlow⟩
  · rintro ⟨hone, hlow⟩
    exact ⟨hlow c hmem, fun a ha => (logicValue_inj mainValue a c).2 (hone a ha c hmem)⟩

theorem oneRank_congr (h : order.Perm cards) : OneRank order ↔ OneRank cards :=
  ⟨fun hone => hone.perm h.symm, fun hone => hone.perm h⟩

theorem uniform_perm (h : order.Perm cards) : Uniform mainValue order ↔ Uniform mainValue cards := by
  have hothers := @others_perm mainValue cards order h
  rw [uniform_iff, uniform_iff, wildCount_perm h, oneRank_congr hothers]
  simp only [hothers.mem_iff, ne_eq, ← List.length_eq_zero_iff, hothers.length_eq]

theorem Makes.perm (h : Makes mainValue order vs) (hperm : order.Perm cards) :
    Makes mainValue cards vs := by
  obtain ⟨stand, hlen, hvs⟩ := h
  refine ⟨stand, hlen.trans (wildCount_perm hperm), .trans ?_ hvs⟩
  exact ((others_perm hperm).symm.map _).append_right _

theorem Replaces.perm {replaced : List UInt8} (h : Replaces mainValue order replaced)
    (hperm : order.Perm cards) : Replaces mainValue cards replaced := by
  obtain ⟨stand, hlen, hordinary, hreplaced⟩ := h
  exact ⟨stand, hlen.trans (wildCount_perm hperm), hordinary,
    hreplaced.trans ((others_perm hperm).append_right _)⟩

theorem Misread.perm (h : Misread mainValue order) (hperm : order.Perm cards) :
    Misread mainValue cards := by
  have hvalues := hperm.symm.map getCardValue
  have hranks := oneRank_congr (@others_perm mainValue cards order hperm)
  cases h with
  | outer a b hne hnot h => exact .outer a b hne (fun hu => hnot ((uniform_perm hperm).2 hu)) (hvalues.trans h)
  | full a b hnot h => exact .full a b (fun hone => hnot (hranks.2 hone)) (h.perm hperm)
  | pairs top hlow hhigh hnot h =>
    exact .pairs top hlow hhigh (fun hone => hnot (hranks.2 hone)) (h.perm hperm)
  | triples top hlow hhigh hnot h =>
    exact .triples top hlow hhigh (fun hone => hnot (hranks.2 hone)) (h.perm hperm)
  | aces hwild h => exact .aces (by rwa [← wildCount_perm hperm]) (hvalues.trans h)
  | threeAces hwild h => exact .threeAces (by rwa [← wildCount_perm hperm]) (hvalues.trans h)
  | kings hwild h => exact .kings (by rwa [← wildCount_perm hperm]) (hvalues.trans h)

/-! ## Plays that are told by their cards -/

/-- The type is `t` in any order, and that of a combination. -/
def Settles (mainValue : ℕ) (cards : List UInt8) (t : CardType) : Prop :=
  (∀ order, order.Perm cards → getMagicCardType mainValue order = some t) ∧
    ∃ replaced, Replaces mainValue cards replaced ∧ Combination t replaced

theorem others_eq_self (h : wildCount mainValue cards = 0) : others mainValue cards = cards :=
  List.filter_eq_self.2 fun c hc => by
    have := List.countP_eq_zero.1 h c hc
    simpa using this

theorem magicCardData_of_none (hmax : cards.length ≤ maxCount)
    (hnone : wildCount mainValue cards = 0 ∨ others mainValue cards = []) :
    magicCardData mainValue cards = some cards := by
  rw [magicCardData_eq, if_neg (not_lt.2 hmax)]
  exact if_pos hnone

/-- Cards that are no joker and the wild cards are ordinary ones. -/
theorem FromDecks.wild_ordinary (h : FromDecks cards) : ∀ c ∈ wilds mainValue cards,
    1 ≤ getCardValue c ∧ getCardValue c ≤ 13 ∧ getCardColor c < 0x40 := by
  intro c hc
  obtain ⟨hmem, hmagic⟩ := List.mem_filter.1 hc
  obtain ⟨hvalue, hcolor⟩ := of_decide_eq_true hmagic
  have hmain := (@FromDecks.wildCount_le mainValue cards h).2 (List.countP_pos_iff.2 ⟨c, hmem, hmagic⟩)
  rw [hvalue, hcolor]
  exact ⟨hmain.1, hmain.2, by decide⟩

theorem FromDecks.replaces_self (h : FromDecks cards) : Replaces mainValue cards cards :=
  ⟨wilds mainValue cards, length_wilds _ _, h.wild_ordinary, (others_append_wilds _ _).symm⟩

theorem makes_self (h : (cards.map getCardValue).Perm vs) : Makes mainValue cards vs := by
  refine ⟨(wilds mainValue cards).map getCardValue, by rw [List.length_map, length_wilds], ?_⟩
  rw [← List.map_append]
  exact ((others_append_wilds mainValue cards).map _).trans h

theorem not_oneRank_of_run {cell n : ℕ} (hshape : RunShape cell n) (h : IsRun cell n top cards) :
    ¬ OneRank cards := by
  intro hone
  have htwo : ∀ top ≤ 14, n ≤ top → ∃ a ∈ runValues cell n top, ∃ b ∈ runValues cell n top, a ≠ b := by
    cases hshape <;> decide
  obtain ⟨a, ha, b, hb, hne⟩ := htwo top h.2.1 h.1
  obtain ⟨x, hx, rfl⟩ := List.mem_map.1 (h.2.2.symm.subset ha)
  obtain ⟨y, hy, rfl⟩ := List.mem_map.1 (h.2.2.symm.subset hb)
  exact hne (hone x hx y hy)

theorem not_oneRank_of_full (hne : a ≠ b)
    (h : (cards.map getCardValue).Perm [a, a, a, b, b]) : ¬ OneRank cards := by
  intro hone
  obtain ⟨x, hx, rfl⟩ := List.mem_map.1 (h.symm.subset (by simp : a ∈ [a, a, a, b, b]))
  obtain ⟨y, hy, rfl⟩ := List.mem_map.1 (h.symm.subset (by simp : b ∈ [_, _, _, b, b]))
  exact hne (hone x hx y hy)

theorem sameType_cases (n : ℕ) : sameType n = .double ∨ sameType n = .three ∨ sameType n = .bomb := by
  unfold sameType
  split <;> simp

/-- What the wild cards do not change. -/
theorem FromDecks.settles_of_none (h : FromDecks cards) (hmax : cards.length ≤ maxCount)
    (hnot : ¬ Misread mainValue cards)
    (hnone : wildCount mainValue cards = 0 ∨ others mainValue cards = [])
    (ht : getCardType mainValue cards = some t) (hne : t ≠ .error) : Settles mainValue cards t := by
  have hlength := length_others_add mainValue cards
  have htwo := (@FromDecks.wildCount_le mainValue cards h).1
  have hfew : 3 ≤ cards.length → wildCount mainValue cards = 0 := by
    rcases hnone with hzero | hnil
    · exact fun _ => hzero
    · rw [hnil, List.length_nil] at hlength
      omega
  have hwildless : 3 ≤ cards.length → others mainValue cards = cards := fun hlen =>
    others_eq_self (hfew hlen)
  rcases h.valued.combination_or_slip (fun _ => h) ht hne with hc | hslip
  · have hstays : t ≠ .doubleLink ∧ t ≠ .threeLink ∧ t ≠ .threeDouble := by
      cases hc with
      | single | fourJokers | straight | straightFlush => exact ⟨nofun, nofun, nofun⟩
      | same =>
        rcases sameType_cases cards.length with h | h | h <;> rw [h] <;> exact ⟨nofun, nofun, nofun⟩
      | pairs top hrun =>
        have hlen := length_of_isRun hrun
        refine absurd (.pairs top hrun.1 hrun.2.1 ?_ (makes_self hrun.2.2)) hnot
        rw [hwildless (by omega)]
        exact not_oneRank_of_run .double hrun
      | triples top hrun =>
        have hlen := length_of_isRun hrun
        refine absurd (.triples top hrun.1 hrun.2.1 ?_ (makes_self hrun.2.2)) hnot
        rw [hwildless (by omega)]
        exact not_oneRank_of_run .three hrun
      | full a b hab hvalues =>
        have hlen := hvalues.length_eq
        simp only [List.length_map, List.length_cons, List.length_nil] at hlen
        refine absurd (.full a b ?_ (makes_self hvalues)) hnot
        rw [hwildless (by omega)]
        exact not_oneRank_of_full hab hvalues
    refine ⟨fun order hperm => ?_, cards, h.replaces_self, hc⟩
    have hnone' : wildCount mainValue order = 0 ∨ others mainValue order = [] := by
      rcases hnone with hzero | hnil
      · exact .inl ((wildCount_perm hperm).trans hzero)
      · refine .inr (List.length_eq_zero_iff.1 ?_)
        rw [(@others_perm mainValue cards order hperm).length_eq, hnil, List.length_nil]
    rw [getMagicCardType, magicCardData_of_none (hperm.length_eq.trans_le hmax) hnone', Option.bind_some]
    exact hc.getCardType_perm h.valued hperm.symm ht hstays.1 hstays.2.1 hstays.2.2
  · exfalso
    have hlen : 3 ≤ cards.length := by
      cases hslip with
      | outer a b hab hvalues | kings hvalues =>
        have := hvalues.length_eq
        simp only [List.length_map, List.length_cons, List.length_nil] at this
        omega
      | aces t htype hvalues =>
        rcases hvalues with hvalues | hvalues <;>
        · have := hvalues.length_eq
          simp only [List.length_map, List.length_cons, List.length_nil] at this
          omega
    have hzero := hfew hlen
    cases hslip with
    | outer a b hab hvalues =>
      refine hnot (.outer a b hab (fun hu => ?_) hvalues)
      have := (uniform_iff.1 hu).1
      omega
    | aces t htype hvalues =>
      rcases hvalues with hvalues | hvalues
      · exact hnot (.aces (.inl hzero) hvalues)
      · exact hnot (.threeAces hzero hvalues)
    | kings hvalues => exact hnot (.kings hzero hvalues)

/-- **Cards of one rank with wild cards** have the type of their number. -/
theorem FromDecks.settles_of_uniform (h : FromDecks cards) (hmax : cards.length ≤ maxCount)
    (hu : Uniform mainValue cards) : Settles mainValue cards (sameType cards.length) := by
  have hlength := length_others_add mainValue cards
  obtain ⟨hwild, hothers, hone, hlow⟩ := uniform_iff.1 hu
  have htwo := (@FromDecks.wildCount_le mainValue cards h).1
  have hpos := List.length_pos_iff.2 hothers
  -- no more than eight other cards are of a value
  have hten : cards.length ≤ 10 := by
    obtain ⟨c, rest, hcons⟩ := List.exists_cons_of_ne_nil hothers
    have hmem : c ∈ others mainValue cards := hcons ▸ List.mem_cons_self
    have hall := length_others_le hone hmem
    have hcount := h.countP_value_le (getCardValue c)
    split_ifs at hcount <;> omega
  -- what the wild cards become
  have hresult : ∀ order, order.Perm cards → OneRank (List.replicate (wildCount mainValue order)
      ((others mainValue order).headD 0) ++ others mainValue order) ∧
        (List.replicate (wildCount mainValue order) ((others mainValue order).headD 0) ++
          others mainValue order).length = cards.length := by
    intro order hperm
    have hothers' := @others_perm mainValue cards order hperm
    constructor
    · obtain ⟨c, rest, hcons⟩ := List.exists_cons_of_length_pos
        (hothers'.length_eq ▸ hpos : 0 < (others mainValue order).length)
      have hmem : ∀ x ∈ List.replicate (wildCount mainValue order) ((others mainValue order).headD 0) ++
          others mainValue order, x ∈ others mainValue cards := by
        intro x hx
        rcases List.mem_append.1 hx with hx | hx
        · rw [List.eq_of_mem_replicate hx, hcons, List.headD_cons]
          exact hothers'.subset (hcons ▸ List.mem_cons_self)
        · exact hothers'.subset hx
      exact fun a ha b hb => hone a (hmem a ha) b (hmem b hb)
    · rw [List.length_append, List.length_replicate, wildCount_perm hperm, hothers'.length_eq]
      omega
  refine ⟨fun order hperm => ?_, _, ⟨List.replicate (wildCount mainValue cards)
    ((others mainValue cards).headD 0), List.length_replicate, ?_, List.perm_append_comm⟩, ?_⟩
  · obtain ⟨result, hmagic, hresolved⟩ := (h.perm hperm).resolved (hperm.length_eq.trans_le hmax)
    have hu' := (uniform_perm hperm).2 hu
    obtain ⟨hwild', hothers', -⟩ := uniform_iff.1 hu'
    rw [getMagicCardType, hmagic, Option.bind_some]
    cases hresolved with
    | raw hnone =>
      rcases hnone with hzero | hnil
      · omega
      · exact absurd hnil hothers'
    | uniform hsame =>
      obtain ⟨hone', hlen⟩ := hresult order hperm
      rw [hone'.getCardType (by omega) (by omega), hlen]
    | full _ _ hnot | line _ _ hnot | copy _ _ hnot => exact absurd hu' hnot
  · intro c hc
    obtain ⟨x, rest, hcons⟩ := List.exists_cons_of_ne_nil hothers
    have hmem : x ∈ others mainValue cards := hcons ▸ List.mem_cons_self
    rw [List.eq_of_mem_replicate hc, hcons, List.headD_cons]
    have hcolored := (h.colored : Colored (others mainValue cards)) x hmem
    have hvalue : getCardValue x ≤ 13 := by
      have hle := hlow x hmem
      have hmain := (@FromDecks.wildCount_le mainValue cards h).2 hwild
      rw [getCardLogicValue_eq] at hle
      split_ifs at hle <;> omega
    exact ⟨hcolored.1, hvalue, hcolored.2 hvalue⟩
  · obtain ⟨hone', hlen⟩ := hresult cards (.refl _)
    rw [← hlen]
    exact .same (by omega) (by omega) hone'

/-! ## Straights with wild cards -/

structure LineResult (mainValue : ℕ) (cards result : List UInt8) (extra : List UInt8) : Prop where
  perm : result.Perm (others mainValue cards ++ extra)
  length_extra : extra.length = wildCount mainValue cards
  ordinary : ∀ c ∈ extra, 1 ≤ getCardValue c ∧ getCardValue c ≤ 13 ∧ getCardColor c < 0x40
  color : ∀ c ∈ extra, getCardColor c = getCardColor ((others mainValue cards).headD 0)
  sorted : sortCardList mainValue result = result
  count_le : ∀ v, (result.map getCardValue).count v ≤
    max (((others mainValue cards).map getCardValue).count v)
      (sameCount mainValue (others mainValue cards))

theorem FromDecks.lineResult (h : FromDecks cards)
    (hidxs : idxs = upward ∨ idxs = downward) (hlen : cards.length = 5 ∨ cards.length = 6)
    (hdone : (line (others mainValue cards) (wildCount mainValue cards)
      (sameCount mainValue (others mainValue cards)) idxs).Done) :
    ∃ extra, LineResult mainValue cards (sortCardList mainValue (line (others mainValue cards)
      (wildCount mainValue cards) (sameCount mainValue (others mainValue cards)) idxs).result) extra := by
  have hlength := length_others_add mainValue cards
  have htwo := (@FromDecks.wildCount_le mainValue cards h).1
  have hcolored : Colored (others mainValue cards) := h.colored
  obtain ⟨extra, hperm, hextra, hcards, hlow, hcount⟩ := hcolored.filled_perm hidxs (by omega)
    (one_le_sameCount mainValue (others mainValue cards)) hdone
  have hsort : (sortCardList mainValue (line (others mainValue cards) (wildCount mainValue cards)
      (sameCount mainValue (others mainValue cards)) idxs).result).Perm
        (others mainValue cards ++ extra) := (sortBy_perm _ _).trans hperm
  refine ⟨extra, hsort, hextra, fun c hc => ?_, fun c hc => (hcards c hc).2.2,
    sortBy_congr _ (sortBy_perm _ _), fun v => ?_⟩
  · obtain ⟨hone, hthirteen, hcolor⟩ := hcards c hc
    obtain ⟨x, rest, hcons⟩ := List.exists_cons_of_length_pos (by omega : 0 < (others mainValue cards).length)
    have hmem : x ∈ others mainValue cards := hcons ▸ List.mem_cons_self
    rw [hcons, List.headD_cons] at hcolor
    rw [hcolor]
    exact ⟨hone, hthirteen, (hcolored x hmem).2 (hlow x hmem)⟩
  · rw [(hsort.map getCardValue).count_eq]
    exact hcount v

section Line

variable {result extra : List UInt8}

theorem LineResult.valued (hline : LineResult mainValue cards result extra) (h : FromDecks cards) :
    Valued result := by
  intro c hc
  rcases List.mem_append.1 (hline.perm.subset hc) with hc | hc
  · exact h.valued c (List.mem_of_mem_filter hc)
  · obtain ⟨hone, -, hcolor⟩ := hline.ordinary c hc
    exact ⟨hone, UInt8.le_of_lt hcolor⟩

theorem LineResult.length_eq (hline : LineResult mainValue cards result extra) :
    result.length = cards.length := by
  rw [hline.perm.length_eq, List.length_append, hline.length_extra, length_others_add]

/-- A line is of one colour when the other cards are. -/
theorem LineResult.oneColor_iff (hline : LineResult mainValue cards result extra)
    (hpos : 0 < (others mainValue cards).length) :
    OneColor result ↔ OneColor (others mainValue cards) := by
  obtain ⟨x, rest, hcons⟩ := List.exists_cons_of_length_pos hpos
  have hmem : x ∈ others mainValue cards := hcons ▸ List.mem_cons_self
  have hcolor := hline.color
  rw [hcons, List.headD_cons] at hcolor
  rw [oneColor_congr hline.perm]
  constructor
  · exact fun hone a ha b hb => hone a (List.mem_append_left _ ha) b (List.mem_append_left _ hb)
  · intro hone
    have hall : ∀ a ∈ others mainValue cards ++ extra, getCardColor a = getCardColor x := by
      intro a ha
      rcases List.mem_append.1 ha with ha | ha
      · exact hone a ha x hmem
      · exact hcolor a ha
    exact fun a ha b hb => (hall a ha).trans (hall b hb).symm

end Line

/-- Cards that wild ones make a combination of two ranks and more: a
straight, or something that is misread. -/
theorem misread_or_run {result extra : List UInt8}
    (hranks : 5 ≤ cards.length → ¬ OneRank (others mainValue cards))
    (hperm : result.Perm (others mainValue cards ++ extra))
    (hextra : extra.length = wildCount mainValue cards) (htwo : 2 ≤ cards.length)
    (hone : ¬ OneRank result) (hjokers : ¬ result.Perm [0x4F, 0x4F, 0x4E, 0x4E])
    (hc : Combination t result) : Misread mainValue cards ∨
      ((∃ top, IsRun 1 5 top result) ∧ (t = .singleLink ∨ t = .tongHuaShun)) := by
  have hlength := length_others_add mainValue cards
  have hlen := hperm.length_eq
  rw [List.length_append] at hlen
  have hmakes : ∀ {vs}, (result.map getCardValue).Perm vs → Makes mainValue cards vs := by
    intro vs hvs
    refine ⟨extra.map getCardValue, by rw [List.length_map, hextra], ?_⟩
    rw [← List.map_append]
    exact (hperm.symm.map _).trans hvs
  cases hc with
  | single hsingle => omega
  | same _ _ hsame => exact absurd hsame hone
  | fourJokers hfour => exact absurd hfour hjokers
  | straight top hrun => exact .inr ⟨⟨top, hrun⟩, .inl rfl⟩
  | straightFlush top hrun => exact .inr ⟨⟨top, hrun⟩, .inr rfl⟩
  | pairs top hrun =>
    have := length_of_isRun hrun
    exact .inl (.pairs top hrun.1 hrun.2.1 (hranks (by omega)) (hmakes hrun.2.2))
  | triples top hrun =>
    have := length_of_isRun hrun
    exact .inl (.triples top hrun.1 hrun.2.1 (hranks (by omega)) (hmakes hrun.2.2))
  | full a b hne hvalues =>
    have := hvalues.length_eq
    simp only [List.length_map, List.length_cons, List.length_nil] at this
    exact .inl (.full a b (hranks (by omega)) (hmakes hvalues))

theorem not_headTail {normal : List UInt8} (hlen : 3 ≤ normal.length)
    (hnodup : (normal.map getCardValue).Nodup) : ¬ HeadTail normal := by
  rintro ⟨-, hall⟩
  match normal with
  | a :: b :: c :: rest =>
    have hmem : b ∈ ((a :: b :: c :: rest).drop 1).dropLast := by
      exact List.mem_cons_self
    have hlast : (a :: b :: c :: rest).getLastD 0 ∈ c :: rest := by
      cases rest with
      | nil => exact List.mem_cons_self
      | cons d rest =>
        refine List.mem_cons_of_mem _ ?_
        exact List.getLast_mem _
    rw [List.map_cons, List.map_cons, List.nodup_cons, List.nodup_cons] at hnodup
    obtain ⟨ha, hb, -⟩ := hnodup
    rcases hall b hmem with h | h
    · exact ha (h ▸ List.mem_cons_self)
    · exact hb (h ▸ List.mem_map_of_mem hlast)

theorem sameCount_of_nodup {normal : List UInt8} (h : (normal.map getCardValue).Nodup) :
    sameCount mainValue normal = 1 :=
  sameCount_of_isChain mainValue (List.pairwise_map.1 h).isChain

/-- Five cards whose other ones are of different ranks: a line, or the cards
as they are where there is none. -/
theorem FromDecks.straight_cases (h : FromDecks cards) (hwild : 0 < wildCount mainValue cards)
    (hfive : cards.length = 5) (hnodup : ((others mainValue cards).map getCardValue).Nodup) :
    (∃ idxs extra, (idxs = upward ∨ idxs = downward) ∧
      (line (others mainValue cards) (wildCount mainValue cards) 1 idxs).Done ∧
      (idxs = downward → ¬ (line (others mainValue cards) (wildCount mainValue cards) 1 upward).Done) ∧
      LineResult mainValue cards (sortCardList mainValue
        (line (others mainValue cards) (wildCount mainValue cards) 1 idxs).result) extra ∧
      magicCardData mainValue cards = some (sortCardList mainValue
        (line (others mainValue cards) (wildCount mainValue cards) 1 idxs).result)) ∨
    ((∀ idxs, idxs = upward ∨ idxs = downward →
      ¬ (line (others mainValue cards) (wildCount mainValue cards) 1 idxs).Done) ∧
        magicCardData mainValue cards = some cards) := by
  have hmax : maxCount = 28 := rfl
  have hlength := length_others_add mainValue cards
  have htwo := (@FromDecks.wildCount_le mainValue cards h).1
  have hsame := @sameCount_of_nodup mainValue _ hnodup
  obtain ⟨result, hmagic, hresolved⟩ := @FromDecks.resolved mainValue cards h (by omega)
  rw [hmagic]
  cases hresolved with
  | raw hnone =>
    rcases hnone with hzero | hnil
    · omega
    · rw [hnil, List.length_nil] at hlength
      omega
  | uniform hu =>
    exfalso
    have hone := (uniform_iff.1 hu).2.2.1
    have hthree : 3 ≤ (others mainValue cards).length := by omega
    generalize others mainValue cards = normal at hone hnodup hthree
    match normal with
    | a :: b :: _ =>
      rw [List.map_cons, List.map_cons, List.nodup_cons] at hnodup
      exact hnodup.1 (by rw [hone a (by simp) b (by simp)]; exact List.mem_cons_self)
  | full hlen _ hnot hshape => exact absurd hshape (not_headTail (by omega) hnodup)
  | line hidxs _ hnot hfull hlink hdone hfirst =>
    obtain ⟨extra, hline⟩ := h.lineResult hidxs (.inl hfive) hdone
    rw [hsame] at hdone hfirst hline ⊢
    exact .inl ⟨_, extra, hidxs, hdone, hfirst, hline, rfl⟩
  | copy _ hne hnot hfull hline =>
    rw [hsame] at hline
    exact .inr ⟨hline (.inl ⟨rfl, hfive⟩), rfl⟩

theorem FromDecks.line_perm (h : FromDecks cards) (hperm : order.Perm cards)
    (hidxs : idxs = upward ∨ idxs = downward) :
    SameLine (line (others mainValue order) (wildCount mainValue order) 1 idxs)
      (line (others mainValue cards) (wildCount mainValue cards) 1 idxs) := by
  rw [wildCount_perm hperm]
  exact (h.perm hperm).colored.line_congr h.colored ((others_perm hperm).map _) hidxs

/-- **A straight that wild cards make** is made in any order. -/
theorem FromDecks.settles_of_line (h : FromDecks cards) (hwild : 0 < wildCount mainValue cards)
    (hfive : cards.length = 5) (hnodup : ((others mainValue cards).map getCardValue).Nodup)
    {extra : List UInt8} (hidxs : idxs = upward ∨ idxs = downward)
    (hdone : (line (others mainValue cards) (wildCount mainValue cards) 1 idxs).Done)
    (hfirst : idxs = downward →
      ¬ (line (others mainValue cards) (wildCount mainValue cards) 1 upward).Done)
    (hline : LineResult mainValue cards (sortCardList mainValue
      (line (others mainValue cards) (wildCount mainValue cards) 1 idxs).result) extra)
    (hrun : IsRun 1 5 top (sortCardList mainValue
      (line (others mainValue cards) (wildCount mainValue cards) 1 idxs).result))
    (ht : getCardType mainValue (sortCardList mainValue
      (line (others mainValue cards) (wildCount mainValue cards) 1 idxs).result) = some t)
    (hc : Combination t (sortCardList mainValue
      (line (others mainValue cards) (wildCount mainValue cards) 1 idxs).result)) :
    Settles mainValue cards t := by
  have hlength := length_others_add mainValue cards
  have htwo := (@FromDecks.wildCount_le mainValue cards h).1
  refine ⟨fun order hperm => ?_, _, ⟨extra, hline.length_extra, hline.ordinary, hline.perm⟩, hc⟩
  have hothers := @others_perm mainValue cards order hperm
  have hnodup' : ((others mainValue order).map getCardValue).Nodup :=
    (hothers.map getCardValue).nodup_iff.2 hnodup
  rcases (h.perm hperm).straight_cases (by rwa [wildCount_perm hperm]) (hperm.length_eq.trans hfive) hnodup'
    with ⟨idxs', extra', hidxs', hdone', hfirst', hline', hmagic⟩ | ⟨hnone, -⟩
  · -- the same way is taken first
    obtain rfl : idxs' = idxs := by
      rcases hidxs with rfl | rfl <;> rcases hidxs' with rfl | rfl
      · rfl
      · exact absurd ((h.line_perm hperm (.inl rfl)).done.2 hdone) (hfirst' rfl)
      · exact absurd ((h.line_perm hperm (.inl rfl)).done.1 hdone') (hfirst rfl)
      · rfl
    have hvalues := values_sortCardList (pairwise_sortBy (getCardLogicValue mainValue)
      (line (others mainValue cards) (wildCount mainValue cards) 1 idxs').result)
      (((List.Perm.of_eq (h.line_perm hperm hidxs).values)).trans ((sortBy_perm _ _).map _).symm)
    have hrun' := hrun
    rw [IsRun, show (sortCardList mainValue (line (others mainValue cards) (wildCount mainValue cards) 1
      idxs').result).map getCardValue = _ from hvalues.symm] at hrun'
    have hne : ∀ {l}, IsRun 1 5 top l → l ≠ [] := fun hl =>
      List.ne_nil_of_length_pos (by rw [length_of_isRun hl]; omega)
    rw [getCardType_of_run hrun] at ht
    rw [getMagicCardType, hmagic, Option.bind_some, getCardType_of_run hrun', ← ht]
    classical
    rw [lineType_one (hline.valued h) (hne hrun), lineType_one (hline'.valued (h.perm hperm)) (hne hrun')]
    simp only [hline.oneColor_iff (by omega), hline'.oneColor_iff (by rw [hothers.length_eq]; omega),
      oneColor_congr hothers]
  · exact absurd ((h.line_perm hperm hidxs).done.2 hdone) (hnone idxs hidxs)

/-- **A straight that has no place for wild cards** stays what it is. -/
theorem FromDecks.settles_of_copy (h : FromDecks cards) (hwild : 0 < wildCount mainValue cards)
    (hnone : ∀ idxs, idxs = upward ∨ idxs = downward →
      ¬ (line (others mainValue cards) (wildCount mainValue cards) 1 idxs).Done)
    (hrun : IsRun 1 5 top cards) (ht : getCardType mainValue cards = some t) (hc : Combination t cards)
    (hline : t = .singleLink ∨ t = .tongHuaShun) : Settles mainValue cards t := by
  have hfive := length_of_isRun hrun
  have hnodup : ((others mainValue cards).map getCardValue).Nodup :=
    (nodup_of_isRun hrun).sublist (List.filter_sublist.map _)
  refine ⟨fun order hperm => ?_, cards, h.replaces_self, hc⟩
  have hnodup' : ((others mainValue order).map getCardValue).Nodup :=
    ((others_perm hperm).map getCardValue).nodup_iff.2 hnodup
  rcases (h.perm hperm).straight_cases (by rwa [wildCount_perm hperm]) (hperm.length_eq.trans hfive) hnodup'
    with ⟨idxs, extra, hidxs, hdone, -⟩ | ⟨-, hmagic⟩
  · exact absurd ((h.line_perm hperm hidxs).done.1 hdone) (hnone idxs hidxs)
  · rw [getMagicCardType, hmagic, Option.bind_some]
    refine hc.getCardType_perm h.valued hperm.symm ht ?_ ?_ ?_ <;> rcases hline with rfl | rfl <;> nofun

/-! ## What has no type in any order -/

theorem perm_full {us : List ℕ} (hne : a ≠ b) (hall : ∀ v ∈ us, v = a ∨ v = b)
    (ha : us.count a ≤ 3) (hb : us.count b ≤ 2) :
    (us ++ (List.replicate (3 - us.count a) a ++ List.replicate (2 - us.count b) b)).Perm
      [a, a, a, b, b] := by
  refine List.perm_iff_count.2 fun v => ?_
  rw [List.count_append, List.count_append, List.count_replicate, List.count_replicate]
  by_cases hva : a = v
  · subst hva
    simp only [beq_self_eq_true, if_true, List.count_cons, List.count_nil, beq_iff_eq, hne.symm, if_false]
    omega
  by_cases hvb : b = v
  · subst hvb
    simp only [beq_self_eq_true, if_true, List.count_cons, List.count_nil, beq_iff_eq, hne, if_false]
    omega
  · have hzero : us.count v = 0 := List.count_eq_zero.2 fun hv => by
      rcases hall v hv with rfl | rfl
      · exact hva rfl
      · exact hvb rfl
    simp [hzero, hva, hvb]

theorem length_of_two {us : List ℕ} (hne : a ≠ b) (hall : ∀ v ∈ us, v = a ∨ v = b) :
    us.length = us.count a + us.count b := by
  induction us with
  | nil => rfl
  | cons v us ih =>
    obtain ⟨hv, hrest⟩ := List.forall_mem_cons.1 hall
    rw [List.length_cons, ih hrest]
    rcases hv with rfl | rfl
    · rw [List.count_cons_self, List.count_cons_of_ne hne]
      omega
    · rw [List.count_cons_self, List.count_cons_of_ne hne.symm]
      omega

/-- Other cards of two ranks, three of each at most, are misread in five
cards. -/
theorem FromDecks.misread_of_two (h : FromDecks cards) (hwild : 0 < wildCount mainValue cards)
    (hfive : cards.length = 5) (hne : a ≠ b) (hmem : a ∈ (others mainValue cards).map getCardValue)
    (hmem' : b ∈ (others mainValue cards).map getCardValue)
    (hall : ∀ v ∈ (others mainValue cards).map getCardValue, v = a ∨ v = b) :
    Misread mainValue cards := by
  have hlength := length_others_add mainValue cards
  have hranks : ¬ OneRank (others mainValue cards) := by
    intro hone
    obtain ⟨x, hx, rfl⟩ := List.mem_map.1 hmem
    obtain ⟨y, hy, rfl⟩ := List.mem_map.1 hmem'
    exact hne (hone x hx y hy)
  have hsum := length_of_two hne hall
  have hpos := List.count_pos_iff.2 hmem
  have hpos' := List.count_pos_iff.2 hmem'
  rw [List.length_map] at hsum
  by_cases hb : ((others mainValue cards).map getCardValue).count b ≤ 2
  · refine .full a b hranks ⟨_, ?_, perm_full hne hall (by omega) hb⟩
    rw [List.length_append, List.length_replicate, List.length_replicate]
    omega
  · refine .full b a hranks ⟨_, ?_, perm_full hne.symm (fun v hv => (hall v hv).symm) (by omega) (by omega)⟩
    rw [List.length_append, List.length_replicate, List.length_replicate]
    omega

theorem FromDecks.misread_of_headTail (h : FromDecks cards) (hwild : 0 < wildCount mainValue cards)
    (hnot : ¬ Uniform mainValue cards) (hfive : cards.length = 5)
    (hshape : HeadTail (others mainValue cards)) : Misread mainValue cards := by
  have hlength := length_others_add mainValue cards
  have htwo := (@FromDecks.wildCount_le mainValue cards h).1
  have hranks := h.not_oneRank hwild hnot (by omega)
  obtain ⟨hlong, hmiddle⟩ := hshape
  obtain ⟨x, rest, hcons⟩ := List.exists_cons_of_length_pos
    (by omega : 0 < (others mainValue cards).length)
  rw [hcons, List.length_cons] at hlong
  obtain ⟨middle, z, rfl⟩ : ∃ middle z, rest = middle ++ [z] :=
    ⟨rest.dropLast, rest.getLast (List.ne_nil_of_length_pos (by omega)),
      (List.dropLast_append_getLast _).symm⟩
  have hlast : (x :: (middle ++ [z])).getLastD 0 = z := by
    rw [← List.cons_append, List.getLastD_concat]
  rw [hcons, hlast, List.headD_cons, List.drop_one, List.tail_cons, List.dropLast_concat] at hmiddle
  have hall : ∀ c ∈ others mainValue cards, getCardValue c = getCardValue x ∨
      getCardValue c = getCardValue z := by
    intro c hc
    rw [hcons, List.mem_cons, List.mem_append, List.mem_singleton] at hc
    rcases hc with rfl | hc | rfl
    · exact .inl rfl
    · exact hmiddle c hc
    · exact .inr rfl
  have hx : x ∈ others mainValue cards := hcons ▸ List.mem_cons_self
  have hz : z ∈ others mainValue cards := by rw [hcons]; simp
  refine h.misread_of_two hwild hfive (a := getCardValue x) (b := getCardValue z) ?_
    (List.mem_map_of_mem hx) (List.mem_map_of_mem hz) ?_
  · intro hsame
    refine hranks fun c hc d hd => ?_
    have hvalue : ∀ c ∈ others mainValue cards, getCardValue c = getCardValue x := fun c hc =>
      (hall c hc).elim id fun heq => heq.trans hsame.symm
    exact (hvalue c hc).trans (hvalue d hd).symm
  · intro v hv
    obtain ⟨c, hc, rfl⟩ := List.mem_map.1 hv
    exact hall c hc

theorem not_oneRank_cards (hwild : 0 < wildCount mainValue cards)
    (hne : others mainValue cards ≠ []) (hnot : ¬ Uniform mainValue cards) : ¬ OneRank cards := by
  intro hone
  refine hnot (uniform_iff.2 ⟨hwild, hne, fun a ha b hb => ?_, fun c hc => ?_⟩)
  · exact hone a (List.mem_of_mem_filter ha) b (List.mem_of_mem_filter hb)
  · obtain ⟨w, hw, hmagic⟩ := List.countP_pos_iff.1 hwild
    have hvalue := hone c (List.mem_of_mem_filter hc) w hw
    rw [(of_decide_eq_true hmagic).1] at hvalue
    rw [getCardLogicValue, if_pos hvalue]

theorem values_others (mainValue : ℕ) (h : (cards.map getCardValue).Perm vs) :
    ((others mainValue cards).map getCardValue ++
      List.replicate (wildCount mainValue cards) mainValue).Perm vs := by
  have hwilds : (wilds mainValue cards).map getCardValue =
      List.replicate (wildCount mainValue cards) mainValue := by
    refine List.eq_replicate_iff.2 ⟨by rw [List.length_map, length_wilds], fun v hv => ?_⟩
    obtain ⟨c, hc, rfl⟩ := List.mem_map.1 hv
    exact (of_decide_eq_true (List.mem_filter.1 hc).2).1
  rw [← hwilds, ← List.map_append]
  exact ((others_append_wilds mainValue cards).map _).trans h

/-- The values of the other cards, when those of the wild ones are taken
out. -/
theorem values_others_eq (us : List ℕ) (h : (cards.map getCardValue).Perm vs)
    (hvs : vs.Perm (us ++ List.replicate (wildCount mainValue cards) mainValue)) :
    ((others mainValue cards).map getCardValue).Perm us :=
  (List.perm_append_right_iff _).1 ((values_others mainValue h).trans hvs)

theorem mainValue_mem (hwild : 0 < wildCount mainValue cards)
    (h : (cards.map getCardValue).Perm vs) : mainValue ∈ vs :=
  (values_others mainValue h).subset (List.mem_append_right _ (List.mem_replicate.2 ⟨by omega, rfl⟩))

theorem FromDecks.line_done (h : FromDecks cards) (us : List ℕ) {maxSame : ℕ}
    (hus : ((others mainValue cards).map getCardValue).Perm us) (hvs : ∀ v ∈ us, 1 ≤ v ∧ v ≤ 13)
    (hidxs : idxs = upward ∨ idxs = downward)
    (hdone : (line (plainCards us) (wildCount mainValue cards) maxSame idxs).Done) :
    (line (others mainValue cards) (wildCount mainValue cards) maxSame idxs).Done :=
  (h.colored.line_plainCards hus hvs hidxs).done.2 hdone

/-- Cards that stand apart do so when some of a value are taken out that is
the only one they have twice. -/
theorem isChain_filter {p : UInt8 → Bool} {v : ℕ} : ∀ {l : List UInt8},
    (∀ c ∈ l, p c = false → getCardValue c = v) →
      l.IsChain (fun a b => getCardValue a ≠ getCardValue b) →
        l.Pairwise (fun a b => getCardValue a = v ∨ getCardValue a ≠ getCardValue b) →
          (l.filter p).IsChain fun a b => getCardValue a ≠ getCardValue b
  | [], _, _, _ => .nil
  | a :: l, hv, hchain, hpair => by
    obtain ⟨hva, hvl⟩ := List.forall_mem_cons.1 hv
    obtain ⟨hpa, hpl⟩ := List.pairwise_cons.1 hpair
    have ih := isChain_filter hvl hchain.tail hpl
    by_cases ha : p a = true
    · rw [List.filter_cons_of_pos ha, List.isChain_cons]
      refine ⟨fun b hb => ?_, ih⟩
      have hmem : b ∈ l := List.mem_of_mem_filter (List.mem_of_mem_head? hb)
      rcases hpa b hmem with hav | hne
      · -- the next card is of another value, so it stays
        match l, hchain with
        | c :: l, hchain =>
          have hac : getCardValue a ≠ getCardValue c := hchain.rel
          have hc : p c = true := by
            by_contra hc
            exact hac (hav.trans (hvl c List.mem_cons_self (Bool.eq_false_iff.2 hc)).symm)
          rw [List.filter_cons_of_pos hc, List.head?_cons, Option.mem_some_iff] at hb
          exact hb ▸ hac
      · exact hne
    · rw [List.filter_cons_of_neg ha]
      exact ih

/-- Three aces apart, some of them wild, leave the other cards apart. -/
theorem sameCount_of_threeAces (hcelled : Celled 1 cards)
    (hvalues : (cards.map getCardValue).Perm [13, 12, 1, 1, 1]) :
    sameCount 1 (others 1 cards) = 1 := by
  refine sameCount_of_isChain 1 (isChain_filter (v := 1) (fun c _ hc => ?_)
    (length_blocks_one_iff.1 hcelled) ?_)
  · simp only [decide_not, Bool.not_eq_false', decide_eq_true_eq] at hc
    exact hc.1
  · have hpair : ([13, 12, 1, 1, 1] : List ℕ).Pairwise fun a b => a = 1 ∨ a ≠ b := by decide
    have hsymm : ∀ {a b : ℕ}, a = 1 ∨ a ≠ b → b = 1 ∨ b ≠ a := by
      omega
    exact List.pairwise_map.1 ((hvalues.pairwise_iff hsymm).2 hpair)

theorem celled_iff_values {cell : ℕ} :
    Celled cell cards ↔ ∀ block ∈ blocks id (cards.map getCardValue), block.length = cell := by
  rw [blocks_map (fun _ => rfl)]
  simp [Celled]

theorem kings_values (hcelled : Celled 2 cards)
    (hvalues : (cards.map getCardValue).Perm [13, 13, 1, 1, 1, 1]) :
    cards.map getCardValue = [1, 1, 13, 13, 1, 1] := by
  have hmem : ∀ v ∈ cards.map getCardValue, v ∈ [1, 13] := fun v hv => by
    have := hvalues.subset hv
    simp at this ⊢
    omega
  have hcount := hvalues.count_eq 13
  have hblocks := celled_iff_values.1 hcelled
  have hall : ∀ a ∈ [1, 13], ∀ b ∈ [1, 13], ∀ c ∈ [1, 13], ∀ d ∈ [1, 13], ∀ e ∈ [1, 13],
      ∀ f ∈ [1, 13], (∀ block ∈ blocks id [a, b, c, d, e, f], block.length = 2) →
        [a, b, c, d, e, f].count 13 = 2 → [a, b, c, d, e, f] = [1, 1, 13, 13, 1, 1] := by
    decide +kernel
  have hlen := hvalues.length_eq
  generalize cards.map getCardValue = vs at *
  match vs, hlen with
  | [a, b, c, d, e, f], _ =>
    simp only [List.forall_mem_cons] at hmem
    obtain ⟨ha, hb, hc, hd, he, hf, -⟩ := hmem
    exact hall a ha b hb c hc d hd e he f hf hblocks hcount

/-- One of the kings is wild: the other cards end with a pair. -/
theorem sameCount_of_kings (hvalues : cards.map getCardValue = [1, 1, 13, 13, 1, 1])
    (hwild : wildCount 13 cards = 1) : sameCount 13 (others 13 cards) = 2 := by
  have hlen : cards.length = 6 := by simpa using congrArg List.length hvalues
  match cards, hlen, hvalues with
  | [a, b, c, d, e, f], _, hvalues =>
    simp only [List.map_cons, List.map_nil, List.cons.injEq, and_true] at hvalues
    have hlogic : ∀ x, getCardValue x = 1 → getCardLogicValue 13 x = 14 ∧ ¬ IsMagic 13 x := by
      intro x hx
      simp [getCardLogicValue, IsMagic, hx]
    have hking : ∀ x, getCardValue x = 13 → getCardLogicValue 13 x = 15 := by
      intro x hx
      simp [getCardLogicValue, hx]
    by_cases hcm : IsMagic 13 c <;> by_cases hdm : IsMagic 13 d <;>
      simp_all [wildCount, others, sameCount, maxSameCount]

/-- Where no line is made, cards that make one would be misread. -/
theorem FromDecks.misread_of_slip (h : FromDecks cards) (hwild : 0 < wildCount mainValue cards)
    (hothers : others mainValue cards ≠ []) (hu : ¬ Uniform mainValue cards)
    (hline : (sameCount mainValue (others mainValue cards) = 1 ∧ cards.length = 5) ∨
      ((sameCount mainValue (others mainValue cards) = 2 ∨
        sameCount mainValue (others mainValue cards) = 3) ∧ cards.length = 6) →
          ¬ (line (others mainValue cards) (wildCount mainValue cards)
            (sameCount mainValue (others mainValue cards)) downward).Done)
    (ht : getCardType mainValue cards = some t) (hslip : Slip t cards) : Misread mainValue cards := by
  have hlength := length_others_add mainValue cards
  have htwo := (@FromDecks.wildCount_le mainValue cards h).1
  have hranks := h.not_oneRank hwild hu
  have hone : wildCount mainValue cards = 1 ∨ wildCount mainValue cards = 2 := by omega
  obtain ⟨hsingles, hpairs, -⟩ := celled_of_type ht
  cases hslip with
  | outer a b hab hvalues => exact .outer a b hab hu hvalues
  | aces t htype hvalues =>
    rcases hvalues with hvalues | hvalues
    · -- a wild ace would have been put into a line
      by_cases hmain : mainValue = 1
      · subst hmain
        exfalso
        have hfive : cards.length = 5 := by simpa using hvalues.length_eq
        have hrest : ∃ us, ((others 1 cards).map getCardValue).Perm us ∧ us.Nodup ∧
            (∀ v ∈ us, 1 ≤ v ∧ v ≤ 13) ∧
              (line (plainCards us) (wildCount 1 cards) 1 downward).Done := by
          rcases hone with hw | hw
          · exact ⟨[13, 12, 11, 1], values_others_eq _ hvalues (by rw [hw]; decide), by decide,
              by decide, by rw [hw]; decide +kernel⟩
          · exact ⟨[13, 12, 11], values_others_eq _ hvalues (by rw [hw]; decide), by decide,
              by decide, by rw [hw]; decide +kernel⟩
        obtain ⟨us, hus, hnodup, hlow, hdone⟩ := hrest
        have hsame := @sameCount_of_nodup 1 _ (hus.nodup_iff.2 hnodup)
        rw [hsame] at hline
        exact hline (.inl ⟨rfl, hfive⟩) (h.line_done us hus hlow (.inr rfl) hdone)
      · exact .aces (.inr hmain) hvalues
    · have hfive : cards.length = 5 := by simpa using hvalues.length_eq
      have hmem := mainValue_mem hwild hvalues
      by_cases hmain : mainValue = 1
      · subst hmain
        exfalso
        have hsame := sameCount_of_threeAces (hsingles htype) hvalues
        rw [hsame] at hline
        refine hline (.inl ⟨rfl, hfive⟩) ?_
        rcases hone with hw | hw
        · exact h.line_done [13, 12, 1, 1] (values_others_eq _ hvalues (by rw [hw]; decide))
            (by decide) (.inr rfl) (by rw [hw]; decide +kernel)
        · exact h.line_done [13, 12, 1] (values_others_eq _ hvalues (by rw [hw]; decide))
            (by decide) (.inr rfl) (by rw [hw]; decide +kernel)
      · -- a wild king or queen leaves cards of two ranks
        have hcount := (values_others mainValue hvalues).count_eq mainValue
        have hrest : ∃ a, a ≠ 1 ∧ ((others mainValue cards).map getCardValue).Perm [a, 1, 1, 1] := by
          simp only [List.mem_cons, List.not_mem_nil, or_false] at hmem
          have hking : mainValue = 13 ∨ mainValue = 12 := by omega
          rcases hking with rfl | rfl
          · have hw : wildCount 13 cards = 1 := by simp at hcount; omega
            exact ⟨12, by decide, values_others_eq _ hvalues (by rw [hw]; decide)⟩
          · have hw : wildCount 12 cards = 1 := by simp at hcount; omega
            exact ⟨13, by decide, values_others_eq _ hvalues (by rw [hw]; decide)⟩
        obtain ⟨a, ha, hus⟩ := hrest
        refine h.misread_of_two hwild hfive ha (hus.symm.subset (by simp)) (hus.symm.subset (by simp))
          fun v hv => ?_
        simpa using hus.subset hv
  | kings hvalues =>
    have hsix : cards.length = 6 := by simpa using hvalues.length_eq
    have hmem := mainValue_mem hwild hvalues
    have hcards := kings_values (hpairs rfl) hvalues
    simp only [List.mem_cons, List.not_mem_nil, or_false] at hmem
    have hmain : mainValue = 13 ∨ mainValue = 1 := by omega
    rcases hmain with rfl | rfl
    · exfalso
      rcases hone with hw | hw
      · have hsame := sameCount_of_kings hcards hw
        rw [hsame] at hline
        exact hline (.inr ⟨.inl rfl, hsix⟩) (h.line_done [1, 1, 13, 1, 1]
          (values_others_eq _ hvalues (by rw [hw]; decide)) (by decide) (.inr rfl) (by rw [hw]; decide +kernel))
      · -- both kings are wild, and the other cards are aces
        have hus : ((others 13 cards).map getCardValue).Perm [1, 1, 1, 1] :=
          values_others_eq _ hvalues (by rw [hw]; decide)
        refine hranks (by omega) fun a ha b hb => ?_
        have hone : ∀ c ∈ others 13 cards, getCardValue c = 1 := fun c hc => by
          simpa using hus.subset (List.mem_map_of_mem hc)
        rw [hone a ha, hone b hb]
    · refine .triples 14 (by omega) (by omega) (hranks (by omega)) ?_
      rcases hone with hw | hw
      · exact ⟨[13], hw.symm, ((values_others_eq [13, 13, 1, 1, 1] hvalues
          (by rw [hw]; decide)).append_right _).trans (by decide)⟩
      · exact ⟨[13, 1], hw.symm, ((values_others_eq [13, 13, 1, 1] hvalues
          (by rw [hw]; decide)).append_right _).trans (by decide)⟩

/-- **A play that is not misread** has the type of its cards. -/
theorem FromDecks.settles (h : FromDecks cards) (hmax : cards.length ≤ maxCount)
    (hnot : ¬ Misread mainValue cards) (ht : getMagicCardType mainValue cards = some t)
    (hne : t ≠ .error) : Settles mainValue cards t := by
  have hlength := length_others_add mainValue cards
  have htwo := (@FromDecks.wildCount_le mainValue cards h).1
  obtain ⟨result, hmagic, hresolved⟩ := @FromDecks.resolved mainValue cards h hmax
  rw [getMagicCardType, hmagic, Option.bind_some] at ht
  cases hresolved with
  | raw hnone => exact h.settles_of_none hmax hnot hnone ht hne
  | uniform hu =>
    have hsettles := h.settles_of_uniform hmax hu
    have hsame := hsettles.1 cards (.refl _)
    rw [getMagicCardType, hmagic, Option.bind_some, ht] at hsame
    rwa [Option.some.inj hsame]
  | full hlen hwild hu hshape => exact absurd (h.misread_of_headTail hwild hu hlen hshape) hnot
  | line hidxs hwild hu hfull hlink hdone hfirst =>
    have hlen : cards.length = 5 ∨ cards.length = 6 := hlink.imp And.right And.right
    obtain ⟨extra, hline⟩ := h.lineResult hidxs hlen hdone
    have hranks := h.not_oneRank hwild hu (by omega)
    have hlenResult := hline.length_eq
    have hc := (hline.valued h).combination_of_sorted hline.sorted (by rw [hlenResult]; exact hlen) ht hne
    have hrun := misread_or_run (fun _ => hranks) hline.perm hline.length_extra (by omega)
      (fun hone => hranks fun a ha b hb => hone a (hline.perm.symm.subset (List.mem_append_left _ ha)) b
        (hline.perm.symm.subset (List.mem_append_left _ hb)))
      (fun hfour => by
        have := hfour.length_eq
        simp only [List.length_cons, List.length_nil] at this
        omega) hc
    rcases hrun with hmis | ⟨⟨top, hrun⟩, -⟩
    · exact absurd hmis hnot
    have hfive : cards.length = 5 := hlenResult.symm.trans (length_of_isRun hrun)
    have hnodup : ((others mainValue cards).map getCardValue).Nodup := by
      have hall := (hline.perm.map getCardValue).nodup_iff.1 (nodup_of_isRun hrun)
      rw [List.map_append] at hall
      exact (List.nodup_append.1 hall).1
    rw [sameCount_of_nodup hnodup] at hdone hfirst hline hrun ht hc
    exact h.settles_of_line hwild hfive hnodup hidxs hdone hfirst hline hrun ht hc
  | copy hwild hothers hu hfull hline =>
    have hranks := h.not_oneRank hwild hu
    have hpos := List.length_pos_iff.2 hothers
    rcases h.valued.combination_or_slip (fun _ => h) ht hne with hc | hslip
    · have hnone := not_oneRank_cards hwild hothers hu
      have hwilds := (others_append_wilds mainValue cards).symm
      have hrun := misread_or_run (fun hlen => hranks (by omega)) hwilds (length_wilds _ _) (by omega)
        hnone (fun hfour => ?_) hc
      · rcases hrun with hmis | ⟨⟨top, hrun⟩, htype⟩
        · exact absurd hmis hnot
        have hnodup : ((others mainValue cards).map getCardValue).Nodup :=
          (nodup_of_isRun hrun).sublist (List.filter_sublist.map _)
        rw [sameCount_of_nodup hnodup] at hline
        exact h.settles_of_copy hwild (hline (.inl ⟨rfl, length_of_isRun hrun⟩)) hrun ht hc htype
      · -- no wild card is a joker
        obtain ⟨w, hw, hmagic⟩ := List.countP_pos_iff.1 hwild
        have hcolor : ∀ c ∈ ([0x4F, 0x4F, 0x4E, 0x4E] : List UInt8), getCardColor c ≠ 0x20 := by
          decide +kernel
        exact hcolor w (hfour.subset hw) (of_decide_eq_true hmagic).2
    · exact absurd (h.misread_of_slip hwild hothers hu (fun hlink => hline hlink _ (.inr rfl)) ht hslip)
        hnot

/-- A play of the decks has a type, if it fits. -/
theorem FromDecks.isSome_getMagicCardType (h : FromDecks cards) (hmax : cards.length ≤ maxCount) :
    (getMagicCardType mainValue cards).isSome := by
  have hlength := length_others_add mainValue cards
  have hcards : (getCardType mainValue cards).isSome := by
    refine getCardType_isSome hmax fun block hblock => ?_
    obtain ⟨c, rest, hc⟩ := List.exists_cons_of_ne_nil (ne_nil_of_mem_blocks hblock)
    have hmem : c ∈ block := hc ▸ List.mem_cons_self
    have hsub : block.Sublist cards := by
      rw [← flatten_blocks getCardValue cards]
      exact List.sublist_flatten_of_mem hblock
    have hall : block.countP (fun x => getCardValue x = getCardValue c) = block.length :=
      List.countP_eq_length.2 fun x hx => decide_eq_true (key_eq_of_mem_blocks hblock hx hmem)
    have hle := hsub.countP_le (p := fun x => decide (getCardValue x = getCardValue c))
    have hcount := h.countP_value_le (getCardValue c)
    split_ifs at hcount <;> omega
  obtain ⟨result, hmagic, hresolved⟩ := @FromDecks.resolved mainValue cards h hmax
  have hbind : getMagicCardType mainValue cards = getCardType mainValue result := by
    rw [getMagicCardType, hmagic, Option.bind_some]
  rw [hbind]
  cases hresolved with
  | raw | copy => exact hcards
  | uniform hu =>
    rw [← hbind, (h.settles_of_uniform hmax hu).1 cards (.refl _)]
    rfl
  | full hlen hwild hu hshape hsort =>
    have hsorted := @sortByCount_spec mainValue (fullCards mainValue
      (others mainValue cards) (wildCount mainValue cards)) (by rw [length_fullCards]; omega)
    obtain ⟨sorted, hsorted, hperm⟩ := hsorted
    rw [hsort, Option.some.injEq] at hsorted
    subst hsorted
    rw [length_fullCards] at hperm
    exact getCardType_isSome_of_ten (by omega)
  | line hidxs hwild hu hfull hlink hdone hfirst =>
    have hlen : cards.length = 5 ∨ cards.length = 6 := hlink.imp And.right And.right
    obtain ⟨extra, hline⟩ := h.lineResult hidxs hlen hdone
    exact getCardType_isSome_of_ten (by rw [hline.length_eq]; omega)

/-- **Plays that are not misread** are told by their cards. -/
theorem FromDecks.classified (h : FromDecks cards) (hnot : ¬ Misread mainValue cards) :
    Classified mainValue cards := by
  by_cases hmax : cards.length ≤ maxCount
  · have hnot' : ∀ order, order.Perm cards → ¬ Misread mainValue order := fun order hperm hmis =>
      hnot (hmis.perm hperm)
    have hsettles : ∀ order, order.Perm cards → ∀ t, getMagicCardType mainValue order = some t →
        t ≠ .error → Settles mainValue order t := fun order hperm t ht hne =>
      (h.perm hperm).settles (hperm.length_eq.trans_le hmax) (hnot' order hperm) ht hne
    have htype : ∀ order, order.Perm cards → ∃ t, getMagicCardType mainValue order = some t :=
      fun order hperm => Option.isSome_iff_exists.1
        ((h.perm hperm).isSome_getMagicCardType (hperm.length_eq.trans_le hmax))
    refine ⟨fun order order' hperm hperm' => ?_, fun order hperm t ht hne => ?_⟩
    · obtain ⟨t, ht⟩ := htype order hperm
      obtain ⟨t', ht'⟩ := htype order' hperm'
      by_cases hne : t = .error
      · by_cases hne' : t' = .error
        · rw [ht, ht', hne, hne']
        · rw [ht', (hsettles order' hperm' t' ht' hne').1 order (hperm.trans hperm'.symm)]
      · rw [ht, (hsettles order hperm t ht hne).1 order' (hperm'.trans hperm.symm)]
    · obtain ⟨replaced, hreplaces, hc⟩ := (hsettles order hperm t ht hne).2
      exact ⟨replaced, hreplaces.perm hperm, hc⟩
  · have hnone : ∀ order, order.Perm cards → getMagicCardType mainValue order = none := by
      intro order hperm
      rw [getMagicCardType, magicCardData_eq, if_pos (by rw [hperm.length_eq]; omega), Option.bind_none]
    refine ⟨fun order order' hperm hperm' => by rw [hnone order hperm, hnone order' hperm'],
      fun order hperm t ht => ?_⟩
    rw [hnone order hperm] at ht
    exact absurd ht nofun

end GameServer.GuanDan
