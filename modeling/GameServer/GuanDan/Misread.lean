import GameServer.GuanDan.Classes
import Mathlib.Data.List.Permutation
/-!
# Guandan — plays that are misread

For each kind of play the analysis misreads there are two orders of its
cards with different types. So a play is classified by its cards just when
it is not misread (`told_by_cards_iff`).
-/

namespace GameServer.GuanDan

variable {mainValue : ℕ} {cards order : List UInt8} {vs : List ℕ}
variable {l : List UInt8} {us : List ℕ} {a b cell n top v : ℕ} {c : UInt8}

/-! ## Orders of a play -/

/-- Two orders with different types tell a play from its cards. -/
theorem not_classified {order' : List UInt8} (h : order.Perm cards) (h' : order'.Perm cards)
    (hne : getMagicCardType mainValue order ≠ getMagicCardType mainValue order') :
    ¬ Classified mainValue cards := fun hc => hne (hc.same order order' h h')

theorem others_wilds : others mainValue (wilds mainValue cards) = [] := by
  refine List.filter_eq_nil_iff.2 fun c hc => ?_
  simpa using (List.mem_filter.1 hc).2

/-- The wild cards before the other ones, in any order of these. -/
theorem wilds_append (hl : l.Perm (others mainValue cards)) :
    (wilds mainValue cards ++ l).Perm cards ∧ others mainValue (wilds mainValue cards ++ l) = l := by
  constructor
  · exact (List.perm_append_comm.trans (hl.append_right _)).trans (others_append_wilds _ _)
  · have hself : others mainValue l = l := List.filter_eq_self.2 fun c hc =>
      (List.mem_filter.1 (hl.subset hc)).2
    have happ : others mainValue (wilds mainValue cards ++ l) =
        others mainValue (wilds mainValue cards) ++ others mainValue l := List.filter_append ..
    rw [happ, others_wilds, hself, List.nil_append]

/-- A play that nothing is made of keeps its own type. -/
theorem FromDecks.type_of_copy (h : FromDecks cards) (hmax : cards.length ≤ maxCount)
    (hu : ¬ Uniform mainValue cards)
    (hfull : 0 < wildCount mainValue cards → cards.length = 5 → ¬ HeadTail (others mainValue cards))
    (hlink : 0 < wildCount mainValue cards → ¬ ((sameCount mainValue (others mainValue cards) = 1 ∧
      cards.length = 5) ∨ ((sameCount mainValue (others mainValue cards) = 2 ∨
        sameCount mainValue (others mainValue cards) = 3) ∧ cards.length = 6))) :
    getMagicCardType mainValue cards = getCardType mainValue cards := by
  obtain ⟨result, hmagic, hresolved⟩ := @FromDecks.resolved mainValue cards h hmax
  rw [getMagicCardType, hmagic, Option.bind_some]
  cases hresolved with
  | raw | copy => rfl
  | uniform hsame => exact absurd hsame hu
  | full hlen hwild _ hshape => exact absurd hshape (hfull hwild hlen)
  | line _ hwild _ _ hlink' => exact absurd hlink' (hlink hwild)

theorem FromDecks.type_of_zero (h : FromDecks cards) (hmax : cards.length ≤ maxCount)
    (hwild : wildCount mainValue cards = 0) :
    getMagicCardType mainValue cards = getCardType mainValue cards := by
  refine h.type_of_copy hmax (fun hu => ?_) (fun hpos => ?_) fun hpos => ?_
  · have := (uniform_iff.1 hu).1
    omega
  · omega
  · omega

theorem plain_of_values (mainValue : ℕ) {t : CardType} (hvalues : cards.map getCardValue = us)
    (hlen : us.length = 5 ∨ us.length = 6) (hus : ∀ v ∈ us, v < 16)
    (ht : (getCardType 0 (plainCards us)).map CardType.plain = some t) :
    (getCardType mainValue cards).map CardType.plain = some t := by
  have hcards : cards.length = us.length := by rw [← hvalues, List.length_map]
  rw [← ht]
  exact getCardType_congr (by rw [hcards]; exact hlen) (by rw [hvalues, map_plainCards hus])

/-- Two orders of a play without wild cards whose values have different
types. -/
theorem FromDecks.not_classified_of_values (h : FromDecks cards) (hwild : wildCount mainValue cards = 0)
    (us us' : List ℕ) (t t' : CardType) (hperm : us.Perm us') (hvalues : (cards.map getCardValue).Perm us)
    (hlen : us.length = 5 ∨ us.length = 6) (hus : ∀ v ∈ us, v < 16)
    (ht : (getCardType 0 (plainCards us)).map CardType.plain = some t)
    (ht' : (getCardType 0 (plainCards us')).map CardType.plain = some t') (hne : t ≠ t') :
    ¬ Classified mainValue cards := by
  have hmax : maxCount = 28 := rfl
  obtain ⟨order, horder, hmap⟩ := exists_perm_map hvalues
  obtain ⟨order', horder', hmap'⟩ := exists_perm_map (hvalues.trans hperm)
  have hlength : cards.length = us.length := by simpa using hvalues.length_eq
  refine not_classified horder horder' fun hsame => hne ?_
  rw [(h.perm horder).type_of_zero (by rw [horder.length_eq]; omega) (by rwa [wildCount_perm horder]),
    (h.perm horder').type_of_zero (by rw [horder'.length_eq]; omega) (by rwa [wildCount_perm horder'])] at hsame
  have htype := plain_of_values mainValue hmap hlen hus ht
  have htype' := plain_of_values mainValue hmap' (by rwa [← hperm.length_eq])
    (fun v hv => hus v (hperm.symm.subset hv)) ht'
  rw [hsame, htype'] at htype
  exact (Option.some.inj htype).symm

/-- Three cards of which just two are of a value: the middle card is not
looked at. -/
theorem FromDecks.not_classified_outer (h : FromDecks cards) (hne : a ≠ b)
    (hu : ¬ Uniform mainValue cards) (hvalues : (cards.map getCardValue).Perm [a, a, b]) :
    ¬ Classified mainValue cards := by
  have hmax : maxCount = 28 := rfl
  have hthree : cards.length = 3 := by simpa using hvalues.length_eq
  have htype : ∀ order, order.Perm cards →
      getMagicCardType mainValue order = getCardType mainValue order := fun order hperm => by
    have hlen := hperm.length_eq
    refine (h.perm hperm).type_of_copy (by omega) (fun hu' => hu ((uniform_perm hperm).1 hu'))
      (fun _ _ => by omega) fun _ => by omega
  have houter : ∀ order : List UInt8, ∀ x y z, order.map getCardValue = [x, y, z] →
      getCardType mainValue order = some (if x = z then .three else .error) := by
    intro order x y z hmap
    match order with
    | [c, d, e] =>
      simp only [List.map_cons, List.map_nil, List.cons.injEq, and_true] at hmap
      rw [getCardType, hmap.1, hmap.2.2]
  obtain ⟨order, horder, hmap⟩ := exists_perm_map hvalues
  obtain ⟨order', horder', hmap'⟩ := exists_perm_map (hvalues.trans (show [a, a, b].Perm [a, b, a] from
    (List.Perm.swap b a []).cons a))
  refine not_classified horder horder' ?_
  rw [htype order horder, htype order' horder', houter order a a b hmap, houter order' a b a hmap',
    if_neg hne, if_pos rfl]
  simp

/-- What `MagicCardData` counts depends on the values only. -/
theorem maxSameCount_congr {mainValue' : ℕ} : ∀ (l l' : List UInt8) (same : ℕ) (d d' : UInt8),
    getCardValue d = getCardValue d' → l.map getCardValue = l'.map getCardValue →
      maxSameCount mainValue same (getCardLogicValue mainValue d) l =
        maxSameCount mainValue' same (getCardLogicValue mainValue' d') l'
  | [], [], _, _, _, _, _ => rfl
  | [], _ :: _, _, _, _, _, hl | _ :: _, [], _, _, _, _, hl | [_], _ :: _ :: _, _, _, _, _, hl
  | _ :: _ :: _, [_], _, _, _, _, hl => by simp at hl
  | [c], [c'], same, d, d', hd, hl => by
    rw [List.map_singleton, List.map_singleton, List.singleton_inj] at hl
    simp only [maxSameCount, logicValue_inj, hd, hl]
  | c :: b :: l, c' :: b' :: l', same, d, d', hd, hl => by
    obtain ⟨hc, hrest⟩ := List.cons.inj hl
    have hsame := @maxSameCount_congr mainValue' (b :: l) (b' :: l') (same + 1) d d' hd hrest
    have hother := @maxSameCount_congr mainValue' (b :: l) (b' :: l') 1 c c' hc hrest
    simp only [maxSameCount, logicValue_inj, hd, hc, hsame, hother]

theorem sameCount_congr {mainValue' : ℕ} {l' : List UInt8}
    (h : l.map getCardValue = l'.map getCardValue) :
    sameCount mainValue l = sameCount mainValue' l' := by
  match l, l' with
  | [], [] => exact maxSameCount_congr [] [] 1 0 0 rfl rfl
  | [], _ :: _ | _ :: _, [] => simp at h
  | c :: l, c' :: l' =>
    obtain ⟨hc, hrest⟩ := List.cons.inj h
    exact maxSameCount_congr l l' 1 c c' hc hrest

theorem sameCount_of_values (mainValue : ℕ) (h : l.map getCardValue = us)
    (hus : ∀ v ∈ us, v < 16) (hcount : sameCount 0 (plainCards us) = n) :
    sameCount mainValue l = n := by
  rw [← hcount]
  exact sameCount_congr (h.trans (map_plainCards hus).symm)

/-- A king, a queen and a jack, one of them wild, with two aces: a pair of
aces at the end of the other cards keeps the play as it is. -/
theorem FromDecks.type_of_aces (h : FromDecks order) {x y w : ℕ}
    (hxyw : ([x, y, w] : List ℕ).Perm [13, 12, 11]) (hwild : 0 < wildCount w order)
    (hvalues : order.map getCardValue = [x, y, 1, w, 1] ∨ order.map getCardValue = [x, y, w, 1, 1]) :
    getMagicCardType w order = getCardType w order := by
  have hmem : ∀ v ∈ [x, y, w], v = 13 ∨ v = 12 ∨ v = 11 := fun v hv => by
    simpa using hxyw.subset hv
  have hnodup : ([x, y, w] : List ℕ).Nodup := hxyw.nodup_iff.2 (by decide)
  simp only [List.nodup_cons, List.mem_cons, List.not_mem_nil, or_false, not_or, not_false_eq_true,
    List.nodup_nil, and_true] at hnodup
  obtain ⟨⟨hxy, hxw⟩, hyw⟩ := hnodup
  have hx := hmem x (by simp)
  have hy := hmem y (by simp)
  have hw := hmem w (by simp)
  have hlen : order.length = 5 := by
    rcases hvalues with hvalues | hvalues <;> simpa using congrArg List.length hvalues
  have hmagic : ∃ c ∈ order, IsMagic w c := by simpa [wildCount, List.countP_pos_iff] using hwild
  -- the wild card is the one of its value
  have hothers : (others w order).map getCardValue = [x, y, 1, 1] := by
    have hplain : ∀ c, getCardValue c ≠ w → ¬ IsMagic w c := fun c hc hm => hc hm.1
    obtain ⟨a, rest, rfl⟩ := List.exists_cons_of_length_eq_add_one hlen
    obtain ⟨b, c, d, e, rfl⟩ := List.length_eq_four.1 (Nat.succ.inj hlen)
    simp only [List.map_cons, List.map_nil, List.cons.injEq, and_true] at hvalues
    simp only [List.mem_cons, List.not_mem_nil, or_false, exists_eq_or_imp, exists_eq_left] at hmagic
    rcases hvalues with ⟨ha, hb, hc, hd, he⟩ | ⟨ha, hb, hc, hd, he⟩
    · have ha' := hplain a (by omega)
      have hb' := hplain b (by omega)
      have hc' := hplain c (by omega)
      have he' := hplain e (by omega)
      have hd' : IsMagic w d := by tauto
      simp [others, ha', hb', hc', hd', he', ha, hb, hc, he]
    · have ha' := hplain a (by omega)
      have hb' := hplain b (by omega)
      have hd' := hplain d (by omega)
      have he' := hplain e (by omega)
      have hc' : IsMagic w c := by tauto
      simp [others, ha', hb', hc', hd', he', ha, hb, hd, he]
  have hsame : sameCount w (others w order) = 2 := by
    have hall : ∀ x ∈ [13, 12, 11], ∀ y ∈ [13, 12, 11], x ≠ y →
        sameCount 0 (plainCards [x, y, 1, 1]) = 2 := by decide +kernel
    refine sameCount_of_values w hothers (fun v hv => ?_) (hall x (by simpa using hx) y (by simpa using hy) hxy)
    simp only [List.mem_cons, List.not_mem_nil, or_false] at hv
    omega
  have hmax : maxCount = 28 := rfl
  refine h.type_of_copy (by omega) (fun hu => ?_) (fun _ _ => ?_) fun _ => by omega
  · have hone := (uniform_iff.1 hu).2.2.1
    have hfour : (others w order).length = 4 := by simpa using congrArg List.length hothers
    generalize others w order = normal at hothers hone hfour
    obtain ⟨a, b, c, d, rfl⟩ := List.length_eq_four.1 hfour
    simp only [List.map_cons, List.map_nil, List.cons.injEq, and_true] at hothers
    have := hone a (by simp) b (by simp)
    omega
  · have hfour : (others w order).length = 4 := by simpa using congrArg List.length hothers
    generalize others w order = normal at hothers hfour
    obtain ⟨a, b, c, d, rfl⟩ := List.length_eq_four.1 hfour
    simp only [List.map_cons, List.map_nil, List.cons.injEq, and_true] at hothers
    rintro ⟨-, hall⟩
    have := hall b (by simp)
    simp only [List.headD_cons, List.getLastD_cons, List.getLastD_nil] at this
    omega

/-- Aces and a king, a queen and a jack are a straight in some order only. -/
theorem FromDecks.not_classified_aces (h : FromDecks cards)
    (hwild : wildCount mainValue cards = 0 ∨ mainValue ≠ 1)
    (hvalues : (cards.map getCardValue).Perm [13, 12, 11, 1, 1]) : ¬ Classified mainValue cards := by
  by_cases hzero : wildCount mainValue cards = 0
  · exact h.not_classified_of_values hzero [12, 11, 1, 13, 1] [12, 11, 13, 1, 1]
      .singleLink .error (by decide) (hvalues.trans (by decide)) (.inl rfl) (by decide)
      (by decide +kernel) (by decide +kernel) nofun
  · have hmain := hwild.resolve_left hzero
    have hmem := mainValue_mem (Nat.pos_of_ne_zero hzero) hvalues
    have hcases : ∃ x y, ([x, y, mainValue] : List ℕ).Perm [13, 12, 11] := by
      simp only [List.mem_cons, List.not_mem_nil, or_false] at hmem
      rcases hmem with rfl | rfl | rfl | hone | hone
      · exact ⟨12, 11, by decide⟩
      · exact ⟨13, 11, by decide⟩
      · exact ⟨13, 12, by decide⟩
      · exact absurd hone hmain
      · exact absurd hone hmain
    obtain ⟨x, y, hxyw⟩ := hcases
    have hall : ([x, y, mainValue, 1, 1] : List ℕ).Perm [13, 12, 11, 1, 1] := hxyw.append_right [1, 1]
    have hswap : ([x, y, 1, mainValue, 1] : List ℕ).Perm [x, y, mainValue, 1, 1] :=
      ((List.Perm.swap _ _ _).cons y).cons x
    obtain ⟨order, horder, hmap⟩ := exists_perm_map (hvalues.trans (hswap.trans hall).symm)
    obtain ⟨order', horder', hmap'⟩ := exists_perm_map (hvalues.trans hall.symm)
    refine not_classified horder horder' fun hsame => ?_
    rw [(h.perm horder).type_of_aces hxyw (by rw [wildCount_perm horder]; omega) (.inl hmap),
      (h.perm horder').type_of_aces hxyw (by rw [wildCount_perm horder']; omega) (.inr hmap')] at hsame
    have htypes : ∀ x ∈ [13, 12, 11], ∀ y ∈ [13, 12, 11], ∀ w ∈ [13, 12, 11],
        ([x, y, w] : List ℕ).Perm [13, 12, 11] →
          (getCardType 0 (plainCards [x, y, 1, w, 1])).map CardType.plain = some .singleLink ∧
            (getCardType 0 (plainCards [x, y, w, 1, 1])).map CardType.plain = some .error := by
      decide +kernel
    have hlow : ∀ v ∈ [x, y, mainValue], v < 16 := fun v hv => by
      have := hxyw.subset hv
      simp only [List.mem_cons, List.not_mem_nil, or_false] at this
      omega
    have htype := htypes x (hxyw.subset (by simp)) y (hxyw.subset (by simp)) mainValue
      (hxyw.subset (by simp)) hxyw
    have hlow' : ∀ us : List ℕ, us.Perm [x, y, mainValue, 1, 1] → ∀ v ∈ us, v < 16 := by
      intro us hus v hv
      have := hus.subset hv
      simp only [List.mem_cons, List.not_mem_nil, or_false] at this hlow
      rcases this with rfl | rfl | rfl | rfl | rfl
      · exact hlow _ (.inl rfl)
      · exact hlow _ (.inr (.inl rfl))
      · exact hlow _ (.inr (.inr rfl))
      · omega
      · omega
    have hplain := plain_of_values mainValue hmap (.inl rfl) (hlow' _ hswap) htype.1
    have hplain' := plain_of_values mainValue hmap' (.inl rfl) (hlow' _ (.refl _)) htype.2
    rw [hsame, hplain'] at hplain
    exact absurd hplain (by decide)

/-! ## A three with a pair -/

/-- A card that stands alone leaves no three with a pair. -/
theorem ne_threeDouble_of_lone (hlen : cards.length = 5)
    (hlone : [c] ∈ blocks getCardValue cards) : getCardType mainValue cards ≠ some .threeDouble := by
  intro ht
  by_cases hcelled : Celled 1 cards
  · obtain ⟨r, hr, htype⟩ := @exists_analysed mainValue cards (by omega) (by omega)
    have hanalysed := analysed_analysedType r (sortCardList mainValue cards) cards.length
    rw [← Option.some.inj (ht.symm.trans htype)] at hanalysed
    cases hanalysed with
    | threeDouble _ hdouble =>
      rw [row_of_celled hr hcelled 1, if_neg (by decide)] at hdouble
      cases hdouble
  · rw [error_of_lone (.inl hlen) hlone fun _ => hcelled] at ht
    cases ht

/-- Where no three with a pair is tried, none is made of cards with wild ones
unless they stand in its blocks. -/
theorem FromDecks.ne_threeDouble (h : FromDecks cards) (hlen : cards.length = 5)
    (hwild : 0 < wildCount mainValue cards) (hu : ¬ Uniform mainValue cards)
    (hshape : ¬ HeadTail (others mainValue cards)) (hlone : [c] ∈ blocks getCardValue cards) :
    getMagicCardType mainValue cards ≠ some .threeDouble := by
  have hmax : maxCount = 28 := rfl
  have hlength := length_others_add mainValue cards
  obtain ⟨result, hmagic, hresolved⟩ := @FromDecks.resolved mainValue cards h (by omega)
  rw [getMagicCardType, hmagic, Option.bind_some]
  intro ht
  cases hresolved with
  | raw | copy => exact ne_threeDouble_of_lone hlen hlone ht
  | uniform hsame => exact hu hsame
  | full _ _ _ hshape' => exact hshape hshape'
  | line hidxs _ _ _ hlink hdone =>
    obtain ⟨extra, hline⟩ := h.lineResult hidxs (.inl hlen) hdone
    have hc := (hline.valued h).combination_of_sorted hline.sorted (by rw [hline.length_eq]; omega) ht (by simp)
    generalize htype : CardType.threeDouble = t at hc
    cases hc with
    | same =>
      rcases sameType_cases (sortCardList mainValue (GuanDan.line (others mainValue cards)
        (wildCount mainValue cards) (sameCount mainValue (others mainValue cards)) _).result).length
        with hsame | hsame | hsame <;> rw [hsame] at htype <;> cases htype
    | full a b hne hvalues =>
      -- a line of single cards adds no card to the three or the pair
      have ha := hline.count_le a
      have hb := hline.count_le b
      rw [hvalues.count_eq] at ha hb
      have hcount : ∀ us : List ℕ, us.count a + us.count b ≤ us.length := by
        intro us
        induction us with
        | nil => simp
        | cons v us ih =>
          by_cases hva : v = a <;> by_cases hvb : v = b <;> simp_all <;> omega
      have hall := hcount ((others mainValue cards).map getCardValue)
      simp [hne, hne.symm] at ha hb hall
      omega
    | _ => cases htype

theorem getCardValue_makeCardData (hv : v < 16) : getCardValue (makeCardData v 0) = v := by
  have hall : ∀ v < 16, getCardValue (makeCardData v 0) = v := by decide
  exact hall v hv

theorem threeDoubleValues_two_two (mainValue : ℕ) (head tail : UInt8) :
    threeDoubleValues mainValue head tail 2 2 1 = [getCardValue head] ∨
      threeDoubleValues mainValue head tail 2 2 1 = [getCardValue tail] := by
  unfold threeDoubleValues
  dsimp only
  split_ifs <;> first | exact .inl rfl | exact .inr rfl | omega

theorem threeDoubleValues_two_one (mainValue : ℕ) (head tail : UInt8) :
    threeDoubleValues mainValue head tail 2 1 2 = [getCardValue head, getCardValue tail] ∨
      threeDoubleValues mainValue head tail 2 1 2 = [getCardValue tail, getCardValue tail] := by
  unfold threeDoubleValues
  dsimp only
  split_ifs <;> first | exact .inl rfl | exact .inr rfl | omega

theorem perm_full_of_count (hne : a ≠ b) (hall : ∀ v ∈ us, v = a ∨ v = b)
    (ha : us.count a = 3) (hb : us.count b = 2) : us.Perm [a, a, a, b, b] := by
  have hperm := perm_full hne hall (by omega) (by omega)
  rwa [ha, hb, List.replicate_zero, List.replicate_zero, List.append_nil, List.append_nil] at hperm

/-- The other cards of a three with a pair, a rank after the other: what is
made of them are three cards of a value and two of another. -/
theorem fullCards_values (mainValue : ℕ) {u : ℕ} (hne : u ≠ v) {normal : List UInt8} {magicCount : ℕ}
    (h : (magicCount = 1 ∧ (normal.map getCardValue = [u, u, u, v] ∨
      normal.map getCardValue = [u, u, v, v])) ∨
        (magicCount = 2 ∧ normal.map getCardValue = [u, u, v])) :
    HeadTail normal ∧ ∃ a b, a ≠ b ∧
      ((fullCards mainValue normal magicCount).map getCardValue).Perm [a, a, a, b, b] := by
  have hmake : ∀ c, getCardValue (makeCardData (getCardValue c) 0) = getCardValue c := fun c =>
    getCardValue_makeCardData (Nat.lt_succ_of_le (getCardValue_le c))
  rcases h with ⟨rfl, hvalues | hvalues⟩ | ⟨rfl, hvalues⟩
  · have hlen : normal.length = 4 := by simpa using congrArg List.length hvalues
    obtain ⟨p, q, r, s, rfl⟩ := List.length_eq_four.1 hlen
    simp only [List.map_cons, List.map_nil, List.cons.injEq, and_true] at hvalues
    obtain ⟨rfl, hq, hr, rfl⟩ := hvalues
    refine ⟨⟨by simp, by simp [hq, hr]⟩, getCardValue p, getCardValue s, hne, ?_⟩
    simp [fullCards, threeDoubleValues, hq, hr, hmake]
  · have hlen : normal.length = 4 := by simpa using congrArg List.length hvalues
    obtain ⟨p, q, r, s, rfl⟩ := List.length_eq_four.1 hlen
    simp only [List.map_cons, List.map_nil, List.cons.injEq, and_true] at hvalues
    obtain ⟨rfl, hq, rfl, hs⟩ := hvalues
    have hfull : fullCards mainValue [p, q, r, s] 1 =
        [p, q, r, s] ++ (threeDoubleValues mainValue p s 2 2 1).map (makeCardData · 0) := by
      simp [fullCards, hq, hs, hne, hne.symm]
    refine ⟨⟨by simp, by simp [hq, hs]⟩, ?_⟩
    rcases threeDoubleValues_two_two mainValue p s with htwo | htwo
    · refine ⟨getCardValue p, getCardValue r, hne, perm_full_of_count hne ?_ ?_ ?_⟩ <;>
        simp [hfull, htwo, hq, hs, hmake, hne, hne.symm]
    · refine ⟨getCardValue r, getCardValue p, hne.symm, perm_full_of_count hne.symm ?_ ?_ ?_⟩ <;>
        simp [hfull, htwo, hq, hs, hmake, hne, hne.symm]
  · have hlen : normal.length = 3 := by simpa using congrArg List.length hvalues
    obtain ⟨p, q, r, rfl⟩ := List.length_eq_three.1 hlen
    simp only [List.map_cons, List.map_nil, List.cons.injEq, and_true] at hvalues
    obtain ⟨rfl, hq, rfl⟩ := hvalues
    have hfull : fullCards mainValue [p, q, r] 2 =
        [p, q, r] ++ (threeDoubleValues mainValue p r 2 1 2).map (makeCardData · 0) := by
      simp [fullCards, hq]
    refine ⟨⟨by simp, by simp [hq]⟩, ?_⟩
    rcases threeDoubleValues_two_one mainValue p r with htwo | htwo
    · refine ⟨getCardValue p, getCardValue r, hne, perm_full_of_count hne ?_ ?_ ?_⟩ <;>
        simp [hfull, htwo, hq, hmake, hne, hne.symm]
    · refine ⟨getCardValue r, getCardValue p, hne.symm, perm_full_of_count hne.symm ?_ ?_ ?_⟩ <;>
        simp [hfull, htwo, hq, hmake, hne, hne.symm]

/-- Cards that end as they begin, with one of another value before the last,
are no three with a pair, and the last one stands alone. -/
theorem lone_of_values {u : ℕ} (hne : u ≠ v) (front : List UInt8)
    (h : l.map getCardValue = [u, u, v, u] ∨ l.map getCardValue = [u, v, v, u] ∨
      l.map getCardValue = [u, v, u]) :
    ¬ HeadTail l ∧ ∃ c, [c] ∈ blocks getCardValue (front ++ l) := by
  obtain ⟨mid, hvalues⟩ : ∃ mid, l.map getCardValue = (u :: mid) ++ [v, u] := by
    rcases h with h | h | h
    · exact ⟨[u], h⟩
    · exact ⟨[v], h⟩
    · exact ⟨[], h⟩
  obtain ⟨before, last, rfl, hbefore, hlast⟩ := List.map_eq_append_iff.1 hvalues
  obtain ⟨p, mid, rfl, hp, -⟩ := List.map_eq_cons_iff.1 hbefore
  obtain ⟨q, last, rfl, hq, hlast⟩ := List.map_eq_cons_iff.1 hlast
  obtain ⟨r, last, rfl, hr, hnil⟩ := List.map_eq_cons_iff.1 hlast
  obtain rfl := List.map_eq_nil_iff.1 hnil
  refine ⟨?_, r, ?_⟩
  · have hend : (p :: mid ++ [q, r]).getLastD 0 = r := by
      rw [show p :: mid ++ [q, r] = (p :: mid ++ [q]) ++ [r] by simp, List.getLastD_concat]
    rintro ⟨-, hall⟩
    have := hall q (by simp)
    rw [hend, hq, hr, List.cons_append, List.headD_cons, hp] at this
    omega
  · rw [show front ++ (p :: mid ++ [q, r]) = (front ++ p :: mid ++ [q]) ++ r :: [] by simp]
    refine singleton_mem_blocks (fun x hx => ?_) nofun
    rw [List.getLast?_concat, Option.mem_some_iff] at hx
    rw [← hx, hq, hr]
    exact hne

/-- Values of two kinds are as many of each as are counted. -/
theorem perm_two (hne : a ≠ b) (hall : ∀ v ∈ us, v = a ∨ v = b) :
    us.Perm (List.replicate (us.count a) a ++ List.replicate (us.count b) b) := by
  refine List.perm_iff_count.2 fun v => ?_
  rw [List.count_append, List.count_replicate, List.count_replicate]
  by_cases hva : a = v
  · subst hva
    simp [hne.symm]
  by_cases hvb : b = v
  · subst hvb
    simp [hne]
  · have hzero : us.count v = 0 := List.count_eq_zero.2 fun hv => by
      rcases hall v hv with rfl | rfl
      · exact hva rfl
      · exact hvb rfl
    simp [hzero, hva, hvb]

/-- The other cards of a three with a pair of two ranks. -/
theorem full_patterns (hranks : ¬ OneRank (others mainValue cards))
    (h : Makes mainValue cards [a, a, a, b, b]) : ∃ u v, u ≠ v ∧ ((wildCount mainValue cards = 0 ∧
        ((others mainValue cards).map getCardValue).Perm [u, u, u, v, v]) ∨
      (wildCount mainValue cards = 1 ∧
        (((others mainValue cards).map getCardValue).Perm [u, u, u, v] ∨
          ((others mainValue cards).map getCardValue).Perm [u, u, v, v])) ∨
      (wildCount mainValue cards = 2 ∧ ((others mainValue cards).map getCardValue).Perm [u, u, v]) ∨
      2 < wildCount mainValue cards) := by
  obtain ⟨stand, hlen, hperm⟩ := h
  have hmem : ∀ v ∈ (others mainValue cards).map getCardValue, v = a ∨ v = b := fun v hv => by
    have := hperm.subset (List.mem_append_left _ hv)
    simpa [or_assoc] using this
  have hboth : a ∈ (others mainValue cards).map getCardValue ∧
      b ∈ (others mainValue cards).map getCardValue ∧ a ≠ b := by
    by_contra hnot
    refine hranks fun x hx y hy => ?_
    have hx' := hmem _ (List.mem_map_of_mem hx)
    have hy' := hmem _ (List.mem_map_of_mem hy)
    rcases hx' with hx' | hx' <;> rcases hy' with hy' | hy'
    · rw [hx', hy']
    · by_contra hne
      exact hnot ⟨hx' ▸ List.mem_map_of_mem hx, hy' ▸ List.mem_map_of_mem hy, fun heq => hne (by omega)⟩
    · by_contra hne
      exact hnot ⟨hy' ▸ List.mem_map_of_mem hy, hx' ▸ List.mem_map_of_mem hx, fun heq => hne (by omega)⟩
    · rw [hx', hy']
  obtain ⟨ha, hb, hne⟩ := hboth
  have hpos := List.count_pos_iff.2 ha
  have hpos' := List.count_pos_iff.2 hb
  have hcount := hperm.count_eq a
  have hcount' := hperm.count_eq b
  have hlength := hperm.length_eq
  have hsum := length_of_two hne hmem
  have htwo := perm_two hne hmem
  rw [List.length_append, hsum, hlen] at hlength
  simp [hne, hne.symm] at hcount hcount' hlength
  generalize ((others mainValue cards).map getCardValue).count a = i at *
  generalize ((others mainValue cards).map getCardValue).count b = j at *
  have hswap := htwo.trans List.perm_append_comm
  have hi : i = 1 ∨ i = 2 ∨ i = 3 := by omega
  have hj : j = 1 ∨ j = 2 := by omega
  rcases hi with rfl | rfl | rfl <;> rcases hj with rfl | rfl
  · exact ⟨a, b, hne, .inr (.inr (.inr (by omega)))⟩
  · exact ⟨b, a, hne.symm, .inr (.inr (.inl ⟨by omega, hswap⟩))⟩
  · exact ⟨a, b, hne, .inr (.inr (.inl ⟨by omega, htwo⟩))⟩
  · exact ⟨a, b, hne, .inr (.inl ⟨by omega, .inr htwo⟩)⟩
  · exact ⟨a, b, hne, .inr (.inl ⟨by omega, .inl htwo⟩)⟩
  · exact ⟨a, b, hne, .inl ⟨by omega, htwo⟩⟩

/-- A rank after the other the play is a three with a pair. -/
theorem FromDecks.threeDouble_of_values (h : FromDecks cards) (hlen : cards.length = 5) {u : ℕ}
    (hne : u ≠ v) (hu : ¬ Uniform mainValue cards) (hvalues : (wildCount mainValue cards = 1 ∧
      ((others mainValue cards).map getCardValue = [u, u, u, v] ∨
        (others mainValue cards).map getCardValue = [u, u, v, v])) ∨
      (wildCount mainValue cards = 2 ∧ (others mainValue cards).map getCardValue = [u, u, v])) :
    getMagicCardType mainValue cards = some .threeDouble := by
  have hmax : maxCount = 28 := rfl
  obtain ⟨hshape, a, b, hab, hperm⟩ := fullCards_values mainValue hne hvalues
  obtain ⟨result, hmagic, hresolved⟩ := @FromDecks.resolved mainValue cards h (by omega)
  rw [getMagicCardType, hmagic, Option.bind_some]
  cases hresolved with
  | raw hnone =>
    rcases hnone with hzero | hnil
    · omega
    · exact absurd (hnil ▸ hshape.1) (by simp)
  | uniform hsame => exact absurd hsame hu
  | full _ _ _ _ hsort => exact getCardType_of_sortByCount hab hperm hsort
  | line _ _ _ hfull | copy _ _ _ hfull => exact absurd hshape (hfull hlen)

/-- **A three with a pair** is one in some order only. -/
theorem FromDecks.not_classified_full (h : FromDecks cards)
    (hranks : ¬ OneRank (others mainValue cards)) (hmakes : Makes mainValue cards [a, a, a, b, b]) :
    ¬ Classified mainValue cards := by
  have hlength := length_others_add mainValue cards
  have htwo := (@FromDecks.wildCount_le mainValue cards h).1
  have hu : ¬ Uniform mainValue cards := fun hu => hranks (uniform_iff.1 hu).2.2.1
  have hfive : cards.length = 5 := by
    obtain ⟨stand, hlen, hperm⟩ := hmakes
    have := hperm.length_eq
    simp only [List.length_append, List.length_map, List.length_cons, List.length_nil] at this
    omega
  obtain ⟨u, v, hne, hpattern⟩ := full_patterns hranks hmakes
  -- two orders of the other cards behind the wild ones
  have horders : ∀ us us' : List ℕ, ((others mainValue cards).map getCardValue).Perm us →
      ((others mainValue cards).map getCardValue).Perm us' → 0 < wildCount mainValue cards →
      ((wildCount mainValue cards = 1 ∧ (us = [u, u, u, v] ∨ us = [u, u, v, v])) ∨
        (wildCount mainValue cards = 2 ∧ us = [u, u, v])) →
      (us' = [u, u, v, u] ∨ us' = [u, v, v, u] ∨ us' = [u, v, u]) → ¬ Classified mainValue cards := by
    intro us us' hus hus' hwild hfirst hsecond
    obtain ⟨l, hl, hmap⟩ := exists_perm_map hus
    obtain ⟨l', hl', hmap'⟩ := exists_perm_map hus'
    obtain ⟨hperm, hothers⟩ := wilds_append hl
    obtain ⟨hperm', hothers'⟩ := wilds_append hl'
    obtain ⟨hshape, c, hlone⟩ := lone_of_values hne (wilds mainValue cards) (l := l') (by
      rw [hmap']
      exact hsecond)
    refine not_classified hperm hperm' ?_
    rw [(h.perm hperm).threeDouble_of_values (hperm.length_eq.trans hfive) hne
      (fun hsame => hu ((uniform_perm hperm).1 hsame)) (by
        rw [hothers, wildCount_perm hperm, hmap]
        exact hfirst)]
    exact ((h.perm hperm').ne_threeDouble (hperm'.length_eq.trans hfive) (by rwa [wildCount_perm hperm'])
      (fun hsame => hu ((uniform_perm hperm').1 hsame)) (by rwa [hothers']) hlone).symm
  rcases hpattern with ⟨hw, hus⟩ | ⟨hw, hus | hus⟩ | ⟨hw, hus⟩ | hw
  · rw [others_eq_self hw] at hus
    have hlt : ∀ x ∈ [u, u, u, v, v], x < 16 := fun x hx => by
      obtain ⟨c, -, rfl⟩ := List.mem_map.1 (hus.symm.subset hx)
      exact Nat.lt_succ_of_le (getCardValue_le c)
    have hall : ∀ u < 16, ∀ v < 16, u ≠ v →
        (getCardType 0 (plainCards [u, u, u, v, v])).map CardType.plain = some .threeDouble ∧
          (getCardType 0 (plainCards [u, v, u, v, u])).map CardType.plain = some .error := by
      decide +kernel
    have htypes := hall u (hlt u (by simp)) v (hlt v (by simp)) hne
    have hperm : ([u, u, u, v, v] : List ℕ).Perm [u, v, u, v, u] := by
      refine (perm_full_of_count hne ?_ ?_ ?_).symm <;> simp [hne, hne.symm]
    exact h.not_classified_of_values hw _ _ _ _ hperm hus (.inl rfl) hlt htypes.1 htypes.2 nofun
  · exact horders [u, u, u, v] [u, u, v, u] hus
      (hus.trans (((List.Perm.swap v u []).cons u).cons u)) (by omega) (.inl ⟨hw, .inl rfl⟩) (.inl rfl)
  · exact horders [u, u, v, v] [u, v, v, u] hus
      (hus.trans (.cons u (show ([u] ++ [v, v]).Perm ([v, v] ++ [u]) from List.perm_append_comm))) (by omega)
      (.inl ⟨hw, .inr rfl⟩) (.inr (.inl rfl))
  · exact horders [u, u, v] [u, v, u] hus (hus.trans ((List.Perm.swap v u []).cons u)) (by omega)
      (.inr ⟨hw, rfl⟩) (.inr (.inr rfl))
  · omega

/-! ## Pairs and triples in a row

The other cards with the most frequent value
last are put into a line, and apart they are not. -/

def mostLast (vs : List ℕ) : List ℕ :=
  let most := vs.foldl (fun p v => if vs.count p < vs.count v then v else p) (vs.headD 0)
  vs.filter (· ≠ most) ++ vs.filter (· = most)

theorem mostLast_perm (vs : List ℕ) : (mostLast vs).Perm vs := by
  have hsplit := List.filter_append_perm (fun v => decide (v ≠ vs.foldl
    (fun p v => if vs.count p < vs.count v then v else p) (vs.headD 0))) vs
  simpa [mostLast] using hsplit

/-- With the most frequent value last a line is made, and it is a run of
pairs or of triples. -/
structure MakesRun (vs : List ℕ) (wild : ℕ) : Prop where
  same : sameCount 0 (plainCards (mostLast vs)) = 2 ∨ sameCount 0 (plainCards (mostLast vs)) = 3
  done : ∃ idxs ∈ [upward, downward], (line (plainCards (mostLast vs)) wild
    (sameCount 0 (plainCards (mostLast vs))) idxs).Done
  run : ∀ idxs ∈ [upward, downward], (line (plainCards (mostLast vs)) wild
    (sameCount 0 (plainCards (mostLast vs))) idxs).Done → ∃ top ∈ List.range 15,
      (3 ≤ top ∧ ((line (plainCards (mostLast vs)) wild (sameCount 0 (plainCards (mostLast vs)))
        idxs).result.map getCardValue).Perm (runValues 2 3 top)) ∨
      (2 ≤ top ∧ ((line (plainCards (mostLast vs)) wild (sameCount 0 (plainCards (mostLast vs)))
        idxs).result.map getCardValue).Perm (runValues 3 2 top))

instance (vs : List ℕ) (wild : ℕ) : Decidable (MakesRun vs wild) :=
  decidable_of_iff (_ ∧ _ ∧ _) ⟨fun h => ⟨h.1, h.2.1, h.2.2⟩, fun h => ⟨h.same, h.done, h.run⟩⟩

/-- In some order the values stand apart as far as they are counted, the
last one behind another one. -/
def Apart (vs : List ℕ) : Prop := ∃ us ∈ vs.permutations', sameCount 0 (plainCards us) = 1 ∧
  (us.drop (us.length - 2)).getD 0 0 ≠ (us.drop (us.length - 2)).getD 1 0

instance (vs : List ℕ) : Decidable (Apart vs) := inferInstanceAs (Decidable (∃ us ∈ _, _ ∧ _))

/-- The values left of a run when one or two are taken out. -/
def RunRest (cell n top wild : ℕ) (vs : List ℕ) : Prop :=
  (wild = 0 ∧ vs = runValues cell n top) ∨
    (wild = 1 ∧ ∃ s ∈ (runValues cell n top).dedup, vs = (runValues cell n top).erase s) ∨
      (wild = 2 ∧ ∃ s ∈ (runValues cell n top).dedup, ∃ s' ∈ ((runValues cell n top).erase s).dedup,
        vs = ((runValues cell n top).erase s).erase s')

/-- What is left of pairs and triples in a row. -/
theorem makesRun_of_runRest {wild : ℕ} (hshape : RunShape cell n) (hcell : cell ≠ 1)
    (hlow : n ≤ top) (hhigh : top ≤ 14) (h : RunRest cell n top wild vs)
    (hne : ∃ a ∈ vs, ∃ b ∈ vs, a ≠ b) : Apart vs ∧ (0 < wild → MakesRun vs wild) := by
  have hpairs : ∀ top ≤ 14, 3 ≤ top → Apart (runValues 2 3 top) ∧
      ∀ s ∈ (runValues 2 3 top).dedup, (Apart ((runValues 2 3 top).erase s) ∧
        MakesRun ((runValues 2 3 top).erase s) 1) ∧ ∀ s' ∈ ((runValues 2 3 top).erase s).dedup,
          (∃ a ∈ ((runValues 2 3 top).erase s).erase s', ∃ b ∈ ((runValues 2 3 top).erase s).erase s',
            a ≠ b) → Apart (((runValues 2 3 top).erase s).erase s') ∧
              MakesRun (((runValues 2 3 top).erase s).erase s') 2 := by decide +kernel
  have htriples : ∀ top ≤ 14, 2 ≤ top → Apart (runValues 3 2 top) ∧
      ∀ s ∈ (runValues 3 2 top).dedup, (Apart ((runValues 3 2 top).erase s) ∧
        MakesRun ((runValues 3 2 top).erase s) 1) ∧ ∀ s' ∈ ((runValues 3 2 top).erase s).dedup,
          (∃ a ∈ ((runValues 3 2 top).erase s).erase s', ∃ b ∈ ((runValues 3 2 top).erase s).erase s',
            a ≠ b) → Apart (((runValues 3 2 top).erase s).erase s') ∧
              MakesRun (((runValues 3 2 top).erase s).erase s') 2 := by decide +kernel
  cases hshape with
  | single => exact absurd rfl hcell
  | double =>
    have hall := hpairs top hhigh hlow
    rcases h with ⟨rfl, rfl⟩ | ⟨rfl, s, hs, rfl⟩ | ⟨rfl, s, hs, s', hs', rfl⟩
    · exact ⟨hall.1, fun h => absurd h (lt_irrefl _)⟩
    · exact ⟨(hall.2 s hs).1.1, fun _ => (hall.2 s hs).1.2⟩
    · have := (hall.2 s hs).2 s' hs' hne
      exact ⟨this.1, fun _ => this.2⟩
  | three =>
    have hall := htriples top hhigh hlow
    rcases h with ⟨rfl, rfl⟩ | ⟨rfl, s, hs, rfl⟩ | ⟨rfl, s, hs, s', hs', rfl⟩
    · exact ⟨hall.1, fun h => absurd h (lt_irrefl _)⟩
    · exact ⟨(hall.2 s hs).1.1, fun _ => (hall.2 s hs).1.2⟩
    · have := (hall.2 s hs).2 s' hs' hne
      exact ⟨this.1, fun _ => this.2⟩

/-- The values of the other cards are what is left of a run. -/
theorem runRest_of_makes (htwo : wildCount mainValue cards ≤ 2)
    (h : Makes mainValue cards (runValues cell n top)) :
    ∃ vs, ((others mainValue cards).map getCardValue).Perm vs ∧
      RunRest cell n top (wildCount mainValue cards) vs := by
  obtain ⟨stand, hlen, hperm⟩ := h
  match stand with
  | [] =>
    rw [List.append_nil] at hperm
    exact ⟨_, hperm, .inl ⟨hlen.symm, rfl⟩⟩
  | [s] =>
    obtain ⟨hs, hrest⟩ := List.cons_perm_iff_perm_erase.1 (List.perm_append_comm.trans hperm)
    exact ⟨_, hrest, .inr (.inl ⟨hlen.symm, s, List.mem_dedup.2 hs, rfl⟩)⟩
  | [s, s'] =>
    obtain ⟨hs, hrest⟩ := List.cons_perm_iff_perm_erase.1 (List.perm_append_comm.trans hperm)
    obtain ⟨hs', hrest⟩ := List.cons_perm_iff_perm_erase.1 hrest
    exact ⟨_, hrest, .inr (.inr ⟨hlen.symm, s, List.mem_dedup.2 hs, s', List.mem_dedup.2 hs', rfl⟩)⟩
  | _ :: _ :: _ :: _ =>
    simp only [List.length_cons] at hlen
    omega

/-- Six cards with a card of another value before the last one have no type,
where no line is tried. -/
theorem FromDecks.error_of_apart (h : FromDecks cards) (hsix : cards.length = 6)
    (hu : ¬ Uniform mainValue cards) (hsame : sameCount mainValue (others mainValue cards) = 1)
    (hlone : [c] ∈ blocks getCardValue cards) :
    getMagicCardType mainValue cards = some .error := by
  have hmax : maxCount = 28 := rfl
  rw [h.type_of_copy (by omega) hu (fun _ hfive => by omega) fun _ => by omega]
  exact error_of_lone (.inr hsix) hlone fun hfive => by omega

/-- The last card stands alone when the one before it is of another value. -/
theorem exists_lone (front : List UInt8) (hlen : 2 ≤ us.length) (h : l.map getCardValue = us)
    (hne : (us.drop (us.length - 2)).getD 0 0 ≠ (us.drop (us.length - 2)).getD 1 0) :
    ∃ c, [c] ∈ blocks getCardValue (front ++ l) := by
  subst h
  rw [List.length_map] at hne hlen
  rw [← List.map_drop] at hne
  have hdrop : (l.drop (l.length - 2)).length = 2 := by
    rw [List.length_drop]
    omega
  generalize htail : l.drop (l.length - 2) = tail at hne hdrop
  match tail, hdrop with
  | [q, r], _ =>
    refine ⟨r, ?_⟩
    rw [← List.take_append_drop (l.length - 2) l, htail,
      show front ++ (l.take (l.length - 2) ++ [q, r]) = (front ++ l.take (l.length - 2) ++ [q]) ++ r :: [] by
        simp]
    refine singleton_mem_blocks (fun x hx => ?_) nofun
    rw [List.getLast?_concat, Option.mem_some_iff] at hx
    rw [← hx]
    exact fun heq => hne heq.symm

/-- With the most frequent value last the play is pairs or triples in a
row. -/
theorem FromDecks.line_of_makesRun (h : FromDecks cards) (hsix : cards.length = 6)
    (hwild : 0 < wildCount mainValue cards) (hu : ¬ Uniform mainValue cards)
    (hvalues : (others mainValue cards).map getCardValue = mostLast vs)
    (hvs : ∀ v ∈ vs, 1 ≤ v ∧ v ≤ 13) (hrun : MakesRun vs (wildCount mainValue cards)) :
    getMagicCardType mainValue cards ≠ some .error := by
  have hmax : maxCount = 28 := rfl
  have hlength := length_others_add mainValue cards
  have htwo := (@FromDecks.wildCount_le mainValue cards h).1
  have hlast : ∀ v ∈ mostLast vs, 1 ≤ v ∧ v ≤ 13 := fun v hv => hvs v ((mostLast_perm vs).subset hv)
  have hsame := sameCount_of_values mainValue hvalues
    (fun v hv => by have := hlast v hv; omega) rfl
  have hlines : ∀ idxs, idxs = upward ∨ idxs = downward →
      SameLine (line (others mainValue cards) (wildCount mainValue cards)
        (sameCount mainValue (others mainValue cards)) idxs)
          (line (plainCards (mostLast vs)) (wildCount mainValue cards)
            (sameCount 0 (plainCards (mostLast vs))) idxs) := fun idxs hidxs => by
    rw [hsame]
    exact h.colored.line_plainCards (.of_eq hvalues) hlast hidxs
  have hidxs : ∀ idxs : List ℕ, idxs ∈ [upward, downward] ↔ idxs = upward ∨ idxs = downward := fun idxs => by
    simp
  obtain ⟨result, hmagic, hresolved⟩ := @FromDecks.resolved mainValue cards h (by omega)
  rw [getMagicCardType, hmagic, Option.bind_some]
  cases hresolved with
  | raw hnone =>
    rcases hnone with hzero | hnil
    · omega
    · rw [hnil, List.length_nil] at hlength
      omega
  | uniform hsame => exact absurd hsame hu
  | full hfive => omega
  | copy _ _ _ _ hline =>
    obtain ⟨idxs, hmem, hdone⟩ := hrun.done
    exact absurd ((hlines idxs ((hidxs idxs).1 hmem)).done.2 hdone) (hline (.inr ⟨by
      rw [hsame]
      exact hrun.same, hsix⟩) idxs ((hidxs idxs).1 hmem))
  | @line idxs hidxs' _ _ _ _ hdone _ =>
    obtain ⟨extra, hline⟩ := h.lineResult hidxs' (.inr hsix) hdone
    have hsameLine := hlines idxs hidxs'
    obtain ⟨top, htop, hrun⟩ := hrun.run idxs ((hidxs idxs).2 hidxs') (hsameLine.done.1 hdone)
    rw [← hsameLine.values] at hrun
    have hhigh : top ≤ 14 := by
      have := List.mem_range.1 htop
      omega
    have hsorted : ∀ {cell n}, RunShape cell n → n ≤ top →
        ((line (others mainValue cards) (wildCount mainValue cards)
          (sameCount mainValue (others mainValue cards)) idxs).result.map getCardValue).Perm
            (runValues cell n top) →
        getCardType mainValue (sortCardList mainValue (line (others mainValue cards)
          (wildCount mainValue cards) (sameCount mainValue (others mainValue cards)) idxs).result) =
            some (lineType (sortCardList mainValue (line (others mainValue cards)
              (wildCount mainValue cards) (sameCount mainValue (others mainValue cards)) idxs).result) cell) := by
      intro cell n hshape hlow hperm
      have hisRun : IsRun cell n top (sortCardList mainValue (line (others mainValue cards)
          (wildCount mainValue cards) (sameCount mainValue (others mainValue cards)) idxs).result) :=
        ⟨hlow, hhigh, ((sortBy_perm _ _).map _).trans hperm⟩
      exact getCardType_of_celled hshape hisRun (celled_of_sorted hshape hline.sorted hisRun)
    rcases hrun with ⟨hlow, hperm⟩ | ⟨hlow, hperm⟩
    · rw [hsorted .double hlow hperm]
      rintro ⟨⟩
    · rw [hsorted .three hlow hperm]
      rintro ⟨⟩

/-- **Pairs and triples in a row** are so in some order only. -/
theorem FromDecks.not_classified_run (h : FromDecks cards) (hshape : RunShape cell n)
    (hcell : cell ≠ 1) (hlow : n ≤ top) (hhigh : top ≤ 14) (hranks : ¬ OneRank (others mainValue cards))
    (hmakes : Makes mainValue cards (runValues cell n top)) : ¬ Classified mainValue cards := by
  have hmax : maxCount = 28 := rfl
  have hlength := length_others_add mainValue cards
  have htwo := (@FromDecks.wildCount_le mainValue cards h).1
  have hu : ¬ Uniform mainValue cards := fun hu => hranks (uniform_iff.1 hu).2.2.1
  have hsix : cards.length = 6 := by
    obtain ⟨stand, hlen, hperm⟩ := hmakes
    have := hperm.length_eq
    have hrun : (runValues cell n top).length = 6 := by cases hshape <;> simp [runValues] at hcell ⊢
    rw [List.length_append, List.length_map, hrun] at this
    omega
  have hrange : ∀ v ∈ runValues cell n top, 1 ≤ v ∧ v ≤ 13 := by
    have hpairs : ∀ top ≤ 14, 3 ≤ top → ∀ v ∈ runValues 2 3 top, 1 ≤ v ∧ v ≤ 13 := by decide
    have htriples : ∀ top ≤ 14, 2 ≤ top → ∀ v ∈ runValues 3 2 top, 1 ≤ v ∧ v ≤ 13 := by decide
    cases hshape with
    | single => exact absurd rfl hcell
    | double => exact hpairs top hhigh hlow
    | three => exact htriples top hhigh hlow
  obtain ⟨vs, hperm, hrest⟩ := runRest_of_makes htwo hmakes
  have hne : ∃ a ∈ vs, ∃ b ∈ vs, a ≠ b := by
    by_contra hall
    push Not at hall
    refine hranks fun a ha b hb => ?_
    exact hall _ (hperm.subset (List.mem_map_of_mem ha)) _ (hperm.subset (List.mem_map_of_mem hb))
  obtain ⟨hapart, hmakesRun⟩ := makesRun_of_runRest hshape hcell hlow hhigh hrest hne
  have hlen : vs.length + wildCount mainValue cards = 6 := by
    rw [← hperm.length_eq, List.length_map]
    omega
  -- apart, the cards have no type
  obtain ⟨us, hus, hsame, hlast⟩ := hapart
  have husperm := List.mem_permutations'.1 hus
  obtain ⟨l', hl', hmap'⟩ := exists_perm_map (hperm.trans husperm.symm)
  obtain ⟨horder', hothers'⟩ := wilds_append hl'
  have hvs : ∀ v ∈ vs, 1 ≤ v ∧ v ≤ 13 := fun v hv => by
    obtain ⟨stand, -, hall⟩ := hmakes
    exact hrange v (hall.subset (List.mem_append_left _ (hperm.symm.subset hv)))
  obtain ⟨c, hlone⟩ := exists_lone (wilds mainValue cards) (by
    rw [husperm.length_eq]
    omega) hmap' hlast
  have herror := (h.perm horder').error_of_apart (horder'.length_eq.trans hsix)
    (fun hsame => hu ((uniform_perm horder').1 hsame)) (by
      rw [hothers']
      exact sameCount_of_values _ hmap' (fun v hv => by
        have := hvs v (husperm.subset hv)
        omega) hsame) hlone
  by_cases hwild : wildCount mainValue cards = 0
  · -- without wild cards the run in order
    rw [others_eq_self hwild] at hperm
    obtain ⟨-, rfl⟩ | ⟨hone, -⟩ | ⟨htwo, -⟩ := hrest
    · obtain ⟨order, horder, hmap⟩ := exists_perm_map hperm
      have hrun : IsRun cell n top order := ⟨hlow, hhigh, .of_eq hmap⟩
      have hcelled : Celled cell order := by
        have hpairs : ∀ top ≤ 14, 3 ≤ top → ∀ block ∈ blocks id (runValues 2 3 top), block.length = 2 := by
          decide +kernel
        have htriples : ∀ top ≤ 14, 2 ≤ top → ∀ block ∈ blocks id (runValues 3 2 top), block.length = 3 := by
          decide +kernel
        rw [celled_iff_values, hmap]
        cases hshape with
        | single => exact absurd rfl hcell
        | double => exact hpairs top hhigh hlow
        | three => exact htriples top hhigh hlow
      refine not_classified horder horder' ?_
      rw [herror, (h.perm horder).type_of_zero (by rw [horder.length_eq]; omega)
        (by rwa [wildCount_perm horder]), getCardType_of_celled hshape hrun hcelled]
      cases hshape with
      | single => exact absurd rfl hcell
      | double | three => rintro ⟨⟩
    · omega
    · omega
  · obtain ⟨l, hl, hmap⟩ := exists_perm_map (hperm.trans (mostLast_perm vs).symm)
    obtain ⟨horder, hothers⟩ := wilds_append hl
    refine not_classified horder horder' ?_
    rw [herror]
    refine (h.perm horder).line_of_makesRun (horder.length_eq.trans hsix)
      (by rw [wildCount_perm horder]; omega) (fun hsame => hu ((uniform_perm horder).1 hsame))
      (by rwa [hothers]) hvs ?_
    rw [wildCount_perm horder]
    exact hmakesRun (by omega)

/-! ## The plays that are misread -/

/-- **A play that is misread** is not told by its cards. -/
theorem FromDecks.not_classified_of_misread (h : FromDecks cards) (hmis : Misread mainValue cards) :
    ¬ Classified mainValue cards := by
  cases hmis with
  | outer a b hne hu hvalues => exact h.not_classified_outer hne hu hvalues
  | full a b hranks hmakes => exact h.not_classified_full hranks hmakes
  | pairs top hlow hhigh hranks hmakes =>
    exact h.not_classified_run .double (by decide) hlow hhigh hranks hmakes
  | triples top hlow hhigh hranks hmakes =>
    exact h.not_classified_run .three (by decide) hlow hhigh hranks hmakes
  | aces hwild hvalues => exact h.not_classified_aces hwild hvalues
  | threeAces hwild hvalues =>
    exact h.not_classified_of_values hwild [1, 13, 1, 12, 1] [1, 1, 1, 13, 12]
      .singleLink .error (by decide) (hvalues.trans (by decide)) (.inl rfl)
      (by decide) (by decide +kernel) (by decide +kernel) nofun
  | kings hwild hvalues =>
    exact h.not_classified_of_values hwild [1, 1, 13, 13, 1, 1] [13, 1, 1, 1, 1, 13]
      .doubleLink .error (by decide) (hvalues.trans (by decide)) (.inr rfl)
      (by decide) (by decide +kernel) (by decide +kernel) nofun

/-- **A play is classified by its cards** just when it is not misread in
some order. -/
theorem told_by_cards_iff (mainValue : ℕ) (cards : List UInt8) (h : FromDecks cards) :
    Classified mainValue cards ↔ ¬ Misread mainValue cards :=
  ⟨fun hc hmis => h.not_classified_of_misread hmis hc, h.classified⟩

/-- The theorem at a pair of threes with the wild two of hearts. -/
theorem told_by_cards_triple : Classified 2 [0x03, 0x13, 0x22] ↔ ¬ Misread 2 [0x03, 0x13, 0x22] :=
  told_by_cards_iff 2 [0x03, 0x13, 0x22] (by rw [FromDecks]; decide +kernel)

/-- A three, a four and a three are three of a kind, and the fours behind
the threes are nothing. -/
theorem order_tells : FromDecks [0x03, 0x14, 0x13] ∧
    getMagicCardType 2 [0x03, 0x14, 0x13] = some .three ∧
      getMagicCardType 2 [0x03, 0x13, 0x14] = some .error ∧ ¬ Classified 2 [0x03, 0x14, 0x13] := by
  refine ⟨by rw [FromDecks]; decide +kernel, by decide +kernel, by decide +kernel, fun hc => ?_⟩
  have hsame := hc.same [0x03, 0x14, 0x13] [0x03, 0x13, 0x14] (.refl _) (by decide)
  exact absurd hsame (by decide +kernel)

end GameServer.GuanDan
