import GameServer.OxBattle.Picks
import GameServer.OxBattle.Model.CardType
import Mathlib.Order.Bounds.Basic
/-!
# Ox battle — the class of a hand

The rules of the game (`Rules`): four cards of a rank, five pictures, and
an ox with as many points as the best choice of three cards leaves, where
a joker stands for any rank and for any number. `GetCardType` follows them
(`sortedType_rules`).
-/

namespace GameServer.OxBattle

variable {a b c d e : UInt8} {hand four : List UInt8}
variable {card : UInt8}

/-! ## The rules -/

/-- Four cards share a rank. -/
def Bomb (hand : List UInt8) : Prop :=
  ∃ rank, 4 ≤ hand.countP fun card => isJoker card || getCardValue card == rank

/-- A joker, or a card above the ten. -/
def isPicture (card : UInt8) : Bool := isJoker card || decide (11 ≤ getCardValue card)

def isRankTen (card : UInt8) : Bool := !isJoker card && getCardValue card == 10

/-- Pictures, with `k` tens among them. -/
def Pictures (hand : List UInt8) (k : ℕ) : Prop :=
  (∀ card ∈ hand, isPicture card ∨ isRankTen card) ∧ hand.countP isRankTen = k

/-- What a card may count: a joker from one to ten. -/
def Counts (card : UInt8) (value : ℕ) : Prop :=
  if isJoker card then 1 ≤ value ∧ value ≤ 10 else value = getCardLogicValue card

/-- A choice of three cards that make a multiple of ten, with `n` points
left. -/
def Niu (hand : List UInt8) (n : ℕ) : Prop :=
  1 ≤ n ∧ n ≤ 10 ∧ ∃ value : UInt8 → ℕ, (∀ card ∈ hand, Counts card (value card)) ∧
    ∃ three two : List UInt8, (three ++ two).Perm hand ∧ three.length = 3 ∧
      (three.map value).sum % 10 = 0 ∧ (two.map value).sum % 10 = n % 10

/-- The class of `n` points: ten points with a joker have a class of their
own. -/
def niuClass (hand : List UInt8) (n : ℕ) : CardType :=
  if n = 10 ∧ hand.any isJoker then if 0x42 ∈ hand then .niuNiuDW else .niuNiuXW else retType n

/-- **The class of a hand.** -/
inductive Rules (hand : List UInt8) : CardType → Prop
  | bomb : Bomb hand → Rules hand .bomeBome
  | king : ¬ Bomb hand → Pictures hand 0 → Rules hand .niuKing
  | ying : ¬ Bomb hand → Pictures hand 1 → Rules hand .niuYing
  | niu (n : ℕ) : ¬ Bomb hand → ¬ Pictures hand 0 → ¬ Pictures hand 1 →
      IsGreatest {n | Niu hand n} n → Rules hand (niuClass hand n)
  | point : ¬ Bomb hand → ¬ Pictures hand 0 → ¬ Pictures hand 1 → (∀ n, ¬ Niu hand n) →
      Rules hand .point

/-! ## Cards of the deck -/

theorem deck_card : ∀ card ∈ cardListData, isJoker card = true ∧ (card = 0x41 ∨ card = 0x42) ∨
    isJoker card = false ∧ 1 ≤ getCardValue card ∧ getCardValue card ≤ 13 := by
  decide +kernel

theorem deck_new (h : card ∈ cardListData) :
    1 ≤ getCardNewValue card ∧ (getCardNewValue card ≤ 13 ∨ 16 ≤ getCardNewValue card) ∧
      isJoker card = decide (16 ≤ getCardNewValue card) ∧
      (isJoker card = false → getCardValue card = getCardNewValue card) ∧
      getCardLogicValue card = if 16 ≤ getCardNewValue card then 11
        else min (getCardNewValue card) 10 := by
  revert card
  decide +kernel

structure Sorted (a b c d e : UInt8) : Prop where
  nodup : [a, b, c, d, e].Nodup
  deck : ∀ card ∈ [a, b, c, d, e], card ∈ cardListData
  order : [a, b, c, d, e].Pairwise fun x y =>
    getCardNewValue y * 256 + y.toNat ≤ getCardNewValue x * 256 + x.toNat

namespace Sorted

section

variable (h : Sorted a b c d e)
include h

/-- The values are in order, and only the first two cards can be
jokers. -/
theorem new_le :
    getCardNewValue b ≤ getCardNewValue a ∧
    getCardNewValue c ≤ getCardNewValue b ∧ getCardNewValue d ≤ getCardNewValue c ∧
    getCardNewValue e ≤ getCardNewValue d := by
  have horder := h.order
  simp only [List.pairwise_cons, List.mem_cons, List.not_mem_nil, or_false, forall_eq_or_imp,
    forall_eq] at horder
  have ha := a.toNat_lt
  have hb := b.toNat_lt
  have hc := c.toNat_lt
  have hd := d.toNat_lt
  omega

/-- Two jokers are the big one and the small one. -/
theorem jokers (hb : isJoker b = true) : a = 0x42 ∧ b = 0x41 := by
  have hnew := h.new_le.1
  obtain ⟨-, -, hjokerA, -⟩ := deck_new (h.deck a (by simp))
  obtain ⟨-, -, hjokerB, -⟩ := deck_new (h.deck b (by simp))
  have ha : isJoker a = true := by
    rw [hjokerB, decide_eq_true_eq] at hb
    rw [hjokerA, decide_eq_true_eq]
    omega
  have hne : a ≠ b := by
    have hnodup := h.nodup
    simp only [List.nodup_cons, List.mem_cons, not_or] at hnodup
    exact hnodup.1.1
  have hdeckA := deck_card a (h.deck a (by simp))
  have hdeckB := deck_card b (h.deck b (by simp))
  rw [ha] at hdeckA
  rw [hb] at hdeckB
  simp only [true_and, Bool.true_eq_false, false_and, or_false] at hdeckA hdeckB
  obtain rfl | rfl := hdeckA
  · obtain rfl | rfl := hdeckB
    · exact absurd rfl hne
    · exact absurd hnew (by decide +kernel)
  · obtain rfl | rfl := hdeckB
    · exact ⟨rfl, rfl⟩
    · exact absurd rfl hne

theorem not_joker : isJoker c = false := by
  rw [Bool.eq_false_iff]
  intro hc
  have hnew := h.new_le.2.1
  obtain ⟨-, -, hjokerB, -⟩ := deck_new (h.deck b (by simp))
  obtain ⟨-, -, hjokerC, -⟩ := deck_new (h.deck c (by simp))
  have hb : isJoker b = true := by
    rw [hjokerC, decide_eq_true_eq] at hc
    rw [hjokerB, decide_eq_true_eq]
    omega
  obtain ⟨rfl, rfl⟩ := h.jokers hb
  have hnodup := h.nodup
  obtain ⟨-, rfl | rfl⟩ | ⟨hno, -⟩ := deck_card c (h.deck c (by simp))
  · simp at hnodup
  · simp at hnodup
  · rw [hno] at hc
    cases hc

theorem new_bounds :
    1 ≤ getCardNewValue e ∧ getCardNewValue c ≤ 13 ∧
    (getCardNewValue b ≤ 13 ∨ 16 ≤ getCardNewValue b) ∧
    (getCardNewValue a ≤ 13 ∨ 16 ≤ getCardNewValue a) := by
  obtain ⟨-, hc, hjokerC, -⟩ := deck_new (h.deck c (by simp))
  rw [h.not_joker, eq_comm, decide_eq_false_iff_not] at hjokerC
  exact ⟨(deck_new (h.deck e (by simp))).1, hc.resolve_right hjokerC,
    (deck_new (h.deck b (by simp))).2.1, (deck_new (h.deck a (by simp))).2.1⟩

/-- The bombs among sorted cards. -/
theorem bomb_iff :
    Bomb [a, b, c, d, e] ↔
    (getCardNewValue a = getCardNewValue d ∨ getCardNewValue b = getCardNewValue e) ∨
    (isJoker a ∧ isJoker b ∧ (getCardNewValue c = getCardNewValue d ∨
      getCardNewValue d = getCardNewValue e)) ∨
    isJoker a ∧ (getCardNewValue b = getCardNewValue d ∨
      getCardNewValue c = getCardNewValue e) := by
  have hle := h.new_le
  have hbounds := h.new_bounds
  have hcount (rank : ℕ) : ([a, b, c, d, e].countP fun card =>
      isJoker card || getCardValue card == rank) = [a, b, c, d, e].countP fun card =>
        decide (16 ≤ getCardNewValue card ∨ getCardNewValue card = rank) := by
    refine List.countP_congr fun card hcard => ?_
    obtain ⟨-, -, hjoker, hvalue, -⟩ := deck_new (h.deck card hcard)
    cases hj : isJoker card with
    | true =>
      rw [hj, eq_comm, decide_eq_true_eq] at hjoker
      simp [hjoker]
    | false =>
      rw [hj, eq_comm, decide_eq_false_iff_not] at hjoker
      simp [hvalue hj, hjoker]
  have ha := (deck_new (h.deck a (by simp))).2.2.1
  have hb := (deck_new (h.deck b (by simp))).2.2.1
  unfold Bomb
  simp only [hcount, ha, hb, decide_eq_true_eq, List.countP_cons, List.countP_nil]
  constructor
  · rintro ⟨rank, hrank⟩
    split_ifs at hrank <;> omega
  · -- the rank is that of one of the two smallest cards
    intro hcases
    by_cases hd : getCardNewValue a = getCardNewValue d ∨
        (16 ≤ getCardNewValue b ∧ getCardNewValue c = getCardNewValue d) ∨
        16 ≤ getCardNewValue a ∧ getCardNewValue b = getCardNewValue d
    · refine ⟨getCardNewValue d, ?_⟩
      split_ifs <;> omega
    · refine ⟨getCardNewValue e, ?_⟩
      split_ifs <;> omega

/-- The picture classes of sorted cards. -/
theorem pictures_iff (k : ℕ) :
    Pictures [a, b, c, d, e] k ↔
    [a, b, c, d, e].all isTen ∧ [a, b, c, d, e].countP (getCardNewValue · == 10) = k := by
  have hten (card : UInt8) (hcard : card ∈ [a, b, c, d, e]) :
      isRankTen card = (getCardNewValue card == 10) ∧
        ((isPicture card ∨ isRankTen card) ↔ isTen card) := by
    obtain ⟨hpos, hrange, hjoker, hvalue, hlogic⟩ := deck_new (h.deck card hcard)
    unfold isRankTen isPicture isTen
    rw [hlogic]
    cases hj : isJoker card with
    | true =>
      rw [hj, eq_comm, decide_eq_true_eq] at hjoker
      have hne : getCardNewValue card ≠ 10 := by omega
      simp [hjoker, hne]
    | false =>
      rw [hj, eq_comm, decide_eq_false_iff_not] at hjoker
      rw [hvalue hj]
      simp only [if_neg hjoker, Bool.not_false, Bool.true_and, Bool.false_or, decide_eq_true_eq,
        Bool.or_eq_true, beq_iff_eq]
      refine ⟨trivial, ?_⟩
      omega
  unfold Pictures
  rw [List.all_eq_true, List.countP_congr fun card hcard => by rw [(hten card hcard).1]]
  exact and_congr_left fun _ => forall₂_congr fun card hcard => (hten card hcard).2

theorem isTen_iff (hcard : card ∈ [a, b, c, d, e]) :
    isTen card = true ↔ 10 ≤ getCardNewValue card := by
  obtain ⟨-, -, -, -, hlogic⟩ := deck_new (h.deck card hcard)
  unfold isTen
  rw [hlogic, Bool.or_eq_true, beq_iff_eq, beq_iff_eq]
  split_ifs <;> omega

theorem isTen_prefix :
    (isTen b → isTen a) ∧ (isTen c → isTen b) ∧
    (isTen d → isTen c) ∧ (isTen e → isTen d) := by
  have hle := h.new_le
  rw [h.isTen_iff (by simp), h.isTen_iff (by simp), h.isTen_iff (by simp), h.isTen_iff (by simp),
    h.isTen_iff (by simp)]
  omega

theorem logic_bounds (hcard : card ∈ [a, b, c, d, e])
    (hjoker : isJoker card = false) : 1 ≤ getCardLogicValue card ∧ getCardLogicValue card ≤ 10 := by
  obtain ⟨hpos, -, hj, -, hlogic⟩ := deck_new (h.deck card hcard)
  rw [hjoker, eq_comm, decide_eq_false_iff_not] at hj
  rw [hlogic, if_neg hj]
  omega

end

end Sorted

/-! ## Without a joker -/

/-- A choice without a joker leaves the points of all cards. -/
theorem niu_iff (hjoker : ∀ card ∈ hand, isJoker card = false) (n : ℕ) :
    Niu hand n ↔ 1 ≤ n ∧ n ≤ 10 ∧ Triple hand ∧ n % 10 = logicSum hand % 10 := by
  have hlogic {value : UInt8 → ℕ} (hvalue : ∀ card ∈ hand, Counts card (value card))
      {cards : List UInt8} (hcards : ∀ card ∈ cards, card ∈ hand) :
      (cards.map value).sum = logicSum cards := by
    refine congrArg List.sum (List.map_congr_left fun card hcard => ?_)
    have := hvalue card (hcards card hcard)
    rwa [Counts, hjoker card (hcards card hcard), if_neg Bool.false_ne_true] at this
  refine and_congr_right fun _ => and_congr_right fun _ => ?_
  constructor
  · rintro ⟨value, hvalue, three, two, hperm, hlen, hten, hrest⟩
    rw [hlogic hvalue fun card hcard => hperm.subset (List.mem_append_left _ hcard)] at hten
    rw [hlogic hvalue fun card hcard => hperm.subset (List.mem_append_right _ hcard)] at hrest
    exact ⟨⟨three, two, hperm, hlen, hten⟩, hrest.symm.trans (logicSum_rest hperm hten)⟩
  · rintro ⟨⟨three, two, hperm, hlen, hten⟩, hn⟩
    refine ⟨getCardLogicValue, fun card hcard => ?_, three, two, hperm, hlen, hten, ?_⟩
    · rw [Counts, hjoker card hcard, if_neg Bool.false_ne_true]
    · exact (logicSum_rest hperm hten).trans hn.symm

/-- What `GetCardType` has to find. -/
def Found (hand : List UInt8) (type : CardType) : Prop :=
  (∃ n, IsGreatest {n | Niu hand n} n ∧ type = niuClass hand n) ∨
    (∀ n, ¬ Niu hand n) ∧ type = .point

theorem Sound.found (hjoker : ∀ card ∈ hand, isJoker card = false) {type : CardType}
    (h : Sound hand type) : Found hand type := by
  have hany : hand.any isJoker = false := by
    rw [List.any_eq_false]
    exact fun card hcard => by rw [hjoker card hcard]; exact Bool.false_ne_true
  obtain ⟨htriple, rfl⟩ | ⟨hno, rfl⟩ := h
  · have hpoints : ∃ n, 1 ≤ n ∧ n ≤ 10 ∧ n % 10 = logicSum hand % 10 := by
      by_cases hzero : logicSum hand % 10 = 0
      · exact ⟨10, by decide, by decide, by rw [hzero]⟩
      · exact ⟨logicSum hand % 10, by omega, by omega, Nat.mod_mod _ _⟩
    obtain ⟨n, hpos, hle, hn⟩ := hpoints
    refine .inl ⟨n, ⟨(niu_iff hjoker n).2 ⟨hpos, hle, htriple, hn⟩, fun m hm => ?_⟩, ?_⟩
    · obtain ⟨_, _, -, hm⟩ := (niu_iff hjoker m).1 hm
      omega
    · rw [niuClass, hany, if_neg (by rintro ⟨-, h⟩; cases h)]
      exact retType_congr hn.symm
  · exact .inr ⟨fun n hn => hno ((niu_iff hjoker n).1 hn).2.2.1, rfl⟩

/-! ## With one joker -/

/-- Two or three cards that make a multiple of ten: the joker fills up the
others. -/
def Full (four : List UInt8) : Prop :=
  ∃ xs ys, (xs ++ ys).Perm four ∧ (xs.length = 2 ∨ xs.length = 3) ∧ logicSum xs % 10 = 0

theorem isEmpty_makeTen {picks : List (List UInt8 × List UInt8)} :
    (makeTen picks).isEmpty = true ↔ ∀ p ∈ picks, logicSum p.1 % 10 ≠ 0 := by
  rw [List.isEmpty_iff, List.eq_nil_iff_forall_not_mem]
  constructor
  · exact fun h p hp hten => h p.2 (mem_makeTen.2 ⟨p, hp, hten, rfl⟩)
  · rintro h two htwo
    obtain ⟨p, hp, hten, -⟩ := mem_makeTen.1 htwo
    exact h p hp hten

theorem full_iff (hl : four.Nodup) : Full four ↔
    ¬ (makeTen (pickThree four)).isEmpty ∨ ¬ (makeTen (pickTwo four)).isEmpty := by
  rw [isEmpty_makeTen, isEmpty_makeTen]
  push Not
  constructor
  · rintro ⟨xs, ys, hperm, htwo | hthree, hten⟩
    · obtain ⟨p, hp, rfl, -⟩ := exists_pickTwo hl hperm htwo
      exact .inr ⟨p, hp, hten⟩
    · obtain ⟨p, hp, rfl, -⟩ := exists_pickThree hl hperm hthree
      exact .inl ⟨p, hp, hten⟩
  · rintro (⟨p, hp, hten⟩ | ⟨p, hp, hten⟩)
    · obtain ⟨hlen, hperm⟩ := perm_of_mem_pickThree hp
      exact ⟨p.1, p.2, hperm, .inr hlen, hten⟩
    · obtain ⟨hlen, hperm⟩ := perm_of_mem_pickTwo hp
      exact ⟨p.1, p.2, hperm, .inl hlen, hten⟩

/-- The cards that are picked last have the most points. -/
theorem bestTwo_foldl : ∀ (picks : List (List UInt8 × List UInt8)) (best : List UInt8),
    let r := picks.foldl (fun best p =>
      if logicSum p.1 % 10 > logicSum best % 10 then p.1 else best) best
    logicSum best % 10 ≤ logicSum r % 10 ∧ (∀ p ∈ picks, logicSum p.1 % 10 ≤ logicSum r % 10) ∧
      (r = best ∨ ∃ p ∈ picks, p.1 = r) := by
  intro picks
  induction picks with
  | nil => exact fun best => ⟨le_rfl, nofun, .inl rfl⟩
  | cons p picks ih =>
    intro best
    rw [List.foldl_cons]
    split_ifs with hgt
    · obtain ⟨hle, hall, hr⟩ := ih p.1
      refine ⟨by omega, List.forall_mem_cons.2 ⟨hle, hall⟩, .inr ?_⟩
      obtain heq | ⟨q, hq, heq⟩ := hr
      · exact ⟨p, List.mem_cons_self, heq.symm⟩
      · exact ⟨q, List.mem_cons_of_mem _ hq, heq⟩
    · obtain ⟨hle, hall, hr⟩ := ih best
      refine ⟨hle, List.forall_mem_cons.2 ⟨by omega, hall⟩, hr.imp id ?_⟩
      exact fun ⟨q, hq, heq⟩ => ⟨q, List.mem_cons_of_mem _ hq, heq⟩

section OneJoker

variable (ha : isJoker a = true) (hfour : ∀ card ∈ four, isJoker card = false)
  (hl : (a :: four).Nodup) (hlen : four.length = 4)

include ha hfour hl

theorem counts_update (value : ℕ) (hpos : 1 ≤ value) (hle : value ≤ 10) :
    ∀ card ∈ a :: four, Counts card (Function.update getCardLogicValue a value card) := by
  intro card hcard
  unfold Counts
  obtain rfl | hcard := List.mem_cons.1 hcard
  · rw [Function.update_self, if_pos ha]
    exact ⟨hpos, hle⟩
  · have hne : card ≠ a := fun heq => (List.nodup_cons.1 hl).1 (heq ▸ hcard)
    rw [Function.update_of_ne hne, hfour card hcard, if_neg Bool.false_ne_true]

omit ha hfour in
theorem sum_update {value : ℕ} {cards : List UInt8} (hcards : ∀ card ∈ cards, card ∈ four) :
    (cards.map (Function.update getCardLogicValue a value)).sum = logicSum cards := by
  refine congrArg List.sum (List.map_congr_left fun card hcard => ?_)
  have hne : card ≠ a := fun heq => (List.nodup_cons.1 hl).1 (heq ▸ hcards card hcard)
  rw [Function.update_of_ne hne]

/-- The joker and two cards make a multiple of ten whatever they are. -/
theorem niu_of_pair {xs ys : List UInt8} {n : ℕ} (hperm : (xs ++ ys).Perm four)
    (hlen : ys.length = 2) (hpos : 1 ≤ n) (hle : n ≤ 10) (hn : logicSum xs % 10 = n % 10) :
    Niu (a :: four) n := by
  have hxs : ∀ card ∈ xs, card ∈ four := fun x hx => hperm.subset (List.mem_append_left _ hx)
  have hys : ∀ card ∈ ys, card ∈ four := fun x hx => hperm.subset (List.mem_append_right _ hx)
  refine ⟨hpos, hle, _, counts_update ha hfour hl (10 - logicSum ys % 10) (by omega)
    (by omega), a :: ys, xs, ((List.perm_append_comm).trans hperm).cons a, ?_, ?_, ?_⟩
  · rw [List.length_cons, hlen]
  · rw [List.map_cons, List.sum_cons, Function.update_self, sum_update hl hys]
    omega
  · rw [sum_update hl hxs, hn]

include hlen

theorem Full.niu (h : Full four) : Niu (a :: four) 10 := by
  obtain ⟨xs, ys, hperm, htwo | hthree, hten⟩ := h
  · have hlength := hperm.length_eq
    rw [List.length_append] at hlength
    exact niu_of_pair ha hfour hl hperm (by omega) (by decide) (by decide) hten
  · have hxs : ∀ card ∈ xs, card ∈ four := fun x hx => hperm.subset (List.mem_append_left _ hx)
    have hys : ∀ card ∈ ys, card ∈ four := fun x hx => hperm.subset (List.mem_append_right _ hx)
    refine ⟨by decide, by decide, _, counts_update ha hfour hl (10 - logicSum ys % 10)
      (by omega) (by omega), xs, a :: ys, List.perm_middle.trans (hperm.cons a), hthree, ?_, ?_⟩
    · rw [sum_update hl hxs, hten]
    · rw [List.map_cons, List.sum_cons, Function.update_self, sum_update hl hys]
      omega

omit ha hl in
/-- Where nothing is full, the joker is one of the three, and two cards
are left. -/
theorem exists_pair_of_niu (hfull : ¬ Full four) {n : ℕ} (h : Niu (a :: four) n) :
    ∃ xs ys, (xs ++ ys).Perm four ∧ xs.length = 2 ∧ logicSum xs % 10 = n % 10 := by
  obtain ⟨-, -, value, hvalue, three, two, hperm, hthree, hten, hrest⟩ := h
  have hsum {cards : List UInt8} (hcards : ∀ card ∈ cards, card ∈ four) :
      (cards.map value).sum = logicSum cards := by
    refine congrArg List.sum (List.map_congr_left fun card hcard => ?_)
    have := hvalue card (List.mem_cons_of_mem a (hcards card hcard))
    rwa [Counts, hfour card (hcards card hcard), if_neg Bool.false_ne_true] at this
  obtain hmem | hmem := List.mem_append.1 (hperm.symm.subset (List.mem_cons_self (a := a)))
  · have herase := List.perm_cons_erase hmem
    have hperm' : (three.erase a ++ two).Perm four :=
      ((herase.append_right two).symm.trans hperm).cons_inv
    have hlength := hperm'.length_eq
    rw [List.length_append, List.length_erase_of_mem hmem] at hlength
    rw [hsum fun card hcard => hperm'.subset (List.mem_append_right _ hcard)] at hrest
    exact ⟨two, three.erase a, List.perm_append_comm.trans hperm', by omega, hrest⟩
  · have herase := List.perm_cons_erase hmem
    have hperm' : (three ++ two.erase a).Perm four :=
      (((herase.append_left three).symm.trans hperm).symm.trans List.perm_middle).cons_inv.symm
    rw [hsum fun card hcard => hperm'.subset (List.mem_append_left _ hcard)] at hten
    exact absurd ⟨three, two.erase a, hperm', .inr hthree, hten⟩ hfull

/-- **A joker without a full choice** leaves the best two cards. -/
theorem found_bestTwo (hfull : ¬ Full four) :
    Found (a :: four) (retType (logicSum (bestTwo four))) := by
  have hnodup := (List.nodup_cons.1 hl).2
  obtain ⟨-, hall, hr⟩ := bestTwo_foldl (pickTwo four) []
  change bestTwo four = [] ∨ ∃ p ∈ pickTwo four, p.1 = bestTwo four at hr
  have hpair {xs ys : List UInt8} (hperm : (xs ++ ys).Perm four) (htwo : xs.length = 2) :
      logicSum xs % 10 ≤ logicSum (bestTwo four) % 10 ∧ logicSum xs % 10 ≠ 0 := by
    obtain ⟨p, hp, rfl, -⟩ := exists_pickTwo hnodup hperm htwo
    exact ⟨hall p hp, fun hzero => hfull ⟨p.1, ys, hperm, .inl htwo, hzero⟩⟩
  have hbest : ∃ p ∈ pickTwo four, p.1 = bestTwo four := by
    obtain hnil | hp := hr
    · match four, hlen with
      | [w, x, y, z], _ =>
        have := hpair (List.Perm.refl ([w, x] ++ [y, z])) rfl
        rw [hnil, logicSum_nil] at this
        omega
    · exact hp
  obtain ⟨p, hp, hbest⟩ := hbest
  obtain ⟨htwo, hperm⟩ := perm_of_mem_pickTwo hp
  have hlength := hperm.length_eq
  rw [List.length_append] at hlength
  have hne := (hpair hperm htwo).2
  rw [hbest] at hne
  refine .inl ⟨logicSum (bestTwo four) % 10, ⟨?_, fun n hn => ?_⟩, ?_⟩
  · refine niu_of_pair ha hfour hl hperm (by omega) (by omega) (by omega) ?_
    rw [hbest, Nat.mod_mod]
  · obtain ⟨xs, ys, hperm, htwo, hsum⟩ := exists_pair_of_niu hfour hlen hfull hn
    have := hpair hperm htwo
    have hle : n ≤ 10 := hn.2.1
    omega
  · rw [niuClass, if_neg (by omega)]
    exact retType_congr (Nat.mod_mod _ _).symm

end OneJoker

theorem isTen_iff_logic (hjoker : isJoker card = false) :
    isTen card = true ↔ getCardLogicValue card = 10 := by
  rw [isTen_eq hjoker, decide_eq_true_eq]

namespace Sorted

section

variable (h : Sorted a b c d e)
include h

theorem not_joker_of_mem (hcard : card ∈ [c, d, e]) : isJoker card = false := by
  have hc := h.not_joker
  have hle := h.new_le
  have hmem : card ∈ [a, b, c, d, e] := List.mem_cons_of_mem a (List.mem_cons_of_mem b hcard)
  rw [(deck_new (h.deck c (by simp))).2.2.1, decide_eq_false_iff_not] at hc
  rw [(deck_new (h.deck card hmem)).2.2.1, decide_eq_false_iff_not]
  simp only [List.mem_cons, List.not_mem_nil, or_false] at hcard
  obtain rfl | rfl | rfl := hcard <;> omega

theorem found_of_no_joker (ha : isJoker a = false) (hb : isJoker b = false) :
    Found [a, b, c, d, e] (niuType a b c d e) := by
  have hjoker : ∀ card ∈ [a, b, c, d, e], isJoker card = false := by
    intro card hcard
    obtain rfl | hcard := List.mem_cons.1 hcard
    · exact ha
    · obtain rfl | hcard := List.mem_cons.1 hcard
      · exact hb
      · exact h.not_joker_of_mem hcard
  obtain ⟨hba, hcb, hdc, hed⟩ := h.isTen_prefix
  exact (niuType_sound hjoker h.nodup (fun card hcard => h.logic_bounds hcard (hjoker card hcard))
    hba hcb hdc hed).found hjoker

theorem found_jokerNiu (ha : isJoker a = true) (hb : isJoker b = false)
    (hfull : Full [b, c, d, e]) : Found [a, b, c, d, e] (jokerNiu a) := by
  have hfour : ∀ card ∈ [b, c, d, e], isJoker card = false := by
    intro card hcard
    obtain rfl | hcard := List.mem_cons.1 hcard
    · exact hb
    · exact h.not_joker_of_mem hcard
  refine .inl ⟨10, ⟨hfull.niu ha hfour h.nodup rfl, fun n hn => hn.2.1⟩, ?_⟩
  rw [niuClass, if_pos ⟨rfl, by simp [ha]⟩, jokerNiu]
  refine if_congr ?_ rfl rfl
  constructor
  · rintro rfl
    exact List.mem_cons_self
  · intro hmem
    obtain heq | hmem := List.mem_cons.1 hmem
    · exact heq.symm
    · exact absurd (hfour _ hmem) (by decide)

/-- A ten beside the joker: where no three cards are full no two are. -/
theorem not_full_of_ten (hb : isJoker b = false) (hten : isTen b = true) (hc : isTen c = false)
    (hthree : ∀ p ∈ pickThree [b, c, d, e], logicSum p.1 % 10 ≠ 0) : ¬ Full [b, c, d, e] := by
  have hnodup : [b, c, d, e].Nodup := (List.nodup_cons.1 h.nodup).2
  obtain ⟨-, -, hdc, hed⟩ := h.isTen_prefix
  rw [isTen_iff_logic hb] at hten
  have hsmall : ∀ card ∈ [c, d, e], getCardLogicValue card % 10 ≠ 0 := by
    intro card hcard
    have hmem : card ∈ [a, b, c, d, e] := List.mem_cons_of_mem a (List.mem_cons_of_mem b hcard)
    have hjoker := h.not_joker_of_mem hcard
    have hbounds := h.logic_bounds hmem hjoker
    have hnot : isTen card ≠ true := by
      intro htrue
      simp only [List.mem_cons, List.not_mem_nil, or_false] at hcard
      obtain rfl | rfl | rfl := hcard
      · rw [hc] at htrue; cases htrue
      · rw [hdc htrue] at hc; cases hc
      · rw [hdc (hed htrue)] at hc; cases hc
    rw [ne_eq, isTen_iff_logic hjoker] at hnot
    omega
  have hno {xs ys : List UInt8} (hperm : (xs ++ ys).Perm [b, c, d, e]) (hlen : xs.length = 3) :
      logicSum xs % 10 ≠ 0 := by
    obtain ⟨p, hp, rfl, -⟩ := exists_pickThree hnodup hperm hlen
    exact hthree p hp
  rintro ⟨xs, ys, hperm, htwo | hlen, hzero⟩
  · obtain hmem | hmem := List.mem_append.1 (hperm.symm.subset (List.mem_cons_self (a := b)))
    · -- the ten with another card, which counts less
      have herase := List.perm_cons_erase hmem
      have hone : (xs.erase b).length = 1 := by
        rw [List.length_erase_of_mem hmem, htwo]
      obtain ⟨x, hx⟩ := List.length_eq_one_iff.1 hone
      rw [hx] at herase
      have hrest : ([x] ++ ys).Perm [c, d, e] :=
        ((herase.append_right ys).symm.trans hperm).cons_inv
      have := hsmall x (hrest.subset List.mem_cons_self)
      rw [logicSum_perm herase] at hzero
      simp only [logicSum_cons, logicSum_nil] at hzero
      omega
    · -- two other cards, and with the ten it is three
      have herase := List.perm_cons_erase hmem
      refine @hno (b :: xs) (ys.erase b) ?_ (by rw [List.length_cons, htwo]) ?_
      · exact List.perm_middle.symm.trans ((herase.append_left xs).symm.trans hperm)
      · rw [logicSum_cons]
        omega
  · exact hno hperm hlen hzero

theorem found_of_one_joker (ha : isJoker a = true) (hb : isJoker b = false) :
    Found [a, b, c, d, e] (niuType a b c d e) := by
  have hfour : ∀ card ∈ [b, c, d, e], isJoker card = false := by
    intro card hcard
    obtain rfl | hcard := List.mem_cons.1 hcard
    · exact hb
    · exact h.not_joker_of_mem hcard
  have hnodup : [b, c, d, e].Nodup := (List.nodup_cons.1 h.nodup).2
  have hfull := full_iff hnodup
  obtain ⟨hba, hcb, hdc, hed⟩ := h.isTen_prefix
  obtain ⟨hthree, htwo, hone⟩ := countP_prefix (p := isTen) hba hcb hdc hed
  have hbest (hnot : ¬ Full [b, c, d, e]) := found_bestTwo ha hfour h.nodup rfl hnot
  -- the joker counts ten
  have htenA : isTen a = true := by
    rw [h.isTen_iff (by simp)]
    have hj := (deck_new (h.deck a (by simp))).2.2.1
    rw [ha, eq_comm, decide_eq_true_eq] at hj
    omega
  have hpos : 1 ≤ [a, b, c, d, e].countP isTen :=
    List.countP_pos_iff.2 ⟨a, List.mem_cons_self, htenA⟩
  unfold niuType
  simp only [ha, hb, Bool.true_and, Bool.false_eq_true, if_false, if_true, and_true]
  split_ifs with h3 h2 hempty h1
  · have hc := hthree.1 h3
    have hb' := hcb hc
    rw [isTen_iff_logic h.not_joker] at hc
    rw [isTen_iff_logic hb] at hb'
    exact h.found_jokerNiu ha hb ⟨[b, c], [d, e], List.Perm.refl _, .inl rfl, by simp [hb', hc]⟩
  · -- no three cards and no ten: the search over two cards decides
    unfold fourCards
    split_ifs with hpair
    · exact hbest (by rw [hfull]; simp [hempty, hpair])
    · exact h.found_jokerNiu ha hb (hfull.2 (.inr hpair))
  · obtain ⟨hb', hc⟩ := htwo.1 (h2.resolve_right h1)
    exact hbest (h.not_full_of_ten hb hb' hc (isEmpty_makeTen.1 hempty))
  · exact h.found_jokerNiu ha hb (hfull.2 (.inl hempty))
  · omega
  · omega

/-- With both jokers there is always an ox. -/
theorem found_of_two_jokers (hb : isJoker b = true) :
    Found [a, b, c, d, e] (niuType a b c d e) := by
  obtain ⟨rfl, rfl⟩ := h.jokers hb
  have htype : niuType 0x42 0x41 c d e = .niuNiuDW := by
    have htwo : 2 ≤ [0x42, 0x41, c, d, e].countP isTen := by
      have hA : isTen 0x42 = true := by decide
      have hB : isTen 0x41 = true := by decide
      simp only [List.countP_cons, hA, hB, if_true]
      omega
    have hA : isJoker 0x42 = true := by decide
    unfold niuType
    simp only [hA, hb, Bool.true_and, if_true]
    split_ifs <;> first | rfl | omega
  rw [htype]
  refine .inl ⟨10, ⟨⟨by decide, by decide, ?_⟩, fun n hn => hn.2.1⟩, ?_⟩
  · have hne {card : UInt8} (hcard : card ∈ [c, d, e]) : card ≠ 0x42 ∧ card ≠ 0x41 := by
      have hno := h.not_joker_of_mem hcard
      constructor
      · rintro rfl
        cases hno
      · rintro rfl
        cases hno
    let value : UInt8 → ℕ := fun card =>
      if card = 0x42 then 10 - logicSum [c, d] % 10
      else if card = 0x41 then 10 - getCardLogicValue e % 10
      else getCardLogicValue card
    have hvalue {card : UInt8} (hcard : card ∈ [c, d, e]) :
        value card = getCardLogicValue card := by
      simp only [value, if_neg (hne hcard).1, if_neg (hne hcard).2]
    have hA : value 0x42 = 10 - logicSum [c, d] % 10 := if_pos rfl
    have hB : value 0x41 = 10 - getCardLogicValue e % 10 := rfl
    refine ⟨value, fun card hcard => ?_, [0x42, c, d], [0x41, e], ?_, rfl, ?_, ?_⟩
    · unfold Counts
      obtain rfl | hcard := List.mem_cons.1 hcard
      · rw [hA, if_pos (by decide)]
        omega
      · obtain rfl | hcard := List.mem_cons.1 hcard
        · rw [hB, if_pos (by decide)]
          omega
        · rw [h.not_joker_of_mem hcard, if_neg Bool.false_ne_true, hvalue hcard]
    · refine List.Perm.cons _ ?_
      exact (@List.perm_middle _ 0x41 [c, d] [e])
    · simp only [List.map_cons, List.map_nil, List.sum_cons, List.sum_nil, hA,
        @hvalue c (by simp), @hvalue d (by simp), logicSum_cons, logicSum_nil]
      omega
    · simp only [List.map_cons, List.map_nil, List.sum_cons, List.sum_nil, hB,
        @hvalue e (by simp)]
      omega
  · rw [niuClass, if_pos ⟨rfl, by simp [hb]⟩, if_pos (by simp)]

/-- **`GetCardType` follows the rules** on sorted cards. -/
theorem sortedType_rules : Rules [a, b, c, d, e] (sortedType a b c d e) := by
  have hbomb := h.bomb_iff
  have hking := h.pictures_iff 0
  have hying := h.pictures_iff 1
  have hnot {p q r : Prop} (heq : Bomb [a, b, c, d, e] ↔ p ∨ q ∨ r) (hp : ¬ p) (hq : ¬ q)
      (hr : ¬ r) : ¬ Bomb [a, b, c, d, e] :=
    fun h => (heq.1 h).elim hp fun h => h.elim hq hr
  unfold sortedType
  simp only
  split_ifs with h1 h2 h3 h4 h5
  · exact .bomb (hbomb.2 (.inl h1))
  · exact .bomb (hbomb.2 (.inr (.inl h2)))
  · exact .bomb (hbomb.2 (.inr (.inr h3)))
  · exact .king (hnot hbomb h1 h2 h3) (hking.2 h4)
  · exact .ying (hnot hbomb h1 h2 h3) (hying.2 h5)
  · have hfound : Found [a, b, c, d, e] (niuType a b c d e) := by
      cases hb : isJoker b with
      | true => exact h.found_of_two_jokers hb
      | false =>
        cases ha : isJoker a with
        | true => exact h.found_of_one_joker ha hb
        | false => exact h.found_of_no_joker ha hb
    obtain ⟨n, hn, heq⟩ | ⟨hno, heq⟩ := hfound
    · rw [heq]
      exact .niu n (hnot hbomb h1 h2 h3) (mt hking.1 h4) (mt hying.1 h5) hn
    · rw [heq]
      exact .point (hnot hbomb h1 h2 h3) (mt hking.1 h4) (mt hying.1 h5) hno

end

end Sorted

end GameServer.OxBattle
