import GameServer.OxBattle.GameLogic
import Mathlib.Data.List.Nodup
import Mathlib.Algebra.BigOperators.Group.List.Basic
/-!
# Ox battle — picking cards

The loops of `GetCardType` go through every way to pick two or three
cards of a hand (`mem_pickTwo`, `exists_pickTwo`), and the search for the
greatest rest compares numbers that are all alike without a joker: three
cards that make a multiple of ten leave what all five make
(`bigValue_of_forall`). So a hand without a joker has the points of all
its cards or no ox at all (`niuType_eq`).
-/

namespace GameServer.OxBattle

variable {l xs ys : List UInt8} {ns : List ℕ}
variable {p : List UInt8 × List UInt8} {hand two : List UInt8}

/-! ## Places -/

theorem nodup_zipIdx (l : List UInt8) : l.zipIdx.Nodup := by
  refine List.Nodup.of_map Prod.snd ?_
  rw [List.zipIdx_map_snd]
  exact List.nodup_range'

theorem perm_otherCards (hns : ns.Nodup) (hlt : ∀ n ∈ ns, n < l.length) :
    (ns.map (l.getD · 0) ++ otherCards l ns).Perm l := by
  have hat : (l.zipIdx.filter fun p => ns.contains p.2).Perm
      (ns.map fun n => (l.getD n 0, n)) := by
    refine (List.perm_ext_iff_of_nodup ((nodup_zipIdx l).filter _) ?_).2 fun p => ?_
    · exact (List.nodup_map_iff fun _ _ h => (Prod.mk.inj h).2).2 hns
    · simp only [List.mem_filter, List.mem_zipIdx_iff_getElem?, List.contains_eq_mem,
        decide_eq_true_eq, List.mem_map]
      constructor
      · rintro ⟨hget, hmem⟩
        exact ⟨p.2, hmem, by rw [List.getD_eq_getElem?_getD, hget]; rfl⟩
      · rintro ⟨n, hn, rfl⟩
        refine ⟨?_, hn⟩
        simp only [List.getD_eq_getElem?_getD, List.getElem?_eq_getElem (hlt n hn),
          Option.getD_some]
  have hall :=
    (List.filter_append_perm (fun p : UInt8 × ℕ => ns.contains p.2) l.zipIdx).map Prod.fst
  rw [List.map_append, List.zipIdx_map_fst] at hall
  refine List.Perm.trans ?_ hall
  refine List.Perm.append ?_ (List.Perm.refl _)
  have := hat.map Prod.fst
  rw [List.map_map] at this
  exact this.symm

/-- Cards of a hand are at places of their own. -/
theorem exists_places (hl : l.Nodup) (h : (xs ++ ys).Perm l) :
    ∃ ns : List ℕ, ns.Nodup ∧ (∀ n ∈ ns, n < l.length) ∧ ns.map (l.getD · 0) = xs ∧
      (otherCards l ns).Perm ys := by
  have hmem : ∀ x ∈ xs, x ∈ l := fun x hx => h.subset (List.mem_append_left _ hx)
  have hget : (xs.map fun x => l.idxOf x).map (l.getD · 0) = xs := by
    rw [List.map_map, List.map_congr_left (g := id), List.map_id]
    intro x hx
    have hlt := List.idxOf_lt_length_of_mem (hmem x hx)
    rw [Function.comp_apply, List.getD_eq_getElem?_getD, List.getElem?_eq_getElem hlt,
      Option.getD_some, List.getElem_idxOf hlt, id]
  have hns : (xs.map fun x => l.idxOf x).Nodup := by
    refine List.Nodup.of_map (l.getD · 0) ?_
    rw [hget]
    exact (List.nodup_append.1 (h.nodup_iff.2 hl)).1
  have hlt : ∀ n ∈ xs.map fun x => l.idxOf x, n < l.length := by
    intro n hn
    obtain ⟨x, hx, rfl⟩ := List.mem_map.1 hn
    exact List.idxOf_lt_length_of_mem (hmem x hx)
  refine ⟨_, hns, hlt, hget, ?_⟩
  have hperm := perm_otherCards hns hlt
  rw [hget] at hperm
  exact (List.perm_append_left_iff xs).1 (hperm.trans h.symm)

/-! ## Picks -/

theorem mem_pickTwo : p ∈ pickTwo l ↔
    ∃ n < l.length, ∃ j < l.length, j ≠ n ∧
      p = ([n, j].map (l.getD · 0), otherCards l [n, j]) := by
  unfold pickTwo
  simp only [List.mem_flatMap, List.mem_range, List.mem_filterMap, List.map_cons, List.map_nil]
  refine exists_congr fun n => and_congr_right fun _ => exists_congr fun j =>
    and_congr_right fun _ => ?_
  split_ifs with h
  · exact ⟨nofun, fun hp => absurd h hp.1⟩
  · exact ⟨fun hp => ⟨h, (Option.some.inj hp).symm⟩, fun hp => congrArg some hp.2.symm⟩

theorem mem_pickThree : p ∈ pickThree l ↔
    ∃ n < l.length, ∃ j < l.length, ∃ w < l.length, ¬ (j = n ∨ w = n ∨ w = j) ∧
      p = ([n, j, w].map (l.getD · 0), otherCards l [n, j, w]) := by
  unfold pickThree
  simp only [List.mem_flatMap, List.mem_range, List.mem_filterMap, List.map_cons, List.map_nil]
  refine exists_congr fun n => and_congr_right fun _ => exists_congr fun j =>
    and_congr_right fun _ => exists_congr fun w => and_congr_right fun _ => ?_
  split_ifs with h
  · exact ⟨nofun, fun hp => absurd h hp.1⟩
  · exact ⟨fun hp => ⟨h, (Option.some.inj hp).symm⟩, fun hp => congrArg some hp.2.symm⟩

theorem perm_of_mem_pickTwo (hp : p ∈ pickTwo l) :
    p.1.length = 2 ∧ (p.1 ++ p.2).Perm l := by
  obtain ⟨n, hn, j, hj, hne, rfl⟩ := mem_pickTwo.1 hp
  refine ⟨rfl, perm_otherCards (by simpa using hne.symm) ?_⟩
  simpa using ⟨hn, hj⟩

theorem perm_of_mem_pickThree (hp : p ∈ pickThree l) :
    p.1.length = 3 ∧ (p.1 ++ p.2).Perm l := by
  obtain ⟨n, hn, j, hj, w, hw, hne, rfl⟩ := mem_pickThree.1 hp
  rw [not_or, not_or] at hne
  refine ⟨rfl, perm_otherCards ?_ ?_⟩
  · simpa using ⟨⟨Ne.symm hne.1, Ne.symm hne.2.1⟩, Ne.symm hne.2.2⟩
  · simpa using ⟨hn, hj, hw⟩

theorem exists_pickTwo (hl : l.Nodup) (h : (xs ++ ys).Perm l) (hlen : xs.length = 2) :
    ∃ p ∈ pickTwo l, p.1 = xs ∧ p.2.Perm ys := by
  obtain ⟨ns, hns, hlt, rfl, hys⟩ := exists_places hl h
  rw [List.length_map] at hlen
  obtain ⟨n, j, rfl⟩ := List.length_eq_two.1 hlen
  refine ⟨_, mem_pickTwo.2 ⟨n, hlt n (by simp), j, hlt j (by simp), ?_, rfl⟩, rfl, hys⟩
  rintro rfl
  simp at hns

theorem exists_pickThree (hl : l.Nodup) (h : (xs ++ ys).Perm l) (hlen : xs.length = 3) :
    ∃ p ∈ pickThree l, p.1 = xs ∧ p.2.Perm ys := by
  obtain ⟨ns, hns, hlt, rfl, hys⟩ := exists_places hl h
  rw [List.length_map] at hlen
  obtain ⟨n, j, w, rfl⟩ := List.length_eq_three.1 hlen
  refine ⟨_, mem_pickThree.2 ⟨n, hlt n (by simp), j, hlt j (by simp), w, hlt w (by simp), ?_, rfl⟩,
    rfl, hys⟩
  simp only [List.nodup_cons, List.mem_cons, List.not_mem_nil, or_false, not_or] at hns
  rintro (rfl | rfl | rfl)
  · exact hns.1.1 rfl
  · exact hns.1.2 rfl
  · exact hns.2.1 rfl

/-! ## Sums -/

theorem logicSum_append (xs ys : List UInt8) : logicSum (xs ++ ys) = logicSum xs + logicSum ys := by
  unfold logicSum
  rw [List.map_append, List.sum_append]

theorem logicSum_perm (h : xs.Perm ys) : logicSum xs = logicSum ys := (h.map _).sum_eq

@[simp] theorem logicSum_cons (x : UInt8) (xs : List UInt8) :
    logicSum (x :: xs) = getCardLogicValue x + logicSum xs := rfl

@[simp] theorem logicSum_nil : logicSum [] = 0 := rfl

theorem retType_congr {m n : ℕ} (h : m % 10 = n % 10) : retType m = retType n := by
  unfold retType
  rw [h]

/-- Three cards that make a multiple of ten. -/
def Triple (hand : List UInt8) : Prop :=
  ∃ three two, (three ++ two).Perm hand ∧ three.length = 3 ∧ logicSum three % 10 = 0

/-- A type is that of the points of all cards if there is an ox, and else
that of points. -/
def Sound (hand : List UInt8) (type : CardType) : Prop :=
  Triple hand ∧ type = retType (logicSum hand) ∨ ¬ Triple hand ∧ type = .point

theorem Triple.sound (h : Triple hand) {m : ℕ}
    (hm : m % 10 = logicSum hand % 10) : Sound hand (retType m) := .inl ⟨h, retType_congr hm⟩

/-! ## The search for the greatest rest -/

/-- Numbers that are all alike: the search ends with one of them. -/
theorem bigValue_of_forall {t : ℕ} : ∀ {finds : List (ℕ × ℕ)} {big : ℕ},
    (∀ f ∈ finds, f.2 ≠ 0 ∧ f.2 % 10 = t) → big ≠ 0 → big % 10 = t →
    ∃ v, bigValue finds big = some v ∧ v ≠ 0 ∧ v % 10 = t := by
  intro finds
  induction finds with
  | nil => exact fun _ hbig ht => ⟨_, rfl, hbig, ht⟩
  | cons f finds ih =>
    intro big hfinds hbig ht
    obtain ⟨hne, hf⟩ := hfinds f List.mem_cons_self
    have hrest : ∀ g ∈ finds, g.2 ≠ 0 ∧ g.2 % 10 = t :=
      fun g hg => hfinds g (List.mem_cons_of_mem _ hg)
    rw [bigValue, if_neg hne]
    split_ifs
    · exact ih hrest hne hf
    · exact ih hrest hbig ht

theorem bigValue_zero {t : ℕ} {finds : List (ℕ × ℕ)} (hne : finds ≠ [])
    (hfinds : ∀ f ∈ finds, f.2 ≠ 0 ∧ f.2 % 10 = t) :
    ∃ v, bigValue finds 0 = some (v + 1) ∧ (v + 1) % 10 = t := by
  obtain ⟨f, finds, rfl⟩ := List.exists_cons_of_ne_nil hne
  obtain ⟨hnz, hf⟩ := hfinds f List.mem_cons_self
  obtain ⟨v, hv, hvnz, ht⟩ := bigValue_of_forall
    (fun g hg => hfinds g (List.mem_cons_of_mem _ hg)) hnz hf
  obtain ⟨w, rfl⟩ := Nat.exists_eq_succ_of_ne_zero hvnz
  refine ⟨w, ?_, ht⟩
  rw [bigValue, if_pos (Nat.zero_le _), if_neg hnz, hv]

/-! ## Hands without a joker -/

theorem mem_makeTen {picks : List (List UInt8 × List UInt8)} :
    two ∈ makeTen picks ↔ ∃ p ∈ picks, logicSum p.1 % 10 = 0 ∧ p.2 = two := by
  unfold makeTen
  simp only [List.mem_map, List.mem_filter, beq_iff_eq, and_assoc]

theorem logicSum_rest {three : List UInt8} (h : (three ++ two).Perm hand)
    (hten : logicSum three % 10 = 0) : logicSum two % 10 = logicSum hand % 10 := by
  rw [← logicSum_perm h, logicSum_append]
  omega

theorem restOfTwo_spec (hlen : two.length = 2) (hpos : ∀ card ∈ two, 1 ≤ getCardLogicValue card) :
    (restOfTwo two).2 ≠ 0 ∧ (restOfTwo two).2 % 10 = logicSum two % 10 := by
  obtain ⟨x, y, rfl⟩ := List.length_eq_two.1 hlen
  have hx := hpos x (by simp)
  simp only [restOfTwo, logicSum_cons, logicSum_nil, List.getD_cons_zero, List.getD_cons_succ]
  omega

theorem restOfOne_spec {one : List UInt8} (hlen : one.length = 1)
    (hpos : ∀ card ∈ one, 1 ≤ getCardLogicValue card ∧ getCardLogicValue card ≤ 9) :
    (restOfOne one).2 ≠ 0 ∧ (restOfOne one).2 % 10 = logicSum one % 10 := by
  obtain ⟨x, rfl⟩ := List.length_eq_one_iff.1 hlen
  have hx := hpos x (by simp)
  simp only [restOfOne, logicSum_cons, logicSum_nil, List.getD_cons_zero]
  omega

/-- The search in a hand, over picks that split it: nothing is found if
there is nothing, and else the points of the hand. -/
theorem bigValue_makeTen {picks : List (List UInt8 × List UInt8)} {rest : List UInt8 → ℕ × ℕ}
    (hsplit : ∀ p ∈ picks, (p.1 ++ p.2).Perm hand)
    (hrest : ∀ p ∈ picks, (rest p.2).2 ≠ 0 ∧ (rest p.2).2 % 10 = logicSum p.2 % 10) :
    (∀ p ∈ picks, logicSum p.1 % 10 ≠ 0) ∧ bigValue ((makeTen picks).map rest) 0 = some 0 ∨
    (∃ p ∈ picks, logicSum p.1 % 10 = 0) ∧
      ∃ v, bigValue ((makeTen picks).map rest) 0 = some (v + 1) ∧
        (v + 1) % 10 = logicSum hand % 10 := by
  by_cases hfind : ∃ p ∈ picks, logicSum p.1 % 10 = 0
  · refine .inr ⟨hfind, bigValue_zero ?_ fun f hf => ?_⟩
    · obtain ⟨p, hp, hten⟩ := hfind
      exact List.ne_nil_of_mem (List.mem_map_of_mem (mem_makeTen.2 ⟨p, hp, hten, rfl⟩))
    · obtain ⟨two, htwo, rfl⟩ := List.mem_map.1 hf
      obtain ⟨p, hp, hten, rfl⟩ := mem_makeTen.1 htwo
      exact ⟨(hrest p hp).1, (hrest p hp).2.trans (logicSum_rest (hsplit p hp) hten)⟩
  · have hnone : ∀ p ∈ picks, logicSum p.1 % 10 ≠ 0 := fun p hp hten => hfind ⟨p, hp, hten⟩
    have hnil : makeTen picks = [] := List.eq_nil_iff_forall_not_mem.2 fun two htwo => by
      obtain ⟨p, hp, hten, -⟩ := mem_makeTen.1 htwo
      exact hnone p hp hten
    exact .inl ⟨hnone, by rw [hnil]; rfl⟩

/-- **Five cards without a ten**: the search over three of them. -/
theorem fiveCards_sound (hl : hand.Nodup) (hlen : hand.length = 5)
    (hpos : ∀ card ∈ hand, 1 ≤ getCardLogicValue card) : Sound hand (fiveCards hand) := by
  have hsplit : ∀ p ∈ pickThree hand, (p.1 ++ p.2).Perm hand :=
    fun p hp => (perm_of_mem_pickThree hp).2
  have hrest : ∀ p ∈ pickThree hand,
      (restOfTwo p.2).2 ≠ 0 ∧ (restOfTwo p.2).2 % 10 = logicSum p.2 % 10 := by
    intro p hp
    obtain ⟨hthree, hperm⟩ := perm_of_mem_pickThree hp
    have hlength := hperm.length_eq
    rw [List.length_append] at hlength
    exact restOfTwo_spec (by omega) fun card hcard =>
      hpos card (hperm.subset (List.mem_append_right _ hcard))
  unfold fiveCards
  obtain ⟨hnone, hbig⟩ | ⟨⟨p, hp, hten⟩, v, hbig, hv⟩ := bigValue_makeTen hsplit hrest
  · rw [hbig]
    refine .inr ⟨?_, rfl⟩
    rintro ⟨three, two, hperm, hthree, hten⟩
    obtain ⟨p, hp, rfl, -⟩ := exists_pickThree hl hperm hthree
    exact hnone p hp hten
  · rw [hbig]
    exact Triple.sound ⟨p.1, p.2, hsplit p hp, (perm_of_mem_pickThree hp).1, hten⟩ hv

variable {a b c d e : UInt8} {four : List UInt8}

/-- **Four cards beside a ten.** -/
theorem fourCards_sound (hjoker : isJoker a = false) (hten : getCardLogicValue a = 10)
    (hl : (a :: four).Nodup) (hlen : four.length = 4)
    (hpos : ∀ card ∈ four, 1 ≤ getCardLogicValue card) : Sound (a :: four) (fourCards a four) := by
  have hsplit : ∀ p ∈ pickTwo four, (p.1 ++ p.2).Perm four :=
    fun p hp => (perm_of_mem_pickTwo hp).2
  have hrest : ∀ p ∈ pickTwo four,
      (restOfTwo p.2).2 ≠ 0 ∧ (restOfTwo p.2).2 % 10 = logicSum p.2 % 10 := by
    intro p hp
    obtain ⟨htwo, hperm⟩ := perm_of_mem_pickTwo hp
    have hlength := hperm.length_eq
    rw [List.length_append] at hlength
    exact restOfTwo_spec (by omega) fun card hcard =>
      hpos card (hperm.subset (List.mem_append_right _ hcard))
  unfold fourCards
  rw [hjoker, if_neg Bool.false_ne_true]
  obtain ⟨-, hbig⟩ | ⟨⟨p, hp, hzero⟩, v, hbig, hv⟩ := bigValue_makeTen hsplit hrest
  · rw [hbig]
    refine fiveCards_sound hl (by simp [hlen]) fun card hcard => ?_
    obtain rfl | hcard := List.mem_cons.1 hcard
    · omega
    · exact hpos card hcard
  · rw [hbig]
    refine Triple.sound ⟨a :: p.1, p.2, (hsplit p hp).cons a, ?_, ?_⟩ ?_
    · rw [List.length_cons, (perm_of_mem_pickTwo hp).1]
    · rw [logicSum_cons]
      omega
    · rw [hv, logicSum_cons]
      omega

theorem countP_prefix {p : UInt8 → Bool} (hba : p b → p a) (hcb : p c → p b) (hdc : p d → p c)
    (hed : p e → p d) : (3 ≤ [a, b, c, d, e].countP p ↔ p c) ∧
      ([a, b, c, d, e].countP p = 2 ↔ p b ∧ p c = false) ∧
      ([a, b, c, d, e].countP p = 1 ↔ p a ∧ p b = false) := by
  cases ha : p a <;> cases hb : p b <;> cases hc : p c <;> cases hd : p d <;> cases he : p e <;>
    simp_all

theorem isTen_eq (hjoker : isJoker a = false) : isTen a = decide (getCardLogicValue a = 10) := by
  have hne : getCardLogicValue a ≠ 11 := by
    unfold getCardLogicValue
    rw [isJoker, beq_eq_false_iff_ne] at hjoker
    rw [if_neg hjoker]
    omega
  unfold isTen
  rw [beq_eq_false_iff_ne.2 hne, Bool.or_false]
  rfl

/-- **Five cards without a joker**, the tens in front: their points if
three of them make a multiple of ten, and else no ox. -/
theorem niuType_sound (hjoker : ∀ card ∈ [a, b, c, d, e], isJoker card = false)
    (hl : [a, b, c, d, e].Nodup)
    (hpos : ∀ card ∈ [a, b, c, d, e], 1 ≤ getCardLogicValue card ∧ getCardLogicValue card ≤ 10)
    (hba : isTen b → isTen a) (hcb : isTen c → isTen b) (hdc : isTen d → isTen c)
    (hed : isTen e → isTen d) : Sound [a, b, c, d, e] (niuType a b c d e) := by
  have hten {card : UInt8} (hcard : card ∈ [a, b, c, d, e]) :
      isTen card = true ↔ getCardLogicValue card = 10 := by
    rw [isTen_eq (hjoker card hcard), decide_eq_true_eq]
  have ha := hjoker a (by simp)
  have hposFour : ∀ card ∈ [b, c, d, e], 1 ≤ getCardLogicValue card :=
    fun card hcard => (hpos card (List.mem_cons_of_mem a hcard)).1
  obtain ⟨hthree, htwo, hone⟩ := countP_prefix (p := isTen) hba hcb hdc hed
  unfold niuType
  simp only [ha, Bool.false_and, Bool.false_eq_true, if_false, and_false, or_false]
  split_ifs with h3 h2 hcde h1
  · -- three tens make a multiple of ten
    have hc := hthree.1 h3
    have hb := hcb hc
    have ha := hba hb
    rw [hten (by simp)] at ha hb hc
    exact Triple.sound ⟨[a, b, c], [d, e], List.Perm.refl _, rfl, by simp [ha, hb, hc]⟩
      (by simp [ha, hb, hc])
  · have hb := (htwo.1 h2).1
    have ha := hba hb
    rw [hten (by simp)] at ha hb
    refine Triple.sound (m := 0) ⟨[c, d, e], [a, b], ?_, rfl, hcde⟩ ?_
    · exact @List.perm_append_comm _ [c, d, e] [a, b]
    · simp only [logicSum_cons, logicSum_nil] at hcde ⊢
      omega
  · -- a pair of the three small cards makes ten, or there is nothing
    obtain ⟨hb, hc⟩ := htwo.1 h2
    have ha := hba hb
    have hsmall : ∀ card ∈ [c, d, e], 1 ≤ getCardLogicValue card ∧ getCardLogicValue card ≤ 9 := by
      intro card hcard
      have hbounds := hpos card (List.mem_cons_of_mem a (List.mem_cons_of_mem b hcard))
      have hnot : isTen card = false := by
        rw [Bool.eq_false_iff]
        intro htrue
        simp only [List.mem_cons, List.not_mem_nil, or_false] at hcard
        obtain rfl | rfl | rfl := hcard
        · rw [hc] at htrue; cases htrue
        · rw [hdc htrue] at hc; cases hc
        · rw [hdc (hed htrue)] at hc; cases hc
      have : getCardLogicValue card ≠ 10 := fun heq => by
        rw [(hten (List.mem_cons_of_mem a (List.mem_cons_of_mem b hcard))).2 heq] at hnot
        cases hnot
      omega
    have hsplit : ∀ p ∈ pickTwo [c, d, e], (p.1 ++ p.2).Perm [c, d, e] :=
      fun p hp => (perm_of_mem_pickTwo hp).2
    have hrest : ∀ p ∈ pickTwo [c, d, e],
        (restOfOne p.2).2 ≠ 0 ∧ (restOfOne p.2).2 % 10 = logicSum p.2 % 10 := by
      intro p hp
      obtain ⟨hlength, hperm⟩ := perm_of_mem_pickTwo hp
      have hlength' := hperm.length_eq
      exact restOfOne_spec (by simp at hlength'; omega) fun card hcard =>
        hsmall card (hperm.subset (List.mem_append_right _ hcard))
    rw [hten (by simp)] at ha hb
    obtain ⟨-, hbig⟩ | ⟨⟨p, hp, hzero⟩, v, hbig, hv⟩ := bigValue_makeTen hsplit hrest
    · rw [hbig]
      exact fourCards_sound (hjoker a (by simp)) ha hl rfl hposFour
    · rw [hbig]
      refine Triple.sound ⟨a :: p.1, b :: p.2, ?_, ?_, ?_⟩ ?_
      · refine List.Perm.cons a (List.perm_middle.trans ((hsplit p hp).cons b))
      · rw [List.length_cons, (perm_of_mem_pickTwo hp).1]
      · rw [logicSum_cons]
        omega
      · rw [hv]
        simp only [logicSum_cons, logicSum_nil]
        omega
  · have ha := (hone.1 h1).1
    rw [hten (by simp)] at ha
    exact fourCards_sound (hjoker a (by simp)) ha hl rfl hposFour
  · exact fiveCards_sound hl rfl fun card hcard => (hpos card hcard).1

end GameServer.OxBattle
