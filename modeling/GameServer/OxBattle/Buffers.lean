import GameServer.OxBattle.Rules
import Mathlib.Data.List.Sort
/-!
# Ox battle — the buffers of a hand

Every search of `GetCardType` reads only what it has written, and what it
writes to `bcOutCadData` are the five cards in another order
(`sortedTypeOut_spec`). The one entry that may be missing is that of
`bcTmp` beside a joker, where no two cards have points; such a hand is a
bomb.
-/

namespace GameServer.OxBattle

variable {a b c d e : UInt8} {hand four : List UInt8}
variable {xs ys : List UInt8} {s : Buffers}

/-- What is computed with the buffers: the type, and the hand in some
order. -/
def Gives (hand : List UInt8) (r : Option TypeAndCards) (type : CardType) : Prop :=
  ∃ out, r = some (type, out) ∧ out.Perm hand

/-! ## Entries -/

theorem readEntries_writeEntries (array : List (Option UInt8)) (cards : List UInt8) :
    readEntries cards.length (writeEntries array cards) = some cards := by
  unfold writeEntries
  induction cards generalizing array with
  | nil => rfl
  | cons card cards ih =>
    have := ih array.tail
    rw [← List.drop_one, List.drop_drop, Nat.add_comm] at this
    rw [List.length_cons, List.map_cons, List.cons_append, readEntries, this]
    rfl

theorem writeEntries_full {array : List (Option UInt8)} {cards : List UInt8}
    (h : array.length = cards.length) : writeEntries array cards = cards.map some := by
  rw [writeEntries, ← h, List.drop_length, List.append_nil]

/-! ## The searches -/

/-- The search for the greatest rest, with its buffers. -/
theorem bigLoop_spec {count : ℕ} {rest : List UInt8 → ℕ × ℕ}
    {out : List UInt8 → List UInt8 → List UInt8} : ∀ {picks : List (List UInt8 × List UInt8)}
    (s : Buffers), (∀ p ∈ picks, p.2.length = count) → (∀ p ∈ picks, (out p.1 p.2).Perm hand) →
    s.bcOutCadData.Perm hand →
    ∃ s', bigLoop count rest out picks s =
        some (s', (bigValue ((makeTen picks).map rest) s.iBigValue).isNone) ∧
      (∀ v, bigValue ((makeTen picks).map rest) s.iBigValue = some v → s'.iBigValue = v) ∧
      s'.bcOutCadData.Perm hand := by
  intro picks
  induction picks with
  | nil => exact fun s _ _ hs => ⟨s, rfl, fun v hv => Option.some.inj hv, hs⟩
  | cons p picks ih =>
    intro s hcount hout hs
    have hread : readEntries count (writeEntries s.iSingleA p.2) = some p.2 := by
      rw [← hcount p List.mem_cons_self]
      exact readEntries_writeEntries _ _
    have hcount' : ∀ q ∈ picks, q.2.length = count :=
      fun q hq => hcount q (List.mem_cons_of_mem _ hq)
    have hout' : ∀ q ∈ picks, (out q.1 q.2).Perm hand :=
      fun q hq => hout q (List.mem_cons_of_mem _ hq)
    rw [bigLoop]
    split_ifs with hten
    · have hmake : makeTen (p :: picks) = p.2 :: makeTen picks := by
        unfold makeTen
        rw [List.filter_cons_of_pos (by simpa using hten), List.map_cons]
      rw [hmake, List.map_cons, bigValue]
      simp only [hread, Option.bind_eq_bind, Option.bind_some]
      split_ifs with hle hzero
      · exact ⟨_, rfl, (by simp), hout p List.mem_cons_self⟩
      · exact ih ⟨_, _, _⟩ hcount' hout' (hout p List.mem_cons_self)
      · exact ih ⟨_, _, _⟩ hcount' hout' hs
    · have hmake : makeTen (p :: picks) = makeTen picks := by
        unfold makeTen
        rw [List.filter_cons_of_neg (by simpa using hten)]
      rw [hmake]
      exact ih s hcount' hout' hs

/-- What a search that may return does afterwards. -/
theorem Gives.search {count : ℕ} {rest : List UInt8 → ℕ × ℕ}
    {out : List UInt8 → List UInt8 → List UInt8} {picks : List (List UInt8 × List UInt8)}
    (hbig : s.iBigValue = 0) (hcount : ∀ p ∈ picks, p.2.length = count)
    (hout : ∀ p ∈ picks, (out p.1 p.2).Perm hand) (hs : s.bcOutCadData.Perm hand)
    {next : Buffers → Option TypeAndCards} {type : CardType}
    (hnext : ∀ s', s'.iBigValue = 0 → s'.bcOutCadData.Perm hand → Gives hand (next s') type) :
    Gives hand (do
        let r ← bigLoop count rest out picks s
        if r.2 then return (.niuNiu, r.1.bcOutCadData)
        else if r.1.iBigValue = 0 then next r.1
        else return (retType r.1.iBigValue, r.1.bcOutCadData))
      (match bigValue ((makeTen picks).map rest) 0 with
      | none => .niuNiu
      | some 0 => type
      | some big => retType big) := by
  obtain ⟨s', hloop, hvalue, hperm⟩ := @bigLoop_spec hand count rest out picks s hcount hout hs
  rw [hloop]
  rw [hbig] at hvalue ⊢
  simp only [Option.bind_eq_bind, Option.bind_some]
  match hv : bigValue ((makeTen picks).map rest) 0 with
  | none => exact ⟨_, rfl, hperm⟩
  | some 0 =>
    rw [hv] at hvalue
    have hzero := hvalue 0 rfl
    rw [hzero]
    exact hnext s' hzero hperm
  | some (v + 1) =>
    rw [hv] at hvalue
    rw [hvalue (v + 1) rfl]
    exact ⟨_, rfl, hperm⟩

/-- The search for the best two cards, with its buffers: `bcTmp` has them
and the two others as soon as two cards have points. -/
theorem bestLoop_spec : ∀ {picks : List (List UInt8 × List UInt8)} {best : List UInt8}
    {iSingleA bcTmp : List (Option UInt8)},
    (∀ p ∈ picks, p.1.length = 2 ∧ p.2.length = 2 ∧ (p.1 ++ p.2).Perm four) → bcTmp.length = 4 →
    (best ≠ [] → ∃ left : List UInt8, best.length = 2 ∧ bcTmp = (best ++ left).map some ∧
      (best ++ left).Perm four) →
    ∃ iSingleA' bcTmp', bestLoop picks (logicSum best % 10) iSingleA bcTmp =
        some (iSingleA', bcTmp') ∧
      let r := picks.foldl (fun best p =>
        if logicSum p.1 % 10 > logicSum best % 10 then p.1 else best) best
      r ≠ [] → ∃ left : List UInt8, r.length = 2 ∧ bcTmp' = (r ++ left).map some ∧
        (r ++ left).Perm four := by
  intro picks
  induction picks with
  | nil => exact fun _ _ h => ⟨_, _, rfl, h⟩
  | cons p picks ih =>
    intro best iSingleA bcTmp hpicks hlen hbest
    obtain ⟨htwo, hrest, hperm⟩ := hpicks p List.mem_cons_self
    have hpicks' := fun q hq => hpicks q (List.mem_cons_of_mem p hq)
    have hread : readEntries 2 (writeEntries iSingleA p.2) = some p.2 := by
      rw [← hrest]
      exact readEntries_writeEntries _ _
    rw [bestLoop, List.foldl_cons]
    split_ifs with hgt
    · have hwrite : writeEntries bcTmp (p.1 ++ p.2) = (p.1 ++ p.2).map some :=
        writeEntries_full (by rw [hlen, List.length_append, htwo, hrest])
      simp only [hread, hwrite, Option.bind_eq_bind, Option.bind_some]
      refine ih hpicks' ?_ fun _ => ⟨p.2, htwo, rfl, hperm⟩
      rw [List.length_map, List.length_append, htwo, hrest]
    · exact ih hpicks' hlen hbest

/-- **`bcTmp` is read only where it is written**: if two of four cards
have points. -/
theorem bestTwoOut_spec (hlen : four.length = 4) (iSingleA : List (Option UInt8))
    (hpoints : ∃ p ∈ pickTwo four, logicSum p.1 % 10 ≠ 0) :
    ∃ out iSingleA', bestTwoOut a four iSingleA = some (bestTwo four, out, iSingleA') ∧
      out.Perm (a :: four) := by
  obtain ⟨iSingleA', bcTmp, hloop, hbest⟩ := @bestLoop_spec four (pickTwo four) [] iSingleA
    (List.replicate 4 none) (fun p hp => by
      obtain ⟨htwo, hperm⟩ := perm_of_mem_pickTwo hp
      have hlength := hperm.length_eq
      rw [List.length_append] at hlength
      exact ⟨htwo, by omega, hperm⟩) rfl (fun h => absurd rfl h)
  have hne : bestTwo four ≠ [] := by
    intro hnil
    obtain ⟨p, hp, hpoints⟩ := hpoints
    have hle := (bestTwo_foldl (pickTwo four) []).2.1 p hp
    change _ ≤ logicSum (bestTwo four) % 10 at hle
    rw [hnil, logicSum_nil] at hle
    omega
  obtain ⟨left, htwo, rfl, hperm⟩ := hbest hne
  change (bestTwo four).length = 2 at htwo
  have hread : readEntries 4 ((bestTwo four ++ left).map some) = some (bestTwo four ++ left) := by
    have hlength : (bestTwo four ++ left).length = 4 := hperm.length_eq.trans hlen
    rw [← hlength, ← List.append_nil (List.map some _)]
    have := readEntries_writeEntries [] (bestTwo four ++ left)
    rwa [writeEntries, List.drop_nil] at this
  refine ⟨a :: left ++ bestTwo four, iSingleA', ?_, ?_⟩
  · unfold bestTwoOut
    rw [show (0 : ℕ) = logicSum [] % 10 from rfl, hloop]
    change (readEntries 4 ((bestTwo four ++ left).map some)).bind _ = _
    rw [hread, Option.bind_some, ← htwo, List.take_left, List.drop_left]
    rfl
  · exact (List.perm_append_comm.trans hperm).cons a

/-! ## The parts of `GetCardType` -/

theorem fiveCardsOut_spec {cards : List UInt8} (hlen : cards.length = 5) (hcards : cards.Perm hand)
    (hbig : s.iBigValue = 0) (hs : s.bcOutCadData.Perm hand) :
    Gives hand (fiveCardsOut cards s) (fiveCards cards) := by
  refine Gives.search hbig (fun p hp => ?_) (fun p hp => ?_) hs fun s' _ hs' => ⟨_, rfl, hs'⟩
  · obtain ⟨hthree, hperm⟩ := perm_of_mem_pickThree hp
    have hlength := hperm.length_eq
    rw [List.length_append] at hlength
    omega
  · exact (perm_of_mem_pickThree hp).2.trans hcards

/-- The first pick that makes a multiple of ten, if any does. -/
theorem find_cases (picks : List (List UInt8 × List UInt8)) :
    (picks.find? fun p => logicSum p.1 % 10 == 0) = none ∧ (makeTen picks).isEmpty = true ∨
      ∃ p ∈ picks, (picks.find? fun p => logicSum p.1 % 10 == 0) = some p ∧
        (makeTen picks).isEmpty = false := by
  match hfind : picks.find? fun p => logicSum p.1 % 10 == 0 with
  | none =>
    refine .inl ⟨hfind, isEmpty_makeTen.2 fun p hp hten => ?_⟩
    simpa [hten] using List.find?_eq_none.1 hfind p hp
  | some p =>
    have hmem := List.mem_of_find?_eq_some hfind
    refine .inr ⟨p, hmem, hfind, ?_⟩
    rw [Bool.eq_false_iff, ne_eq, isEmpty_makeTen]
    exact fun h => h p hmem (by simpa using List.find?_some hfind)

theorem fourCardsOut_spec (hlen : four.length = 4) (hbig : s.iBigValue = 0)
    (hs : s.bcOutCadData.Perm (a :: four)) :
    Gives (a :: four) (fourCardsOut a four s) (fourCards a four) := by
  have hcount : ∀ p ∈ pickTwo four, p.2.length = 2 := by
    intro p hp
    obtain ⟨htwo, hperm⟩ := perm_of_mem_pickTwo hp
    have hlength := hperm.length_eq
    rw [List.length_append] at hlength
    omega
  unfold fourCardsOut fourCards
  split_ifs with ha hempty
  · obtain ⟨hfind, -⟩ | ⟨p, hp, -, hno⟩ := find_cases (pickTwo four)
    · have hpick : ∃ p ∈ pickTwo four, logicSum p.1 % 10 ≠ 0 := by
        have hmem : ([0, 1].map (four.getD · 0), otherCards four [0, 1]) ∈ pickTwo four :=
          mem_pickTwo.2 ⟨0, by omega, 1, by omega, by decide, rfl⟩
        exact ⟨_, hmem, isEmpty_makeTen.1 hempty _ hmem⟩
      obtain ⟨out, iSingleA', hbest, hperm⟩ := bestTwoOut_spec (a := a) hlen s.iSingleA hpick
      rw [hfind, hbest]
      exact ⟨out, rfl, hperm⟩
    · rw [hempty] at hno
      cases hno
  · obtain ⟨-, hyes⟩ | ⟨p, hp, hfind, -⟩ := find_cases (pickTwo four)
    · exact absurd hyes hempty
    · have hread : readEntries 2 (writeEntries s.iSingleA p.2) = some p.2 := by
        rw [← hcount p hp]
        exact readEntries_writeEntries _ _
      rw [hfind]
      simp only [hread, Option.bind_eq_bind, Option.bind_some]
      exact ⟨_, rfl, (List.perm_append_comm.trans (perm_of_mem_pickTwo hp).2).cons a⟩
  · refine Gives.search hbig hcount (fun p hp => ?_) hs fun s' hzero hs' =>
      fiveCardsOut_spec (by rw [List.length_cons, hlen]) (List.Perm.refl _) hzero hs'
    exact (((List.reverse_perm p.1).append_right p.2).trans (perm_of_mem_pickTwo hp).2).cons a

namespace Sorted

/-- Two cards beside the joker have points unless the hand is a bomb. -/
theorem exists_points (h : Sorted a b c d e) (hb : isJoker b = false) (hc : isTen c = false)
    (hbomb : getCardNewValue b ≠ getCardNewValue e) :
    ∃ p ∈ pickTwo [b, c, d, e], logicSum p.1 % 10 ≠ 0 := by
  by_contra hno
  push Not at hno
  have hnodup : [b, c, d, e].Nodup := (List.nodup_cons.1 h.nodup).2
  have hzero (x y v w : UInt8) (hperm : ([x, y] ++ [v, w]).Perm [b, c, d, e]) :
      (getCardLogicValue x + getCardLogicValue y) % 10 = 0 := by
    obtain ⟨p, hp, heq, -⟩ := exists_pickTwo hnodup hperm rfl
    have := hno p hp
    rwa [heq] at this
  have hbc := hzero b c d e (List.Perm.refl _)
  have hbd := hzero b d c e ((List.Perm.swap c d [e]).cons b)
  have hcd := hzero c d b e (@List.perm_middle _ b [c, d] [e])
  have hbe := hzero b e c d (List.Perm.cons b (@List.perm_middle _ e [c, d] []).symm)
  have hle := h.new_le
  have hbounds := h.new_bounds
  have hnew {card : UInt8} (hcard : card ∈ [a, b, c, d, e]) (hjoker : isJoker card = false) :
      getCardLogicValue card = min (getCardNewValue card) 10 := by
    obtain ⟨-, -, hj, -, hlogic⟩ := deck_new (h.deck card hcard)
    rw [hjoker, eq_comm, decide_eq_false_iff_not] at hj
    rw [hlogic, if_neg hj]
  rw [Bool.eq_false_iff, ne_eq, h.isTen_iff (by simp)] at hc
  rw [hnew (by simp) hb, hnew (by simp) h.not_joker] at hbc
  rw [hnew (by simp) hb, hnew (by simp) (h.not_joker_of_mem (by simp))] at hbd hbe
  rw [hnew (by simp) h.not_joker, hnew (by simp) (h.not_joker_of_mem (by simp))] at hcd
  omega

/-- The cards are put down as they are, or with some of them in front. -/
theorem niuTypeOut_spec (h : Sorted a b c d e)
    (hbomb : getCardNewValue b ≠ getCardNewValue e) :
    Gives [a, b, c, d, e] (niuTypeOut a b c d e) (niuType a b c d e) := by
  have hfront : [a, d, e, b, c].Perm [a, b, c, d, e] :=
    (@List.perm_append_comm _ [d, e] [b, c]).cons a
  obtain ⟨hba, hcb, hdc, hed⟩ := h.isTen_prefix
  obtain ⟨hthree, -, -⟩ := countP_prefix (p := isTen) hba hcb hdc hed
  have hbest (ha : isJoker a = true) (hjokers : ¬ (isJoker a && isJoker b) = true)
      (h3 : ¬ [a, b, c, d, e].countP isTen ≥ 3) : ∃ out iSingleA',
        bestTwoOut a [b, c, d, e] [none, none] = some (bestTwo [b, c, d, e], out, iSingleA') ∧
          out.Perm [a, b, c, d, e] := by
    rw [ha, Bool.true_and, Bool.not_eq_true] at hjokers
    have hc : isTen c = false := Bool.eq_false_iff.2 (mt hthree.2 h3)
    exact bestTwoOut_spec rfl _ (h.exists_points hjokers hc hbomb)
  have hpick : ∀ p ∈ pickThree [b, c, d, e], readEntries 1 (writeEntries [none, none] p.2) =
      some p.2 ∧ (p.1 ++ a :: p.2).Perm [a, b, c, d, e] := by
    intro p hp
    obtain ⟨hlen, hperm⟩ := perm_of_mem_pickThree hp
    have hlength := hperm.length_eq
    rw [List.length_append] at hlength
    have hone : p.2.length = 1 := by
      simp only [List.length_cons, List.length_nil] at hlength
      omega
    refine ⟨?_, List.perm_middle.trans (hperm.cons a)⟩
    rw [← hone]
    exact readEntries_writeEntries _ _
  unfold niuTypeOut niuType
  simp only
  split_ifs with h3 hjokers ha h2 hjokers ha hempty h1 h1 hcde
  · exact ⟨_, rfl, hfront⟩
  · exact ⟨_, rfl, hfront⟩
  · exact ⟨_, rfl, List.Perm.refl _⟩
  · exact ⟨_, rfl, hfront⟩
  · -- no three cards beside the joker
    obtain ⟨hfind, -⟩ | ⟨p, hp, hfind, hno⟩ := find_cases (pickThree [b, c, d, e])
    · obtain ⟨out, iSingleA', hbest, hperm⟩ := hbest ha hjokers h3
      simp only [hfind, hbest, Option.bind_eq_bind, Option.bind_some]
      exact fourCardsOut_spec rfl rfl hperm
    · rw [h1] at hno
      cases hno
  · obtain ⟨-, hyes⟩ | ⟨p, hp, hfind, -⟩ := find_cases (pickThree [b, c, d, e])
    · exact absurd hyes h1
    · simp only [hfind, (hpick p hp).1, Option.bind_eq_bind, Option.bind_some]
      exact ⟨_, rfl, (hpick p hp).2⟩
  · obtain ⟨hfind, -⟩ | ⟨p, hp, hfind, hno⟩ := find_cases (pickThree [b, c, d, e])
    · obtain ⟨out, iSingleA', hbest, hperm⟩ := hbest ha hjokers h3
      simp only [hfind, hbest, Option.bind_eq_bind, Option.bind_some]
      exact ⟨_, rfl, hperm⟩
    · rw [h1] at hno
      cases hno
  · obtain ⟨-, hyes⟩ | ⟨p, hp, hfind, -⟩ := find_cases (pickThree [b, c, d, e])
    · exact absurd hyes h1
    · simp only [hfind, (hpick p hp).1, Option.bind_eq_bind, Option.bind_some]
      exact ⟨_, rfl, (hpick p hp).2⟩
  · exact ⟨_, rfl, @List.perm_append_comm _ [c, d, e] [a, b]⟩
  · refine Gives.search rfl (fun p hp => ?_) (fun p hp => ?_) (List.Perm.refl _)
      fun s' hzero hs' => fourCardsOut_spec rfl hzero hs'
    · obtain ⟨htwo, hperm⟩ := perm_of_mem_pickTwo hp
      have hlength := hperm.length_eq
      rw [List.length_append] at hlength
      simp only [List.length_cons, List.length_nil] at hlength
      omega
    · exact (List.perm_middle.trans ((perm_of_mem_pickTwo hp).2.cons b)).cons a
  · exact fourCardsOut_spec rfl rfl (List.Perm.refl _)
  · exact fiveCardsOut_spec rfl (List.Perm.refl _) rfl (List.Perm.refl _)

/-- **`GetCardType` with its buffers** computes what it computes without,
reads nothing that was not written, and puts down the hand. -/
theorem sortedTypeOut_spec (h : Sorted a b c d e) :
    Gives [a, b, c, d, e] (sortedTypeOut a b c d e) (sortedType a b c d e) := by
  unfold sortedTypeOut sortedType
  by_cases h1 : getCardNewValue a = getCardNewValue d ∨ getCardNewValue b = getCardNewValue e
  · rw [if_pos h1, if_pos h1]
    exact ⟨_, rfl, List.Perm.refl _⟩
  rw [if_neg h1, if_neg h1]
  by_cases h2 : isJoker a ∧ isJoker b ∧ getCardNewValue c = getCardNewValue d
  · rw [if_pos h2, if_pos ⟨h2.1, h2.2.1, .inl h2.2.2⟩]
    exact ⟨_, rfl, (@List.perm_append_comm _ [c, d] [a, b]).append_right [e]⟩
  rw [if_neg h2]
  by_cases h3 : isJoker a ∧ isJoker b ∧ getCardNewValue d = getCardNewValue e
  · rw [if_pos h3, if_pos ⟨h3.1, h3.2.1, .inr h3.2.2⟩]
    exact ⟨_, rfl, ((@List.perm_append_comm _ [d, e] [c]).cons b).cons a⟩
  have htwo : ¬ (isJoker a ∧ isJoker b ∧ (getCardNewValue c = getCardNewValue d ∨
      getCardNewValue d = getCardNewValue e)) :=
    fun h => h.2.2.elim (fun h' => h2 ⟨h.1, h.2.1, h'⟩) fun h' => h3 ⟨h.1, h.2.1, h'⟩
  rw [if_neg h3, if_neg htwo]
  by_cases h4 : isJoker a ∧ getCardNewValue b = getCardNewValue d
  · rw [if_pos h4, if_pos ⟨h4.1, .inl h4.2⟩]
    exact ⟨_, rfl, (@List.perm_append_comm _ [b, c, d] [a]).append_right [e]⟩
  rw [if_neg h4]
  by_cases h5 : isJoker a ∧ getCardNewValue c = getCardNewValue e
  · rw [if_pos h5, if_pos ⟨h5.1, .inr h5.2⟩]
    exact ⟨_, rfl, @List.perm_append_comm _ [c, d, e] [a, b]⟩
  have hone : ¬ (isJoker a ∧ (getCardNewValue b = getCardNewValue d ∨
      getCardNewValue c = getCardNewValue e)) :=
    fun h => h.2.elim (fun h' => h4 ⟨h.1, h'⟩) fun h' => h5 ⟨h.1, h'⟩
  split_ifs
  · exact ⟨_, rfl, List.Perm.refl _⟩
  · exact ⟨_, rfl, List.Perm.refl _⟩
  · exact h.niuTypeOut_spec fun heq => h1 (.inr heq)

end Sorted

/-! ## Five cards in any order -/

structure FiveCards where
  cards : List UInt8
  length_eq : cards.length = 5
  nodup : cards.Nodup
  mem : ∀ card ∈ cards, card ∈ cardListData

theorem pairwise_sortCardList (cards : List UInt8) : (sortCardList cards).Pairwise fun x y =>
    getCardNewValue y * 256 + y.toNat ≤ getCardNewValue x * 256 + x.toNat := by
  refine sorted_bubbleSort (fun x y h => ?_) (fun x y h => ?_) cards
  · have hx := x.toNat_lt
    simp only [Bool.or_eq_true, Bool.and_eq_true, decide_eq_true_eq, beq_iff_eq,
      UInt8.lt_iff_toNat_lt] at h
    omega
  · have hy := y.toNat_lt
    simp only [Bool.or_eq_false_iff, Bool.and_eq_false_iff, decide_eq_false_iff_not,
      beq_eq_false_iff_ne, UInt8.lt_iff_toNat_lt] at h
    omega

theorem sortCardList_perm (h : xs.Perm ys) :
    sortCardList xs = sortCardList ys := by
  refine List.Perm.eq_of_pairwise (fun x y _ _ hxy hyx => UInt8.toNat_inj.1 ?_)
    (pairwise_sortCardList xs) (pairwise_sortCardList ys)
    ((bubbleSort_perm _ _).trans (h.trans (bubbleSort_perm _ _).symm))
  have hx := x.toNat_lt
  have hy := y.toNat_lt
  omega

theorem FiveCards.sorted (h : FiveCards) : ∃ a b c d e,
    sortCardList h.cards = [a, b, c, d, e] ∧ Sorted a b c d e := by
  have hperm : (sortCardList h.cards).Perm h.cards := bubbleSort_perm _ _
  have hlength := hperm.length_eq.trans h.length_eq
  match hsort : sortCardList h.cards, hlength with
  | [a, b, c, d, e], _ =>
    rw [hsort] at hperm
    refine ⟨a, b, c, d, e, rfl, hperm.nodup_iff.2 h.nodup,
      fun card hcard => h.mem card (hperm.subset hcard), ?_⟩
    rw [← hsort]
    exact pairwise_sortCardList h.cards

/-! ## The rules and the order of the cards -/

theorem Bomb.perm (h : xs.Perm ys) : Bomb xs ↔ Bomb ys := by
  unfold Bomb
  simp only [h.countP_eq]

theorem Pictures.perm (h : xs.Perm ys) (k : ℕ) :
    Pictures xs k ↔ Pictures ys k := by
  unfold Pictures
  simp only [h.mem_iff, h.countP_eq]

theorem Niu.perm (h : xs.Perm ys) (n : ℕ) : Niu xs n ↔ Niu ys n := by
  have htrans (three two : List UInt8) : (three ++ two).Perm xs ↔ (three ++ two).Perm ys :=
    ⟨fun hx => hx.trans h, fun hy => hy.trans h.symm⟩
  unfold Niu
  simp only [h.mem_iff, htrans]

theorem niuClass_perm (h : xs.Perm ys) (n : ℕ) :
    niuClass xs n = niuClass ys n := by
  have hany : xs.any isJoker = ys.any isJoker := by
    rw [Bool.eq_iff_iff, List.any_eq_true, List.any_eq_true]
    simp only [h.mem_iff]
  unfold niuClass
  rw [hany]
  simp only [h.mem_iff]

theorem Rules.perm {type : CardType} (hrules : Rules xs type) (h : xs.Perm ys) : Rules ys type := by
  cases hrules with
  | bomb hbomb => exact .bomb ((Bomb.perm h).1 hbomb)
  | king hbomb hking => exact .king (mt (Bomb.perm h).2 hbomb) ((Pictures.perm h 0).1 hking)
  | ying hbomb hying => exact .ying (mt (Bomb.perm h).2 hbomb) ((Pictures.perm h 1).1 hying)
  | niu n hbomb hking hying hn =>
    rw [niuClass_perm h]
    refine .niu n (mt (Bomb.perm h).2 hbomb) (mt (Pictures.perm h 0).2 hking)
      (mt (Pictures.perm h 1).2 hying) ?_
    simpa only [Niu.perm h] using hn
  | point hbomb hking hying hno =>
    exact .point (mt (Bomb.perm h).2 hbomb) (mt (Pictures.perm h 0).2 hking)
      (mt (Pictures.perm h 1).2 hying) fun n hn => hno n ((Niu.perm h n).2 hn)

theorem Rules.unique {type type' : CardType} (h : Rules hand type) (h' : Rules hand type') :
    type = type' := by
  cases h with
  | bomb hbomb => cases h' <;> first | rfl | contradiction
  | king hbomb hking =>
    cases h' with
    | ying _ hying => exact absurd (hking.2.symm.trans hying.2) (by decide)
    | _ => first | rfl | contradiction
  | ying hbomb hying =>
    cases h' with
    | king _ hking => exact absurd (hking.2.symm.trans hying.2) (by decide)
    | _ => first | rfl | contradiction
  | niu n hbomb hking hying hn =>
    cases h' with
    | niu m _ _ _ hm => rw [hn.unique hm]
    | point _ _ _ hno => exact absurd hn.1 (hno n)
    | _ => contradiction
  | point hbomb hking hying hno =>
    cases h' with
    | niu m _ _ _ hm => exact absurd hm.1 (hno m)
    | point => rfl
    | _ => contradiction

/-- **`GetCardType` gives the class of the rules** for every five cards:
it reads no entry that was not written, puts down the hand in some order,
and gives the same class in every order of the cards. -/
theorem getCardType_class (h : FiveCards) : ∃ type out,
    getCardTypeOut h.cards = some (type, out) ∧ out.Perm h.cards ∧
      getCardType h.cards = type ∧ (∀ type', Rules h.cards type' ↔ type' = type) ∧
      ∀ cards, cards.Perm h.cards →
        getCardType cards = type ∧ ∃ out, getCardTypeOut cards = some (type, out) := by
  obtain ⟨a, b, c, d, e, hsort, hsorted⟩ := h.sorted
  have hperm : [a, b, c, d, e].Perm h.cards := hsort ▸ bubbleSort_perm _ _
  obtain ⟨out, hout, houtPerm⟩ := hsorted.sortedTypeOut_spec
  have hrules := hsorted.sortedType_rules.perm hperm
  refine ⟨sortedType a b c d e, out, ?_, houtPerm.trans hperm, ?_, fun type' => ?_,
    fun cards hcards => ?_⟩
  · rw [getCardTypeOut, hsort]
    exact hout
  · rw [getCardType, hsort]
  · exact ⟨fun h => h.unique hrules, fun h => h ▸ hrules⟩
  · rw [getCardType, getCardTypeOut, sortCardList_perm hcards, hsort]
    exact ⟨rfl, out, hout⟩

end GameServer.OxBattle
