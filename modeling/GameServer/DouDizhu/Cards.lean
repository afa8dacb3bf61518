import GameServer.DouDizhu.Model.TableFrameSink
import Mathlib.Data.List.SplitBy
import Mathlib.Algebra.Group.Units.Equiv
import Mathlib.Algebra.Group.Fin.Basic
import Mathlib.Tactic.Abel
/-!
# Dou Dizhu — the cards of a hand

The three hands, the cards played and the three cards not yet handed out
are the deck in every state of a run (`run_conserves_cards`), as long as
no play is taken that counts a zero byte as a card. Such a play gets
through because `RemoveCardList` blanks a card it has found with the byte
zero, and finds a zero in the gap (`zero_byte_is_played`).
-/

namespace GameServer.DouDizhu

open Finset

variable {cards hand rest data : List UInt8} {count : ℕ}

/-! ## The analysis -/

/-- The rows have room for the runs that are left. -/
theorem analyseRuns_isSome : ∀ (runs : List (List UInt8)) (result : AnalyseResult),
    (∀ run ∈ runs, run ≠ []) →
    (∀ k : Fin 4, (result k).length * (k + 1) + runs.flatten.length ≤ maxCount) →
    (analyseRuns runs result).isSome
  | [], _, _, _ => rfl
  | run :: runs, result, hne, hroom => by
    rw [analyseRuns]
    dsimp only
    split_ifs with hlong
    · rfl
    · have hpos := List.length_pos_iff.2 (hne run List.mem_cons_self)
      have hk : (Fin.ofNat 4 (run.length - 1)).val + 1 = run.length := by
        simp only [Fin.val_ofNat]
        omega
      have := hroom (Fin.ofNat 4 (run.length - 1))
      rw [hk, List.flatten_cons, List.length_append] at this
      omega
    · have hpos := List.length_pos_iff.2 (hne run List.mem_cons_self)
      have hk : (Fin.ofNat 4 (run.length - 1)).val + 1 = run.length := by
        simp only [Fin.val_ofNat]
        omega
      refine analyseRuns_isSome runs _ (fun r hr => hne r (List.mem_cons_of_mem _ hr)) fun k => ?_
      have := hroom k
      rw [List.flatten_cons, List.length_append] at this
      by_cases h : k = Fin.ofNat 4 (run.length - 1)
      · rw [h, Function.update_self, List.length_append, List.length_singleton, hk, Nat.succ_mul]
        rw [h, hk] at this
        omega
      · rw [Function.update_of_ne h]
        omega

theorem analysebCardData_isSome (hlen : cards.length ≤ maxCount) :
    (analysebCardData cards).isSome := by
  refine analyseRuns_isSome _ _ (fun run hrun => List.ne_nil_of_mem_splitBy hrun) fun k => ?_
  simpa using hlen

theorem getCardType_isSome (hlen : cards.length ≤ maxCount) : (getCardType cards).isSome := by
  match cards, hlen with
  | [], _ => rfl
  | [_], _ => rfl
  | [a, b], _ =>
    rw [getCardType]
    split_ifs <;> rfl
  | _ :: _ :: _ :: _, hlen =>
    rw [getCardType, Option.isSome_map]
    · exact analysebCardData_isSome hlen
    all_goals nofun

theorem compareCard_isSome {first next : List UInt8} (hfirst : first.length ≤ maxCount)
    (hnext : next.length ≤ maxCount) : (compareCard first next).isSome := by
  obtain ⟨nextType, hnextType⟩ := Option.isSome_iff_exists.1 (getCardType_isSome hnext)
  obtain ⟨firstType, hfirstType⟩ := Option.isSome_iff_exists.1 (getCardType_isSome hfirst)
  obtain ⟨nextResult, hnextResult⟩ := Option.isSome_iff_exists.1 (analysebCardData_isSome hnext)
  obtain ⟨firstResult, hfirstResult⟩ := Option.isSome_iff_exists.1 (analysebCardData_isSome hfirst)
  rw [compareCard, hnextType, hfirstType]
  simp only [Option.bind_eq_bind, Option.bind_some, hnextResult, hfirstResult]
  split_ifs <;> try rfl
  split <;> rfl

theorem mem_analyseRuns : ∀ (runs : List (List UInt8)) (result last : AnalyseResult),
    analyseRuns runs result = some last →
      ∀ k, ∀ block ∈ last k, block ∈ result k ∨ block ∈ runs
  | [], result, last, h, k, block, hblock => by
    cases h
    exact .inl hblock
  | run :: runs, result, last, h, k, block, hblock => by
    rw [analyseRuns] at h
    dsimp only at h
    split_ifs at h
    · cases h
      cases hblock
    · rcases mem_analyseRuns runs _ last h k block hblock with hmem | hmem
      · by_cases hk : k = Fin.ofNat 4 (run.length - 1)
        · rw [hk, Function.update_self, List.mem_append, List.mem_singleton, ← hk] at hmem
          refine hmem.imp id fun heq => ?_
          rw [heq]
          exact List.mem_cons_self
        · rw [Function.update_of_ne hk] at hmem
          exact .inl hmem
      · exact .inr (List.mem_cons_of_mem _ hmem)

theorem sortCardList_perm (cards : List UInt8) : (sortCardList cards).Perm cards :=
  bubbleSort_perm _ _

/-- **A lead that is searched for comes from the hand.** -/
theorem searchOutCard_spec (hlen : hand.length ≤ maxCount) :
    ∃ cards, searchOutCard hand = some cards ∧ cards.length ≤ maxCount ∧ ∀ c ∈ cards, c ∈ hand := by
  have hperm := sortCardList_perm hand
  have hsorted : (sortCardList hand).length ≤ maxCount := hperm.length_eq.trans_le hlen
  obtain ⟨type, htype⟩ := Option.isSome_iff_exists.1 (getCardType_isSome hsorted)
  rw [searchOutCard]
  simp only [htype, Option.bind_eq_bind, Option.bind_some]
  split_ifs with herror hsame
  · exact ⟨_, rfl, hsorted, fun c hc => hperm.subset hc⟩
  · have hsub := List.takeWhile_sublist (l := (sortCardList hand).reverse)
      fun c => decide (getCardValue c = getCardValue ((sortCardList hand).getLastD 0))
    refine ⟨_, rfl, hsub.length_le.trans ?_, fun c hc => ?_⟩
    · rwa [List.length_reverse]
    · exact hperm.subset (List.mem_reverse.1 (hsub.subset hc))
  · have hperm' := (sortCardList_perm (sortCardList hand)).trans hperm
    obtain ⟨result, hresult⟩ := Option.isSome_iff_exists.1
      (analysebCardData_isSome (hperm'.length_eq.trans_le hlen))
    rw [searchSameCard, hresult]
    refine ⟨_, rfl, (List.length_take_le _ _).trans (by decide), fun c hc => ?_⟩
    cases hfind : (((List.finRange 4).drop (1 - 1)).flatMap fun k => (result k).reverse).find?
        fun block => getCardLogicValue (block.headD 0) > 0 with
    | none =>
      rw [hfind] at hc
      simp at hc
    | some block =>
      rw [hfind] at hc
      obtain ⟨k, -, hblock⟩ := List.mem_flatMap.1 (List.mem_of_find?_eq_some hfind)
      have hrun := (mem_analyseRuns _ _ _ hresult k block (List.mem_reverse.1 hblock)).resolve_left
        List.not_mem_nil
      have hc' : c ∈ (sortCardList (sortCardList hand)) := by
        rw [← List.flatten_splitBy (fun a b => getCardLogicValue b = getCardLogicValue a)
          (sortCardList (sortCardList hand))]
        exact List.mem_flatten.2 ⟨block, hrun, List.mem_of_mem_take hc⟩
      exact hperm'.subset hc'

/-! ## A play -/

theorem length_removeCardList (h : removeCardList cards data count = some rest)
    (hcount : count ≤ data.length) : rest.length = data.length := by
  rw [removeCardList] at h
  split_ifs at h
  obtain ⟨left, hleft, rfl⟩ := Option.map_eq_some_iff.1 h
  have hle : left.length ≤ count := by
    rw [removeMarked] at hleft
    split_ifs at hleft
    cases hleft
    refine (List.length_filter_le _ _).trans ?_
    rw [(length_strikeOut 0 cards _).1]
    exact List.length_take_le _ _
  simp only [List.length_append, List.length_replicate, List.length_drop]
  omega

/-- What is removed from a hand that holds no zero, and what is left in
front. -/
theorem removeCardList_perm (h : removeCardList cards data count = some rest)
    (hzero : 0 ∉ data.take count) :
    ∃ left, (data.take count).Perm (cards.filter (· ≠ 0) ++ left) ∧ left <+: rest := by
  rw [removeCardList] at h
  split_ifs at h
  obtain ⟨left, hleft, rfl⟩ := Option.map_eq_some_iff.1 h
  refine ⟨left, (removeMarked_perm hzero hleft).1, ?_⟩
  rw [List.append_assoc]
  exact List.prefix_append _ _

/-- **When `RemoveCardList` finds every card**: the cards that are no zero
are in the hand, and the first of them is no zero. -/
theorem removeCardList_isSome_iff (hzero : 0 ∉ data.take count) :
    (removeCardList cards data count).isSome ↔
      count ≤ maxCount ∧ (cards.filter (· ≠ 0)).Subperm (data.take count) ∧
        cards.head? ≠ some 0 := by
  rw [removeCardList]
  split_ifs with hlong
  · exact iff_of_false nofun fun h => by omega
  · rw [Option.isSome_map, removeMarked_isSome_iff hzero]
    have hle : count ≤ maxCount := by omega
    exact ⟨fun h => ⟨hle, h⟩, fun h => h.2⟩

namespace TableSink

variable {opt : ServiceOption} {s s' t : TableSink} {chair : Chair} {history out : List Output}

def played (history : List Output) : List UInt8 :=
  history.foldl (fun played o => match o with
    | .gameStart => []
    | .outCard _ cards => played ++ cards
    | .gameConclude _ => played) []

/-- The three cards nobody holds before the calls are over. -/
def bottom (s : TableSink) : List UInt8 := if s.gameStatus = .play then [] else s.bankerCard

/-- **Every card of the deck is somewhere**: in a hand, among the cards not
yet handed out, or played. -/
def Conserved (s : TableSink) (history : List Output) : Prop :=
  (∑ i, (s.hand i : Multiset UInt8)) + s.bottom + played history = (cardData : Multiset UInt8)

/-- What a play is to do: if it is taken, the cards were in the hand of the
sender and are what the hand has less; if not, nothing changes. -/
def PlayMeets (opt : ServiceOption) (s : TableSink) (chair : Chair) (cards : List UInt8) : Prop :=
  ∃ result, s.outCard chair cards = some result ∧
    (result = none → s.onUserOutCard opt chair cards = some (s, [])) ∧
    ∀ t, result = some t → (s.hand chair).Perm (cards ++ t.hand chair) ∧
      ∀ i, i ≠ chair → t.hand i = s.hand i

/-- The player's cards are judged without a write behind an array, and a
legal play that begins with a card and is owned but for zeros has no
zeros. -/
def Genuine (s : TableSink) (chair : Chair) (cards : List UInt8) : Prop :=
  s.currentUser = some chair → ∃ legal, s.legalPlay cards = some legal ∧
    (legal = true → (cards.filter (· ≠ 0)).Subperm (s.hand chair) → cards.head? ≠ some 0 →
      0 ∉ cards)

/-- A play that is looked at is genuine. -/
def Honest (s : TableSink) : Event → Prop
  | .outCard chair playing cardCount cards =>
      cards.length = cardCount.toNat → s.gameStatus = .play → playing = true → s.Genuine chair cards
  | _ => True

/-- What every state keeps, with the outputs so far. -/
structure Sound (s : TableSink) (history : List Output) : Prop where
  length_data : ∀ i, (s.handCardData i).length = maxCount
  count_le : ∀ i, s.handCardCount i ≤ maxCount
  length_turn : s.turnCardData.length ≤ maxCount
  idle : s.gameStatus = .free → ∀ i, s.handCardCount i = 0
  calls : s.gameStatus = .call →
    (∀ i, s.handCardCount i = normalCount) ∧ s.bankerCard.length = 3 ∧ s.firstUser.isSome = true
  dealt : s.gameStatus ≠ .free → s.Conserved history

theorem played_append (history out : List Output) :
    played (history ++ out) = out.foldl (fun played o => match o with
      | .gameStart => []
      | .outCard _ cards => played ++ cards
      | .gameConclude _ => played) (played history) :=
  List.foldl_append

@[simp] theorem played_outCard (history : List Output) (chair : Chair) (cards : List UInt8) :
    played (history ++ [.outCard chair cards]) = played history ++ cards :=
  played_append _ _

theorem Conserved.of_hand (hs : s.Conserved history) (hhand : s'.hand = s.hand)
    (hbottom : s'.bottom = s.bottom) : s'.Conserved history := by
  rw [Conserved, hhand, hbottom]
  exact hs

theorem Conserved.hand_le (hs : s.Conserved history) (i : Chair) :
    (s.hand i : Multiset UInt8) ≤ cardData := by
  rw [← hs, ← add_sum_erase _ _ (mem_univ i), add_assoc, add_assoc]
  exact Multiset.le_add_right _ _

section

variable (hs : s.Sound history)
include hs

theorem Sound.zero_notMem (i : Chair) : 0 ∉ s.hand i := by
  by_cases hfree : s.gameStatus = .free
  · rw [hand, hs.idle hfree i, List.take_zero]
    exact List.not_mem_nil
  · intro hmem
    have h := Multiset.mem_of_le ((hs.dealt hfree).hand_le i) (Multiset.mem_coe.2 hmem)
    revert h
    decide

theorem Sound.length_hand (i : Chair) : (s.hand i).length = s.handCardCount i := by
  rw [hand, List.length_take, hs.length_data i]
  exact Nat.min_eq_left (hs.count_le i)

theorem Sound.counts_le :
    s.handCardCount 0 + s.handCardCount 1 + s.handCardCount 2 ≤ fullCount := by
  by_cases hfree : s.gameStatus = .free
  · rw [hs.idle hfree, hs.idle hfree, hs.idle hfree]
    exact Nat.zero_le _
  · have hcard := congrArg Multiset.card (hs.dealt hfree)
    rw [Fin.sum_univ_three] at hcard
    simp only [Multiset.card_add, Multiset.coe_card, hs.length_hand] at hcard
    have hdeck : cardData.length = fullCount := rfl
    omega

theorem Sound.legalPlay_isSome (hlen : cards.length ≤ maxCount) :
    ∃ legal, s.legalPlay cards = some legal := by
  obtain ⟨type, htype⟩ := Option.isSome_iff_exists.1 (getCardType_isSome hlen)
  rw [legalPlay, htype]
  simp only [Option.bind_eq_bind, Option.bind_some]
  split_ifs
  · exact ⟨false, rfl⟩
  · exact ⟨true, rfl⟩
  · exact Option.isSome_iff_exists.1 (compareCard_isSome hs.length_turn hlen)

/-- Cards that fit into a hand and have no zero among them are genuine. -/
theorem Sound.genuine (hlen : cards.length ≤ maxCount) (hzero : 0 ∉ cards) :
    s.Genuine chair cards := by
  intro _
  obtain ⟨legal, hlegal⟩ := hs.legalPlay_isSome hlen
  exact ⟨legal, hlegal, fun _ _ _ => hzero⟩

/-- Cards that are taken out of a hand and have no zero among them. -/
theorem Sound.takeOut_spec (hzero : 0 ∉ cards) (h : s.takeOut chair cards = some t) :
    (s.hand chair).Perm (cards ++ t.hand chair) ∧ (∀ i, i ≠ chair → t.hand i = s.hand i) ∧
      cards.length ≤ maxCount := by
  obtain ⟨data, hdata, rfl⟩ := Option.map_eq_some_iff.1 h
  obtain ⟨left, hperm, hleft⟩ := removeCardList_perm hdata (hs.zero_notMem chair)
  rw [filter_ne_eq_self hzero] at hperm
  have hlen := hperm.length_eq
  have hcount := hs.count_le chair
  have hhand := hs.length_hand chair
  rw [hand] at hhand
  rw [hhand, List.length_append] at hlen
  have hleft' : data.take ((s.handCardCount chair + 256 - cards.length) % 256) = left := by
    have hmax : maxCount = 20 := rfl
    have heq : (s.handCardCount chair + 256 - cards.length) % 256 = left.length := by omega
    rw [heq]
    exact (List.prefix_iff_eq_take.1 hleft).symm
  refine ⟨?_, fun i hi => ?_, by omega⟩
  · simp only [hand, Function.update_self, hleft']
    exact hperm
  · simp only [hand, Function.update_of_ne hi]

/-- **A play meets its purpose exactly when it is genuine.** -/
theorem Sound.playMeets_iff : s.PlayMeets opt chair cards ↔ s.Genuine chair cards := by
  rw [PlayMeets, Genuine, outCard]
  by_cases hturn : s.currentUser = some chair
  · rw [if_neg (not_not.2 hturn)]
    cases hlegal : s.legalPlay cards with
    | none =>
      refine iff_of_false (fun ⟨_, h, _⟩ => by cases h) fun h => ?_
      obtain ⟨_, h, _⟩ := h hturn
      cases h
    | some legal =>
      cases legal with
      | false =>
        refine iff_of_true ⟨none, rfl, fun _ => ?_, nofun⟩ fun _ => ⟨false, rfl, nofun⟩
        rw [onUserOutCard, outCard, if_neg (not_not.2 hturn), hlegal]
      | true =>
        cases htake : s.takeOut chair cards with
        | none =>
          refine iff_of_true ⟨none, rfl, fun _ => ?_, nofun⟩ fun _ => ⟨true, rfl, fun _ hsub hhead => ?_⟩
          · rw [onUserOutCard, outCard, if_neg (not_not.2 hturn), hlegal, htake]
          · have hremove := (removeCardList_isSome_iff (hs.zero_notMem chair)).2
              ⟨hs.count_le chair, hsub, hhead⟩
            rw [takeOut, Option.map_eq_none_iff] at htake
            rw [htake] at hremove
            cases hremove
        | some t =>
          have hremove : (removeCardList cards (s.handCardData chair) (s.handCardCount chair)).isSome := by
            rw [← Option.isSome_map, ← takeOut, htake]
            rfl
          obtain ⟨-, hsub, hhead⟩ := (removeCardList_isSome_iff (hs.zero_notMem chair)).1 hremove
          constructor
          · rintro ⟨result, hresult, -, hmeets⟩ -
            refine ⟨true, rfl, fun _ _ _ hzero => ?_⟩
            split_ifs at hresult
            cases hresult
            exact hs.zero_notMem chair
              ((hmeets t rfl).1.mem_iff.2 (List.mem_append_left _ hzero))
          · intro hgenuine
            obtain ⟨legal, hlegal', hzero⟩ := hgenuine hturn
            cases hlegal'
            obtain ⟨hperm, hrest, hlen⟩ := hs.takeOut_spec (hzero rfl hsub hhead) htake
            refine ⟨some t, if_neg (by omega), nofun, fun t' ht' => ?_⟩
            cases ht'
            exact ⟨hperm, hrest⟩
  · rw [if_pos hturn]
    refine iff_of_true ⟨none, rfl, fun _ => ?_, nofun⟩ fun h => absurd h hturn
    rw [onUserOutCard, outCard, if_pos hturn]

/-! ## What every step keeps -/

theorem Sound.of_cards (hstatus : s'.gameStatus = s.gameStatus)
    (hcount : s'.handCardCount = s.handCardCount) (hdata : s'.handCardData = s.handCardData)
    (hbanker : s'.bankerCard = s.bankerCard) (hfirst : s'.firstUser = s.firstUser)
    (hturn : s'.turnCardData = s.turnCardData ∨ s'.turnCardData = []) : s'.Sound history := by
  have hhand : s'.hand = s.hand := by
    funext i
    rw [hand, hand, hcount, hdata]
  have hbottom : s'.bottom = s.bottom := by
    rw [bottom, bottom, hstatus, hbanker]
  refine ⟨fun i => ?_, fun i => ?_, ?_, fun h i => ?_, fun h => ?_, fun h => ?_⟩
  · rw [hdata]
    exact hs.length_data i
  · rw [hcount]
    exact hs.count_le i
  · rcases hturn with h | h
    · rw [h]
      exact hs.length_turn
    · rw [h]
      exact Nat.zero_le _
  · rw [hcount]
    exact hs.idle (hstatus ▸ h) i
  · rw [hcount, hbanker, hfirst]
    exact hs.calls (hstatus ▸ h)
  · exact (hs.dealt (hstatus ▸ h)).of_hand hhand hbottom

end

theorem Sound.of_chair (chair : Chair) (hs : s.Sound history) (hstatus : s'.gameStatus = .play)
    (hdata : (s'.handCardData chair).length = maxCount) (hcount : s'.handCardCount chair ≤ maxCount)
    (hothers : ∀ i, i ≠ chair →
      s'.handCardData i = s.handCardData i ∧ s'.handCardCount i = s.handCardCount i)
    (hturn : s'.turnCardData.length ≤ maxCount) (hdealt : s'.Conserved (history ++ out)) :
    s'.Sound (history ++ out) := by
  refine ⟨fun i => ?_, fun i => ?_, hturn, fun h => ?_, fun h => ?_, fun _ => hdealt⟩
  · by_cases hi : i = chair
    · rw [hi, hdata]
    · rw [(hothers i hi).1, hs.length_data]
  · by_cases hi : i = chair
    · rwa [hi]
    · rw [(hothers i hi).2]
      exact hs.count_le i
  · rw [hstatus] at h
    cases h
  · rw [hstatus] at h
    cases h

theorem Sound.isOfflineTrustee (hs : s.Sound history) : (s.isOfflineTrustee opt).Sound history := by
  unfold TableSink.isOfflineTrustee
  split_ifs
  · exact hs.of_cards rfl rfl rfl rfl rfl (.inl rfl)
  · exact hs

theorem Sound.playFor (hs : s.Sound history) : (s.playFor opt).Sound history := by
  unfold TableSink.playFor
  split_ifs
  · exact hs.isOfflineTrustee
  · exact hs

theorem sound_repositionSink (s : TableSink) (history : List Output) :
    s.repositionSink.Sound history where
  length_data _ := List.length_replicate
  count_le _ := Nat.zero_le _
  length_turn := Nat.zero_le _
  idle _ _ := rfl
  calls h := nomatch h
  dealt h := absurd rfl h

section

variable (hs : s.Sound history)
include hs

theorem Sound.conclude (firstUser : Option Chair) (history' : List Output) :
    ∃ s' out, s.conclude firstUser = some (s', out) ∧ s'.Sound (history' ++ out) := by
  refine ⟨_, _, if_neg ?_, sound_repositionSink _ _⟩
  have := hs.counts_le
  omega

theorem sound_deal {deck : List UInt8} (hdeck : deck.Perm cardData) (first currentUser : Chair) :
    (s.deal deck first currentUser).Sound (history ++ [.gameStart]) := by
  have hlen : deck.length = 54 := hdeck.length_eq
  have hslice : ∀ i : Chair,
      (sortCardList ((deck.drop (i * normalCount)).take normalCount)).length = 17 := fun i => by
    rw [(sortCardList_perm _).length_eq, List.length_take, List.length_drop, hlen]
    simp only [normalCount, gamePlayer] at *
    omega
  refine ⟨fun i => ?_, fun _ => (by decide : normalCount ≤ maxCount), Nat.zero_le _, nofun,
    fun _ => ⟨fun _ => rfl, ?_, rfl⟩, fun _ => ?_⟩
  · rw [deal]
    rw [List.length_append, hslice, List.length_drop, hs.length_data]
    rfl
  · rw [deal]
    rw [List.length_drop, hlen]
    rfl
  · have hplayed : played (history ++ [.gameStart]) = [] := played_append _ _
    have hbottom : (s.deal deck first currentUser).bottom = deck.drop dispatchCount := if_neg nofun
    have hhand : ∀ i, ((s.deal deck first currentUser).hand i : Multiset UInt8) =
        ((deck.drop ((i - first : Chair) * normalCount)).take normalCount : List UInt8) := fun i => by
      rw [hand, deal]
      rw [List.take_left' (hslice _)]
      exact Multiset.coe_eq_coe.2 (sortCardList_perm _)
    rw [Conserved, hplayed, hbottom, Multiset.coe_nil, add_zero, ← Multiset.coe_eq_coe.2 hdeck,
      ← sum_slices normalCount deck gamePlayer, Fintype.sum_congr _ _ hhand]
    congr 1
    exact Equiv.sum_comp (Equiv.subRight first)
      fun i : Chair => (((deck.drop (i * normalCount)).take normalCount : List UInt8) : Multiset UInt8)

theorem sound_onEventGameStart (rand : ℕ → ℕ) (validCardIndex : ℕ) :
    (s.onEventGameStart opt rand validCardIndex).Sound (history ++ [.gameStart]) := by
  have hdeck : (randCardList rand).Perm cardData := shuffle_perm rand fullCount cardData rfl
  unfold onEventGameStart
  simp only
  split_ifs
  · exact (sound_deal hs hdeck _ _).isOfflineTrustee
  · exact (sound_deal hs hdeck _ _).isOfflineTrustee
  · exact sound_deal hs hdeck _ _
  · exact sound_deal hs hdeck _ _

/-- The banker takes the cards nobody holds. -/
theorem sound_bankerInfo (hcall : s.gameStatus = .call) (banker : Chair) :
    (s.bankerInfo opt banker).Sound history := by
  obtain ⟨hcount, hbanker, -⟩ := hs.calls hcall
  have hlen := hs.length_data banker
  have hdata : ((s.handCardData banker).take normalCount ++ s.bankerCard ++
      (s.handCardData banker).drop maxCount) = s.hand banker ++ s.bankerCard := by
    rw [hand, hcount, List.drop_eq_nil_of_le (by rw [hlen]), List.append_nil]
  have hlength : (s.hand banker ++ s.bankerCard).length = 20 := by
    rw [List.length_append, hs.length_hand, hcount, hbanker]
  have hperm := sortCardList_perm (s.hand banker ++ s.bankerCard)
  refine Sound.playFor ?_
  rw [hcount, hdata, List.take_of_length_le (by rw [hlength]),
    List.drop_eq_nil_of_le (by rw [hlength]), List.append_nil]
  rw [← List.append_nil history]
  refine Sound.of_chair banker hs rfl ?_ ?_ (fun i hi => ?_) hs.length_turn ?_
  · dsimp only
    rw [Function.update_self, hperm.length_eq, hlength]
  · dsimp only
    rw [Function.update_self]
  · exact ⟨Function.update_of_ne hi _ _, Function.update_of_ne hi _ _⟩
  · have hbottom : s.bottom = s.bankerCard := by
      rw [bottom, if_neg]
      rw [hcall]
      nofun
    have hdealt := hs.dealt (by rw [hcall]; nofun)
    rw [Conserved, hbottom] at hdealt
    rw [Conserved, ← hdealt, List.append_nil]
    congr 1
    rw [bottom, if_pos rfl, Multiset.coe_nil, add_zero, add_comm (∑ i, _)]
    refine sum_taken_from (c := banker) ?_ fun i hi => ?_
    · change (((Function.update s.handCardData banker (sortCardList (s.hand banker ++ s.bankerCard))
        banker).take (Function.update s.handCardCount banker (normalCount + 3) banker) : List UInt8) :
          Multiset UInt8) = _
      rw [Function.update_self, Function.update_self, List.take_of_length_le
        (by rw [hperm.length_eq, hlength]), Multiset.coe_eq_coe.2 hperm, ← Multiset.coe_add, add_comm]
    · dsimp only [hand]
      rw [Function.update_of_ne hi, Function.update_of_ne hi]

theorem Sound.endCalls (hcall : s.gameStatus = .call) :
    ∃ s', s.endCalls opt = some s' ∧ s'.Sound history := by
  obtain ⟨first, hfirst⟩ := Option.isSome_iff_exists.1 (hs.calls hcall).2.2
  have hor : ∀ bankerUser : Option Chair, ∃ banker, bankerUser.or s.firstUser = some banker := by
    intro bankerUser
    rw [hfirst]
    cases bankerUser with
    | none => exact ⟨first, rfl⟩
    | some banker => exact ⟨banker, rfl⟩
  unfold TableSink.endCalls
  simp only
  split_ifs
  · obtain ⟨banker, hbanker⟩ := hor s.firstUser
    rw [hbanker]
    have hbook : Sound { s with bankerUser := s.firstUser, bankerScore := 1 } history :=
      hs.of_cards rfl rfl rfl rfl rfl (.inl rfl)
    exact ⟨_, rfl, sound_bankerInfo hbook hcall banker⟩
  · obtain ⟨banker, hbanker⟩ := hor s.bankerUser
    rw [hbanker]
    exact ⟨_, rfl, sound_bankerInfo hs hcall banker⟩

theorem Sound.onUserCallScore (hcall : s.gameStatus = .call) (callScore : UInt8) :
    ∃ s', s.onUserCallScore opt chair callScore = some s' ∧ s'.Sound history := by
  have hbook : (s.bookCall chair callScore).Sound history ∧
      (s.bookCall chair callScore).gameStatus = .call := by
    unfold bookCall
    simp only
    split_ifs
    · exact ⟨hs.of_cards rfl rfl rfl rfl rfl (.inl rfl), hcall⟩
    · exact ⟨hs, hcall⟩
    · exact ⟨hs.of_cards rfl rfl rfl rfl rfl (.inl rfl), hcall⟩
    · exact ⟨hs, hcall⟩
  unfold TableSink.onUserCallScore
  split_ifs
  · exact ⟨s, rfl, hs⟩
  · simp only
    split_ifs
    · exact hbook.1.endCalls hbook.2
    · exact ⟨_, rfl, Sound.playFor (hbook.1.of_cards rfl rfl rfl rfl rfl (.inl rfl))⟩

theorem Sound.onUserPassCard : (s.onUserPassCard opt chair).Sound history := by
  unfold TableSink.onUserPassCard
  split_ifs with hpass hwinner
  · exact hs
  · exact Sound.playFor (hs.of_cards rfl rfl rfl rfl rfl (.inr rfl))
  · exact Sound.playFor (hs.of_cards rfl rfl rfl rfl rfl (.inl rfl))

theorem Sound.takeOut (hplay : s.gameStatus = .play) (hzero : 0 ∉ cards)
    (h : s.takeOut chair cards = some t) : t.Sound (history ++ [.outCard chair cards]) := by
  obtain ⟨hperm, hrest, hlen⟩ := hs.takeOut_spec hzero h
  have hconserved : t.Conserved (history ++ [.outCard chair cards]) := by
    have hdealt := hs.dealt (by rw [hplay]; nofun)
    have hsum : ∑ i, (s.hand i : Multiset UInt8) = cards + ∑ i, (t.hand i : Multiset UInt8) :=
      sum_taken_from (by exact Multiset.coe_eq_coe.2 hperm)
        fun i hi => by rw [hrest i hi]
    have hbottom : t.bottom = s.bottom := by
      obtain ⟨data, -, rfl⟩ := Option.map_eq_some_iff.1 h
      rfl
    rw [Conserved, hsum] at hdealt
    rw [Conserved, played_outCard, hbottom, ← hdealt, ← Multiset.coe_add]
    abel
  obtain ⟨data, hdata, rfl⟩ := Option.map_eq_some_iff.1 h
  have hcount := hs.count_le chair
  have hlength := hperm.length_eq
  rw [hs.length_hand, List.length_append] at hlength
  refine Sound.of_chair chair hs hplay ?_ ?_ (fun i hi => ?_) ?_ hconserved
  · dsimp only
    rw [Function.update_self, length_removeCardList hdata (by rwa [hs.length_data]),
      hs.length_data]
  · dsimp only
    rw [Function.update_self]
    omega
  · exact ⟨Function.update_of_ne hi _ _, Function.update_of_ne hi _ _⟩
  · dsimp only
    split_ifs
    · exact Nat.zero_le _
    · exact hlen

end

theorem takeOut_of_outCard (h : s.outCard chair cards = some (some t)) :
    s.takeOut chair cards = some t := by
  rw [outCard] at h
  by_cases hturn : s.currentUser = some chair
  · rw [if_neg (not_not.2 hturn)] at h
    cases hlegal : s.legalPlay cards with
    | none =>
      rw [hlegal] at h
      cases h
    | some legal =>
      rw [hlegal] at h
      cases legal with
      | false => cases h
      | true =>
        cases htake : s.takeOut chair cards with
        | none =>
          rw [htake] at h
          cases h
        | some t' =>
          rw [htake] at h
          split_ifs at h
          exact Option.some.inj h
  · rw [if_pos hturn] at h
    cases h

theorem Sound.onUserOutCard (hs : s.Sound history) (hplay : s.gameStatus = .play)
    (hgenuine : s.Genuine chair cards) :
    ∃ s' out, s.onUserOutCard opt chair cards = some (s', out) ∧ s'.Sound (history ++ out) := by
  have hplays : s.PlayMeets opt chair cards := hs.playMeets_iff.2 hgenuine
  obtain ⟨result, hresult, -, hmeets⟩ := hplays
  rw [TableSink.onUserOutCard, hresult]
  cases result with
  | none => exact ⟨s, [], rfl, by rwa [List.append_nil]⟩
  | some t =>
    have ht : t.Sound (history ++ [.outCard chair cards]) := by
      have hzero : 0 ∉ cards := fun hmem =>
        hs.zero_notMem chair ((hmeets t rfl).1.mem_iff.2 (List.mem_append_left _ hmem))
      exact hs.takeOut hplay hzero (takeOut_of_outCard hresult)
    dsimp only
    split_ifs
    · obtain ⟨s', out, hs', hlast⟩ := ht.conclude (some chair) (history ++ [.outCard chair cards])
      rw [hs']
      exact ⟨s', _, rfl, by rwa [List.append_assoc] at hlast⟩
    · exact ⟨_, _, rfl, ht.playFor⟩

theorem Sound.onUserOutTime (hs : s.Sound history) :
    ∃ s' out, s.onUserOutTime opt = some (s', out) ∧ s'.Sound (history ++ out) := by
  have ht : Sound { s with userOutTime := false } history :=
    hs.of_cards rfl rfl rfl rfl rfl (.inl rfl)
  have hquiet : ∀ t : TableSink, t.Sound history →
      ∃ s' out, some (t, ([] : List Output)) = some (s', out) ∧ s'.Sound (history ++ out) :=
    fun t ht => ⟨t, [], rfl, by rwa [List.append_nil]⟩
  unfold TableSink.onUserOutTime
  simp only
  split
  · exact hquiet _ ht
  · rename_i chair _
    split
    · exact hquiet _ ht
    · obtain ⟨t, hcall, hlast⟩ := ht.onUserCallScore ‹_› _
      rw [hcall]
      exact hquiet _ hlast
    · split_ifs
      · have hlen := (ht.length_hand chair).trans_le (ht.count_le chair)
        obtain ⟨cards, hsearch, hcards, hmem⟩ := searchOutCard_spec hlen
        rw [hsearch]
        exact ht.onUserOutCard ‹_› (ht.genuine hcards fun h => ht.zero_notMem chair (hmem 0 h))
      · exact hquiet _ ht.onUserPassCard

/-- **No step loses a card.** -/
theorem step_keeps_sound {e : Event} (hs : s.Sound history) (hok : s.Honest e) :
    ∃ s' out, step opt s e = some (s', out) ∧ s'.Sound (history ++ out) := by
  have hsame : ∃ s' out, some (s, ([] : List Output)) = some (s', out) ∧ s'.Sound (history ++ out) :=
    ⟨s, [], rfl, by rwa [List.append_nil]⟩
  have hquiet : ∀ t : TableSink, t.Sound history →
      ∃ s' out, some (t, ([] : List Output)) = some (s', out) ∧ s'.Sound (history ++ out) :=
    fun t ht => ⟨t, [], rfl, by rwa [List.append_nil]⟩
  cases e with
  | gameStart rand validCardIndex =>
    rw [step]
    split_ifs
    · exact ⟨_, _, rfl, sound_onEventGameStart hs rand validCardIndex⟩
    · exact hsame
  | callScore chair playing score =>
    rw [step]
    split_ifs with h
    · obtain ⟨t, hcall, hlast⟩ := hs.onUserCallScore h.1 score
      rw [hcall]
      exact hquiet _ hlast
    · exact hsame
  | outCard chair playing cardCount cards =>
    rw [step]
    split_ifs with h
    · exact hs.onUserOutCard h.2.1 (hok h.1 h.2.1 h.2.2)
    · exact hsame
  | passCard chair playing =>
    rw [step]
    split_ifs
    · exact hquiet _ hs.onUserPassCard
    · exact hsame
  | trustee chair trustee => exact hquiet _ (hs.of_cards rfl rfl rfl rfl rfl (.inl rfl))
  | userOutTime =>
    rw [step]
    split_ifs
    · exact hs.onUserOutTime
    · exact hsame
  | userOffLine chair =>
    rw [step]
    split_ifs
    · exact hquiet _ hs.isOfflineTrustee
    · exact hsame
  | userConnect chair =>
    rw [step]
    split_ifs
    · exact hquiet _ (hs.of_cards rfl rfl rfl rfl rfl (.inl rfl))
    · exact hsame
  | userStandUp chair => exact hquiet _ (hs.of_cards rfl rfl rfl rfl rfl (.inl rfl))
  | dismiss =>
    rw [step]
    split_ifs
    · exact hsame
    · exact hs.conclude _ _
  | userLeave chair =>
    rw [step]
    split_ifs
    · exact hsame
    · exact hquiet _ hs.isOfflineTrustee
    · exact hs.conclude _ _

theorem sound_init (history : List Output) : Sound {} history :=
  sound_repositionSink {} history

/-- **A run loses no card.** While every play that is looked at is genuine,
no message, timer or call faults, the hands, the cards played and the cards
not yet handed out are the deck, and a further play does what it is to do
exactly when it is genuine too. -/
theorem run_conserves_cards {events : List Event}
    (hok : Machine.Along (step opt) Honest {} events) :
    ∃ r, Machine.run (step opt) {} events = some r ∧
      (r.1.gameStatus ≠ .free → r.1.Conserved r.2) ∧
      ∀ chair cards, r.1.PlayMeets opt chair cards ↔ r.1.Genuine chair cards := by
  obtain ⟨r, hr, hs⟩ := Machine.inv_run_total (P := Sound)
    (fun _ _ _ hs hok => step_keeps_sound hs hok) events {} [] (sound_init []) hok
  exact ⟨r, hr, fun hon => hs.dealt hon, fun chair cards => hs.playMeets_iff⟩

/-- Messages that name no zero and no more cards than a hand has. -/
def Clean : Event → Prop
  | .outCard _ _ _ cards => 0 ∉ cards ∧ cards.length ≤ maxCount
  | _ => True

theorem Sound.along_of_clean : ∀ (events : List Event) {s : TableSink} {history : List Output},
    s.Sound history → (∀ e ∈ events, Clean e) → Machine.Along (step opt) Honest s events
  | [], _, _, _, _ => trivial
  | e :: events, s, history, hs, hclean => by
    obtain ⟨he, hrest⟩ := List.forall_mem_cons.1 hclean
    have hok : s.Honest e := by
      cases e with
      | outCard chair playing cardCount cards => exact fun _ _ _ => hs.genuine he.2 he.1
      | _ => trivial
    have hkept : ∃ t out, step opt s e = some (t, out) ∧ t.Sound (history ++ out) :=
      step_keeps_sound hs hok
    obtain ⟨t, out, hstep, ht⟩ := hkept
    exact Machine.along_cons hstep hok (ht.along_of_clean events hrest)

def goldTable : ServiceOption where
  isMatch := false
  offLineTrustee := false

/-- Chair 0 is dealt three kings, calls three and plays them with a card. -/
theorem run_conserves_cards_kings :
    ∃ r, Machine.run (step goldTable) {} [.gameStart (fun n => 15 * n * n) 0, .callScore 0 true 3,
        .outCard 0 true 4 [0x3D, 0x2D, 0x0D, 0x13], .passCard 1 true] = some r ∧
      (r.1.gameStatus ≠ .free → r.1.Conserved r.2) ∧
      ∀ chair cards, r.1.PlayMeets goldTable chair cards ↔ r.1.Genuine chair cards :=
  run_conserves_cards ((sound_init []).along_of_clean _ (by simp [Clean, maxCount]))

/-- **A zero byte is played as a card.** Three kings and a byte zero are
taken for three kings with a card: the hand counts four cards less and has
lost its last one, which nobody played. -/
theorem zero_byte_is_played : ∃ r t,
    Machine.run (step goldTable) {} [.gameStart (fun n => 15 * n * n) 0, .callScore 0 true 3] = some r ∧
      r.1.outCard 0 [0x3D, 0x2D, 0x0D, 0x00] = some (some t) ∧
      ¬ (r.1.hand 0).Perm ([0x3D, 0x2D, 0x0D, 0x00] ++ t.hand 0) ∧
      (0x13 : UInt8) ∈ r.1.hand 0 ∧ (0x13 : UInt8) ∉ t.hand 0 ∧
      ¬ r.1.PlayMeets goldTable 0 [0x3D, 0x2D, 0x0D, 0x00] := by
  have hrun : ((Machine.run (step goldTable) {}
      [.gameStart (fun n => 15 * n * n) 0, .callScore 0 true 3]).bind
        fun r => (r.1.outCard 0 [0x3D, 0x2D, 0x0D, 0x00]).bind fun t => t.map fun t =>
          decide (¬ (r.1.hand 0).Perm ([0x3D, 0x2D, 0x0D, 0x00] ++ t.hand 0) ∧
            (0x13 : UInt8) ∈ r.1.hand 0 ∧ (0x13 : UInt8) ∉ t.hand 0)) = some true := by
    decide +kernel
  obtain ⟨r, hr, hrest⟩ := Option.bind_eq_some_iff.1 hrun
  obtain ⟨t, ht, hrest⟩ := Option.bind_eq_some_iff.1 hrest
  obtain ⟨t, rfl, heq⟩ := Option.map_eq_some_iff.1 hrest
  obtain ⟨hperm, hin, hout⟩ := of_decide_eq_true heq
  refine ⟨r, t, hr, ht, hperm, hin, hout, fun ⟨result, hresult, _, hmeets⟩ => ?_⟩
  rw [ht] at hresult
  cases hresult
  exact hperm (hmeets t rfl).1

end TableSink

end GameServer.DouDizhu
