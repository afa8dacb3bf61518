import GameServer.GuanDan.Rounds
/-!
# Guandan — the cards of a hand

The four hands, the cards played and, between the two payments of a double
tribute, the card that is kept in `m_cbTributeCard` are the deck in every
state of a run (`run_accounts_cards`), as long as tribute names a card of
the sender and no play counts a zero byte as a card (`Honest`).
-/

namespace GameServer.GuanDan

open Finset

variable {cards data rest : List UInt8} {card : UInt8} {count : ℕ}
variable {l : HandLog} {scores : Chair → ℤ} {e : Event}

theorem sortCardList_perm (mainValue : ℕ) (cards : List UInt8) :
    (sortCardList mainValue cards).Perm cards :=
  bubbleSort_perm _ _

theorem of_mem_cardData : ∀ c ∈ cardData, c ≠ 0 ∧ c ≤ 0x4F := by decide +kernel

/-- What is removed from a hand, and what is left in front. -/
theorem removeCard_perm (h : removeCard cards data count = some rest) (hcount : count ≤ data.length)
    (hzero : 0 ∉ cards) (hdeck : ∀ c ∈ data.take count, c ≠ 0 ∧ c ≤ 0x4F) :
    ∃ left, (data.take count).Perm (cards ++ left) ∧ left <+: rest ∧ rest.length = data.length := by
  rw [removeCard] at h
  split_ifs at h with hnil
  · cases h
    exact ⟨data.take count, by rw [hnil, List.nil_append], List.take_prefix _ _, rfl⟩
  · obtain ⟨left, hleft, rfl⟩ := Option.map_eq_some_iff.1 h
    have hblank : 0 ∉ data.take count := fun hmem => (hdeck 0 hmem).1 rfl
    obtain ⟨hperm, -⟩ := removeMarked_perm hblank hleft
    rw [filter_ne_eq_self hzero] at hperm
    have hkeep : left.filter (· ≤ 0x4F) = left := by
      refine List.filter_eq_self.2 fun c hc => ?_
      simpa using (hdeck c (hperm.mem_iff.2 (List.mem_append_right _ hc))).2
    refine ⟨left, hperm, ?_, ?_⟩
    · rw [hkeep, List.append_assoc]
      exact List.prefix_append _ _
    · have hlen := hperm.length_eq
      rw [hkeep]
      simp only [List.length_append, List.length_replicate, List.length_drop, List.length_take]
        at hlen ⊢
      omega

theorem removeCard_isSome (hmem : card ∈ data.take count) (hcount : count ≤ maxCount)
    (hdeck : ∀ c ∈ data.take count, c ≠ 0 ∧ c ≤ 0x4F) : (removeCard [card] data count).isSome := by
  have hzero := (hdeck card hmem).1
  have hpos : 0 < count := by
    rw [Nat.pos_iff_ne_zero]
    rintro rfl
    exact List.not_mem_nil hmem
  rw [removeCard, if_neg (List.cons_ne_nil _ _), if_neg (by simp; omega), Option.isSome_map,
    removeMarked_isSome_iff fun hmem => (hdeck 0 hmem).1 rfl]
  refine ⟨?_, by simpa using hzero⟩
  rw [filter_ne_eq_self (by simpa using hzero.symm)]
  exact List.singleton_subperm_iff.2 hmem

def Event.isMessage : Event → Bool
  | .outCard _ _ _ _ _ | .passCard _ _ | .payTribute _ _ _ | .returnTribute _ _ _
  | .trustee _ _ _ _ => true
  | _ => false

/-- What adds to the cards played, or begins a hand. -/
def Output.isPlay : Output → Bool
  | .sendCard _ | .outCard _ _ => true
  | _ => false

namespace TableSink

variable {s s' t : TableSink} {chair i j : Chair} {history out : List Output}

def played (history : List Output) : List UInt8 :=
  history.foldl (fun played o => match o with
    | .sendCard _ => []
    | .outCard _ cards => played ++ cards
    | _ => played) []

/-- The cards handed over that nobody has got yet. -/
def waiting (s : TableSink) : Multiset UInt8 :=
  ∑ i, if s.gameStatus = .tribute ∧ (∀ k, s.retTributeTarget k = none) ∧ s.tributeStatus i = true
    then {s.tributeCard i} else 0

/-- The cards in the hands and on the way between two hands. -/
def held (s : TableSink) : Multiset UInt8 := (∑ i, (s.hand i : Multiset UInt8)) + s.waiting

/-- **Every card of the deck is somewhere**: in a hand, handed over, or
played. -/
def Conserved (s : TableSink) (history : List Output) : Prop :=
  s.held + played history = (cardData : Multiset UInt8)

/-- What every state keeps, with the outputs so far. -/
structure Sound (s : TableSink) (history : List Output) : Prop where
  length_data : ∀ i, (s.handCardData i).length = maxCount
  dealt : s.gameStatus ≠ .free → s.Conserved history

theorem played_append (history out : List Output) :
    played (history ++ out) = out.foldl (fun played o => match o with
      | .sendCard _ => []
      | .outCard _ cards => played ++ cards
      | _ => played) (played history) :=
  List.foldl_append

@[simp] theorem played_outCard (history : List Output) (chair : Chair) (cards : List UInt8) :
    played (history ++ [.outCard chair cards]) = played history ++ cards :=
  played_append _ _

theorem played_of_quiet (hout : ∀ o ∈ out, o.isPlay = false) (history : List Output) :
    played (history ++ out) = played history := by
  rw [played_append]
  induction out with
  | nil => rfl
  | cons o out ih =>
    obtain ⟨ho, hrest⟩ := List.forall_mem_cons.1 hout
    cases o with
    | sendCard => exact Bool.noConfusion ho
    | outCard => exact Bool.noConfusion ho
    | _ => exact ih hrest

theorem played_of_moves {payers receivers : List Chair}
    (hout : ∀ o ∈ out, o.Moves payers receivers) (history : List Output) :
    played (history ++ out) = played history := by
  refine played_of_quiet (fun o ho => ?_) history
  have := hout o ho
  cases o with
  | sendCard => exact False.elim this
  | outCard => exact False.elim this
  | _ => rfl

/-! ## Hands -/

theorem Sound.length_hand (hs : s.Sound history) (hle : s.handCardCount i ≤ maxCount) :
    (s.hand i).length = s.handCardCount i := by
  rw [hand, List.length_take, hs.length_data i]
  exact Nat.min_eq_left hle

theorem Sound.mem_deck (hs : s.Sound history) (hfree : s.gameStatus ≠ .free) (i : Chair) :
    ∀ c ∈ s.hand i, c ≠ 0 ∧ c ≤ 0x4F := by
  intro c hc
  have hle : (s.hand i : Multiset UInt8) ≤ cardData := by
    rw [← hs.dealt hfree, held, ← add_sum_erase _ _ (mem_univ i), add_assoc, add_assoc]
    exact Multiset.le_add_right _ _
  exact of_mem_cardData c (Multiset.mem_of_le hle (Multiset.mem_coe.2 hc))

theorem hand_of_prefix {left : List UInt8} (hleft : left <+: s.handCardData i)
    (hlen : left.length = s.handCardCount i) : s.hand i = left := by
  rw [hand, ← hlen]
  exact (List.prefix_iff_eq_take.1 hleft).symm

/-- **A card that is handed over** leaves its hand. -/
theorem Sound.handOver (hs : s.Sound history) (hfree : s.gameStatus ≠ .free)
    (hle : s.handCardCount chair ≤ maxCount) (hmem : card ∈ s.hand chair) :
    (s.hand chair).Perm (card :: (s.handOver chair card).hand chair) ∧
      (∀ i, i ≠ chair → (s.handOver chair card).hand i = s.hand i) ∧
      ∀ i, ((s.handOver chair card).handCardData i).length = maxCount := by
  have hdeck := hs.mem_deck hfree chair
  have hlen := hs.length_hand hle
  have hcount : s.handCardCount chair ≤ (s.handCardData chair).length := by
    rw [hs.length_data]
    exact hle
  obtain ⟨rest, hrest⟩ := Option.isSome_iff_exists.1 (removeCard_isSome hmem hle hdeck)
  have hzero : (0 : UInt8) ∉ [card] := by simpa using (hdeck card hmem).1.symm
  obtain ⟨left, hperm, hleft, hrestlen⟩ := removeCard_perm hrest hcount hzero hdeck
  have hdata : (s.handOver chair card).handCardData = Function.update s.handCardData chair rest := by
    change Function.update s.handCardData chair ((removeCard _ _ _).getD _) = _
    rw [hrest, Option.getD_some]
  have hleftlen : left.length + 1 = s.handCardCount chair := by
    rw [← hlen, hand, hperm.length_eq]
    rfl
  refine ⟨?_, fun i hi => ?_, fun i => ?_⟩
  · have hhand : (s.handOver chair card).hand chair = left := by
      refine hand_of_prefix ?_ ?_
      · rw [hdata, Function.update_self]
        exact hleft
      · rw [handOver_count chair card s chair (by omega) (by simp only [maxCount] at hle; omega),
          if_pos rfl]
        omega
    rw [hhand]
    exact hperm
  · rw [hand, hdata, Function.update_of_ne hi]
    change (s.handCardData i).take (Function.update s.handCardCount chair _ i) = _
    rw [Function.update_of_ne hi]
    rfl
  · rw [hdata, Function.update_apply]
    split_ifs
    · rw [hrestlen, hs.length_data]
    · exact hs.length_data i

theorem withCard_data (chair : Chair) (card : UInt8) (s : TableSink) :
    (s.withCard chair card).handCardData = Function.update s.handCardData chair
      (sortCardList s.mainValue (s.hand chair ++ [card]) ++
        (s.handCardData chair).drop (s.handCardCount chair + 1)) :=
  rfl

theorem hand_withCard (hdata : t.handCardData i = (s.withCard i card).handCardData i)
    (hcount : t.handCardCount i = s.handCardCount i + 1)
    (hle : s.handCardCount i ≤ (s.handCardData i).length) : (t.hand i).Perm (card :: s.hand i) := by
  have hperm := sortCardList_perm s.mainValue (s.hand i ++ [card])
  have hlen : (s.hand i).length = s.handCardCount i := by
    rw [hand, List.length_take, Nat.min_eq_left hle]
  have hhand : t.hand i = sortCardList s.mainValue (s.hand i ++ [card]) := by
    refine hand_of_prefix ?_ ?_
    · rw [hdata, withCard_data, Function.update_self]
      exact List.prefix_append _ _
    · rw [hperm.length_eq, hcount, List.length_append, hlen]
      rfl
  rw [hhand]
  exact hperm.trans (List.perm_append_singleton card _)

theorem length_withCard (chair : Chair) (card : UInt8) (i : Chair)
    (hlt : s.handCardCount chair < (s.handCardData chair).length) :
    ((s.withCard chair card).handCardData i).length = (s.handCardData i).length := by
  rw [withCard_data, Function.update_apply]
  split_ifs with hi
  · rw [List.length_append, (sortCardList_perm _ _).length_eq, hi, hand]
    simp only [List.length_append, List.length_take, List.length_drop, List.length_singleton]
    omega
  · rfl

/-! ## Cards on the way -/

/-- Nothing is on the way out of tribute, once a card has its target, and
before anybody has paid. -/
theorem waiting_eq_zero (h : s.gameStatus ≠ .tribute ∨ (∃ k, s.retTributeTarget k ≠ none) ∨
    ∀ i, s.tributeStatus i = false) : s.waiting = 0 := by
  refine sum_eq_zero fun i _ => if_neg ?_
  rintro ⟨hstatus, htarget, hpaid⟩
  obtain h | ⟨k, hk⟩ | h := h
  · exact h hstatus
  · exact hk (htarget k)
  · exact Bool.noConfusion ((h i).symm.trans hpaid)

theorem waiting_eq_map {l : List Chair} (hstatus : s.gameStatus = .tribute)
    (htarget : ∀ k, s.retTributeTarget k = none) (hnodup : l.Nodup)
    (hpaid : ∀ i, s.tributeStatus i = true ↔ i ∈ l) :
    s.waiting = (l.map s.tributeCard : List UInt8) := by
  have hterm : ∀ i, (if s.gameStatus = .tribute ∧ (∀ k, s.retTributeTarget k = none) ∧
      s.tributeStatus i = true then ({s.tributeCard i} : Multiset UInt8) else 0) =
        if i ∈ l.toFinset then {s.tributeCard i} else 0 := by
    intro i
    refine if_congr ?_ rfl rfl
    rw [List.mem_toFinset, ← hpaid]
    exact ⟨fun h => h.2.2, fun h => ⟨hstatus, htarget, h⟩⟩
  have hlist : ∀ l : List Chair, (l.map fun i => ({s.tributeCard i} : Multiset UInt8)).sum =
      (l.map s.tributeCard : List UInt8) := by
    intro l
    induction l with
    | nil => rfl
    | cons a l ih =>
      rw [List.map_cons, List.sum_cons, ih, List.map_cons]
      rfl
  rw [waiting, sum_congr rfl fun i _ => hterm i, sum_ite_mem, univ_inter,
    List.sum_toFinset _ hnodup, hlist]

/-- **A card that is handed over is on the way.** -/
theorem Sound.held_handOver (hs : s.Sound history) (hstatus : s.gameStatus = .tribute)
    (htarget : ∀ k, s.retTributeTarget k = none) (hunpaid : s.tributeStatus chair = false)
    (hle : s.handCardCount chair ≤ maxCount) (hmem : card ∈ s.hand chair) :
    (s.handOver chair card).held = s.held := by
  have hfree : s.gameStatus ≠ .free := by
    rw [hstatus]
    nofun
  obtain ⟨hperm, hrest, -⟩ := hs.handOver hfree hle hmem
  have hhands : ∑ i, (s.hand i : Multiset UInt8) =
      {card} + ∑ i, ((s.handOver chair card).hand i : Multiset UInt8) :=
    sum_taken_from (Multiset.coe_eq_coe.2 hperm) fun i hi => by rw [hrest i hi]
  have hwaiting : (s.handOver chair card).waiting = {card} + s.waiting := by
    refine sum_taken_from (c := chair) ?_ fun i hi => ?_
    · rw [if_pos ⟨hstatus, htarget, (handOver_status card).2 (Or.inl rfl)⟩,
        if_neg (by rw [hunpaid]; exact fun h => Bool.noConfusion h.2.2), add_zero]
      change {Function.update s.tributeCard chair card chair} = _
      rw [Function.update_self]
    · change _ = if s.gameStatus = .tribute ∧ (∀ k, s.retTributeTarget k = none) ∧
        Function.update s.tributeStatus chair true i = true then
          {Function.update s.tributeCard chair card i} else 0
      rw [Function.update_of_ne hi, Function.update_of_ne hi]
  rw [held, held, hhands, hwaiting]
  abel

theorem sum_hand_withCard (hdata : t.handCardData = (s.withCard i card).handCardData)
    (hcount : t.handCardCount = (s.countUp i).handCardCount)
    (hle : s.handCardCount i ≤ (s.handCardData i).length) :
    ∑ k, (t.hand k : Multiset UInt8) = {card} + ∑ k, (s.hand k : Multiset UInt8) := by
  have hself : t.handCardCount i = s.handCardCount i + 1 := by
    rw [hcount]
    exact Function.update_self _ _ _
  refine sum_taken_from (c := i) ?_ fun k hk => ?_
  · exact Multiset.coe_eq_coe.2 (hand_withCard (congrFun hdata i) hself hle)
  · rw [hand, hand, hdata, hcount, withCard_data, Function.update_of_ne hk]
    change _ = ((_ : List UInt8).take (Function.update s.handCardCount i _ k) : Multiset UInt8)
    rw [Function.update_of_ne hk]

theorem withCard_comm {x y : UInt8} (hne : i ≠ j) :
    (s.withCard i x).withCard j y = (s.withCard j y).withCard i x := by
  simp only [withCard, Function.update_of_ne hne, Function.update_of_ne hne.symm]
  rw [Function.update_comm hne]

theorem paidBoth_eq_withCard (u : TableSink) (big small : Chair)
    (hne : u.ranking 0 ≠ u.ranking 1) : u.paidBoth big small =
      ((u.withCard (u.ranking 0) (u.tributeCard big)).withCard (u.ranking 1)
        (u.tributeCard small)).payBoth big small := by
  rw [paidBoth]
  split_ifs
  · rfl
  · rw [withCard_comm hne]

theorem sum_hand_paidBoth {u : TableSink} (big small : Chair) (hne : u.ranking 0 ≠ u.ranking 1)
    (hlt : ∀ i, u.handCardCount i < maxCount)
    (hlen : ∀ i, (u.handCardData i).length = maxCount) :
    ∑ k, ((u.paidBoth big small).hand k : Multiset UInt8) =
      {u.tributeCard small} + ({u.tributeCard big} + ∑ k, (u.hand k : Multiset UInt8)) := by
  have hfirst : ∑ k, (((u.withCard (u.ranking 0) (u.tributeCard big)).countUp
      (u.ranking 0)).hand k : Multiset UInt8) =
        {u.tributeCard big} + ∑ k, (u.hand k : Multiset UInt8) :=
    sum_hand_withCard rfl rfl (by rw [hlen]; exact (hlt _).le)
  have hcount : ((u.withCard (u.ranking 0) (u.tributeCard big)).countUp
      (u.ranking 0)).handCardCount (u.ranking 1) = u.handCardCount (u.ranking 1) :=
    Function.update_of_ne hne.symm _ _
  rw [paidBoth_eq_withCard u big small hne, ← hfirst]
  refine sum_hand_withCard (i := u.ranking 1) ?_ rfl ?_
  · rw [withCard_data, hand, hcount]
    rfl
  · rw [hcount]
    change _ ≤ ((u.withCard (u.ranking 0) (u.tributeCard big)).handCardData (u.ranking 1)).length
    rw [length_withCard _ _ _ (by rw [hlen]; exact hlt _), hlen]
    exact (hlt _).le

/-! ## What tribute keeps -/

theorem Sound.of_held (hs : s.Sound history) (hfree : s.gameStatus ≠ .free)
    (hlen : ∀ i, (t.handCardData i).length = maxCount) (hheld : t.held = s.held)
    (hplayed : played (history ++ out) = played history) : t.Sound (history ++ out) :=
  ⟨hlen, fun _ => by rw [Conserved, hheld, hplayed]; exact hs.dealt hfree⟩

/-- **A payment** loses no card. -/
theorem Sound.pay (hs : s.Sound history) (h : s.Paying) (hseat : s.Seated) (hmem : chair ∈ s.payers)
    (hunpaid : s.tributeStatus chair = false) (hnodup : s.receivers.Nodup)
    (hcard : card ∈ s.hand chair) (hpay : s.onSubPayTribute chair card = some (s', out)) :
    s'.Sound (history ++ out) := by
  have hfree : s.gameStatus ≠ .free := by
    rw [h.status]
    nofun
  have hle : s.handCardCount chair ≤ maxCount := by
    rw [h.unpaid_count hunpaid]
    decide
  obtain ⟨-, -, hlen⟩ := hs.handOver hfree hle hcard
  have hheld : (s.handOver chair card).held = s.held :=
    hs.held_handOver h.status h.target hunpaid hle hcard
  have hlt : ∀ i, (s.handOver chair card).handCardCount i < maxCount := by
    intro i
    have := h.handOver_count hunpaid card i
    simp only [maxCount]
    omega
  have hplayed : played (history ++ out) = played history := by
    obtain ⟨_, _, hpay', -, -, hout⟩ := h.pay hseat hmem hunpaid card
    rw [hpay] at hpay'
    cases hpay'
    exact played_of_moves hout history
  have hlen' : ∀ c x i, ((((s.handOver chair card).withCard c x)).handCardData i).length =
      maxCount := by
    intro c x i
    rw [length_withCard _ _ _ (by rw [hlen]; exact hlt _), hlen]
  obtain ⟨hpayers, hreceivers, hpay'⟩ | ⟨hwait, hpay'⟩ | ⟨big, small, hne, hpayers, hreceivers, hall,
    hpay'⟩ := h.pay_cases hmem hunpaid card
  · rw [hpay] at hpay'
    cases hpay'
    refine hs.of_held hfree (hlen' _ _) ?_ hplayed
    have hpaid : ∀ i, (s.handOver chair card).tributeStatus i = true ↔ i ∈ [chair] := by
      intro i
      rw [handOver_status, List.mem_singleton]
      refine or_iff_left_of_imp fun hi => ?_
      simpa [hpayers] using h.mem i hi
    have hbefore : (s.handOver chair card).waiting = {card} := by
      rw [waiting_eq_map (s := s.handOver chair card) h.status h.target (List.nodup_singleton _) hpaid]
      change {Function.update s.tributeCard chair card chair} = _
      rw [Function.update_self]
    have hafter : ((s.handOver chair card).paidFirst chair card).waiting = 0 := by
      refine waiting_eq_zero (Or.inr (Or.inl ⟨s.ranking 0, ?_⟩))
      change Function.update s.retTributeTarget (s.ranking 0) (some chair) (s.ranking 0) ≠ none
      rw [Function.update_self]
      nofun
    have hsum : ∑ i, (((s.handOver chair card).paidFirst chair card).hand i : Multiset UInt8) =
        {card} + ∑ i, ((s.handOver chair card).hand i : Multiset UInt8) :=
      sum_hand_withCard rfl rfl (by rw [hlen]; exact (hlt _).le)
    rw [← hheld, held, held, hafter, hbefore, hsum]
    abel
  · rw [hpay] at hpay'
    cases hpay'
    exact hs.of_held hfree hlen hheld hplayed
  · rw [hpay] at hpay'
    cases hpay'
    have hranks : s.ranking 0 ≠ s.ranking 1 := by
      rw [hreceivers] at hnodup
      simpa using hnodup
    refine hs.of_held hfree (fun i => ?_) ?_ hplayed
    · rw [paidBoth_eq_withCard (s.handOver chair card) big small hranks]
      change ((((s.handOver chair card).withCard (s.ranking 0) _).withCard (s.ranking 1)
        _).handCardData i).length = maxCount
      have hroom := hlt (s.ranking 1)
      rw [length_withCard _ _ _ (by rw [hlen']; exact hroom), hlen']
    have hpaid : ∀ i, (s.handOver chair card).tributeStatus i = true ↔ i ∈ [big, small] := by
      intro i
      rw [List.mem_pair, ← hpayers]
      refine ⟨fun hi => ?_, hall i⟩
      exact ((handOver_status card).1 hi).elim (fun hi => hi ▸ hmem) (h.mem i)
    have hbefore : (s.handOver chair card).waiting =
        {(s.handOver chair card).tributeCard big} + {(s.handOver chair card).tributeCard small} := by
      rw [waiting_eq_map (s := s.handOver chair card) h.status h.target (by simpa using hne) hpaid]
      rfl
    have hafter : ((s.handOver chair card).paidBoth big small).waiting = 0 := by
      refine waiting_eq_zero (Or.inr (Or.inl ⟨s.ranking 1, ?_⟩))
      obtain ⟨data, hdata⟩ := paidBoth_eq (s.handOver chair card) big small
      rw [hdata]
      change Function.update (Function.update s.retTributeTarget (s.ranking 0) (some big))
        (s.ranking 1) (some small) (s.ranking 1) ≠ none
      rw [Function.update_self]
      nofun
    rw [← hheld, held, held, hafter, hbefore, sum_hand_paidBoth (u := s.handOver chair card) big small hranks hlt hlen]
    abel

/-- **A return** loses no card. -/
theorem Sound.giveBack (hs : s.Sound history) (h : s.Returning) (hseat : s.Seated)
    (hmem : chair ∈ s.receivers) (hunreturned : s.tributeStatus chair = false)
    (hnodup : s.receivers.Nodup) (hcard : card ∈ s.hand chair)
    (hback : s.onSubReturnTribute chair card = some (s', out)) : s'.Sound (history ++ out) := by
  have hfree : s.gameStatus ≠ .free := by
    rw [h.status]
    simp
  have hle := h.toBalanced.count_le hseat hnodup
  obtain ⟨j, htarget⟩ := Option.ne_none_iff_exists'.1 ((h.target_isSome chair).1 hmem)
  have hresult : s.result ≠ none := by
    intro hnone
    rw [receivers, hnone] at hmem
    exact List.not_mem_nil hmem
  have hroom := h.toBalanced.target_room hseat hmem htarget hunreturned card
  obtain ⟨hperm, hrest, hlen⟩ := hs.handOver hfree (hle chair) hcard
  have hplayed : played (history ++ out) = played history := by
    obtain ⟨_, _, hback', -, -, hout⟩ := h.giveBack hseat hmem hunreturned card
    rw [hback] at hback'
    cases hback'
    exact played_of_moves hout history
  have hbefore : s.waiting = 0 := waiting_eq_zero (Or.inr (Or.inl ⟨chair, by rw [htarget]; simp⟩))
  have htaken : ∑ i, (s.hand i : Multiset UInt8) =
      {card} + ∑ i, ((s.handOver chair card).hand i : Multiset UInt8) :=
    sum_taken_from (Multiset.coe_eq_coe.2 hperm) fun i hi => by rw [hrest i hi]
  have hgiven : ∑ i, ((s.gaveBack chair j card).hand i : Multiset UInt8) =
      {card} + ∑ i, ((s.handOver chair card).hand i : Multiset UInt8) :=
    sum_hand_withCard rfl rfl (by rw [hlen]; exact hroom.le)
  have hdata : ∀ i, ((s.gaveBack chair j card).handCardData i).length = maxCount := by
    intro i
    change ((((s.handOver chair card).withCard j card)).handCardData i).length = maxCount
    rw [length_withCard _ _ _ (by rw [hlen]; exact hroom), hlen]
  rw [onSubReturnTribute_eq hunreturned htarget hresult hroom] at hback
  cases huser : (s.gaveBack chair j card).currentUser with
  | none =>
    rw [huser] at hback
    cases hback
    refine hs.of_held hfree hdata ?_ hplayed
    have hafter : (s.gaveBack chair j card).waiting = 0 :=
      waiting_eq_zero (Or.inr (Or.inl ⟨chair, by
        change s.retTributeTarget chair ≠ none
        rw [htarget]
        simp⟩))
    rw [held, held, hbefore, hafter, htaken, hgiven]
  | some user =>
    rw [huser] at hback
    cases hback
    refine hs.of_held hfree hdata ?_ hplayed
    have hafter : ((((s.gaveBack chair j card).killGameTimer .backTribute).startOut user).1).waiting =
        0 := waiting_eq_zero (Or.inl (by rintro ⟨⟩))
    rw [held, held, hbefore, hafter, htaken, ← hgiven]
    rfl

/-! ## The deal -/

/-- **The deal** hands out the deck. -/
theorem Sound.deal (hs : s.Sound history) (rand : ℕ → ℕ) :
    (s.onEventGameStart rand).Sound (history ++ [.sendCard s.series]) := by
  have hdeck : (randCardList rand).Perm cardData := shuffle_perm rand fullCount cardData rfl
  have hlen : (randCardList rand).length = 108 := hdeck.length_eq
  have hslice : ∀ i : Chair, (((randCardList rand).drop (i * 27)).take 27).length = 27 := by
    intro i
    have := i.isLt
    simp only [List.length_take, List.length_drop, gamePlayer] at this ⊢
    omega
  have hhand : ∀ i, ((s.onEventGameStart rand).hand i : Multiset UInt8) =
      (((randCardList rand).drop (i * 27)).take 27 : List UInt8) := by
    intro i
    change ((((((randCardList rand).drop (i * 27)).take 27) ++ (s.handCardData i).drop 27).take 27 :
      List UInt8) : Multiset UInt8) = _
    rw [List.take_left' (hslice i)]
  have hwaiting : (s.onEventGameStart rand).waiting = 0 := waiting_eq_zero (Or.inl nofun)
  have hplayed : played (history ++ [.sendCard s.series]) = [] := played_append _ _
  have hrest : (randCardList rand).drop (gamePlayer * 27) = [] :=
    List.drop_eq_nil_of_le hlen.le
  refine ⟨fun i => ?_, fun _ => ?_⟩
  · change (((randCardList rand).drop (i * 27)).take 27 ++ (s.handCardData i).drop 27).length = _
    rw [List.length_append, hslice, List.length_drop, hs.length_data]
    rfl
  · have hsum := sum_slices 27 (randCardList rand) gamePlayer
    rw [hrest, Multiset.coe_nil, add_zero] at hsum
    rw [Conserved, held, hwaiting, hplayed, Multiset.coe_nil, add_zero, add_zero,
      Fintype.sum_congr _ _ hhand, hsum]
    exact Multiset.coe_eq_coe.2 hdeck

theorem Sound.of_frame (hs : s.Sound history) (hstatus : t.gameStatus ≠ .free → s.gameStatus ≠ .free)
    (hlen : ∀ i, (t.handCardData i).length = maxCount) (hhand : ∀ i, (t.hand i).Perm (s.hand i))
    (hwaiting : t.waiting = s.waiting) (hquiet : ∀ o ∈ out, o.isPlay = false) :
    t.Sound (history ++ out) := by
  refine ⟨hlen, fun h => ?_⟩
  have hsum : ∑ i, (t.hand i : Multiset UInt8) = ∑ i, (s.hand i : Multiset UInt8) :=
    Fintype.sum_congr _ _ fun i => Multiset.coe_eq_coe.2 (hhand i)
  rw [Conserved, held, hsum, hwaiting, played_of_quiet hquiet, ← held]
  exact hs.dealt (hstatus h)

theorem hand_setUser (rand : ℕ) (i : Chair) (hle : s.handCardCount i ≤ (s.handCardData i).length) :
    ((s.setUser rand).hand i).Perm (s.hand i) ∧
      ((s.setUser rand).handCardData i).length = (s.handCardData i).length := by
  have hperm := sortCardList_perm s.mainValue (s.hand i)
  have hlen : (s.hand i).length = s.handCardCount i := by
    rw [hand, List.length_take, Nat.min_eq_left hle]
  refine ⟨?_, ?_⟩
  · have hhand : (s.setUser rand).hand i = sortCardList s.mainValue (s.hand i) :=
      hand_of_prefix (List.prefix_append _ _) (hperm.length_eq.trans hlen)
    rw [hhand]
    exact hperm
  · change (sortCardList s.mainValue (s.hand i) ++ (s.handCardData i).drop (s.handCardCount i)).length
      = _
    rw [List.length_append, hperm.length_eq, hlen, List.length_drop]
    omega

/-- **The beginning of a hand** sorts the hands. -/
theorem Sound.onGameStart (hs : s.Sound history) (h : s.Dealt) (rand : ℕ) :
    (s.onGameStart rand).1.Sound (history ++ (s.onGameStart rand).2) := by
  have hle : ∀ i, s.handCardCount i ≤ (s.handCardData i).length := by
    intro i
    rw [h.count, hs.length_data]
    decide
  have hhand : ∀ i, ((s.setUser rand).hand i).Perm (s.hand i) := fun i => (hand_setUser rand i (hle i)).1
  have hlen : ∀ i, ((s.setUser rand).handCardData i).length = maxCount := fun i =>
    (hand_setUser rand i (hle i)).2.trans (hs.length_data i)
  have hbefore : s.waiting = 0 := waiting_eq_zero (Or.inl (by rw [h.status]; nofun))
  have hfree : s.gameStatus ≠ .free := by
    rw [h.status]
    nofun
  cases hresult : s.result with
  | none =>
    rw [onGameStart_of_none hresult]
    refine hs.of_frame (fun _ => hfree) hlen hhand ?_ (List.forall_mem_singleton.2 rfl)
    rw [hbefore]
    exact waiting_eq_zero (Or.inl nofun)
  | some result =>
    by_cases hkang : (s.setUser rand).kangGong result = true
    · rw [onGameStart_of_kangGong hresult rand hkang]
      refine hs.of_frame (fun _ => hfree) hlen hhand ?_
        (List.forall_mem_cons.2 ⟨rfl, List.forall_mem_singleton.2 rfl⟩)
      rw [hbefore]
      exact waiting_eq_zero (Or.inl nofun)
    · rw [onGameStart_of_tribute hresult rand hkang]
      refine hs.of_frame (fun _ => hfree) hlen hhand ?_ (List.forall_mem_singleton.2 rfl)
      rw [hbefore]
      exact waiting_eq_zero (Or.inr (Or.inr h.unpaid))

/-! ## Plays -/

/-- A legal play that begins with a card and is owned but for zeros has no
zeros. -/
def Genuine (s : TableSink) (chair : Chair) (cards : List UInt8) : Prop :=
  s.currentUser = some chair → s.legalPlay cards ≠ some none →
    (cards.filter (· ≠ 0)).Subperm (s.hand chair) → cards.head? ≠ some 0 → 0 ∉ cards

/-- **Cards that are taken out** leave their hand. -/
theorem Sound.takeOut {magic : List UInt8} (hs : s.Sound history) (hfree : s.gameStatus ≠ .free)
    (hle : s.handCardCount chair ≤ maxCount) (hzero : 0 ∉ cards)
    (h : s.takeOut chair cards magic = some t) :
    (s.hand chair).Perm (cards ++ t.hand chair) ∧ (∀ i, i ≠ chair → t.hand i = s.hand i) ∧
      ∀ i, (t.handCardData i).length = maxCount := by
  obtain ⟨data, hdata, rfl⟩ := Option.map_eq_some_iff.1 h
  have hlen := hs.length_hand hle
  have hcount : s.handCardCount chair ≤ (s.handCardData chair).length := by
    rw [hs.length_data]
    exact hle
  obtain ⟨left, hperm, hleft, hdatalen⟩ := removeCard_perm hdata hcount hzero (hs.mem_deck hfree chair)
  have hlefts : cards.length + left.length = s.handCardCount chair := by
    rw [← hlen, hand, hperm.length_eq, List.length_append]
  refine ⟨?_, fun i hi => ?_, fun i => ?_⟩
  · change (s.hand chair).Perm (cards ++ (Function.update s.handCardData chair data chair).take
      (Function.update s.handCardCount chair (s.handCardCount chair - cards.length) chair))
    have hcut : s.handCardCount chair - cards.length = left.length := by omega
    rw [Function.update_self, Function.update_self, hcut, ← List.prefix_iff_eq_take.1 hleft]
    exact hperm
  · change (Function.update s.handCardData chair data i).take
      (Function.update s.handCardCount chair _ i) = _
    rw [Function.update_of_ne hi, Function.update_of_ne hi]
    rfl
  · change (Function.update s.handCardData chair data i).length = _
    rw [Function.update_apply]
    split_ifs
    · rw [hdatalen, hs.length_data]
    · exact hs.length_data i

theorem Sound.subperm_of_takeOut {magic : List UInt8} (hs : s.Sound history)
    (hfree : s.gameStatus ≠ .free) (hcards : cards ≠ []) (h : s.takeOut chair cards magic = some t) :
    (cards.filter (· ≠ 0)).Subperm (s.hand chair) ∧ cards.head? ≠ some 0 := by
  obtain ⟨data, hdata, -⟩ := Option.map_eq_some_iff.1 h
  have hblank : 0 ∉ s.hand chair := fun hmem => (hs.mem_deck hfree chair 0 hmem).1 rfl
  rw [removeCard, if_neg hcards] at hdata
  split_ifs at hdata
  obtain ⟨left, hleft, -⟩ := Option.map_eq_some_iff.1 hdata
  exact (removeMarked_isSome_iff hblank).1 (by rw [hand, hleft]; rfl)

/-- What a play that is taken did. -/
theorem outCard_some (h : s.outCard chair cards = some (some (t, out))) :
    s.gameStatus = .playing ∧ s.currentUser = some chair ∧ ∃ magic u rest,
      s.legalPlay cards = some (some magic) ∧ s.takeOut chair cards magic = some u ∧
      t.handCardData = u.handCardData ∧ t.handCardCount = u.handCardCount ∧
      t.gameStatus = u.gameStatus ∧ t.magicCardData = u.magicCardData ∧
      (∀ o ∈ rest, o.isPlay = false) ∧ out = rest ++ [.outCard chair cards] := by
  rw [outCard] at h
  by_cases hnot : s.gameStatus ≠ .playing ∨ s.currentUser ≠ some chair
  · rw [if_pos hnot] at h
    cases h
  rw [if_neg hnot] at h
  obtain ⟨hstatus, hc⟩ : s.gameStatus = .playing ∧ s.currentUser = some chair := by
    simpa using hnot
  cases hlegal : s.legalPlay cards with
  | none => simp [hlegal] at h
  | some magic =>
    cases magic with
    | none => simp [hlegal] at h
    | some magic =>
      cases htake : s.takeOut chair cards magic with
      | none => simp [hlegal, htake] at h
      | some u =>
        simp only [hlegal, htake, Option.bind_eq_bind, Option.bind_eq_some_iff] at h
        obtain ⟨v, hswitch, ⟨w, rest⟩, hover, h⟩ := h
        cases h
        obtain ⟨user, hswitch', -⟩ := u.switchUser_spec chair
        rw [hswitch] at hswitch'
        cases hswitch'
        refine ⟨hstatus, hc, magic, u, rest, rfl, htake, ?_⟩
        rw [outOver] at hover
        by_cases hzero : u.handCardCount chair = 0
        · rw [if_pos hzero] at hover
          by_cases hmark : u.mark < 4
          · rw [dif_pos hmark] at hover
            cases hover
            exact ⟨rfl, rfl, rfl, rfl, List.forall_mem_singleton.2 rfl, rfl⟩
          · rw [dif_neg hmark] at hover
            cases hover
        · rw [if_neg hzero] at hover
          cases hover
          exact ⟨rfl, rfl, rfl, rfl, fun _ h => absurd h List.not_mem_nil, rfl⟩

/-- **A play that is taken** moves its cards from the hand to the table. -/
theorem Sound.outCard (hs : s.Sound history) (hle : s.handCardCount chair ≤ maxCount)
    (hgenuine : s.Genuine chair cards) (h : s.outCard chair cards = some (some (t, out))) :
    t.Sound (history ++ out) ∧ (cards : Multiset UInt8) ≤ s.hand chair := by
  obtain ⟨hstatus, hc, magic, u, rest, hlegal, htake, hdata, hcount, htstatus, -, hquiet, rfl⟩ :=
    outCard_some h
  have hfree : s.gameStatus ≠ .free := by
    rw [hstatus]
    simp
  have hcards : cards ≠ [] := by
    rintro rfl
    simp [legalPlay, GuanDan.magicCardData, getCardType] at hlegal
  obtain ⟨hsub, hhead⟩ := hs.subperm_of_takeOut hfree hcards htake
  have hzero := hgenuine hc (by rw [hlegal]; simp) hsub hhead
  obtain ⟨hperm, hrest, hlen⟩ := hs.takeOut hfree hle hzero htake
  have hhand : t.hand = u.hand := by
    funext i
    rw [hand, hand, hdata, hcount]
  have hustatus : u.gameStatus = s.gameStatus := by
    obtain ⟨data, -, rfl⟩ := Option.map_eq_some_iff.1 htake
    rfl
  have hsum : ∑ i, (s.hand i : Multiset UInt8) = cards + ∑ i, (t.hand i : Multiset UInt8) := by
    refine sum_taken_from (c := chair) ?_ fun i hi => ?_
    · rw [hhand, Multiset.coe_add]
      exact Multiset.coe_eq_coe.2 hperm
    · rw [hhand, hrest i hi]
  have hbefore : s.waiting = 0 := waiting_eq_zero (Or.inl (by rw [hstatus]; simp))
  have hafter : t.waiting = 0 :=
    waiting_eq_zero (Or.inl (by rw [htstatus, hustatus, hstatus]; simp))
  refine ⟨⟨fun i => by rw [hdata]; exact hlen i, fun _ => ?_⟩, ?_⟩
  · have hdealt := hs.dealt hfree
    rw [Conserved, held, hbefore, hsum] at hdealt
    rw [Conserved, held, hafter, ← List.append_assoc, played_outCard, played_of_quiet hquiet,
      ← hdealt, ← Multiset.coe_add]
    abel
  · rw [Multiset.coe_eq_coe.2 hperm, ← Multiset.coe_add]
    exact Multiset.le_add_right _ _

theorem sound_of_free (hfree : s.gameStatus = .free) (hlen : ∀ i, (s.handCardData i).length = maxCount)
    (history : List Output) : s.Sound history :=
  ⟨hlen, fun h => absurd hfree h⟩

theorem sound_conclude {reason : EndReason}
    (h : s.onEventGameConclude reason scores = some (t, out)) (history : List Output) :
    t.Sound history := by
  simp only [onEventGameConclude] at h
  split_ifs at h
  cases reason with
  | normal =>
    cases h
    refine sound_of_free rfl (fun i => ?_) history
    exact List.length_replicate
  | dismiss =>
    cases h
    exact sound_of_free rfl (fun i => List.length_replicate) history
  | userLeave =>
    cases h
    exact sound_of_free rfl (fun i => List.length_replicate) history

/-- **A play message** loses no card. -/
theorem Sound.onSubOutCard (hs : s.Sound history) (hle : s.handCardCount chair ≤ maxCount)
    (hgenuine : s.Genuine chair cards)
    (h : s.onSubOutCard chair cards scores = some (s', out)) : s'.Sound (history ++ out) := by
  rw [TableSink.onSubOutCard] at h
  cases hplay : s.outCard chair cards with
  | none => simp [hplay] at h
  | some result =>
    cases result with
    | none =>
      simp only [hplay] at h
      cases h
      rwa [List.append_nil]
    | some r =>
      obtain ⟨t, first⟩ := r
      have ht := (hs.outCard hle hgenuine hplay).1
      simp only [hplay] at h
      cases huser : t.currentUser with
      | none =>
        simp only [huser] at h
        obtain ⟨⟨u, rest⟩, hend, h⟩ := Option.map_eq_some_iff.1 h
        cases h
        exact sound_conclude hend _
      | some user =>
        simp only [huser] at h
        cases h
        exact ⟨ht.length_data, ht.dealt⟩

/-- **A pass** leaves the hands. -/
theorem onSubPassCard_frame {chair : Option Chair} (h : s.onSubPassCard chair = some (s', out)) :
    s'.handCardData = s.handCardData ∧ s'.handCardCount = s.handCardCount ∧
      (s' = s ∨ (s.gameStatus = .playing ∧ s'.gameStatus = .playing)) ∧
      ∀ o ∈ out, o.isPlay = false := by
  rw [onSubPassCard] at h
  by_cases hnot : s.gameStatus ≠ .playing ∨ chair ≠ s.currentUser ∨ s.magicCardData = []
  · rw [if_pos hnot] at h
    cases h
    exact ⟨rfl, rfl, Or.inl rfl, by simp⟩
  · rw [if_neg hnot] at h
    have hstatus : s.gameStatus = .playing := by
      rw [not_or, not_not] at hnot
      exact hnot.1
    obtain ⟨user, -, h⟩ := Option.bind_eq_some_iff.1 h
    obtain ⟨user', -, h⟩ := Option.map_eq_some_iff.1 h
    cases h
    have hfriend : ∀ t : TableSink, t.passFriend.handCardData = t.handCardData ∧
        t.passFriend.handCardCount = t.handCardCount ∧ t.passFriend.gameStatus = t.gameStatus := by
      intro t
      rw [passFriend]
      split_ifs
      all_goals exact ⟨rfl, rfl, rfl⟩
    obtain ⟨hdata, hcount, hplaying⟩ := hfriend { s.killGameTimer .outCard with
      currentUser := some user
      magicCardData := if s.turnWiner = some user then [] else s.magicCardData }
    exact ⟨hdata, hcount, Or.inr ⟨hstatus, hplaying.trans hstatus⟩, List.forall_mem_singleton.2 rfl⟩

theorem Sound.onSubPassCard (hs : s.Sound history) {chair : Option Chair}
    (h : s.onSubPassCard chair = some (s', out)) : s'.Sound (history ++ out) := by
  obtain ⟨hdata, hcount, hstatus, hquiet⟩ := onSubPassCard_frame h
  have hhand : ∀ i, s'.hand i = s.hand i := by
    intro i
    rw [hand, hand, hdata, hcount]
  refine hs.of_frame ?_ (fun i => by rw [hdata]; exact hs.length_data i)
    (fun i => by rw [hhand i]) ?_ hquiet
  · obtain rfl | ⟨hs, -⟩ := hstatus
    · exact id
    · rw [hs]
      exact fun _ => nofun
  · obtain rfl | ⟨hs, hs'⟩ := hstatus
    · rfl
    · rw [waiting_eq_zero (s := s') (Or.inl (by rw [hs']; nofun)),
        waiting_eq_zero (s := s) (Or.inl (by rw [hs]; nofun))]

theorem Sound.onOutCardTimeOut (hs : s.Sound history) (hstage : s.InTurn l)
    (h : s.onOutCardTimeOut scores = some (s', out)) :
    s'.Sound (history ++ out) := by
  have hfree : s.gameStatus ≠ .free := by
    rw [hstage.status]
    nofun
  have hkilled : (s.killGameTimer .outCard).Sound history := ⟨hs.length_data, hs.dealt⟩
  obtain ⟨c, hc, hholds⟩ := hstage.current
  have hle := hstage.count_le c
  have hpos : s.handCardCount c ≠ 0 := holds_iff.1 hholds
  rw [TableSink.onOutCardTimeOut, if_pos hstage.status] at h
  change (if s.magicCardData = [] then _ else (s.killGameTimer .outCard).onSubPassCard s.currentUser) =
    some (s', out) at h
  by_cases hcards : s.magicCardData = []
  · rw [if_pos hcards] at h
    simp only [show (s.killGameTimer .outCard).currentUser = some c from hc] at h
    change (if s.handCardCount c = 0 ∨ maxCount < s.handCardCount c then none
      else (s.killGameTimer .outCard).onSubOutCard c
        [(s.handCardData c).getD (s.handCardCount c - 1) 0] scores) = some (s', out) at h
    rw [if_neg (by omega)] at h
    refine hkilled.onSubOutCard hle ?_ h
    have hmem : (s.handCardData c).getD (s.handCardCount c - 1) 0 ∈ s.hand c := by
      have hlt : s.handCardCount c - 1 < (s.handCardData c).length := by
        rw [hs.length_data]
        omega
      rw [List.getD_eq_getElem?_getD, List.getElem?_eq_getElem hlt, Option.getD_some, hand]
      exact List.mem_take_iff_getElem.2 ⟨s.handCardCount c - 1, by omega, rfl⟩
    have hne := (hs.mem_deck hfree c _ hmem).1
    exact fun _ _ _ _ => by simpa using hne.symm
  · rw [if_neg hcards] at h
    exact hkilled.onSubPassCard h

/-! ## The tribute timers -/

theorem mem_hand_of_jingong (hcount : 3 ≤ s.handCardCount chair)
    (h : getJingongCard s.mainValue (s.handCardData chair) ≠ 0) :
    getJingongCard s.mainValue (s.handCardData chair) ∈ s.hand chair := by
  rw [getJingongCard] at h ⊢
  cases hfind : ((s.handCardData chair).take 3).find? fun c => getCardValue c ≠ s.mainValue with
  | none =>
    rw [hfind] at h
    exact absurd rfl h
  | some c =>
    have hsub := (List.take_prefix_take_left hcount : (s.handCardData chair).take 3 <+: s.hand chair)
    exact hsub.subset (List.mem_of_find?_eq_some hfind)

/-- Who has not paid keeps his cards. -/
theorem pay_data (h : s.Paying) (hmem : chair ∈ s.payers) (hunpaid : s.tributeStatus chair = false)
    (hpay : s.onSubPayTribute chair card = some (s', out)) (hi : i ∈ s.payers)
    (hwaits : s'.tributeStatus i = false) :
    s.tributeStatus i = false ∧ s'.handCardData i = s.handCardData i := by
  obtain ⟨hpayers, -, hpay'⟩ | ⟨-, hpay'⟩ | ⟨big, small, -, -, -, hall, hpay'⟩ :=
    h.pay_cases hmem hunpaid card
  · rw [hpay] at hpay'
    cases hpay'
    have hchair : i = chair := by simpa [hpayers] using hi
    have hpaid : (s.handOver chair card).tributeStatus i = true :=
      (handOver_status card).2 (Or.inl hchair)
    exact Bool.noConfusion (hwaits.symm.trans hpaid)
  · rw [hpay] at hpay'
    cases hpay'
    have hnot : ¬ (i = chair ∨ s.tributeStatus i = true) := by
      rw [← handOver_status card, hwaits]
      nofun
    rw [not_or] at hnot
    exact ⟨Bool.eq_false_iff.2 hnot.2, Function.update_of_ne hnot.1 _ _⟩
  · rw [hpay] at hpay'
    cases hpay'
    obtain ⟨data, hdata⟩ := paidBoth_eq (s.handOver chair card) big small
    rw [hdata] at hwaits
    exact Bool.noConfusion (hwaits.symm.trans (hall i hi))

/-- In the tribute stages of one hand with no card lost, and the cards of
those who have not paid. -/
def PaidFor (s : TableSink) (history : List Output) (t : TableSink) (out : List Output) : Prop :=
  s.InTribute t out ∧ t.Sound (history ++ out) ∧ ∀ i ∈ s.payers, t.tributeStatus i = false →
    s.tributeStatus i = false ∧ t.handCardData i = s.handCardData i

/-- In the second tribute stage of one hand or past it, with no card lost. -/
def ReturnedFor (s : TableSink) (history : List Output) (t : TableSink) (out : List Output) : Prop :=
  s.InReturn t out ∧ t.Sound (history ++ out)

/-- **The first timer** pays with a card of each hand. -/
theorem Sound.run_payFor (hs : s.Sound history) (h : s.Paying ∨ s.Returning) (hseat : s.Seated)
    (hnodup : s.receivers.Nodup) (hfound : ∀ i ∈ s.payers, s.tributeStatus i = false →
      getJingongCard s.mainValue (s.handCardData i) ≠ 0)
    (hrun : Machine.run payFor s s.payers = some (s', out)) : s'.Sound (history ++ out) := by
  have hstep : ∀ t h chair, s.PaidFor history t h → chair ∈ s.payers →
      ∃ t' out, t.payFor chair = some (t', out) ∧ s.PaidFor history t' (h ++ out) := by
    rintro t h chair ⟨⟨ht, hsame, hout⟩, hsound, hdata⟩ hmem
    have hmem' : chair ∈ t.payers := by rwa [hsame.payers]
    by_cases hpaid : t.tributeStatus chair = true
    · refine ⟨t, [], if_pos hpaid, ⟨ht, hsame, by rwa [List.append_nil]⟩, ?_, hdata⟩
      rwa [List.append_nil]
    · have hunpaid : t.tributeStatus chair = false := Bool.eq_false_iff.2 hpaid
      obtain ht | ht := ht
      · obtain ⟨t', out', hpay, ht', hsame', hout'⟩ := ht.pay (hsame.seated hseat) hmem' hunpaid
          (getJingongCard t.mainValue (t.handCardData chair))
        have hcard : getJingongCard t.mainValue (t.handCardData chair) ∈ t.hand chair := by
          refine mem_hand_of_jingong (by rw [ht.unpaid_count hunpaid]; omega) ?_
          obtain ⟨hbefore, heq⟩ := hdata chair hmem hunpaid
          rw [hsame.mainValue, heq]
          exact hfound chair hmem hbefore
        have hnodup' : t.receivers.Nodup := by rwa [hsame.receivers]
        have hsound' := hsound.pay ht (hsame.seated hseat) hmem' hunpaid hnodup' hcard hpay
        rw [hsame.payers, hsame.receivers] at hout'
        refine ⟨t', out', (if_neg hpaid).trans hpay, ⟨ht', hsame.trans hsame',
          List.forall_mem_append.2 ⟨hout, hout'⟩⟩, ?_, fun i hi hwaits => ?_⟩
        · rwa [← List.append_assoc]
        · obtain ⟨hwaits', heq⟩ := pay_data ht hmem' hunpaid hpay (by rwa [hsame.payers]) hwaits
          obtain ⟨hbefore, heq'⟩ := hdata i hi hwaits'
          exact ⟨hbefore, heq.trans heq'⟩
      · exact absurd (ht.paid chair hmem') hpaid
  obtain ⟨r, hr, -, hsound, -⟩ := Machine.inv_run_total hstep s.payers s []
    ⟨⟨h, SameHand.refl s, by simp⟩, by rwa [List.append_nil], fun i _ h => ⟨h, rfl⟩⟩
    (Machine.along_of_mem s fun _ h => h)
  rw [hrun] at hr
  cases hr
  exact hsound

theorem Sound.mem_hand_of_back (hs : s.Sound history) (h : s.Returning) (hseat : s.Seated)
    (hmem : chair ∈ s.receivers) (hnodup : s.receivers.Nodup)
    (hunreturned : s.tributeStatus chair = false) :
    (s.handCardData chair).getD 27 0 ∈ s.hand chair := by
  have hcount := h.count chair
  rw [hunreturned, List.count_eq_one_of_mem hnodup hmem,
    h.toBalanced.returned_eq_zero fun hp => hseat.disjoint hp hmem] at hcount
  have hcount' : s.handCardCount chair = 28 := by simpa using hcount
  have hlt : 27 < (s.handCardData chair).length := by
    rw [hs.length_data]
    decide
  rw [List.getD_eq_getElem?_getD, List.getElem?_eq_getElem hlt, Option.getD_some, hand, hcount']
  exact List.mem_take_iff_getElem.2 ⟨27, by omega, rfl⟩

/-- **The second timer** returns the last card of each receiver. -/
theorem Sound.run_returnFor (hs : s.Sound history) (h : s.Returning) (hseat : s.Seated)
    (hnodup : s.receivers.Nodup) (hrun : Machine.run returnFor s s.receivers = some (s', out)) :
    s'.Sound (history ++ out) := by
  have hstep : ∀ t h chair, s.ReturnedFor history t h → chair ∈ s.receivers →
      ∃ t' out, t.returnFor chair = some (t', out) ∧ s.ReturnedFor history t' (h ++ out) := by
    rintro t h chair ⟨⟨ht, hsame, hout⟩, hsound⟩ hmem
    have hmem' : chair ∈ t.receivers := by rwa [hsame.receivers]
    by_cases hreturned : t.tributeStatus chair = true
    · refine ⟨t, [], if_pos hreturned, ⟨ht, hsame, by rwa [List.append_nil]⟩, ?_⟩
      rwa [List.append_nil]
    · have hunreturned : t.tributeStatus chair = false := Bool.eq_false_iff.2 hreturned
      obtain ht | ht := ht
      · have hnodup' : t.receivers.Nodup := by rwa [hsame.receivers]
        have hcard := hsound.mem_hand_of_back ht (hsame.seated hseat) hmem' hnodup' hunreturned
        obtain ⟨t', out', hback, ht', hsame', hout'⟩ := ht.giveBack (hsame.seated hseat) hmem'
          hunreturned ((t.handCardData chair).getD 27 0)
        have hsound' := hsound.giveBack ht (hsame.seated hseat) hmem' hunreturned hnodup' hcard hback
        rw [hsame.payers, hsame.receivers] at hout'
        refine ⟨t', out', (if_neg hreturned).trans hback, ⟨ht', hsame.trans hsame',
          List.forall_mem_append.2 ⟨hout, hout'⟩⟩, ?_⟩
        rwa [← List.append_assoc]
      · exact absurd (ht.returned chair hmem') hreturned
  obtain ⟨r, hr, -, hsound⟩ := Machine.inv_run_total hstep s.receivers s []
    ⟨⟨Or.inl h, SameHand.refl s, by simp⟩, by rwa [List.append_nil]⟩
    (Machine.along_of_mem s fun _ h => h)
  rw [hrun] at hr
  cases hr
  exact hsound

/-! ## Runs -/

/-- Tribute names a card of the sender, the timer finds cards to pay, and a
play that is looked at is genuine. -/
def Honest (s : TableSink) : Event → Prop
  | .payTribute chair playing card => playing = true → s.tributeStatus chair = false →
      card ∈ s.hand chair
  | .returnTribute chair playing card => playing = true → s.tributeStatus chair = false →
      card ∈ s.hand chair
  | .timer timer _ _ => timer = .tribute → s.timers .tribute = true → s.gameStatus = .tribute →
      ∀ i ∈ s.payers, s.tributeStatus i = false →
        getJingongCard s.mainValue (s.handCardData i) ≠ 0
  | .outCard chair playing cardCount cards _ =>
      cards.length = cardCount.toNat → playing = true → s.Genuine chair cards
  | _ => True

theorem Rounds.receivers_nodup (hs : s.Rounds history) (hstage : s.Stage l)
    (hstatus : s.gameStatus = .tribute) : s.receivers.Nodup :=
  ((hs.consistent hstage).tribute hstatus).receivers_nodup

theorem Stage.count_le (hs : s.Stage l) (hfree : s.gameStatus ≠ .free)
    (hnodup : s.gameStatus = .tribute → s.receivers.Nodup) (i : Chair) :
    s.handCardCount i ≤ maxCount := by
  have hmax : maxCount = 28 := rfl
  cases hs with
  | free h => exact absurd h.status hfree
  | sendCard h =>
    rw [h.count]
    omega
  | tribute h hseat =>
    obtain h | h := h
    · have := h.count i
      omega
    · exact h.toBalanced.count_le hseat (hnodup h.status) i
  | playing h => exact h.count_le i

theorem Stage.of_sendCard (hs : s.Stage l) (hstatus : s.gameStatus = .sendCard) :
    s.Dealt := by
  cases hs with
  | free h => exact absurd (h.status.symm.trans hstatus) nofun
  | sendCard h => exact h
  | tribute h => exact absurd ((h.elim Paying.status Returning.status).symm.trans hstatus) nofun
  | playing h => exact absurd (h.status.symm.trans hstatus) nofun

theorem Stage.of_playing (hs : s.Stage l) (hstatus : s.gameStatus = .playing) :
    s.InTurn l := by
  cases hs with
  | free h => exact absurd (h.status.symm.trans hstatus) nofun
  | sendCard h => exact absurd (h.status.symm.trans hstatus) nofun
  | tribute h => exact absurd ((h.elim Paying.status Returning.status).symm.trans hstatus) nofun
  | playing h => exact h

theorem Stage.of_gameStart (hs : s.Stage l) (harmed : s.timers .gameStart = true) :
    s.gameStatus = .sendCard := by
  cases hs with
  | free h => exact Bool.noConfusion ((h.timers .gameStart).symm.trans harmed)
  | sendCard h => exact h.status
  | tribute _ _ _ _ htimer => exact Bool.noConfusion (htimer.symm.trans harmed)
  | playing _ htimer => exact Bool.noConfusion (htimer.symm.trans harmed)

/-- **A timer** loses no card. -/
theorem Sound.onTimerMessage {timer : Timer} {rand : ℕ} (hs : s.Sound history) (hstage : s.Stage l)
    (hnodup : s.gameStatus = .tribute → s.receivers.Nodup) (harmed : s.timers timer = true)
    (hok : s.Honest (.timer timer rand scores))
    (h : s.onTimerMessage timer rand scores = some (s', out)) : s'.Sound (history ++ out) := by
  have hkilled : (s.killGameTimer timer).Sound history := ⟨hs.length_data, hs.dealt⟩
  have hstage' := hstage.killGameTimer timer
  have hquiet : some (s.killGameTimer timer, ([] : List Output)) = some (s', out) →
      s'.Sound (history ++ out) := by
    intro h
    cases h
    rwa [List.append_nil]
  cases timer with
  | gameStart =>
    have hstatus : (s.killGameTimer .gameStart).gameStatus = .sendCard := hstage.of_gameStart harmed
    have hstart := hkilled.onGameStart (hstage'.of_sendCard hstatus) rand
    have heq : (s.killGameTimer .gameStart).onGameStart rand = (s', out) := Option.some.inj h
    rwa [heq] at hstart
  | tribute =>
    by_cases hstatus : s.gameStatus = .tribute
    · obtain ⟨htribute, hseat, -⟩ := hstage'.of_tribute hstatus
      exact hkilled.run_payFor htribute hseat (hnodup hstatus) (hok rfl harmed hstatus)
        ((if_pos hstatus).symm.trans h)
    · exact hquiet ((if_neg hstatus).symm.trans h)
  | backTribute =>
    by_cases hstatus : s.gameStatus = .tribute
    · obtain ⟨htribute, hseat, -⟩ := hstage'.of_tribute hstatus
      have hreturning := hstage.returning_of_backTribute hstatus harmed
      exact hkilled.run_returnFor hreturning hseat (hnodup hstatus) ((if_pos hstatus).symm.trans h)
    · exact hquiet ((if_neg hstatus).symm.trans h)
  | outCard =>
    by_cases hstatus : s.gameStatus = .playing
    · exact hkilled.onOutCardTimeOut (hstage'.of_playing hstatus) h
    · exact hquiet ((if_neg hstatus).symm.trans h)

/-- **No step loses a card.** -/
theorem step_keeps_sound (hs : s.Sound history) (hstage : s.Stage l)
    (hrounds : s.Rounds history) (horderly : s.Orderly e) (hok : s.Honest e)
    (hstep : step s e = some (s', out)) : s'.Sound (history ++ out) := by
  have hnodup := hrounds.receivers_nodup hstage
  have hquiet : some (s, ([] : List Output)) = some (s', out) → s'.Sound (history ++ out) := by
    intro h
    cases h
    rwa [List.append_nil]
  obtain ⟨rfl, rfl⟩ | htakes := hstage.takes horderly hstep
  · exact hquiet rfl
  cases htakes with
  | gameStart hfree h =>
    cases h
    exact hs.deal _
  | timer harmed h => exact hs.onTimerMessage hstage hnodup harmed hok h
  | outCard hread h =>
    by_cases hstatus : s.gameStatus = .playing
    · exact hs.onSubOutCard ((hstage.of_playing hstatus).count_le _) (hok hread.1 hread.2) h
    · rw [TableSink.onSubOutCard, TableSink.outCard, if_pos (Or.inl hstatus)] at h
      exact hquiet h
  | passCard h => exact hs.onSubPassCard h
  | payTribute hread hpaying hseat hmem hunpaid h =>
    exact hs.pay hpaying hseat hmem hunpaid (hnodup hpaying.status) (hok hread hunpaid) h
  | returnTribute hread hreturning hseat hmem hunpaid h =>
    exact hs.giveBack hreturning hseat hmem hunpaid (hnodup hreturning.status) (hok hread hunpaid) h
  | startOut hstatus h =>
    cases h
    refine hs.of_frame (fun _ => by rw [hstatus]; simp) hs.length_data (fun i => List.Perm.refl _) ?_
      (List.forall_mem_singleton.2 rfl)
    rw [waiting_eq_zero (s := s) (Or.inl (by rw [hstatus]; simp))]
    exact waiting_eq_zero (Or.inl (by rintro ⟨⟩))
  | trustee hread h =>
    by_cases hstatus : s.gameStatus = .playing
    · exact hs.onOutCardTimeOut (hstage.of_playing hstatus) h
    · exact hquiet ((if_neg hstatus).symm.trans h)
  | sendGameScene hfree h =>
    cases h
    exact ⟨hs.length_data, fun h => absurd hfree h⟩
  | dismiss h => exact sound_conclude h _
  | userLeave h => exact sound_conclude h _

/-- A message from a player that moves cards of his by the rules. -/
def MovesCards (s : TableSink) : Event → Prop
  | .payTribute chair playing card => playing = true ∧ s.gameStatus = .tribute ∧ chair ∈ s.payers ∧
      s.tributeStatus chair = false ∧ card ∈ s.hand chair
  | .returnTribute chair playing card => playing = true ∧ s.gameStatus = .tribute ∧
      chair ∈ s.receivers ∧ s.tributeStatus chair = false ∧ card ∈ s.hand chair
  | .outCard chair playing _ cards _ => playing = true ∧ s.gameStatus = .playing ∧
      s.currentUser = some chair ∧ (∃ magic, s.legalPlay cards = some (some magic)) ∧
      (cards : Multiset UInt8) ≤ s.hand chair
  | .trustee chair playing trustee _ => playing = true ∧ trustee = true ∧ s.gameStatus = .playing ∧
      s.currentUser = some chair ∧ s.magicCardData = []
  | _ => False

/-- Where the cards of a hand are. -/
structure Accounted (s : TableSink) (history : List Output) : Prop where
  cards : s.Conserved history
  counts : ∀ i, s.handCardCount i ≤ 28
  begins : ∀ e s' out, s.Orderly e → step s e = some (s', out) → s.gameStatus ≠ .playing →
    s'.gameStatus = .playing → ∀ i, s'.handCardCount i = 27
  unmoved : ∀ e s' out, s.Orderly e → s.Honest e → e.isMessage = true → ¬ s.MovesCards e →
    step s e = some (s', out) → s'.hand = s.hand

theorem hand_of_frame (hdata : t.handCardData = s.handCardData)
    (hcount : t.handCardCount = s.handCardCount) : t.hand = s.hand := by
  funext i
  rw [hand, hand, hdata, hcount]

/-- **A message that moves no cards by the rules** leaves the hands. -/
theorem Sound.unmoved (hs : s.Sound history) (hstage : s.Stage l)
    (horderly : s.Orderly e) (hok : s.Honest e) (hmessage : e.isMessage = true)
    (hnot : ¬ s.MovesCards e) (hstep : step s e = some (s', out)) : s'.hand = s.hand := by
  obtain ⟨rfl, -⟩ | htakes := hstage.takes horderly hstep
  · rfl
  cases htakes with
  | @outCard chair _ _ cards _ hread h =>
    rw [TableSink.onSubOutCard] at h
    cases hout : s.outCard chair cards with
    | none => simp [hout] at h
    | some result =>
      cases result with
      | none =>
        simp only [hout] at h
        cases h
        rfl
      | some r =>
        obtain ⟨hstatus, hc, magic, _, _, hlegal, -⟩ := outCard_some hout
        have hle := (hstage.of_playing hstatus).count_le chair
        exact absurd ⟨hread.2, hstatus, hc, ⟨magic, hlegal⟩,
          (hs.outCard hle (hok hread.1 hread.2) hout).2⟩ hnot
  | passCard h =>
    obtain ⟨hdata, hcount, -⟩ := onSubPassCard_frame h
    exact hand_of_frame hdata hcount
  | payTribute hread hpaying _ hmem hunpaid h =>
    exact absurd ⟨hread, hpaying.status, hmem, hunpaid, hok hread hunpaid⟩ hnot
  | returnTribute hread hreturning _ hmem hunpaid h =>
    exact absurd ⟨hread, hreturning.status, hmem, hunpaid, hok hread hunpaid⟩ hnot
  | startOut _ h =>
    cases h
    rfl
  | trustee hread h =>
    by_cases hstatus : s.gameStatus = .playing
    · by_cases hcards : s.magicCardData = []
      · exact absurd ⟨hread.1, hread.2.2.2, hstatus, hread.2.2.1, hcards⟩ hnot
      · rw [TableSink.onOutCardTimeOut, if_pos hstatus] at h
        obtain ⟨hdata, hcount, -⟩ := onSubPassCard_frame ((if_neg hcards).symm.trans h)
        exact hand_of_frame hdata hcount
    · cases (if_neg hstatus).symm.trans h
      rfl
  | gameStart => exact Bool.noConfusion hmessage
  | timer => exact Bool.noConfusion hmessage
  | sendGameScene => exact Bool.noConfusion hmessage
  | dismiss => exact Bool.noConfusion hmessage
  | userLeave => exact Bool.noConfusion hmessage

/-- **The plays begin with full hands.** -/
theorem Rounds.begins (hs : s.Rounds history) (hstage : s.Stage l)
    (horderly : s.Orderly e) (h : step s e = some (s', out)) (hbefore : s.gameStatus ≠ .playing)
    (hafter : s'.gameStatus = .playing) (i : Chair) : s'.handCardCount i = 27 := by
  by_cases hdeal : ∀ rand, e ≠ .gameStart rand
  · obtain ⟨t, out', hstep, -, hleads⟩ := step_goes hstage horderly hdeal
    rw [h] at hstep
    cases hstep
    cases hleads with
    | keeps hkeeps =>
      cases hstatus : s.gameStatus with
      | free => exact absurd ((hkeeps.free.2 hstatus).symm.trans hafter) nofun
      | sendCard =>
        rw [hkeeps.opens hstatus hafter]
        exact (hstage.of_sendCard hstatus).count i
      | tribute => exact (hkeeps.level hstatus hafter).2 (hs.receivers_nodup hstage hstatus) i
      | playing => exact absurd hstatus hbefore
    | ends t scores pre hplaying => exact absurd hplaying hbefore
    | broken reason ranking series _ hfree => exact absurd (hfree.symm.trans hafter) nofun
  · obtain ⟨rand, rfl⟩ : ∃ rand, e = .gameStart rand := by simpa using hdeal
    by_cases hfree : s.gameStatus = .free
    · cases (if_pos hfree).symm.trans h
      cases hafter
    · cases (if_neg hfree).symm.trans h
      exact absurd hafter hbefore

/-- **A run accounts for every card.** As long as tribute names a card of
the sender and no play counts a zero byte, the hands, the cards played and
the card between the two payments of a double tribute are the deck from the
deal to the end of the hand. -/
theorem run_accounts_cards {events : List Event} (hok : Machine.Along step
    (fun s e => (s.Orderly e ∧ s.Carried e) ∧ s.Honest e) {} events) :
    ∃ r, Machine.run step {} events = some r ∧
      (r.1.gameStatus ≠ .free → r.1.Accounted r.2) := by
  have hstage : ({} : TableSink).Stage {} :=
    Stage.free ⟨rfl, fun _ => rfl, rfl, rfl, rfl⟩ ⟨nofun, nofun⟩
  have hrounds : ({} : TableSink).Rounds [] := ⟨Series.valid_init, fun _ h => absurd rfl h⟩
  have hsound : ({} : TableSink).Sound [] := sound_of_free rfl (fun _ => List.length_replicate) []
  have hkeeps : ∀ (s : TableSink) history e,
      (s.Stage (HandLog.read {} history) ∧ s.Rounds history ∧ s.Sound history) →
        ((s.Orderly e ∧ s.Carried e) ∧ s.Honest e) → ∃ s' out, step s e = some (s', out) ∧
          s'.Stage (HandLog.read {} (history ++ out)) ∧ s'.Rounds (history ++ out) ∧
            s'.Sound (history ++ out) := by
    rintro s history e ⟨hs, hr, hsound⟩ ⟨⟨horderly, hcarried⟩, hhonest⟩
    obtain ⟨s', out, hstep, hs', hr'⟩ := step_keeps_rounds hs hr horderly hcarried
    exact ⟨s', out, hstep, by rwa [HandLog.read_append], hr',
      step_keeps_sound hsound hs hr horderly hhonest hstep⟩
  obtain ⟨r, hr, hs, hrounds', hsound'⟩ :=
    Machine.inv_run_total hkeeps events {} [] ⟨hstage, hrounds, hsound⟩ hok
  exact ⟨r, hr, fun hfree => ⟨hsound'.dealt hfree,
    hs.count_le hfree (hrounds'.receivers_nodup hs),
    fun e s' out horderly hstep hbefore hafter => hrounds'.begins hs horderly hstep hbefore hafter,
    fun e s' out horderly hok hmessage hnot hstep =>
      hsound'.unmoved hs horderly hok hmessage hnot hstep⟩⟩

instance (s : TableSink) (chair : Chair) (cards : List UInt8) : Decidable (s.Genuine chair cards) :=
  inferInstanceAs (Decidable (_ → _ → _ → _ → _))

instance (s : TableSink) : ∀ e, Decidable (s.Honest e)
  | .payTribute _ _ _ => inferInstanceAs (Decidable (_ → _ → _))
  | .returnTribute _ _ _ => inferInstanceAs (Decidable (_ → _ → _))
  | .timer _ _ _ => inferInstanceAs (Decidable (_ → _ → _ → _))
  | .outCard _ _ _ _ _ => inferInstanceAs (Decidable (_ → _ → _))
  | .gameStart _ => isTrue trivial
  | .passCard _ _ => isTrue trivial
  | .trustee _ _ _ _ => isTrue trivial
  | .sendGameScene _ => isTrue trivial
  | .dismiss => isTrue trivial
  | .userLeave => isTrue trivial

/-- Tribute by chairs 1 and 3 after a hand that chairs 0 and 2 won. -/
def tributeRun : List Event :=
  twoHands 3 ++ [.payTribute 1 true 0x21, .payTribute 1 true 0x05, .timer .tribute 0 (fun _ => 0),
    .returnTribute 0 true 0x32, .timer .backTribute 0 (fun _ => 0),
    .outCard 3 true 1 [0x02] (fun _ => 0)]

theorem run_accounts_cards_tribute :
    (Machine.run step {} tributeRun).map
        (fun r => (r.1.gameStatus, List.ofFn r.1.handCardCount, played r.2)) =
        some (.playing, [27, 27, 27, 26], [0x02]) ∧
      ∃ r, Machine.run step {} tributeRun = some r ∧
        (r.1.gameStatus ≠ .free → r.1.Accounted r.2) :=
  ⟨by decide +kernel, run_accounts_cards (by decide +kernel)⟩

/-- **The card of the first payer** of a double tribute is in no hand until
the second pays: with a card that he owns and is to pay, the hands and the
cards played are 107. -/
theorem first_tribute_waits : ∃ r,
    Machine.run step {} (twoHands 3 ++ [.payTribute 1 true 0x21]) = some r ∧
      r.1.gameStatus = .tribute ∧
      (∑ i, (r.1.hand i : Multiset UInt8)) + played r.2 ≠ (cardData : Multiset UInt8) := by
  have hrun : (Machine.run step {} (twoHands 3 ++ [.payTribute 1 true 0x21])).map (fun r =>
      (r.1.gameStatus, ∑ i, (r.1.hand i).length + (played r.2).length)) = some (.tribute, 107) := by
    decide +kernel
  obtain ⟨r, hr, heq⟩ := Option.map_eq_some_iff.1 hrun
  obtain ⟨hstatus, hcount⟩ := Prod.mk.inj heq
  refine ⟨r, hr, hstatus, fun h => ?_⟩
  have hcard := congrArg Multiset.card h
  rw [Multiset.card_add, Multiset.card_sum] at hcard
  simp only [Multiset.coe_card] at hcard
  rw [hcount] at hcard
  exact absurd hcard (by decide)

end TableSink

end GameServer.GuanDan
