import GameServer.GuanDan.Model.TableFrameSink
import Mathlib.Algebra.Order.BigOperators.Group.Finset
/-!
# Guandan — the tribute stages

A payer has one card less until it is returned to him, a receiver one
more until he returns it. `Paying` and `Returning` say how many cards each
chair has in the two stages, for any cards that are named; a message from
a payer who has not paid keeps the first or begins the second, and one
from a receiver keeps the second or begins the plays, with everybody's
cards back to 27.
-/

namespace GameServer.GuanDan

/-- What tribute sends: a card goes from a payer to a receiver, or back, and
then the plays start. -/
def Output.Moves (payers receivers : List Chair) : Output → Prop
  | .payTributeCard chair _ => chair ∈ payers
  | .payTributeResult source target _ => source ∈ payers ∧ target ∈ receivers
  | .returnTribute source target _ => source ∈ receivers ∧ ∃ j ∈ payers, target = some j
  | .startOut _ => True
  | _ => False

namespace TableSink

variable {s s' t : TableSink} {chair i j : Chair} {card : UInt8} {out : List Output}

/-! ## What a message does -/

/-- A card more in a hand, its count not raised yet. -/
def withCard (chair : Chair) (card : UInt8) (s : TableSink) : TableSink :=
  { s with
    handCardData := Function.update s.handCardData chair
      (sortCardList s.mainValue ((s.handCardData chair).take (s.handCardCount chair) ++ [card]) ++
        (s.handCardData chair).drop (s.handCardCount chair + 1)) }

theorem addCard_of_lt (h : s.handCardCount chair < maxCount) :
    s.addCard chair card = some (s.withCard chair card) := by
  rw [addCard, add, if_neg (by omega)]
  rfl

def paidFirst (chair : Chair) (card : UInt8) (s : TableSink) : TableSink :=
  { (s.withCard (s.ranking 0) card).countUp (s.ranking 0) with
    tributeBigID := some chair
    retTributeTarget := Function.update s.retTributeTarget (s.ranking 0) (some chair) }.startReturn

theorem payFirst_of_lt (h : s.handCardCount (s.ranking 0) < maxCount) :
    s.payFirst chair card =
      some (s.paidFirst chair card, [.payTributeResult chair (s.ranking 0) card]) := by
  rw [payFirst, addCard_of_lt h]
  rfl

theorem onSubPayTribute_wait (hunpaid : s.tributeStatus chair = false)
    (hresult : s.result = some .shuangXia)
    (hwait : ¬ ((s.handOver chair card).tributeStatus (s.ranking 0 + 1) = true ∧
      (s.handOver chair card).tributeStatus (s.ranking 0 + 3) = true)) :
    s.onSubPayTribute chair card =
      some (s.handOver chair card, [.payTributeCard chair card]) := by
  rw [onSubPayTribute, if_neg (by rw [hunpaid]; nofun)]
  simp only [show (s.handOver chair card).result = some .shuangXia from hresult]
  exact if_neg hwait

theorem onSubPayTribute_single (hunpaid : s.tributeStatus chair = false)
    (hresult : s.result = some .danXia ∨ s.result = some .other)
    (hroom : (s.handOver chair card).handCardCount (s.ranking 0) < maxCount) :
    s.onSubPayTribute chair card = some ((s.handOver chair card).paidFirst chair card,
      [.payTributeResult chair (s.ranking 0) card]) := by
  have hpay : (s.handOver chair card).payFirst chair card =
      some ((s.handOver chair card).paidFirst chair card,
        [.payTributeResult chair (s.ranking 0) card]) := payFirst_of_lt hroom
  rw [onSubPayTribute, if_neg (by rw [hunpaid]; nofun)]
  obtain hresult | hresult := hresult
  · simp only [show (s.handOver chair card).result = some .danXia from hresult]
    exact hpay
  · simp only [show (s.handOver chair card).result = some .other from hresult]
    exact hpay

def paidBoth (big small : Chair) (s : TableSink) : TableSink :=
  ((if big = s.ranking 0 + 1 then
      (s.withCard (s.ranking 0) (s.tributeCard big)).withCard (s.ranking 1) (s.tributeCard small)
    else
      (s.withCard (s.ranking 1) (s.tributeCard small)).withCard (s.ranking 0) (s.tributeCard big)
    )).payBoth big small

/-- What the second of two payers leads to: the greater card goes to the
first user. -/
def bothResult (u : TableSink) (big small : Chair) : TableSink × List Output :=
  (u.paidBoth big small, [.payTributeResult big (u.ranking 0) (u.tributeCard big),
    .payTributeResult small (u.ranking 1) (u.tributeCard small)])

/-- The second of two payers has paid. -/
theorem onSubPayTribute_both {u : TableSink} (hu : s.handOver chair card = u)
    (hunpaid : s.tributeStatus chair = false) (hresult : u.result = some .shuangXia)
    (hpaid : u.tributeStatus (u.ranking 0 + 1) = true ∧ u.tributeStatus (u.ranking 0 + 3) = true)
    (hfirst : u.handCardCount (u.ranking 0) < maxCount)
    (hsecond : u.handCardCount (u.ranking 1) < maxCount) :
    ∃ big small, ((big = u.ranking 0 + 1 ∧ small = u.ranking 0 + 3) ∨
        (big = u.ranking 0 + 3 ∧ small = u.ranking 0 + 1)) ∧
      s.onSubPayTribute chair card = some (u.bothResult big small) := by
  have hthree : ∀ c : Chair, c + 3 ≠ c + 1 := by decide
  rw [onSubPayTribute, if_neg (by rw [hunpaid]; nofun), hu]
  simp only [hresult]
  rw [if_pos hpaid]
  by_cases hlt : getCardLogicValue u.mainValue (u.tributeCard (u.ranking 0 + 3)) <
      getCardLogicValue u.mainValue (u.tributeCard (u.ranking 0 + 1))
  · refine ⟨u.ranking 0 + 1, u.ranking 0 + 3, Or.inl ⟨rfl, rfl⟩, ?_⟩
    have hthen : (u.withCard (u.ranking 0) (u.tributeCard (u.ranking 0 + 1))).addCard (u.ranking 1)
        (u.tributeCard (u.ranking 0 + 3)) = some ((u.withCard (u.ranking 0)
          (u.tributeCard (u.ranking 0 + 1))).withCard (u.ranking 1)
            (u.tributeCard (u.ranking 0 + 3))) := addCard_of_lt hsecond
    rw [if_pos hlt, addCard_of_lt hfirst, Option.bind_eq_bind, Option.bind_some, hthen,
      Option.bind_some, bothResult, paidBoth, if_pos rfl]
  · refine ⟨u.ranking 0 + 3, u.ranking 0 + 1, Or.inr ⟨rfl, rfl⟩, ?_⟩
    have hthen : (u.withCard (u.ranking 1) (u.tributeCard (u.ranking 0 + 1))).addCard (u.ranking 0)
        (u.tributeCard (u.ranking 0 + 3)) = some ((u.withCard (u.ranking 1)
          (u.tributeCard (u.ranking 0 + 1))).withCard (u.ranking 0)
            (u.tributeCard (u.ranking 0 + 3))) := addCard_of_lt hfirst
    rw [if_neg hlt, addCard_of_lt hsecond, Option.bind_eq_bind, Option.bind_some, hthen,
      Option.bind_some, bothResult, paidBoth, if_neg (hthree _)]

/-! ## The stages -/

/-- The last result seats its payers apart from its receivers: the two of a
double tribute are a side, or one chair after a reset. -/
structure Seated (s : TableSink) : Prop where
  shuangXia : s.result = some .shuangXia →
    s.ranking 1 = s.ranking 0 + 2 ∨ s.ranking 1 = s.ranking 0
  danXia : s.result = some .danXia → s.ranking 1 + 2 ≠ s.ranking 0

theorem Seated.disjoint (hs : s.Seated) : List.Disjoint s.payers s.receivers := by
  have hchairs : ∀ a b i : Chair, b = a + 2 ∨ b = a → i ∈ [a + 1, a + 3] → i ∉ [a, b] := by
    decide
  have htwo : ∀ a : Chair, a + 2 ≠ a := by decide
  cases hresult : s.result with
  | none => simp [payers, hresult]
  | some result =>
    cases result with
    | shuangXia =>
      simp only [payers, receivers, hresult]
      exact fun i hi hi' => hchairs _ _ i (hs.shuangXia hresult) hi hi'
    | danXia => simpa [payers, receivers, hresult] using (hs.danXia hresult).symm
    | other => simpa [payers, receivers, hresult] using (htwo _).symm

theorem nodup_payers (s : TableSink) : s.payers.Nodup := by
  have hchairs : ∀ a : Chair, [a + 1, a + 3].Nodup := by decide
  cases hresult : s.result with
  | none => simp [payers, hresult]
  | some result =>
    cases result with
    | shuangXia =>
      simp only [payers, hresult]
      exact hchairs _
    | danXia => simp [payers, hresult]
    | other => simp [payers, hresult]

theorem length_payers (s : TableSink) : s.payers.length = s.receivers.length := by
  rw [payers, receivers]
  cases s.result with
  | none => rfl
  | some result => cases result <;> rfl

/-- The first stage: who has paid has a card less. -/
structure Paying (s : TableSink) : Prop where
  status : s.gameStatus = .tribute
  current : s.currentUser = none
  back : s.timers .backTribute = false
  target : ∀ i, s.retTributeTarget i = none
  mem : ∀ i, s.tributeStatus i = true → i ∈ s.payers
  waits : ∃ i ∈ s.payers, s.tributeStatus i = false
  count : ∀ i, s.handCardCount i + (s.tributeStatus i).toNat = 27

/-- The cards that came back to a chair. -/
def returned (s : TableSink) (i : Chair) : ℕ :=
  (Finset.univ.filter fun k => s.retTributeTarget k = some i ∧ s.tributeStatus k = true).card

/-- Who got a card, from whom, and how many cards that leaves each chair. -/
structure Balanced (s : TableSink) : Prop where
  paid : ∀ i ∈ s.payers, s.tributeStatus i = true
  mem : ∀ i, s.tributeStatus i = true → i ∈ s.payers ∨ i ∈ s.receivers
  target_isSome : ∀ i, i ∈ s.receivers ↔ s.retTributeTarget i ≠ none
  target_mem : ∀ i j, s.retTributeTarget i = some j → j ∈ s.payers
  target_inj : ∀ i k j, s.retTributeTarget i = some j → s.retTributeTarget k = some j → i = k
  covered : s.receivers.Nodup → ∀ j ∈ s.payers, ∃ i, s.retTributeTarget i = some j
  bigID : ∃ j, s.tributeBigID = some j
  count : ∀ i, s.handCardCount i + (s.tributeStatus i).toNat =
    27 + s.receivers.count i + s.returned i
  total : ∑ i, s.handCardCount i = fullCount

/-- The second stage: each receiver has the cards he got until he returns
one. -/
structure Returning (s : TableSink) : Prop extends s.Balanced where
  status : s.gameStatus = .tribute
  current : s.currentUser = none
  waits : ∃ i ∈ s.receivers, s.tributeStatus i = false

/-- The plays begin. -/
structure Started (s : TableSink) : Prop where
  status : s.gameStatus = .playing
  current : ∃ j, s.currentUser = some j
  count : ∀ i, 26 ≤ s.handCardCount i ∧ s.handCardCount i ≤ maxCount
  level : s.receivers.Nodup → ∀ i, s.handCardCount i = 27
  returned : ∀ i ∈ s.receivers, s.tributeStatus i = true
  total : ∑ i, s.handCardCount i = fullCount

theorem exists_receiver (h : i ∈ s.payers) : ∃ j, j ∈ s.receivers :=
  List.exists_mem_of_length_pos (by rw [← length_payers]; exact List.length_pos_of_mem h)

theorem handOver_count (chair : Chair) (card : UInt8) (s : TableSink) (i : Chair)
    (hpos : 0 < s.handCardCount chair) (hle : s.handCardCount chair ≤ 256) :
    (s.handOver chair card).handCardCount i =
      if i = chair then s.handCardCount chair - 1 else s.handCardCount i := by
  change Function.update s.handCardCount chair ((s.handCardCount chair + 255) % 256) i = _
  rw [Function.update_apply]
  by_cases hi : i = chair
  · rw [if_pos hi, if_pos hi]
    omega
  · rw [if_neg hi, if_neg hi]

theorem Paying.unpaid_count (hs : s.Paying) (hunpaid : s.tributeStatus i = false) :
    s.handCardCount i = 27 := by
  simpa [hunpaid] using hs.count i

theorem handOver_status (card : UInt8) : (s.handOver chair card).tributeStatus i = true ↔
    i = chair ∨ s.tributeStatus i = true := by
  change Function.update s.tributeStatus chair true i = true ↔ _
  rw [Function.update_apply]
  by_cases hi : i = chair
  · simp [hi]
  · simp [hi]

/-- The count of the first stage, with one card more handed over. -/
theorem Paying.handOver_count (hs : s.Paying) (hunpaid : s.tributeStatus chair = false)
    (card : UInt8) (i : Chair) : (s.handOver chair card).handCardCount i +
      ((s.handOver chair card).tributeStatus i).toNat = 27 := by
  have hchair : s.handCardCount chair = 27 := hs.unpaid_count hunpaid
  rw [TableSink.handOver_count chair card s i (by omega) (by omega)]
  change _ + (Function.update s.tributeStatus chair true i).toNat = 27
  rw [Function.update_apply]
  by_cases hi : i = chair
  · rw [if_pos hi, if_pos hi, hchair, Bool.toNat_true]
  · rw [if_neg hi, if_neg hi]
    exact hs.count i

/-- The last payment begins the second stage, whoever gets which card. -/
theorem Paying.returning (card : UInt8) (hs : s.Paying) (hseat : s.Seated) (hmem : chair ∈ s.payers)
    (hunpaid : s.tributeStatus chair = false)
    (hall : ∀ i ∈ s.payers, i = chair ∨ s.tributeStatus i = true)
    (hstatus : t.gameStatus = .tribute) (hcurrent : t.currentUser = none)
    (hpayers : t.payers = s.payers) (hreceivers : t.receivers = s.receivers)
    (htribute : t.tributeStatus = (s.handOver chair card).tributeStatus)
    (hcount : ∀ i, t.handCardCount i =
      (s.handOver chair card).handCardCount i + s.receivers.count i)
    (hbig : ∃ j, t.tributeBigID = some j)
    (hsome : ∀ i, i ∈ s.receivers ↔ t.retTributeTarget i ≠ none)
    (htarget : ∀ i j, t.retTributeTarget i = some j → j ∈ s.payers)
    (hinj : ∀ i k j, t.retTributeTarget i = some j → t.retTributeTarget k = some j → i = k)
    (hcovered : s.receivers.Nodup → ∀ j ∈ s.payers, ∃ i, t.retTributeTarget i = some j) :
    t.Returning := by
  have hpaid : ∀ i, t.tributeStatus i = true ↔ i ∈ s.payers := by
    intro i
    rw [htribute, handOver_status card]
    exact ⟨fun h => h.elim (fun hi => hi ▸ hmem) (hs.mem i), hall i⟩
  have hunreturned : ∀ i ∈ s.receivers, t.tributeStatus i = false := fun i hi =>
    Bool.eq_false_iff.2 fun h => hseat.disjoint ((hpaid i).1 h) hi
  have hreturned : ∀ i, t.returned i = 0 := by
    intro i
    refine Finset.card_eq_zero.2 (Finset.filter_eq_empty_iff.2 fun k _ h => ?_)
    obtain ⟨hk, hkpaid⟩ := h
    have hkmem : k ∈ s.receivers := (hsome k).2 (by rw [hk]; nofun)
    rw [hunreturned k hkmem] at hkpaid
    cases hkpaid
  have hcounts : ∀ i, t.handCardCount i + (t.tributeStatus i).toNat =
      27 + s.receivers.count i := by
    intro i
    have := hs.handOver_count hunpaid card i
    rw [hcount, htribute]
    omega
  have hflag : ∀ i, (t.tributeStatus i).toNat = s.payers.count i := by
    intro i
    by_cases hi : i ∈ s.payers
    · rw [(hpaid i).2 hi, List.count_eq_one_of_mem s.nodup_payers hi, Bool.toNat_true]
    · rw [Bool.eq_false_iff.2 fun h => hi ((hpaid i).1 h), List.count_eq_zero_of_not_mem hi,
        Bool.toNat_false]
  have hlength : ∀ l : List Chair, ∑ i, l.count i = l.length := by
    intro l
    have := Multiset.sum_count_eq_card (m := (l : Multiset Chair)) fun i _ => Finset.mem_univ i
    simpa using this
  refine ⟨⟨?_, ?_, ?_, ?_, hinj, ?_, hbig, ?_, ?_⟩, hstatus, hcurrent, ?_⟩
  · rw [hpayers]
    exact fun i hi => (hpaid i).2 hi
  · rw [hpayers]
    exact fun i hi => Or.inl ((hpaid i).1 hi)
  · rwa [hreceivers]
  · rwa [hpayers]
  · rwa [hpayers, hreceivers]
  · intro i
    rw [hreceivers, hcounts i, hreturned i, Nat.add_zero]
  · have hsum : ∑ i, t.handCardCount i + s.payers.length = 108 + s.receivers.length := by
      rw [← hlength, ← hlength, ← Finset.sum_add_distrib]
      calc ∑ i, (t.handCardCount i + s.payers.count i)
          = ∑ i : Chair, (27 + s.receivers.count i) :=
            Finset.sum_congr rfl fun i _ => by rw [← hflag, hcounts]
        _ = 108 + ∑ i, s.receivers.count i := by
            rw [Finset.sum_add_distrib]
            rfl
    have hlengths := s.length_payers
    have hfull : fullCount = 108 := rfl
    omega
  · obtain ⟨j, hj⟩ := exists_receiver hmem
    rw [hreceivers]
    exact ⟨j, hj, hunreturned j hj⟩

theorem countUp_count (chair : Chair) (s : TableSink) (i : Chair) :
    (s.countUp chair).handCardCount i = s.handCardCount i + [chair].count i := by
  change Function.update s.handCardCount chair (s.handCardCount chair + 1) i = _
  rw [Function.update_apply, List.count_singleton]
  by_cases hi : i = chair
  · rw [if_pos hi, hi, beq_self_eq_true, if_pos rfl]
  · rw [if_neg hi, if_neg (by simpa using Ne.symm hi), Nat.add_zero]

theorem paidFirst_count (u : TableSink) (i : Chair) :
    (u.paidFirst chair card).handCardCount i = u.handCardCount i + [u.ranking 0].count i :=
  countUp_count (u.ranking 0) (u.withCard (u.ranking 0) card) i

/-- What of the sink a payment by both leaves, and what it sets. -/
theorem paidBoth_eq (u : TableSink) (big small : Chair) : ∃ data, u.paidBoth big small =
    { u with handCardData := data }.payBoth big small := by
  rw [paidBoth]
  split_ifs
  · exact ⟨_, rfl⟩
  · exact ⟨_, rfl⟩

theorem payBoth_count (u : TableSink) (big small i : Chair) :
    (u.payBoth big small).handCardCount i =
      u.handCardCount i + [u.ranking 0, u.ranking 1].count i := by
  change ((u.countUp (u.ranking 0)).countUp (u.ranking 1)).handCardCount i = _
  rw [countUp_count, countUp_count, Nat.add_assoc, ← List.count_append]
  rfl

theorem Paying.wait (hs : s.Paying) (hmem : chair ∈ s.payers)
    (hunpaid : s.tributeStatus chair = false)
    (hwait : ∃ i ∈ s.payers, (s.handOver chair card).tributeStatus i = false) :
    (s.handOver chair card).Paying := by
  refine ⟨hs.status, rfl, hs.back, hs.target, fun i hi => ?_, hwait, hs.handOver_count hunpaid card⟩
  obtain rfl | hpaid := (handOver_status card).1 hi
  · exact hmem
  · exact hs.mem i hpaid

/-- The payer of a single tribute begins the second stage. -/
theorem Paying.single (hs : s.Paying) (hseat : s.Seated) (hpayers : s.payers = [chair])
    (hreceivers : s.receivers = [s.ranking 0]) (hunpaid : s.tributeStatus chair = false) :
    ((s.handOver chair card).paidFirst chair card).Returning := by
  have htarget : ∀ i, ((s.handOver chair card).paidFirst chair card).retTributeTarget i =
      if i = s.ranking 0 then some chair else none := by
    intro i
    change Function.update s.retTributeTarget (s.ranking 0) (some chair) i = _
    rw [Function.update_apply, hs.target]
  have hmem : chair ∈ s.payers := by
    rw [hpayers]
    exact List.mem_singleton_self chair
  refine Paying.returning card hs hseat hmem hunpaid (fun i hi => Or.inl (by simpa [hpayers] using hi))
    hs.status rfl rfl rfl rfl (fun i => ?_) ⟨chair, rfl⟩ (fun i => ?_) (fun i j h => ?_)
    (fun i k j hi hk => ?_) fun _ j hj => ?_
  · rw [hreceivers]
    exact paidFirst_count _ i
  · rw [hreceivers, htarget, List.mem_singleton]
    by_cases hi : i = s.ranking 0
    · simp [hi]
    · simp [hi]
  · rw [htarget] at h
    split_ifs at h
    cases h
    exact hmem
  · rw [htarget] at hi hk
    split_ifs at hi hk with hi' hk'
    rw [hi', hk']
  · rw [hpayers, List.mem_singleton] at hj
    exact ⟨s.ranking 0, by rw [htarget, if_pos rfl, hj]⟩

/-- The second of two payers begins the second stage. -/
theorem Paying.both {big small : Chair} (hs : s.Paying) (hseat : s.Seated)
    (hmem : chair ∈ s.payers) (hunpaid : s.tributeStatus chair = false)
    (hall : ∀ i ∈ s.payers, i = chair ∨ s.tributeStatus i = true)
    (hpayers : ∀ i, i ∈ s.payers ↔ i = big ∨ i = small) (hne : big ≠ small)
    (hreceivers : s.receivers = [s.ranking 0, s.ranking 1]) :
    ((s.handOver chair card).paidBoth big small).Returning := by
  obtain ⟨data, hdata⟩ := paidBoth_eq (s.handOver chair card) big small
  have htarget : ∀ i, ((s.handOver chair card).paidBoth big small).retTributeTarget i =
      if i = s.ranking 1 then some small else if i = s.ranking 0 then some big else none := by
    intro i
    rw [hdata]
    change Function.update (Function.update s.retTributeTarget (s.ranking 0) (some big))
      (s.ranking 1) (some small) i = _
    rw [Function.update_apply, Function.update_apply, hs.target]
  refine Paying.returning card hs hseat hmem hunpaid hall (by rw [hdata]; exact hs.status) (by rw [hdata]; rfl)
    (by rw [hdata]; rfl) (by rw [hdata]; rfl) (by rw [hdata]; rfl) (fun i => ?_)
    ⟨big, by rw [hdata]; rfl⟩ (fun i => ?_) (fun i j h => ?_) (fun i k j hi hk => ?_)
    fun hnodup j hj => ?_
  · rw [hdata, hreceivers]
    exact payBoth_count _ big small i
  · rw [hreceivers, htarget, List.mem_pair]
    by_cases hsecond : i = s.ranking 1
    · simp [hsecond]
    · rw [if_neg hsecond]
      by_cases hfirst : i = s.ranking 0
      · rw [if_pos hfirst]
        exact iff_of_true (Or.inl hfirst) nofun
      · simp [hfirst, hsecond]
  · rw [htarget] at h
    rw [hpayers]
    split_ifs at h
    · exact Or.inr (Option.some.inj h).symm
    · exact Or.inl (Option.some.inj h).symm
  · rw [htarget] at hi hk
    split_ifs at hi hk with hi' hk' hk'' hi'' hk' hk''
    · rw [hi', hk']
    · exact absurd (Option.some.inj (hk.trans hi.symm)) hne
    · exact absurd (Option.some.inj (hi.trans hk.symm)) hne
    · rw [hi'', hk'']
  · rw [hreceivers] at hnodup
    have hchairs : s.ranking 0 ≠ s.ranking 1 := by simpa using hnodup
    obtain rfl | rfl := (hpayers j).1 hj
    · exact ⟨s.ranking 0, by rw [htarget, if_neg hchairs, if_pos rfl]⟩
    · exact ⟨s.ranking 1, by rw [htarget, if_pos rfl]⟩

/-! ## What tribute leaves alone -/

/-- Tribute moves cards and timers only. -/
structure SameHand (s t : TableSink) : Prop where
  friendFirst : t.friendFirst = s.friendFirst
  bankerUser : t.bankerUser = s.bankerUser
  turnWiner : t.turnWiner = s.turnWiner
  magicCardData : t.magicCardData = s.magicCardData
  mainValue : t.mainValue = s.mainValue
  series : t.series = s.series
  ranking : t.ranking = s.ranking
  mark : t.mark = s.mark
  result : t.result = s.result
  payTribute : t.payTribute = s.payTribute
  baseScore : t.baseScore = s.baseScore
  gameStart : t.timers .gameStart = s.timers .gameStart

theorem SameHand.refl (s : TableSink) : s.SameHand s :=
  ⟨rfl, rfl, rfl, rfl, rfl, rfl, rfl, rfl, rfl, rfl, rfl, rfl⟩

theorem SameHand.trans (h₁ : s.SameHand t) (h₂ : t.SameHand s') : s.SameHand s' :=
  ⟨h₂.friendFirst.trans h₁.friendFirst, h₂.bankerUser.trans h₁.bankerUser,
    h₂.turnWiner.trans h₁.turnWiner, h₂.magicCardData.trans h₁.magicCardData,
    h₂.mainValue.trans h₁.mainValue, h₂.series.trans h₁.series, h₂.ranking.trans h₁.ranking,
    h₂.mark.trans h₁.mark, h₂.result.trans h₁.result, h₂.payTribute.trans h₁.payTribute,
    h₂.baseScore.trans h₁.baseScore, h₂.gameStart.trans h₁.gameStart⟩

theorem SameHand.payers (h : s.SameHand t) : t.payers = s.payers := by
  rw [TableSink.payers, TableSink.payers, h.result, h.ranking]

theorem SameHand.receivers (h : s.SameHand t) : t.receivers = s.receivers := by
  rw [TableSink.receivers, TableSink.receivers, h.result, h.ranking]

theorem SameHand.seated (h : s.SameHand t) (hs : s.Seated) : t.Seated :=
  ⟨fun hresult => by rw [h.ranking]; exact hs.shuangXia (h.result.symm.trans hresult),
    fun hresult => by rw [h.ranking]; exact hs.danXia (h.result.symm.trans hresult)⟩

theorem sameHand_handOver : s.SameHand (s.handOver chair card) :=
  ⟨rfl, rfl, rfl, rfl, rfl, rfl, rfl, rfl, rfl, rfl, rfl, rfl⟩

theorem sameHand_paidFirst : s.SameHand ((s.handOver chair card).paidFirst chair card) :=
  ⟨rfl, rfl, rfl, rfl, rfl, rfl, rfl, rfl, rfl, rfl, rfl, rfl⟩

theorem sameHand_paidBoth (big small : Chair) :
    s.SameHand ((s.handOver chair card).paidBoth big small) := by
  obtain ⟨data, hdata⟩ := paidBoth_eq (s.handOver chair card) big small
  rw [hdata]
  exact ⟨rfl, rfl, rfl, rfl, rfl, rfl, rfl, rfl, rfl, rfl, rfl, rfl⟩

/-- What a payment leads to: the card goes to the first user, or waits for
the second payer, or both cards go to the first and the second user. -/
theorem Paying.pay_cases (hs : s.Paying) (hmem : chair ∈ s.payers)
    (hunpaid : s.tributeStatus chair = false) (card : UInt8) :
    (s.payers = [chair] ∧ s.receivers = [s.ranking 0] ∧ s.onSubPayTribute chair card =
      some ((s.handOver chair card).paidFirst chair card,
        [.payTributeResult chair (s.ranking 0) card])) ∨
    ((∃ i ∈ s.payers, (s.handOver chair card).tributeStatus i = false) ∧
      s.onSubPayTribute chair card =
        some (s.handOver chair card, [.payTributeCard chair card])) ∨
    ∃ big small, big ≠ small ∧ (∀ i, i ∈ s.payers ↔ i = big ∨ i = small) ∧
      s.receivers = [s.ranking 0, s.ranking 1] ∧
      (∀ i ∈ s.payers, (s.handOver chair card).tributeStatus i = true) ∧
      s.onSubPayTribute chair card = some ((s.handOver chair card).bothResult big small) := by
  have hroom : ∀ i, (s.handOver chair card).handCardCount i < maxCount := by
    intro i
    have := hs.handOver_count hunpaid card i
    simp only [maxCount]
    omega
  obtain ⟨result, hresult⟩ : ∃ result, s.result = some result := by
    cases h : s.result with
    | none => simp [payers, h] at hmem
    | some result => exact ⟨result, rfl⟩
  by_cases hdouble : result = .shuangXia
  · subst hdouble
    have hpayers : s.payers = [s.ranking 0 + 1, s.ranking 0 + 3] := by rw [payers, hresult]
    have hreceivers : s.receivers = [s.ranking 0, s.ranking 1] := by rw [receivers, hresult]
    by_cases hpaid : (s.handOver chair card).tributeStatus (s.ranking 0 + 1) = true ∧
        (s.handOver chair card).tributeStatus (s.ranking 0 + 3) = true
    · obtain ⟨big, small, hbig, hpay⟩ :=
        onSubPayTribute_both rfl hunpaid hresult hpaid (hroom _) (hroom _)
      have hmem' : ∀ i, i ∈ s.payers ↔ i = s.ranking 0 + 1 ∨ i = s.ranking 0 + 3 := by
        intro i
        rw [hpayers, List.mem_pair]
      have hall : ∀ i ∈ s.payers, (s.handOver chair card).tributeStatus i = true := by
        intro i hi
        obtain rfl | rfl := (hmem' i).1 hi
        · exact hpaid.1
        · exact hpaid.2
      have hne : ∀ c : Chair, c + 1 ≠ c + 3 := by decide
      refine Or.inr (Or.inr ⟨big, small, ?_, ?_, hreceivers, hall, hpay⟩)
      · obtain ⟨rfl, rfl⟩ | ⟨rfl, rfl⟩ := hbig
        · exact hne _
        · exact (hne _).symm
      · obtain ⟨rfl, rfl⟩ | ⟨rfl, rfl⟩ := hbig
        · exact hmem'
        · exact fun i => (hmem' i).trans or_comm
    · refine Or.inr (Or.inl ⟨?_, onSubPayTribute_wait hunpaid hresult hpaid⟩)
      rw [hpayers]
      simpa [imp_iff_not_or, or_comm] using hpaid
  · have hsingle : result = .danXia ∨ result = .other := by
      cases result with
      | shuangXia => exact absurd rfl hdouble
      | danXia => exact Or.inl rfl
      | other => exact Or.inr rfl
    have hlists : (∃ c, s.payers = [c]) ∧ s.receivers = [s.ranking 0] := by
      rw [payers, receivers, hresult]
      obtain rfl | rfl := hsingle
      · exact ⟨⟨_, rfl⟩, rfl⟩
      · exact ⟨⟨_, rfl⟩, rfl⟩
    obtain ⟨⟨c, hpayers⟩, hreceivers⟩ := hlists
    have hchair : chair = c := by simpa [hpayers] using hmem
    subst hchair
    have hresult' : s.result = some .danXia ∨ s.result = some .other := by
      rwa [hresult, Option.some_inj, Option.some_inj]
    exact Or.inl ⟨hpayers, hreceivers, onSubPayTribute_single hunpaid hresult' (hroom _)⟩

/-- **A payment** keeps the first stage or begins the second. -/
theorem Paying.pay (hs : s.Paying) (hseat : s.Seated) (hmem : chair ∈ s.payers)
    (hunpaid : s.tributeStatus chair = false) (card : UInt8) :
    ∃ s' out, s.onSubPayTribute chair card = some (s', out) ∧ (s'.Paying ∨ s'.Returning) ∧
      s.SameHand s' ∧ ∀ o ∈ out, o.Moves s.payers s.receivers := by
  obtain ⟨hpayers, hreceivers, hpay⟩ | ⟨hwait, hpay⟩ | ⟨big, small, hne, hpayers, hreceivers, hall,
    hpay⟩ := hs.pay_cases hmem hunpaid card
  · refine ⟨_, _, hpay, Or.inr (hs.single hseat hpayers hreceivers hunpaid), sameHand_paidFirst,
      List.forall_mem_singleton.2 ⟨hmem, ?_⟩⟩
    rw [hreceivers]
    exact List.mem_singleton_self _
  · exact ⟨_, _, hpay, Or.inl (hs.wait hmem hunpaid hwait), sameHand_handOver,
      List.forall_mem_singleton.2 hmem⟩
  · refine ⟨_, _, hpay, Or.inr (hs.both hseat hmem hunpaid (fun i hi =>
      (handOver_status card).1 (hall i hi)) hpayers hne hreceivers), sameHand_paidBoth big small,
      List.forall_mem_cons.2 ⟨⟨(hpayers big).2 (Or.inl rfl), ?_⟩,
        List.forall_mem_singleton.2 ⟨(hpayers small).2 (Or.inr rfl), ?_⟩⟩⟩
    · rw [hreceivers]
      exact List.mem_cons_self
    · rw [hreceivers]
      exact List.mem_cons_of_mem _ (List.mem_singleton_self _)

/-! ## A return -/

theorem Balanced.returned_le_one (hs : s.Balanced) (i : Chair) : s.returned i ≤ 1 := by
  refine Finset.card_le_one.2 fun a ha b hb => ?_
  have ha := (Finset.mem_filter.1 ha).2.1
  have hb := (Finset.mem_filter.1 hb).2.1
  exact hs.target_inj a b i ha hb

theorem Balanced.returned_eq_zero (hs : s.Balanced) (hi : i ∉ s.payers) : s.returned i = 0 :=
  Finset.card_eq_zero.2 (Finset.filter_eq_empty_iff.2 fun k _ h => hi (hs.target_mem k i h.1))

theorem Balanced.returned_target (hs : s.Balanced) (htarget : s.retTributeTarget chair = some j)
    (hunreturned : s.tributeStatus chair = false) : s.returned j = 0 := by
  refine Finset.card_eq_zero.2 (Finset.filter_eq_empty_iff.2 fun k _ h => ?_)
  rw [hs.target_inj k chair j h.1 htarget, hunreturned] at h
  cases h.2

/-- With every card returned the hands are what they were, but for a chair
that was both receivers. -/
theorem Balanced.level (hs : s.Balanced) (hseat : s.Seated)
    (hreturned : ∀ i ∈ s.receivers, s.tributeStatus i = true) (i : Chair) :
    26 ≤ s.handCardCount i ∧ s.handCardCount i ≤ maxCount ∧
      (s.receivers.Nodup → s.handCardCount i = 27) := by
  have hcount := hs.count i
  have hmax : maxCount = 28 := rfl
  by_cases hpayer : i ∈ s.payers
  · have hone := hs.returned_le_one i
    rw [hs.paid i hpayer, List.count_eq_zero_of_not_mem (hseat.disjoint hpayer),
      Bool.toNat_true] at hcount
    refine ⟨by omega, by omega, fun hnodup => ?_⟩
    obtain ⟨k, hk⟩ := hs.covered hnodup i hpayer
    have hkmem : k ∈ s.receivers := (hs.target_isSome k).2 (by rw [hk]; nofun)
    have hpos : 0 < s.returned i := Finset.card_pos.2 ⟨k, by simp [hk, hreturned k hkmem]⟩
    omega
  · rw [hs.returned_eq_zero hpayer] at hcount
    by_cases hreceiver : i ∈ s.receivers
    · have hpos : 0 < s.receivers.count i := List.count_pos_iff.2 hreceiver
      have hle : s.receivers.count i ≤ 2 := by
        refine List.count_le_length.trans ?_
        rw [receivers]
        split <;> simp
      rw [hreturned i hreceiver, Bool.toNat_true] at hcount
      refine ⟨by omega, by omega, fun hnodup => ?_⟩
      have hone := List.count_eq_one_of_mem hnodup hreceiver
      omega
    · have hstatus : s.tributeStatus i = false :=
        Bool.eq_false_iff.2 fun h => (hs.mem i h).elim hpayer hreceiver
      rw [hstatus, List.count_eq_zero_of_not_mem hreceiver, Bool.toNat_false] at hcount
      exact ⟨by omega, by omega, fun _ => by omega⟩

/-- A returned card is with its target; once all are, the plays can begin. -/
def gaveBack (chair target : Chair) (card : UInt8) (s : TableSink) : TableSink :=
  { ((s.handOver chair card).withCard target card).countUp target with
    currentUser :=
      if s.result = some .shuangXia then
        if (s.handOver chair card).tributeStatus (s.ranking 0) ∧
            (s.handOver chair card).tributeStatus (s.ranking 1) then s.tributeBigID
        else none
      else some target }

theorem giveBack_of_lt (htarget : s.retTributeTarget chair = some j) (hresult : s.result ≠ none)
    (hroom : (s.handOver chair card).handCardCount j < maxCount) :
    s.giveBack chair card =
      some (s.gaveBack chair j card, [.returnTribute chair (some j) card]) := by
  obtain ⟨result, hresult⟩ := Option.ne_none_iff_exists'.1 hresult
  rw [giveBack, htarget]
  simp only [show (s.handOver chair card).result = some result from hresult]
  rw [addCard_of_lt hroom, Option.map_some, gaveBack, hresult]
  simp only [Option.some_inj]
  rfl

/-- The plays begin with a return after which a user is current. -/
theorem onSubReturnTribute_eq (hunreturned : s.tributeStatus chair = false)
    (htarget : s.retTributeTarget chair = some j) (hresult : s.result ≠ none)
    (hroom : (s.handOver chair card).handCardCount j < maxCount) :
    s.onSubReturnTribute chair card =
      some (match (s.gaveBack chair j card).currentUser with
        | none => (s.gaveBack chair j card, [.returnTribute chair (some j) card])
        | some user =>
            ((((s.gaveBack chair j card).killGameTimer .backTribute).startOut user).1,
              [.returnTribute chair (some j) card, .startOut user])) := by
  rw [onSubReturnTribute, if_neg (by rw [hunreturned]; nofun),
    giveBack_of_lt htarget hresult hroom, Option.map_some]
  cases (s.gaveBack chair j card).currentUser with
  | none => rfl
  | some user => rfl

theorem gaveBack_count (hpos : 0 < s.handCardCount chair) (hle : s.handCardCount chair ≤ 256)
    (i : Chair) : (s.gaveBack chair j card).handCardCount i + [chair].count i =
      s.handCardCount i + [j].count i := by
  have hcount : (s.gaveBack chair j card).handCardCount i =
      (s.handOver chair card).handCardCount i + [j].count i :=
    countUp_count j ((s.handOver chair card).withCard j card) i
  rw [hcount, handOver_count chair card s i hpos hle]
  by_cases hi : i = chair
  · rw [if_pos hi, hi, List.count_singleton_self]
    omega
  · rw [if_neg hi, List.count_eq_zero_of_not_mem fun h => hi (List.mem_singleton.1 h)]
    omega

/-- A return comes back to its target, and to nobody else. -/
theorem gaveBack_returned (htarget : s.retTributeTarget chair = some j)
    (hunreturned : s.tributeStatus chair = false) (i : Chair) :
    (s.gaveBack chair j card).returned i = s.returned i + [j].count i := by
  have hstatus : ∀ k, (s.gaveBack chair j card).tributeStatus k = true ↔
      k = chair ∨ s.tributeStatus k = true := fun k => handOver_status card
  rw [List.count_singleton]
  by_cases hi : j = i
  · subst hi
    rw [beq_self_eq_true, if_pos rfl, returned, returned, ← Finset.card_insert_of_notMem
      (a := chair) (by simp [hunreturned])]
    congr 1
    ext k
    have htargets : (s.gaveBack chair j card).retTributeTarget = s.retTributeTarget := rfl
    simp only [Finset.mem_filter, Finset.mem_univ, true_and, Finset.mem_insert, hstatus, htargets]
    constructor
    · rintro ⟨hk, rfl | hk'⟩
      · exact Or.inl rfl
      · exact Or.inr ⟨hk, hk'⟩
    · rintro (rfl | ⟨hk, hk'⟩)
      · exact ⟨htarget, Or.inl rfl⟩
      · exact ⟨hk, Or.inr hk'⟩
  · rw [if_neg (by simpa using hi), Nat.add_zero, returned, returned]
    congr 1
    ext k
    have htargets : (s.gaveBack chair j card).retTributeTarget = s.retTributeTarget := rfl
    simp only [Finset.mem_filter, Finset.mem_univ, true_and, hstatus, htargets]
    refine and_congr_right fun hk => or_iff_right ?_
    rintro rfl
    rw [htarget, Option.some_inj] at hk
    exact hi hk

/-- A return keeps the balance. -/
theorem Balanced.gaveBack (hs : s.Balanced) (hmem : chair ∈ s.receivers) (card : UInt8)
    (htarget : s.retTributeTarget chair = some j) (hunreturned : s.tributeStatus chair = false) :
    (s.gaveBack chair j card).Balanced := by
  have hchair := hs.count chair
  rw [hunreturned, Bool.toNat_false] at hchair
  have hpos : 0 < s.handCardCount chair := by omega
  have hle : s.handCardCount chair ≤ 256 := by
    have htwo : s.receivers.count chair ≤ 2 := by
      refine List.count_le_length.trans ?_
      rw [receivers]
      split <;> simp
    have := hs.returned_le_one chair
    omega
  have hstatus : ∀ k, (s.gaveBack chair j card).tributeStatus k = true ↔
      k = chair ∨ s.tributeStatus k = true := fun k => handOver_status card
  have hflag : ∀ i, ((s.gaveBack chair j card).tributeStatus i).toNat =
      (s.tributeStatus i).toNat + [chair].count i := by
    intro i
    change (Function.update s.tributeStatus chair true i).toNat = _
    rw [Function.update_apply, List.count_singleton]
    by_cases hi : i = chair
    · rw [if_pos hi, hi, beq_self_eq_true, if_pos rfl, hunreturned]
      rfl
    · rw [if_neg hi, if_neg (by simpa using Ne.symm hi), Nat.add_zero]
  refine ⟨fun i hi => (hstatus i).2 (Or.inr (hs.paid i hi)), fun i hi => ?_, hs.target_isSome,
    hs.target_mem, hs.target_inj, hs.covered, hs.bigID, fun i => ?_, ?_⟩
  · obtain rfl | hi := (hstatus i).1 hi
    · exact Or.inr hmem
    · exact hs.mem i hi
  · have hbefore := hs.count i
    have hcount : (s.gaveBack chair j card).handCardCount i + [chair].count i =
        s.handCardCount i + [j].count i := gaveBack_count hpos hle i
    have hreceivers : (s.gaveBack chair j card).receivers = s.receivers := rfl
    rw [hflag, gaveBack_returned htarget hunreturned, hreceivers]
    omega
  · have hone : ∀ c : Chair, ∑ i, [c].count i = 1 := by decide
    have hsum : ∑ i, ((s.gaveBack chair j card).handCardCount i + [chair].count i) =
        ∑ i, (s.handCardCount i + [j].count i) :=
      Finset.sum_congr rfl fun i _ => gaveBack_count hpos hle i
    rw [Finset.sum_add_distrib, Finset.sum_add_distrib, hone, hone] at hsum
    rw [← hs.total]
    omega

/-- With the last return a user is current. -/
theorem gaveBack_current (hs : s.Balanced) (hmem : chair ∈ s.receivers) :
    (s.gaveBack chair j card).currentUser ≠ none ↔
      ∀ i ∈ s.receivers, (s.gaveBack chair j card).tributeStatus i = true := by
  have hchair : (s.gaveBack chair j card).tributeStatus chair = true :=
    (handOver_status card).2 (Or.inl rfl)
  obtain ⟨big, hbig⟩ := hs.bigID
  rw [gaveBack]
  by_cases hdouble : s.result = some .shuangXia
  · have hreceivers : s.receivers = [s.ranking 0, s.ranking 1] := by rw [receivers, hdouble]
    rw [hreceivers, List.forall_mem_cons, List.forall_mem_singleton, if_pos hdouble, hbig]
    split_ifs with hboth
    · exact iff_of_true nofun hboth
    · exact iff_of_false (fun h => h rfl) hboth
  · have hreceivers : s.receivers = [s.ranking 0] := by
      rw [receivers] at hmem ⊢
      cases hresult : s.result with
      | none => simp [hresult] at hmem
      | some result =>
        cases result with
        | shuangXia => exact absurd hresult hdouble
        | danXia => rfl
        | other => rfl
    rw [hreceivers, List.mem_singleton] at hmem
    rw [hreceivers, List.forall_mem_singleton, if_neg hdouble, ← hmem]
    exact iff_of_true nofun hchair

theorem sameHand_gaveBack : s.SameHand (s.gaveBack chair j card) :=
  ⟨rfl, rfl, rfl, rfl, rfl, rfl, rfl, rfl, rfl, rfl, rfl, rfl⟩

theorem Balanced.target_room (hs : s.Balanced) (hseat : s.Seated) (hmem : chair ∈ s.receivers)
    (htarget : s.retTributeTarget chair = some j) (hunreturned : s.tributeStatus chair = false)
    (card : UInt8) : (s.handOver chair card).handCardCount j < maxCount := by
  have hpayer := hs.target_mem chair j htarget
  have hcount := hs.count j
  rw [hs.paid j hpayer, List.count_eq_zero_of_not_mem (hseat.disjoint hpayer),
    hs.returned_target htarget hunreturned, Bool.toNat_true] at hcount
  have hne : j ≠ chair := fun h => hseat.disjoint hpayer (h ▸ hmem)
  change Function.update s.handCardCount chair _ j < 28
  rw [Function.update_of_ne hne]
  omega

theorem Balanced.count_le (hs : s.Balanced) (hseat : s.Seated) (hnodup : s.receivers.Nodup)
    (i : Chair) : s.handCardCount i ≤ maxCount := by
  have hmax : maxCount = 28 := rfl
  have hcount := hs.count i
  by_cases hreceiver : i ∈ s.receivers
  · rw [hs.returned_eq_zero fun h => hseat.disjoint h hreceiver,
      List.count_eq_one_of_mem hnodup hreceiver] at hcount
    omega
  · rw [List.count_eq_zero_of_not_mem hreceiver] at hcount
    by_cases hpayer : i ∈ s.payers
    · have hone := hs.returned_le_one i
      omega
    · rw [hs.returned_eq_zero hpayer] at hcount
      omega

/-- **A return** keeps the second stage or begins the plays. -/
theorem Returning.giveBack (hs : s.Returning) (hseat : s.Seated) (hmem : chair ∈ s.receivers)
    (hunreturned : s.tributeStatus chair = false) (card : UInt8) :
    ∃ s' out, s.onSubReturnTribute chair card = some (s', out) ∧ (s'.Returning ∨ s'.Started) ∧
      s.SameHand s' ∧ ∀ o ∈ out, o.Moves s.payers s.receivers := by
  obtain ⟨j, htarget⟩ := Option.ne_none_iff_exists'.1 ((hs.target_isSome chair).1 hmem)
  have hresult : s.result ≠ none := by
    intro h
    rw [receivers, h] at hmem
    cases hmem
  have hpayer := hs.target_mem chair j htarget
  have hroom := hs.target_room hseat hmem htarget hunreturned card
  have hbalanced := hs.toBalanced.gaveBack hmem card htarget hunreturned
  have hcurrent : (s.gaveBack chair j card).currentUser ≠ none ↔
      ∀ i ∈ s.receivers, (s.gaveBack chair j card).tributeStatus i = true :=
    gaveBack_current hs.toBalanced hmem
  refine ⟨_, _, onSubReturnTribute_eq hunreturned htarget hresult hroom, ?_, ?_, ?_⟩
  · cases huser : (s.gaveBack chair j card).currentUser with
    | none =>
      have hnot := (not_congr hcurrent).1 (not_not.2 huser)
      have hwaits : ∃ i ∈ s.receivers, (s.gaveBack chair j card).tributeStatus i = false := by
        simpa using hnot
      exact Or.inl ⟨hbalanced, hs.status, huser, hwaits⟩
    | some user =>
      have hreturned := hcurrent.1 (by rw [huser]; nofun)
      have hlevel := hbalanced.level (sameHand_gaveBack.seated hseat) hreturned
      exact Or.inr ⟨rfl, ⟨user, huser⟩, fun i => ⟨(hlevel i).1, (hlevel i).2.1⟩,
        fun hnodup i => (hlevel i).2.2 hnodup, hreturned, hbalanced.total⟩
  · cases (s.gaveBack chair j card).currentUser with
    | none => exact sameHand_gaveBack
    | some user => exact ⟨rfl, rfl, rfl, rfl, rfl, rfl, rfl, rfl, rfl, rfl, rfl, rfl⟩
  · have hmoves : Output.Moves s.payers s.receivers (.returnTribute chair (some j) card) :=
      ⟨hmem, j, hpayer, rfl⟩
    cases (s.gaveBack chair j card).currentUser with
    | none => exact List.forall_mem_singleton.2 hmoves
    | some user => exact List.forall_mem_cons.2 ⟨hmoves, List.forall_mem_singleton.2 trivial⟩

/-! ## The timers -/

def InTribute (s t : TableSink) (history : List Output) : Prop :=
  (t.Paying ∨ t.Returning) ∧ s.SameHand t ∧ ∀ o ∈ history, o.Moves s.payers s.receivers

/-- **The first timer** pays for those who have not paid. -/
theorem run_payFor (hs : s.Paying ∨ s.Returning) (hseat : s.Seated) :
    ∃ r, Machine.run payFor s s.payers = some r ∧ s.InTribute r.1 r.2 := by
  have hstep : ∀ t history chair, s.InTribute t history → chair ∈ s.payers →
      ∃ t' out, t.payFor chair = some (t', out) ∧ s.InTribute t' (history ++ out) := by
    rintro t history chair ⟨ht, hsame, hout⟩ hmem
    rw [← hsame.payers] at hmem
    by_cases hpaid : t.tributeStatus chair = true
    · exact ⟨t, [], if_pos hpaid, ht, hsame, by rwa [List.append_nil]⟩
    · have hunpaid : t.tributeStatus chair = false := Bool.eq_false_iff.2 hpaid
      obtain ht | ht := ht
      · obtain ⟨t', out, hpay, ht', hsame', hout'⟩ := ht.pay (hsame.seated hseat) hmem hunpaid
          (getJingongCard t.mainValue (t.handCardData chair))
        rw [hsame.payers, hsame.receivers] at hout'
        refine ⟨t', out, (if_neg hpaid).trans hpay, ht', hsame.trans hsame', ?_⟩
        exact List.forall_mem_append.2 ⟨hout, hout'⟩
      · exact absurd (ht.paid chair hmem) hpaid
  exact Machine.inv_run_total (P := s.InTribute) hstep s.payers s []
    ⟨hs, SameHand.refl s, by simp⟩ (Machine.along_of_mem s fun _ h => h)

/-- In the second tribute stage of one hand, or past it. -/
def InReturn (s t : TableSink) (history : List Output) : Prop :=
  (t.Returning ∨ t.Started) ∧ s.SameHand t ∧ ∀ o ∈ history, o.Moves s.payers s.receivers

/-- **The second timer** returns for those who have not returned, and the
plays begin. -/
theorem run_returnFor (hs : s.Returning) (hseat : s.Seated) :
    ∃ r, Machine.run returnFor s s.receivers = some r ∧ s.InReturn r.1 r.2 := by
  have hstep : ∀ t history chair, s.InReturn t history → chair ∈ s.receivers →
      ∃ t' out, t.returnFor chair = some (t', out) ∧ s.InReturn t' (history ++ out) := by
    rintro t history chair ⟨ht, hsame, hout⟩ hmem
    rw [← hsame.receivers] at hmem
    by_cases hreturned : t.tributeStatus chair = true
    · exact ⟨t, [], if_pos hreturned, ht, hsame, by rwa [List.append_nil]⟩
    · have hunreturned : t.tributeStatus chair = false := Bool.eq_false_iff.2 hreturned
      obtain ht | ht := ht
      · obtain ⟨t', out, hback, ht', hsame', hout'⟩ := ht.giveBack (hsame.seated hseat) hmem
          hunreturned ((t.handCardData chair).getD 27 0)
        rw [hsame.payers, hsame.receivers] at hout'
        refine ⟨t', out, (if_neg hreturned).trans hback, ht', hsame.trans hsame', ?_⟩
        exact List.forall_mem_append.2 ⟨hout, hout'⟩
      · exact absurd (ht.returned chair hmem) hreturned
  exact Machine.inv_run_total (P := s.InReturn) hstep s.receivers s []
    ⟨Or.inl hs, SameHand.refl s, by simp⟩ (Machine.along_of_mem s fun _ h => h)

end TableSink

end GameServer.GuanDan
