import GameServer.TexasHoldem.Table
/-!
# Texas hold'em — the chips of a hand

What a bet does to the chips once its amount is known (`Placed`), what a
hand starts with (`Dealt`), and the invariant of the chips: a player in
the hand has never more in than he has brought, and no amount wraps
around. It is kept by every event that names amounts a `LONG` can hold
(`Fits`).
-/

namespace GameServer.TexasHoldem

open Finset

variable {h : Hand} {p : TableSink}

/-- **What a hand keeps of the chips.** `ante` is what the players still in
may have left over. -/
structure Chips (ante : ℤ) (h : Hand) : Prop where
  table_nonneg : ∀ i, 0 ≤ h.tableScore i
  table_le : ∀ i, h.tableScore i ≤ h.totalScore i
  total_lt : ∀ i, h.totalScore i < 2 ^ 31
  max_nonneg : ∀ i, 0 ≤ h.userMaxScore i
  max_lt : ∀ i, h.userMaxScore i < 2 ^ 31
  gold_nonneg : ∀ i, h.playStatus i = true → 0 ≤ h.userTakeGold i
  total_le : ∀ i, h.playStatus i = true → h.totalScore i ≤ h.userMaxScore i
  gold_le : ∀ i, h.playStatus i = true →
    h.userTakeGold i + h.totalScore i ≤ h.userMaxScore i + ante
  max_add_lt : ∀ i, h.playStatus i = true → h.userMaxScore i + ante < 2 ^ 31
  ante_nonneg : ∀ i, h.playStatus i = true → 0 ≤ ante

/-- Bets may go off the table and players out of the hand. -/
theorem Chips.of_eq {ante : ℤ} {h' : Hand} (hs : Chips ante h)
    (table : ∀ i, h'.tableScore i = h.tableScore i ∨ h'.tableScore i = 0)
    (total : h'.totalScore = h.totalScore) (max : h'.userMaxScore = h.userMaxScore)
    (gold : h'.userTakeGold = h.userTakeGold)
    (play : ∀ i, h'.playStatus i = true → h.playStatus i = true) : Chips ante h' where
  table_nonneg i := by
    have := hs.table_nonneg i
    rcases table i with h | h <;> omega
  table_le i := by
    have := hs.table_nonneg i
    have := hs.table_le i
    rw [total]
    rcases table i with h | h <;> omega
  total_lt i := total ▸ hs.total_lt i
  max_nonneg i := max ▸ hs.max_nonneg i
  max_lt i := max ▸ hs.max_lt i
  gold_nonneg i hi := gold ▸ hs.gold_nonneg i (play i hi)
  total_le i hi := total ▸ max ▸ hs.total_le i (play i hi)
  gold_le i hi := total ▸ max ▸ gold ▸ hs.gold_le i (play i hi)
  max_add_lt i hi := max ▸ hs.max_add_lt i (play i hi)
  ante_nonneg i hi := hs.ante_nonneg i (play i hi)

/-- One chair brings something else. -/
theorem Chips.of_chair {ante : ℤ} {h' : Hand} {chair : Chair} (hs : Chips ante h)
    (table : h'.tableScore = h.tableScore) (total : h'.totalScore = h.totalScore)
    (play : h'.playStatus = h.playStatus)
    (others : ∀ i, i ≠ chair → h'.userTakeGold i = h.userTakeGold i ∧
      h'.userMaxScore i = h.userMaxScore i)
    (nonneg : 0 ≤ h'.userMaxScore chair) (lt : h'.userMaxScore chair < 2 ^ 31)
    (self : h.playStatus chair = true → 0 ≤ h'.userTakeGold chair ∧
      h.totalScore chair ≤ h'.userMaxScore chair ∧
      h'.userTakeGold chair + h.totalScore chair ≤ h'.userMaxScore chair + ante ∧
      h'.userMaxScore chair + ante < 2 ^ 31) : Chips ante h' := by
  constructor <;> intro i
  · exact table ▸ hs.table_nonneg i
  · exact table ▸ total ▸ hs.table_le i
  · exact total ▸ hs.total_lt i
  all_goals
    by_cases hi : i = chair
  · exact hi ▸ nonneg
  · exact (others i hi).2 ▸ hs.max_nonneg i
  · exact hi ▸ lt
  · exact (others i hi).2 ▸ hs.max_lt i
  all_goals
    rw [play]
    intro hplay
  · exact hi ▸ (self (hi ▸ hplay)).1
  · exact (others i hi).1 ▸ hs.gold_nonneg i hplay
  · rw [total]
    exact hi ▸ (self (hi ▸ hplay)).2.1
  · rw [total, (others i hi).2]
    exact hs.total_le i hplay
  · rw [total]
    exact hi ▸ (self (hi ▸ hplay)).2.2.1
  · rw [total, (others i hi).1, (others i hi).2]
    exact hs.gold_le i hplay
  · exact hi ▸ (self (hi ▸ hplay)).2.2.2
  · rw [(others i hi).2]
    exact hs.max_add_lt i hplay
  · exact hs.ante_nonneg i hplay
  · exact hs.ante_nonneg i hplay

/-- Chips are added up without a carry as long as the sum fits. -/
theorem foldl_int32_add {f : Chair → ℤ} (hf : ∀ i, 0 ≤ f i) : ∀ {l : List Chair} {sum : ℤ},
    0 ≤ sum → sum + (l.map f).sum < 2 ^ 31 →
      l.foldl (fun sum j => int32 (sum + f j)) sum = sum + (l.map f).sum
  | [], sum, _, _ => (add_zero sum).symm
  | j :: l, sum, hsum, hlt => by
    have := hf j
    have hrest : 0 ≤ (l.map f).sum := List.sum_nonneg (by simpa using fun i _ => hf i)
    rw [List.map_cons, List.sum_cons] at hlt ⊢
    rw [List.foldl_cons, int32_of_range (by omega) (by omega),
      foldl_int32_add hf (by omega) (by omega), add_assoc]

theorem int32_lt (x : ℤ) : int32 x < 2 ^ 31 := by
  rw [int32, Int.bmod_def]
  omega

namespace TableSink

variable {opt : ServiceOption} {s s' : TableSink} {chair : Chair} {l lScore ante : ℤ}
  {out : List Output} {e : TableEvent}

/-! ## A bet -/

/-- The bet is all the player has, or he says so. -/
def goesAllIn (s : TableSink) (chair : Chair) (l : ℤ) : Prop :=
  s.userMaxScore chair ≤ s.totalScore chair + l ∨ s.chipTypeID = .allIn

instance : Decidable (s.goesAllIn chair l) := inferInstanceAs (Decidable (_ ∨ _))

/-- A bet that the amounts allow. -/
structure Stake (s : TableSink) (chair : Chair) (l : ℤ) : Prop where
  nonneg : 0 ≤ l
  le : s.totalScore chair + l ≤ s.userMaxScore chair
  gold : s.playStatus chair = true → l ≤ s.userTakeGold chair

/-- A player in the hand bets no more than he has. -/
theorem Bets.stake (hb : Bets s chair lScore l s' out) (hs : Chips ante s.toHand)
    (hplay : s.playStatus chair = true) : Stake s chair l where
  nonneg := hb.nonneg
  gold _ := hb.gold
  le := by
    have hl := hb.chipIn
    have := hb.nonneg
    have := hb.gold
    have := hs.gold_le chair hplay
    have := hs.max_add_lt chair hplay
    have := hs.total_lt chair
    have := hs.max_nonneg chair
    have := hs.max_lt chair
    have := hs.table_nonneg chair
    have := hs.table_le chair
    rw [TableSink.chipIn] at hl
    split_ifs at hl with hclip
    · rw [int32_of_range (by omega) (by omega)] at hl
      omega
    · rw [hl, int32_of_range (by omega) (by omega)] at hclip
      omega

/-- The bet of nothing of a pass or a fold is one, whoever makes it. -/
theorem Bets.eq_zero (hb : Bets s chair 0 l s' out) (hs : Chips ante s.toHand)
    (htype : s.chipTypeID ≠ .gen ∧ s.chipTypeID ≠ .allIn) :
    l = 0 ∧ s.totalScore chair ≤ s.userMaxScore chair := by
  have hl := hb.chipIn
  have := hb.nonneg
  have := hs.total_lt chair
  have := hs.max_nonneg chair
  have := hs.max_lt chair
  have := hs.table_nonneg chair
  have := hs.table_le chair
  rw [TableSink.chipIn, askedScore, if_neg htype.1, if_neg htype.2, zero_add,
    int32_of_range (x := s.totalScore chair) (by omega) (by omega)] at hl
  split_ifs at hl with hclip
  · rw [int32_of_range (by omega) (by omega)] at hl
    omega
  · exact ⟨hl.symm, not_lt.1 hclip⟩

theorem isAllIn_placeBet (hs : Chips ante s.toHand) (hst : Stake s chair l) :
    (s.placeBet chair l).isAllIn chair ↔ s.goesAllIn chair l := by
  have := hst.nonneg
  have := hst.le
  have := hs.max_lt chair
  have := hs.table_nonneg chair
  have := hs.table_le chair
  have htotal : (s.placeBet chair l).totalScore chair = s.totalScore chair + l := by
    refine (Function.update_self ..).trans (int32_of_range (by omega) (by omega))
  rw [isAllIn, htotal]
  exact Iff.rfl

/-- **What a bet does to the chips.** -/
structure Placed (s : TableSink) (chair : Chair) (l : ℤ) (p : TableSink) : Prop where
  tableScore : p.tableScore = Function.update s.tableScore chair (s.tableScore chair + l)
  balanceScore : p.balanceScore = max s.balanceScore (s.tableScore chair + l)
  totalScore : p.totalScore = Function.update s.totalScore chair
    (if s.goesAllIn chair l then s.userMaxScore chair else s.totalScore chair + l)
  userTakeGold : p.userTakeGold = Function.update s.userTakeGold chair
    (if s.goesAllIn chair l then 0 else int32 (s.userTakeGold chair - l))
  turnMaxScore : p.turnMaxScore = Function.update s.turnMaxScore chair
    (int32 (s.turnMaxScore chair - l))
  showHand : p.showHand = Function.update s.showHand chair
    (s.showHand chair || decide (s.goesAllIn chair l))
  showHandBuffer : p.showHandBuffer = Function.update s.showHandBuffer chair
    (s.showHandBuffer chair || decide (s.goesAllIn chair l))
  chipTypeID : p.chipTypeID = if s.goesAllIn chair l then .allIn else s.chipTypeID
  userMaxScore : p.userMaxScore = s.userMaxScore
  playStatus : p.playStatus = s.playStatus
  operaCount : p.operaCount = s.operaCount
  passCardCount : p.passCardCount = s.passCardCount
  balanceCount : p.balanceCount = s.balanceCount

theorem placed_bet (hs : Chips ante s.toHand) (hst : Stake s chair l) :
    Placed s chair l (s.bet chair l) := by
  have := hst.nonneg
  have := hst.le
  have := hs.max_lt chair
  have := hs.table_nonneg chair
  have := hs.table_le chair
  have htable : int32 (s.tableScore chair + l) = s.tableScore chair + l :=
    int32_of_range (by omega) (by omega)
  have htotal : int32 (s.totalScore chair + l) = s.totalScore chair + l :=
    int32_of_range (by omega) (by omega)
  unfold TableSink.bet
  by_cases hall : s.goesAllIn chair l
  · rw [if_pos ((isAllIn_placeBet hs hst).2 hall)]
    constructor <;> simp only [setAllIn, placeBet, killGameTimer, hall, htable, if_true,
      Function.update_idem, decide_true, Bool.or_true]
  · rw [if_neg (mt (isAllIn_placeBet hs hst).1 hall)]
    constructor <;> simp only [placeBet, killGameTimer, hall, htable, htotal, if_false,
      decide_false, Bool.or_false, Function.update_eq_self]

theorem Placed.chips (hp : Placed s chair l p) (hs : Chips ante s.toHand)
    (hst : Stake s chair l) : Chips ante p.toHand := by
  have hnonneg := hst.nonneg
  have hle := hst.le
  have hgold := hst.gold
  constructor <;> intro i <;> have := hs.table_nonneg i <;> have := hs.table_le i
  · rw [hp.tableScore]
    by_cases hi : i = chair
    · subst hi
      rw [Function.update_self]
      omega
    · rwa [Function.update_of_ne hi]
  · rw [hp.tableScore, hp.totalScore]
    by_cases hi : i = chair
    · subst hi
      rw [Function.update_self, Function.update_self]
      split_ifs <;> omega
    · rwa [Function.update_of_ne hi, Function.update_of_ne hi]
  · have := hs.max_lt i
    rw [hp.totalScore]
    by_cases hi : i = chair
    · subst hi
      rw [Function.update_self]
      split_ifs <;> omega
    · rw [Function.update_of_ne hi]
      exact hs.total_lt i
  · rw [hp.userMaxScore]
    exact hs.max_nonneg i
  · rw [hp.userMaxScore]
    exact hs.max_lt i
  all_goals
    rw [hp.playStatus]
    intro hplay
    have := hs.max_nonneg i
    have := hs.gold_nonneg i hplay
    have := hs.total_le i hplay
    have := hs.gold_le i hplay
    have := hs.max_add_lt i hplay
    have := hs.ante_nonneg i hplay
  · rw [hp.userTakeGold]
    by_cases hi : i = chair
    · subst hi
      have := hgold hplay
      rw [Function.update_self, int32_of_range (by omega) (by omega)]
      split_ifs <;> omega
    · rwa [Function.update_of_ne hi]
  · rw [hp.totalScore, hp.userMaxScore]
    by_cases hi : i = chair
    · subst hi
      rw [Function.update_self]
      split_ifs <;> omega
    · rwa [Function.update_of_ne hi]
  · rw [hp.userTakeGold, hp.totalScore, hp.userMaxScore]
    by_cases hi : i = chair
    · subst hi
      have := hgold hplay
      rw [Function.update_self, Function.update_self, int32_of_range (by omega) (by omega)]
      split_ifs <;> omega
    · rwa [Function.update_of_ne hi, Function.update_of_ne hi]
  · rwa [hp.userMaxScore]
  · assumption

theorem afterBet_cases (h : s.afterBet chair l = (s', out)) :
    ((s.countBet chair l).finishTurn (chairBehind chair (s.nextHops chair)) = true ∧
        s' = (s.countBet chair l).closeRound ∧
        out = [.addScore chair s.tableBets, .turnOver s.tableBets]) ∨
      ((s.countBet chair l).finishTurn (chairBehind chair (s.nextHops chair)) = false ∧
        s' = (s.countBet chair l).continueTurn (chairBehind chair (s.nextHops chair)) ∧
        out = [.addScore chair s.tableBets]) := by
  simp only [afterBet] at h
  split_ifs at h with hfinish
  · cases h
    exact .inl ⟨hfinish, rfl, rfl⟩
  · cases h
    exact .inr ⟨by simpa using hfinish, rfl, rfl⟩

theorem closeRound_hand (s : TableSink) : s.closeRound.toHand =
    { s.toHand with
      balanceCount := (s.balanceCount + 1) % 2 ^ 8
      operaCount := 0, passCardCount := 0, balanceScore := 0, turnLessScore := 0
      turnMaxScore := fun i => if s.playStatus i then int32 (s.userMaxScore i - s.totalScore i)
        else s.turnMaxScore i
      aryChipPool := s.splitPools, tableScore := fun _ => 0, showHandBuffer := fun _ => false } := by
  unfold closeRound
  dsimp only
  split_ifs <;> rfl

theorem chips_afterBet (hs : Chips ante p.toHand)
    (h : p.afterBet chair l = (s', out)) : Chips ante s'.toHand := by
  rcases afterBet_cases h with ⟨-, rfl, -⟩ | ⟨-, rfl, -⟩
  · rw [closeRound_hand]
    exact hs.of_eq (fun i => .inr rfl) rfl rfl rfl fun i hi => hi
  · exact hs.of_eq (fun i => .inl rfl) rfl rfl rfl fun i hi => hi

theorem Bets.chips (hb : Bets s chair lScore l s' out) (hs : Chips ante s.toHand)
    (hst : Stake s chair l) : Chips ante s'.toHand :=
  chips_afterBet ((placed_bet hs hst).chips hs hst) hb.after

/-! ## The start of a hand -/

/-- Who is dealt in. -/
def seats (s : TableSink) (i : Chair) : Bool := (s.userItem i).isSome

def brings (s : TableSink) (i : Chair) : ℤ := ((s.userItem i).map fun u => int32 u.userScore).getD 0

/-- The chairs of a new hand: who has the small blind, the big one, and who
is first to bet. -/
def small (s : TableSink) : Chair :=
  { s with playStatus := s.seats }.nextPlaying { s with playStatus := s.seats }.nextDUser

def big (s : TableSink) : Chair := { s with playStatus := s.seats }.nextPlaying s.small

def third (s : TableSink) : Chair := { s with playStatus := s.seats }.nextPlaying s.big

/-- The blind of a chair, as far as `LONG` arithmetic goes. -/
def blind (opt : ServiceOption) (s : TableSink) (i : Chair) : ℤ :=
  if i = s.big then setScore opt 1
  else if i = s.small then if setScore opt 0 ≤ 0 then opt.cellScore else setScore opt 0
  else 0

/-- Blind and ante. -/
def post (opt : ServiceOption) (s : TableSink) (i : Chair) : ℤ := blind opt s i + setScore opt 3

/-- A start whose amounts a `LONG` can hold, with nobody in debt. -/
structure FitStart (opt : ServiceOption) (s : TableSink) : Prop where
  ante : 0 ≤ setScore opt 3
  blind : ∀ i, 0 ≤ blind opt s i
  post : ∀ i, post opt s i < 2 ^ 31
  brings : ∀ i, 0 ≤ s.brings i
  sum : ∀ i, s.brings i + setScore opt 3 < 2 ^ 31

instance : Decidable (FitStart opt s) :=
  decidable_of_iff (0 ≤ setScore opt 3 ∧ (∀ i, 0 ≤ TableSink.blind opt s i) ∧
      (∀ i, TableSink.post opt s i < 2 ^ 31) ∧ (∀ i, 0 ≤ s.brings i) ∧
      ∀ i, s.brings i + setScore opt 3 < 2 ^ 31)
    ⟨fun ⟨h₁, h₂, h₃, h₄, h₅⟩ => ⟨h₁, h₂, h₃, h₄, h₅⟩,
      fun h => ⟨h.ante, h.blind, h.post, h.brings, h.sum⟩⟩

theorem nextPlaying_spec {c : Chair} (h : ∃ i, i ≠ c ∧ s.playStatus i = true) :
    s.playStatus (s.nextPlaying c) = true ∧ s.nextPlaying c ≠ c ∧
      ∀ i, i ≠ c → placesBehind c i < placesBehind c (s.nextPlaying c) → s.playStatus i = false := by
  obtain ⟨i, hi, hplay⟩ := h
  unfold nextPlaying
  have hpos : placesBehind c i ≠ 0 := fun h0 => hi (placesBehind_eq_zero.1 h0)
  have hlt := placesBehind_lt c i
  cases hsearch : searchChair c 1 gamePlayer s.playStatus with
  | none =>
    have := searchChair_eq_none hsearch (placesBehind c i) (by omega) (by omega)
    rw [chairBehind_placesBehind, hplay] at this
    cases this
  | some k =>
    obtain ⟨hk₁, -, hok, hbefore⟩ := searchChair_eq_some hsearch
    rw [Option.getD_some]
    have hle : k ≤ placesBehind c i := by
      by_contra hgt
      have := hbefore (placesBehind c i) (by omega) (by omega)
      rw [chairBehind_placesBehind, hplay] at this
      cases this
    have hplace := placesBehind_chairBehind c (lt_of_le_of_lt hle hlt)
    refine ⟨hok, fun heq => ?_, fun j hj hlt' => ?_⟩
    · rw [heq, placesBehind_eq_zero.2 rfl] at hplace
      omega
    · rw [hplace] at hlt'
      have hpos' : placesBehind c j ≠ 0 := fun h0 => hj (placesBehind_eq_zero.1 h0)
      have := hbefore (placesBehind c j) (by omega) hlt'
      rwa [chairBehind_placesBehind] at this

section

variable (two : 2 ≤ chairs.countP fun i => (s.userItem i).isSome)
include two

theorem exists_other_seat (c : Chair) : ∃ i, i ≠ c ∧ s.seats i = true := by
  rw [countP_chairs] at two
  obtain ⟨i, hi, hne⟩ := exists_mem_ne (lt_of_lt_of_le one_lt_two two) c
  exact ⟨i, hne, (mem_filter.1 hi).2⟩

theorem small_ne_big : s.small ≠ s.big :=
  (nextPlaying_spec (s := { s with playStatus := s.seats }) (exists_other_seat two s.small)).2.1.symm

theorem seats_small : s.seats s.small = true :=
  (nextPlaying_spec (s := { s with playStatus := s.seats }) (exists_other_seat two _)).1

theorem seats_big : s.seats s.big = true :=
  (nextPlaying_spec (s := { s with playStatus := s.seats }) (exists_other_seat two _)).1

theorem seats_third : s.seats s.third = true :=
  (nextPlaying_spec (s := { s with playStatus := s.seats }) (exists_other_seat two _)).1

end

/-- **What a hand starts with.** -/
structure Dealt (opt : ServiceOption) (s t : TableSink) : Prop where
  playStatus : t.playStatus = s.seats
  fristPlayStatus : t.fristPlayStatus = s.seats
  userMaxScore : t.userMaxScore = s.brings
  showHand : ∀ i, t.showHand i = (s.seats i && decide (s.brings i ≤ post opt s i))
  showHandBuffer : ∀ i, t.showHandBuffer i = t.showHand i
  tableScore : ∀ i, t.tableScore i = if s.seats i then min (post opt s i) (s.brings i) else 0
  totalScore : ∀ i, t.totalScore i = t.tableScore i
  userTakeGold : ∀ i, s.seats i = true →
    t.userTakeGold i = if t.showHand i then 0 else s.brings i - blind opt s i
  turnMaxScore : ∀ i, s.seats i = true → t.turnMaxScore i = s.brings i - t.totalScore i
  balanceScore : t.balanceScore = t.tableScore s.big
  wCurrentUser : t.wCurrentUser =
    if t.showHand s.third then
      (((List.range gamePlayer).drop 1).map fun i => chairBehind s.third (i * (i + 1) / 2)).find?
        t.canBet
    else some s.third
  turnLessScore : t.turnLessScore = t.balanceScore - (t.wCurrentUser.map t.totalScore).getD 0
  operaCount : t.operaCount = 0
  passCardCount : t.passCardCount = 0
  balanceCount : t.balanceCount = 0
  gameStarted : t.gameStarted = true
  gameOver : t.gameOver = s.gameOver
  inGame : ∀ i, t.inGame i = s.seats i
  timers : .addBuffer ∈ t.timers ↔ .addBuffer ∈ s.timers

theorem postBlinds_spec {u : TableSink} (hfit : FitStart opt s) (hne : s.small ≠ s.big)
    (htable : u.tableScore = fun _ => 0) (htotal : u.totalScore = fun _ => 0)
    (hgold : u.userTakeGold = s.brings) :
    (u.postBlinds opt s.small s.big).tableScore = blind opt s ∧
      (u.postBlinds opt s.small s.big).totalScore = blind opt s ∧
      (u.postBlinds opt s.small s.big).userTakeGold = fun i => s.brings i - blind opt s i := by
  have htable' : (u.postBlinds opt s.small s.big).tableScore = blind opt s := by
    funext i
    simp only [postBlinds, htable, Function.update_of_ne hne, Function.update_self, blind]
    split_ifs with h₀ hbig hsmall hbig hsmall
    · subst hbig
      rw [Function.update_of_ne hne.symm, Function.update_self]
    · subst hsmall
      rw [Function.update_self]
    · rw [Function.update_of_ne hsmall, Function.update_of_ne hbig, Function.update_of_ne hsmall]
    · subst hbig
      rw [Function.update_self]
    · subst hsmall
      rw [Function.update_of_ne hne, Function.update_self]
    · rw [Function.update_of_ne hbig, Function.update_of_ne hsmall]
  have hrange : ∀ i, int32 (s.brings i - blind opt s i) = s.brings i - blind opt s i := by
    intro i
    have := hfit.blind i
    have := hfit.post i
    have := hfit.brings i
    have := hfit.sum i
    have := hfit.ante
    exact int32_of_range (by rw [TableSink.post] at *; omega) (by rw [TableSink.post] at *; omega)
  refine ⟨htable', ?_, ?_⟩
  · have hdef : (u.postBlinds opt s.small s.big).totalScore =
        Function.update (Function.update u.totalScore s.small
          ((u.postBlinds opt s.small s.big).tableScore s.small)) s.big
          ((u.postBlinds opt s.small s.big).tableScore s.big) := rfl
    rw [hdef, htable', htotal]
    funext i
    by_cases hbig : i = s.big
    · subst hbig
      rw [Function.update_self]
    · rw [Function.update_of_ne hbig]
      by_cases hsmall : i = s.small
      · subst hsmall
        rw [Function.update_self]
      · rw [Function.update_of_ne hsmall, blind, if_neg hbig, if_neg hsmall]
  · have hdef : (u.postBlinds opt s.small s.big).userTakeGold =
        let less := fun (f : Chair → ℤ) i => Function.update f i
          (int32 (f i - (u.postBlinds opt s.small s.big).tableScore i))
        less (less u.userTakeGold s.small) s.big := rfl
    rw [hdef, htable', hgold]
    funext i
    dsimp only
    rw [Function.update_of_ne hne.symm, hrange, hrange]
    by_cases hbig : i = s.big
    · subst hbig
      rw [Function.update_self]
    · rw [Function.update_of_ne hbig]
      by_cases hsmall : i = s.small
      · subst hsmall
        rw [Function.update_self]
      · rw [Function.update_of_ne hsmall, blind, if_neg hbig, if_neg hsmall, sub_zero]

theorem postAnte_spec {u : TableSink} (hfit : FitStart opt s) (two : s.seats s.small = true)
    (twoBig : s.seats s.big = true) (hplay : u.playStatus = s.seats)
    (htable : u.tableScore = blind opt s) (htotal : u.totalScore = blind opt s)
    (hmax : u.userMaxScore = s.brings) (hshow : u.showHand = fun _ => false)
    (hbuffer : u.showHandBuffer = fun _ => false) (i : Chair) :
    let t := u.postAnte opt
    t.showHand i = (s.seats i && decide (s.brings i ≤ post opt s i)) ∧
      t.showHandBuffer i = t.showHand i ∧
      t.tableScore i = (if s.seats i then min (post opt s i) (s.brings i) else 0) ∧
      t.totalScore i = t.tableScore i ∧
      t.userTakeGold i = (if t.showHand i then 0 else u.userTakeGold i) ∧
      (s.seats i = true → t.turnMaxScore i = s.brings i - t.totalScore i) := by
  have h₁ := hfit.blind i
  have h₂ := hfit.post i
  have h₃ := hfit.brings i
  have h₄ := hfit.sum i
  have h₅ := hfit.ante
  have hpost : int32 (blind opt s i + setScore opt 3) = post opt s i := by
    rw [int32_of_range (by omega) (by rw [TableSink.post] at h₂; omega), TableSink.post]
  have hout : s.seats i = false → blind opt s i = 0 := by
    intro hi
    rw [TableSink.blind, if_neg, if_neg]
    · rintro rfl
      rw [two] at hi
      cases hi
    · rintro rfl
      rw [twoBig] at hi
      cases hi
  simp only [postAnte, hplay, htable, htotal, hmax, hshow, hbuffer, hpost, Bool.or_false]
  have hpost' : post opt s i = blind opt s i + setScore opt 3 := rfl
  cases hseat : s.seats i with
  | false => simp [hout hseat]
  | true =>
    by_cases hall : s.brings i ≤ post opt s i
    · simp [hall, int32_of_range]
    · have hmin : min (post opt s i) (s.brings i) = post opt s i := min_eq_left (by omega)
      simp [hall, hmin]
      exact int32_of_range (by omega) (by omega)

theorem enterGame_user (s : TableSink) (i : Chair) :
    (s.enterGame.userItem i).isSome = s.seats i ∧ s.enterGame.inGame i = s.seats i ∧
      ((s.enterGame.userItem i).map fun u => int32 u.userScore).getD 0 = s.brings i := by
  have hdef : s.enterGame.userItem i = (s.userItem i).map fun u =>
      if u.userStatus = .offline then u else { u with userStatus := .playing } := rfl
  rw [inGame, hasStatus, hasStatus, hdef, seats, brings]
  cases s.userItem i with
  | none => exact ⟨rfl, rfl, rfl⟩
  | some u =>
    simp only [Option.map_some, Option.isSome_some, Option.getD_some, Option.any_some]
    split_ifs with hu <;> simp [hu]

/-- **The start of a hand.** -/
theorem dealt_startGame (hfit : FitStart opt s) (idle : s.gameStarted = false)
    (two : 2 ≤ chairs.countP fun i => (s.userItem i).isSome) (cards : HandCards) :
    Dealt opt s (s.startGame opt cards) := by
  obtain ⟨u, hu⟩ : ∃ u, u = s.enterGame.dealIn cards := ⟨_, rfl⟩
  have hseats : u.playStatus = s.seats := by
    rw [hu]
    exact funext fun i => (enterGame_user s i).1
  have hbrings : u.userMaxScore = s.brings := by
    rw [hu]
    exact funext fun i => (enterGame_user s i).2.2
  have hdealer : u.nextDUser = { s with playStatus := s.seats }.nextDUser := by
    unfold nextDUser
    rw [hseats, hu]
    rfl
  have hnext : ∀ c, u.nextPlaying c = { s with playStatus := s.seats }.nextPlaying c := by
    intro c
    unfold nextPlaying
    rw [hseats]
  obtain ⟨v, hv⟩ : ∃ v, v = { u with wDUser := some u.nextDUser }.postBlinds opt s.small s.big :=
    ⟨_, rfl⟩
  obtain ⟨htable, htotal, hgold⟩ := postBlinds_spec (u := { u with wDUser := some u.nextDUser })
    hfit (small_ne_big two) (by rw [hu]; rfl) (by rw [hu]; rfl)
    (by rw [hu]; exact funext fun i => (enterGame_user s i).2.2)
  have hante := postAnte_spec (u := v) hfit (seats_small two) (seats_big two)
    (by rw [hv]; exact hseats) (by rw [hv]; exact htable) (by rw [hv]; exact htotal)
    (by rw [hv]; exact hbrings) (by rw [hv, hu]; rfl) (by rw [hv, hu]; rfl)
  have hstart : s.startGame opt cards = (v.postAnte opt).openBetting s.big s.third := by
    have hgo : ¬ (s.gameStarted = true ∨ chairs.countP (fun i => (s.userItem i).isSome) < 2) := by
      rintro (hgo | hgo)
      · rw [idle] at hgo
        cases hgo
      · omega
    rw [startGame, if_neg hgo, onEventGameStart, ← hu, hnext, hdealer, ← small, hnext, ← big, hnext,
      ← third, ← hdealer, ← hv]
  have hmax : (v.postAnte opt).userMaxScore = s.brings := by
    rw [← hbrings, hv]
    rfl
  have hgold' : v.userTakeGold = fun i => s.brings i - blind opt s i := by
    rw [hv]
    exact hgold
  have hrange : ∀ i, 0 ≤ (v.postAnte opt).tableScore i ∧ (v.postAnte opt).tableScore i < 2 ^ 31 ∧
      (v.postAnte opt).totalScore i = (v.postAnte opt).tableScore i := by
    intro i
    obtain ⟨-, -, h₁, h₂, -⟩ := hante i
    have := hfit.ante
    have := hfit.blind i
    have := hfit.post i
    have := hfit.brings i
    have hpost : post opt s i = blind opt s i + setScore opt 3 := rfl
    rw [h₁]
    refine ⟨?_, ?_, h₂.trans h₁⟩ <;> split_ifs <;> omega
  have hcount : (v.postAnte opt).operaCount = 0 ∧ (v.postAnte opt).passCardCount = 0 ∧
      (v.postAnte opt).balanceCount = 0 ∧ (v.postAnte opt).gameStarted = true ∧
      (v.postAnte opt).gameOver = s.gameOver ∧ (v.postAnte opt).timers = s.timers := by
    rw [hv, hu]
    exact ⟨rfl, rfl, rfl, rfl, rfl, rfl⟩
  rw [hstart]
  exact
    { playStatus := by rw [← hseats, hv]; rfl
      fristPlayStatus := by
        rw [hv, hu]
        exact funext fun i => (enterGame_user s i).1
      userMaxScore := hmax
      showHand := fun i => (hante i).1
      showHandBuffer := fun i => (hante i).2.1
      tableScore := fun i => (hante i).2.2.1
      totalScore := fun i => (hante i).2.2.2.1
      userTakeGold := fun i _ => (hante i).2.2.2.2.1.trans (by rw [hgold']; rfl)
      turnMaxScore := fun i => (hante i).2.2.2.2.2
      balanceScore := rfl
      wCurrentUser := rfl
      turnLessScore := by
        rw [openBetting]
        dsimp only [setGameTimer]
        cases (v.postAnte opt).firstPlayer s.third with
        | none => simp
        | some c =>
          have h₁ := hrange s.big
          have h₂ := hrange c
          rw [Option.map_some, Option.getD_some]
          exact int32_of_range (by omega) (by omega)
      operaCount := hcount.1
      passCardCount := hcount.2.1
      balanceCount := hcount.2.2.1
      gameStarted := hcount.2.2.2.1
      gameOver := hcount.2.2.2.2.1
      inGame := fun i => by
        rw [hv, hu]
        exact (enterGame_user s i).2.1
      timers := by
        have := hcount.2.2.2.2.2
        rw [openBetting, mem_setGameTimer, ← this]
        simp }

/-! ## The invariant -/

/-- No hand is on: nothing is on the table. -/
def Idle (h : Hand) : Prop :=
  h = { userTakeGold := h.userTakeGold, userMaxScore := h.userMaxScore
        showHandBuffer := h.showHandBuffer }

/-- **What a table keeps**, as far as the amounts fit. -/
structure Sound (opt : ServiceOption) (s : TableSink) : Prop where
  chips : Chips (setScore opt 3) s.toHand
  idle : s.gameStarted = false → Idle s.toHand
  ended : s.gameOver = true → s.gameStarted = true

/-- An event whose amounts a `LONG` can hold, and that seats nobody in the
hand of a player who has left. -/
def Fits (opt : ServiceOption) (s : TableSink) : TableEvent → Prop
  | .startGame _ => s.gameStarted = false →
      2 ≤ chairs.countP (fun i => (s.userItem i).isSome) → FitStart opt s
  | .addTakeGold chair lookon _ => lookon = true ∨ s.inGame chair = false →
      ∀ u ∈ s.userItem chair,
        0 ≤ int32 u.trusteeScore ∧ int32 u.trusteeScore + setScore opt 3 < 2 ^ 31
  | .sitDown chair userScore _ => 0 ≤ int32 userScore ∧ s.playStatus chair = false
  | _ => True

instance : ∀ e, Decidable (Fits opt s e)
  | .startGame _ => inferInstanceAs (Decidable (_ → _ → FitStart opt s))
  | .addTakeGold chair _ _ => inferInstanceAs (Decidable (_ → ∀ u ∈ s.userItem chair, _))
  | .sitDown .. => inferInstanceAs (Decidable (_ ∧ _))
  | .addScore .. | .giveUp _ | .lookCard | .lookNoCard | .gameOver | .playEnd .. | .timer _
  | .standUp _ | .dismiss | .userScore .. | .offLine _ | .onLine _ => isTrue trivial

theorem chips_zero (table : h.tableScore = fun _ => 0) (total : h.totalScore = fun _ => 0)
    (play : h.playStatus = fun _ => false) (max : ∀ i, 0 ≤ h.userMaxScore i ∧
      h.userMaxScore i < 2 ^ 31) : Chips ante h := by
  constructor <;> intro i
  · rw [table]
  · rw [table, total]
  · rw [total]
    exact (by decide : (0 : ℤ) < 2 ^ 31)
  · exact (max i).1
  · exact (max i).2
  all_goals
    rw [play]
    intro hi
    cases hi

theorem Dealt.chips {t : TableSink} (ht : Dealt opt s t) (hfit : FitStart opt s) :
    Chips (setScore opt 3) t.toHand := by
  have hante := hfit.ante
  have hpost : ∀ i, post opt s i = blind opt s i + setScore opt 3 := fun i => rfl
  have hmax : ∀ i, t.userMaxScore i = s.brings i := fun i => by rw [ht.userMaxScore]
  constructor <;> intro i <;> have h₁ := hfit.blind i <;> have h₂ := hfit.post i <;>
    have h₃ := hfit.brings i <;> have h₄ := hfit.sum i <;> have h₅ := hpost i
  · rw [ht.tableScore]
    split_ifs <;> omega
  · exact (ht.totalScore i).ge
  · rw [ht.totalScore, ht.tableScore]
    split_ifs <;> omega
  · rw [hmax]
    omega
  · rw [hmax]
    omega
  all_goals
    rw [ht.playStatus]
    intro hplay
  · rw [ht.userTakeGold i hplay, ht.showHand, hplay]
    simp only [Bool.true_and, decide_eq_true_eq]
    split_ifs <;> omega
  · rw [ht.totalScore, ht.tableScore, hmax, if_pos hplay]
    omega
  · rw [ht.userTakeGold i hplay, ht.showHand, ht.totalScore, ht.tableScore, hmax, if_pos hplay, hplay]
    simp only [Bool.true_and, decide_eq_true_eq]
    split_ifs <;> omega
  · rw [hmax]
    omega
  · exact hante

theorem Sound.current {chair : Chair} (hs : Sound opt s) (h : s.wCurrentUser = some chair) :
    s.gameStarted = true := by
  by_contra hstart
  have hidle := hs.idle (by simpa using hstart)
  rw [Idle] at hidle
  rw [hidle] at h
  cases h

theorem chips_outOf (hs : Chips ante s.toHand) : Chips ante (s.outOf chair).toHand := by
  refine hs.of_eq (fun i => .inl rfl) rfl rfl rfl fun i hi => ?_
  have hplay : Function.update s.playStatus chair false i = true := hi
  by_cases h : i = chair
  · rw [h, Function.update_self] at hplay
    cases hplay
  · rwa [Function.update_of_ne h] at hplay

theorem outOf_type (s : TableSink) (chair : Chair) :
    (s.outOf chair).chipTypeID ≠ .gen ∧ (s.outOf chair).chipTypeID ≠ .allIn := by
  simp only [outOf]
  split_ifs <;> decide

theorem outOf_playStatus (s : TableSink) (chair : Chair) :
    (s.outOf chair).playStatus chair = false :=
  Function.update_self ..

theorem Bets.stake_zero (hb : Bets s chair 0 l s' out) (hs : Chips ante s.toHand)
    (htype : s.chipTypeID ≠ .gen ∧ s.chipTypeID ≠ .allIn) : l = 0 ∧ Stake s chair l := by
  obtain ⟨rfl, hle⟩ := hb.eq_zero hs htype
  exact ⟨rfl, le_rfl, by omega, fun hplay => hs.gold_nonneg chair hplay⟩

theorem Folds.chips (hf : Folds s chair s' out) (hs : Chips ante s.toHand) :
    Chips ante s'.toHand := by
  obtain ⟨s₁, hcase, rfl⟩ := hf.after
  have hchips : Chips ante s₁.toHand := by
    rcases hcase with ⟨l, hb⟩ | ⟨rfl, -, -⟩
    · exact hb.chips (chips_outOf hs) (hb.stake_zero (chips_outOf hs) (outOf_type s chair)).2
    · exact chips_outOf hs
  split_ifs
  · exact hchips
  · exact hchips

theorem bet_table (s : TableSink) (chair : Chair) (l : ℤ) :
    (s.bet chair l).userItem = s.userItem ∧ (s.bet chair l).wCurrentUser = s.wCurrentUser ∧
      (s.bet chair l).timers = (s.killGameTimer .game).timers ∧ Kept s (s.bet chair l) := by
  unfold TableSink.bet
  split_ifs <;> exact ⟨rfl, rfl, rfl, ⟨rfl, rfl, rfl, rfl, rfl⟩⟩

theorem closeRound_table (s : TableSink) :
    s.closeRound.userItem = s.userItem ∧ (∀ t ∈ s.timers, t ∈ s.closeRound.timers) ∧
      (s.chipTypeID ≠ .over → .addBuffer ∈ s.closeRound.timers) ∧ Kept s s.closeRound := by
  unfold closeRound
  dsimp only
  split_ifs with hover
  · exact ⟨rfl, fun t ht => ht, fun h => absurd hover h, ⟨rfl, rfl, rfl, rfl, rfl⟩⟩
  · exact ⟨rfl, fun t ht => mem_setGameTimer.2 (.inl ht), fun _ => mem_setGameTimer.2 (.inr rfl),
      ⟨rfl, rfl, rfl, rfl, rfl⟩⟩

theorem afterBet_table (h : s.afterBet chair l = (s', out)) :
    s'.userItem = s.userItem ∧ Kept s s' ∧ s'.playStatus = s.playStatus ∧
      s'.showHand = s.showHand ∧ s'.totalScore = s.totalScore ∧
      s'.userTakeGold = s.userTakeGold ∧ s'.userMaxScore = s.userMaxScore := by
  rcases afterBet_cases h with ⟨-, rfl, -⟩ | ⟨-, rfl, -⟩
  · have hand := closeRound_hand (s.countBet chair l)
    obtain ⟨huser, -, -, hkept⟩ := closeRound_table (s.countBet chair l)
    refine ⟨huser, ⟨hkept.1, hkept.2, hkept.3, hkept.4, hkept.5⟩, ?_, ?_, ?_, ?_, ?_⟩ <;>
      rw [hand] <;> rfl
  · exact ⟨rfl, ⟨rfl, rfl, rfl, rfl, rfl⟩, rfl, rfl, rfl, rfl, rfl⟩

theorem afterBet_started (h : p.afterBet chair l = (s', out)) :
    s'.gameStarted = p.gameStarted ∧ s'.gameOver = p.gameOver :=
  ⟨(afterBet_table h).2.1.gameStarted, (afterBet_table h).2.1.gameOver⟩

theorem Bets.started (hb : Bets s chair lScore l s' out) :
    s'.gameStarted = s.gameStarted ∧ s'.gameOver = false := by
  obtain ⟨h₁, h₂⟩ := afterBet_started hb.after
  obtain ⟨-, -, -, hkept⟩ := bet_table s chair l
  exact ⟨h₁.trans hkept.gameStarted, (h₂.trans hkept.gameOver).trans hb.notOver⟩

theorem Folds.started (hf : Folds s chair s' out) : s'.gameStarted = s.gameStarted := by
  obtain ⟨s₁, hcase, rfl⟩ := hf.after
  have hstart : s₁.gameStarted = s.gameStarted := by
    rcases hcase with ⟨l, hb⟩ | ⟨rfl, -, -⟩
    · exact hb.started.1
    · rfl
  split_ifs
  · exact hstart
  · exact hstart

theorem sound_of_started (hchips : Chips (setScore opt 3) s'.toHand) (hstart : s'.gameStarted = true) :
    Sound opt s' where
  chips := hchips
  idle h := by
    rw [hstart] at h
    cases h
  ended _ := hstart

theorem Concluded.chips (hc : Concluded s s') (hs : Sound opt s) : Chips ante s'.toHand := by
  have hmax : ∀ i, 0 ≤ s'.userMaxScore i ∧ s'.userMaxScore i < 2 ^ 31 := by
    intro i
    have := hs.chips.max_nonneg i
    have := hs.chips.max_lt i
    rcases hc.userMaxScore i with h | h <;> omega
  cases hstart : s.gameStarted with
  | false =>
    have hidle := hs.idle hstart
    rw [Idle] at hidle
    have hgold := hc.gold hstart
    rw [hidle] at hgold
    exact chips_zero (by rw [hgold]) (by rw [hgold]) (by rw [hgold]) hmax
  | true =>
    have hidle := hc.idle hstart
    exact chips_zero (by rw [hidle]) (by rw [hidle]) (by rw [hidle]) hmax

theorem Concluded.sound (hc : Concluded s s') (hs : Sound opt s) : Sound opt s' where
  chips := hc.chips hs
  idle _ := by
    cases hstart : s.gameStarted with
    | false =>
      have hidle := hs.idle hstart
      rw [Idle] at hidle ⊢
      have hgold := hc.gold hstart
      rw [hidle] at hgold
      rw [hgold]
    | true =>
      rw [Idle]
      have hidle := hc.idle hstart
      rw [hidle]
  ended h := by
    rw [hc.gameOver] at h
    cases h

theorem Folds.sound (hf : Folds s chair s' out) (hs : Sound opt s) : Sound opt s' :=
  sound_of_started (hf.chips hs.chips) (hf.started.trans (hs.current hf.current))

/-- Gold that is brought later counts on both sides. -/
theorem onUserAddTakeGold_cases {trusteeScore addTake : ℤ} (hs : Chips (setScore opt 3) s.toHand)
    (htrustee : 0 ≤ int32 trusteeScore) :
    s.onUserAddTakeGold opt chair trusteeScore addTake = s ∨
      0 < addTake ∧ s.userMaxScore chair + addTake ≤ int32 trusteeScore ∧
        ∃ gold, (s.playStatus chair = true → int32 trusteeScore + setScore opt 3 < 2 ^ 31 →
            gold = s.userTakeGold chair + addTake) ∧
          s.onUserAddTakeGold opt chair trusteeScore addTake = { s with
            userTakeGold := Function.update s.userTakeGold chair gold
            userMaxScore := Function.update s.userMaxScore chair
              (s.userMaxScore chair + addTake) } := by
  unfold onUserAddTakeGold
  dsimp only
  split_ifs with hno
  · exact .inl rfl
  · rw [not_or, not_or, not_or, not_or] at hno
    obtain ⟨hpos, hleft, -⟩ := hno
    have := hs.max_nonneg chair
    have := hs.max_lt chair
    have hscore := int32_lt trusteeScore
    rw [int32_of_range (x := int32 trusteeScore - s.userMaxScore chair) (by omega) (by omega)] at hleft
    have hmax : int32 (s.userMaxScore chair + addTake) = s.userMaxScore chair + addTake :=
      int32_of_range (by omega) (by omega)
    refine .inr ⟨by omega, by omega, _, fun hplay hsum => ?_, by rw [hmax]⟩
    have := hs.gold_nonneg chair hplay
    have := hs.gold_le chair hplay
    have := hs.table_nonneg chair
    have := hs.table_le chair
    exact int32_of_range (by omega) (by omega)

theorem chips_onUserAddTakeGold {trusteeScore addTake : ℤ} (hs : Chips (setScore opt 3) s.toHand)
    (htrustee : 0 ≤ int32 trusteeScore) (hsum : int32 trusteeScore + setScore opt 3 < 2 ^ 31) :
    Chips (setScore opt 3) (s.onUserAddTakeGold opt chair trusteeScore addTake).toHand := by
  rcases onUserAddTakeGold_cases hs htrustee with h | ⟨hpos, hle, gold, hgold, h⟩
  · rw [h]
    exact hs
  · rw [h]
    have := hs.max_nonneg chair
    have := int32_lt trusteeScore
    refine hs.of_chair rfl rfl rfl (fun i hi => ⟨Function.update_of_ne hi _ _,
      Function.update_of_ne hi _ _⟩) ?_ ?_ fun hplay => ?_
    · dsimp only
      rw [Function.update_self]
      omega
    · dsimp only
      rw [Function.update_self]
      omega
    · have := hs.gold_nonneg chair hplay
      have := hs.total_le chair hplay
      have := hs.gold_le chair hplay
      dsimp only
      rw [Function.update_self, Function.update_self, hgold hplay hsum]
      omega

theorem onUserAddTakeGold_kept (opt : ServiceOption) (s : TableSink) (chair : Chair)
    (trusteeScore addTake : ℤ) :
    let s' := s.onUserAddTakeGold opt chair trusteeScore addTake
    s'.toHand = { s.toHand with
      userTakeGold := s'.userTakeGold, userMaxScore := s'.userMaxScore } ∧
      Kept s s' ∧ s'.userItem = s.userItem ∧ s'.timers = s.timers := by
  unfold onUserAddTakeGold
  dsimp only
  split_ifs <;> exact ⟨rfl, ⟨rfl, rfl, rfl, rfl, rfl⟩, rfl, rfl⟩

theorem userMaxScore_onUserAddTakeGold (opt : ServiceOption) (s : TableSink) (chair : Chair)
    (trusteeScore addTake : ℤ) (i : Chair) (hi : i ≠ chair) :
    (s.onUserAddTakeGold opt chair trusteeScore addTake).userMaxScore i = s.userMaxScore i := by
  unfold onUserAddTakeGold
  dsimp only
  split_ifs
  · rfl
  · exact Function.update_of_ne hi _ _

/-- A sound table stays sound when only seats, timers and gold change. -/
theorem Sound.of_kept (hs : Sound opt s) (hkept : Kept s s')
    (hchips : Chips (setScore opt 3) s'.toHand) (hidle : Idle s.toHand → Idle s'.toHand) :
    Sound opt s' where
  chips := hchips
  idle h := hidle (hs.idle (hkept.gameStarted ▸ h))
  ended h := by
    rw [hkept.gameStarted]
    exact hs.ended (hkept.gameOver ▸ h)

theorem Idle.deal (hidle : Idle s.toHand) (hand : s'.toHand = { s.toHand with
      wCurrentUser := s'.wCurrentUser, tableScore := fun _ => 0 })
    (current : s'.wCurrentUser = s.wCurrentUser ∨ ∃ c, s'.wCurrentUser = some c ∧ s.canBet c = true) :
    Idle s'.toHand := by
  have hcur : s'.wCurrentUser = none := by
    rcases current with h | ⟨c, -, hc⟩
    · rw [h, hidle]
    · rw [Hand.canBet, hidle] at hc
      cases hc
  rw [Idle] at hidle ⊢
  rw [hcur, hidle] at hand
  rw [hand]

theorem deal_current {d : ℕ} (h : s'.wCurrentUser = ((((List.range gamePlayer).drop 1).map fun i =>
    Fin.ofNat gamePlayer (d + i)).find? fun i => (s.userItem i).isSome && s.canBet i).or
      s.wCurrentUser) :
    s'.wCurrentUser = s.wCurrentUser ∨ ∃ c, s'.wCurrentUser = some c ∧ s.canBet c = true := by
  cases hfind : ((((List.range gamePlayer).drop 1).map fun i =>
      Fin.ofNat gamePlayer (d + i)).find? fun i => (s.userItem i).isSome && s.canBet i) with
  | none =>
    rw [hfind, Option.none_or] at h
    exact .inl h
  | some c =>
    rw [hfind, Option.some_or] at h
    have := List.find?_some hfind
    rw [Bool.and_eq_true] at this
    exact .inr ⟨c, h, this.2⟩

/-- **The table stays sound.** -/
theorem step_keeps_sound (hs : Sound opt s) (hfits : Fits opt s e)
    (h : step opt s e = some (s', out)) : Sound opt s' := by
  cases step_change h with
  | quiet hand kept _ _ => exact hs.of_kept kept (hand ▸ hs.chips) fun h => hand ▸ h
  | start idle two =>
    have hfit := hfits idle two
    have hdealt := dealt_startGame hfit idle two
    exact sound_of_started ((hdealt _).chips hfit) (hdealt _).gameStarted
  | @bet chair lScore type l _ _ _ play bets =>
    have hchips : Chips (setScore opt 3) { s with chipTypeID := type }.toHand := hs.chips
    exact sound_of_started (bets.chips hchips (bets.stake hchips play))
      (bets.started.1.trans (hs.current bets.current))
  | @pass chair l _ _ _ bets =>
    have hchips : Chips (setScore opt 3)
        { s.killGameTimer .game with chipTypeID := .pass }.toHand := hs.chips
    have hstake := (bets.stake_zero hchips ⟨nofun, nofun⟩).2
    exact sound_of_started (bets.chips hchips hstake)
      (bets.started.1.trans (hs.current bets.current))
  | fold hand _ folds =>
    rcases hand with rfl | rfl
    · exact folds.sound hs
    · exact folds.sound ⟨hs.chips, hs.idle, hs.ended⟩
  | leave seated =>
    rcases seated with ⟨rfl, -, -⟩ | folds
    · exact ⟨hs.chips, hs.idle, hs.ended⟩
    · have := folds.sound hs
      exact ⟨this.chips, this.idle, this.ended⟩
  | @sit chair userScore _ _ =>
    obtain ⟨hscore, hplay⟩ := hfits
    have hlt := int32_lt userScore
    refine hs.of_kept ⟨rfl, rfl, rfl, rfl, rfl⟩ (hs.chips.of_chair rfl rfl rfl
      (fun i (hi : i ≠ chair) => ⟨Function.update_of_ne hi _ _, Function.update_of_ne hi _ _⟩) ?_ ?_ ?_)
      fun h => ?_
    · dsimp only
      rwa [Function.update_self]
    · dsimp only
      rwa [Function.update_self]
    · rw [hplay]
      intro hp
      cases hp
    · rw [Idle] at h ⊢
      rw [h]
  | @take chair lookon lAddTake u user free =>
    obtain ⟨hscore, hsum⟩ := hfits free u user
    obtain ⟨hand, kept, -⟩ :=
      onUserAddTakeGold_kept opt s chair u.trusteeScore (int32 lAddTake)
    refine hs.of_kept kept (chips_onUserAddTakeGold hs.chips hscore hsum) fun h => ?_
    rw [Idle] at h ⊢
    rw [hand, h]
  | deal hand kept _ current =>
    refine hs.of_kept kept ?_ fun h => h.deal hand ?_
    · rw [hand]
      exact hs.chips.of_eq (fun i => .inr rfl) rfl rfl rfl fun i hi => hi
    · rcases current with ⟨h, -⟩ | ⟨-, d, h⟩
      · exact .inl h
      · exact deal_current h
  | normal _ _ _ concluded => exact concluded.sound hs
  | noPlayer _ _ concluded => exact concluded.sound hs
  | reset concluded => exact concluded.sound hs

theorem sound_init (opt : ServiceOption) : Sound opt {} where
  chips := chips_zero rfl rfl rfl fun _ => ⟨le_rfl, (by decide : (0 : ℤ) < 2 ^ 31)⟩
  idle _ := rfl
  ended h := by cases h

end TableSink

end GameServer.TexasHoldem
