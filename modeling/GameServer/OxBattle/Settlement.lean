import GameServer.OxBattle.Stakes
/-!
# Ox battle — the round of a player's bank

A round that starts with a player as banker: what the bettors win and lose
is the banker's loss and gain (`Betting.compared`), and every score is
written once, when its player leaves or when the round ends. So what is
written for the round adds up to zero (`banker_settles`) unless the banker
goes off line, who then keeps his score while the bettors are settled, or
a bettor leaves whose winnings are eaten up by losses and revenue, whose
revenue is not written.
-/

namespace GameServer.OxBattle

open Function Table

variable {n : ℕ} {cfg : RoomConfig} {s t : Table n} {c : Fin n} {u : TableUser} {w : ℤ}

/-! ## The round -/

/-- What is written for a chair: its score and its revenue. -/
def ScoreInfo.total (i : ScoreInfo) : ℤ := i.lScore + i.lRevenue

def written : Output n → ℤ
  | .writeTableScore info => ∑ c, ((info c).map ScoreInfo.total).getD 0
  | _ => 0

/-- What a sequence of outputs writes. -/
def writtenAll (out : List (Output n)) : ℤ := (out.map written).sum

/-- A round: the table until it is free again. -/
def roundStep (cfg : RoomConfig) : Machine (Table n) (Event n) (Output n) := fun s e =>
  if s.gameStatus = .free then none else some (s.step cfg e)

/-- A table where a round is about to start with a player as banker. -/
structure PlayerBanker (t : Table n) : Prop where
  free : t.gameStatus = .free
  time : t.jettonTime = true
  userJettonScore_eq : ∀ a c, t.userJettonScore a c = 0
  userID : ∀ c d u v, t.tableUserItem c = some u → t.tableUserItem d = some v →
    u.userID = v.userID → c = d
  banker : ∃ b, t.currentBanker = some b ∧ (t.tableUserItem b).isSome

/-- **What must not happen**: the banker goes off line, or a bettor leaves
after the hands were compared with a score of zero and a revenue. -/
def Settles (s : Table n) : Event n → Prop
  | .offLine c _ => ∀ u, s.tableUserItem c = some u → u.userStatus = .playing →
      s.currentBanker ≠ some c
  | .standUp c _ => s.gameStatus = .gameEnd → s.currentBanker ≠ some c →
      (∃ a, s.userJettonScore a c ≠ 0) → s.userWinScore c = 0 → s.userRevenue c = 0
  | _ => True

/-! ## The invariant -/

/-- What holds throughout a round. -/
structure Round (s : Table n) : Prop where
  time : s.jettonTime = true
  active : ∀ c u, s.tableUserItem c = some u → u.userStatus = .playing ∨ u.userStatus = .offline
  userID : ∀ c d u v, s.tableUserItem c = some u → s.tableUserItem d = some v →
    u.userID = v.userID → c = d
  staker : ∀ a c, s.userJettonScore a c ≠ 0 → (s.tableUserItem c).isSome
  banker : ∀ b, s.currentBanker = some b →
    (s.tableUserItem b).isSome ∧ ∀ a, s.userJettonScore a b = 0

/-- Stakes are taken, and a player is banker. -/
structure Betting (s : Table n) : Prop extends Round s where
  stage : s.gameStatus = .placeJetton
  hasBanker : s.currentBanker.isSome

/-- What is to be written for a chair. -/
def due (s : Table n) (c : Fin n) : ℤ :=
  if s.queryBuckleServiceCharge c then s.userWinScore c + s.userRevenue c else 0

/-- The hands were compared, and `w` is written: with what is due it makes
zero. -/
structure Settling (s : Table n) (w : ℤ) : Prop extends Round s where
  stage : s.gameStatus = .gameEnd
  idle : ∀ c, s.currentBanker ≠ some c → (∀ a, s.userJettonScore a c = 0) → s.userWinScore c = 0
  balance : w + ∑ c, due s c = 0

theorem Round.queryBuckleServiceCharge_eq (h : Round s) (c : Fin n) :
    s.queryBuckleServiceCharge c =
      decide (s.currentBanker = some c ∨ ∃ a, s.userJettonScore a c ≠ 0) := by
  unfold Table.queryBuckleServiceCharge
  rw [Bool.eq_iff_iff]
  simp only [Bool.or_eq_true, Bool.and_eq_true, decide_eq_true_eq, beq_iff_eq]
  constructor
  · rintro (⟨-, hjetton⟩ | hbanker)
    · exact .inr hjetton
    · exact .inl hbanker
  · rintro (hbanker | ⟨a, ha⟩)
    · exact .inr hbanker
    · exact .inl ⟨h.staker a c ha, a, ha⟩

theorem Round.due_eq (h : Round s) (c : Fin n) :
    due s c = if s.currentBanker = some c ∨ ∃ a, s.userJettonScore a c ≠ 0 then
      s.userWinScore c + s.userRevenue c else 0 := by
  unfold due
  rw [h.queryBuckleServiceCharge_eq]
  simp only [decide_eq_true_eq]

/-! ## The hands are compared -/

theorem wonScore_eq_zero (h : ∀ a, s.userJettonScore a c = 0) (hands : Hands) :
    s.wonScore hands c = 0 := by
  refine Finset.sum_eq_zero fun a _ => ?_
  rw [h, Int.zero_mul, ite_self]

theorem lostScore_eq_zero (h : ∀ a, s.userJettonScore a c = 0) (hands : Hands) :
    s.lostScore hands c = 0 := by
  refine Finset.sum_eq_zero fun a _ => ?_
  rw [h, Int.zero_mul, ite_self]

theorem isBettor_eq_true : s.isBettor c = true ↔
    s.currentBanker ≠ some c ∧ (s.tableUserItem c).isSome := by
  unfold Table.isBettor
  simp

/-- A score and its revenue are what the hands make of the stakes: what a
bettor wins, or what the banker gains. -/
theorem calculateScore_total (cfg : RoomConfig) (s : Table n) (hands : Hands) (c : Fin n) :
    (s.calculateScore cfg hands).userWinScore c + (s.calculateScore cfg hands).userRevenue c =
      (if s.isBettor c then s.wonScore hands c - s.lostScore hands c else 0) +
        if s.currentBanker = some c then s.bankerGain hands else 0 := by
  simp only [Table.calculateScore]
  by_cases hbettor : s.isBettor c = true
  · have hbanker : s.currentBanker ≠ some c := (isBettor_eq_true.1 hbettor).1
    rw [if_pos hbettor, if_pos hbettor, if_pos hbettor, if_neg hbanker]
    omega
  · split_ifs
    · omega
    · omega

/-- The scores and revenues of a round add up to zero. -/
theorem sum_calculateScore (cfg : RoomConfig) (hands : Hands) (hbanker : s.currentBanker.isSome) :
    ∑ c, ((s.calculateScore cfg hands).userWinScore c +
      (s.calculateScore cfg hands).userRevenue c) = 0 := by
  obtain ⟨b, hb⟩ := Option.isSome_iff_exists.1 hbanker
  have hgain : ∑ c, (if s.currentBanker = some c then s.bankerGain hands else 0) =
      s.bankerGain hands := by
    rw [hb]
    simp only [Option.some.injEq, Finset.sum_ite_eq, Finset.mem_univ, if_true]
  have hbettors : ∑ c, (if s.isBettor c then s.wonScore hands c - s.lostScore hands c else 0) =
      -s.bankerGain hands := by
    unfold Table.bankerGain
    rw [← Finset.sum_neg_distrib]
    refine Finset.sum_congr rfl fun c _ => ?_
    split_ifs
    · omega
    · rfl
  simp only [calculateScore_total, Finset.sum_add_distrib, hgain, hbettors]
  omega

/-- Whoever has no stakes and is not the banker has nothing to pay. -/
theorem calculateScore_idle (cfg : RoomConfig) (hands : Hands) (hbanker : s.currentBanker ≠ some c)
    (hjetton : ∀ a, s.userJettonScore a c = 0) :
    (s.calculateScore cfg hands).userWinScore c = 0 ∧
      (s.calculateScore cfg hands).userRevenue c = 0 := by
  simp only [Table.calculateScore]
  rw [if_neg hbanker, if_neg hbanker, wonScore_eq_zero hjetton, lostScore_eq_zero hjetton]
  have hrevenue : revenueOf cfg 0 = 0 := if_neg (by decide)
  rw [hrevenue]
  simp

/-- **The scores are computed**: what the bettors win or lose is due, and
the banker's loss or gain. -/
theorem Round.calculateScore (cfg : RoomConfig) (h : Round s) (hstage : s.gameStatus = .gameEnd)
    (hbanker : s.currentBanker.isSome) (hands : Hands) :
    Settling (s.calculateScore cfg hands) 0 := by
  have hround : Round (s.calculateScore cfg hands) :=
    ⟨h.time, h.active, h.userID, h.staker, h.banker⟩
  refine ⟨hround, hstage, fun c hb hj => (calculateScore_idle cfg hands hb hj).1, ?_⟩
  rw [Int.zero_add, ← sum_calculateScore cfg hands hbanker]
  refine Finset.sum_congr rfl fun c _ => ?_
  rw [hround.due_eq]
  split_ifs with hdue
  · rfl
  · rw [not_or] at hdue
    have hjetton : ∀ a, s.userJettonScore a c = 0 := fun a => by
      by_contra hne
      exact hdue.2 ⟨a, hne⟩
    obtain ⟨hwin, hrevenue⟩ := calculateScore_idle (s := s) cfg hands hdue.1 hjetton
    rw [hwin, hrevenue]
    rfl

theorem Betting.compared (cfg : RoomConfig) (h : Betting s) (hands : Hands) :
    Settling (compared cfg s hands) 0 := by
  have hround : Round ({ s with gameStatus := .gameEnd } : Table n) :=
    ⟨h.time, h.active, h.userID, h.staker, h.banker⟩
  rw [OxBattle.compared, if_neg (by rw [h.stage]; nofun)]
  exact hround.calculateScore cfg rfl h.hasBanker hands

/-! ## Who comes and goes -/

/-- A table that differs from another in its users' states and in what
does not matter for the round. -/
structure SameSeats (s t : Table n) : Prop where
  time : t.jettonTime = s.jettonTime
  stage : t.gameStatus = s.gameStatus
  jetton : t.userJettonScore = s.userJettonScore
  banker : t.currentBanker = s.currentBanker
  win : t.userWinScore = s.userWinScore
  revenue : t.userRevenue = s.userRevenue
  userID : ∀ c, (t.tableUserItem c).map TableUser.userID = (s.tableUserItem c).map TableUser.userID
  active : ∀ c u, t.tableUserItem c = some u → u.userStatus = .playing ∨ u.userStatus = .offline

theorem userID_of_map (h : ∀ c d u v, s.tableUserItem c = some u → s.tableUserItem d = some v →
      u.userID = v.userID → c = d)
    (hmap : ∀ c, ∀ x ∈ (t.tableUserItem c).map TableUser.userID,
      x ∈ (s.tableUserItem c).map TableUser.userID) :
    ∀ c d u v, t.tableUserItem c = some u → t.tableUserItem d = some v →
      u.userID = v.userID → c = d := by
  intro c d u v hu hv heq
  have hc := hmap c u.userID (by rw [hu]; rfl)
  have hd := hmap d v.userID (by rw [hv]; rfl)
  obtain ⟨u', hu', hid⟩ := Option.map_eq_some_iff.1 hc
  obtain ⟨v', hv', hid'⟩ := Option.map_eq_some_iff.1 hd
  exact h c d u' v' hu' hv' (by rw [hid, hid', heq])

theorem SameSeats.isSome (h : SameSeats s t) (c : Fin n) :
    (t.tableUserItem c).isSome = (s.tableUserItem c).isSome := by
  have := congrArg Option.isSome (h.userID c)
  rwa [Option.isSome_map, Option.isSome_map] at this

theorem SameSeats.round (h : SameSeats s t) (hs : Round s) : Round t where
  time := h.time.trans hs.time
  active := h.active
  userID := userID_of_map hs.userID fun c x hx => by rwa [h.userID] at hx
  staker a c hne := by
    rw [h.isSome]
    exact hs.staker a c (by rwa [h.jetton] at hne)
  banker b hb := by
    rw [h.isSome, h.jetton]
    exact hs.banker b (by rwa [h.banker] at hb)

theorem SameSeats.betting (h : SameSeats s t) (hs : Betting s) : Betting t where
  toRound := h.round hs.toRound
  stage := h.stage.trans hs.stage
  hasBanker := by
    rw [h.banker]
    exact hs.hasBanker

theorem SameSeats.settling (h : SameSeats s t) (hs : Settling s w) : Settling t w where
  toRound := h.round hs.toRound
  stage := h.stage.trans hs.stage
  idle c := by
    rw [h.banker, h.jetton, h.win]
    exact hs.idle c
  balance := by
    rw [← hs.balance]
    congr 1
    refine Finset.sum_congr rfl fun c _ => ?_
    rw [(h.round hs.toRound).due_eq, hs.toRound.due_eq, h.banker, h.jetton, h.win, h.revenue]

theorem SameSeats.refl (hs : Round s) : SameSeats s s :=
  ⟨rfl, rfl, rfl, rfl, rfl, rfl, fun _ => rfl, hs.active⟩

structure Leaves (c : Fin n) (s t : Table n) : Prop where
  time : t.jettonTime = s.jettonTime
  stage : t.gameStatus = s.gameStatus
  jetton : ∀ a i, t.userJettonScore a i = if i = c then 0 else s.userJettonScore a i
  banker : t.currentBanker = bankerWithout s c
  gone : t.tableUserItem c = none
  stays : ∀ i, i ≠ c → (t.tableUserItem i).map (fun u => (u.userID, u.userStatus)) =
    (s.tableUserItem i).map fun u => (u.userID, u.userStatus)

theorem Leaves.userItem (h : Leaves c s t) {i : Fin n} {v : TableUser}
    (hv : t.tableUserItem i = some v) :
    i ≠ c ∧ ∃ u, s.tableUserItem i = some u ∧ u.userID = v.userID ∧ u.userStatus = v.userStatus := by
  have hi : i ≠ c := by
    rintro rfl
    rw [h.gone] at hv
    cases hv
  have hmap := h.stays i hi
  rw [hv] at hmap
  obtain ⟨u, hu, heq⟩ := Option.map_eq_some_iff.1 hmap.symm
  obtain ⟨hid, hstatus⟩ := Prod.mk.inj heq
  exact ⟨hi, u, hu, hid, hstatus⟩

theorem Leaves.isSome (h : Leaves c s t) {i : Fin n} (hi : i ≠ c) :
    (t.tableUserItem i).isSome = (s.tableUserItem i).isSome := by
  have := congrArg Option.isSome (h.stays i hi)
  rwa [Option.isSome_map, Option.isSome_map] at this

theorem Leaves.round (h : Leaves c s t) (hs : Round s) : Round t where
  time := h.time.trans hs.time
  active i v hv := by
    obtain ⟨-, u, hu, -, hstatus⟩ := h.userItem hv
    rw [← hstatus]
    exact hs.active i u hu
  userID := userID_of_map hs.userID fun i x hx => by
    obtain ⟨v, hv, rfl⟩ := Option.map_eq_some_iff.1 hx
    obtain ⟨-, u, hu, hid, -⟩ := h.userItem hv
    exact Option.map_eq_some_iff.2 ⟨u, hu, hid⟩
  staker a i hne := by
    rw [h.jetton] at hne
    split_ifs at hne with hi
    · exact absurd rfl hne
    · rw [h.isSome hi]
      exact hs.staker a i hne
  banker b hb := by
    rw [h.banker, bankerWithout_eq_some] at hb
    obtain ⟨hseat, hjetton⟩ := hs.banker b hb.1
    rw [h.isSome hb.2]
    exact ⟨hseat, fun a => by rw [h.jetton, if_neg hb.2, hjetton]⟩

theorem Leaves.betting (h : Leaves c s t) (hs : Betting s) (hc : s.currentBanker ≠ some c) :
    Betting t where
  toRound := h.round hs.toRound
  stage := h.stage.trans hs.stage
  hasBanker := by
    rw [h.banker, bankerWithout_of_ne hc]
    exact hs.hasBanker

/-- **A player leaves after the hands were compared**: what was due to him
is written. -/
theorem Leaves.settling {w' : ℤ} (h : Leaves c s t) (hs : Settling s w)
    (hwin : t.userWinScore = update s.userWinScore c 0) (hrevenue : t.userRevenue = s.userRevenue)
    (hw : w' = w + due s c) : Settling t w' where
  toRound := h.round hs.toRound
  stage := h.stage.trans hs.stage
  idle i hb hj := by
    rw [hwin]
    by_cases hi : i = c
    · rw [hi, update_self]
    · rw [update_of_ne hi]
      refine hs.idle i (fun hbanker => hb ?_) fun a => ?_
      · rw [h.banker]
        exact bankerWithout_eq_some.2 ⟨hbanker, hi⟩
      · rw [← hj a, h.jetton, if_neg hi]
  balance := by
    have hdue : ∀ i, due t i = update (due s) c 0 i := by
      intro i
      rw [(h.round hs.toRound).due_eq, h.banker, hwin, hrevenue]
      by_cases hi : i = c
      · subst hi
        rw [if_neg, update_self]
        rintro (hb | ⟨a, ha⟩)
        · exact (bankerWithout_eq_some.1 hb).2 rfl
        · rw [h.jetton, if_pos rfl] at ha
          exact ha rfl
      · rw [update_of_ne hi, update_of_ne hi, hs.toRound.due_eq]
        simp only [bankerWithout_eq_some, h.jetton, if_neg hi, and_iff_left hi]
    have := hs.balance
    simp only [hdue, sum_update_eq]
    omega

/-- Sitting down during a round: nothing, or a new player on an empty
chair. -/
theorem performSitDownAction_eq (htime : s.jettonTime = true) (hstage : s.gameStatus ≠ .free)
    (c : Fin n) (u : TableUser) :
    s.performSitDownAction c u = s ∨
      s.tableUserItem c = none ∧ (∀ i, (s.tableUserItem i).map TableUser.userID ≠ some u.userID) ∧
        s.performSitDownAction c u = s.setUserStatus c u .playing := by
  unfold Table.performSitDownAction
  by_cases htaken : (s.tableUserItem c).isSome ∨
      ∃ i, (s.tableUserItem i).map TableUser.userID = some u.userID
  · rw [if_pos htaken]
    exact .inl rfl
  · rw [if_neg htaken, if_neg hstage]
    rw [not_or, not_exists] at htaken
    have hitem : s.tableUserItem c = none := by
      rw [Option.not_isSome_iff_eq_none] at htaken
      exact htaken.1
    have htime' : (s.setUserStatus c u .playing).jettonTime = true := htime
    refine .inr ⟨hitem, htaken.2, ?_⟩
    rw [if_pos htime']

section SitDown

variable (hempty : s.tableUserItem c = none)
  (hnew : ∀ i, (s.tableUserItem i).map TableUser.userID ≠ some u.userID)

include hempty

theorem Round.isSome_setUserStatus {i : Fin n} (hi : (s.tableUserItem i).isSome) :
    ((s.setUserStatus c u .playing).tableUserItem i).isSome := by
  have hne : i ≠ c := by
    rintro rfl
    rw [hempty] at hi
    cases hi
  change (update s.tableUserItem c _ i).isSome
  rwa [update_of_ne hne]

include hnew

/-- A new player has no stakes. -/
theorem Round.sitDown (hs : Round s) : Round (s.setUserStatus c u .playing) where
  time := hs.time
  active i v hv := by
    by_cases hi : i = c
    · subst hi
      simp only [Table.setUserStatus, update_self] at hv
      cases hv
      exact .inl rfl
    · simp only [Table.setUserStatus, update_of_ne hi] at hv
      exact hs.active i v hv
  userID i j v v' hv hv' heq := by
    simp only [Table.setUserStatus] at hv hv'
    by_cases hi : i = c
    · by_cases hj : j = c
      · rw [hi, hj]
      · rw [hi, update_self] at hv
        rw [update_of_ne hj] at hv'
        cases hv
        exact absurd (by rw [hv', Option.map_some, ← heq]) (hnew j)
    · rw [update_of_ne hi] at hv
      by_cases hj : j = c
      · rw [hj, update_self] at hv'
        cases hv'
        exact absurd (by rw [hv, Option.map_some, heq]) (hnew i)
      · rw [update_of_ne hj] at hv'
        exact hs.userID i j v v' hv hv' heq
  staker a i hne := Round.isSome_setUserStatus hempty (hs.staker a i hne)
  banker b hb := ⟨Round.isSome_setUserStatus hempty (hs.banker b hb).1, (hs.banker b hb).2⟩

theorem Betting.sitDown (hs : Betting s) : Betting (s.setUserStatus c u .playing) where
  toRound := hs.toRound.sitDown hempty hnew
  stage := hs.stage
  hasBanker := hs.hasBanker

theorem Settling.sitDown (hs : Settling s w) : Settling (s.setUserStatus c u .playing) w where
  toRound := hs.toRound.sitDown hempty hnew
  stage := hs.stage
  idle := hs.idle
  balance := by
    rw [← hs.balance]
    congr 1
    refine Finset.sum_congr rfl fun i _ => ?_
    rw [(hs.toRound.sitDown hempty hnew).due_eq, hs.toRound.due_eq]
    rfl

end SitDown

/-! ## One event of the round -/

theorem writtenAll_append (out out' : List (Output n)) :
    writtenAll (out ++ out') = writtenAll out + writtenAll out' := by
  unfold writtenAll
  rw [List.map_append, List.sum_append]

theorem writtenAll_nil : writtenAll ([] : List (Output n)) = 0 := rfl

theorem writtenAll_onUserPlaceJetton (cfg : RoomConfig) (s : Table n) (c : Fin n)
    (jettonArea : UInt8) (lJettonScore : ℤ) (beyond : Bool) :
    writtenAll (s.onUserPlaceJetton cfg c jettonArea lJettonScore beyond).2 = 0 := by
  unfold Table.onUserPlaceJetton
  simp only
  repeat' split
  all_goals rfl

theorem writtenAll_writeOne (s : Table n) (c : Fin n) :
    writtenAll (writeOne s c).2 = s.userWinScore c + s.userRevenue c := by
  change ∑ i, _ + 0 = _
  rw [Finset.sum_eq_single c]
  · simp [ScoreInfo.total, Table.scoreInfo]
  · intro i _ hi
    simp only
    rw [if_neg hi]
    rfl
  · intro hc
    exact absurd (Finset.mem_univ c) hc

theorem writtenAll_returnJetton (s : Table n) (c : Fin n) : writtenAll (s.returnJetton c).2 = 0 := by
  refine List.sum_eq_zero fun x hx => ?_
  obtain ⟨o, ho, rfl⟩ := List.mem_map.1 hx
  obtain ⟨a, -, rfl⟩ := List.mem_map.1 ho
  rfl

/-- A status that a player has during a round is set. -/
theorem sameSeats_setUserStatus (hs : Round s) {status : GameService.UserStatus}
    (hu : s.tableUserItem c = some u) (hstatus : status = .playing ∨ status = .offline)
    (turns : Turns n) :
    SameSeats s (withBanker (s.setUserStatus c u status) s.currentBanker turns) where
  time := rfl
  stage := rfl
  jetton := rfl
  banker := rfl
  win := rfl
  revenue := rfl
  userID i := by
    change (update s.tableUserItem c _ i).map TableUser.userID = _
    by_cases hi : i = c
    · rw [hi, update_self, hu]
      rfl
    · rw [update_of_ne hi]
  active i v hv := by
    change update s.tableUserItem c _ i = some v at hv
    by_cases hi : i = c
    · rw [hi, update_self] at hv
      cases hv
      exact hstatus
    · rw [update_of_ne hi] at hv
      exact hs.active i v hv

theorem sameSeats_onUserApplyBanker (hs : Round s) (hstage : s.gameStatus ≠ .free) (cfg : RoomConfig)
    (c : Fin n) (u : TableUser) : SameSeats s (s.onUserApplyBanker cfg c u) := by
  unfold Table.onUserApplyBanker
  simp only
  split_ifs with hscore hlisted hrobot hfirst
  · exact .refl hs
  · exact .refl hs
  · exact .refl hs
  · exact absurd hfirst.1 hstage
  · exact ⟨rfl, rfl, rfl, rfl, rfl, rfl, fun _ => rfl, hs.active⟩

/-- **The banker cannot resign during a round**, and nobody can for
him. -/
theorem sameSeats_onUserCancelBanker (hs : Round s) (hstage : s.gameStatus ≠ .free)
    (cfg : RoomConfig) (hu : s.tableUserItem c = some u) :
    SameSeats s (s.onUserCancelBanker cfg c u) := by
  unfold Table.onUserCancelBanker
  split_ifs with hbanker
  · exact .refl hs
  · split
    · exact .refl hs
    · rename_i i hfind
      have hid := List.find?_some hfind
      rw [beq_iff_eq] at hid
      obtain ⟨v, hv, hvid⟩ := Option.map_eq_some_iff.1 hid
      have hic : i = c := hs.userID i c v u hv hu hvid
      rw [if_neg]
      · exact ⟨rfl, rfl, rfl, rfl, rfl, rfl, fun _ => rfl, hs.active⟩
      · intro hi
        exact hbanker ⟨hic ▸ hi, hstage⟩

/-! ## A player stands up -/

theorem leaves_of {r : Table n} (htime : r.jettonTime = s.jettonTime)
    (hstage : r.gameStatus = s.gameStatus)
    (hjetton : ∀ a i, r.userJettonScore a i = if i = c then 0 else s.userJettonScore a i)
    (hbanker : bankerWithout r c = bankerWithout s c)
    (hstays : ∀ i, (r.tableUserItem i).map (fun u => (u.userID, u.userStatus)) =
      (s.tableUserItem i).map fun u => (u.userID, u.userStatus)) (turns : Turns n) :
    Leaves c s (withBanker { r with tableUserItem := update r.tableUserItem c none }
      (bankerWithout r c) turns) where
  time := htime
  stage := hstage
  jetton := hjetton
  banker := hbanker
  gone := by
    change update r.tableUserItem c none c = none
    rw [update_self]
  stays i hi := by
    change (update r.tableUserItem c none i).map _ = _
    rw [update_of_ne hi]
    exact hstays i

theorem map_writeTableScore (s : Table n) (info : Fin n → Option ScoreInfo) (i : Fin n) :
    ((s.writeTableScore info).1.tableUserItem i).map (fun u => (u.userID, u.userStatus)) =
      (s.tableUserItem i).map fun u => (u.userID, u.userStatus) := by
  simp only [Table.writeTableScore, Option.map_map]
  congr 1
  funext u
  split <;> rfl

theorem Betting.standUp (hs : Betting s) (cfg : RoomConfig) (hands : Hands)
    (hu : s.tableUserItem c = some u) (hc : s.currentBanker ≠ some c) :
    Betting (s.performStandUpAction cfg c hands).1 ∧
      writtenAll (s.performStandUpAction cfg c hands).2 = 0 := by
  have hfree : s.gameStatus ≠ .free := by
    rw [hs.stage]
    nofun
  have hconclude : s.concludeLeave cfg c hands = s.returnJetton c := by
    rw [Table.concludeLeave, if_neg hc, if_pos hs.stage]
  obtain ⟨turns, hstand⟩ := onActionUserStandUp_eq (s := (s.returnJetton c).1) cfg c hfree
  rw [performStandUpAction_eq cfg hands hu hfree (hs.active c u hu), hconclude, hstand]
  have hleaves := leaves_of (c := c) (s := s) (r := (s.returnJetton c).1) rfl rfl
    (fun a i => update_apply _ _ _ _) rfl (fun _ => rfl) turns
  exact ⟨hleaves.betting hs hc, writtenAll_returnJetton s c⟩

/-- **The banker stands up**: the hands are compared, if they were not
yet, and he is settled. -/
theorem standUp_banker {w : ℤ} (hs : Round s) (hfree : s.gameStatus ≠ .free) (hands : Hands)
    (hsettling : Settling (compared cfg s hands) w) (hbanker : s.currentBanker = some c)
    (hcompared : (compared cfg s hands).currentBanker = some c)
    (hu : s.tableUserItem c = some u) :
    Settling (s.performStandUpAction cfg c hands).1
      (w + writtenAll (s.performStandUpAction cfg c hands).2) := by
  obtain ⟨turns, hleave⟩ := bankerLeave_eq cfg s c hands
  have hconclude : s.concludeLeave cfg c hands = s.bankerLeave cfg c hands := if_pos hbanker
  have hend : (s.bankerLeave cfg c hands).1.gameStatus ≠ .free := by
    rw [gameStatus_bankerLeave]
    nofun
  obtain ⟨turns', hstand⟩ := onActionUserStandUp_eq cfg c hend
  rw [performStandUpAction_eq cfg hands hu hfree (hs.active c u hu), hconclude, hstand, hleave]
  have hjetton : ∀ a i, (compared cfg s hands).userJettonScore a i =
      if i = c then 0 else (compared cfg s hands).userJettonScore a i := by
    intro a i
    split_ifs with hi
    · rw [hi]
      exact (hsettling.banker c hcompared).2 a
    · rfl
  have hgone : bankerWithout (compared cfg s hands) c = none := if_pos hcompared
  have hleaves := leaves_of (c := c) (s := compared cfg s hands)
    (r := withBanker { (writeOne (compared cfg s hands) c).1 with
      userWinScore := update (compared cfg s hands).userWinScore c 0 } none turns)
    rfl rfl hjetton hgone.symm (map_writeTableScore _ _) turns'
  refine hleaves.settling hsettling rfl rfl ?_
  rw [writtenAll_writeOne, hsettling.toRound.due_eq, if_pos (.inl hcompared)]

/-- **A bettor stands up after the hands were compared.** -/
theorem Settling.standUp (hs : Settling s w) (cfg : RoomConfig) (hands : Hands)
    (hu : s.tableUserItem c = some u) (hc : s.currentBanker ≠ some c)
    (hok : Settles s (.standUp c hands)) :
    Settling (s.performStandUpAction cfg c hands).1
      (w + writtenAll (s.performStandUpAction cfg c hands).2) := by
  have hfree : s.gameStatus ≠ .free := by
    rw [hs.stage]
    simp
  have hconclude : s.concludeLeave cfg c hands = s.settleLeave c := by
    rw [Table.concludeLeave, if_neg hc, if_neg (by rw [hs.stage]; simp)]
  rw [performStandUpAction_eq cfg hands hu hfree (hs.active c u hu), hconclude]
  have hfree' : (s.settleLeave c).1.gameStatus ≠ .free := by
    unfold Table.settleLeave
    split_ifs
    · exact hfree
    · exact hfree
  obtain ⟨turns, hstand⟩ := onActionUserStandUp_eq cfg c hfree'
  rw [hstand]
  by_cases hwin : s.userWinScore c = 0
  · -- Nothing is written: the revenue must be zero as well.
    have hsettle : s.settleLeave c =
        ({ s with userJettonScore := fun a => update (s.userJettonScore a) c 0 }, []) := by
      unfold Table.settleLeave
      rw [if_neg (not_not.2 hwin)]
    rw [hsettle]
    have hleaves := leaves_of (c := c) (s := s)
      (r := { s with userJettonScore := fun a => update (s.userJettonScore a) c 0 }) rfl rfl
      (fun a i => update_apply _ _ _ _) rfl (fun _ => rfl) turns
    refine hleaves.settling hs ?_ rfl ?_
    · change s.userWinScore = _
      rw [← hwin, update_eq_self]
    · rw [writtenAll_nil, hs.toRound.due_eq]
      split_ifs with hdue
      · rw [hwin, hok hs.stage hc (hdue.resolve_left hc) hwin]
        rfl
      · rfl
  · have hsettle : s.settleLeave c =
        ({ (writeOne s c).1 with
            userWinScore := update s.userWinScore c 0
            userJettonScore := fun a => update (s.userJettonScore a) c 0 }, (writeOne s c).2) := by
      unfold Table.settleLeave
      rw [if_pos hwin]
      rfl
    rw [hsettle]
    have hleaves := leaves_of (c := c) (s := s)
      (r := { (writeOne s c).1 with
        userWinScore := update s.userWinScore c 0
        userJettonScore := fun a => update (s.userJettonScore a) c 0 }) rfl rfl
      (fun a i => update_apply _ _ _ _) rfl (map_writeTableScore _ _) turns
    refine hleaves.settling hs rfl rfl ?_
    rw [writtenAll_writeOne, hs.toRound.due_eq, if_pos]
    -- Who has a score to be written has stakes.
    by_contra hdue
    rw [not_or, not_exists] at hdue
    exact hwin (hs.idle c hc fun a => not_not.1 (hdue.2 a))

/-! ## A step, and a run -/

theorem Betting.saveJetton (hs : Betting s) {a : Area} {lJettonScore : ℤ} (chips : ℕ)
    (robots : Area → ℤ) (hc : s.currentBanker ≠ some c) (hu : s.tableUserItem c = some u) :
    Betting { s.saveJetton c a lJettonScore with chipRobotCount := chips, robotAreaScore := robots } := by
  refine ⟨⟨hs.time, hs.active, hs.userID, fun b i hne => ?_, fun b hb => ?_⟩, hs.stage,
    hs.hasBanker⟩
  · rw [userJettonScore_saveJetton] at hne
    change (s.tableUserItem i).isSome
    split_ifs at hne with hi
    · rw [hi.2, hu]
      rfl
    · exact hs.staker b i (by omega)
  · have hbc : b ≠ c := by
      rintro rfl
      exact hc hb
    refine ⟨(hs.banker b hb).1, fun a' => ?_⟩
    rw [userJettonScore_saveJetton, (hs.banker b hb).2, if_neg fun h => hbc h.2]
    rfl

/-- The stages of a round in which `w` is written. -/
def InRound (s : Table n) (w : ℤ) : Prop := (Betting s ∧ w = 0) ∨ Settling s w

theorem InRound.round (h : InRound s w) : Round s := by
  rcases h with h | h
  · exact h.1.toRound
  · exact h.toRound

theorem InRound.stage_ne (h : InRound s w) : s.gameStatus ≠ .free := by
  rcases h with h | h
  · rw [h.1.stage]
    nofun
  · rw [h.stage]
    nofun

theorem InRound.sameSeats (h : InRound s w) (hst : SameSeats s t) : InRound t w := by
  rcases h with h | h
  · exact .inl ⟨hst.betting h.1, h.2⟩
  · exact .inr (hst.settling h)

theorem InRound.placeJetton (h : InRound s w) (cfg : RoomConfig) (c : Fin n) (jettonArea : UInt8)
    (lJettonScore : ℤ) (beyond : Bool) :
    InRound (s.onUserPlaceJetton cfg c jettonArea lJettonScore beyond).1 w := by
  rcases onUserPlaceJetton_cases cfg s c jettonArea lJettonScore beyond with heq |
    ⟨a, u, chips, robots, hstage, hbanker, hu, -, -, heq⟩
  · rw [heq]
    exact h
  · rw [heq]
    rcases h with ⟨hs, hw⟩ | hs
    · exact .inl ⟨hs.saveJetton chips robots hbanker hu, hw⟩
    · rw [hs.stage] at hstage
      cases hstage

theorem InRound.sitDown (h : InRound s w) (c : Fin n) (u : TableUser) :
    InRound (s.performSitDownAction c u) w := by
  rcases performSitDownAction_eq h.round.time h.stage_ne c u with heq | ⟨hempty, hnew, heq⟩
  · rw [heq]
    exact h
  · rw [heq]
    rcases h with ⟨hs, hw⟩ | hs
    · exact .inl ⟨hs.sitDown hempty hnew, hw⟩
    · exact .inr (hs.sitDown hempty hnew)

theorem InRound.standUp (h : InRound s w) (cfg : RoomConfig) (c : Fin n) (hands : Hands)
    (hok : Settles s (.standUp c hands)) :
    InRound (s.performStandUpAction cfg c hands).1
      (w + writtenAll (s.performStandUpAction cfg c hands).2) := by
  match hu : s.tableUserItem c with
  | none =>
    unfold Table.performStandUpAction
    rw [hu, writtenAll_nil, Int.add_zero]
    exact h
  | some u =>
    have hfree := h.stage_ne
    by_cases hc : s.currentBanker = some c
    · right
      rcases h with ⟨hs, rfl⟩ | hs
      · refine standUp_banker hs.toRound hfree hands (hs.compared cfg hands) hc ?_ hu
        rw [compared, if_neg (by rw [hs.stage]; nofun)]
        exact hc
      · have hcompared : compared cfg s hands = s := if_pos hs.stage
        exact standUp_banker hs.toRound hfree hands (by rwa [hcompared]) hc (by rwa [hcompared]) hu
    · rcases h with ⟨hs, rfl⟩ | hs
      · obtain ⟨hbetting, hwritten⟩ := hs.standUp cfg hands hu hc
        exact .inl ⟨hbetting, by rw [hwritten]; rfl⟩
      · exact .inr (hs.standUp cfg hands hu hc hok)

/-- A player who is not the banker goes off line. -/
theorem InRound.offLine (h : InRound s w) (cfg : RoomConfig) (c : Fin n) (hands : Hands)
    (hok : Settles s (.offLine c hands)) :
    InRound (s.onEventUserOffLine cfg c hands).1 w ∧
      (s.onEventUserOffLine cfg c hands).2 = [] := by
  unfold Table.onEventUserOffLine
  match hu : s.tableUserItem c with
  | none => exact ⟨h, rfl⟩
  | some u =>
    simp only
    split_ifs with hoffline hplaying
    · exact ⟨h, rfl⟩
    · refine ⟨?_, rfl⟩
      have hstage : (s.setUserStatus c u .offline).gameStatus ≠ .free := h.stage_ne
      obtain ⟨turns, hoff⟩ := onActionUserOffLine_eq cfg c hstage
      have hbanker : bankerWithout (s.setUserStatus c u .offline) c = s.currentBanker :=
        bankerWithout_of_ne (hok u hu hplaying)
      rw [hoff, hbanker]
      exact h.sameSeats (sameSeats_setUserStatus h.round hu (.inr rfl) turns)
    · rcases h.round.active c u hu with hstatus | hstatus
      · exact absurd hstatus hplaying
      · exact absurd hstatus hoffline

theorem InRound.reconnect (h : InRound s w) (c : Fin n) : InRound (s.onUserReconnect c) w := by
  unfold Table.onUserReconnect
  match hu : s.tableUserItem c with
  | none => exact h
  | some u =>
    simp only
    split_ifs
    · exact h.sameSeats (sameSeats_setUserStatus h.round hu (.inl rfl) ⟨s.applyUserArray,
        s.exchangeBanker, s.addTime, s.bankerTime, s.bankerWinScore⟩)
    · exact h

theorem writtenAll_onTimerGameEnd (cfg : RoomConfig) (hs : Round s) :
    writtenAll (s.onTimerGameEnd cfg).2 = ∑ c, due s c := by
  change ∑ c, _ + 0 = _
  rw [Int.add_zero]
  refine Finset.sum_congr rfl fun c _ => ?_
  simp only
  have hseat : ((s.tableUserItem c).isSome && s.queryBuckleServiceCharge c) =
      s.queryBuckleServiceCharge c := by
    rw [Bool.and_eq_right_iff_imp, hs.queryBuckleServiceCharge_eq, decide_eq_true_eq]
    rintro (hbanker | ⟨a, ha⟩)
    · exact (hs.banker c hbanker).1
    · exact hs.staker a c ha
  rw [hseat, due]
  split_ifs
  · rfl
  · rfl

/-- The timer: the hands are compared, or the round ends. -/
theorem InRound.timer (h : InRound s w) (cfg : RoomConfig) (hands : Hands) :
    InRound (s.onTimerMessage cfg hands).1 (w + writtenAll (s.onTimerMessage cfg hands).2) ∨
      (s.onTimerMessage cfg hands).1.gameStatus = .free ∧
        w + writtenAll (s.onTimerMessage cfg hands).2 = 0 := by
  unfold Table.onTimerMessage
  rw [if_neg (not_not.2 h.round.time)]
  rcases h with ⟨hs, rfl⟩ | hs
  · left
    rw [hs.stage]
    have hsettling := hs.compared cfg hands
    rw [compared, if_neg (by rw [hs.stage]; nofun)] at hsettling
    have hseats : SameSeats (({ s with gameStatus := .gameEnd } : Table n).calculateScore cfg hands)
        (s.onTimerPlaceJetton cfg hands) :=
      ⟨rfl, rfl, rfl, rfl, rfl, rfl, fun _ => rfl, hs.active⟩
    exact .inr (hseats.settling hsettling)
  · right
    rw [hs.stage]
    refine ⟨gameStatus_onTimerGameEnd cfg s, ?_⟩
    rw [writtenAll_onTimerGameEnd cfg hs.toRound, hs.balance]

/-- **One event of a round** keeps what is written and what is due in
balance; the last one writes what is due. -/
theorem InRound.step (h : InRound s w) (cfg : RoomConfig) (e : Event n) (hok : Settles s e) :
    InRound (s.step cfg e).1 (w + writtenAll (s.step cfg e).2) ∨
      (s.step cfg e).1.gameStatus = .free ∧ w + writtenAll (s.step cfg e).2 = 0 := by
  have hsilent : ∀ {t : Table n}, InRound t w → InRound t (w + writtenAll ([] : List (Output n))) :=
    fun ht => by rwa [writtenAll_nil, Int.add_zero]
  cases e with
  | placeJetton c jettonArea lJettonScore beyond =>
    left
    simp only [Table.step]
    cases hu : s.tableUserItem c with
    | none => exact hsilent h
    | some u =>
      simp only
      split_ifs
      · rw [writtenAll_onUserPlaceJetton, Int.add_zero]
        exact h.placeJetton cfg c jettonArea lJettonScore beyond
      · exact hsilent h
  | applyBanker c =>
    left
    simp only [Table.step]
    cases hu : s.tableUserItem c with
    | none => exact hsilent h
    | some u => exact hsilent (h.sameSeats (sameSeats_onUserApplyBanker h.round h.stage_ne cfg c u))
  | cancelBanker c =>
    left
    simp only [Table.step]
    cases hu : s.tableUserItem c with
    | none => exact hsilent h
    | some u => exact hsilent (h.sameSeats (sameSeats_onUserCancelBanker h.round h.stage_ne cfg hu))
  | standUp c hands => exact .inl (h.standUp cfg c hands hok)
  | offLine c hands =>
    left
    obtain ⟨hoff, hout⟩ := h.offLine cfg c hands hok
    simp only [Table.step]
    rw [hout]
    exact hsilent hoff
  | reconnect c => exact .inl (hsilent (h.reconnect c))
  | sitDown c u => exact .inl (hsilent (h.sitDown c u))
  | timer hands => exact h.timer cfg hands

theorem InRound.onTimerFree {t : Table n} (h : PlayerBanker t) : InRound t.onTimerFree 0 := by
  obtain ⟨b, hb, hseat⟩ := h.banker
  have huser : ∀ c v, t.onTimerFree.tableUserItem c = some v → ∃ u, t.tableUserItem c = some u ∧
      u.userID = v.userID ∧ (v.userStatus = .playing ∨ v.userStatus = .offline) := by
    intro c v hv
    obtain ⟨u, hu, rfl⟩ := Option.map_eq_some_iff.1 hv
    refine ⟨u, hu, ?_⟩
    split_ifs with hoffline
    · exact ⟨rfl, .inr hoffline⟩
    · exact ⟨rfl, .inl rfl⟩
  refine .inl ⟨⟨⟨h.time, ?_, ?_, ?_, ?_⟩, rfl, by rw [Option.isSome_iff_exists]; exact ⟨b, hb⟩⟩, rfl⟩
  · intro c v hv
    obtain ⟨u, -, -, hstatus⟩ := huser c v hv
    exact hstatus
  · intro c d v v' hv hv' heq
    obtain ⟨u, hu, hid, -⟩ := huser c v hv
    obtain ⟨u', hu', hid', -⟩ := huser d v' hv'
    exact h.userID c d u u' hu hu' (by rw [hid, hid', heq])
  · intro a c hne
    exact absurd (h.userJettonScore_eq a c) hne
  · intro i hi
    cases hb.symm.trans hi
    refine ⟨?_, fun a => h.userJettonScore_eq a b⟩
    simp only [Table.onTimerFree, Table.startGame, Option.isSome_map]
    exact hseat

/-- **A player's bank is settled.** In a round that starts with a player
as banker, in which he does not go off line and nobody leaves with a
revenue on a score of zero, the scores and revenues that are written add
up to zero. -/
theorem banker_settles (cfg : RoomConfig) (start : { t : Table n // PlayerBanker t })
    (es : List (Event n)) (s : Table n) (out : List (Output n))
    (hal : Machine.Along (roundStep cfg) Settles start.1.onTimerFree es)
    (hrun : Machine.run (roundStep cfg) start.1.onTimerFree es = some (s, out))
    (hend : s.gameStatus = .free) : writtenAll out = 0 := by
  have hinv := @Machine.inv_run_traced _ _ _ (roundStep cfg)
    (fun s h => InRound s (writtenAll h) ∨ s.gameStatus = .free ∧ writtenAll h = 0) Settles (by
      rintro s h e s' out hs hok hstep
      unfold roundStep at hstep
      split_ifs at hstep with hfree
      have heq : s.step cfg e = (s', out) := Option.some.inj hstep
      rcases hs with hs | hs
      · have hnext := hs.step cfg e hok
        rw [heq] at hnext
        rw [writtenAll_append]
        exact hnext
      · exact absurd hs.1 hfree) es start.1.onTimerFree [] (s, out)
    (.inl (InRound.onTimerFree start.2)) hal hrun
  rcases hinv with hs | hs
  · exact absurd hend hs.stage_ne
  · exact hs.2

theorem playerBanker_threePlayers : PlayerBanker threePlayers where
  free := rfl
  time := rfl
  userJettonScore_eq _ _ := rfl
  userID c d u v hu hv heq := by
    have hid : ∀ i w, threePlayers.tableUserItem i = some w → w.userID.toNat = i.val + 1 := by
      intro i w hw
      match i with
      | 0 => cases hw; rfl
      | 1 => cases hw; rfl
      | 2 => cases hw; rfl
    have hc := hid c u hu
    have hd := hid d v hv
    rw [heq] at hc
    exact Fin.ext (by omega)
  banker := ⟨0, rfl, rfl⟩

/-- A bettor stakes 50 and wins, somebody applies for the bank, and the
round ends. -/
theorem banker_settles_threePlayers :
    ∃ s out, Machine.run (roundStep fivePercent) threePlayers.onTimerFree
        [.placeJetton 1 1 50 false, .applyBanker 2, .timer tens, .timer tens] = some (s, out) ∧
      writtenAll out = 0 :=
  ⟨_, _, rfl, banker_settles fivePercent ⟨threePlayers, playerBanker_threePlayers⟩
    [.placeJetton 1 1 50 false, .applyBanker 2, .timer tens, .timer tens] _ _
    ⟨trivial, fun _ _ _ => ⟨trivial, fun _ _ _ => ⟨trivial, fun _ _ _ => ⟨trivial,
      fun _ _ _ => trivial⟩⟩⟩⟩ rfl rfl⟩

/-- **A banker who goes off line does not pay.** The bettor stakes 50 and
wins ten times that, the cards are shown, the banker's connection is lost,
and the round ends: 475 are credited, 25 kept as revenue, and nobody is
debited. -/
theorem banker_offLine_keeps_score :
    ∃ (start : { t : Table 3 // PlayerBanker t }) (es : List (Event 3)) (s : Table 3)
        (out : List (Output 3)),
      Machine.run (roundStep fivePercent) start.1.onTimerFree es = some (s, out) ∧
        s.gameStatus = .free ∧ writtenAll out = 500 :=
  ⟨⟨threePlayers, playerBanker_threePlayers⟩,
    [.placeJetton 1 1 50 false, .timer tens, .offLine 0 tens, .timer tens], _, _, rfl, rfl,
    by decide +kernel⟩

end GameServer.OxBattle
