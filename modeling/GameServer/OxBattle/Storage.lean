import GameServer.OxBattle.Settlement
import GameServer.OxBattle.Queue
import GameServer.OxBattle.Model.Storage
/-!
# Ox battle — the storage and its forecast

`JudgeSystemScore` adds up what the hands make of the stakes that real
players and robots have against each other; the end of the round takes
what the real players have won, revenue deducted, off the storage. The two
differ by the revenues (`forecast_settles`): a table without a real banker
plays against its real bettors, and one with a real banker against him.
-/

namespace GameServer.OxBattle

open Function Table

variable {n : ℕ} {cfg : RoomConfig} {s : Table n} {c : Fin n} {u : TableUser}

def isReal (s : Table n) (c : Fin n) : Bool := (s.tableUserItem c).any fun u => !u.android

def realRevenue (s : Table n) : ℤ := ∑ c, if isReal s c then s.userRevenue c else 0

def bettorGain (s : Table n) (hands : Hands) (c : Fin n) : ℤ :=
  if s.isBettor c then s.wonScore hands c - s.lostScore hands c else 0

theorem isReal_eq (hu : s.tableUserItem c = some u) : isReal s c = !u.android := by
  rw [isReal, hu, Option.any_some]

theorem isReal_eq_false (hnone : s.tableUserItem c = none) : isReal s c = false := by
  rw [isReal, hnone, Option.any_none]

theorem bankerGain_eq (s : Table n) (hands : Hands) :
    s.bankerGain hands = -∑ c, bettorGain s hands c := by
  unfold Table.bankerGain bettorGain
  rw [← Finset.sum_neg_distrib]
  refine Finset.sum_congr rfl fun c _ => ?_
  split_ifs
  · rw [neg_sub]
  · rfl

/-! ## The forecast -/

theorem wonScore_sub_lostScore (s : Table n) (hands : Hands) (c : Fin n) :
    s.wonScore hands c - s.lostScore hands c = ∑ a,
      if (deduceWinner hands a).1 then s.userJettonScore a c * (deduceWinner hands a).2
      else -(s.userJettonScore a c * (deduceWinner hands a).2) := by
  unfold Table.wonScore Table.lostScore
  rw [← Finset.sum_sub_distrib]
  refine Finset.sum_congr rfl fun a _ => ?_
  split_ifs
  · rw [sub_zero]
  · rw [zero_sub]

/-- Robots count when a real player is banker, and real players when none
is. -/
theorem sum_systemScore (hu : s.tableUserItem c = some u) (hc : s.currentBanker ≠ some c)
    (hands : Hands) : ∑ a, s.systemScore hands c u a =
      if u.android = s.systemBanker then 0
      else if u.android then bettorGain s hands c else -bettorGain s hands c := by
  have hbettor : s.isBettor c = true := isBettor_eq_true.2 ⟨hc, by rw [hu]; rfl⟩
  rw [bettorGain, if_pos hbettor, wonScore_sub_lostScore, ← Finset.sum_neg_distrib]
  have hterm (a : Area) : s.systemScore hands c u a =
      if u.android = s.systemBanker then 0
      else if u.android then
        if (deduceWinner hands a).1 then s.userJettonScore a c * (deduceWinner hands a).2
        else -(s.userJettonScore a c * (deduceWinner hands a).2)
      else
        -if (deduceWinner hands a).1 then s.userJettonScore a c * (deduceWinner hands a).2
        else -(s.userJettonScore a c * (deduceWinner hands a).2) := by
    unfold Table.systemScore
    by_cases hzero : s.userJettonScore a c = 0
    · simp only [hzero]
      simp
    · cases u.android <;> cases s.systemBanker <;> cases (deduceWinner hands a).1 <;> simp [hzero]
  simp only [hterm]
  split_ifs
  · exact Finset.sum_const_zero
  · rfl
  · rfl

theorem bettorGain_eq_zero (hc : s.tableUserItem c = none ∨ s.currentBanker = some c)
    (hands : Hands) : bettorGain s hands c = 0 := by
  rw [bettorGain, if_neg]
  rw [isBettor_eq_true]
  rintro ⟨hbanker, hseat⟩
  obtain hnone | hc := hc
  · rw [hnone] at hseat
    cases hseat
  · exact hbanker hc

theorem chairScore_eq (s : Table n) (hands : Hands) (c : Fin n) : s.chairScore hands c =
    if s.systemBanker then -(if isReal s c then bettorGain s hands c else 0)
    else if isReal s c then 0 else bettorGain s hands c := by
  unfold Table.chairScore
  match hu : s.tableUserItem c with
  | none => simp [bettorGain_eq_zero (.inl hu) hands]
  | some u =>
    by_cases hc : s.currentBanker = some c
    · simp [bettorGain_eq_zero (.inr hc) hands, hc]
    · simp only [if_neg hc, sum_systemScore hu hc, isReal_eq hu]
      cases u.android <;> cases s.systemBanker <;> simp

theorem judgeSystemScore_eq (s : Table n) (hands : Hands) : (s.judgeSystemScore hands).1 =
    if s.systemBanker then -∑ c, (if isReal s c then bettorGain s hands c else 0)
    else ∑ c, if isReal s c then 0 else bettorGain s hands c := by
  rw [Table.judgeSystemScore]
  simp only [chairScore_eq]
  split_ifs
  · rw [Finset.sum_neg_distrib]
  · rfl

/-! ## The end of the round -/

theorem userWinScore_eq_zero (cfg : RoomConfig) (hands : Hands) (hu : s.tableUserItem c = some u)
    (hcharge : s.queryBuckleServiceCharge c = false) :
    (s.calculateScore cfg hands).userWinScore c = 0 := by
  rw [Table.queryBuckleServiceCharge, hu, Option.isSome_some, Bool.true_and, Bool.or_eq_false_iff,
    decide_eq_false_iff_not, not_exists] at hcharge
  refine (calculateScore_idle cfg hands ?_ fun a => not_not.1 (hcharge.1 a)).1
  rw [ne_eq, ← beq_iff_eq, hcharge.2]
  exact Bool.false_ne_true

/-- What comes off the storage: what the real players have won. -/
theorem endStorage_calculateScore (cfg : RoomConfig) (s : Table n) (hands : Hands)
    (lStorageStart : ℤ) : (s.calculateScore cfg hands).endStorage false lStorageStart =
      lStorageStart -
        ∑ c, if isReal s c then (s.calculateScore cfg hands).userWinScore c else 0 := by
  refine congrArg (lStorageStart - ·) (Finset.sum_congr rfl fun c _ => ?_)
  have hitem : (s.calculateScore cfg hands).tableUserItem c = s.tableUserItem c := rfl
  have hquery : (s.calculateScore cfg hands).queryBuckleServiceCharge c =
      s.queryBuckleServiceCharge c := rfl
  rw [hitem, hquery]
  match hu : s.tableUserItem c with
  | none => rw [isReal_eq_false hu, if_neg Bool.false_ne_true]
  | some u =>
    rw [isReal_eq hu]
    by_cases hcharge : s.queryBuckleServiceCharge c = true
    · simp [hcharge]
    · rw [Bool.not_eq_true] at hcharge
      simp [hcharge, userWinScore_eq_zero cfg hands hu hcharge]

/-- What the real players have won with their revenues is what the hands
make of the real bettors' stakes, and the banker's gain if he is one of
them. -/
theorem sum_real (cfg : RoomConfig) (s : Table n) (hands : Hands) :
    ∑ c, (if isReal s c then (s.calculateScore cfg hands).userWinScore c else 0) + realRevenue
        (s.calculateScore cfg hands) =
      ∑ c, (if isReal s c then bettorGain s hands c else 0) +
        ∑ c, if s.currentBanker = some c then (if isReal s c then s.bankerGain hands else 0)
          else 0 := by
  rw [realRevenue, ← Finset.sum_add_distrib, ← Finset.sum_add_distrib]
  refine Finset.sum_congr rfl fun c _ => ?_
  change (if isReal s c then _ else 0) + (if isReal s c then _ else 0) = _
  have htotal := calculateScore_total cfg s hands c
  rw [← bettorGain] at htotal
  split_ifs with hreal hbanker
  · rw [htotal, if_pos hbanker]
  · rw [htotal, if_neg hbanker]
  · rfl
  · rfl

theorem sum_banker (hbanker : ∀ b, s.currentBanker = some b → (s.tableUserItem b).isSome)
    (x : ℤ) : ∑ c, (if s.currentBanker = some c then (if isReal s c then x else 0) else 0) =
      if s.systemBanker then 0 else x := by
  unfold Table.systemBanker
  match hb : s.currentBanker with
  | none => simp
  | some b =>
    obtain ⟨u, hu⟩ := Option.isSome_iff_exists.1 (hbanker b hb)
    simp only [Option.some.injEq, Finset.sum_ite_eq, Finset.mem_univ, if_true, isReal_eq hu, hu,
      Option.map_some, Option.getD_some]
    cases u.android <;> rfl

/-- **The forecast and the settlement**: the storage changes by the
forecast and the revenues. -/
theorem endStorage_eq (hbanker : ∀ b, s.currentBanker = some b → (s.tableUserItem b).isSome)
    (cfg : RoomConfig) (hands : Hands) (lStorageStart : ℤ) :
    (s.calculateScore cfg hands).endStorage false lStorageStart =
      lStorageStart + (s.judgeSystemScore hands).1 + realRevenue (s.calculateScore cfg hands) := by
  have hreal := sum_real cfg s hands
  rw [sum_banker hbanker, bankerGain_eq] at hreal
  rw [endStorage_calculateScore, judgeSystemScore_eq]
  split_ifs at hreal ⊢
  · omega
  · have hsplit : ∑ c, (if isReal s c then 0 else bettorGain s hands c) =
        ∑ c, bettorGain s hands c - ∑ c, if isReal s c then bettorGain s hands c else 0 := by
      rw [← Finset.sum_sub_distrib]
      refine Finset.sum_congr rfl fun c _ => ?_
      split_ifs
      · rw [sub_self]
      · rw [sub_zero]
    omega

theorem currentBanker_isSome_run (events : List (QueueEvent n)) {b : Fin n}
    (hb : (TotalMachine.run Table.queueStep ({} : Table n) events).1.currentBanker = some b) :
    ((TotalMachine.run Table.queueStep ({} : Table n) events).1.tableUserItem b).isSome := by
  have hqueue := TotalMachine.inv_run_traced (P := fun s _ => Queue s)
    (fun s _ e hs => hs.queueStep e) events ({} : Table n) [] queue_init
  exact hqueue.seated b (hqueue.banker b hb)

/-! ## The exchange -/

theorem exchange_tableCard (hands : Hands) (a : Area) (i : Option Area) :
    (hands.exchange a).tableCard i = hands.tableCard (Equiv.swap none (some a) i) := by
  match i with
  | none => rfl
  | some b =>
    change update hands.area a hands.banker b = _
    by_cases hb : b = a
    · rw [hb, update_self, Equiv.swap_apply_right]
      rfl
    · rw [update_of_ne hb, Equiv.swap_apply_of_ne_of_ne (Option.some_ne_none b) (by simpa using hb)]
      rfl

theorem findGain_pos (s : Table n) (hands : Hands) : ∀ {as : List Area} {found : Option Area},
    (∀ a, found = some a → 0 < (s.judgeSystemScore (hands.exchange a)).1) →
    ∀ a, s.findGain hands as found = some a → 0 < (s.judgeSystemScore (hands.exchange a)).1 := by
  intro as
  induction as with
  | nil => exact fun h => h
  | cons nOk rest ih =>
    intro found h a ha
    rw [Table.findGain] at ha
    split at ha
    next hpos =>
      have hnOk : ∀ b, some nOk = some b → 0 < (s.judgeSystemScore (hands.exchange b)).1 := by
        rintro b ⟨⟩
        exact hpos
      split at ha
      · exact ih hnOk a ha
      · exact hnOk a ha
    next => exact ih h a ha

/-- `StorageOptimize` permutes the hands, and an exchange that it makes
because the storage cannot cover a loss is one where the system wins. -/
theorem storageOptimize_spec (s : Table n) (storage : Storage) (rand : ℕ) (hands : Hands) :
    (∃ σ : Equiv.Perm (Option Area), ∀ i,
      (s.storageOptimize storage rand hands).tableCard i = hands.tableCard (σ i)) ∧
    ((s.judgeSystemScore hands).1 < 0 →
      s.storageOptimize storage rand hands = hands ∨
        storage.lStorageStart ≤ -(s.judgeSystemScore hands).1 ∧
          0 < (s.judgeSystemScore (s.storageOptimize storage rand hands)).1) := by
  rw [Table.storageOptimize]
  match h : s.storageExchange storage rand hands with
  | none => exact ⟨⟨Equiv.refl _, fun _ => rfl⟩, fun _ => .inl rfl⟩
  | some a =>
    refine ⟨⟨Equiv.swap none (some a), exchange_tableCard hands a⟩, fun hneg => .inr ?_⟩
    rw [Table.storageExchange, if_pos hneg] at h
    split at h
    · cases h
    · next hcover => exact ⟨not_lt.1 hcover, findGain_pos s hands (by nofun) a h⟩

/-- **The forecast of a round.** With nobody leaving and no control the
storage changes by `lSystemScore` and the revenues charged to real
players; `StorageOptimize` permutes the five hands, and where it exchanges
two because the storage cannot cover a loss, the forecast is a gain. The
banker has a seat, as he has in every run
(`currentBanker_isSome_run`). -/
theorem forecast_settles (hbanker : ∀ b, s.currentBanker = some b → (s.tableUserItem b).isSome)
    (cfg : RoomConfig) (hands : Hands) (lStorageStart : ℤ) (storage : Storage) (rand : ℕ) :
    (s.judgeSystemScore hands).1 =
        (s.calculateScore cfg hands).endStorage false lStorageStart - lStorageStart -
          realRevenue (s.calculateScore cfg hands) ∧
    (∃ σ : Equiv.Perm (Option Area), ∀ i,
      (s.storageOptimize storage rand hands).tableCard i = hands.tableCard (σ i)) ∧
    ((s.judgeSystemScore hands).1 < 0 →
      s.storageOptimize storage rand hands = hands ∨
        storage.lStorageStart ≤ -(s.judgeSystemScore hands).1 ∧
          0 < (s.judgeSystemScore (s.storageOptimize storage rand hands)).1) := by
  refine ⟨?_, storageOptimize_spec s storage rand hands⟩
  rw [endStorage_eq hbanker]
  omega

/-- Two players without a banker, one of whom stakes 100. -/
def staked : Table 2 where
  tableUserItem := ![some { userID := 1, lScore := 1000 }, some { userID := 2, lScore := 500 }]
  jettonTime := true
  userJettonScore a c := if a = .tianMen ∧ c = 0 then 10 else 0

theorem forecast_settles_staked :
    (staked.judgeSystemScore tens).1 =
        (staked.calculateScore fivePercent tens).endStorage false 50 - 50 -
          realRevenue (staked.calculateScore fivePercent tens) ∧
    (∃ σ : Equiv.Perm (Option Area), ∀ i,
      (staked.storageOptimize ⟨50, 1000, 10⟩ 0 tens).tableCard i = tens.tableCard (σ i)) ∧
    ((staked.judgeSystemScore tens).1 < 0 →
      staked.storageOptimize ⟨50, 1000, 10⟩ 0 tens = tens ∨
        (50 : ℤ) ≤ -(staked.judgeSystemScore tens).1 ∧
          0 < (staked.judgeSystemScore (staked.storageOptimize ⟨50, 1000, 10⟩ 0 tens)).1) :=
  forecast_settles (s := staked) (by nofun) fivePercent tens 50 ⟨50, 1000, 10⟩ 0

/-- **The revenues are not added but taken off**: a player wins 100 of the
system and is charged 5, so the storage loses 95 where the forecast was
100. -/
theorem forecast_without_revenue :
    (staked.judgeSystemScore tens).1 ≠
      (staked.calculateScore fivePercent tens).endStorage false 1000 - 1000 +
        realRevenue (staked.calculateScore fivePercent tens) := by
  decide +kernel

end GameServer.OxBattle
