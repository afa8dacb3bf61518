import GameServer.Ox.Model.TableFrameSink
import Mathlib.Algebra.Order.BigOperators.Group.Finset
import Mathlib.Algebra.Order.Ring.Int
/-!
# Ox — the stages of a hand

A table is free, looks for a banker, takes stakes or opens cards, and what
holds in each stage (`Calling`, `Staking`, `Opening`) is kept by every
event (`step_keeps_stage`): somebody is always to act, every stake is
within the limit that was set, and no event faults.
-/

namespace GameServer.Ox

/-! ## Chairs -/

theorem count_pos_update : ∀ (f : Chair → Bool) (i : Chair), f i = true →
    (List.finRange gamePlayer).countP (Function.update f i false) + 1 =
      (List.finRange gamePlayer).countP f := by decide

theorem exists_other : ∀ (f : Chair → Bool), 2 ≤ (List.finRange gamePlayer).countP f →
    ∀ j, ∃ i, i ≠ j ∧ f i = true := by decide

theorem count_others : ∀ (f : Chair → Bool) (j : Chair), f j = true →
    (List.finRange gamePlayer).countP (fun i => decide (i ≠ j) && f i) + 1 =
      (List.finRange gamePlayer).countP f := by decide

theorem count_eq_all {p : Chair → Bool} :
    (List.finRange gamePlayer).countP p = gamePlayer ↔ ∀ i, p i = true := by
  have hall := List.countP_eq_length (p := p) (l := List.finRange gamePlayer)
  exact hall.trans ⟨fun h i => h i (List.mem_finRange i), fun h i _ => h i⟩

theorem not_before : ∀ i first : Chair, ¬ (i - first).val < (first - first).val := by decide

/-- What a hand that is played out costs the banker is at most what he
has. -/
def Output.Solvent : Output → Prop
  | .gameEnd bankerUser bankerScore gameScore => -gameScore bankerUser ≤ bankerScore
  | _ => True

theorem find_from : ∀ (f : Chair → Bool) (chair : Chair), (∃ i, f i = true) →
    ∃ i, [chair, chair + 1, chair + 2, chair + 3].find? f = some i ∧ f i = true := by decide

/-- The next caller: with the order from the first caller on, the first of
those behind the last one. -/
theorem find_next : ∀ (f : Chair → Bool) (first last : Chair),
    (∃ i, f i = true ∧ i ≠ last ∧ ¬ (i - first).val < (last - first).val) →
    ∃ i, [last + 1, last + 1 + 1, last + 1 + 2, last + 1 + 3].find? f = some i ∧ f i = true ∧
      i ≠ last ∧ ¬ (i - first).val < (last - first).val ∧
      ∀ j, f j = true → ((j - first).val < (i - first).val ↔
        j = last ∨ (j - first).val < (last - first).val) := by decide +kernel

namespace TableSink

variable {s s' : TableSink} {chair banker i : Chair} {bankerScore : ℤ} {n : ℕ}

/-- Someone takes part in the hand. -/
def Playing (s : TableSink) (i : Chair) : Prop := s.playStatus i = .playing

instance (s : TableSink) (i : Chair) : Decidable (s.Playing i) :=
  inferInstanceAs (Decidable (_ = _))

/-- What holds in all stages of a hand: two players at least, all of them
there, and what was left behind is in the pot. -/
structure Seated (s : TableSink) : Prop where
  two : 2 ≤ s.userCount
  present : ∀ i, s.Playing i → s.users i ≠ none
  stakes : ∀ i, 0 ≤ s.tableScore i
  exits : s.exitScore = ∑ i, if s.Playing i then 0 else s.tableScore i

/-- The call is with `current`: who is behind `first` and before him has
called. -/
structure Turn (s : TableSink) (first current : Chair) : Prop where
  status : s.gameStatus = .call
  firstCall : s.firstCallUser = some first
  caller : s.currentUser = some current
  called : ∀ i, s.Playing i →
    (s.callStatus i = true ↔ (i - first).val < (current - first).val)
  stakes : ∀ i, s.tableScore i = 0
  limits : ∀ i, s.turnMaxScore i = 0
  closed : ∀ i, s.oxCard i = none

/-- **The call for the bank.** -/
structure Calling (s : TableSink) : Prop where
  seated : s.Seated
  turn : ∃ first current, s.Turn first current ∧ s.Playing current

/-- The banker and the limits, as they were set when `n` took part. -/
structure Banked (s : TableSink) (banker : Chair) (bankerScore : ℤ) (n : ℕ) : Prop where
  user : s.bankerUser = some banker
  plays : s.Playing banker
  score : s.users banker = some bankerScore
  stake : s.tableScore banker = 0
  limit : s.turnMaxScore banker = 0
  count : s.userCount ≤ n
  limits : ∀ i, s.idle banker i → ∃ own, s.users i = some own ∧
    s.turnMaxScore i = turnMax bankerScore n own ∧
    (0 < s.tableScore i → s.tableScore i ≤ s.turnMaxScore i)

/-- The stakes, all in or not. -/
structure Betting (s : TableSink) : Prop where
  status : s.gameStatus = .score
  seated : s.Seated
  banked : ∃ banker bankerScore n, s.Banked banker bankerScore n
  closed : ∀ i, s.oxCard i = none

/-- One who plays against the banker is still to bet. -/
def Due (s : TableSink) (i : Chair) : Prop :=
  s.Playing i ∧ some i ≠ s.bankerUser ∧ s.tableScore i = 0

/-- **The stakes**, not all in. -/
structure Staking (s : TableSink) : Prop where
  betting : s.Betting
  waiting : ∃ i, s.Due i

/-- The cards, all open or not. -/
structure Showing (s : TableSink) : Prop where
  status : s.gameStatus = .playing
  seated : s.Seated
  banked : ∃ banker bankerScore n, s.Banked banker bankerScore n ∧
    ∀ i, s.idle banker i → 0 < s.tableScore i

/-- Someone is still to open his cards. -/
def Closed (s : TableSink) (i : Chair) : Prop := s.Playing i ∧ s.oxCard i = none

/-- **The cards**, not all open. -/
structure Opening (s : TableSink) : Prop where
  showing : s.Showing
  waiting : ∃ i, s.Closed i

/-- No hand is on. -/
structure Free (s : TableSink) : Prop where
  status : s.gameStatus = .free
  exits : s.exitScore = 0
  stakes : ∀ i, s.tableScore i = 0
  called : ∀ i, s.callStatus i = false
  closed : ∀ i, s.oxCard i = none
  limits : ∀ i, s.turnMaxScore i = 0

/-- **What holds between two events.** -/
def Stage (s : TableSink) : Prop := s.Free ∨ s.Calling ∨ s.Staking ∨ s.Opening

/-- What an event of the hand leads to: a stage again, nobody new who
plays, and no settlement that costs the banker more than he has. -/
structure Kept (s s' : TableSink) (out : List Output) : Prop where
  stage : s'.Stage
  playing : ∀ i, s'.Playing i → s.Playing i
  solvent : ∀ o ∈ out, o.Solvent

/-- A handler that does not fault, and leads to a stage. -/
def Leads (s : TableSink) (r : Option (TableSink × List Output)) : Prop :=
  ∃ s' out, r = some (s', out) ∧ s.Kept s' out

theorem userCount_eq (s : TableSink) :
    s.userCount = (List.finRange gamePlayer).countP fun i => decide (s.Playing i) := rfl

theorem free_concludeGame (s : TableSink) : s.concludeGame.Free :=
  ⟨rfl, rfl, fun _ => rfl, fun _ => rfl, fun _ => rfl, fun _ => rfl⟩

theorem Stage.leads (hs : s.Stage) : s.Leads (some (s, [])) :=
  ⟨s, [], rfl, hs, fun _ => id, nofun⟩

theorem leads_gameOver (s : TableSink) : s.Leads (some (s.concludeGame, [.gameOver])) :=
  ⟨s.concludeGame, [.gameOver], rfl, .inl (free_concludeGame s), nofun,
    List.forall_mem_cons.2 ⟨trivial, nofun⟩⟩

theorem Seated.exists_playing (hs : s.Seated) (j : Chair) : ∃ i, i ≠ j ∧ s.Playing i := by
  obtain ⟨i, hi, hplays⟩ := exists_other (fun i => decide (s.Playing i)) hs.two j
  exact ⟨i, hi, of_decide_eq_true hplays⟩

theorem seek_spec (chair : Chair) (h : ∃ i, s.Playing i) :
    ∃ i, s.seek chair = some i ∧ s.Playing i := by
  obtain ⟨j, hj⟩ := h
  obtain ⟨i, hfind, hi⟩ :=
    find_from (fun i => decide (s.Playing i)) chair ⟨j, decide_eq_true hj⟩
  exact ⟨i, hfind, of_decide_eq_true hi⟩

/-! ## The call -/

/-- **The banker is found**, and the stakes begin. -/
theorem startScore_spec (hs : s.Seated) (hstakes : ∀ i, s.tableScore i = 0)
    (hlimits : ∀ i, s.turnMaxScore i = 0) (hclosed : ∀ i, s.oxCard i = none) (chair : Chair) :
    ∃ s' out, s.startScore chair = some (s', out) ∧ s.Kept s' out ∧ s'.Staking := by
  obtain ⟨i₀, -, hplays⟩ := hs.exists_playing chair
  obtain ⟨banker, hseek, hbanker⟩ := seek_spec chair ⟨i₀, hplays⟩
  obtain ⟨bankerScore, hscore⟩ := Option.ne_none_iff_exists'.1 (hs.present banker hbanker)
  have hstart : s.startScore chair = some ({ s with
      bankerUser := some banker
      currentUser := none
      gameStatus := .score
      turnMaxScore := fun i =>
        if s.playStatus i ≠ .playing ∨ i = banker then s.turnMaxScore i
        else turnMax bankerScore s.userCount ((s.users i).getD 0) }, [.gameStart banker]) := by
    rw [startScore, hseek]
    simp only [Option.bind_eq_bind, Option.bind_some, hscore]
    exact if_pos hs.present
  refine ⟨_, _, hstart, (fun hstaking => ⟨⟨.inr (.inr (.inl hstaking)), fun _ => id,
    List.forall_mem_cons.2 ⟨trivial, nofun⟩⟩, hstaking⟩) ⟨⟨rfl, ⟨hs.two, hs.present, hs.stakes,
      hs.exits⟩, ⟨banker, bankerScore, s.userCount, ?_⟩, hclosed⟩, ?_⟩⟩
  · refine ⟨rfl, hbanker, hscore, hstakes banker, ?_, le_rfl, fun i hi => ?_⟩
    · exact (if_pos (Or.inr rfl)).trans (hlimits banker)
    · obtain ⟨own, hown⟩ := Option.ne_none_iff_exists'.1 (hs.present i hi.2)
      refine ⟨own, hown, ?_, fun hpos => absurd (hstakes i) hpos.ne'⟩
      refine (if_neg (not_or.2 ⟨not_not.2 hi.2, hi.1⟩)).trans ?_
      rw [hown, Option.getD_some]
  · obtain ⟨i, hi, hplays⟩ := hs.exists_playing banker
    exact ⟨i, hplays, fun heq => hi (Option.some.inj heq), hstakes i⟩

/-- **A call of the one whose turn it is**, also when he has just left:
the stakes begin, or one who has not called is next. -/
theorem Turn.call {first current : Chair} (hs : s.Seated) (ht : s.Turn first current)
    (banker : UInt8) : ∃ s' out, s.onUserCallBanker current banker = some (s', out) ∧
      s.Kept s' out ∧ (s'.Staking ∨ s'.Calling ∧ ∃ next, s'.currentUser = some next ∧ next ≠ current ∧
        s.Playing next ∧ s.callStatus next = false ∧ s'.callStatus current = true) := by
  have hcond : ¬ (s.gameStatus ≠ .call ∨ s.currentUser ≠ some current) :=
    not_or.2 ⟨not_not.2 ht.status, not_not.2 ht.caller⟩
  rw [onUserCallBanker, if_neg hcond]
  dsimp only
  split_ifs with hend
  · obtain ⟨s', out, hstart, hkept, hstaking⟩ := startScore_spec
      (s := { s with callStatus := Function.update s.callStatus current true })
      ⟨hs.two, hs.present, hs.stakes, hs.exits⟩ ht.stakes ht.limits ht.closed current
    exact ⟨s', out, hstart, ⟨hkept.stage, hkept.playing, hkept.solvent⟩, .inl hstaking⟩
  · rw [not_or, count_eq_all, not_forall] at hend
    obtain ⟨-, j, hj⟩ := hend
    simp only [decide_eq_true_eq, not_or, not_and, not_not] at hj
    have hne : j ≠ current := by
      rintro rfl
      exact hj.1 hj.2 (Function.update_self _ _ _)
    have hlate : ¬ (j - first).val < (current - first).val := by
      intro hlt
      refine hj.1 hj.2 ?_
      rw [Function.update_of_ne hne]
      exact (ht.called j hj.2).2 hlt
    obtain ⟨next, hfind, hplays, hnext, hbehind, horder⟩ :=
      find_next (fun i => decide (s.Playing i)) first current ⟨j, decide_eq_true hj.2, hne, hlate⟩
    have hplays := of_decide_eq_true hplays
    have hsilent : s.callStatus next = false :=
      Bool.eq_false_iff.2 fun h => hbehind ((ht.called next hplays).1 h)
    have hcalling : TableSink.Calling { s with
        callStatus := Function.update s.callStatus current true
        currentUser := some next } := by
      refine ⟨⟨hs.two, hs.present, hs.stakes, hs.exits⟩, first, next, ⟨ht.status, ht.firstCall,
        rfl, fun i hi => ?_, ht.stakes, ht.limits, ht.closed⟩, hplays⟩
      rw [horder i (decide_eq_true hi)]
      dsimp only
      obtain rfl | hi' := eq_or_ne i current
      · rw [Function.update_self]
        exact ⟨fun _ => .inl rfl, fun _ => rfl⟩
      · rw [Function.update_of_ne hi', ht.called i hi, or_iff_right hi']
    exact ⟨_, _, congrArg (Option.map _) hfind, ⟨.inr (.inl hcalling), fun _ => id,
      List.forall_mem_cons.2 ⟨trivial, nofun⟩⟩, .inr ⟨hcalling, next, rfl, hnext, hplays, hsilent,
        Function.update_self _ _ _⟩⟩

/-! ## The stakes -/

theorem stakes_in_iff (s : TableSink) :
    (List.finRange gamePlayer).countP (fun i =>
      0 < s.tableScore i ∧ s.playStatus i = .playing ∨ s.playStatus i ≠ .playing ∨
        some i = s.bankerUser) = gamePlayer ↔
      ∀ i, s.Playing i → some i ≠ s.bankerUser → 0 < s.tableScore i := by
  rw [count_eq_all]
  simp only [decide_eq_true_eq]
  refine forall_congr' fun i => ⟨?_, fun h => ?_⟩
  · rintro (hbet | hidle | hbanker) hplays hne
    · exact hbet.1
    · exact absurd hplays hidle
    · exact absurd hbanker hne
  · by_cases hplays : s.Playing i
    · by_cases hbanker : some i = s.bankerUser
      · exact .inr (.inr hbanker)
      · exact .inl ⟨h hplays hbanker, hplays⟩
    · exact .inr (.inl hplays)

theorem Banked.idle_iff (hb : s.Banked banker bankerScore n) :
    s.idle banker i ↔ s.Playing i ∧ some i ≠ s.bankerUser := by
  rw [idle, hb.user, and_comm]
  exact and_congr_right fun _ => not_congr Option.some_inj.symm

theorem Betting.sendCard (hs : s.Betting)
    (hall : ∀ i, s.Playing i → some i ≠ s.bankerUser → 0 < s.tableScore i) (rand : ℕ → ℕ) :
    (s.sendCard rand).Opening := by
  obtain ⟨banker, bankerScore, n, hb⟩ := hs.banked
  refine ⟨⟨rfl, ⟨hs.seated.two, hs.seated.present, hs.seated.stakes, hs.seated.exits⟩,
    banker, bankerScore, n, ⟨hb.user, hb.plays, hb.score, hb.stake, hb.limit, hb.count, hb.limits⟩,
    fun i hi => ?_⟩, banker, hb.plays, hs.closed banker⟩
  have hidle := hb.idle_iff.1 hi
  exact hall i hidle.1 hidle.2

/-- A stake within the limit goes on the table. -/
theorem Betting.bet {score : ℤ} (hs : s.Betting) (hplays : s.Playing chair) (hpos : 0 < score)
    (hlimit : score ≤ s.turnMaxScore chair) :
    ({ s with tableScore := Function.update s.tableScore chair score } : TableSink).Betting := by
  obtain ⟨banker, bankerScore, n, hb⟩ := hs.banked
  have hne : banker ≠ chair := by
    rintro rfl
    rw [hb.limit] at hlimit
    exact absurd hlimit (not_le.2 hpos)
  refine ⟨hs.status, ⟨hs.seated.two, hs.seated.present, fun i => ?_, ?_⟩,
    ⟨banker, bankerScore, n, hb.user, hb.plays, hb.score, ?_, hb.limit, hb.count, fun i hi => ?_⟩,
    hs.closed⟩
  · show 0 ≤ Function.update s.tableScore chair score i
    obtain rfl | hi := eq_or_ne i chair
    · rw [Function.update_self]
      exact hpos.le
    · rw [Function.update_of_ne hi]
      exact hs.seated.stakes i
  · refine hs.seated.exits.trans (Finset.sum_congr rfl fun i _ => ?_)
    show _ = if s.Playing i then 0 else Function.update s.tableScore chair score i
    obtain rfl | hi := eq_or_ne i chair
    · rw [if_pos hplays, if_pos hplays]
    · rw [Function.update_of_ne hi]
  · exact (Function.update_of_ne hne score s.tableScore).trans hb.stake
  · obtain ⟨own, hown, hmax, hle⟩ := hb.limits i hi
    refine ⟨own, hown, hmax, ?_⟩
    show 0 < Function.update s.tableScore chair score i →
      Function.update s.tableScore chair score i ≤ s.turnMaxScore i
    obtain rfl | hne := eq_or_ne i chair
    · rw [Function.update_self]
      exact fun _ => hlimit
    · rw [Function.update_of_ne hne]
      exact hle

theorem addScore_refused {score : ℤ} (hplays : s.Playing chair)
    (h : score ≤ 0 ∨ s.turnMaxScore chair < score) (rand : ℕ → ℕ) :
    s.onUserAddScore chair score rand = (s, []) := by
  rw [onUserAddScore]
  split
  · rfl
  · exact if_pos ⟨hplays, h⟩

/-- **A stake that is accepted**: the cards are dealt with the last one. -/
theorem Betting.addScore {score : ℤ} (hs : s.Betting) (hplays : s.Playing chair) (hpos : 0 < score)
    (hlimit : score ≤ s.turnMaxScore chair) (rand : ℕ → ℕ) :
    let next : TableSink := { s with tableScore := Function.update s.tableScore chair score }
    (s.onUserAddScore chair score rand = (next, [.addScore chair score]) ∧ next.Staking) ∨
      (s.onUserAddScore chair score rand =
        (next.sendCard rand, [.addScore chair score, .sendCard]) ∧
          (next.sendCard rand).Opening ∧ ∀ i, s.Due i → i = chair) := by
  intro next
  have hbet : next.Betting := hs.bet hplays hpos hlimit
  have haccept : s.onUserAddScore chair score rand =
      if (List.finRange gamePlayer).countP (fun i =>
        0 < next.tableScore i ∧ next.playStatus i = .playing ∨ next.playStatus i ≠ .playing ∨
          some i = next.bankerUser) = gamePlayer
      then (next.sendCard rand, [.addScore chair score, .sendCard])
      else (next, [.addScore chair score]) := by
    rw [onUserAddScore, if_neg (not_not.2 hs.status),
      if_neg fun h => h.2.elim (not_le.2 hpos) (not_lt.2 hlimit), if_neg fun h => h.1 hplays]
    simp only [if_pos hpos]
    rfl
  rw [haccept]
  split_ifs with hall
  · have hin := (stakes_in_iff next).1 hall
    refine .inr ⟨rfl, hbet.sendCard hin rand, fun i hi => by_contra fun hne => ?_⟩
    have hpos := hin i hi.1 hi.2.1
    rw [show next.tableScore i = s.tableScore i from Function.update_of_ne hne _ _, hi.2.2] at hpos
    exact lt_irrefl _ hpos
  · rw [stakes_in_iff] at hall
    push Not at hall
    obtain ⟨i, hi, hne, hzero⟩ := hall
    exact .inl ⟨rfl, hbet, i, hi, hne, le_antisymm hzero (hbet.seated.stakes i)⟩

end TableSink

end GameServer.Ox
