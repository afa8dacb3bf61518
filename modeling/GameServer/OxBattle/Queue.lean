import GameServer.OxBattle.Stakes
import GameServer.OxBattle.Model.ApplyQueue
/-!
# Ox battle — the queue for the bank

Nobody is in the queue twice, everybody in it has a seat, and the banker is
one of them (`Queue`). Every handler keeps that, in the middle of a round
and between two, so it holds in every run (`banker_queue`).
-/

namespace GameServer.OxBattle

open Function Table

variable {n : ℕ} {cfg : RoomConfig} {s t : Table n} {c : Fin n}

/-- **The queue for the bank**, `m_ApplyUserArray` and
`m_wCurrentBanker`. -/
structure Queue (s : Table n) : Prop where
  nodup : s.applyUserArray.Nodup
  seated : ∀ c ∈ s.applyUserArray, (s.tableUserItem c).isSome
  banker : ∀ b, s.currentBanker = some b → b ∈ s.applyUserArray

/-- Who may be banker. -/
def Meets (cfg : RoomConfig) (s : Table n) (c : Fin n) : Prop :=
  ∃ u, s.tableUserItem c = some u ∧ cfg.lApplyBankerCondition ≤ u.lScore

instance (cfg : RoomConfig) (s : Table n) (c : Fin n) : Decidable (Meets cfg s c) :=
  match h : s.tableUserItem c with
  | none => isFalse fun ⟨_, hu, _⟩ => nomatch h.symm.trans hu
  | some u => decidable_of_iff (cfg.lApplyBankerCondition ≤ u.lScore)
      ⟨fun hle => ⟨u, h, hle⟩, fun ⟨_, hu, hle⟩ => Option.some.inj (h.symm.trans hu) ▸ hle⟩

/-! ## Choosing a banker -/

theorem takeTurnsLoop_spec (cfg : RoomConfig) (s : Table n) : ∀ (cs : List (Fin n)) (i k : ℕ),
    k ≤ i → (s.takeTurnsLoop cfg cs i k).1 = cs.find? (fun c => Meets cfg s c) ∧
      ∀ c ∈ cs.take ((s.takeTurnsLoop cfg cs i k).2 - i), ¬ Meets cfg s c := by
  intro cs
  induction cs with
  | nil => exact fun i k _ => ⟨rfl, fun c hc => absurd hc (by rw [List.take_nil]; exact nofun)⟩
  | cons c cs ih =>
    intro i k hk
    have hskip (hno : ¬ Meets cfg s c) (k' : ℕ) (hk' : k' ≤ i + 1)
        (hloop : s.takeTurnsLoop cfg (c :: cs) i k = s.takeTurnsLoop cfg cs (i + 1) k') :
        (s.takeTurnsLoop cfg (c :: cs) i k).1 = (c :: cs).find? (fun c => Meets cfg s c) ∧
          ∀ w ∈ (c :: cs).take ((s.takeTurnsLoop cfg (c :: cs) i k).2 - i), ¬ Meets cfg s w := by
      obtain ⟨hfind, htake⟩ := ih (i + 1) k' hk'
      rw [hloop, List.find?_cons_of_neg (by simpa using hno)]
      refine ⟨hfind, fun w hw => ?_⟩
      obtain hzero | hpos := Nat.eq_zero_or_pos ((s.takeTurnsLoop cfg cs (i + 1) k').2 - i)
      · rw [hzero] at hw
        cases hw
      · obtain ⟨m, hm⟩ := Nat.exists_eq_succ_of_ne_zero hpos.ne'
        rw [hm, List.take_succ_cons] at hw
        obtain rfl | hw := List.mem_cons.1 hw
        · exact hno
        · refine htake w ?_
          rwa [show (s.takeTurnsLoop cfg cs (i + 1) k').2 - (i + 1) = m by omega]
    match hu : s.tableUserItem c with
    | none =>
      refine hskip (fun ⟨u, h, _⟩ => nomatch hu.symm.trans h) k (by omega) ?_
      rw [Table.takeTurnsLoop, hu]
    | some u =>
      by_cases hle : cfg.lApplyBankerCondition ≤ u.lScore
      · have hloop : s.takeTurnsLoop cfg (c :: cs) i k = (some c, k) := by
          rw [Table.takeTurnsLoop, hu]
          exact if_pos hle
        rw [hloop, List.find?_cons_of_pos (by simpa using ⟨u, hu, hle⟩)]
        refine ⟨rfl, fun w hw => ?_⟩
        rw [Nat.sub_eq_zero_of_le hk] at hw
        cases hw
      · refine hskip (fun ⟨u', h, hle'⟩ => hle ?_) (i + 1) le_rfl ?_
        · rwa [Option.some.inj (hu.symm.trans h)]
        · rw [Table.takeTurnsLoop, hu]
          exact if_neg hle

/-- **`TakeTurns`** removes applicants who do not meet the condition, and
between two rounds it selects the first who does. -/
theorem takeTurns_spec (cfg : RoomConfig) (s : Table n) :
    (∃ removed, s.applyUserArray = removed ++ (s.takeTurns cfg).applyUserArray ∧
      ∀ c ∈ removed, ¬ Meets cfg s c) ∧
    (s.takeTurns cfg).currentBanker =
      if s.gameStatus = .free then
        (s.applyUserArray.find? fun c => Meets cfg s c).or s.currentBanker
      else s.currentBanker := by
  by_cases hstage : s.gameStatus = .free
  · obtain ⟨hfind, htake⟩ := takeTurnsLoop_spec cfg s s.applyUserArray 0 0 le_rfl
    rw [if_pos hstage, ← hfind, Table.takeTurns, if_pos hstage]
    exact ⟨⟨_, (List.take_append_drop _ _).symm, htake⟩, rfl⟩
  · rw [takeTurns_eq hstage, if_neg hstage]
    exact ⟨⟨[], rfl, (by simp)⟩, rfl⟩

theorem tableUserItem_takeTurns (cfg : RoomConfig) (s : Table n) :
    (s.takeTurns cfg).tableUserItem = s.tableUserItem := by
  rw [Table.takeTurns]
  split <;> rfl

theorem Queue.newBanker (hs : Queue s) (hnone : s.currentBanker = none) (cfg : RoomConfig) :
    Queue (s.newBanker cfg) := by
  obtain ⟨⟨removed, harray, hremoved⟩, hbanker⟩ := takeTurns_spec cfg s
  have hmem {w : Fin n} (hw : w ∈ (s.takeTurns cfg).applyUserArray) : w ∈ s.applyUserArray :=
    harray ▸ List.mem_append_right _ hw
  refine ⟨(List.nodup_append'.1 (harray ▸ hs.nodup)).2.1, fun w hw => ?_, fun b hb => ?_⟩
  · show ((s.takeTurns cfg).tableUserItem w).isSome
    rw [tableUserItem_takeTurns]
    exact hs.seated w (hmem hw)
  · have hb : (s.takeTurns cfg).currentBanker = some b := hb
    rw [hbanker, hnone, Option.or_none] at hb
    split at hb
    · have hmeets := List.find?_some hb
      have hin := List.mem_of_find?_eq_some hb
      rw [harray] at hin
      refine (List.mem_append.1 hin).resolve_left fun hout => hremoved b hout ?_
      simpa using hmeets
    · cases hb

theorem applyUserArray_newBanker (hc : c ∉ s.applyUserArray) :
    c ∉ (s.newBanker cfg).applyUserArray := by
  obtain ⟨⟨removed, harray, -⟩, -⟩ := takeTurns_spec cfg s
  exact fun hin => hc (harray ▸ List.mem_append_right _ hin)

/-! ## Leaving the queue -/

theorem Queue.congr (hs : Queue s) (harray : t.applyUserArray = s.applyUserArray)
    (hbanker : t.currentBanker = s.currentBanker)
    (hseats : ∀ c, (s.tableUserItem c).isSome → (t.tableUserItem c).isSome) : Queue t := by
  refine ⟨?_, fun c hc => hseats c (hs.seated c ?_), fun b hb => ?_⟩
  · rw [harray]
    exact hs.nodup
  · rwa [harray] at hc
  · rw [harray]
    exact hs.banker b (hbanker ▸ hb)

theorem Queue.removeApply (hs : Queue s) (hc : s.currentBanker ≠ some c) :
    Queue (s.removeApply c) := by
  refine ⟨hs.nodup.erase c, fun w hw => hs.seated w (List.mem_of_mem_erase hw), fun b hb => ?_⟩
  refine (List.mem_erase_of_ne ?_).2 (hs.banker b hb)
  rintro rfl
  exact hc hb

theorem Queue.dropBanker (hs : Queue s) (b : Fin n) : Queue (s.dropBanker b) :=
  ⟨hs.nodup.erase b, fun w hw => hs.seated w (List.mem_of_mem_erase hw), nofun⟩

theorem Queue.cancelBanker (hs : Queue s) (cfg : RoomConfig) : Queue (s.cancelBanker cfg) := by
  rw [Table.cancelBanker]
  split
  · next hnone => exact hs.newBanker hnone cfg
  · exact (hs.dropBanker _).newBanker rfl cfg

/-- **Who leaves** takes his application and the bank with him; his chair
may be empty before. -/
theorem Queue.leave (hs : Queue s) (harray : t.applyUserArray = s.applyUserArray)
    (hbanker : t.currentBanker = s.currentBanker)
    (hseats : ∀ w, w ≠ c → (s.tableUserItem w).isSome → (t.tableUserItem w).isSome)
    (cfg : RoomConfig) :
    Queue ((if t.currentBanker = some c then t.cancelBanker cfg else t).removeApply c) := by
  have hnot : c ∉ s.applyUserArray.erase c := hs.nodup.not_mem_erase
  have hseated (w : Fin n) (hw : w ∈ s.applyUserArray.erase c) : (t.tableUserItem w).isSome := by
    refine hseats w ?_ (hs.seated w (List.mem_of_mem_erase hw))
    rintro rfl
    exact hnot hw
  split_ifs with hc
  · have hdropped : Queue (t.dropBanker c) := by
      refine ⟨?_, fun w hw => hseated w ?_, nofun⟩
      · show (t.applyUserArray.erase c).Nodup
        rw [harray]
        exact hs.nodup.erase c
      · have hw : w ∈ t.applyUserArray.erase c := hw
        rwa [harray] at hw
    have hcancel : t.cancelBanker cfg = (t.dropBanker c).newBanker cfg := by
      rw [Table.cancelBanker, hc]
    have hgone : c ∉ (t.cancelBanker cfg).applyUserArray := by
      rw [hcancel]
      refine applyUserArray_newBanker ?_
      show c ∉ t.applyUserArray.erase c
      rwa [harray]
    have hqueue : Queue (t.cancelBanker cfg) := hcancel ▸ hdropped.newBanker rfl cfg
    exact hqueue.removeApply fun hb => hgone (hqueue.banker c hb)
  · refine ⟨?_, fun w hw => hseated w ?_, fun b hb => ?_⟩
    · show (t.applyUserArray.erase c).Nodup
      rw [harray]
      exact hs.nodup.erase c
    · have hw : w ∈ t.applyUserArray.erase c := hw
      rwa [harray] at hw
    · show b ∈ t.applyUserArray.erase c
      rw [harray]
      refine (List.mem_erase_of_ne ?_).2 (hs.banker b (hbanker ▸ hb))
      rintro rfl
      exact hc hb

theorem Queue.onActionUserOffLine (hs : Queue s) (cfg : RoomConfig) (c : Fin n) :
    Queue (s.onActionUserOffLine cfg c) :=
  hs.leave rfl rfl (fun _ _ => id) cfg

theorem Queue.onActionUserStandUp (hs : Queue s) (cfg : RoomConfig) (c : Fin n) :
    Queue (s.onActionUserStandUp cfg c) := by
  refine hs.leave (t := { s with tableUserItem := update s.tableUserItem c none }) rfl rfl
    (fun w hw hsome => ?_) cfg
  exact (congrArg Option.isSome (update_of_ne hw none s.tableUserItem)).trans hsome

/-! ## Changing the banker -/

theorem extraTime_eq_some {b : Fin n} {lBankerScore : ℤ}
    (h : s.extraTime cfg b lBankerScore = some t) :
    t.applyUserArray = s.applyUserArray ∧ t.currentBanker = s.currentBanker ∧
      t.tableUserItem = s.tableUserItem := by
  rw [Table.extraTime] at h
  split_ifs at h
  all_goals
    cases h
    exact ⟨rfl, rfl, rfl⟩

section

variable (hs : Queue s)
include hs

theorem Queue.changeBanker (cfg : RoomConfig) : Queue (s.changeBanker cfg) := by
  rw [Table.changeBanker]
  split
  · next hnone =>
    split_ifs
    · exact hs
    · exact hs.newBanker hnone cfg
  · next b _ =>
    have hdropped : Queue ((s.dropBanker b).newBanker cfg) := (hs.dropBanker b).newBanker rfl cfg
    split
    · exact hs.dropBanker b
    · split_ifs
      · split
        · next hextra =>
          obtain ⟨harray, hbanker, hseats⟩ := extraTime_eq_some hextra
          exact hs.congr harray hbanker fun w hw => hseats ▸ hw
        · exact hdropped
      · exact hdropped
      · exact hs

/-- **An application** of somebody who has a seat. -/
theorem Queue.onUserApplyBanker {u : TableUser} (hu : s.tableUserItem c = some u)
    (cfg : RoomConfig) : Queue (s.onUserApplyBanker cfg c u) := by
  rw [Table.onUserApplyBanker]
  split_ifs with hscore hin hrobots
  · exact hs
  · exact hs
  · exact hs
  · have happlied : Queue { s with applyUserArray := s.applyUserArray ++ [c] } := by
      refine ⟨?_, fun w hw => ?_, fun b hb => List.mem_append_left _ (hs.banker b hb)⟩
      · exact List.nodup_append'.2 ⟨hs.nodup, List.nodup_singleton c,
          List.disjoint_singleton.2 hin⟩
      · obtain hw | hw := List.mem_append.1 hw
        · exact hs.seated w hw
        · rw [List.mem_singleton.1 hw, hu]
          rfl
    dsimp only
    split_ifs
    · exact happlied.changeBanker cfg
    · exact happlied

theorem Queue.onUserCancelBanker (cfg : RoomConfig) (c : Fin n) (u : TableUser) :
    Queue (s.onUserCancelBanker cfg c u) := by
  rw [Table.onUserCancelBanker]
  split_ifs
  · exact hs
  · split
    · exact hs
    · next w _ =>
      split_ifs with hbanker
      · exact (hs.dropBanker w).cancelBanker cfg
      · exact hs.removeApply hbanker

/-! ## Users who come and go -/

theorem Queue.setUserStatus (c : Fin n) (u : TableUser) (userStatus : GameService.UserStatus) :
    Queue (s.setUserStatus c u userStatus) := by
  refine hs.congr rfl rfl fun w hw => ?_
  show (update s.tableUserItem c (some { u with userStatus }) w).isSome
  obtain rfl | hne := eq_or_ne w c
  · rw [update_self]
    rfl
  · rwa [update_of_ne hne]

theorem Queue.writeTableScore (info : Fin n → Option ScoreInfo) :
    Queue (s.writeTableScore info).1 := by
  refine hs.congr rfl rfl fun w hw => ?_
  show ((s.tableUserItem w).map _).isSome
  rwa [Option.isSome_map]

theorem Queue.concludeLeave (cfg : RoomConfig) (c : Fin n) (hands : Hands) :
    Queue (s.concludeLeave cfg c hands).1 := by
  rw [Table.concludeLeave]
  split_ifs
  · refine Queue.cancelBanker ?_ cfg
    have hcompared : Queue (if s.gameStatus = .gameEnd then s
        else ({ s with gameStatus := .gameEnd } : Table n).calculateScore cfg hands) := by
      split_ifs
      · exact hs
      · exact hs.congr rfl rfl fun _ => id
    exact (hcompared.writeTableScore _).congr rfl rfl fun _ => id
  · exact hs.congr rfl rfl fun _ => id
  · rw [Table.settleLeave]
    split_ifs
    · exact (hs.writeTableScore _).congr rfl rfl fun _ => id
    · exact hs.congr rfl rfl fun _ => id

theorem Queue.performStandUpAction (cfg : RoomConfig) (c : Fin n) (hands : Hands) :
    Queue (s.performStandUpAction cfg c hands).1 := by
  rw [Table.performStandUpAction]
  split
  · exact hs
  · split_ifs
    · exact (hs.concludeLeave cfg c hands).onActionUserStandUp cfg c
    · exact hs.onActionUserStandUp cfg c

theorem Queue.onEventUserOffLine (cfg : RoomConfig) (c : Fin n) (hands : Hands) :
    Queue (s.onEventUserOffLine cfg c hands).1 := by
  rw [Table.onEventUserOffLine]
  split
  · exact hs
  · split_ifs
    · exact hs
    · exact (hs.setUserStatus c _ _).onActionUserOffLine cfg c
    · exact hs.performStandUpAction cfg c hands

theorem Queue.onUserReconnect (c : Fin n) : Queue (s.onUserReconnect c) := by
  rw [Table.onUserReconnect]
  split
  · exact hs
  · split_ifs
    · exact hs.setUserStatus c _ _
    · exact hs

theorem Queue.performSitDownAction (c : Fin n) (u : TableUser) :
    Queue (s.performSitDownAction c u) := by
  rw [Table.performSitDownAction]
  dsimp only
  split_ifs
  · exact hs
  all_goals exact (hs.setUserStatus c u _).congr rfl rfl fun _ => id

/-! ## Rounds -/

theorem Queue.onUserPlaceJetton (cfg : RoomConfig) (c : Fin n) (jettonArea : UInt8)
    (lJettonScore : ℤ) (beyond : Bool) :
    Queue (s.onUserPlaceJetton cfg c jettonArea lJettonScore beyond).1 := by
  obtain heq | ⟨a, u, chips, robots, -, -, -, -, -, heq⟩ :=
    onUserPlaceJetton_cases cfg s c jettonArea lJettonScore beyond
  · rw [heq]
    exact hs
  · rw [heq]
    exact hs.congr rfl rfl fun _ => id

theorem Queue.onTimerFree : Queue s.onTimerFree := by
  refine hs.congr rfl rfl fun w hw => ?_
  show ((s.tableUserItem w).map _).isSome
  rwa [Option.isSome_map]

end

theorem Queue.foldl {f : Table n → Fin n → Table n} (hf : ∀ s c, Queue s → Queue (f s c)) :
    ∀ (cs : List (Fin n)) {s : Table n}, Queue s → Queue (cs.foldl f s) := by
  intro cs
  induction cs with
  | nil => exact fun hs => hs
  | cons c cs ih => exact fun hs => ih (hf _ c hs)

section

variable (hs : Queue s) (cfg : RoomConfig)
include hs

theorem Queue.concludeUser (c : Fin n) : Queue (s.concludeUser cfg c) := by
  rw [Table.concludeUser]
  split
  · exact hs
  · split_ifs
    · exact hs.onActionUserStandUp cfg c
    · exact hs.setUserStatus c _ _

theorem Queue.expelUser (c : Fin n) : Queue (s.expelUser cfg c) := by
  rw [Table.expelUser]
  split
  · exact hs
  · split_ifs
    · exact hs.onActionUserStandUp cfg c
    · exact hs

theorem Queue.expelOrLeave (leaves : Fin n → Bool) (c : Fin n) :
    Queue (s.expelOrLeave cfg leaves c) := by
  rw [Table.expelOrLeave]
  split
  · exact hs
  · split_ifs
    · exact hs.onActionUserStandUp cfg c
    · exact hs.onActionUserStandUp cfg c
    · exact hs

theorem Queue.concludeUsers :
    Queue ((List.finRange n).foldl (Table.concludeUser cfg)
      { s with gameStatus := .free }).repositionSink :=
  (Queue.foldl (fun _ c h => h.concludeUser cfg c) (List.finRange n)
    (hs.congr rfl rfl fun _ => id : Queue { s with gameStatus := .free })).congr rfl rfl fun _ => id

theorem Queue.onTimerMessage (hands : Hands) : Queue (s.onTimerMessage cfg hands).1 := by
  rw [Table.onTimerMessage]
  split_ifs
  · split
    · exact hs.onTimerFree
    · exact hs.congr rfl rfl fun _ => id
    · exact Queue.changeBanker (Queue.foldl (fun _ c h => h.expelUser cfg c) (List.finRange n)
        ((hs.writeTableScore _).concludeUsers cfg)) cfg
  · exact hs

/-- **Every event keeps the queue.** -/
theorem Queue.step (e : Event n) : Queue (Table.step cfg s e).1 := by
  cases e with
  | placeJetton c jettonArea lJettonScore beyond =>
    rw [Table.step]
    split
    · exact hs
    · split_ifs
      · exact hs.onUserPlaceJetton cfg c jettonArea lJettonScore beyond
      · exact hs
  | applyBanker c =>
    rw [Table.step]
    split
    · exact hs
    · next hu => exact hs.onUserApplyBanker hu cfg
  | cancelBanker c =>
    rw [Table.step]
    split
    · exact hs
    · exact hs.onUserCancelBanker cfg c _
  | standUp c hands => exact hs.performStandUpAction cfg c hands
  | offLine c hands => exact hs.onEventUserOffLine cfg c hands
  | reconnect c => exact hs.onUserReconnect c
  | sitDown c u => exact hs.performSitDownAction c u
  | timer hands => exact hs.onTimerMessage cfg hands

end

theorem Queue.queueStep (hs : Queue s) (e : QueueEvent n) : Queue (Table.queueStep s e).1 := by
  cases e with
  | table cfg e => exact hs.step cfg e
  | gameEnd cfg refreshed leaves =>
    rw [Table.queueStep]
    split_ifs
    · exact Queue.changeBanker (Queue.foldl (fun _ c h => h.expelOrLeave cfg leaves c)
        (List.finRange n) ((hs.writeTableScore _).concludeUsers cfg)) refreshed
    · exact hs

theorem queue_init : Queue ({} : Table n) :=
  ⟨List.nodup_nil, nofun, nofun⟩

/-- **The queue for the bank** in every run of the table, and the choice of
a banker at every table. -/
theorem banker_queue (events : List (QueueEvent n)) (cfg : RoomConfig) (s : Table n) :
    Queue (TotalMachine.run Table.queueStep ({} : Table n) events).1 ∧
    (∃ removed, s.applyUserArray = removed ++ (s.takeTurns cfg).applyUserArray ∧
      ∀ c ∈ removed, ¬ Meets cfg s c) ∧
    (s.takeTurns cfg).currentBanker =
      if s.gameStatus = .free then
        (s.applyUserArray.find? fun c => Meets cfg s c).or s.currentBanker
      else s.currentBanker := by
  refine ⟨?_, takeTurns_spec cfg s⟩
  exact TotalMachine.inv_run_traced (P := fun s _ => Queue s) (fun s _ e hs => hs.queueStep e)
    events {} [] queue_init

end GameServer.OxBattle
