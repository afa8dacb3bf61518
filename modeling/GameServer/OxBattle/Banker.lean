import GameServer.OxBattle.Model.TableFrameSink
/-!
# Ox battle — the banker during a round

`TakeTurns` chooses a banker only between two rounds. So while a round is
on, `ChangeBanker(true)` takes the banker off and puts nobody in his place
(`cancelBanker_eq`), and a player who leaves the table or goes off line
takes nothing with him but his chair, his application and the bank
(`onActionUserStandUp_eq`, `onActionUserOffLine_eq`).
-/

namespace GameServer.OxBattle

open Function Table

variable {n : ℕ} {cfg : RoomConfig} {s : Table n} {c : Fin n} {u : TableUser}

/-- What the change of a banker during a round may leave behind: the
applications and the counts of the banker's rounds. -/
structure Turns (n : ℕ) where
  applyUserArray : List (Fin n)
  exchangeBanker : Bool
  addTime : ℕ
  bankerTime : ℕ
  bankerWinScore : ℤ

/-- The table with another banker and other turns. -/
def withBanker (s : Table n) (banker : Option (Fin n)) (turns : Turns n) : Table n :=
  { s with
    currentBanker := banker
    applyUserArray := turns.applyUserArray
    exchangeBanker := turns.exchangeBanker
    addTime := turns.addTime
    bankerTime := turns.bankerTime
    bankerWinScore := turns.bankerWinScore }

section Fields

variable {banker : Option (Fin n)} {turns : Turns n}

end Fields

theorem takeTurns_eq (h : s.gameStatus ≠ .free) : s.takeTurns cfg = s := if_neg h

/-- **During a round `ChangeBanker(true)` leaves the table without a
banker.** -/
theorem cancelBanker_eq (cfg : RoomConfig) (h : s.gameStatus ≠ .free) :
    ∃ turns, s.cancelBanker cfg = withBanker s none turns := by
  unfold Table.cancelBanker Table.newBanker
  split
  · rename_i hbanker
    refine ⟨⟨s.applyUserArray, true, 0, 0, 0⟩, ?_⟩
    rw [takeTurns_eq h, withBanker, ← hbanker]
  · rename_i b _
    have hdrop : (s.dropBanker b).gameStatus ≠ .free := h
    refine ⟨⟨s.applyUserArray.erase b, true, 0, 0, 0⟩, ?_⟩
    rw [takeTurns_eq hdrop]
    rfl

/-- The banker after a player is gone. -/
def bankerWithout (s : Table n) (c : Fin n) : Option (Fin n) :=
  if s.currentBanker = some c then none else s.currentBanker

theorem bankerWithout_eq_some {b : Fin n} :
    bankerWithout s c = some b ↔ s.currentBanker = some b ∧ b ≠ c := by
  unfold bankerWithout
  constructor
  · intro h
    split_ifs at h with hc
    exact ⟨h, fun hbc => hc (hbc ▸ h)⟩
  · rintro ⟨hb, hne⟩
    rw [if_neg]
    · exact hb
    · intro hc
      exact hne (Option.some.inj (hb.symm.trans hc))

theorem bankerWithout_of_ne (h : s.currentBanker ≠ some c) : bankerWithout s c = s.currentBanker :=
  if_neg h

/-- **A player who goes off line during a round** loses his application,
and the bank. -/
theorem onActionUserOffLine_eq (cfg : RoomConfig) (c : Fin n) (h : s.gameStatus ≠ .free) :
    ∃ turns, s.onActionUserOffLine cfg c = withBanker s (bankerWithout s c) turns := by
  unfold Table.onActionUserOffLine bankerWithout
  split_ifs
  · obtain ⟨turns, hcancel⟩ := cancelBanker_eq cfg h
    refine ⟨{ turns with applyUserArray := turns.applyUserArray.erase c }, ?_⟩
    rw [hcancel]
    rfl
  · exact ⟨⟨s.applyUserArray.erase c, s.exchangeBanker, s.addTime, s.bankerTime, s.bankerWinScore⟩,
      rfl⟩

/-- **A player who stands up during a round** loses his chair as well. -/
theorem onActionUserStandUp_eq (cfg : RoomConfig) (c : Fin n) (h : s.gameStatus ≠ .free) :
    ∃ turns, s.onActionUserStandUp cfg c =
      withBanker { s with tableUserItem := update s.tableUserItem c none } (bankerWithout s c) turns :=
  onActionUserOffLine_eq (s := { s with tableUserItem := update s.tableUserItem c none }) cfg c h

/-! ## Leaving -/

/-- The hands are compared, unless they were before. -/
def compared (cfg : RoomConfig) (s : Table n) (hands : Hands) : Table n :=
  if s.gameStatus = .gameEnd then s
  else ({ s with gameStatus := .gameEnd } : Table n).calculateScore cfg hands

theorem gameStatus_compared (cfg : RoomConfig) (s : Table n) (hands : Hands) :
    (compared cfg s hands).gameStatus = .gameEnd := by
  unfold compared
  split_ifs with hend
  · exact hend
  · rfl

/-- What is written for the chair `c` alone. -/
def writeOne (s : Table n) (c : Fin n) : Table n × List (Output n) :=
  s.writeTableScore fun i => if i = c then some (s.scoreInfo c) else none

section

variable (cfg : RoomConfig)

/-- **A banker who leaves** is settled, and the bank is empty. -/
theorem bankerLeave_eq (s : Table n) (c : Fin n) (hands : Hands) :
    ∃ turns, s.bankerLeave cfg c hands =
      (withBanker { (writeOne (compared cfg s hands) c).1 with
          userWinScore := update (compared cfg s hands).userWinScore c 0 } none turns,
        (writeOne (compared cfg s hands) c).2) := by
  have hstage : ({ (writeOne (compared cfg s hands) c).1 with
      userWinScore := update (compared cfg s hands).userWinScore c 0 } : Table n).gameStatus ≠
        .free := by
    change (compared cfg s hands).gameStatus ≠ .free
    rw [gameStatus_compared]
    nofun
  obtain ⟨turns, hcancel⟩ := cancelBanker_eq cfg hstage
  refine ⟨turns, ?_⟩
  rw [← hcancel]
  rfl

theorem gameStatus_bankerLeave (s : Table n) (c : Fin n) (hands : Hands) :
    (s.bankerLeave cfg c hands).1.gameStatus = .gameEnd := by
  obtain ⟨turns, hleave⟩ := bankerLeave_eq cfg s c hands
  rw [hleave]
  exact gameStatus_compared cfg s hands

theorem gameStatus_concludeLeave (c : Fin n) (hands : Hands) (h : s.gameStatus = .gameEnd) :
    (s.concludeLeave cfg c hands).1.gameStatus = .gameEnd := by
  unfold Table.concludeLeave Table.settleLeave
  rw [h]
  split_ifs with hbanker hstage hscore
  · exact gameStatus_bankerLeave cfg s c hands
  · cases hstage
  · exact h
  · exact h

theorem performStandUpAction_eq (hands : Hands) (hu : s.tableUserItem c = some u)
    (hstage : s.gameStatus ≠ .free) (hstatus : u.userStatus = .playing ∨ u.userStatus = .offline) :
    s.performStandUpAction cfg c hands =
      ((s.concludeLeave cfg c hands).1.onActionUserStandUp cfg c,
        (s.concludeLeave cfg c hands).2) := by
  unfold Table.performStandUpAction
  rw [hu]
  simp only
  rw [if_pos ⟨hstage, hstatus⟩]

theorem gameStatus_performStandUpAction (c : Fin n) (hands : Hands) (h : s.gameStatus = .gameEnd) :
    (s.performStandUpAction cfg c hands).1.gameStatus = .gameEnd := by
  unfold Table.performStandUpAction
  match hu : s.tableUserItem c with
  | none => exact h
  | some u =>
    have hleave : (if s.gameStatus ≠ .free ∧ (u.userStatus = .playing ∨ u.userStatus = .offline) then
        s.concludeLeave cfg c hands else (s, [])).1.gameStatus = .gameEnd := by
      split_ifs
      · exact gameStatus_concludeLeave cfg c hands h
      · exact h
    obtain ⟨turns, hstand⟩ := onActionUserStandUp_eq cfg c (by rw [hleave]; nofun)
    simp only
    rw [hstand]
    exact hleave

theorem gameStatus_onEventUserOffLine (c : Fin n) (hands : Hands) (h : s.gameStatus = .gameEnd) :
    (s.onEventUserOffLine cfg c hands).1.gameStatus = .gameEnd := by
  unfold Table.onEventUserOffLine
  match hu : s.tableUserItem c with
  | none => exact h
  | some u =>
    simp only
    split_ifs
    · exact h
    · have hstage : (s.setUserStatus c u .offline).gameStatus = .gameEnd := h
      obtain ⟨turns, hoff⟩ := onActionUserOffLine_eq cfg c (by rw [hstage]; nofun)
      rw [hoff]
      exact hstage
    · exact gameStatus_performStandUpAction cfg c hands h

/-! ## The end of a round -/

theorem gameStatus_newBanker (s : Table n) : (s.newBanker cfg).gameStatus = s.gameStatus := by
  simp only [Table.newBanker, Table.takeTurns]
  split_ifs
  · rfl
  · rfl

theorem gameStatus_cancelBanker (s : Table n) : (s.cancelBanker cfg).gameStatus = s.gameStatus := by
  unfold Table.cancelBanker
  split
  · exact gameStatus_newBanker cfg s
  · exact gameStatus_newBanker cfg _

end

theorem gameStatus_extraTime {b : Fin n} {lBankerScore : ℤ} {t : Table n}
    (h : s.extraTime cfg b lBankerScore = some t) : t.gameStatus = s.gameStatus := by
  unfold Table.extraTime at h
  simp only at h
  split_ifs at h
  all_goals
    cases h
    rfl

theorem gameStatus_changeBanker (cfg : RoomConfig) (s : Table n) :
    (s.changeBanker cfg).gameStatus = s.gameStatus := by
  unfold Table.changeBanker
  split
  · split_ifs
    · rfl
    · exact gameStatus_newBanker cfg s
  · split
    · rfl
    · split_ifs
      · split
        · rename_i hextra
          exact gameStatus_extraTime hextra
        · exact gameStatus_newBanker cfg _
      · exact gameStatus_newBanker cfg _
      · rfl

theorem gameStatus_onActionUserStandUp (cfg : RoomConfig) (s : Table n) (c : Fin n) :
    (s.onActionUserStandUp cfg c).gameStatus = s.gameStatus := by
  unfold Table.onActionUserStandUp
  simp only
  split_ifs
  · exact gameStatus_cancelBanker cfg _
  · rfl

/-- What keeps the state of the game for one chair keeps it for all. -/
theorem gameStatus_foldl {f : Table n → Fin n → Table n}
    (hf : ∀ s c, (f s c).gameStatus = s.gameStatus) (cs : List (Fin n)) (s : Table n) :
    (cs.foldl f s).gameStatus = s.gameStatus := by
  induction cs generalizing s with
  | nil => rfl
  | cons c cs ih => rw [List.foldl_cons, ih, hf]

theorem gameStatus_concludeUser (cfg : RoomConfig) (s : Table n) (c : Fin n) :
    (s.concludeUser cfg c).gameStatus = s.gameStatus := by
  unfold Table.concludeUser
  split
  · rfl
  · split_ifs
    · exact gameStatus_onActionUserStandUp cfg s c
    · rfl

theorem gameStatus_expelUser (cfg : RoomConfig) (s : Table n) (c : Fin n) :
    (s.expelUser cfg c).gameStatus = s.gameStatus := by
  unfold Table.expelUser
  split
  · rfl
  · split_ifs
    · exact gameStatus_onActionUserStandUp cfg s c
    · rfl

/-- **The last timer frees the table.** -/
theorem gameStatus_onTimerGameEnd (cfg : RoomConfig) (s : Table n) :
    (s.onTimerGameEnd cfg).1.gameStatus = .free := by
  unfold Table.onTimerGameEnd Table.concludeGame
  rw [gameStatus_changeBanker, gameStatus_foldl (gameStatus_expelUser cfg)]
  exact gameStatus_foldl (gameStatus_concludeUser cfg) _ _

end GameServer.OxBattle
