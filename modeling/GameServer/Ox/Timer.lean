import GameServer.Ox.Banker
/-!
# Ox — the default actions

At the end of the time the table stakes for those who have not staked, and
opens the cards of those who have not opened theirs. Both are loops over
the chairs, and each says where it leaves the stage
(`Staking.run_autoScore`, `Opening.run_autoOpen`).
-/

namespace GameServer.Ox.TableSink

variable {s s' : TableSink} {chair banker i : Chair} {bankerScore : ℤ} {n : ℕ}

/-- The default stake of a chair at the end of the time. -/
def autoScore (rand : ℕ → ℕ) : Machine TableSink Chair Output := fun s i =>
  if 0 < s.tableScore i ∨ s.playStatus i ≠ .playing ∨ some i = s.bankerUser then some (s, [])
  else some (s.onUserAddScore i ((s.turnMaxScore i).tdiv 8) rand)

/-- The cards of a chair at the end of the time. -/
def autoOpen : Machine TableSink Chair Output := fun s i =>
  if s.oxCard i ≠ none ∨ s.playStatus i ≠ .playing then some (s, []) else s.onUserOpenCard i 0

theorem onTimerMessage_score (hstatus : s.gameStatus = .score) (rand : ℕ → ℕ) :
    s.onTimerMessage rand = Machine.run (autoScore rand) s (List.finRange gamePlayer) := by
  rw [onTimerMessage, hstatus]
  rfl

theorem onTimerMessage_playing (hstatus : s.gameStatus = .playing) (rand : ℕ → ℕ) :
    s.onTimerMessage rand = Machine.run autoOpen s (List.finRange gamePlayer) := by
  rw [onTimerMessage, hstatus]
  rfl

theorem not_due_iff (hs : s.Seated) :
    (0 < s.tableScore i ∨ s.playStatus i ≠ .playing ∨ some i = s.bankerUser) ↔ ¬ s.Due i := by
  constructor
  · rintro (hbet | hidle | hbanker) hdue
    · exact hbet.ne' hdue.2.2
    · exact hidle hdue.1
    · exact hdue.2.1 hbanker
  · intro hdue
    by_contra hno
    push Not at hno
    exact hdue ⟨hno.2.1, hno.2.2, le_antisymm hno.1 (hs.stakes i)⟩

/-- Once the cards are dealt the rest of the loop does nothing. -/
theorem autoScore_playing (hstatus : s.gameStatus = .playing) (rand : ℕ → ℕ) (i : Chair) :
    autoScore rand s i = some (s, []) := by
  rw [autoScore]
  split
  · rfl
  · rw [onUserAddScore, if_pos]
    rw [hstatus]
    decide

theorem due_bet {score : ℤ} (hpos : 0 < score) (j : Chair) :
    TableSink.Due { s with tableScore := Function.update s.tableScore i score } j ↔
      j ≠ i ∧ s.Due j := by
  constructor
  · rintro ⟨hplays, hne, hzero⟩
    have hzero : Function.update s.tableScore i score j = 0 := hzero
    obtain rfl | hji := eq_or_ne j i
    · rw [Function.update_self] at hzero
      exact absurd hzero hpos.ne'
    · rw [Function.update_of_ne hji] at hzero
      exact ⟨hji, hplays, hne, hzero⟩
  · rintro ⟨hji, hplays, hne, hzero⟩
    exact ⟨hplays, hne, (Function.update_of_ne hji _ _).trans hzero⟩

/-- **The default stakes** end the stage exactly when every limit of those
who have not bet allows one. -/
theorem Staking.run_autoScore (rand : ℕ → ℕ) : ∀ (l : List Chair) {s : TableSink}, s.Staking →
    ∃ s' out, Machine.run (autoScore rand) s l = some (s', out) ∧ (∀ o ∈ out, o.Solvent) ∧
      ((s'.Opening ∧ ∀ i, s.Due i → i ∈ l ∧ 8 ≤ s.turnMaxScore i) ∨
        (s'.Staking ∧ ∃ i, s.Due i ∧ (i ∉ l ∨ s.turnMaxScore i < 8))) := by
  intro l
  induction l with
  | nil =>
    intro s hs
    obtain ⟨i, hi⟩ := hs.waiting
    exact ⟨s, [], rfl, nofun, .inr ⟨hs, i, hi, .inl List.not_mem_nil⟩⟩
  | cons i l ih =>
    intro s hs
    by_cases hdue : s.Due i
    · have hguard := (not_congr (not_due_iff hs.betting.seated)).2 (not_not.2 hdue)
      have hauto : autoScore rand s i =
          some (s.onUserAddScore i ((s.turnMaxScore i).tdiv 8) rand) := if_neg hguard
      obtain hlow | hhigh := lt_or_ge (s.turnMaxScore i) 8
      · -- the default stake is refused, and `i` is not done
        have hrefused := addScore_refused hdue.1 (.inl (tdiv_nonpos (k := 8) hlow)) rand
        obtain ⟨s', out, hrun, hsolvent, hend⟩ := ih hs
        refine ⟨s', out, ?_, hsolvent, .inr ?_⟩
        · rw [Machine.run_cons (hauto.trans (congrArg some hrefused)), hrun]
          rfl
        · obtain ⟨-, hall⟩ | ⟨hstaking, -⟩ := hend
          · exact absurd (hall i hdue).2 (not_le.2 hlow)
          · exact ⟨hstaking, i, hdue, .inr hlow⟩
      · have hpos : 0 < (s.turnMaxScore i).tdiv 8 := by
          rw [Int.tdiv_eq_ediv_of_nonneg (by omega)]
          omega
        have hlimit : (s.turnMaxScore i).tdiv 8 ≤ s.turnMaxScore i :=
          Int.tdiv_le_self 8 (by omega)
        obtain ⟨hadd, hstaking⟩ | ⟨hadd, hopening, hlast⟩ :=
          hs.betting.addScore hdue.1 hpos hlimit rand
        · obtain ⟨s', out, hrun, hsolvent, hend⟩ := ih hstaking
          have hnext (j : Chair) := due_bet (s := s) (i := i) hpos j
          refine ⟨s', .addScore i ((s.turnMaxScore i).tdiv 8) :: out, ?_, ?_, ?_⟩
          · rw [Machine.run_cons (hauto.trans (congrArg some hadd)), hrun]
            rfl
          · exact List.forall_mem_cons.2 ⟨trivial, hsolvent⟩
          · refine hend.imp (And.imp_right fun hall j hj => ?_) (And.imp_right ?_)
            · obtain rfl | hji := eq_or_ne j i
              · exact ⟨List.mem_cons_self, hhigh⟩
              · have hj' := hall j ((hnext j).2 ⟨hji, hj⟩)
                exact ⟨List.mem_cons_of_mem _ hj'.1, hj'.2⟩
            · rintro ⟨j, hj, hlate⟩
              have hj' := (hnext j).1 hj
              exact ⟨j, hj'.2, hlate.imp_left fun hmem hcons =>
                (List.mem_cons.1 hcons).elim hj'.1 hmem⟩
        · refine ⟨_, [.addScore i ((s.turnMaxScore i).tdiv 8), .sendCard], ?_, ?_,
            .inl ⟨hopening, fun j hj => ?_⟩⟩
          · rw [Machine.run_cons (hauto.trans (congrArg some hadd)),
              Machine.run_of_idle fun j _ => autoScore_playing hopening.showing.status rand j]
            rfl
          · exact List.forall_mem_cons.2 ⟨trivial, List.forall_mem_cons.2 ⟨trivial, nofun⟩⟩
          · rw [hlast j hj]
            exact ⟨List.mem_cons_self, hhigh⟩
    · have hguard := (not_due_iff hs.betting.seated).2 hdue
      obtain ⟨s', out, hrun, hsolvent, hend⟩ := ih hs
      refine ⟨s', out, ?_, hsolvent, ?_⟩
      · rw [Machine.run_cons (show autoScore rand s i = some (s, []) from if_pos hguard), hrun]
        rfl
      · refine hend.imp (And.imp_right fun hall j hj => ?_) (And.imp_right ?_)
        · exact ⟨List.mem_cons_of_mem _ (hall j hj).1, (hall j hj).2⟩
        · rintro ⟨j, hj, hlate⟩
          refine ⟨j, hj, hlate.imp_left fun hmem hcons => ?_⟩
          obtain rfl | hin := List.mem_cons.1 hcons
          · exact hdue hj
          · exact hmem hin

theorem autoOpen_concludeGame (s : TableSink) (i : Chair) :
    autoOpen s.concludeGame i = some (s.concludeGame, []) := if_pos (.inr nofun)

theorem closed_opened (shown : Bool) (j : Chair) :
    TableSink.Closed { s with oxCard := Function.update s.oxCard i (some shown) } j ↔
      j ≠ i ∧ s.Closed j := by
  constructor
  · rintro ⟨hplays, hnone⟩
    have hnone : Function.update s.oxCard i (some shown) j = none := hnone
    obtain rfl | hji := eq_or_ne j i
    · rw [Function.update_self] at hnone
      cases hnone
    · rw [Function.update_of_ne hji] at hnone
      exact ⟨hji, hplays, hnone⟩
  · rintro ⟨hji, hplays, hnone⟩
    exact ⟨hplays, (Function.update_of_ne hji _ _).trans hnone⟩

/-- **The default cards** end the stage when the loop reaches all who have
not opened theirs. -/
theorem Opening.run_autoOpen : ∀ (l : List Chair) {s : TableSink}, s.Opening →
    ∃ s' out, Machine.run autoOpen s l = some (s', out) ∧ (∀ o ∈ out, o.Solvent) ∧
      ((s'.Free ∧ (∀ i, ¬ s'.Playing i) ∧ (∃ banker bankerScore score,
          Output.gameEnd banker bankerScore score ∈ out) ∧ ∀ i, s.Closed i → i ∈ l) ∨
        (s'.Opening ∧ ∃ i, s.Closed i ∧ i ∉ l)) := by
  intro l
  induction l with
  | nil =>
    intro s hs
    obtain ⟨i, hi⟩ := hs.waiting
    exact ⟨s, [], rfl, nofun, .inr ⟨hs, i, hi, List.not_mem_nil⟩⟩
  | cons i l ih =>
    intro s hs
    by_cases hclosed : s.Closed i
    · have hauto : autoOpen s i = s.onUserOpenCard i 0 :=
        if_neg fun h => h.elim (fun hopen => hopen hclosed.2) fun hidle => hidle hclosed.1
      obtain ⟨shown, hopen⟩ := hs.showing.openCard hclosed.2 (show ¬ (0 : UInt8) > 1 by decide)
        fun h => absurd h.1 (by decide)
      obtain ⟨hopen, hopening⟩ | ⟨banker, bankerScore, score, hopen, hle, hlast⟩ := hopen
      · obtain ⟨s', out, hrun, hsolvent, hend⟩ := ih hopening
        have hnext := closed_opened (s := s) (i := i) shown
        refine ⟨s', .openCard i shown :: out, ?_, ?_, ?_⟩
        · rw [Machine.run_cons (hauto.trans hopen), hrun]
          rfl
        · exact List.forall_mem_cons.2 ⟨trivial, hsolvent⟩
        · refine hend.imp ?_ (And.imp_right ?_)
          · rintro ⟨hfree, hnobody, ⟨b, x, sc, hend⟩, hall⟩
            refine ⟨hfree, hnobody, ⟨b, x, sc, List.mem_cons_of_mem _ hend⟩, fun j hj => ?_⟩
            obtain rfl | hji := eq_or_ne j i
            · exact List.mem_cons_self
            · exact List.mem_cons_of_mem _ (hall j ((hnext j).2 ⟨hji, hj⟩))
          · rintro ⟨j, hj, hmem⟩
            have hj' := (hnext j).1 hj
            exact ⟨j, hj'.2, fun hcons => (List.mem_cons.1 hcons).elim hj'.1 hmem⟩
      · refine ⟨s.concludeGame, [.openCard i shown, .gameEnd banker bankerScore score], ?_, ?_,
          .inl ⟨free_concludeGame _, nofun, ⟨banker, bankerScore, score, ?_⟩, fun j hj => ?_⟩⟩
        · rw [Machine.run_cons (hauto.trans hopen),
            Machine.run_of_idle fun j _ => autoOpen_concludeGame _ j]
          rfl
        · exact List.forall_mem_cons.2 ⟨trivial, List.forall_mem_cons.2 ⟨hle, nofun⟩⟩
        · exact List.mem_cons_of_mem _ List.mem_cons_self
        · rw [hlast j hj]
          exact List.mem_cons_self
    · have hguard : s.oxCard i ≠ none ∨ s.playStatus i ≠ .playing := by
        by_contra hno
        push Not at hno
        exact hclosed ⟨hno.2, hno.1⟩
      obtain ⟨s', out, hrun, hsolvent, hend⟩ := ih hs
      refine ⟨s', out, ?_, hsolvent, ?_⟩
      · rw [Machine.run_cons (show autoOpen s i = some (s, []) from if_pos hguard), hrun]
        rfl
      · refine hend.imp ?_ (And.imp_right ?_)
        · rintro ⟨hfree, hnobody, hend, hall⟩
          exact ⟨hfree, hnobody, hend, fun j hj => List.mem_cons_of_mem _ (hall j hj)⟩
        · rintro ⟨j, hj, hmem⟩
          refine ⟨j, hj, fun hcons => ?_⟩
          obtain rfl | hin := List.mem_cons.1 hcons
          · exact hclosed hj
          · exact hmem hin

end GameServer.Ox.TableSink
