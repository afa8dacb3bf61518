import GameServer.GameService.Seats
/-!
# GameService — the frozen service score

When a game starts the table freezes the service score of every user and
notes it at his chair; it is released, or charged, when the score is
written, the game ends or the user leaves. A ledger follows what the
users' items really do: an amount is held once, released as a whole, and
charged only when it was just released. What is noted at the chairs is
what the ledger holds (`run_keeps_frozen`), as long as freezing goes
well. The table does not look whether it does, and charges a user what
was never frozen (`charged_unfrozen`).
-/

namespace GameServer.GameService

open Function TableState

variable {opt : TableOption} {s s' : TableState} {out : List TableOutput} {ok : Prop}
variable {c p : ℕ} {item : ServerUserItem}

/-! ## The ledger -/

/-- What is frozen in the users' items: for this table, and by the rest
of the server; and what was released last. -/
structure Ledger where
  held : ℕ → Score := fun _ => 0
  other : ℕ → Score
  released : Option (ℕ × Score) := none

/-- What may come next. An amount is frozen when none is held, all of it
is released at once, and a charge is of what was just released. -/
def Ledger.note (l : Ledger) : TableOutput → Option Ledger
  | .frozened user lScore =>
      if l.held user = 0 then
        some { l with held := update l.held user lScore, released := none }
      else none
  | .unFrozened user lScore =>
      if l.held user = lScore then
        some { l with held := update l.held user 0, released := some (user, lScore) }
      else none
  | .charged user lScore =>
      if l.released = some (user, lScore) then some { l with released := none } else none
  | .elsewhere user lScore =>
      some { l with other := update l.other user (l.other user + lScore), released := none }

/-- **The agreement.** What is noted at a chair is what its user's item
holds for the table, an empty chair has nothing noted and a user without
a chair nothing held. -/
structure FrozenOk (s : TableState) (l : Ledger) : Prop where
  empty : ∀ c, s.table.tableUserItem c = none → s.table.frozenedScore c = 0
  chair : ∀ c user, s.table.tableUserItem c = some user →
    s.table.frozenedScore c = l.held user
  away : ∀ user, (∀ c, s.table.tableUserItem c ≠ some user) → l.held user = 0
  item : ∀ user, (s.users user).frozenedScore = l.other user + l.held user

/-- The agreement with what keeps it: an amount that is noted is the
service score, and the item has it. -/
structure FrozenInv (opt : TableOption) (s : TableState) (l : Ledger) : Prop extends
    FrozenOk s l where
  amount : ∀ c, s.table.frozenedScore c = 0 ∨
    0 < opt.serviceScore ∧ s.table.frozenedScore c = opt.serviceScore
  covered : ∀ c user, s.table.tableUserItem c = some user →
    s.table.frozenedScore c ≤ (s.users user).frozenedScore
  nonneg : ∀ user, 0 ≤ (s.users user).frozenedScore

variable {l : Ledger}

theorem FrozenInv.chair_nonneg (h : FrozenInv opt s l) (c : ℕ) : 0 ≤ s.table.frozenedScore c := by
  rcases h.amount c with hzero | ⟨hpos, heq⟩
  · rw [hzero]
    exact Int64.le_refl 0
  · rw [heq]
    exact Int64.le_of_lt hpos

/-- The agreement reads only the chairs and what is frozen. -/
theorem FrozenInv.congr (h : FrozenInv opt s l)
    (chairs : s'.table.tableUserItem = s.table.tableUserItem)
    (noted : s'.table.frozenedScore = s.table.frozenedScore)
    (frozened : ∀ user, (s'.users user).frozenedScore = (s.users user).frozenedScore) :
    FrozenInv opt s' l := by
  refine ⟨⟨?_, ?_, ?_, ?_⟩, ?_, ?_, ?_⟩
  · rw [chairs, noted]; exact h.empty
  · rw [chairs, noted]; exact h.chair
  · rw [chairs]; exact h.away
  · intro user
    rw [frozened]
    exact h.item user
  · rw [noted]; exact h.amount
  · intro c user hc
    rw [frozened, noted]
    rw [chairs] at hc
    exact h.covered c user hc
  · intro user
    rw [frozened]
    exact h.nonneg user

theorem frozenedScore_modifyUser (h : item.frozenedScore = (s.users p).frozenedScore) (q : ℕ) :
    ((s.modifyUser p fun _ => item).users q).frozenedScore = (s.users q).frozenedScore := by
  rw [users_modifyUser]
  split_ifs with hq
  · rw [hq, h]
  · rfl

/-! ## Moves and frozen score -/

theorem frozen_outside (h : FrozenInv opt s l) (covers : CoversChair s p item) :
    ∃ l', [TableOutput.elsewhere p (item.frozenedScore - (s.users p).frozenedScore)].foldlM
        Ledger.note l = some l' ∧
      FrozenInv opt (s.modifyUser p fun _ => item) l' := by
  refine ⟨_, rfl, ⟨h.empty, h.chair, h.away, fun q => ?_⟩, h.amount, fun c q hc => ?_,
    fun q => ?_⟩
  · show ((s.modifyUser p fun _ => item).users q).frozenedScore =
      update l.other p _ q + l.held q
    have hp := h.item p
    have hq := h.item q
    rw [users_modifyUser, update_apply]
    split_ifs with hpq
    · subst hpq
      grind
    · exact hq
  · rw [users_modifyUser]
    split_ifs with hpq
    · subst hpq
      exact covers.2 c hc
    · exact h.covered c q hc
  · rw [users_modifyUser]
    split_ifs
    · exact covers.1
    · exact h.nonneg q

theorem frozen_sit (h : FrozenInv opt s l)
    (empty : s.table.tableUserItem c = none) (away : Away s p)
    (frozened : item.frozenedScore = (s.users p).frozenedScore) :
    FrozenInv opt (recount opt ((s.setChair c (some p)).modifyUser p fun _ => item)) l := by
  have hchair : ∀ {c' q}, update s.table.tableUserItem c (some p) c' = some q →
      c' = c ∧ q = p ∨ c' ≠ c ∧ s.table.tableUserItem c' = some q := by
    intro c' q hc
    rw [update_apply] at hc
    split_ifs at hc with hcc
    · exact .inl ⟨hcc, (Option.some.inj hc).symm⟩
    · exact .inr ⟨hcc, hc⟩
  have hsitting : FrozenInv opt (recount opt (s.setChair c (some p))) l := by
    refine ⟨⟨fun c' hc => ?_, fun c' q hc => ?_, fun q hq => h.away q fun c' hc => ?_, h.item⟩,
      h.amount, fun c' q hc => ?_, h.nonneg⟩
    · have hat : update s.table.tableUserItem c (some p) c' = none := hc
      rw [update_apply] at hat
      split_ifs at hat
      exact h.empty c' hat
    · obtain ⟨rfl, rfl⟩ | ⟨-, hc⟩ := hchair hc
      · exact (h.empty c' empty).trans (h.away q away.chair).symm
      · exact h.chair c' q hc
    · refine hq c' ?_
      show update s.table.tableUserItem c (some p) c' = some q
      rw [update_of_ne]
      · exact hc
      · rintro rfl
        rw [empty] at hc
        cases hc
    · obtain ⟨rfl, rfl⟩ | ⟨-, hc⟩ := hchair hc
      · show s.table.frozenedScore c' ≤ _
        rw [h.empty c' empty]
        exact h.nonneg q
      · exact h.covered c' q hc
  exact hsitting.congr rfl rfl (frozenedScore_modifyUser frozened)

theorem frozen_leave (h : FrozenInv opt s l) {st : UserStatus}
    (chair : s.table.tableUserItem c = some p) (noted : s.table.frozenedScore c = 0) :
    FrozenInv opt ((s.setChair c none).push [.standUpEnd p st]) l := by
  refine ⟨⟨fun c' hc => ?_, fun c' q hc => ?_, fun q hq => ?_, h.item⟩, h.amount,
    fun c' q hc => ?_, h.nonneg⟩
  · by_cases hcc : c' = c
    · rw [hcc]
      exact noted
    · have hat : update s.table.tableUserItem c none c' = none := hc
      rw [update_of_ne hcc] at hat
      exact h.empty c' hat
  · exact h.chair c' q (chair_of_setChair_none hc).2
  · by_cases hqp : q = p
    · rw [hqp, ← h.chair c p chair]
      exact noted
    · refine h.away q fun c' hc => hq c' ?_
      show update s.table.tableUserItem c none c' = some q
      rw [update_of_ne]
      · exact hc
      · rintro rfl
        exact hqp (Option.some.inj (hc.symm.trans chair))
  · exact h.covered c' q (chair_of_setChair_none hc).2

/-- Where a chair's amount and its user's change together, the rest of
the agreement stands: he has no other chair. -/
theorem frozen_at_chair (hinv : SeatInv opt s) (h : FrozenInv opt s l)
    {lScore : Score} {released : Option (ℕ × Score)} (chair : s.table.tableUserItem c = some p)
    (amount : lScore = 0 ∨ 0 < opt.serviceScore ∧ lScore = opt.serviceScore)
    (covered : lScore ≤ item.frozenedScore) (nonneg : 0 ≤ item.frozenedScore)
    (total : item.frozenedScore = l.other p + lScore) :
    FrozenInv opt ((s.modifyUser p fun _ => item).setFrozened c lScore)
      { l with held := update l.held p lScore, released } := by
  -- another user has another chair, and by the seats the user has only this one
  have hother : ∀ {c' q}, s.table.tableUserItem c' = some q → q ≠ p → c' ≠ c := by
    rintro c' q hc' hne rfl
    exact hne (Option.some.inj (hc'.symm.trans chair))
  have husers : ∀ q, (((s.modifyUser p fun _ => item).setFrozened c lScore).users q) =
      if q = p then item else s.users q := users_modifyUser s p item
  have hnoted : ∀ c', ((s.modifyUser p fun _ => item).setFrozened c lScore).table.frozenedScore c' =
      if c' = c then lScore else s.table.frozenedScore c' := fun c' => update_apply _ _ _ _
  have hheld : ∀ q, ({ l with held := update l.held p lScore, released } : Ledger).held q =
      if q = p then lScore else l.held q := fun q => update_apply _ _ _ _
  refine ⟨⟨fun c' hc' => ?_, fun c' q hc' => ?_, fun q hq => ?_, fun q => ?_⟩, fun c' => ?_,
    fun c' q hc' => ?_, fun q => ?_⟩
  · have hne : c' ≠ c := by
      rintro rfl
      exact Option.some_ne_none p (chair.symm.trans hc')
    rw [hnoted, if_neg hne]
    exact h.empty c' hc'
  · rw [hnoted, hheld]
    split_ifs with hcc hqp hqp
    · rfl
    · exact absurd hcc (hother hc' hqp)
    · subst hqp
      exact absurd (hinv.chair_unique hc' chair) hcc
    · exact h.chair c' q hc'
  · have hne : q ≠ p := by
      rintro rfl
      exact hq c chair
    rw [hheld, if_neg hne]
    exact h.away q hq
  · rw [husers, hheld]
    split_ifs with hqp
    · subst hqp
      exact total
    · exact h.item q
  · rw [hnoted]
    split_ifs
    · exact amount
    · exact h.amount c'
  · rw [hnoted, husers]
    split_ifs with hcc hqp hqp
    · exact covered
    · exact absurd hcc (hother hc' hqp)
    · subst hqp
      exact absurd (hinv.chair_unique hc' chair) hcc
    · exact h.covered c' q hc'
  · rw [husers]
    split_ifs
    · exact nonneg
    · exact h.nonneg q

theorem frozen_freeze (hinv : SeatInv opt s) (h : FrozenInv opt s l)
    (chair : s.table.tableUserItem c = some p)
    (pos : opt.serviceScore > 0) (can : CanFreeze opt s c p)
    (frozened : item.frozenedScore = (s.users p).frozenedScore + opt.serviceScore) :
    ∃ l', [TableOutput.frozened p opt.serviceScore].foldlM Ledger.note l = some l' ∧
      FrozenInv opt ((s.setFrozened c opt.serviceScore).modifyUser p fun _ => item) l' := by
  obtain ⟨hzero, -, hwrap⟩ := can pos
  have hheld : l.held p = 0 := by rw [← h.chair c p chair, hzero]
  have hnote : [TableOutput.frozened p opt.serviceScore].foldlM Ledger.note l =
      some { l with held := update l.held p opt.serviceScore, released := none } := by
    simp [Ledger.note, hheld]
  rw [← frozened] at hwrap
  refine ⟨_, hnote, frozen_at_chair hinv h chair (.inr ⟨pos, rfl⟩) hwrap ?_ ?_⟩
  · exact Int64.le_trans (Int64.le_of_lt pos) hwrap
  · rw [frozened, h.item p, hheld, Int64.add_zero]

theorem FrozenInv.min_serviceScore (h : FrozenInv opt s l) (pos : opt.serviceScore > 0) (c : ℕ) :
    min (s.table.frozenedScore c) opt.serviceScore = s.table.frozenedScore c := by
  refine if_pos ?_
  rcases h.amount c with hzero | ⟨-, heq⟩
  · rw [hzero]
    exact Int64.le_of_lt pos
  · rw [heq]
    exact Int64.le_refl _

theorem frozen_unFreeze (hinv : SeatInv opt s) (h : FrozenInv opt s l) {charges : List TableOutput}
    (chair : s.table.tableUserItem c = some p)
    (frozened : item.frozenedScore = (s.users p).frozenedScore - s.table.frozenedScore c)
    (charged : charges = [] ∨ opt.serviceScore > 0 ∧
      charges = [.charged p (min (s.table.frozenedScore c) opt.serviceScore)]) :
    ∃ l', ([TableOutput.unFrozened p (s.table.frozenedScore c)] ++ charges).foldlM
        Ledger.note l = some l' ∧
      FrozenInv opt ((s.modifyUser p fun _ => item).setFrozened c 0) l' := by
  have hheld := h.chair c p chair
  -- the item covers the chair, so the subtraction does not wrap
  have hnonneg : 0 ≤ item.frozenedScore := by
    have hle := h.covered c p chair
    have hc := h.chair_nonneg c
    rw [frozened, Int64.le_iff_toInt_le, Int64.toInt_sub_of_le _ _ hc hle]
    rw [Int64.le_iff_toInt_le] at hle
    show (0 : Int) ≤ _
    omega
  have htotal : item.frozenedScore = l.other p + 0 := by
    rw [frozened, h.item p, hheld, Int64.add_sub_cancel, Int64.add_zero]
  have hafter : ∀ released, FrozenInv opt ((s.modifyUser p fun _ => item).setFrozened c 0)
      { l with held := update l.held p 0, released } := fun _ =>
    frozen_at_chair hinv h chair (.inl rfl) hnonneg hnonneg htotal
  rcases charged with rfl | ⟨pos, rfl⟩
  · refine ⟨_, ?_, hafter (some (p, s.table.frozenedScore c))⟩
    simp [Ledger.note, hheld]
  · -- the charge is of what the ledger has just released
    rw [h.min_serviceScore pos]
    refine ⟨_, ?_, hafter none⟩
    simp [Ledger.note, hheld]

/-- **Every move keeps the agreement**, where what is frozen can be. -/
theorem Moves.frozen (hmoves : Moves opt ok s s' out) (hok : ok) :
    ∀ {l : Ledger}, SeatInv opt s → FrozenInv opt s l →
      ∃ l', out.foldlM Ledger.note l = some l' ∧ FrozenInv opt s' l' := by
  induction hmoves with
  | control users chairs _ noted =>
    exact fun _ h => ⟨_, rfl, h.congr chairs noted fun q => by rw [users]⟩
  | user _ frozened => exact fun _ h => ⟨_, rfl, h.congr rfl rfl (frozenedScore_modifyUser frozened)⟩
  | outside _ covers => exact fun _ h => frozen_outside h (covers hok)
  | sit _ empty away _ frozened => exact fun _ h => ⟨_, rfl, frozen_sit h empty away frozened⟩
  | leave chair noted => exact fun _ h => ⟨_, rfl, frozen_leave h chair noted⟩
  | endLeave _ frozened =>
    exact fun _ h => ⟨_, rfl, h.congr rfl rfl (frozenedScore_modifyUser frozened)⟩
  | addLookon _ _ frozened =>
    exact fun _ h => ⟨_, rfl, h.congr rfl rfl (frozenedScore_modifyUser frozened)⟩
  | removeLookon _ frozened =>
    exact fun _ h => ⟨_, rfl, h.congr rfl rfl (frozenedScore_modifyUser frozened)⟩
  | @freeze s c p item done chair pos _ can hdone frozened =>
    intro l hinv h
    have hcovers := (can hok pos).2.1
    rw [hcovers] at hdone
    rw [hdone, if_pos rfl] at frozened
    rw [hdone, if_pos rfl]
    exact frozen_freeze hinv h chair pos (can hok) frozened
  | @unFreeze s c p item done charges chair _ hdone frozened charged =>
    intro l hinv h
    -- `UnFrozenedUserScore` cannot refuse what is noted
    have htrue : done = true := hdone.2 (not_or.2
      ⟨Int64.not_lt.2 (h.chair_nonneg c), Int64.not_lt.2 (h.covered c p chair)⟩)
    rw [htrue, if_pos rfl] at frozened
    rw [htrue, if_pos rfl]
    exact frozen_unFreeze hinv h chair frozened charged
  | trans first second ih ih' =>
    intro l hinv h
    obtain ⟨l₁, hl₁, h₁⟩ := ih hinv h
    obtain ⟨l₂, hl₂, h₂⟩ := ih' (first.seats hinv) h₁
    refine ⟨l₂, ?_, h₂⟩
    rw [List.foldlM_append, hl₁]
    exact hl₂

/-! ## Runs -/

/-- The ledger before anything is frozen for the table. -/
def Ledger.opened (users : ℕ → ServerUserItem) : Ledger :=
  { other := fun user => (users user).frozenedScore }

/-- A state agrees with what was done to the items on the way to it. -/
def FrozenAgrees (users : ℕ → ServerUserItem) (r : TableState × List TableOutput) : Prop :=
  ∃ l, r.2.foldlM Ledger.note (.opened users) = some l ∧ FrozenOk r.1 l

theorem frozenInv_empty {users : ℕ → ServerUserItem}
    (hnonneg : ∀ user, 0 ≤ (users user).frozenedScore) :
    FrozenInv opt { users } (.opened users) where
  empty := fun _ _ => rfl
  chair := nofun
  away := fun _ _ => rfl
  item := fun _ => (Int64.add_zero _).symm
  amount := fun _ => .inl rfl
  covered := nofun
  nonneg := hnonneg

/-- **The frozen score of a run.** From an empty table, as long as every
step is admissible and freezes what can be frozen, each amount is frozen
once, released once and charged only then, and what is noted at the
chairs is what is held. -/
theorem run_keeps_frozen {users : ℕ → ServerUserItem}
    (hnonneg : ∀ user, 0 ≤ (users user).frozenedScore) {events : List TableEvent}
    {r : TableState × List TableOutput}
    (hal : Machine.Along (step opt) (fun s e => Admissible opt s e ∧ FreezeOk opt s e) { users }
      events)
    (hr : Machine.run (step opt) { users } events = some r) : FrozenAgrees users r := by
  let Inv (s : TableState) (log : List TableOutput) : Prop :=
    SeatInv opt s ∧ ∃ l, log.foldlM Ledger.note (.opened users) = some l ∧ FrozenInv opt s l
  have hstep : ∀ s log e s' out, Inv s log → Admissible opt s e ∧ FreezeOk opt s e →
      step opt s e = some (s', out) → Inv s' (log ++ out) := by
    rintro s log e s' out ⟨hinv, l, hl, hfrozen⟩ ⟨hadm, hfreeze⟩ hstep
    have hmoves := step_moves hinv hadm hstep
    obtain ⟨l', hl', hfrozen'⟩ := hmoves.frozen hfreeze hinv hfrozen
    refine ⟨hmoves.seats hinv, l', ?_, hfrozen'⟩
    rw [List.foldlM_append, hl]
    exact hl'
  obtain ⟨-, l, hl, hfrozen⟩ := Machine.inv_run_traced hstep events _ [] r
    ⟨seatInv_empty users, _, rfl, frozenInv_empty hnonneg⟩ hal hr
  exact ⟨l, hl, hfrozen.toFrozenOk⟩

/-- A game of one, whose service score is charged. -/
def chargedGame : List TableEvent :=
  [.call (.performSitDownAction 0 0 false), .resume false, .call .startGame,
    .call (.writeUserScore 0 { lScore := 5, type := scoreTypeWin } true 60)]

theorem run_keeps_frozen_charged : ∃ r,
    Machine.run (step goldTable) { users := guests } chargedGame = some r ∧
      r.2 = [.frozened 0 10, .unFrozened 0 10, .charged 0 10] ∧ FrozenAgrees guests r := by
  have hrun : (Machine.run (step goldTable) { users := guests } chargedGame).map (·.2) =
      some [.frozened 0 10, .unFrozened 0 10, .charged 0 10] := rfl
  obtain ⟨r, hrun, hlog⟩ := Option.map_eq_some_iff.1 hrun
  refine ⟨r, hrun, hlog, run_keeps_frozen (fun _ => Int64.le_refl 0) ?_ hrun⟩
  refine Machine.along_cons rfl ⟨fun _ _ => ⟨by decide, by decide, by decide⟩, nofun⟩ ?_
  refine Machine.along_cons rfl ⟨trivial, trivial⟩ ?_
  refine Machine.along_cons rfl ⟨trivial, fun _ _ _ c p hc => ?_⟩
    (Machine.along_cons rfl ⟨trivial, trivial⟩ trivial)
  -- the one who sits has the service score
  cases c with
  | zero =>
    cases hc
    exact fun _ => ⟨rfl, by decide, by decide⟩
  | succ c => cases hc

/-- **A charge of what was never frozen.** A user with less than the
service score sits down and the game starts: ten are noted at his chair
and none are frozen. When the score is written he is charged ten. -/
theorem charged_unfrozen : ∃ r r',
    Machine.run (step goldTable) { users := fun user => { guests user with lScore := 5 } }
      (chargedGame.take 3) = some r ∧
    r.1.table.frozenedScore 0 = 10 ∧ (r.1.users 0).frozenedScore = 0 ∧
    ¬ FrozenAgrees (fun user => { guests user with lScore := 5 }) r ∧
    Machine.run (step goldTable) { users := fun user => { guests user with lScore := 5 } }
      chargedGame = some r' ∧ r'.2 = [.charged 0 10] := by
  have hstart : (Machine.run (step goldTable)
      { users := fun user => { guests user with lScore := 5 } } (chargedGame.take 3)).map
      (fun r => (r.2, r.1.table.tableUserItem 0, r.1.table.frozenedScore 0,
        (r.1.users 0).frozenedScore)) = some ([], some 0, 10, 0) := rfl
  have hwrite : (Machine.run (step goldTable)
      { users := fun user => { guests user with lScore := 5 } } chargedGame).map (·.2) =
        some [.charged 0 10] := rfl
  obtain ⟨r, hr, heq⟩ := Option.map_eq_some_iff.1 hstart
  obtain ⟨r', hr', hlog'⟩ := Option.map_eq_some_iff.1 hwrite
  simp only [Prod.mk.injEq] at heq
  obtain ⟨hlog, hchair, hnoted, hitem⟩ := heq
  refine ⟨r, r', hr, hnoted, hitem, ?_, hr', hlog'⟩
  rintro ⟨l, hl, hok⟩
  rw [hlog] at hl
  cases hl
  have := hok.chair 0 0 hchair
  rw [hnoted] at this
  exact absurd this (by decide)

end GameServer.GameService
