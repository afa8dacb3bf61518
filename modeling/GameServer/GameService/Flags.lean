import GameServer.GameService.Seats
import GameServer.GameService.TableFlags
/-!
# GameService — the flags of a table

In whatever order a table is called, and whatever its calls call in turn,
a hand is part of a game and a game of a table that has started. Who plays
sits at a table with a game, except at the chairs a `ConcludeGame` on its
way has not reached, and when it returns nobody plays at a table without
one (`flags_run`).
-/

namespace GameServer.GameService

open Function TableState

variable {opt : TableOption} {s s' : TableState} {user chairID : ℕ} {out : List TableOutput}
variable {stack : List Frame} {frame : Frame} {call : TableCall} {answer : Bool}

/-! ## Steps -/

theorem calm_pop (hstack : s.stack = frame :: stack)
    (hframe : reached [frame] = none) : Calm opt s ({ s with stack } : TableState) := by
  refine ⟨⟨rfl, rfl, .inl rfl⟩, ?_, fun _ _ hc hb => ⟨hc, hb⟩, fun _ _ hc ho => ⟨hc, ho⟩⟩
  rw [hstack, ← List.singleton_append, reached_append, hframe, Option.none_or]

/-- **What the flags rely on**, beside the seats. A connection is not lost
while a game is concluded, and the rest of the server makes nobody at a
chair play or go off line. -/
def FlagOk (opt : TableOption) (s : TableState) : TableEvent → Prop
  | .call (.onEventUserOffLine _) => reached s.stack = none
  | .outside user item => (∃ c, s.table.tableUserItem c = some user) →
      (Busy opt item → Busy opt (s.users user)) ∧
        (item.userStatus = .offline → (s.users user).userStatus = .offline)
  | _ => True

theorem of_some {P : TableState → Prop} {r : TableState × List TableOutput}
    (h : some r = some (s', out)) (hr : P r.1) : P s' := by
  rw [Option.some.inj h] at hr
  exact hr

theorem eq_of_some {r : TableState × List TableOutput} (h : some r = some (s', out)) :
    s' = r.1 := by
  rw [Option.some.inj h]

/-- **What a call does to the flags.** -/
theorem exec_cases (hs : s.exec opt call = some (s', out)) :
    Calm opt s s' ∨ s' = (s.startGame opt).1 ∨ (∃ gameStatus, s' = s.concludeGame gameStatus) ∨
      (∃ user, call = .onEventUserOffLine user ∧ s' = (s.onEventUserOffLine opt user).1) ∨
      ∃ chairID user refused, call = .performSitDownAction chairID user refused ∧
        s.performSitDownAction opt chairID user refused = some (s', out) := by
  cases call with
  | performSitDownAction chairID user refused =>
    exact .inr (.inr (.inr (.inr ⟨chairID, user, refused, rfl, hs⟩)))
  | startGame =>
    exact .inr (.inl (eq_of_some hs))
  | concludeGame gameStatus =>
    exact .inr (.inr (.inl ⟨gameStatus, eq_of_some hs⟩))
  | onEventUserOffLine user =>
    exact .inr (.inr (.inr (.inl ⟨user, rfl, eq_of_some hs⟩)))
  | writeUserScore chairID info buckle playTimeCount =>
    exact .inl (of_some hs (calm_writeUserScore s chairID info buckle playTimeCount))
  | performLookonAction chairID user refused =>
    exact .inl (of_some hs (calm_performLookonAction s chairID user refused))
  | performRecoerLookOn chairID user =>
    exact .inl (of_some hs (calm_performRecoerLookOn s chairID user))
  | performStandUpAction user initiative =>
    exact .inl (of_some hs (calm_performStandUpAction s user initiative))
  | switchUserItemConnect user => exact .inl (of_some hs (calm_switchUserItemConnect s user))

theorem flagChain_exec (h : FlagChain s)
    (hs : s.exec opt call = some (s', out)) : FlagChain s' := by
  obtain hcalm | rfl | ⟨gameStatus, rfl⟩ | ⟨user, -, rfl⟩ | ⟨chairID, user, refused, -, hsit⟩ :=
    exec_cases hs
  · exact h.same hcalm.toSameFlags
  · exact h.startGame
  · exact h.concludeGame gameStatus
  · exact h.same (sameFlags_onEventUserOffLine s user)
  · exact h.same (sameFlags_performSitDownAction hsit)

theorem covered_exec (h : Covered opt s) (hcall : s.callable = true)
    (hadm : Admissible opt s (.call call)) (hok : FlagOk opt s (.call call))
    (hs : s.exec opt call = some (s', out)) : Covered opt s' := by
  obtain hcalm | rfl | ⟨gameStatus, rfl⟩ | ⟨user, rfl, rfl⟩ | ⟨chairID, user, refused, rfl, hsit⟩ :=
    exec_cases hs
  · exact h.calm hcalm
  · exact h.startGame
  · exact h.concludeGame gameStatus
  · exact covered_onEventUserOffLine h hok
  · exact covered_performSitDownAction h (fun hgranted => (hadm hcall hgranted).2) hsit

theorem standUpEnd_cases (opt : TableOption) (s : TableState) (user : ℕ) (userStatus : UserStatus) :
    ∃ s₁ s₂, Calm opt s s₁ ∧ (s₂ = s₁ ∨ s₂ = (s₁.startGame opt).1) ∧
      Calm opt s₂ (s.standUpEnd opt user userStatus).1 := by
  have hleft : Calm opt s _ := calm_standUpLeft s user userStatus
  rw [standUpEnd]
  split_ifs
  · exact ⟨_, _, hleft, .inr rfl, calm_push rfl⟩
  · exact ⟨_, _, hleft, .inl rfl, calm_push rfl⟩

/-- **What goes on with a frame.** -/
theorem goOn_cases (hstack : s.stack = frame :: stack)
    (hs : ({ s with stack } : TableState).goOn opt answer frame = some (s', out)) :
    Calm opt s s' ∨
      (∃ s₁ s₂, Calm opt s s₁ ∧ (s₂ = s₁ ∨ s₂ = (s₁.startGame opt).1) ∧ Calm opt s₂ s') ∨
      (∃ c, frame = .concludeUsers c ∧ s' = (({ s with stack } : TableState).concludeUser opt c).1) ∨
      (∃ c, frame = .kickUsers c ∧ opt.chairCount ≤ c ∧
        s' = ({ s with stack } : TableState).concludeTable opt) ∨
      (frame = .afterConclude ∧ s.table.gameStarted = true ∧
        s' = ({ s with stack } : TableState).concludeTable opt) := by
  -- one frame of a loop behind the first takes the place of another
  have hbehind : ∀ frame' : Frame, reached [frame] = some ⊤ → reached [frame'] = some ⊤ →
      Calm opt s (({ s with stack } : TableState).push [frame']) := by
    intro frame' h h'
    refine ⟨⟨rfl, rfl, .inl rfl⟩, ?_, fun _ _ hc hb => ⟨hc, hb⟩, fun _ _ hc ho => ⟨hc, ho⟩⟩
    show reached ([frame'] ++ stack) = reached s.stack
    rw [hstack, reached_append, h', show frame :: stack = [frame] ++ stack from rfl,
      reached_append, h]
  cases frame with
  | sink => exact .inl (of_some hs (calm_pop hstack rfl))
  | concludeUsers c => exact .inr (.inr (.inl ⟨c, rfl, eq_of_some hs⟩))
  | concludeReStatus user =>
    refine .inl (of_some hs ((calm_pop hstack rfl).trans ?_))
    refine calm_modifyUser (fun hb => ?_) fun ho => ho
    rcases hb with hplaying | ⟨hoffline, hre⟩
    · exact .inl hplaying
    · exact .inr ⟨hoffline, fun hprivate => absurd (hre hprivate) nofun⟩
  | afterConclude =>
    rw [goOn] at hs
    by_cases hgame : s.table.gameStarted = true
    · rw [if_pos hgame] at hs
      exact .inr (.inr (.inr (.inr ⟨rfl, hgame, eq_of_some hs⟩)))
    · rw [if_neg hgame] at hs
      exact .inl (of_some hs (hbehind (.kickUsers 0) rfl rfl))
  | kickUsers c =>
    by_cases hlt : c < opt.chairCount
    · exact .inl (of_some hs ((hbehind (.kickUsers (c + 1)) rfl rfl).trans
        (calm_kickUser _ hlt answer)))
    · rw [goOn, kickUser, if_neg hlt] at hs
      exact .inr (.inr (.inr (.inl ⟨c, rfl, Nat.not_lt.1 hlt, eq_of_some hs⟩)))
  | kickLookon chairID user =>
    refine .inl (of_some hs ((calm_pop hstack rfl).trans ?_))
    split_ifs
    · exact .refl _
    · exact calm_performLookonAction _ chairID user answer
  | standUpLeave user chairID tableUser userStatus initiative =>
    rw [goOn] at hs
    split_ifs at hs
    · exact .inl (of_some hs (calm_pop hstack rfl))
    · exact .inl (of_some hs ((calm_pop hstack rfl).trans
        (calm_standUpGo _ user chairID tableUser userStatus initiative)))
  | standUpEnd user userStatus =>
    obtain ⟨s₁, s₂, hleft, hstart, hend⟩ :=
      standUpEnd_cases opt ({ s with stack } : TableState) user userStatus
    exact .inr (.inl ⟨s₁, s₂, (calm_pop hstack rfl).trans hleft, hstart, of_some hs hend⟩)
  | offLineEnd user =>
    exact .inl (of_some hs ((calm_pop hstack rfl).trans (calm_offLineEnd _ user)))

theorem FlagChain.calm (h : FlagChain s) (hcalm : Calm opt s s') : FlagChain s' :=
  h.same hcalm.toSameFlags

theorem flagChain_goOn (h : FlagChain s) (hstack : s.stack = frame :: stack)
    (hs : ({ s with stack } : TableState).goOn opt answer frame = some (s', out)) :
    FlagChain s' := by
  have hpop : FlagChain ({ s with stack } : TableState) := ⟨h.draw, h.game⟩
  obtain hcalm | ⟨s₁, s₂, hleft, hstart, hend⟩ | ⟨c, -, rfl⟩ | ⟨c, -, -, rfl⟩ | ⟨-, -, rfl⟩ :=
    goOn_cases hstack hs
  · exact h.calm hcalm
  · have h₁ := h.calm hleft
    rcases hstart with rfl | rfl
    · exact h₁.calm hend
    · exact h₁.startGame.calm hend
  · by_cases hlt : c < opt.chairCount
    · have hpush : FlagChain (({ s with stack } : TableState).push [.concludeUsers (c + 1)]) :=
        ⟨h.draw, h.game⟩
      exact hpush.calm (calm_concludeUser _ hlt)
    · rw [concludeUser, if_neg hlt]
      exact hpop
  · exact hpop.calm (calm_concludeTable _ : Calm opt _ _)
  · exact hpop.calm (calm_concludeTable _ : Calm opt _ _)

theorem covered_goOn (h : Covered opt s) (hinv : SeatInv opt s) (hstack : s.stack = frame :: stack)
    (hs : ({ s with stack } : TableState).goOn opt answer frame = some (s', out)) :
    Covered opt s' := by
  obtain hcalm | ⟨s₁, s₂, hleft, hstart, hend⟩ | ⟨c, rfl, rfl⟩ | ⟨c, rfl, -, rfl⟩ |
    ⟨rfl, hgame, rfl⟩ := goOn_cases hstack hs
  · exact h.calm hcalm
  · have h₁ := h.calm hleft
    rcases hstart with rfl | rfl
    · exact h₁.calm hend
    · exact h₁.startGame.calm hend
  · exact covered_concludeUser h hinv hstack
  · have hpop : Covered opt ({ s with stack } : TableState) :=
      h.pop_loop hinv (by rw [hstack]; rfl) le_top
    exact hpop.calm (calm_concludeTable _)
  · exact .of_gameStarted ((calm_concludeTable _ : Calm opt _ _).game.trans hgame)

theorem flagChain_step (h : FlagChain s) {event : TableEvent}
    (hs : TableState.step opt s event = some (s', out)) : FlagChain s' := by
  cases event with
  | call call =>
    rw [TableState.step] at hs
    split_ifs at hs
    · exact flagChain_exec h hs
    · cases hs
      exact h
  | resume answer =>
    rw [TableState.step] at hs
    split at hs
    · cases hs
      exact h
    · rename_i frame stack hstack
      exact flagChain_goOn h hstack hs
  | outside user item =>
    cases hs
    exact ⟨h.draw, h.game⟩

theorem covered_step (h : Covered opt s) (hinv : SeatInv opt s) {event : TableEvent}
    (hadm : Admissible opt s event) (hok : FlagOk opt s event)
    (hs : TableState.step opt s event = some (s', out)) : Covered opt s' := by
  cases event with
  | call call =>
    rw [TableState.step] at hs
    split_ifs at hs with hcall
    · exact covered_exec h hcall hadm hok hs
    · cases hs
      exact h
  | resume answer =>
    rw [TableState.step] at hs
    split at hs
    · cases hs
      exact h
    · rename_i frame stack hstack
      exact covered_goOn h hinv hstack hs
  | outside user item =>
    cases hs
    refine ⟨fun hgame c p hc hb => ?_, fun hgame c p hc ho => ?_⟩
    · rw [users_modifyUser] at hb
      split_ifs at hb with hp
      · subst hp
        exact h.busy hgame c p hc ((hok ⟨c, hc⟩).1 hb)
      · exact h.busy hgame c p hc hb
    · rw [users_modifyUser] at ho
      split_ifs at ho with hp
      · subst hp
        exact h.offline hgame c p hc ((hok ⟨c, hc⟩).2 ho)
      · exact h.offline hgame c p hc ho

/-! ## Dismissing -/

/-- What `DismissGame` and `ConcludeTable` do at once. -/
inductive Closes (opt : TableOption) (s : TableState) : TableState → Prop where
  | same : Closes opt s s
  | asks : Closes opt s (s.push [.sink])
  | ends : Closes opt s s.dismissEnd
  | concludes : Closes opt s (s.concludeTable opt)

theorem Closes.calm (h : Closes opt s s') : Calm opt s s' := by
  cases h with
  | same => exact .refl s
  | asks => exact calm_push rfl
  | ends => exact calm_dismissEnd s
  | concludes => exact calm_concludeTable s

theorem Closes.seats (h : Closes opt s s') (hinv : SeatInv opt s) : SeatInv opt s' := by
  have hmoves : Moves opt True s s' [] := by
    cases h with
    | same => exact .refl
    | asks => exact moves_push rfl
    | ends =>
      rw [dismissEnd]
      split_ifs
      · exact .control rfl rfl rfl rfl rfl rfl
      · exact .refl
    | concludes => exact moves_concludeTable
  exact hmoves.seats hinv

variable {x x' : DismissState}

theorem closes_dismissed (x : DismissState) (answer : Bool) :
    Closes opt x.state (x.dismissed answer).state := by
  rw [DismissState.dismissed]
  split
  · exact .same
  · split_ifs
    · exact .ends
    · exact .same
    · exact .same

theorem closes_dismissGame (x : DismissState) : Closes opt x.state x.dismissGame.state := by
  rw [DismissState.dismissGame]
  split_ifs
  · exact .same
  · exact .asks
  · exact .ends

/-- **A step is a step of the table and what `DismissGame` does behind
it.** -/
theorem dismissStep_cases {event : DismissEvent}
    (hs : DismissState.step opt x event = some (x', out)) :
    (∃ e s', event = .table e ∧ TableState.step opt x.state e = some (s', out) ∧
      Closes opt s' x'.state) ∨
      (event = .dismissGame ∨ event = .concludeTable) ∧ Closes opt x.state x'.state := by
  cases event with
  | table e =>
    rw [DismissState.step, Option.map_eq_some_iff] at hs
    obtain ⟨⟨s', out'⟩, hstep, hr⟩ := hs
    cases e with
    | resume answer =>
      have hx : DismissState.dismissed { x with state := s' } answer = x' := congrArg Prod.fst hr
      have hout : out' = out := congrArg Prod.snd hr
      subst hx hout
      exact .inl ⟨_, s', rfl, hstep, closes_dismissed { x with state := s' } answer⟩
    | call call =>
      have hx : ({ x with state := s' } : DismissState) = x' := congrArg Prod.fst hr
      have hout : out' = out := congrArg Prod.snd hr
      subst hx hout
      exact .inl ⟨_, s', rfl, hstep, .same⟩
    | outside user item =>
      have hx : ({ x with state := s' } : DismissState) = x' := congrArg Prod.fst hr
      have hout : out' = out := congrArg Prod.snd hr
      subst hx hout
      exact .inl ⟨_, s', rfl, hstep, .same⟩
  | dismissGame =>
    have hx : (if x.state.callable then x.dismissGame else x) = x' :=
      congrArg Prod.fst (Option.some.inj hs)
    refine .inr ⟨.inl rfl, ?_⟩
    rw [← hx]
    split_ifs
    · exact closes_dismissGame x
    · exact .same
  | concludeTable =>
    have hx : (if x.state.callable then { x with state := x.state.concludeTable opt } else x) =
        x' := congrArg Prod.fst (Option.some.inj hs)
    refine .inr ⟨.inr rfl, ?_⟩
    rw [← hx]
    split_ifs
    · exact .concludes
    · exact .same

/-! ## Runs -/

/-- **The condition**: who is given a seat comes from elsewhere, a
connection is not lost while a game is concluded, and the rest of the
server leaves those who play alone. -/
def DismissOk (opt : TableOption) (x : DismissState) : DismissEvent → Prop
  | .table event => Admissible opt x.state event ∧ FlagOk opt x.state event
  | _ => True

/-- Who plays sits at a table with a game, or at a chair that a
`ConcludeGame` has not reached. -/
def PlaysInGame (s : TableState) : Prop :=
  ∀ c p, s.table.tableUserItem c = some p → (s.users p).userStatus = .playing →
    s.table.gameStarted = true ∨ ∃ k ∈ reached s.stack, k ≤ WithTop.some c

/-- A `ConcludeGame` that has ended a game, or a hand of it, returns: its
second loop is over, or the game goes on. -/
def ConcludeReturns (opt : TableOption) (x : DismissState) : DismissEvent → Prop
  | .table (.resume _) =>
      match x.state.stack with
      | .kickUsers c :: _ => opt.chairCount ≤ c
      | .afterConclude :: _ => x.state.table.gameStarted = true
      | _ => False
  | _ => False

/-- Nobody plays or is off line at a table without a game. -/
def Rests (s : TableState) : Prop :=
  s.table.gameStarted = false → ∀ c p, s.table.tableUserItem c = some p →
    Idle (s.users p).userStatus

theorem flagChain_run (users : ℕ → ServerUserItem) {events : List DismissEvent}
    {r : DismissState × List TableOutput}
    (hr : Machine.run (DismissState.step opt) { state := { users } } events = some r) :
    FlagChain r.1.state := by
  have hstart : FlagChain ({ users } : TableState) := ⟨nofun, nofun⟩
  have hfree : Machine.Along (DismissState.step opt) (fun _ _ => True) { state := { users } }
      events := Machine.along_of_forall (fun _ _ => trivial) events _
  refine Machine.inv_run (P := fun x => FlagChain x.state) ?_ events _ r hstart hfree hr
  intro x event x' out h _ hs
  obtain ⟨e, s', rfl, hstep, hcloses⟩ | ⟨-, hcloses⟩ := dismissStep_cases hs
  · exact (flagChain_step h hstep).calm hcloses.calm
  · exact h.calm hcloses.calm

theorem covered_run (users : ℕ → ServerUserItem) {events : List DismissEvent}
    {r : DismissState × List TableOutput}
    (hal : Machine.Along (DismissState.step opt) (DismissOk opt) { state := { users } } events)
    (hr : Machine.run (DismissState.step opt) { state := { users } } events = some r) :
    SeatInv opt r.1.state ∧ Covered opt r.1.state := by
  have hstart : SeatInv opt ({ users } : TableState) ∧ Covered opt ({ users } : TableState) :=
    ⟨seatInv_empty users, nofun, nofun⟩
  refine Machine.inv_run (P := fun x => SeatInv opt x.state ∧ Covered opt x.state) ?_ events _ r
    hstart hal hr
  rintro x event x' out ⟨hinv, hcovered⟩ hok hs
  obtain ⟨e, s', rfl, hstep, hcloses⟩ | ⟨-, hcloses⟩ := dismissStep_cases hs
  · obtain ⟨hadm, hflag⟩ := hok
    exact ⟨hcloses.seats ((step_moves hinv hadm hstep).seats hinv),
      (covered_step hcovered hinv hadm hflag hstep).calm hcloses.calm⟩
  · exact ⟨hcloses.seats hinv, hcovered.calm hcloses.calm⟩

theorem Covered.playsInGame (h : Covered opt s) : PlaysInGame s := by
  intro c p hc hplaying
  by_cases hgame : s.table.gameStarted = true
  · exact .inl hgame
  · exact .inr (h.busy (Bool.eq_false_iff.2 hgame) c p hc (.inl hplaying))

/-- Behind its loops, `ConcludeGame` leaves nobody who plays. -/
theorem Covered.rests (h : Covered opt s) (hreached : reached s.stack = some ⊤)
    (hcalm : Calm opt ({ s with stack } : TableState) s') : Rests s' := by
  intro hgame c p hc
  have hover : s.table.gameStarted = false := hcalm.game.symm.trans hgame
  have hbehind : ¬ (⊤ : WithTop ℕ) ≤ WithTop.some c := fun hle => WithTop.coe_ne_top (top_le_iff.1 hle)
  constructor
  · intro hplaying
    obtain ⟨hc', hb⟩ := hcalm.busy c p hc (.inl hplaying)
    obtain ⟨k, hk, hle⟩ := h.busy hover c p hc' hb
    rw [hreached] at hk
    cases hk
    exact hbehind hle
  · intro hoffline
    obtain ⟨hc', ho⟩ := hcalm.offline c p hc hoffline
    exact hbehind (h.offline hover c p hc' ho ⊤ hreached)

theorem rests_of_returns {event : DismissEvent} (h : Covered opt x.state)
    (hreturns : ConcludeReturns opt x event)
    (hs : DismissState.step opt x event = some (x', out)) : Rests x'.state := by
  obtain ⟨e, s', rfl, hstep, hcloses⟩ | ⟨rfl | rfl, -⟩ := dismissStep_cases hs
  rotate_left
  · exact hreturns.elim
  · exact hreturns.elim
  cases e with
  | call call => exact hreturns.elim
  | outside user item => exact hreturns.elim
  | resume answer =>
    rw [TableState.step] at hstep
    rw [ConcludeReturns] at hreturns
    split at hreturns
    · rename_i c stack hstack
      rw [hstack] at hstep
      dsimp only at hstep
      rw [goOn, kickUser, if_neg (Nat.not_lt.2 hreturns)] at hstep
      rw [eq_of_some hstep] at hcloses
      exact h.rests (by rw [hstack]; rfl) ((calm_concludeTable _).trans hcloses.calm)
    · rename_i stack hstack
      rw [hstack] at hstep
      dsimp only at hstep
      rw [goOn, if_pos hreturns] at hstep
      rw [eq_of_some hstep] at hcloses
      have hcalm : Calm opt ({ x.state with stack } : TableState) x'.state :=
        (calm_concludeTable _).trans hcloses.calm
      exact fun hgame => absurd (hreturns.symm.trans (hcalm.game.symm.trans hgame)) (by decide)
    · exact hreturns.elim

/-- **The flags of a table.** -/
theorem flags_run (users : ℕ → ServerUserItem) {events : List DismissEvent}
    {r : DismissState × List TableOutput}
    (hr : Machine.run (DismissState.step opt) { state := { users } } events = some r) :
    FlagChain r.1.state ∧
      (Machine.Along (DismissState.step opt) (DismissOk opt) { state := { users } } events →
        PlaysInGame r.1.state ∧
          ∀ event x' out, ConcludeReturns opt r.1 event →
            DismissState.step opt r.1 event = some (x', out) → Rests x'.state) := by
  refine ⟨flagChain_run users hr, fun hal => ?_⟩
  obtain ⟨-, hcovered⟩ := covered_run users hal hr
  exact ⟨hcovered.playsInGame, fun _ _ _ hreturns hs => rests_of_returns hcovered hreturns hs⟩

/-- A game of two ends while one of them is off line. -/
def halfOffLine : List DismissEvent :=
  [.table (.call (.performSitDownAction 0 0 false)), .table (.resume false),
    .table (.call (.performSitDownAction 1 1 false)), .table (.resume false),
    .table (.call .startGame), .table (.resume false),
    .table (.call (.onEventUserOffLine 0)), .table (.resume false),
    .table (.call (.concludeGame 0)), .table (.resume false), .table (.resume false),
    .table (.resume false), .table (.resume false)]

/-- **Who plays sits at a table without a game** while `ConcludeGame` is on
its way to his chair: it has stood up the user before him. -/
theorem plays_behind_stand_up : ∃ r,
    Machine.run (DismissState.step goldTable) { state := { users := guests } } halfOffLine =
      some r ∧
      r.1.state.stack = [.concludeUsers 1, .sink, .afterConclude] ∧
      r.1.state.table.gameStarted = false ∧ r.1.state.table.tableUserItem 1 = some 1 ∧
      (r.1.state.users 1).userStatus = .playing := by
  have hrun : (Machine.run (DismissState.step goldTable) { state := { users := guests } }
      halfOffLine).map (fun r => (r.1.state.stack, r.1.state.table.gameStarted,
        r.1.state.table.tableUserItem 1, (r.1.state.users 1).userStatus)) =
      some ([.concludeUsers 1, .sink, .afterConclude], false, some 1, .playing) := rfl
  obtain ⟨r, hrun, heq⟩ := Option.map_eq_some_iff.1 hrun
  obtain ⟨hstack, heq⟩ := Prod.mk.inj heq
  obtain ⟨hgame, heq⟩ := Prod.mk.inj heq
  obtain ⟨hchair, hstatus⟩ := Prod.mk.inj heq
  exact ⟨r, hrun, hstack, hgame, hchair, hstatus⟩

/-- The other chair, the end of the first loop, and the second. -/
def bothChairs : List DismissEvent :=
  halfOffLine ++ [.table (.resume false), .table (.resume false), .table (.resume false),
    .table (.resume false), .table (.resume false), .table (.resume false)]

/-- When `ConcludeGame` returns from there, nobody plays. -/
theorem flags_run_bothChairs : ∃ r x' out,
    Machine.run (DismissState.step goldTable) { state := { users := guests } } bothChairs =
      some r ∧ r.1.state.stack = [.kickUsers 2] ∧ FlagChain r.1.state ∧
      DismissState.step goldTable r.1 (.table (.resume false)) = some (x', out) ∧
      x'.state.table.tableUserItem 1 = some 1 ∧ Rests x'.state := by
  have hrun : (Machine.run (DismissState.step goldTable) { state := { users := guests } }
      bothChairs).map (fun r => (r.1.state.stack, (DismissState.step goldTable r.1
        (.table (.resume false))).map fun q => q.1.state.table.tableUserItem 1)) =
      some ([.kickUsers 2], some (some 1)) := rfl
  obtain ⟨r, hrun, heq⟩ := Option.map_eq_some_iff.1 hrun
  obtain ⟨hstack, hstep⟩ := Prod.mk.inj heq
  obtain ⟨⟨x', out⟩, hstep, hchair⟩ := Option.map_eq_some_iff.1 hstep
  have hal : Machine.Along (DismissState.step goldTable) (DismissOk goldTable)
      { state := { users := guests } } bothChairs := by
    refine Machine.along_cons rfl ⟨fun _ _ => ⟨by decide, by decide, by decide⟩, trivial⟩ ?_
    refine Machine.along_cons rfl ⟨trivial, trivial⟩ ?_
    refine Machine.along_cons rfl ⟨fun _ _ => ⟨by decide, by decide, by decide⟩, trivial⟩ ?_
    refine Machine.along_cons rfl ⟨trivial, trivial⟩ ?_
    refine Machine.along_cons rfl ⟨trivial, trivial⟩ ?_
    refine Machine.along_cons rfl ⟨trivial, trivial⟩ ?_
    refine Machine.along_cons rfl ⟨trivial, rfl⟩ ?_
    iterate 12 refine Machine.along_cons rfl ⟨trivial, trivial⟩ ?_
    trivial
  obtain ⟨hchain, hrest⟩ := flags_run guests hrun
  refine ⟨r, x', out, hrun, hstack, hchain, hstep, hchair, (hrest hal).2 _ x' out ?_ hstep⟩
  rw [ConcludeReturns, hstack]
  exact Nat.le_refl 2

end GameServer.GameService
