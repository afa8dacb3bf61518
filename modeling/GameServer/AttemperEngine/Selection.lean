import GameServer.AttemperEngine.Model.Distribute
import Mathlib.Data.List.Count
import Mathlib.Data.List.Nodup
/-!
# AttemperEngine — one selection

A selection draws users from the queue and seats them at an empty table.
What it does is told by `Selected`: either all of them sit down and are
removed from the queue, or one is refused and removed, and those who sat
stand up again (`Seated` is where the two loops are between). Whoever
stands up there leaves users behind who are all in the queue, so nobody
is sent to it and no other selection begins.

The number of users asked for is not tied to the chairs. It is exceeded
only if it is one (`length_drawUsers_le`).
-/

namespace GameServer.AttemperEngine

open Function GameService Hall

variable {opt : RectifiedOption} {given : Given} {s s' s₀ : Hall} {t base round : ℕ}
variable {us gone refusals : List ℕ} {insert : Hall → ℕ → Option (Bool × Hall)}
variable {u : ℕ} {info : DistributeInfo}

def users (queue : List DistributeInfo) : List ℕ := queue.map DistributeInfo.userID

/-- The drawn users fit at the table, unless one of them is refused. -/
def DrawnFit (opt : RectifiedOption) (given : Given) (s : Hall) : Prop :=
  ∀ t, s.currTable opt = some t →
    (sitDowns opt given s.round t { s with round := s.round + 1 } 0 (s.drawn opt given)).2 = none →
    (s.drawn opt given).length ≤ opt.wChairCount

/-! ## Who is drawn -/

section

variable (rule : ℕ) (userItem : ℕ → WaitingUser)

theorem exists_drawFrom (need : ℕ) :
    ∀ queue drawn, ∃ more, drawFrom rule userItem need drawn queue = drawn ++ more ∧
      more.Sublist queue := by
  intro queue
  induction queue with
  | nil => exact fun drawn => ⟨[], (List.append_nil _).symm, .slnil⟩
  | cons info queue ih =>
    intro drawn
    rw [drawFrom]
    by_cases hfirst : firstSuccess rule userItem need drawn info
    · rw [if_pos hfirst]
      by_cases hneed : (drawn ++ [info]).length = need
      · rw [if_pos hneed]
        exact ⟨[info], rfl, List.singleton_sublist.2 List.mem_cons_self⟩
      · rw [if_neg hneed]
        obtain ⟨more, heq, hmore⟩ := ih (drawn ++ [info])
        exact ⟨info :: more, by rw [heq, List.append_assoc]; rfl, hmore.cons_cons info⟩
    · rw [if_neg hfirst]
      by_cases hneed : drawn.length = need
      · rw [if_pos hneed]
        exact ⟨[], (List.append_nil _).symm, List.nil_sublist _⟩
      · rw [if_neg hneed]
        obtain ⟨more, heq, hmore⟩ := ih drawn
        exact ⟨more, heq, hmore.cons info⟩

theorem drawUsers_sublist (need : ℕ) (queue : List DistributeInfo) :
    (drawUsers rule userItem need queue).Sublist queue := by
  cases queue with
  | nil => exact .slnil
  | cons head queue =>
    obtain ⟨more, heq, hmore⟩ := exists_drawFrom rule userItem need queue [head]
    rw [drawUsers, heq]
    exact hmore.cons_cons head

theorem length_drawFrom_le (need : ℕ) :
    ∀ queue drawn, drawn.length < need →
      (drawFrom rule userItem need drawn queue).length ≤ need := by
  intro queue
  induction queue with
  | nil => exact fun drawn h => Nat.le_of_lt h
  | cons info queue ih =>
    intro drawn h
    rw [drawFrom]
    by_cases hfirst : firstSuccess rule userItem need drawn info
    · rw [if_pos hfirst]
      have hlength : (drawn ++ [info]).length = drawn.length + 1 := List.length_append ..
      by_cases hneed : (drawn ++ [info]).length = need
      · rw [if_pos hneed]
        omega
      · rw [if_neg hneed]
        exact ih _ (by omega)
    · rw [if_neg hfirst, if_neg (Nat.ne_of_lt h)]
      exact ih drawn h

/-- A number of users behind the head is not exceeded. A single one
is. -/
theorem length_drawUsers_le {need : ℕ} (h : 2 ≤ need) (queue : List DistributeInfo) :
    (drawUsers rule userItem need queue).length ≤ need := by
  cases queue with
  | nil => exact Nat.zero_le _
  | cons head queue => exact length_drawFrom_le rule userItem need queue [head] h

end

theorem fits_of_two_le (h : 2 ≤ opt.wChairCount) (s : Hall) : DrawnFit opt given s := by
  intro t _ _
  have hmin := opt.le_minPartake
  have hle := opt.min_le_maxPartake
  have hmax := opt.maxPartake_le
  have hmod : given.rand s.round %
      max (opt.wMaxPartakeGameUser - opt.wMinPartakeGameUser + 1) 1 <
      max (opt.wMaxPartakeGameUser - opt.wMinPartakeGameUser + 1) 1 := Nat.mod_lt _ (by omega)
  have hneed : s.wNeedCount opt given ≤ opt.wChairCount ∧ 2 ≤ s.wNeedCount opt given := by
    rw [wNeedCount]
    omega
  exact Nat.le_trans (length_drawUsers_le _ _ hneed.2 _) hneed.1

theorem mem_users {queue : List DistributeInfo} (h : info ∈ queue) :
    info.userID ∈ users queue := List.mem_map_of_mem h

theorem users_sublist {l queue : List DistributeInfo} (h : l.Sublist queue) :
    (users l).Sublist (users queue) := h.map _

/-! ## The queue -/

theorem removeDistributeNode_sublist (queue : List DistributeInfo) (u : ℕ) :
    (removeDistributeNode queue u).Sublist queue := List.eraseP_sublist

theorem users_removeDistributeNode (queue : List DistributeInfo) (u : ℕ) :
    users (removeDistributeNode queue u) = (users queue).erase u := by
  induction queue with
  | nil => rfl
  | cons info queue ih =>
    rw [removeDistributeNode] at ih ⊢
    by_cases h : info.userID = u
    · rw [List.eraseP_cons_of_pos (by simpa using h), users, users, List.map_cons, h,
        List.erase_cons_head]
    · rw [List.eraseP_cons_of_neg (by simpa using h), users, users, List.map_cons, List.map_cons,
        List.erase_cons_tail (by simpa using h)]
      exact congrArg _ ih

/-- A user who is in the queue is not put there again. -/
theorem insertDistribute_of_mem (fuel : ℕ) (h : u ∈ users s.queue) :
    ∃ b, insertDistribute opt given (fuel + 1) s u = some (b, s) := by
  obtain ⟨info, hinfo, rfl⟩ := List.mem_map.1 h
  have hsearch : (searchNode s.queue info.userID).isSome :=
    List.find?_isSome.2 ⟨info, hinfo, decide_eq_true rfl⟩
  have hinsert : insertDistributeNode s.queue
      { wLastTableID := (s.userItem info.userID).wTableID, userID := info.userID } = none :=
    if_pos hsearch
  rw [insertDistribute]
  split
  · exact ⟨false, rfl⟩
  · rw [hinsert]
    exact ⟨_, rfl⟩

/-! ## Sitting down and standing up -/

theorem tableUserItem_move (s : Hall) (u : ℕ) (user : WaitingUser) (t c : ℕ) (sitter : Option ℕ)
    (t' c' : ℕ) : (s.move u user t c sitter).tableUserItem t' c' =
      if t' = t ∧ c' = c then sitter else s.tableUserItem t' c' := by
  rw [move]
  dsimp only
  by_cases ht : t' = t
  · rw [ht, update_self]
    by_cases hc : c' = c
    · rw [hc, update_self, if_pos ⟨rfl, rfl⟩]
    · rw [update_of_ne hc, if_neg fun h => hc h.2]
  · rw [update_of_ne ht, if_neg fun h => ht h.1]

theorem userItem_move (s : Hall) (u : ℕ) (user : WaitingUser) (t c : ℕ) (sitter : Option ℕ)
    (v : ℕ) : (s.move u user t c sitter).userItem v = if v = u then user else s.userItem v := by
  rw [move]
  dsimp only
  by_cases h : v = u
  · rw [h, update_self, if_pos rfl]
  · rw [update_of_ne h, if_neg h]

/-- The users sit at the chairs of the table from `base` on, and the other
chairs of it are empty. Everything else is as before. -/
structure Seated (opt : RectifiedOption) (s₀ : Hall) (t base : ℕ) (us : List ℕ) (s : Hall) :
    Prop where
  le : base + us.length ≤ opt.wChairCount
  chair : ∀ c < opt.wChairCount, s.tableUserItem t c = if c < base then none else us[c - base]?
  frame : ∀ t' c, t' ≠ t ∨ opt.wChairCount ≤ c → s.tableUserItem t' c = s₀.tableUserItem t' c
  item : ∀ i u, us[i]? = some u → (s.userItem u).wTableID = t ∧
    (s.userItem u).wChairID = base + i ∧ (s.userItem u).userStatus ≠ .lookon
  rest : ∀ u ∉ us, (s.userItem u).wTableID = (s₀.userItem u).wTableID
  queue : s.queue = s₀.queue
  round : s.round = s₀.round

/-- The first empty chair is the one behind those who sit. -/
theorem Seated.getNullChairID (h : Seated opt s₀ t 0 us s) :
    s.getNullChairID opt t = if us.length < opt.wChairCount then some us.length else none := by
  have hchair : ∀ c < opt.wChairCount, s.tableUserItem t c = us[c]? := fun c hc => by
    rw [h.chair c hc, if_neg (Nat.not_lt_zero c), Nat.sub_zero]
  rw [Hall.getNullChairID]
  by_cases hlt : us.length < opt.wChairCount
  · rw [if_pos hlt, List.find?_range_eq_some]
    refine ⟨decide_eq_true ?_, List.mem_range.2 hlt, fun c hc => ?_⟩
    · rw [hchair _ hlt, List.getElem?_eq_none (Nat.le_refl _)]
    · rw [hchair c (Nat.lt_trans hc hlt), List.getElem?_eq_getElem hc]
      rfl
  · rw [if_neg hlt, List.find?_range_eq_none]
    intro c hc
    rw [hchair c hc, List.getElem?_eq_getElem (by omega)]
    rfl

/-- The next user sits down behind those who sit. -/
theorem Seated.sitDown (h : Seated opt s₀ t 0 us s) (hu : u ∉ us)
    (hlt : us.length < opt.wChairCount)
    (heq : s.performSitDownAction opt given t us.length u = some s') :
    Seated opt s₀ t 0 (us ++ [u]) s' ∧ s'.events = s.events := by
  rw [performSitDownAction] at heq
  split at heq
  · cases heq
  split at heq
  · cases heq
  cases heq
  have hstatus : (if given.gameStarted s t = false ∨ opt.startMode ≠ .timeControl then
      if opt.avertCheatMode then UserStatus.ready else .sit else .playing) ≠ .lookon := by
    split
    · split <;> decide
    · decide
  refine ⟨⟨?_, fun c hc => ?_, fun t' c hc => ?_, fun i v hv => ?_, fun v hv => ?_, h.queue,
    h.round⟩, rfl⟩
  · rw [List.length_append, List.length_singleton]
    omega
  · rw [tableUserItem_move, if_neg (Nat.not_lt_zero c), Nat.sub_zero]
    by_cases hcu : c = us.length
    · rw [if_pos ⟨rfl, hcu⟩, hcu, List.getElem?_concat_length]
    · rw [if_neg fun h => hcu h.2, h.chair c hc, if_neg (Nat.not_lt_zero c), Nat.sub_zero]
      rcases Nat.lt_or_gt_of_ne hcu with hlt | hgt
      · rw [List.getElem?_append_left hlt]
      · rw [List.getElem?_eq_none (by omega), List.getElem?_eq_none]
        rw [List.length_append, List.length_singleton]
        omega
  · rw [tableUserItem_move, if_neg, h.frame t' c hc]
    rintro ⟨rfl, rfl⟩
    rcases hc with hne | hle
    · exact hne rfl
    · omega
  · rw [userItem_move]
    rcases Nat.lt_or_ge i us.length with hi | hi
    · rw [List.getElem?_append_left hi] at hv
      rw [if_neg fun hvu : v = u => hu (hvu ▸ List.mem_of_getElem? hv)]
      exact h.item i v hv
    · have hi' : i = us.length := by
        have := (List.getElem?_eq_some_iff.1 hv).1
        rw [List.length_append, List.length_singleton] at this
        omega
      subst hi'
      rw [List.getElem?_concat_length] at hv
      cases hv
      rw [if_pos rfl]
      exact ⟨rfl, (Nat.zero_add _).symm, hstatus⟩
  · rw [List.mem_append, not_or, List.mem_singleton] at hv
    rw [userItem_move, if_neg hv.2]
    exact h.rest v hv.1

/-- The first of those who sit leaves his chair. -/
theorem Seated.leaveChair (h : Seated opt s₀ t base (u :: us) s)
    (hnodup : (u :: us).Nodup) (hu : (s₀.userItem u).wTableID = invalidTable) :
    Seated opt s₀ t (base + 1) us (s.leaveChair t u) := by
  have hle := h.le
  rw [List.length_cons] at hle
  have hitem := h.item 0 u rfl
  have hne : ∀ v ∈ us, v ≠ u := fun v hv => by
    rintro rfl
    exact (List.nodup_cons.1 hnodup).1 hv
  refine ⟨by omega, fun c hc => ?_, fun t' c hc => ?_, fun i v hv => ?_, fun v hv => ?_, h.queue,
    h.round⟩
  · rw [Hall.leaveChair, tableUserItem_move, hitem.2.1, Nat.add_zero]
    by_cases hcb : c = base
    · rw [if_pos ⟨rfl, hcb⟩, if_pos (by omega)]
    · rw [if_neg fun h => hcb h.2, h.chair c hc]
      by_cases hlt : c < base
      · rw [if_pos hlt, if_pos (by omega)]
      · obtain ⟨d, rfl⟩ : ∃ d, c = base + 1 + d := ⟨c - (base + 1), by omega⟩
        rw [if_neg hlt, if_neg (by omega), Nat.add_sub_cancel_left,
          show base + 1 + d - base = d + 1 by omega, List.getElem?_cons_succ]
  · rw [Hall.leaveChair, tableUserItem_move, hitem.2.1, if_neg, h.frame t' c hc]
    rintro ⟨rfl, rfl⟩
    rcases hc with hne | hle'
    · exact hne rfl
    · omega
  · rw [Hall.leaveChair, userItem_move, if_neg (hne v (List.mem_of_getElem? hv))]
    have := h.item (i + 1) v hv
    exact ⟨this.1, by omega, this.2.2⟩
  · rw [Hall.leaveChair, userItem_move]
    split
    · next hvu => rw [hvu, hu]
    · next hvu =>
      refine h.rest v fun hmem => ?_
      rcases List.mem_cons.1 hmem with heq | hmem
      · exact hvu heq
      · exact hv hmem

/-- Nobody comes to the queue from a table whose users are all in it. -/
theorem redistribute_eq {chairs : List ℕ}
    (h : ∀ c ∈ chairs, ∀ u, s.tableUserItem t c = some u → ∃ b, insert s u = some (b, s)) :
    redistribute insert t s chairs = some s := by
  induction chairs with
  | nil => rfl
  | cons c chairs ih =>
    have htail := ih fun c' hc' => h c' (List.mem_cons_of_mem _ hc')
    rw [redistribute]
    split
    · exact htail
    · next u hu =>
      obtain ⟨b, hinsert⟩ := h c List.mem_cons_self u hu
      rw [hinsert]
      split
      · exact htail
      · exact htail

/-- Of those who sit, the first stands up, and nothing else happens. -/
theorem Seated.performStandUpAction (h : Seated opt s₀ t base (u :: us) s) (given : Given)
    (hnodup : (u :: us).Nodup) (hu : (s₀.userItem u).wTableID = invalidTable)
    (hqueue : ∀ v ∈ us, v ∈ users s₀.queue)
    (hinsert : ∀ s u, u ∈ users s.queue → ∃ b, insert s u = some (b, s)) :
    s.performStandUpAction opt given insert t u = some (s.leaveChair t u) := by
  have hle := h.le
  rw [List.length_cons] at hle
  have hitem := h.item 0 u rfl
  have hchair : s.tableUserItem t (s.userItem u).wChairID = some u := by
    rw [hitem.2.1, h.chair _ (by omega), if_neg (by omega), Nat.add_sub_cancel_left]
    rfl
  have hleave := h.leaveChair hnodup hu
  rw [Hall.performStandUpAction, if_neg hitem.2.2, if_pos hchair]
  dsimp only
  split
  · -- those who are left at the table are in the queue
    refine redistribute_eq fun c hc v hv => hinsert _ v ?_
    rw [hleave.chair c (List.mem_range.1 hc)] at hv
    rw [hleave.queue]
    split at hv
    · cases hv
    · exact hqueue v (List.mem_of_getElem? hv)
  · rfl

/-! ## A selection -/

/-- Users who sit down at chairs one behind the other. -/
def seatEvents (round t : ℕ) : ℕ → List ℕ → List DistributeEvent
  | _, [] => []
  | c, u :: us => .seat round u t c :: seatEvents round t (c + 1) us

theorem mem_seatEvents {e : DistributeEvent} : ∀ {us : List ℕ} {c : ℕ},
    e ∈ seatEvents round t c us ↔ ∃ i u, us[i]? = some u ∧ e = .seat round u t (c + i) := by
  intro us
  induction us with
  | nil =>
    refine ⟨fun h => absurd h List.not_mem_nil, ?_⟩
    rintro ⟨i, u, h, -⟩
    cases h
  | cons v us ih =>
    intro c
    rw [seatEvents, List.mem_cons, ih]
    constructor
    · rintro (rfl | ⟨i, u, h, rfl⟩)
      · exact ⟨0, v, rfl, rfl⟩
      · exact ⟨i + 1, u, h, by rw [Nat.add_assoc, Nat.add_comm 1 i]⟩
    · rintro ⟨i, u, h, rfl⟩
      cases i with
      | zero =>
        cases h
        exact .inl rfl
      | succ i => exact .inr ⟨i, u, h, by rw [Nat.add_assoc, Nat.add_comm 1 i]⟩

theorem Seated.emit (h : Seated opt s₀ t base us s) (e : DistributeEvent) :
    Seated opt s₀ t base us (s.emit e) :=
  ⟨h.le, h.chair, h.frame, h.item, h.rest, h.queue, h.round⟩

/-- How the loop that seats the drawn users ends: all of them sit down, as
far as there are chairs, or one of them is refused. -/
structure SitDowns (opt : RectifiedOption) (s₀ : Hall) (round t : ℕ) (us : List ℕ)
    (s : Hall) (drawn : List DistributeInfo) (n : ℕ) (r : Hall × Option ℕ) : Prop where
  all : r.2 = none →
    Seated opt s₀ t 0 (us ++ (users drawn).take (opt.wChairCount - us.length)) r.1 ∧
      r.1.events = s.events ++
        seatEvents round t us.length ((users drawn).take (opt.wChairCount - us.length))
  refused : ∀ i, r.2 = some i → ∃ before info behind, drawn = before ++ info :: behind ∧
    i = n + before.length ∧ us.length + before.length < opt.wChairCount ∧
      Seated opt s₀ t 0 (us ++ users before) r.1 ∧ r.1.events = s.events ++
        (seatEvents round t us.length (users before) ++ [.refuse round info.userID])

theorem sitDowns_spec (given : Given) (round : ℕ) : ∀ (drawn : List DistributeInfo) {s : Hall} {us : List ℕ} (n : ℕ),
    Seated opt s₀ t 0 us s → (us ++ users drawn).Nodup →
      SitDowns opt s₀ round t us s drawn n (sitDowns opt given round t s n drawn) := by
  intro drawn
  induction drawn with
  | nil =>
    intro s us n h _
    refine ⟨fun _ => ?_, fun i hi => ?_⟩
    · rw [users, List.map_nil, List.take_nil, List.append_nil]
      exact ⟨h, (List.append_nil _).symm⟩
    · cases hi
  | cons info drawn ih =>
    intro s us n h hnodup
    rw [sitDowns, h.getNullChairID]
    by_cases hlt : us.length < opt.wChairCount
    · -- the next chair is given to him, or refused
      rw [if_pos hlt]
      dsimp only
      cases heq : s.performSitDownAction opt given t us.length info.userID with
      | none =>
        refine ⟨fun h => ?_, fun i hi => ?_⟩
        · cases h
        · cases hi
          refine ⟨[], info, drawn, rfl, rfl, hlt, ?_, rfl⟩
          rw [users, List.map_nil, List.append_nil]
          exact h.emit _
      | some seated =>
        have hu : info.userID ∉ us := fun hmem =>
          List.disjoint_of_nodup_append hnodup hmem List.mem_cons_self
        obtain ⟨hseated, hevents⟩ := h.sitDown hu hlt heq
        have hlength : (us ++ [info.userID]).length = us.length + 1 := List.length_append ..
        have hnext := ih (n + 1) (hseated.emit (.seat round info.userID t us.length))
          (by rw [List.append_assoc]; exact hnodup)
        have htake : (users (info :: drawn)).take (opt.wChairCount - us.length) =
            info.userID :: (users drawn).take (opt.wChairCount - (us.length + 1)) := by
          rw [show opt.wChairCount - us.length = opt.wChairCount - (us.length + 1) + 1 by omega]
          rfl
        refine ⟨fun hall => ?_, fun i hi => ?_⟩
        · obtain ⟨hsit, hlog⟩ := hnext.all hall
          rw [hlength] at hsit hlog
          rw [htake]
          refine ⟨by rw [List.append_assoc] at hsit; exact hsit, ?_⟩
          rw [hlog, Hall.emit, hevents, List.append_assoc]
          rfl
        · obtain ⟨before, refused, behind, rfl, hi, hchair, hsit, hlog⟩ := hnext.refused i hi
          rw [hlength] at hchair hlog
          refine ⟨info :: before, refused, behind, rfl, ?_, ?_, ?_, ?_⟩
          · rw [hi, List.length_cons]
            omega
          · rw [List.length_cons]
            omega
          · rw [List.append_assoc] at hsit
            exact hsit
          · rw [hlog, Hall.emit, hevents, List.append_assoc]
            rfl
    · -- no chair is left, so he is passed over and nobody behind is refused
      rw [if_neg hlt]
      have htake : opt.wChairCount - us.length = 0 := by omega
      have hnext := ih (n + 1) h (hnodup.sublist
        ((List.sublist_cons_self info.userID (users drawn)).append_left us))
      refine ⟨fun hall => ?_, fun i hi => ?_⟩
      · have := hnext.all hall
        rw [htake, List.take_zero] at this ⊢
        exact this
      · obtain ⟨before, -, -, -, -, hchair, -⟩ := hnext.refused i hi
        omega

/-- Users behind the refused one who are at no table stay where they
are. -/
theorem standUps_behind {i : ℕ} : ∀ {behind : List DistributeInfo} {n : ℕ}, i < n →
    (∀ info ∈ behind, (s.userItem info.userID).wTableID = invalidTable) →
    standUps opt given insert round i s n behind = some s := by
  intro behind
  induction behind with
  | nil => exact fun _ _ => rfl
  | cons info behind ih =>
    intro n hn h
    rw [standUps, if_neg (by omega), if_neg (not_not.2 (h info List.mem_cons_self))]
    exact ih (by omega) fun info' h' => h info' (List.mem_cons_of_mem _ h')

/-- What is left when the drawn users up to the refused one have stood
up. -/
theorem standUps_spec (given : Given) (round : ℕ) (ht : t ≠ invalidTable)
    {behind : List DistributeInfo} :
    ∀ {before : List DistributeInfo} {s : Hall} {base n : ℕ},
      Seated opt s₀ t base (users before) s → (users (before ++ info :: behind)).Nodup →
      (∀ v ∈ users (before ++ info :: behind),
        v ∈ users s₀.queue ∧ (s₀.userItem v).wTableID = invalidTable) →
      ∃ stood, (∀ insert : Hall → ℕ → Option (Bool × Hall),
          (∀ s u, u ∈ users s.queue → ∃ b, insert s u = some (b, s)) →
          standUps opt given insert round (n + before.length) s n (before ++ info :: behind) =
            some (stood.removeNode round info.userID)) ∧
        Seated opt s₀ t (base + before.length) [] stood ∧ stood.events = s.events := by
  intro before
  induction before with
  | nil =>
    intro s base n h hnodup hdrawn
    refine ⟨s, fun insert hinsert => ?_, h, rfl⟩
    rw [List.nil_append, List.length_nil, Nat.add_zero, standUps, if_pos rfl]
    refine standUps_behind (Nat.lt_succ_self n) fun other hother => ?_
    have hmem : other.userID ∈ users ([] ++ info :: behind) :=
      mem_users (List.mem_cons_of_mem _ hother)
    exact (h.rest _ List.not_mem_nil).trans (hdrawn _ hmem).2
  | cons first before ih =>
    intro s base n h hnodup hdrawn
    have hfirst := hdrawn first.userID List.mem_cons_self
    have hbefore : (users (first :: before)).Nodup :=
      hnodup.sublist (users_sublist (List.sublist_append_left ..))
    have hleave := h.leaveChair hbefore hfirst.2
    obtain ⟨stood, heq, hstood, hevents⟩ := ih (n := n + 1) hleave (List.nodup_cons.1 hnodup).2
      fun v hv => hdrawn v (List.mem_cons_of_mem _ hv)
    refine ⟨stood, fun insert hinsert => ?_, ?_, hevents⟩
    · have hstand := h.performStandUpAction given hbefore hfirst.2 (fun v hv => (hdrawn v
        (List.mem_cons_of_mem _ ((users_sublist (List.sublist_append_left ..)).subset hv))).1) hinsert
      have htable := (h.item 0 first.userID rfl).1
      rw [List.cons_append, standUps, if_neg (by rw [List.length_cons]; omega), htable, if_pos ht,
        hstand]
      rw [← heq insert hinsert, List.length_cons, show n + (before.length + 1) =
        n + 1 + before.length by omega]
    · rw [List.length_cons, show base + (before.length + 1) = base + 1 + before.length by omega]
      exact hstood

theorem users_foldl_removeNode (round : ℕ) : ∀ (drawn : List DistributeInfo) (s : Hall),
    users (drawn.foldl (fun s info => s.removeNode round info.userID) s).queue =
      (users s.queue).diff (users drawn) := by
  intro drawn
  induction drawn with
  | nil => exact fun s => (List.diff_nil _).symm
  | cons info drawn ih =>
    intro s
    have hfirst : users (s.removeNode round info.userID).queue = (users s.queue).erase info.userID :=
      users_removeDistributeNode ..
    rw [List.foldl_cons, ih, hfirst]
    exact (List.diff_cons ..).symm

theorem foldl_removeNode (round : ℕ) : ∀ (drawn : List DistributeInfo) (s : Hall),
    ∃ queue, queue.Sublist s.queue ∧
      drawn.foldl (fun s info => s.removeNode round info.userID) s =
        { s with queue, events := s.events ++ (users drawn).map (.remove round) } := by
  intro drawn
  induction drawn with
  | nil =>
    intro s
    refine ⟨s.queue, .refl _, ?_⟩
    rw [users, List.map_nil, List.map_nil, List.append_nil]
    rfl
  | cons info drawn ih =>
    intro s
    obtain ⟨queue, hqueue, heq⟩ := ih (s.removeNode round info.userID)
    refine ⟨queue, hqueue.trans (removeDistributeNode_sublist ..), ?_⟩
    rw [List.foldl_cons, heq]
    simp only [removeNode, Hall.emit, users, List.map_cons, List.append_assoc, List.singleton_append]

/-- What a selection does: users sit down at the chairs of an empty table
from the first on, perhaps one is refused, and users are removed. Who is
at a chair behind it was there before, or is removed. -/
structure Selected (opt : RectifiedOption) (given : Given) (s s' : Hall) (t : ℕ)
    (us refusals gone : List ℕ) : Prop where
  round : s'.round = s.round + 1
  gone_ne : gone ≠ []
  gone_sublist : gone.Sublist (users s.queue)
  queue_sublist : s'.queue.Sublist s.queue
  queue : users s'.queue = (users s.queue).diff gone
  waiting : ∀ u ∉ gone, (s.userItem u).wTableID = invalidTable →
    (s'.userItem u).wTableID = invalidTable
  events : s'.events = s.events ++ (seatEvents s.round t 0 us ++ refusals.map (.refuse s.round) ++
    gone.map (.remove s.round))
  empty : ∀ c < us.length, s.tableUserItem t c = none
  keeps : ∀ t' c u, s.tableUserItem t' c = some u → s'.tableUserItem t' c = some u
  sits : ∀ t' c u, s'.tableUserItem t' c = some u → s.tableUserItem t' c = some u ∨ u ∈ gone
  accounts : DrawnFit opt given s →
    ∀ u ∈ gone, u ∈ refusals ∨ ∃ c, us[c]? = some u ∧ s'.tableUserItem t c = some u
  fits : (∀ u ∈ gone, u ∈ refusals ∨ u ∈ us) → DrawnFit opt given s

theorem seated_of_currTable (h : s.currTable opt = some t) :
    t < opt.wTableCount ∧ Seated opt s t 0 [] s := by
  rw [currTable, List.find?_range_eq_some] at h
  obtain ⟨hempty, ht, -⟩ := h
  refine ⟨List.mem_range.1 ht, Nat.zero_le _, fun c hc => ?_, fun _ _ _ => rfl, fun i u h => ?_,
    fun _ _ => rfl, rfl, rfl⟩
  · have hc' := List.countP_eq_zero.1 (of_decide_eq_true hempty) c (List.mem_range.2 hc)
    rw [Option.not_isSome_iff_eq_none] at hc'
    exact hc'
  · cases h

/-- Away from the table, and behind the chairs, nothing has changed. -/
theorem Seated.of_chair_none (h : Seated opt s₀ t base us s)
    (hnone : ∀ c < opt.wChairCount, s₀.tableUserItem t c = none) {t' c : ℕ}
    (hu : s₀.tableUserItem t' c = some u) : s.tableUserItem t' c = some u := by
  rw [h.frame, hu]
  by_contra hnot
  rw [not_or, not_not, Nat.not_le] at hnot
  obtain ⟨rfl, hc⟩ := hnot
  rw [hnone c hc] at hu
  cases hu

/-- Who is at a chair was there before, or is one of those who sit. -/
theorem Seated.mem_or_of_chair (h : Seated opt s₀ t base us s) {t' c : ℕ}
    (hu : s.tableUserItem t' c = some u) : s₀.tableUserItem t' c = some u ∨ u ∈ us := by
  by_cases hc : t' ≠ t ∨ opt.wChairCount ≤ c
  · exact .inl ((h.frame t' c hc).symm.trans hu)
  · rw [not_or, not_not, Nat.not_le] at hc
    obtain ⟨rfl, hc⟩ := hc
    rw [h.chair c hc] at hu
    split at hu
    · cases hu
    · exact .inr (List.mem_of_getElem? hu)

/-- A selection in which nobody is refused. -/
theorem selected_of_all {r : Hall × Option ℕ} {drawn : List DistributeInfo}
    (hdrawn : s.drawn opt given = drawn) (hsub : (users drawn).Sublist (users s.queue))
    (hnodup : (users drawn).Nodup) (hne : drawn ≠ []) (ht : s.currTable opt = some t)
    (hr : sitDowns opt given s.round t { s with round := s.round + 1 } 0 drawn = r)
    (hnone : r.2 = none)
    (hsit : Seated opt { s with round := s.round + 1 } t 0 ((users drawn).take opt.wChairCount) r.1)
    (hevents : r.1.events = s.events ++
      seatEvents s.round t 0 ((users drawn).take opt.wChairCount)) :
    Selected opt given s (drawn.foldl (fun x info => x.removeNode s.round info.userID) r.1) t
      ((users drawn).take opt.wChairCount) [] (users drawn) := by
  have hqueue := users_foldl_removeNode s.round drawn r.1
  obtain ⟨queue, hsublist, heq⟩ := foldl_removeNode s.round drawn r.1
  rw [heq] at hqueue ⊢
  have hchair : ∀ c < opt.wChairCount, s.tableUserItem t c = none := fun c hc => by
    rw [(seated_of_currTable ht).2.chair c hc, if_neg (Nat.not_lt_zero c)]
    rfl
  have hmem : ∀ u ∈ (users drawn).take opt.wChairCount, u ∈ users drawn := fun u hu =>
    List.mem_of_mem_take hu
  have hfits : DrawnFit opt given s ↔ drawn.length ≤ opt.wChairCount := by
    refine ⟨fun h => ?_, fun h t' _ _ => by rw [hdrawn]; exact h⟩
    rw [← hdrawn] at hr ⊢
    exact h t ht (by rw [hr]; exact hnone)
  have hlength : (users drawn).length = drawn.length := List.length_map _
  refine ⟨hsit.round, fun h => hne (List.map_eq_nil_iff.1 h), hsub, ?_, ?_, fun u hu h => ?_, ?_,
    fun c hc => hchair c ?_, fun t' c u hu => hsit.of_chair_none hchair hu, fun t' c u hu => ?_,
    fun h u hu => .inr ?_, fun h => hfits.2 ?_⟩
  · rw [hsit.queue] at hsublist
    exact hsublist
  · rw [hsit.queue] at hqueue
    exact hqueue
  · exact (hsit.rest u fun hmem' => hu (hmem u hmem')).trans h
  · rw [hevents, List.map_nil, List.append_nil, List.append_assoc]
  · have := hsit.le
    omega
  · exact (hsit.mem_or_of_chair hu).imp_right (hmem u)
  · have htake : (users drawn).take opt.wChairCount = users drawn :=
      List.take_of_length_le (by rw [hlength]; exact hfits.1 h)
    rw [htake] at hsit ⊢
    obtain ⟨c, hc⟩ := List.mem_iff_getElem?.1 hu
    have hlt := (List.getElem?_eq_some_iff.1 hc).1
    have hle := hsit.le
    refine ⟨c, hc, (hsit.chair c (by omega)).trans ?_⟩
    exact hc
  · -- a user behind the chairs is removed, and neither sits nor is refused
    by_contra hlt
    have hlast : opt.wChairCount < (users drawn).length := by omega
    rcases h _ (List.getElem_mem hlast) with hnil | hmem
    · cases hnil
    · obtain ⟨c, hc⟩ := List.mem_iff_getElem?.1 hmem
      have hcc : c < opt.wChairCount := by
        have := (List.getElem?_eq_some_iff.1 hc).1
        rw [List.length_take] at this
        omega
      rw [List.getElem?_take_of_lt hcc, ← List.getElem?_eq_getElem hlast] at hc
      have := (List.getElem?_inj (by omega) hnodup).1 hc
      omega

theorem selected_of_refused {r : Hall × Option ℕ} {stood : Hall} {before behind : List DistributeInfo}
    {i : ℕ}
    (hdrawn : s.drawn opt given = before ++ info :: behind) (hinfo : info.userID ∈ users s.queue)
    (ht : s.currTable opt = some t)
    (hr : sitDowns opt given s.round t { s with round := s.round + 1 } 0
      (before ++ info :: behind) = r)
    (hsome : r.2 = some i) (hroom : before.length < opt.wChairCount)
    (hstood : Seated opt { s with round := s.round + 1 } t base [] stood)
    (hevents : stood.events = s.events ++
      (seatEvents s.round t 0 (users before) ++ [.refuse s.round info.userID])) :
    Selected opt given s (stood.removeNode s.round info.userID) t (users before) [info.userID]
      [info.userID] := by
  have hchair : ∀ c < opt.wChairCount, s.tableUserItem t c = none := fun c hc => by
    rw [(seated_of_currTable ht).2.chair c hc, if_neg (Nat.not_lt_zero c)]
    rfl
  have hlength : (users before).length = before.length := List.length_map _
  have hqueue : (stood.removeNode s.round info.userID).queue =
      removeDistributeNode s.queue info.userID :=
    congrArg (removeDistributeNode · info.userID) hstood.queue
  refine ⟨hstood.round, List.cons_ne_nil _ _, List.singleton_sublist.2 hinfo, ?_, ?_, fun u _ h => ?_,
    ?_, fun c hc => hchair c (by omega), fun t' c u hu => hstood.of_chair_none hchair hu,
    fun t' c u hu => ?_, fun _ u hu => .inl hu, fun _ t' ht' hnone => ?_⟩
  · rw [hqueue]
    exact removeDistributeNode_sublist ..
  · rw [hqueue, users_removeDistributeNode, List.diff_cons, List.diff_nil]
  · exact (hstood.rest u List.not_mem_nil).trans h
  · rw [removeNode, Hall.emit]
    simp only [hevents, List.map_cons, List.map_nil, List.append_assoc]
  · exact .inl ((hstood.mem_or_of_chair hu).resolve_right List.not_mem_nil)
  · rw [ht] at ht'
    cases ht'
    rw [hdrawn, hr, hsome] at hnone
    cases hnone

/-- What a selection does, whatever standing up may come to. -/
theorem exists_selected (given : Given) (hnodup : (users s.queue).Nodup)
    (hwaiting : ∀ u ∈ users s.queue, (s.userItem u).wTableID = invalidTable)
    (ht : s.currTable opt = some t)
    (hmin : opt.wMinPartakeGameUser ≤ (s.drawn opt given).length) :
    ∃ s' us refusals gone, (∀ insert : Hall → ℕ → Option (Bool × Hall),
        (∀ s u, u ∈ users s.queue → ∃ b, insert s u = some (b, s)) →
        s.seatDrawn opt given insert (s.drawn opt given) t = some s') ∧
      Selected opt given s s' t us refusals gone := by
  obtain ⟨hlt, hempty⟩ := seated_of_currTable (s := { s with round := s.round + 1 }) ht
  have hsub : (users (s.drawn opt given)).Sublist (users s.queue) :=
    users_sublist (drawUsers_sublist ..)
  have hne : s.drawn opt given ≠ [] := by
    intro hnil
    have hle := opt.le_minPartake
    have hchairs := opt.chairs_pos
    rw [hnil, List.length_nil] at hmin
    omega
  have htables := opt.tables_le
  generalize hdrawn : s.drawn opt given = drawn at hsub hne
  have hspec := sitDowns_spec given s.round drawn 0 hempty
    (hnodup.sublist hsub)
  generalize hr : sitDowns opt given s.round t { s with round := s.round + 1 } 0 drawn = r at hspec
  cases hend : r.2 with
  | none =>
    obtain ⟨hsit, hevents⟩ := hspec.all hend
    exact ⟨_, _, _, _, fun insert _ => by rw [seatDrawn, hr, hend],
      selected_of_all hdrawn hsub (hnodup.sublist hsub) hne ht hr hend hsit hevents⟩
  | some i =>
    obtain ⟨before, info, behind, rfl, rfl, hroom, hsit, hevents⟩ := hspec.refused i hend
    obtain ⟨stood, heq, hstood, hstoodEvents⟩ := standUps_spec given s.round (by omega)
      (n := 0) hsit (hnodup.sublist hsub) fun v hv => ⟨hsub.subset hv, hwaiting v (hsub.subset hv)⟩
    have hinfo : info.userID ∈ users s.queue :=
      hsub.subset (mem_users (List.mem_append_right _ List.mem_cons_self))
    refine ⟨_, _, _, _, fun insert hinsert => ?_, selected_of_refused hdrawn hinfo ht hr hend
      (by rw [List.length_nil, Nat.zero_add] at hroom; exact hroom) hstood
      (hstoodEvents.trans hevents)⟩
    rw [seatDrawn, hr, hend]
    exact heq insert hinsert

end GameServer.AttemperEngine
