import GameServer.MatchService.Model.Seating
import GameServer.MatchService.Distribute
/-!
# MatchService — one selection of a timed match

What a step of a selection does to the queue and to the chairs is told by
`Moves`: it concerns some users, and leaves those of everybody else. The
steps of a selection compose to the selection itself (`sitDowns_spec`,
`standUps_spec`).
-/

namespace GameServer.MatchService

open Function GameService DistributeManage

namespace MatchRoom

variable {opt : SeatOption} {given : Given} {s s' s'' : MatchRoom} {us us' : List ℕ} {u v t c : ℕ}

/-- The users of the queue. -/
def waiting (s : MatchRoom) : List ℕ := users s.manage.infos

def removedNodes (events : List SeatEvent) : List ℕ :=
  events.filterMap fun
    | .remove _ p => some p
    | _ => none

def removedUsers (events : List SeatEvent) : List ℕ :=
  events.filterMap fun
    | .remove u _ => some u
    | _ => none

def eventUser : SeatEvent → ℕ
  | .seat u _ _ => u
  | .refuse u => u
  | .remove u _ => u

/-- Who has a chair at a table without a game is there by his own data,
and does not look on. -/
def Consistent (opt : SeatOption) (s : MatchRoom) : Prop :=
  ∀ t c u, s.tableUserItem t c = some u → c < opt.wChairCount ∧ (s.gameStarted t = false →
    t ≠ invalidTable ∧ (s.userItem u).wTableID = t ∧ (s.userItem u).wChairID = c ∧
      (s.userItem u).userStatus ≠ .lookon)

theorem removedNodes_append (l l' : List SeatEvent) :
    removedNodes (l ++ l') = removedNodes l ++ removedNodes l' := List.filterMap_append ..

theorem removedUsers_append (l l' : List SeatEvent) :
    removedUsers (l ++ l') = removedUsers l ++ removedUsers l' := List.filterMap_append ..

/-- **A step that concerns some users**: it may take them out of the queue
and off their chairs, and what happens in it happens to them. -/
structure Moves (opt : SeatOption) (us : List ℕ) (s s' : MatchRoom) : Prop where
  waiting : Waiting s'.manage
  node : s'.manage.node = s.manage.node
  sub : s'.manage.queue.Sublist s.manage.queue
  kept : ∀ v ∈ s.waiting, v ∉ us → v ∈ s'.waiting
  chairs : ∀ v ∉ us, ∀ t c, s'.tableUserItem t c = some v ↔ s.tableUserItem t c = some v
  events : ∃ new, s'.events = s.events ++ new ∧ (∀ e ∈ new, eventUser e ∈ us) ∧
    removedUsers new = (removedNodes new).map (fun p => (s.manage.node p).userID) ∧
    (s'.manage.queue ++ removedNodes new).Perm s.manage.queue
  consistent : Consistent opt s → Consistent opt s'

theorem Moves.of_same (hw : Waiting s.manage) (hmanage : s'.manage = s.manage)
    (hevents : s'.events = s.events)
    (hchairs : ∀ v ∉ us, ∀ t c, s'.tableUserItem t c = some v ↔ s.tableUserItem t c = some v)
    (hconsistent : Consistent opt s → Consistent opt s') : Moves opt us s s' where
  waiting := hmanage ▸ hw
  node := by rw [hmanage]
  sub := by rw [hmanage]
  kept := fun v hv _ => by
    rw [MatchRoom.waiting, hmanage]
    exact hv
  chairs := hchairs
  events := ⟨[], by rw [hevents, List.append_nil], nofun, rfl, by
    rw [hmanage, show removedNodes [] = [] from rfl, List.append_nil]⟩
  consistent := hconsistent

theorem Moves.refl (hw : Waiting s.manage) (us : List ℕ) : Moves opt us s s :=
  .of_same hw rfl rfl (fun _ _ _ _ => Iff.rfl) id

theorem Moves.mono (h : Moves opt us s s') (hsub : ∀ u ∈ us, u ∈ us') : Moves opt us' s s' :=
  { h with
    kept := fun v hv hn => h.kept v hv fun hmem => hn (hsub v hmem)
    chairs := fun v hn => h.chairs v fun hmem => hn (hsub v hmem)
    events := by
      obtain ⟨new, heq, hnew, hrest⟩ := h.events
      exact ⟨new, heq, fun e he => hsub _ (hnew e he), hrest⟩ }

theorem Moves.trans (h : Moves opt us s s') (h' : Moves opt us s' s'') : Moves opt us s s'' where
  waiting := h'.waiting
  node := h'.node.trans h.node
  sub := h'.sub.trans h.sub
  kept := fun v hv hn => h'.kept v (h.kept v hv hn) hn
  chairs := fun v hn t c => (h'.chairs v hn t c).trans (h.chairs v hn t c)
  events := by
    obtain ⟨new, heq, hnew, husers, hperm⟩ := h.events
    obtain ⟨new', heq', hnew', husers', hperm'⟩ := h'.events
    refine ⟨new ++ new', by rw [heq', heq, List.append_assoc], ?_, ?_, ?_⟩
    · intro e he
      rcases List.mem_append.1 he with he | he
      · exact hnew e he
      · exact hnew' e he
    · rw [removedUsers_append, removedNodes_append, List.map_append, husers, husers', h.node]
    · rw [removedNodes_append]
      have hswap : (s''.manage.queue ++ (removedNodes new ++ removedNodes new')).Perm
          (s''.manage.queue ++ (removedNodes new' ++ removedNodes new)) :=
        List.perm_append_comm.append_left _
      rw [← List.append_assoc s''.manage.queue (removedNodes new')] at hswap
      exact (hswap.trans (hperm'.append_right _)).trans hperm
  consistent := fun hc => h'.consistent (h.consistent hc)

theorem mem_waiting : u ∈ s.waiting ↔ ∃ p ∈ s.manage.queue, (s.manage.node p).userID = u := by
  simp [waiting, users, infos]

theorem Moves.waiting_subset (h : Moves opt us s s') (hu : u ∈ s'.waiting) : u ∈ s.waiting := by
  obtain ⟨p, hp, rfl⟩ := mem_waiting.1 hu
  exact mem_waiting.2 ⟨p, h.sub.subset hp, by rw [h.node]⟩

theorem Moves.mem_events (h : Moves opt us s s') {e : SeatEvent} (he : e ∈ s.events) :
    e ∈ s'.events := by
  obtain ⟨new, heq, -⟩ := h.events
  rw [heq]
  exact List.mem_append_left _ he

theorem Moves.mem_events_of_notMem (h : Moves opt us s s') {e : SeatEvent} (he : e ∈ s'.events)
    (hn : eventUser e ∉ us) : e ∈ s.events := by
  obtain ⟨new, heq, hnew, -⟩ := h.events
  rw [heq] at he
  exact (List.mem_append.1 he).resolve_right fun hmem => hn (hnew e hmem)

/-! ## Removing a user -/

/-- Only nodes are removed: the chairs and the users' own data are as they
were. -/
structure SameSeats (s s' : MatchRoom) : Prop where
  tableUserItem : s'.tableUserItem = s.tableUserItem
  userItem : s'.userItem = s.userItem
  gameStarted : s'.gameStarted = s.gameStarted
  quiet : ∀ e ∈ s'.events, e ∈ s.events ∨ ∃ u p, e = .remove u p

theorem notMem_waiting_of_node (hw : Waiting s.manage) {p : ℕ} (hp : p ∈ s.manage.queue)
    (hnode : s'.manage.node = s.manage.node) (hsub : s'.manage.queue.Sublist s.manage.queue)
    (hp' : p ∉ s'.manage.queue) : (s.manage.node p).userID ∉ s'.waiting := by
  intro hmem
  obtain ⟨q, hq, heq⟩ := mem_waiting.1 hmem
  have husers := hw.users
  rw [infos, users, List.map_map] at husers
  rw [hnode] at heq
  exact hp' (List.inj_on_of_nodup_map husers (hsub.subset hq) hp heq ▸ hq)

/-- **A node is removed**, unless its user is not in the queue. -/
theorem removeNode_spec (hw : Waiting s.manage) (opt : SeatOption) {p : ℕ}
    (hp : p ∈ s.manage.queue ∨ (s.manage.node p).userID ∉ s.waiting) :
    ∃ s', s.removeNode p = some s' ∧ Moves opt [(s.manage.node p).userID] s s' ∧ SameSeats s s' ∧
      (s.manage.node p).userID ∉ s'.waiting := by
  by_cases hmem : p ∈ s.manage.queue
  · obtain ⟨m, heq, hwm, hqueue, hnode, -⟩ := hw.removeNode hmem
    have hsub : m.queue.Sublist s.manage.queue := by
      rw [hqueue]
      exact List.erase_sublist
    have hgone : p ∉ m.queue := by
      rw [hqueue]
      exact hw.nodup.not_mem_erase
    have hremove : s.removeNode p =
        some (emit { s with manage := m } (.remove (s.manage.node p).userID p)) := by
      rw [removeNode, heq, Option.map_some]
      exact congrArg some (if_pos hmem)
    have hquiet : ∀ e ∈ s.events ++ [.remove (s.manage.node p).userID p],
        e ∈ s.events ∨ ∃ u p, e = SeatEvent.remove u p := fun e he =>
      (List.mem_append.1 he).imp_right fun h => ⟨_, _, List.mem_singleton.1 h⟩
    refine ⟨_, hremove, ?_, ⟨rfl, rfl, rfl, hquiet⟩,
      notMem_waiting_of_node hw hmem hnode hsub hgone⟩
    exact
      { waiting := hwm
        node := hnode
        sub := hsub
        kept := fun v hv hn => by
          obtain ⟨q, hq, rfl⟩ := mem_waiting.1 hv
          refine mem_waiting.2 ⟨q, ?_, by rw [← hnode]; rfl⟩
          change q ∈ m.queue
          rw [hqueue]
          refine (List.mem_erase_of_ne fun heq => hn ?_).2 hq
          rw [heq]
          exact List.mem_singleton_self _
        chairs := fun _ _ _ _ => Iff.rfl
        events := ⟨[.remove (s.manage.node p).userID p], rfl,
          fun e he => by rw [List.mem_singleton.1 he]; exact List.mem_singleton_self _, rfl, by
            change (m.queue ++ [p]).Perm s.manage.queue
            rw [hqueue]
            exact List.perm_append_comm.trans (List.perm_cons_erase hmem).symm⟩
        consistent := fun hc => hc }
  · have hnone : s.manage.searchNode (s.manage.node p).userID = none :=
      searchNode_eq_none.2 (hp.resolve_left hmem)
    have hremove : s.removeNode p = some s := by
      rw [removeNode, removeDistributeNode, hnone, Option.map_some]
      exact congrArg some (if_neg hmem)
    exact ⟨s, hremove, .refl hw _, ⟨rfl, rfl, rfl, fun _ => .inl⟩, hp.resolve_left hmem⟩

/-- **A user is removed**, if he is in the queue. -/
theorem removeDistribute_spec (hw : Waiting s.manage) (opt : SeatOption) (u : ℕ) :
    ∃ s', s.removeDistribute u = some s' ∧ Moves opt [u] s s' ∧ SameSeats s s' ∧
      u ∉ s'.waiting := by
  rw [removeDistribute]
  cases hsearch : s.manage.searchNode u with
  | none =>
    exact ⟨s, rfl, .refl hw _, ⟨rfl, rfl, rfl, fun _ => .inl⟩, searchNode_eq_none.1 hsearch⟩
  | some p =>
    obtain ⟨hp, rfl⟩ := searchNode_eq_some hsearch
    exact removeNode_spec hw opt (.inl hp)

/-! ## Standing up -/

/-- A user would leave his chair if he stood up. -/
def Leaves (s : MatchRoom) (u : ℕ) : Prop :=
  (s.userItem u).wTableID ≠ invalidTable ∧ (s.userItem u).userStatus ≠ .lookon ∧
    ¬s.keepsSeat (s.userItem u).wTableID u ∧
    s.tableUserItem (s.userItem u).wTableID (s.userItem u).wChairID = some u

/-- What the start of a game at a table leaves as it was. -/
structure Starts (t : ℕ) (s s' : MatchRoom) : Prop where
  queue : s'.manage.queue = s.manage.queue
  node : s'.manage.node = s.manage.node
  waiting : Waiting s.manage → Waiting s'.manage
  events : s'.events = s.events
  tableUserItem : s'.tableUserItem = s.tableUserItem
  gameStarted : ∀ t', t' ≠ t → s'.gameStarted t' = s.gameStarted t'
  started : s.gameStarted t = true → s'.gameStarted t = true
  userItem : ∀ v, s'.userItem v = s.userItem v ∨
    s.gameStarted t = false ∧ s'.gameStarted t = true ∧ ∃ c, s.tableUserItem t c = some v

theorem playUsers_spec (t : ℕ) : ∀ (chairs : List ℕ) (s : MatchRoom),
    ∃ f, playUsers t chairs s = { s with userItem := f } ∧
      ∀ v, f v = s.userItem v ∨ ∃ c, s.tableUserItem t c = some v
  | [], s => ⟨s.userItem, rfl, fun _ => .inl rfl⟩
  | c :: chairs, s => by
    rw [playUsers]
    cases hc : s.tableUserItem t c with
    | none => exact playUsers_spec t chairs s
    | some u =>
      simp only
      split
      · exact playUsers_spec t chairs s
      · obtain ⟨f, heq, hf⟩ := playUsers_spec t chairs { s with
          userItem := update s.userItem u
            { s.userItem u with userStatus := .playing, wTableID := t, wChairID := c } }
        refine ⟨f, heq, fun v => ?_⟩
        by_cases hv : v = u
        · exact .inr ⟨c, hv ▸ hc⟩
        · refine (hf v).imp_left fun h => h.trans ?_
          exact update_of_ne hv ..

theorem nextGame_spec (opt : SeatOption) (given : Given) (s : MatchRoom) (t : ℕ) :
    Starts t s (s.nextGame opt given t) := by
  rw [nextGame]
  split
  · next h =>
    obtain ⟨f, heq, hf⟩ := playUsers_spec t (List.range opt.wChairCount)
      { s with gameStarted := update s.gameStarted t true }
    rw [startGame, heq]
    exact
      { queue := rfl, node := rfl, waiting := fun hw => { hw with }, events := rfl
        tableUserItem := rfl, gameStarted := fun t' ht' => update_of_ne ht' ..
        started := fun _ => update_self ..
        userItem := fun v => (hf v).imp_right fun hc => ⟨h.1, update_self .., hc⟩ }
  · exact ⟨rfl, rfl, id, rfl, rfl, fun _ _ => rfl, id, fun _ => .inl rfl⟩

/-- Who has a chair at a table without a game stays consistent when a game
starts elsewhere. -/
theorem Starts.consistent (h : Starts t s s') (hc : Consistent opt s) : Consistent opt s' := by
  intro t' c' v hv
  rw [h.tableUserItem] at hv
  refine ⟨(hc t' c' v hv).1, fun hstarted => ?_⟩
  have hbefore : s.gameStarted t' = false := by
    by_cases ht : t' = t
    · subst ht
      by_contra hne
      rw [h.started (Bool.eq_true_of_not_eq_false hne)] at hstarted
      cases hstarted
    · rwa [h.gameStarted t' ht] at hstarted
  obtain ⟨hvalid, htable, hchair, hstatus⟩ := (hc t' c' v hv).2 hbefore
  rcases h.userItem v with heq | ⟨hf, ht, c, hoccupied⟩
  · rw [heq]
    exact ⟨hvalid, htable, hchair, hstatus⟩
  · -- he sits at the table that starts, and only there
    obtain ⟨-, htable', -⟩ := (hc t c v hoccupied).2 hf
    rw [htable'] at htable
    rw [htable, hstarted] at ht
    cases ht

/-- **A drawn user stands up**, or stays where he is. -/
structure Stands (opt : SeatOption) (u : ℕ) (s s' : MatchRoom) : Prop
    extends Moves opt [u] s s' where
  mono : ∀ t c v, s'.tableUserItem t c = some v → s.tableUserItem t c = some v
  quiet : ∀ e ∈ s'.events, e ∈ s.events ∨ ∃ u p, e = .remove u p
  free : Consistent opt s → ∀ t c, s'.tableUserItem t c = some u → s'.gameStarted t = true
  others : Consistent opt s → ∀ v, v ≠ u →
    (Leaves s u → (s.userItem v).wTableID ≠ (s.userItem u).wTableID) →
    s'.userItem v = s.userItem v
  stays : ¬Leaves s u → s'.manage = s.manage ∧ s'.events = s.events ∧
    s'.tableUserItem = s.tableUserItem ∧ s'.gameStarted = s.gameStarted
  leaves : Leaves s u → u ∉ s'.waiting ∧
    s'.tableUserItem (s.userItem u).wTableID (s.userItem u).wChairID ≠ some u

theorem Stands.of_stays (hw : Waiting s.manage) (hl : ¬Leaves s u)
    (hfree : Consistent opt s → ∀ t c, s.tableUserItem t c = some u → s.gameStarted t = true) :
    Stands opt u s s :=
  { Moves.refl hw [u] with
    mono := fun _ _ _ h => h
    quiet := fun _ => .inl
    free := hfree
    others := fun _ _ _ _ => rfl
    stays := fun _ => ⟨rfl, rfl, rfl, rfl⟩
    leaves := fun h => absurd h hl }

/-- One who looks on has no chair to leave. -/
theorem Stands.of_lookon (hw : Waiting s.manage) (h : (s.userItem u).userStatus = .lookon) :
    Stands opt u s (s.freeUser u) := by
  have hl : ¬Leaves s u := fun hl => hl.2.1 h
  have hchair : Consistent opt s →
      ∀ t c, s.tableUserItem t c = some u → s.gameStarted t = true := by
    intro hc t c hu
    by_contra hne
    exact ((hc t c u hu).2 (Bool.eq_false_of_not_eq_true hne)).2.2.2 h
  have hmoves : Moves opt [u] s (s.freeUser u) := by
    refine .of_same hw rfl rfl (fun _ _ _ _ => Iff.rfl) fun hc t c v hv =>
      ⟨(hc t c v hv).1, fun hstarted => ?_⟩
    have hne : v ≠ u := fun heq => by
      have hplays := hchair hc t c (heq ▸ hv)
      rw [show s.gameStarted t = false from hstarted] at hplays
      cases hplays
    rw [show (s.freeUser u).userItem v = s.userItem v from update_of_ne hne ..]
    exact (hc t c v hv).2 hstarted
  exact
    { hmoves with
      mono := fun _ _ _ h => h
      quiet := fun _ => .inl
      free := hchair
      others := fun _ v hv _ => update_of_ne hv ..
      stays := fun _ => ⟨rfl, rfl, rfl, rfl⟩
      leaves := fun h => absurd h hl }

theorem tableUserItem_leaveChair (s : MatchRoom) (u t c : ℕ) :
    (s.leaveChair (s.userItem u).wTableID u).tableUserItem t c =
      if t = (s.userItem u).wTableID ∧ c = (s.userItem u).wChairID then none
      else s.tableUserItem t c := by
  rw [leaveChair]
  by_cases ht : t = (s.userItem u).wTableID
  · subst ht
    by_cases hc : c = (s.userItem u).wChairID
    · subst hc
      simp
    · simp [hc]
  · simp [ht]

/-- **A user leaves** the queue with his chair, and the table may start its
next game. -/
theorem Stands.of_leaves (hw : Waiting s.manage) (hl : Leaves s u) (opt : SeatOption)
    (given : Given) :
    ∃ s₂, (s.leaveChair (s.userItem u).wTableID u).removeDistribute u = some s₂ ∧
      Stands opt u s ((s₂.freeUser u).nextGame opt given (s.userItem u).wTableID) := by
  have hmine : s.tableUserItem (s.userItem u).wTableID (s.userItem u).wChairID = some u :=
    hl.2.2.2
  have hw₁ : Waiting (s.leaveChair (s.userItem u).wTableID u).manage := hw
  obtain ⟨s₂, heq, hmoves, hseats, hgone⟩ := removeDistribute_spec hw₁ opt u
  refine ⟨s₂, heq, ?_⟩
  have hstarts := nextGame_spec opt given (s₂.freeUser u) (s.userItem u).wTableID
  generalize hs₄ : (s₂.freeUser u).nextGame opt given (s.userItem u).wTableID = s₄ at hstarts ⊢
  have hchairs : ∀ t c, s₄.tableUserItem t c =
      if t = (s.userItem u).wTableID ∧ c = (s.userItem u).wChairID then none
      else s.tableUserItem t c := fun t c => by
    rw [hstarts.tableUserItem, show (s₂.freeUser u).tableUserItem = s₂.tableUserItem from rfl,
      hseats.tableUserItem, tableUserItem_leaveChair]
  have hstarted : (s₂.freeUser u).gameStarted = s.gameStarted := hseats.gameStarted
  have hmono : ∀ t c v, s₄.tableUserItem t c = some v → s.tableUserItem t c = some v := by
    intro t c v hv
    rw [hchairs] at hv
    split at hv
    · cases hv
    · exact hv
  have hsee : ∀ v ≠ u, (s₂.freeUser u).userItem v = s.userItem v := fun v hv =>
    (update_of_ne hv ..).trans (congrFun hseats.userItem v)
  have hother : ∀ t c, s₄.tableUserItem t c = some u → Consistent opt s →
      s.gameStarted t = true := by
    intro t c hu hc
    by_contra hne
    obtain ⟨-, htable, hchair, -⟩ :=
      (hc t c u (hmono t c u hu)).2 (Bool.eq_false_of_not_eq_true hne)
    rw [hchairs, if_pos ⟨htable.symm, hchair.symm⟩] at hu
    cases hu
  have hwaiting : s₄.waiting = s₂.waiting := by
    rw [MatchRoom.waiting, MatchRoom.waiting, infos, infos, hstarts.queue, hstarts.node]
    rfl
  have hfreed : Consistent opt s → Consistent opt (s₂.freeUser u) := by
    intro hc t c v hv
    have hv' : s₄.tableUserItem t c = some v :=
      (congrFun (congrFun hstarts.tableUserItem t) c).trans hv
    refine ⟨(hc t c v (hmono t c v hv')).1, fun hfalse => ?_⟩
    rw [hstarted] at hfalse
    have hne : v ≠ u := fun heq => by
      have hplays := hother t c (heq ▸ hv') hc
      rw [hfalse] at hplays
      cases hplays
    rw [hsee v hne]
    exact (hc t c v (hmono t c v hv')).2 hfalse
  have hmoves' : Moves opt [u] s s₄ :=
    { waiting := hstarts.waiting hmoves.waiting
      node := hstarts.node.trans hmoves.node
      sub := by
        rw [hstarts.queue]
        exact hmoves.sub
      kept := fun v hv hn => by
        rw [hwaiting]
        exact hmoves.kept v hv hn
      chairs := fun v hn t c => by
        refine ⟨hmono t c v, fun hv => ?_⟩
        rw [hchairs, if_neg ?_]
        · exact hv
        · rintro ⟨rfl, rfl⟩
          rw [hmine] at hv
          exact hn (List.mem_singleton.2 (Option.some.inj hv).symm)
      events := by
        obtain ⟨new, hevents, hnew, hremoved, hperm⟩ := hmoves.events
        exact ⟨new, hstarts.events.trans hevents, hnew, hremoved, by
          rw [hstarts.queue]
          exact hperm⟩
      consistent := fun hc => hstarts.consistent (hfreed hc) }
  exact
    { hmoves' with
      mono := hmono
      quiet := fun e he => hseats.quiet e (hstarts.events ▸ he)
      free := fun hc t c hu => by
        have hplays := hother t c hu hc
        by_cases ht : t = (s.userItem u).wTableID
        · rw [ht] at hplays ⊢
          exact hstarts.started (by rwa [hstarted])
        · rwa [hstarts.gameStarted t ht, hstarted]
      others := fun hc v hv htable => by
        rcases hstarts.userItem v with heq | ⟨hfalse, -, c, hoccupied⟩
        · exact heq.trans (hsee v hv)
        · rw [hstarted] at hfalse
          have hbefore : s.tableUserItem (s.userItem u).wTableID c = some v :=
            hmono _ _ _ ((congrFun (congrFun hstarts.tableUserItem _) c).trans hoccupied)
          exact absurd ((hc _ c v hbefore).2 hfalse).2.1 (htable hl)
      stays := fun h => absurd hl h
      leaves := fun _ => ⟨by rwa [hwaiting], by rw [hchairs, if_pos ⟨rfl, rfl⟩]; simp⟩ }

/-- **Standing up** of a drawn user. -/
theorem standUp_spec (hw : Waiting s.manage) (opt : SeatOption) (given : Given) (u : ℕ) :
    ∃ s', s.standUp opt given u = some s' ∧ Stands opt u s s' := by
  rw [standUp]
  by_cases htable : (s.userItem u).wTableID ≠ invalidTable
  · rw [if_pos htable, performStandUpAction]
    by_cases hlookon : (s.userItem u).userStatus = .lookon
    · rw [if_pos hlookon]
      exact ⟨_, rfl, .of_lookon hw hlookon⟩
    · rw [if_neg hlookon]
      by_cases hkeeps : s.keepsSeat (s.userItem u).wTableID u
      · rw [if_pos hkeeps]
        refine ⟨s, rfl, .of_stays hw (fun hl => hl.2.2.1 hkeeps) fun hc t c hu => ?_⟩
        by_contra hne
        obtain ⟨-, rfl, -⟩ := (hc t c u hu).2 (Bool.eq_false_of_not_eq_true hne)
        exact hne hkeeps.1
      · rw [if_neg hkeeps]
        by_cases hchair : s.tableUserItem (s.userItem u).wTableID (s.userItem u).wChairID = some u
        · rw [if_pos hchair]
          obtain ⟨s₂, heq, hstands⟩ :=
            Stands.of_leaves hw ⟨htable, hlookon, hkeeps, hchair⟩ opt given
          rw [heq]
          exact ⟨_, rfl, hstands⟩
        · rw [if_neg hchair]
          refine ⟨s, rfl, .of_stays hw (fun hl => hchair hl.2.2.2) fun hc t c hu => ?_⟩
          by_contra hne
          obtain ⟨-, rfl, rfl, -⟩ := (hc t c u hu).2 (Bool.eq_false_of_not_eq_true hne)
          exact hchair hu
  · rw [if_neg htable]
    refine ⟨s, rfl, .of_stays hw (fun hl => htable hl.1) fun hc t c hu => ?_⟩
    by_contra hne
    obtain ⟨hvalid, rfl, -⟩ := (hc t c u hu).2 (Bool.eq_false_of_not_eq_true hne)
    exact htable hvalid

/-! ## Sitting down -/

/-- Some users have the first chairs of a table, and the other chairs are
empty. -/
def SeatedAt (opt : SeatOption) (s : MatchRoom) (t : ℕ) (l : List ℕ) : Prop :=
  ∀ c < opt.wChairCount, s.tableUserItem t c = l[c]?

/-- Some users are ready at the first chairs of a table. -/
def ReadyAt (s : MatchRoom) (t : ℕ) (l : List ℕ) : Prop :=
  ∀ c u, l[c]? = some u → (s.userItem u).userStatus = .ready ∧ (s.userItem u).wTableID = t ∧
    (s.userItem u).wChairID = c

variable {pre l : List ℕ} {info : DistributeInfo} {drawn front : List DistributeInfo}

theorem SeatedAt.getNullChairID (h : SeatedAt opt s t l) (hlt : l.length < opt.wChairCount) :
    s.getNullChairID opt t = some l.length := by
  rw [MatchRoom.getNullChairID, List.find?_range_eq_some]
  refine ⟨?_, List.mem_range.2 hlt, fun c hc => ?_⟩
  · simp [h _ hlt]
  · have hsome : s.tableUserItem t c = some l[c] := by
      rw [h c (Nat.lt_trans hc hlt), List.getElem?_eq_getElem hc]
    simp [hsome]

/-- One who stands up elsewhere leaves the seats of others. -/
theorem SeatedAt.stands (h : SeatedAt opt s t l) (hu : u ∉ l) (hs : Stands opt u s s') :
    SeatedAt opt s' t l := by
  intro c hc
  have hbefore := h c hc
  cases hl : l[c]? with
  | some v =>
    rw [hl] at hbefore
    have hv : v ∉ [u] := fun hmem => hu (List.mem_singleton.1 hmem ▸ List.mem_of_getElem? hl)
    exact (hs.chairs v hv t c).2 hbefore
  | none =>
    rw [hl] at hbefore
    cases hv : s'.tableUserItem t c with
    | none => rfl
    | some v =>
      rw [hs.mono t c v hv] at hbefore
      cases hbefore

/-- Nobody else at a table is ready without a chair there. -/
theorem ReadyAt.stands (h : ReadyAt s t l) (hseated : SeatedAt opt s t l)
    (hc : Consistent opt s) (hu : u ∉ l) (hs : Stands opt u s s') : ReadyAt s' t l := by
  intro c v hv
  have hmem : v ∈ l := List.mem_of_getElem? hv
  have hne : v ≠ u := ne_of_mem_of_not_mem hmem hu
  obtain ⟨hstatus, htable, hchair⟩ := h c v hv
  have hitem : s'.userItem v = s.userItem v := by
    refine hs.others hc v hne fun hl heq => ?_
    rw [htable] at heq
    have hmine := hl.2.2.2
    rw [← heq, hseated _ (hc _ _ _ hmine).1] at hmine
    exact hu (List.mem_of_getElem? hmine)
  rw [hitem]
  exact ⟨hstatus, htable, hchair⟩

/-- **A user sits down** at the next chair of a table, or is refused. -/
theorem performSitDownAction_spec (hw : Waiting s.manage) (given : Given)
    (hseated : SeatedAt opt s t l) (hlt : l.length < opt.wChairCount) (hvalid : t ≠ invalidTable)
    (hfree : ∀ t c, s.tableUserItem t c = some u → s.gameStarted t = true) (hu : u ∉ l) :
    s.performSitDownAction opt given t l.length u = none ∨
      ∃ s', s.performSitDownAction opt given t l.length u = some s' ∧ Moves opt [u] s s' ∧
        s'.manage = s.manage ∧ s'.events = s.events ∧ SeatedAt opt s' t (l ++ [u]) ∧
        (opt.startMode ≠ .timeControl → ReadyAt s t l → ReadyAt s' t (l ++ [u])) := by
  rw [performSitDownAction]
  by_cases hrefused : given.refused s u t l.length
  · exact .inl (if_pos hrefused)
  have hempty : s.tableUserItem t l.length = none := by
    rw [hseated _ hlt]
    simp
  right
  rw [if_neg hrefused, if_neg (by simp [hempty])]
  refine ⟨_, rfl, .of_same hw rfl rfl ?_ ?_, rfl, rfl, ?_, ?_⟩
  · intro v hv t' c'
    by_cases ht : t' = t
    · subst ht
      by_cases hc : c' = l.length
      · subst hc
        have hne : u ≠ v := fun heq => hv (List.mem_singleton.2 heq.symm)
        simp [hempty, hne]
      · simp [hc]
    · simp [ht]
  · intro hc t' c' v hv
    by_cases ht : t' = t
    · subst ht
      by_cases hcc : c' = l.length
      · subst hcc
        simp only [update_self, Option.some.injEq] at hv
        subst hv
        refine ⟨hlt, fun _ => ⟨hvalid, by simp, by simp, ?_⟩⟩
        simp only [update_self]
        split
        · nofun
        · nofun
      · simp only [update_self, update_of_ne hcc] at hv
        refine ⟨(hc _ _ _ hv).1, fun hfalse => ?_⟩
        have hne : v ≠ u := fun heq => by
          rw [heq] at hv
          rw [hfree _ _ hv] at hfalse
          cases hfalse
        simp only [update_of_ne hne]
        exact (hc _ _ _ hv).2 hfalse
    · simp only [update_of_ne ht] at hv
      refine ⟨(hc _ _ _ hv).1, fun hfalse => ?_⟩
      have hne : v ≠ u := fun heq => by
        rw [heq] at hv
        rw [hfree _ _ hv] at hfalse
        cases hfalse
      simp only [update_of_ne hne]
      exact (hc _ _ _ hv).2 hfalse
  · intro c hc
    by_cases hcl : c = l.length
    · subst hcl
      simp
    · simp only [update_self, update_of_ne hcl]
      rw [hseated c hc]
      rcases Nat.lt_or_ge c l.length with hlt' | hge
      · rw [List.getElem?_append_left hlt']
      · rw [List.getElem?_eq_none hge, List.getElem?_eq_none (by
          simp only [List.length_append, List.length_singleton]
          omega)]
  · intro hmode hready c v hv
    rcases Nat.lt_or_ge c l.length with hlt' | hge
    · rw [List.getElem?_append_left hlt'] at hv
      have hne : v ≠ u := ne_of_mem_of_not_mem (List.mem_of_getElem? hv) hu
      simp only [update_of_ne hne]
      exact hready c v hv
    · rw [List.getElem?_append_right hge] at hv
      have hc : c = l.length := by
        by_contra hne
        rw [List.getElem?_eq_none (by simp only [List.length_singleton]; omega)] at hv
        cases hv
      subst hc
      simp only [Nat.sub_self, List.getElem?_cons_zero, Option.some.injEq] at hv
      subst hv
      simp [hmode]

/-- What the seating of some drawn users comes to: those of `front` sit
behind those who have been seated before, and `refused` is the one who may
not, if there is one. -/
structure Sits (opt : SeatOption) (t : ℕ) (pre : List ℕ) (drawn front : List DistributeInfo)
    (refused : Option ℕ) (s s' : MatchRoom) : Prop
    extends Moves opt (users drawn) s s' where
  seated : SeatedAt opt s' t (pre ++ users front)
  seats : ∀ i u, (users front)[i]? = some u → .seat u t (pre.length + i) ∈ s'.events
  seat_of : ∀ u t' c, .seat u t' c ∈ s'.events → .seat u t' c ∈ s.events ∨
    t' = t ∧ ∃ i, (users front)[i]? = some u ∧ c = pre.length + i
  refuse_iff : ∀ u, .refuse u ∈ s'.events ↔ .refuse u ∈ s.events ∨ refused = some u
  ready : opt.startMode ≠ .timeControl → ReadyAt s t pre → ReadyAt s' t (pre ++ users front)

/-- A note of what has happened to one of the users. -/
theorem Moves.emit (h : Moves opt us s s') {e : SeatEvent} (he : eventUser e ∈ us)
    (hnode : removedNodes [e] = []) (huser : removedUsers [e] = []) :
    Moves opt us s (s'.emit e) := by
  obtain ⟨new, heq, hnew, husers, hperm⟩ := h.events
  exact
    { h with
      events := ⟨new ++ [e], by rw [MatchRoom.emit, heq, List.append_assoc], by
        intro e' he'
        rcases List.mem_append.1 he' with he' | he'
        · exact hnew e' he'
        · rwa [List.mem_singleton.1 he'], by
        rw [removedUsers_append, removedNodes_append, hnode, huser, List.append_nil,
          List.append_nil, husers], by
        rwa [removedNodes_append, hnode, List.append_nil]⟩
      consistent := h.consistent }

theorem Sits.nil (hw : Waiting s.manage) (hseated : SeatedAt opt s t pre) :
    Sits opt t pre [] [] none s s :=
  { Moves.refl hw _ with
    seated := by rwa [show users [] = [] from rfl, List.append_nil]
    seats := nofun
    seat_of := fun _ _ _ h => .inl h
    refuse_iff := by simp
    ready := fun _ h => by rwa [show users [] = [] from rfl, List.append_nil] }

/-- One seating follows another. -/
theorem Sits.append {drawn' front' : List DistributeInfo} {refused : Option ℕ}
    (h : Sits opt t pre drawn front none s s')
    (h' : Sits opt t (pre ++ users front) drawn' front' refused s' s'') :
    Sits opt t pre (drawn ++ drawn') (front ++ front') refused s s'' := by
  have husers : ∀ d d' : List DistributeInfo, users (d ++ d') = users d ++ users d' := fun _ _ =>
    List.map_append
  have hl : ∀ v ∈ users drawn, v ∈ users (drawn ++ drawn') := fun v hv => by
    rw [husers]
    exact List.mem_append_left _ hv
  have hr : ∀ v ∈ users drawn', v ∈ users (drawn ++ drawn') := fun v hv => by
    rw [husers]
    exact List.mem_append_right _ hv
  have hlist : pre ++ users (front ++ front') = pre ++ users front ++ users front' := by
    rw [husers, List.append_assoc]
  have hmoves := (h.toMoves.mono hl).trans (h'.toMoves.mono hr)
  exact
    { hmoves with
      seated := by
        rw [hlist]
        exact h'.seated
      seats := fun i u hi => by
        rw [husers] at hi
        rcases Nat.lt_or_ge i (users front).length with hlt | hge
        · rw [List.getElem?_append_left hlt] at hi
          exact h'.mem_events (h.seats i u hi)
        · rw [List.getElem?_append_right hge] at hi
          have hmem := h'.seats _ u hi
          rwa [List.length_append, Nat.add_assoc, Nat.add_sub_cancel' hge] at hmem
      seat_of := fun u t' c he => by
        rcases h'.seat_of u t' c he with he | ⟨ht, i, hi, hc⟩
        · refine (h.seat_of u t' c he).imp_right fun ⟨ht, i, hi, hc⟩ => ⟨ht, i, ?_, hc⟩
          rw [husers, List.getElem?_append_left (List.getElem?_eq_some_iff.1 hi).1]
          exact hi
        · refine .inr ⟨ht, (users front).length + i, ?_, ?_⟩
          · rw [husers, List.getElem?_append_right (Nat.le_add_right _ _), Nat.add_sub_cancel_left]
            exact hi
          · rw [hc, List.length_append, Nat.add_assoc]
      refuse_iff := fun u => by
        rw [h'.refuse_iff, h.refuse_iff]
        simp
      ready := fun hmode hready => by
        rw [hlist]
        exact h'.ready hmode (h.ready hmode hready) }

/-- **The drawn users sit down** one behind the other, up to the first who
may not. -/
theorem sitDowns_spec (opt : SeatOption) (given : Given) (hvalid : t ≠ invalidTable) :
    ∀ (drawn : List DistributeInfo) (pre : List ℕ) (s : MatchRoom), Waiting s.manage →
      Consistent opt s → SeatedAt opt s t pre → (pre ++ users drawn).Nodup →
      (pre ++ users drawn).length ≤ opt.wChairCount →
      (∃ s', s.sitDowns opt given t pre.length drawn = some (s', none) ∧
        Sits opt t pre drawn drawn none s s') ∨
      ∃ front info back s', drawn = front ++ info :: back ∧
        s.sitDowns opt given t pre.length drawn = some (s', some (pre.length + front.length)) ∧
        Sits opt t pre (front ++ [info]) front (some info.userID) s s' := by
  intro drawn
  induction drawn with
  | nil => exact fun pre s hw _ hseated _ _ => .inl ⟨s, rfl, .nil hw hseated⟩
  | cons info drawn ih =>
    intro pre s hw hc hseated hnodup hlength
    have husers : users (info :: drawn) = info.userID :: users drawn := rfl
    have happend : pre ++ users (info :: drawn) = (pre ++ [info.userID]) ++ users drawn := by
      rw [husers, List.append_assoc]
      rfl
    have hu : info.userID ∉ pre := fun hmem =>
      List.disjoint_of_nodup_append hnodup hmem List.mem_cons_self
    have hlt : pre.length < opt.wChairCount := by
      rw [husers, List.length_append, List.length_cons] at hlength
      omega
    rw [sitDowns, hseated.getNullChairID hlt]
    obtain ⟨s₁, hstand, hs⟩ := standUp_spec hw opt given info.userID
    simp only [hstand]
    have hseated₁ := hseated.stands hu hs
    have hreadyStand : ReadyAt s t pre → ReadyAt s₁ t pre := fun h => h.stands hseated hc hu hs
    rcases performSitDownAction_spec hs.waiting given hseated₁ hlt hvalid (hs.free hc) hu with
      hrefuse | ⟨s₂, hsit, hmoves, hmanage, hevents, hseated₂, hready⟩
    · right
      rw [hrefuse]
      refine ⟨[], info, drawn, _, rfl, rfl, ?_⟩
      have hmoves : Moves opt (users [info]) s (s₁.emit (.refuse info.userID)) :=
        hs.toMoves.emit List.mem_cons_self rfl rfl
      exact
        { hmoves with
          seated := by rwa [show users [] = [] from rfl, List.append_nil]
          seats := nofun
          seat_of := fun u t' c he => by
            rcases List.mem_append.1 he with he | he
            · rcases hs.quiet _ he with he | ⟨v, p, heq⟩
              · exact .inl he
              · cases heq
            · cases List.mem_singleton.1 he
          refuse_iff := fun u => by
            constructor
            · intro he
              rcases List.mem_append.1 he with he | he
              · rcases hs.quiet _ he with he | ⟨v, p, heq⟩
                · exact .inl he
                · cases heq
              · cases List.mem_singleton.1 he
                exact .inr rfl
            · rintro (he | he)
              · exact List.mem_append_left _ (hs.mem_events he)
              · cases he
                exact List.mem_append_right _ (List.mem_singleton_self _)
          ready := fun _ h => by
            rw [show users [] = [] from rfl, List.append_nil]
            exact hreadyStand h }
    · rw [hsit]
      simp only
      have hfirst : Sits opt t pre [info] [info] none s
          (s₂.emit (.seat info.userID t pre.length)) :=
        { (hs.toMoves.trans hmoves).emit List.mem_cons_self rfl rfl with
          seated := hseated₂
          seats := fun i u hi => by
            obtain ⟨rfl, rfl⟩ : i = 0 ∧ info.userID = u := by
              cases i with
              | zero => exact ⟨rfl, Option.some.inj hi⟩
              | succ i => cases hi
            exact List.mem_append_right _ (List.mem_singleton_self _)
          seat_of := fun u t' c he => by
            rcases List.mem_append.1 he with he | he
            · rw [hevents] at he
              rcases hs.quiet _ he with he | ⟨v, p, heq⟩
              · exact .inl he
              · cases heq
            · cases List.mem_singleton.1 he
              exact .inr ⟨rfl, 0, rfl, rfl⟩
          refuse_iff := fun u => by
            constructor
            · intro he
              rcases List.mem_append.1 he with he | he
              · rw [hevents] at he
                rcases hs.quiet _ he with he | ⟨v, p, heq⟩
                · exact .inl he
                · cases heq
              · cases List.mem_singleton.1 he
            · rintro (he | he)
              · exact List.mem_append_left _ (hevents ▸ hs.mem_events he)
              · cases he
          ready := fun hmode h => hready hmode (hreadyStand h) }
      rw [happend] at hnodup hlength
      have hindex : pre.length + 1 = (pre ++ [info.userID]).length := by simp
      rw [hindex]
      rcases ih (pre ++ [info.userID]) _ hfirst.waiting (hfirst.consistent hc) hseated₂ hnodup
          hlength with ⟨s₃, hrec, hsits⟩ | ⟨front, last, back, s₃, rfl, hrec, hsits⟩
      · exact .inl ⟨s₃, hrec, hfirst.append hsits⟩
      · refine .inr ⟨info :: front, last, back, s₃, rfl, ?_, hfirst.append hsits⟩
        rw [hrec, ← hindex, List.length_cons]
        congr 3
        omega

end MatchRoom

end GameServer.MatchService
