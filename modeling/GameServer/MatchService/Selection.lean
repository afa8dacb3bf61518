import GameServer.MatchService.Seating
/-!
# MatchService — the selections of a timed match

A selection either seats all whom it has drawn, and takes them out of the
queue, or one of them is refused; then the others who are at a table stand
up, and standing up takes them out of the queue as well. So nobody is lost
as long as, in each selection that fails, none of the others would leave a
table (`MatchRoom.performDistribute_sound`).
-/

namespace GameServer.MatchService

open Function GameService DistributeManage Relation

namespace MatchRoom

variable {opt : SeatOption} {given : Given} {s s' s'' : MatchRoom} {us us' : List ℕ} {u v t c k : ℕ}
variable {info : DistributeInfo} {drawn front back : List DistributeInfo}

/-! ## Behind a success -/

/-- The data of a drawn user name his node, which has gone where he waits
no longer. -/
def Pertains (s : MatchRoom) (info : DistributeInfo) : Prop :=
  ∃ p, info.pPertainNode = some p ∧ (s.manage.node p).userID = info.userID ∧
    (p ∈ s.manage.queue ∨ info.userID ∉ s.waiting)

theorem Pertains.moves (h : Pertains s info) (hw : Waiting s.manage) (hm : Moves opt us s s') :
    Pertains s' info := by
  obtain ⟨p, hp, huser, hplace⟩ := h
  refine ⟨p, hp, by rw [hm.node, huser], ?_⟩
  rcases hplace with hmem | hgone
  · by_cases hmem' : p ∈ s'.manage.queue
    · exact .inl hmem'
    · right
      rw [← huser]
      exact notMem_waiting_of_node hw hmem hm.node hm.sub hmem'
  · exact .inr fun h => hgone (hm.waiting_subset h)

/-- **The node of a drawn user is removed.** -/
theorem removePertain_spec (hw : Waiting s.manage) (opt : SeatOption) (h : Pertains s info) :
    ∃ s', s.removePertain info = some s' ∧ Moves opt [info.userID] s s' ∧ SameSeats s s' ∧
      info.userID ∉ s'.waiting := by
  obtain ⟨p, hp, huser, hplace⟩ := h
  rw [← huser] at hplace ⊢
  rw [removePertain, hp]
  exact removeNode_spec hw opt hplace

theorem SameSeats.trans (h : SameSeats s s') (h' : SameSeats s' s'') : SameSeats s s'' where
  tableUserItem := h'.tableUserItem.trans h.tableUserItem
  userItem := h'.userItem.trans h.userItem
  gameStarted := h'.gameStarted.trans h.gameStarted
  quiet := fun e he => (h'.quiet e he).elim (h.quiet e) .inr

/-- **All the drawn users are removed.** -/
theorem removeDrawn_spec (opt : SeatOption) : ∀ (drawn : List DistributeInfo) (s : MatchRoom),
    Waiting s.manage → (∀ info ∈ drawn, Pertains s info) →
    ∃ s', s.removeDrawn drawn = some s' ∧ Moves opt (users drawn) s s' ∧ SameSeats s s' ∧
      ∀ u ∈ users drawn, u ∉ s'.waiting := by
  intro drawn
  induction drawn with
  | nil => exact fun s hw _ => ⟨s, rfl, .refl hw _, ⟨rfl, rfl, rfl, fun _ => .inl⟩, nofun⟩
  | cons info drawn ih =>
    intro s hw hp
    obtain ⟨s₁, heq, hm, hsame, hgone⟩ := removePertain_spec hw opt (hp info List.mem_cons_self)
    obtain ⟨s₂, heq', hm', hsame', hgone'⟩ := ih s₁ hm.waiting fun i hi =>
      (hp i (List.mem_cons_of_mem _ hi)).moves hw hm
    have hfirst : ∀ v ∈ [info.userID], v ∈ users (info :: drawn) := fun v hv => by
      rw [List.mem_singleton.1 hv]
      exact List.mem_cons_self
    have hrest : ∀ v ∈ users drawn, v ∈ users (info :: drawn) := fun v hv =>
      List.mem_cons_of_mem _ hv
    refine ⟨s₂, ?_, (hm.mono hfirst).trans (hm'.mono hrest), hsame.trans hsame', fun u hu => ?_⟩
    · rw [removeDrawn, heq]
      exact heq'
    · rcases List.mem_cons.1 hu with rfl | hu
      · exact fun h => hgone (hm'.waiting_subset h)
      · exact hgone' u hu

/-! ## Behind a failure -/

/-- The chairs of a user's own data are all that decide whether he leaves
one. -/
theorem leaves_congr (huser : s'.userItem u = s.userItem u)
    (htable : s'.tableUserItem = s.tableUserItem) (hstarted : s'.gameStarted = s.gameStarted) :
    Leaves s' u ↔ Leaves s u := by
  rw [Leaves, Leaves, keepsSeat, keepsSeat, huser, htable, hstarted]

/-- **Some users stand up** one after the other. -/
structure StandsAll (opt : SeatOption) (us : List ℕ) (s s' : MatchRoom) : Prop
    extends Moves opt us s s' where
  mono : ∀ t c v, s'.tableUserItem t c = some v → s.tableUserItem t c = some v
  quiet : ∀ e ∈ s'.events, e ∈ s.events ∨ ∃ u p, e = .remove u p
  stays : (∀ u ∈ us, ¬Leaves s u) → s'.manage = s.manage ∧ s'.events = s.events ∧
    s'.tableUserItem = s.tableUserItem ∧ s'.gameStarted = s.gameStarted ∧
    ∀ v ∉ us, s'.userItem v = s.userItem v
  lost : (∃ u ∈ us, Leaves s u) → ∃ u ∈ us, Leaves s u ∧ u ∉ s'.waiting ∧
    s'.tableUserItem (s.userItem u).wTableID (s.userItem u).wChairID ≠ some u

theorem StandsAll.nil (hw : Waiting s.manage) : StandsAll opt [] s s :=
  { Moves.refl hw [] with
    mono := fun _ _ _ h => h
    quiet := fun _ => .inl
    stays := fun _ => ⟨rfl, rfl, rfl, rfl, fun _ _ => rfl⟩
    lost := nofun }

theorem StandsAll.cons (hc : Consistent opt s) (hu : u ∉ us) (h : Stands opt u s s')
    (h' : StandsAll opt us s' s'') : StandsAll opt (u :: us) s s'' := by
  have hfirst : ∀ v ∈ [u], v ∈ u :: us := fun v hv => by
    rw [List.mem_singleton.1 hv]
    exact List.mem_cons_self
  have hmoves := (h.toMoves.mono hfirst).trans
    (h'.toMoves.mono fun v hv => List.mem_cons_of_mem u hv)
  -- one who stays changes only his own data
  have hkeep : ¬Leaves s u → ∀ v, v ≠ u → s'.userItem v = s.userItem v ∧
      (Leaves s' v ↔ Leaves s v) := by
    intro hl v hv
    obtain ⟨-, -, htable, hstarted⟩ := h.stays hl
    have huser := h.others hc v hv fun h => absurd h hl
    exact ⟨huser, leaves_congr huser htable hstarted⟩
  exact
    { hmoves with
      mono := fun t c v hv => h.mono t c v (h'.mono t c v hv)
      quiet := fun e he => (h'.quiet e he).elim (h.quiet e) .inr
      stays := fun hall => by
        have hl := hall u List.mem_cons_self
        obtain ⟨hmanage, hevents, htable, hstarted⟩ := h.stays hl
        obtain ⟨hmanage', hevents', htable', hstarted', huser'⟩ := h'.stays fun v hv => by
          rw [(hkeep hl v (ne_of_mem_of_not_mem hv hu)).2]
          exact hall v (List.mem_cons_of_mem u hv)
        refine ⟨hmanage'.trans hmanage, hevents'.trans hevents, htable'.trans htable,
          hstarted'.trans hstarted, fun v hv => ?_⟩
        rw [List.mem_cons, not_or] at hv
        rw [huser' v hv.2, (hkeep hl v hv.1).1]
      lost := fun hsome => by
        by_cases hl : Leaves s u
        · obtain ⟨hgone, hchair⟩ := h.leaves hl
          exact ⟨u, List.mem_cons_self, hl, fun hmem => hgone (h'.waiting_subset hmem),
            fun hmem => hchair (h'.mono _ _ _ hmem)⟩
        · obtain ⟨v, hv, hlv⟩ := hsome
          rcases List.mem_cons.1 hv with rfl | hv
          · exact absurd hlv hl
          obtain ⟨w, hw, hlw, hgone, hchair⟩ := h'.lost
            ⟨v, hv, (hkeep hl v (ne_of_mem_of_not_mem hv hu)).2.2 hlv⟩
          obtain ⟨huser, hiff⟩ := hkeep hl w (ne_of_mem_of_not_mem hw hu)
          rw [huser] at hchair
          exact ⟨w, List.mem_cons_of_mem u hw, hiff.1 hlw, hgone, hchair⟩ }

/-- **The users other than the refused one stand up.** -/
theorem standUps_others (opt : SeatOption) (given : Given) (k : ℕ) :
    ∀ (drawn : List DistributeInfo) (n : ℕ) (s : MatchRoom), Waiting s.manage → Consistent opt s →
      (users drawn).Nodup → (k < n ∨ n + drawn.length ≤ k) →
      ∃ s', standUps opt given k s n drawn = some s' ∧ StandsAll opt (users drawn) s s' := by
  intro drawn
  induction drawn with
  | nil => exact fun n s hw _ _ _ => ⟨s, rfl, .nil hw⟩
  | cons info drawn ih =>
    intro n s hw hc hnodup hk
    rw [List.length_cons] at hk
    have hne : n ≠ k := by omega
    obtain ⟨hu, hnodup⟩ := List.nodup_cons.1 hnodup
    obtain ⟨s₁, heq, hs⟩ := standUp_spec hw opt given info.userID
    obtain ⟨s₂, heq', hs'⟩ := ih (n + 1) s₁ hs.waiting (hs.consistent hc) hnodup (by omega)
    refine ⟨s₂, ?_, .cons hc hu hs hs'⟩
    rw [standUps, if_neg hne, heq]
    exact heq'

theorem standUps_append (opt : SeatOption) (given : Given) (k : ℕ) (l' : List DistributeInfo) :
    ∀ (l : List DistributeInfo) (n : ℕ) (s : MatchRoom), standUps opt given k s n (l ++ l') =
      (standUps opt given k s n l).bind fun s => standUps opt given k s (n + l.length) l' := by
  intro l
  induction l with
  | nil => exact fun n s => rfl
  | cons info l ih =>
    intro n s
    rw [List.cons_append, standUps, standUps, Option.bind_assoc]
    congr 1
    funext s₁
    rw [ih, List.length_cons, Nat.add_assoc, Nat.add_comm 1]

/-- **What the loop behind a failure comes to**: the refused user is
removed. Either that is all, or one of the others has lost both his chair
and his place in the queue. -/
structure Fails (opt : SeatOption) (front : List DistributeInfo) (info : DistributeInfo)
    (back : List DistributeInfo) (s s' : MatchRoom) : Prop
    extends Moves opt (users (front ++ info :: back)) s s' where
  mono : ∀ t c v, s'.tableUserItem t c = some v → s.tableUserItem t c = some v
  quiet : ∀ e ∈ s'.events, e ∈ s.events ∨ ∃ u p, e = .remove u p
  gone : info.userID ∉ s'.waiting
  fits : (∀ u ∈ users (front ++ back), ¬Leaves s u) → Moves opt [info.userID] s s' ∧
    s'.tableUserItem = s.tableUserItem
  lost : (∃ u ∈ users (front ++ back), Leaves s u) → ∃ u ∈ users (front ++ back), Leaves s u ∧
    u ∉ s'.waiting ∧ s'.tableUserItem (s.userItem u).wTableID (s.userItem u).wChairID ≠ some u

theorem standUps_spec (hw : Waiting s.manage) (hc : Consistent opt s) (given : Given)
    (hnodup : (users (front ++ info :: back)).Nodup) (hp : Pertains s info) :
    ∃ s', standUps opt given front.length s 0 (front ++ info :: back) = some s' ∧
      Fails opt front info back s s' := by
  have husers : users (front ++ info :: back) = users front ++ info.userID :: users back :=
    List.map_append
  have hothers : users (front ++ back) = users front ++ users back := List.map_append
  rw [husers] at hnodup
  obtain ⟨hfront, hback, hdisjoint⟩ := List.nodup_append'.1 hnodup
  obtain ⟨hinfo, hback⟩ := List.nodup_cons.1 hback
  obtain ⟨s₁, heq₁, h₁⟩ := standUps_others opt given front.length front 0 s hw hc hfront
    (.inr (by omega))
  obtain ⟨s₂, heq₂, h₂, hsame, hgone⟩ := removePertain_spec h₁.waiting opt (hp.moves hw h₁.toMoves)
  obtain ⟨s₃, heq₃, h₃⟩ := standUps_others opt given front.length back (front.length + 1) s₂
    h₂.waiting (h₂.consistent (h₁.consistent hc)) hback (.inl (by omega))
  have hmem₁ : ∀ v ∈ users front, v ∈ users (front ++ info :: back) := fun v hv => by
    rw [husers]
    exact List.mem_append_left _ hv
  have hmem₂ : ∀ v ∈ [info.userID], v ∈ users (front ++ info :: back) := fun v hv => by
    rw [husers, List.mem_singleton.1 hv]
    exact List.mem_append_right _ List.mem_cons_self
  have hmem₃ : ∀ v ∈ users back, v ∈ users (front ++ info :: back) := fun v hv => by
    rw [husers]
    exact List.mem_append_right _ (List.mem_cons_of_mem _ hv)
  -- as long as nobody in front leaves, nothing is changed for those behind
  have hbehind : (∀ u ∈ users front, ¬Leaves s u) → ∀ v ∈ users back,
      s₂.userItem v = s.userItem v ∧ (Leaves s₂ v ↔ Leaves s v) := by
    intro hall v hv
    obtain ⟨-, -, htable, hstarted, huser⟩ := h₁.stays hall
    have hv' : v ∉ users front := fun hmem => hdisjoint hmem (List.mem_cons_of_mem _ hv)
    have heq : s₂.userItem v = s.userItem v := by rw [hsame.userItem, huser v hv']
    exact ⟨heq, leaves_congr heq (hsame.tableUserItem.trans htable)
      (hsame.gameStarted.trans hstarted)⟩
  refine ⟨s₃, ?_, ?_⟩
  · rw [standUps_append, heq₁, Option.bind_some, Nat.zero_add, standUps, if_pos rfl, heq₂]
    exact heq₃
  · have hmoves := ((h₁.toMoves.mono hmem₁).trans (h₂.mono hmem₂)).trans (h₃.toMoves.mono hmem₃)
    exact
      { hmoves with
        mono := fun t c v hv => h₁.mono t c v (hsame.tableUserItem ▸ h₃.mono t c v hv)
        quiet := fun e he => by
          rcases h₃.quiet e he with he | he
          · rcases hsame.quiet e he with he | he
            · exact h₁.quiet e he
            · exact .inr he
          · exact .inr he
        gone := fun hmem => hgone (h₃.waiting_subset hmem)
        fits := fun hall => by
          rw [hothers] at hall
          have hall₁ : ∀ u ∈ users front, ¬Leaves s u := fun v hv =>
            hall v (List.mem_append_left _ hv)
          obtain ⟨hmanage₁, hevents₁, htable₁, -⟩ := h₁.stays hall₁
          obtain ⟨hmanage₃, hevents₃, htable₃, -⟩ := h₃.stays fun v hv => by
            rw [(hbehind hall₁ v hv).2]
            exact hall v (List.mem_append_right _ hv)
          have hbefore : Moves opt [info.userID] s s₁ :=
            .of_same hw hmanage₁ hevents₁ (fun _ _ _ _ => by rw [htable₁]) h₁.consistent
          have hafter : Moves opt [info.userID] s₂ s₃ :=
            .of_same h₂.waiting hmanage₃ hevents₃ (fun _ _ _ _ => by rw [htable₃]) h₃.consistent
          exact ⟨(hbefore.trans h₂).trans hafter,
            htable₃.trans (hsame.tableUserItem.trans htable₁)⟩
        lost := fun hsome => by
          rw [hothers] at hsome ⊢
          by_cases hall : ∀ u ∈ users front, ¬Leaves s u
          · obtain ⟨v, hv, hl⟩ := hsome
            have hv : v ∈ users back :=
              (List.mem_append.1 hv).resolve_left fun hmem => hall v hmem hl
            obtain ⟨u, hu, hl, hlost, hchair⟩ := h₃.lost ⟨v, hv, (hbehind hall v hv).2.2 hl⟩
            obtain ⟨huser, hiff⟩ := hbehind hall u hu
            rw [huser] at hchair
            exact ⟨u, List.mem_append_right _ hu, hiff.1 hl, hlost, hchair⟩
          · push Not at hall
            obtain ⟨u, hu, hl, hlost, hchair⟩ := h₁.lost hall
            refine ⟨u, List.mem_append_left _ hu, hl, fun hmem => hlost ?_, fun hmem => hchair ?_⟩
            · exact h₂.waiting_subset (h₃.waiting_subset hmem)
            · rw [← hsame.tableUserItem]
              exact h₃.mono _ _ _ hmem }

/-! ## A selection -/

/-- No more are drawn than there are chairs. -/
theorem length_drawRound_le (m : DistributeManage) (userItem : ℕ → MatchUser) (now : ℕ) {need : ℕ} :
    ∀ rest drawn : List DistributeInfo, drawn.length < need →
      (m.drawRound userItem now need drawn rest).1.length ≤ need
  | [], drawn, h => Nat.le_of_lt h
  | info :: rest, drawn, h => by
    rw [drawRound]
    have hnext : (if m.firstSuccess userItem now need drawn info then drawn ++ [info]
        else drawn).length ≤ need := by
      split
      · rw [List.length_append, List.length_singleton]
        omega
      · omega
    generalize (if m.firstSuccess userItem now need drawn info then drawn ++ [info]
      else drawn) = next at hnext ⊢
    by_cases hneed : next.length = need
    · rw [if_pos hneed]
      exact hnext
    · rw [if_neg hneed]
      exact length_drawRound_le m userItem now rest next (by omega)

/-- **Some users of the queue are drawn**, as many as there are chairs at
most. -/
theorem drawn_spec (hw : Waiting s.manage) (opt : SeatOption) (given : Given) :
    ∃ drawn, s.drawn opt given = some drawn ∧ (users drawn).Nodup ∧
      (∀ info ∈ drawn, info ∈ s.manage.infos) ∧
      (0 < opt.wChairCount → drawn.length ≤ opt.wChairCount) := by
  obtain ⟨hfew, hmany⟩ := hw.performDistribute_eq s.userItem (given.rand s.round)
    (given.time s.round) opt.wChairCount
  rcases Nat.lt_or_ge 1 (word s.manage.queue.length) with hlt | hle
  · obtain ⟨start, -, heq⟩ := hmany hlt
    obtain ⟨more, examined, hround, hsub, hinit⟩ := exists_drawRound s.manage s.userItem
      (given.time s.round) opt.wChairCount (s.manage.infos.rotate start) []
    have hsub : more.Sublist (s.manage.infos.rotate start) := hsub.trans hinit.sublist
    refine ⟨more, by rw [drawn, heq, hround]; rfl, ?_, ?_, fun hpos => ?_⟩
    · refine (hsub.map DistributeInfo.userID).nodup ?_
      rw [List.map_rotate]
      exact List.nodup_rotate.2 hw.users
    · exact fun info hi => List.mem_rotate.1 (hsub.subset hi)
    · have hlength := length_drawRound_le s.manage s.userItem (given.time s.round)
        (s.manage.infos.rotate start) [] hpos
      rwa [hround] at hlength
  · exact ⟨[], by rw [drawn, hfew hle]; rfl, List.nodup_nil, nofun, fun _ => Nat.zero_le _⟩

theorem pertains_of_mem (hw : Waiting s.manage) (h : info ∈ s.manage.infos) : Pertains s info := by
  obtain ⟨p, hp, rfl⟩ := List.mem_map.1 h
  exact ⟨p, hw.pertain p hp, rfl, .inl hp⟩

theorem currTable_spec (h : s.currTable opt = some t) : t ≠ invalidTable ∧ SeatedAt opt s t [] := by
  rw [currTable, List.find?_range_eq_some] at h
  obtain ⟨hempty, hmem, -⟩ := h
  have hlt := List.mem_range.1 hmem
  have hle := opt.tables_le
  refine ⟨by omega, fun c hc => ?_⟩
  simpa using List.all_eq_true.1 hempty c (List.mem_range.2 hc)

/-- **A selection in which nobody is lost**: it takes some users out of the
queue, each of whom has been refused or is left on his chair. -/
structure Settles (opt : SeatOption) (us : List ℕ) (s s' : MatchRoom) : Prop
    extends Moves opt us s s' where
  waits : ∀ u ∈ us, u ∈ s.waiting
  gone : ∀ u ∈ us, u ∉ s'.waiting
  seat_of : ∀ u t c, .seat u t c ∈ s'.events → .seat u t c ∈ s.events ∨ u ∈ us
  fate : ∀ u ∈ us, .refuse u ∈ s'.events ∨
    ∃ t c, .seat u t c ∈ s'.events ∧ s'.tableUserItem t c = some u

theorem Settles.refl (hw : Waiting s.manage) : Settles opt [] s s :=
  { Moves.refl hw [] with
    waits := nofun
    gone := nofun
    seat_of := fun _ _ _ => .inl
    fate := nofun }

theorem Settles.trans (h : Settles opt us s s') (h' : Settles opt us' s' s'') :
    Settles opt (us ++ us') s s'' :=
  { (h.toMoves.mono fun _ => List.mem_append_left us').trans
      (h'.toMoves.mono fun _ => List.mem_append_right us) with
    waits := fun u hu => (List.mem_append.1 hu).elim (h.waits u) fun hu =>
      h.waiting_subset (h'.waits u hu)
    gone := fun u hu => (List.mem_append.1 hu).elim
      (fun hu hmem => h.gone u hu (h'.waiting_subset hmem)) (h'.gone u)
    seat_of := fun u t c he => by
      rcases h'.seat_of u t c he with he | hu
      · exact (h.seat_of u t c he).imp_right (List.mem_append_left us')
      · exact .inr (List.mem_append_right us hu)
    fate := fun u hu => by
      rcases List.mem_append.1 hu with hu | hu
      · -- whoever is out of the queue is not drawn any more
        have hn : u ∉ us' := fun hmem => h.gone u hu (h'.waits u hmem)
        rcases h.fate u hu with he | ⟨t, c, he, hc⟩
        · exact .inl (h'.mem_events he)
        · exact .inr ⟨t, c, h'.mem_events he, (h'.chairs u hn t c).2 hc⟩
      · exact h'.fate u hu }

/-- **A user has been lost**: he is out of the queue, on no chair he has
been given, and has not been refused. -/
def Lost (u : ℕ) (s : MatchRoom) : Prop :=
  u ∉ s.waiting ∧ .refuse u ∉ s.events ∧
    ∀ t c, .seat u t c ∈ s.events → s.tableUserItem t c ≠ some u

theorem Lost.moves (h : Lost u s) (hm : Moves opt us s s') (hu : u ∉ us) : Lost u s' :=
  ⟨fun hmem => h.1 (hm.waiting_subset hmem), fun he => h.2.1 (hm.mem_events_of_notMem he hu),
    fun t c he hc => h.2.2 t c (hm.mem_events_of_notMem he hu) ((hm.chairs u hu t c).1 hc)⟩

theorem Sits.on_chair {refused : Option ℕ} (h : Sits opt t [] drawn front refused s s')
    (hlength : front.length ≤ opt.wChairCount) (hu : u ∈ users front) :
    ∃ c, .seat u t c ∈ s'.events ∧ s'.tableUserItem t c = some u ∧ (users front)[c]? = some u := by
  obtain ⟨i, hi⟩ := List.mem_iff_getElem?.1 hu
  have hlt : i < (users front).length := (List.getElem?_eq_some_iff.1 hi).1
  rw [users, List.length_map] at hlt
  have hevent := h.seats i u hi
  rw [List.length_nil, Nat.zero_add] at hevent
  exact ⟨i, hevent, (h.seated i (by omega)).trans hi, hi⟩

theorem moves_nextRound (hw : Waiting s.manage) (opt : SeatOption) (us : List ℕ) :
    Moves opt us s s.nextRound := .of_same hw rfl rfl (fun _ _ _ _ => Iff.rfl) id

theorem settles_of_success (hw : Waiting s.manage) (hwaits : ∀ u ∈ users drawn, u ∈ s.waiting)
    (hlength : drawn.length ≤ opt.wChairCount) (h : Sits opt t [] drawn drawn none s.nextRound s')
    (hm : Moves opt (users drawn) s' s'') (hsame : SameSeats s' s'')
    (hgone : ∀ u ∈ users drawn, u ∉ s''.waiting) : Settles opt (users drawn) s s'' :=
  { ((moves_nextRound hw opt _).trans h.toMoves).trans hm with
    waits := hwaits
    gone := hgone
    seat_of := fun u t' c he => by
      rcases hsame.quiet _ he with he | ⟨v, p, heq⟩
      · exact (h.seat_of u t' c he).imp_right fun ⟨_, i, hi, _⟩ => List.mem_of_getElem? hi
      · cases heq
    fate := fun u hu => by
      obtain ⟨c, he, hc, -⟩ := h.on_chair hlength hu
      exact .inr ⟨t, c, hm.mem_events he, by rwa [hsame.tableUserItem]⟩ }

theorem users_append (l l' : List DistributeInfo) : users (l ++ l') = users l ++ users l' :=
  List.map_append

theorem settles_of_failure (hw : Waiting s.manage)
    (hwaits : ∀ u ∈ users (front ++ [info]), u ∈ s.waiting)
    (hlength : front.length ≤ opt.wChairCount)
    (h : Sits opt t [] (front ++ [info]) front (some info.userID) s.nextRound s')
    (hfails : Fails opt front info back s' s'') (hstay : ∀ u ∈ users (front ++ back), ¬Leaves s' u)
    (hgone : ∀ u ∈ users front, u ∉ s'.waiting) : Settles opt (users (front ++ [info])) s s'' := by
  obtain ⟨hm, htable⟩ := hfails.fits hstay
  have hsub : ∀ v ∈ [info.userID], v ∈ users (front ++ [info]) := fun v hv => by
    rw [users_append]
    exact List.mem_append_right _ hv
  exact
    { ((moves_nextRound hw opt _).trans h.toMoves).trans (hm.mono hsub) with
      waits := hwaits
      gone := fun u hu hmem => by
        rw [users_append] at hu
        rcases List.mem_append.1 hu with hu | hu
        · exact hgone u hu (hm.waiting_subset hmem)
        · rw [List.mem_singleton.1 hu] at hmem
          exact hfails.gone hmem
      seat_of := fun u t' c he => by
        rcases hfails.quiet _ he with he | ⟨v, p, heq⟩
        · refine (h.seat_of u t' c he).imp_right fun ⟨_, i, hi, _⟩ => ?_
          rw [users_append]
          exact List.mem_append_left _ (List.mem_of_getElem? hi)
        · cases heq
      fate := fun u hu => by
        rw [users_append] at hu
        rcases List.mem_append.1 hu with hu | hu
        · obtain ⟨c, he, hc, -⟩ := h.on_chair hlength hu
          exact .inr ⟨t, c, hm.mem_events he, by rwa [htable]⟩
        · refine .inl (hm.mem_events ((h.refuse_iff u).2 (.inr ?_)))
          rw [List.mem_singleton.1 hu] }

/-- Whoever is ready on his chair leaves it when he stands up. -/
theorem leaves_of_ready (hseated : SeatedAt opt s t us) (hready : ReadyAt s t us)
    (hlength : us.length ≤ opt.wChairCount) (hvalid : t ≠ invalidTable) (hu : u ∈ us) :
    Leaves s u := by
  obtain ⟨i, hi⟩ := List.mem_iff_getElem?.1 hu
  have hlt := (List.getElem?_eq_some_iff.1 hi).1
  obtain ⟨hstatus, htable, hchair⟩ := hready i u hi
  rw [Leaves, htable, hchair, hstatus, keepsSeat, hstatus]
  refine ⟨hvalid, nofun, ?_, (hseated i (by omega)).trans hi⟩
  rintro ⟨-, h | h⟩
  · cases h
  · cases h

/-- **Where one of the others would leave his table, one is lost.** -/
theorem lost_of_failure (hmode : opt.startMode ≠ .timeControl)
    (hfresh : ∀ e ∈ s.events, eventUser e ∉ users (front ++ back))
    (hnodup : (users (front ++ info :: back)).Nodup)
    (h : Sits opt t [] (front ++ [info]) front (some info.userID) s.nextRound s')
    (hfails : Fails opt front info back s' s'')
    (hleaves : ∃ u ∈ users (front ++ back), Leaves s' u) :
    ∃ u ∈ users (front ++ back), Lost u s'' := by
  obtain ⟨u, hu, -, hgone, hchair⟩ := hfails.lost hleaves
  have hne : info.userID ≠ u := by
    rintro rfl
    rw [users_append] at hu hnodup
    obtain ⟨-, hcons, hdisjoint⟩ := List.nodup_append'.1 hnodup
    rcases List.mem_append.1 hu with hu | hu
    · exact hdisjoint hu List.mem_cons_self
    · exact (List.nodup_cons.1 hcons).1 hu
  refine ⟨u, hu, hgone, fun he => ?_, fun t' c he => ?_⟩
  · rcases hfails.quiet _ he with he | ⟨v, p, heq⟩
    · rcases (h.refuse_iff u).1 he with he | heq
      · exact hfresh _ he hu
      · exact hne (Option.some.inj heq)
    · cases heq
  · rcases hfails.quiet _ he with he | ⟨v, p, heq⟩
    · rcases h.seat_of u t' c he with he | ⟨rfl, i, hi, rfl⟩
      · exact absurd hu (hfresh _ he)
      · obtain ⟨-, htable, hplace⟩ := h.ready hmode nofun i u hi
        rw [htable, hplace] at hchair
        rwa [List.length_nil, Nat.zero_add]
    · cases heq

/-- **The drawn users take their seats**, or one of them is refused. -/
theorem seatDrawn_spec (hw : Waiting s.manage) (hc : Consistent opt s) (given : Given)
    (hnodup : (users drawn).Nodup) (hmem : ∀ info ∈ drawn, info ∈ s.manage.infos)
    (hlength : drawn.length ≤ opt.wChairCount) (hvalid : t ≠ invalidTable)
    (hempty : SeatedAt opt s t []) :
    ∃ s' s'', s.seatDrawn opt given t drawn = some s'' ∧
      (s.nextRound.sitDowns opt given t 0 drawn = some (s', none) ∧
          Settles opt (users drawn) s s'' ∨
        ∃ front info back, drawn = front ++ info :: back ∧
          s.nextRound.sitDowns opt given t 0 drawn = some (s', some front.length) ∧
          Sits opt t [] (front ++ [info]) front (some info.userID) s.nextRound s' ∧
          Fails opt front info back s' s'') := by
  have hwaits : ∀ u ∈ users drawn, u ∈ s.waiting := fun u hu => by
    obtain ⟨info, hi, rfl⟩ := List.mem_map.1 hu
    exact List.mem_map_of_mem (hmem info hi)
  have hpertains : ∀ info ∈ drawn, Pertains s.nextRound info := fun info hi =>
    pertains_of_mem (s := s.nextRound) hw (hmem info hi)
  rcases sitDowns_spec opt given hvalid drawn [] s.nextRound hw hc hempty hnodup
      (by rwa [List.nil_append, users, List.length_map]) with
    ⟨s', heq, h⟩ | ⟨front, info, back, s', rfl, heq, h⟩
  · obtain ⟨s'', heq', hm, hsame, hgone⟩ := removeDrawn_spec opt drawn s' h.waiting fun i hi =>
      (hpertains i hi).moves hw h.toMoves
    refine ⟨s', s'', ?_, .inl ⟨heq, settles_of_success hw hwaits hlength h hm hsame hgone⟩⟩
    rw [seatDrawn, show s.nextRound.sitDowns opt given t 0 drawn = some (s', none) from heq]
    exact heq'
  · rw [List.length_nil, Nat.zero_add] at heq
    have hmine : info ∈ front ++ info :: back := List.mem_append_right _ List.mem_cons_self
    obtain ⟨s'', heq', hfails⟩ := standUps_spec h.waiting (h.consistent hc) given hnodup
      ((hpertains info hmine).moves hw h.toMoves)
    refine ⟨s', s'', ?_, .inr ⟨front, info, back, rfl, heq, h, hfails⟩⟩
    rw [seatDrawn, show s.nextRound.sitDowns opt given t 0 (front ++ info :: back) =
      some (s', some front.length) from heq]
    exact heq'

/-- **In a selection that fails, nobody else loses his place**: none of the
others would leave a table, and those who have sat down are out of the
queue already. -/
def PassFits (opt : SeatOption) (given : Given) (s : MatchRoom) : Prop :=
  ∀ front info back t s', s.drawn opt given = some (front ++ info :: back) →
    opt.wChairCount ≤ word (front ++ info :: back).length → s.currTable opt = some t →
    s.nextRound.sitDowns opt given t 0 (front ++ info :: back) = some (s', some front.length) →
    (∀ u ∈ users (front ++ back), ¬Leaves s' u) ∧ ∀ u ∈ users front, u ∉ s'.waiting

/-- What has happened so far has happened to users who do not wait. -/
def Fresh (s : MatchRoom) : Prop := ∀ e ∈ s.events, eventUser e ∉ s.waiting

/-- **A selection** ends the loop, or goes on with fewer users in the
queue. -/
theorem selection_spec (hw : Waiting s.manage) (hc : Consistent opt s) (given : Given)
    (hpos : 0 < opt.wChairCount) :
    s.selection opt given = some (.done s.nextRound) ∧ PassFits opt given s ∨
      ∃ us s', s.selection opt given = some (.more s') ∧ Moves opt us s s' ∧
        (∀ u ∈ us, u ∈ s.waiting) ∧
        (PassFits opt given s → ∃ us, us ≠ [] ∧ Settles opt us s s') ∧
        (opt.startMode ≠ .timeControl → Fresh s → ¬PassFits opt given s →
          ∃ u ∈ s.waiting, Lost u s') := by
  obtain ⟨drawn, hdrawn, hnodup, hmem, hlength⟩ := drawn_spec hw opt given
  have hlength := hlength hpos
  have hwaits : ∀ u ∈ users drawn, u ∈ s.waiting := fun u hu => by
    obtain ⟨info, hi, rfl⟩ := List.mem_map.1 hu
    exact List.mem_map_of_mem (hmem info hi)
  rw [selection, hdrawn, Option.bind_some]
  by_cases hfew : word drawn.length < opt.wChairCount
  · rw [if_pos hfew]
    refine .inl ⟨rfl, fun front info back t s' heq hmany => ?_⟩
    rw [hdrawn] at heq
    rw [← Option.some.inj heq] at hmany
    omega
  rw [if_neg hfew]
  cases htable : s.currTable opt with
  | none => exact .inl ⟨rfl, fun front info back t s' _ _ heq => by rw [htable] at heq; cases heq⟩
  | some t =>
    right
    obtain ⟨hvalid, hempty⟩ := currTable_spec htable
    obtain ⟨s', s'', hseat, hrest⟩ := seatDrawn_spec hw hc given hnodup hmem hlength hvalid hempty
    dsimp only
    rw [hseat]
    -- the selection has only one outcome
    have hfits : ∀ front info back r, drawn = front ++ info :: back →
        s.nextRound.sitDowns opt given t 0 drawn = some (r, some front.length) →
        (PassFits opt given s ↔
          (∀ u ∈ users (front ++ back), ¬Leaves r u) ∧ ∀ u ∈ users front, u ∉ r.waiting) := by
      rintro front info back r rfl hsit
      constructor
      · exact fun h => h front info back t r hdrawn (by omega) htable hsit
      · intro h front' info' back' t' r' heq _ htable' hsit'
        rw [htable] at htable'
        cases htable'
        rw [hdrawn] at heq
        have heq := Option.some.inj heq
        rw [← heq, hsit] at hsit'
        simp only [Option.some.injEq, Prod.mk.injEq] at hsit'
        obtain ⟨rfl, hlen⟩ := hsit'
        obtain ⟨rfl, htail⟩ := List.append_inj heq hlen
        obtain ⟨-, rfl⟩ := List.cons.inj htail
        exact h
    rcases hrest with ⟨hsit, hsettles⟩ | ⟨front, info, back, rfl, hsit, hsits, hfails⟩
    · refine ⟨users drawn, s'', rfl, hsettles.toMoves, hwaits, fun _ => ⟨_, ?_, hsettles⟩,
        fun _ _ hnot => absurd ?_ hnot⟩
      · intro hnil
        rw [users, List.map_eq_nil_iff] at hnil
        rw [hnil, List.length_nil] at hfew
        exact hfew hpos
      · intro front info back t' r heq _ htable' hsit'
        rw [htable] at htable'
        cases htable'
        rw [hdrawn] at heq
        rw [← Option.some.inj heq, hsit] at hsit'
        cases hsit'
    · have hiff := hfits front info back s' rfl hsit
      have hfirst : ∀ u ∈ users (front ++ [info]), u ∈ users (front ++ info :: back) := by
        intro u hu
        rw [users_append] at hu ⊢
        refine List.mem_append.2 ((List.mem_append.1 hu).imp_right fun h => ?_)
        rw [List.mem_singleton.1 h]
        exact List.mem_cons_self
      have hothers : ∀ u ∈ users (front ++ back), u ∈ users (front ++ info :: back) := by
        intro u hu
        rw [users_append] at hu ⊢
        exact List.mem_append.2 ((List.mem_append.1 hu).imp_right (List.mem_cons_of_mem _))
      have hfront : front.length ≤ opt.wChairCount := by
        rw [List.length_append] at hlength
        omega
      refine ⟨_, s'', rfl, ((moves_nextRound hw opt _).trans (hsits.toMoves.mono hfirst)).trans
        hfails.toMoves, hwaits, fun h => ?_, fun hmode hfresh hnot => ?_⟩
      · obtain ⟨hstay, hgone⟩ := hiff.1 h
        refine ⟨_, ?_, settles_of_failure hw (fun u hu => hwaits u (hfirst u hu)) hfront hsits
          hfails hstay hgone⟩
        rw [users_append]
        exact List.append_ne_nil_of_right_ne_nil _ (by rintro ⟨⟩)
      · have hleaves : ∃ u ∈ users (front ++ back), Leaves s' u := by
          by_contra hnone
          push Not at hnone
          refine hnot (hiff.2 ⟨hnone, fun u hu => absurd ?_ (hnone u ?_)⟩)
          · exact leaves_of_ready hsits.seated (hsits.ready hmode fun _ _ hi => absurd hi (by simp))
              (by rwa [List.nil_append, users, List.length_map]) hvalid hu
          · rw [users_append]
            exact List.mem_append_left _ hu
        obtain ⟨u, hu, hlost⟩ := lost_of_failure hmode
          (fun e he hmem => hfresh e he (hwaits _ (hothers _ hmem))) hnodup hsits hfails hleaves
        exact ⟨u, hwaits u (hothers u hu), hlost⟩

/-! ## The whole call -/

def Goes (opt : SeatOption) (given : Given) (s s' : MatchRoom) : Prop :=
  s.selection opt given = some (.more s')

/-- In no selection of the call does another user lose his place. -/
def AllFit (opt : SeatOption) (given : Given) (s : MatchRoom) : Prop :=
  ∀ s', ReflTransGen (Goes opt given) s s' → PassFits opt given s'

theorem AllFit.cons (h : PassFits opt given s)
    (hnext : ∀ s', Goes opt given s s' → AllFit opt given s') : AllFit opt given s := by
  intro q hq
  rcases hq.cases_head with rfl | ⟨r, hr, hq⟩
  · exact h
  · exact hnext r hr q hq

/-- **When a call loses nobody.** -/
def CallFits (opt : SeatOption) (given : Given) (matchStatus : LockTimeStatus) (s : MatchRoom) :
    Prop :=
  matchStatus ≠ .playing ∨ s.manage.wNodeCount < opt.wMinDistributeUser ∨
    (0 < opt.wChairCount ∨ opt.wTableCount = 0) ∧ AllFit opt given s

/-- **What the call has to come to.** Whoever is left on a chair he has
been given is out of the queue and has been removed once; whoever waited
and has neither a chair nor been refused still waits; and each node that
is removed was in the queue, and is removed once. -/
structure SeatingSound (s s' : MatchRoom) : Prop where
  removed_once : ∀ u t c, .seat u t c ∈ s'.events → s'.tableUserItem t c = some u →
    u ∉ s'.waiting ∧ (removedUsers s'.events).count u = 1
  still_waiting : ∀ u ∈ s.waiting, .refuse u ∉ s'.events →
    (∀ t c, .seat u t c ∈ s'.events → s'.tableUserItem t c ≠ some u) → u ∈ s'.waiting
  nodes : (removedNodes s'.events).Nodup ∧ ∀ p ∈ removedNodes s'.events, p ∈ s.manage.queue

/-- Whoever is removed from the queue is removed once. -/
theorem Moves.count_removedUsers (h : Moves opt us s s') (hw : Waiting s.manage)
    (hevents : s.events = []) (hu : u ∈ s.waiting) (hgone : u ∉ s'.waiting) :
    (removedUsers s'.events).count u = 1 := by
  obtain ⟨new, heq, -, husers, hperm⟩ := h.events
  rw [hevents, List.nil_append] at heq
  have hperm := hperm.map fun p => (s.manage.node p).userID
  rw [List.map_append, ← husers] at hperm
  have hwait : ∀ r : MatchRoom, r.waiting = r.manage.queue.map fun p => (r.manage.node p).userID :=
    fun r => List.map_map
  rw [← h.node, ← hwait, h.node, ← hwait] at hperm
  have hcount := hperm.count_eq u
  rw [List.count_append, List.count_eq_zero_of_not_mem hgone, Nat.zero_add] at hcount
  rw [heq, hcount]
  exact List.count_eq_one_of_mem hw.users hu

theorem Settles.sound (h : Settles opt us s s') (hw : Waiting s.manage) (hevents : s.events = []) :
    SeatingSound s s' where
  removed_once := fun u t c he _ => by
    have hu : u ∈ us := (h.seat_of u t c he).resolve_left fun hmem => by
      rw [hevents] at hmem
      cases hmem
    exact ⟨h.gone u hu, h.count_removedUsers hw hevents (h.waits u hu) (h.gone u hu)⟩
  still_waiting := fun u hu hrefuse hseat => by
    refine h.kept u hu fun hmem => ?_
    rcases h.fate u hmem with he | ⟨t, c, he, hc⟩
    · exact hrefuse he
    · exact hseat t c he hc
  nodes := by
    obtain ⟨new, heq, -, -, hperm⟩ := h.events
    rw [hevents, List.nil_append] at heq
    rw [heq]
    exact ⟨(List.nodup_append'.1 (hperm.nodup_iff.2 hw.nodup)).2.1, fun p hp =>
      hperm.subset (List.mem_append_right _ hp)⟩

/-- So far only users who are out of the queue have been dealt with. -/
theorem Settles.fresh (h : Settles opt us s s') (hevents : s.events = []) : Fresh s' := by
  obtain ⟨new, heq, hnew, -⟩ := h.events
  intro e he
  rw [heq, hevents, List.nil_append] at he
  exact h.gone _ (hnew e he)

theorem Settles.length_lt (h : Settles opt us s s') (hne : us ≠ []) :
    s'.manage.queue.length < s.manage.queue.length := by
  obtain ⟨u, hu⟩ := List.exists_mem_of_ne_nil us hne
  refine Nat.lt_of_le_of_ne h.sub.length_le fun heq => ?_
  have hqueue := h.sub.eq_of_length heq
  obtain ⟨p, hp, hp'⟩ := mem_waiting.1 (h.waits u hu)
  exact h.gone u hu (mem_waiting.2 ⟨p, hqueue ▸ hp, by rw [h.node, hp']⟩)

/-- **The loop ends**, and nobody is lost, if each of its selections
fits. -/
theorem distributeLoop_of_allFit (given : Given) (hpos : 0 < opt.wChairCount) :
    ∀ (n : ℕ) (s : MatchRoom), s.manage.queue.length < n → Waiting s.manage → Consistent opt s →
      AllFit opt given s →
      ∃ us s', distributeLoop opt given n s = some s' ∧ Settles opt us s s' := by
  intro n
  induction n with
  | zero => exact fun s hlt => absurd hlt (Nat.not_lt_zero _)
  | succ n ih =>
    intro s hlt hw hc hfits
    rcases selection_spec hw hc given hpos with ⟨hdone, -⟩ | ⟨us, s', hmore, -, -, hsettles, -⟩
    · refine ⟨[], s.nextRound, by rw [distributeLoop, hdone], ?_⟩
      exact { Settles.refl hw with events := (moves_nextRound hw opt []).events }
    · obtain ⟨us, hne, hsettle⟩ := hsettles (hfits s .refl)
      obtain ⟨us', s'', hloop, hrest⟩ := ih s' (by have := hsettle.length_lt hne; omega)
        hsettle.waiting (hsettle.consistent hc) fun r hr => hfits r (.head hmore hr)
      exact ⟨us ++ us', s'', by rw [distributeLoop, hmore]; exact hloop, hsettle.trans hrest⟩

/-- Whoever is lost on the way is lost in the end. -/
theorem Lost.distributeLoop (hpos : 0 < opt.wChairCount) :
    ∀ (fuel : ℕ) (s s' : MatchRoom), Waiting s.manage → Consistent opt s → Lost u s →
      distributeLoop opt given fuel s = some s' → Lost u s' := by
  intro fuel
  induction fuel with
  | zero => exact fun s s' _ _ _ h => by cases h
  | succ fuel ih =>
    intro s s' hw hc hlost h
    rw [MatchRoom.distributeLoop] at h
    rcases selection_spec hw hc given hpos with ⟨hdone, -⟩ | ⟨us, r, hmore, hm, hwaits, -, -⟩
    · rw [hdone] at h
      cases h
      exact hlost
    · rw [hmore] at h
      exact ih r s' hm.waiting (hm.consistent hc)
        (hlost.moves hm fun hu => hlost.1 (hwaits u hu)) h

/-- **Each selection has fitted**, if nobody has been lost in the end. -/
theorem allFit_of_distributeLoop (hmode : opt.startMode ≠ .timeControl)
    (hpos : 0 < opt.wChairCount) {s₀ : MatchRoom} (hevents : s₀.events = []) :
    ∀ (fuel : ℕ) (us : List ℕ) (s s' : MatchRoom), Settles opt us s₀ s → Consistent opt s →
      distributeLoop opt given fuel s = some s' → (∀ u ∈ s₀.waiting, ¬Lost u s') →
      AllFit opt given s := by
  intro fuel
  induction fuel with
  | zero => exact fun us s s' _ _ h => by cases h
  | succ fuel ih =>
    intro us s s' hsettles hc h hnobody
    rw [distributeLoop] at h
    rcases selection_spec hsettles.waiting hc given hpos with
      ⟨hdone, hfits⟩ | ⟨us', r, hmore, hm, hwaits, hsettle, hlose⟩
    · refine .cons hfits fun r hr => ?_
      rw [Goes, hdone] at hr
      cases hr
    · rw [hmore] at h
      have hfits : PassFits opt given s := by
        by_contra hnot
        obtain ⟨u, hu, hlost⟩ := hlose hmode (hsettles.fresh hevents) hnot
        exact hnobody u (hsettles.waiting_subset hu)
          (hlost.distributeLoop hpos fuel r s' hm.waiting (hm.consistent hc) h)
      obtain ⟨us', -, hsettle⟩ := hsettle hfits
      refine .cons hfits fun r' hr => ?_
      rw [Goes, hmore] at hr
      cases hr
      exact ih (us ++ us') r s' (hsettles.trans hsettle) (hm.consistent hc) h hnobody

/-- A table without chairs is always empty: the loop does not end. -/
theorem distributeLoop_eq_none (hzero : opt.wChairCount = 0) (htable : opt.wTableCount ≠ 0) :
    ∀ (fuel : ℕ) (s : MatchRoom), distributeLoop opt given fuel s = none := by
  intro fuel
  induction fuel with
  | zero => exact fun s => rfl
  | succ fuel ih =>
    intro s
    have hcurr : s.currTable opt = some 0 := by
      rw [currTable, List.find?_range_eq_some]
      refine ⟨by rw [hzero]; rfl, List.mem_range.2 (by omega), fun j hj => absurd hj (by omega)⟩
    rw [distributeLoop, selection]
    cases s.drawn opt given with
    | none => rfl
    | some drawn =>
      rw [Option.bind_some, if_neg (by omega), hcurr]
      dsimp only
      cases s.seatDrawn opt given 0 drawn with
      | none => rfl
      | some s' => exact ih s'

/-- **A timed match seats its users.** A call in whose selections no other
user loses his place ends, and what it comes to is sound. Where the tables
start when all are ready, it is sound in no other case. -/
theorem performDistribute_sound (opt : SeatOption) (given : Given) (matchStatus : LockTimeStatus)
    (s : MatchRoom) (hw : Waiting s.manage) (hc : Consistent opt s) (hevents : s.events = []) :
    (CallFits opt given matchStatus s → ∃ fuel b s',
        s.performDistribute opt given matchStatus fuel = some (b, s') ∧ SeatingSound s s') ∧
      (opt.startMode ≠ .timeControl → (∃ fuel b s',
        s.performDistribute opt given matchStatus fuel = some (b, s') ∧ SeatingSound s s') →
          CallFits opt given matchStatus s) := by
  have hstay : Settles opt [] s s := .refl hw
  have hsame : SeatingSound s s := hstay.sound hw hevents
  by_cases hstatus : matchStatus ≠ .playing
  · have hcall : s.performDistribute opt given matchStatus 0 = some (true, s) := if_pos hstatus
    exact ⟨fun _ => ⟨0, true, s, hcall, hsame⟩, fun _ _ => .inl hstatus⟩
  by_cases hcount : s.manage.wNodeCount < opt.wMinDistributeUser
  · have hcall : s.performDistribute opt given matchStatus 0 = some (false, s) := by
      rw [performDistribute, if_neg hstatus, if_pos hcount]
    exact ⟨fun _ => ⟨0, false, s, hcall, hsame⟩, fun _ _ => .inr (.inl hcount)⟩
  have hcall : ∀ fuel, s.performDistribute opt given matchStatus fuel =
      (distributeLoop opt given fuel s).map (true, ·) := fun fuel => by
    rw [performDistribute, if_neg hstatus, if_neg hcount]
  rw [CallFits, or_iff_right hstatus, or_iff_right hcount]
  rcases Nat.eq_zero_or_pos opt.wChairCount with hzero | hpos
  · by_cases htable : opt.wTableCount = 0
    · -- no table is ever chosen
      have hnone : ∀ r : MatchRoom, r.currTable opt = none := fun r => by
        rw [currTable, htable]
        rfl
      obtain ⟨drawn, hdrawn, -⟩ := drawn_spec hw opt given
      have hdone : s.selection opt given = some (.done s.nextRound) := by
        rw [selection, hdrawn, Option.bind_some, if_neg (by omega), hnone]
      refine ⟨fun _ => ⟨1, true, s.nextRound, ?_, ?_⟩, fun _ _ => ⟨.inr htable, ?_⟩⟩
      · rw [hcall, distributeLoop, hdone]
        rfl
      · exact ⟨hsame.removed_once, hsame.still_waiting, hsame.nodes⟩
      · intro r _ front info back t s' _ _ heq
        rw [hnone] at heq
        cases heq
    · constructor
      · omega
      · rintro - ⟨fuel, b, s', heq, -⟩
        rw [hcall, distributeLoop_eq_none hzero htable] at heq
        cases heq
  · constructor
    · rintro ⟨-, hfits⟩
      obtain ⟨us, s', hloop, hsettles⟩ := distributeLoop_of_allFit given hpos _ s
        (Nat.lt_succ_self _) hw hc hfits
      refine ⟨s.manage.queue.length + 1, true, s', ?_, hsettles.sound hw hevents⟩
      rw [hcall, hloop]
      rfl
    · rintro hmode ⟨fuel, b, s', heq, hsound⟩
      rw [hcall, Option.map_eq_some_iff] at heq
      obtain ⟨r, hloop, heq⟩ := heq
      cases heq
      exact ⟨.inl hpos, allFit_of_distributeLoop hmode hpos hevents fuel [] s _ (.refl hw) hc hloop
        fun u hu hlost => hlost.1 (hsound.still_waiting u hu hlost.2.1 hlost.2.2)⟩

/-! ## Two users -/

def twoTables : SeatOption where
  wChairCount := 2
  wTableCount := 2
  wMinDistributeUser := 2
  tables_le := by decide

/-- Two users have come, and equal addresses are no matter. -/
def twoManage : DistributeManage :=
  (Machine.run (queueStep tenDays) { cbDistributeRule := 8 } twoInsert).elim {} Prod.fst

theorem waiting_twoManage : Waiting twoManage :=
  Waiting.run tenDays 8 twoInsert (twoManage, []) rfl

/-- It is late enough for both, and they sit down at once. -/
def atTwoHundred : Given := { time := fun _ => 200 }

/-- They are at no table. -/
def twoWait : MatchRoom where
  manage := twoManage
  userItem := ownAddress
  tableUserItem := fun _ _ => none
  gameStarted := fun _ => false

/-- Nobody is refused in the first selection, and nobody is drawn in the
next. -/
theorem allFit_twoWait : AllFit twoTables atTwoHundred twoWait := by
  refine .cons (fun front info back t s' hdrawn _ htable hsit => ?_) fun s' hgo => ?_
  · have hnone : ((twoWait.drawn twoTables atTwoHundred).bind fun drawn =>
        (twoWait.currTable twoTables).bind fun t =>
          (twoWait.nextRound.sitDowns twoTables atTwoHundred t 0 drawn).map Prod.snd) =
        some none := by decide +kernel
    rw [hdrawn, Option.bind_some, htable, Option.bind_some, hsit] at hnone
    cases hnone
  · have hnil : ((twoWait.selection twoTables atTwoHundred).bind fun
        | .more s => s.drawn twoTables atTwoHundred
        | .done _ => none) = some [] := by decide +kernel
    rw [hgo, Option.bind_some] at hnil
    change s'.drawn twoTables atTwoHundred = some [] at hnil
    refine .cons (fun front info back t r hdrawn => ?_) fun r hr => ?_
    · rw [hnil] at hdrawn
      exact absurd (Option.some.inj hdrawn).symm (List.append_ne_nil_of_right_ne_nil _ nofun)
    · rw [Goes, selection, hnil] at hr
      cases hr

theorem performDistribute_sound_twoWait :
    ∃ fuel b s', twoWait.performDistribute twoTables atTwoHundred .playing fuel = some (b, s') ∧
      SeatingSound twoWait s' :=
  (performDistribute_sound twoTables atTwoHundred .playing twoWait waiting_twoManage nofun
    rfl).1 (.inr (.inr ⟨.inl (by decide), allFit_twoWait⟩))

def oneAtTable : MatchRoom where
  manage := twoManage
  userItem := update ownAddress 2 { userStatus := .sit, wTableID := 1, wChairID := 0 }
  tableUserItem := update (fun _ _ => none) 1 (update (fun _ => none) 0 (some 2))
  gameStarted := fun _ => false

theorem consistent_oneAtTable : Consistent twoTables oneAtTable := by
  intro t c u hu
  by_cases ht : t = 1
  · by_cases hc : c = 0
    · subst ht hc
      obtain rfl : 2 = u := Option.some.inj hu
      exact ⟨by decide, fun _ => by decide⟩
    · subst ht
      simp [oneAtTable, hc] at hu
  · simp [oneAtTable, ht] at hu

/-- **The first user is refused, and the second is out of the queue**: he
stands up, and the match removes him. -/
theorem refusal_drops_the_other :
    ∃ s', Waiting oneAtTable.manage ∧ Consistent twoTables oneAtTable ∧ oneAtTable.events = [] ∧
      oneAtTable.performDistribute twoTables
          { atTwoHundred with refused := fun _ userID _ _ => userID = 1 } .playing 2 =
        some (true, s') ∧
      oneAtTable.waiting = [1, 2] ∧ s'.waiting = [] ∧
      s'.events = [.refuse 1, .remove 1 19, .remove 2 18] ∧ ¬SeatingSound oneAtTable s' := by
  obtain ⟨s', hcall, hgone, hevents⟩ : ∃ s',
      oneAtTable.performDistribute twoTables
          { atTwoHundred with refused := fun _ userID _ _ => userID = 1 } .playing 2 =
        some (true, s') ∧
      s'.waiting = [] ∧ s'.events = [.refuse 1, .remove 1 19, .remove 2 18] :=
    ⟨_, rfl, by decide +kernel, by decide +kernel⟩
  refine ⟨s', waiting_twoManage, consistent_oneAtTable, rfl, hcall, by decide +kernel, hgone,
    hevents, fun h => ?_⟩
  have hwaits := h.still_waiting 2 (by decide +kernel) (by rw [hevents]; decide)
    fun t c he => by simp [hevents] at he
  rw [hgone] at hwaits
  cases hwaits

end MatchRoom

end GameServer.MatchService
