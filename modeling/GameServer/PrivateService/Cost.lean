import GameServer.PrivateService.Rooms
/-!
# PrivateService — the cost of a room

What the players of a private room are to be charged (`Account`): its cost
once, when its first hand is played to its end, and with the AA rule in
equal shares. The server charges that as long as no first hand is
dismissed, the players who share a cost sit at the first chairs, and only
hands of open rooms are played (`CostOk`).
-/

namespace GameServer.PrivateService

open PrivateGame ServiceCore

variable {opt : ServiceOption} {s s' : PrivateGame} {u : UserID} {t : ℕ} {given : Given}

/-! ## What is to be charged -/

/-- A room that is open, as its players know it. -/
structure Room where
  createrUserID : ℕ
  roomType : RoomType
  cardAA : Bool
  playCost : ℕ
  /-- The hands that have begun. -/
  hands : ℕ

/-- What becomes of the room at a table. -/
def Room.next (t : ℕ) (room : Option Room) : Effect → Option Room
  | .createRoom t' createrUserID roomType cardAA playCost =>
      if t' = t then some { createrUserID, roomType, cardAA, playCost, hands := 0 } else room
  | .takeTable t' _ => if t' = t then none else room
  | .dismissRoom t' _ => if t' = t then none else room
  | .startGame t' =>
      if t' = t then room.map fun room => { room with hands := room.hands + 1 } else room
  | _ => room

/-- What a hand costs that is played to its end: the first one of a
private room costs its creator, or all who are at the table alike. -/
def Room.charges (room : Room) (seated : List UserID) : List Effect :=
  if room.roomType = .typePrivate ∧ room.hands = 1 then
    if room.cardAA then
      seated.map fun u : UserID =>
        Effect.privateCost u (room.playCost / seated.length) .typePrivate
    else [.privateCost room.createrUserID room.playCost .typePrivate]
  else []

/-- The rooms that are open, and what was to be charged so far. -/
structure Account where
  room : ℕ → Option Room := fun _ => none
  charges : List Effect := []

/-- What is to be charged when a hand is over. -/
def Account.due (account : Account) : Effect → List Effect
  | .concludeGame t false seated =>
      match account.room t with
      | none => []
      | some room => room.charges seated
  | _ => []

def Account.next (account : Account) (o : Effect) : Account where
  room t := Room.next t (account.room t) o
  charges := account.charges ++ account.due o

def account (log : List Effect) : Account := log.foldl Account.next {}

/-- The cost of a private room is requested from the database. -/
def Effect.charges : Effect → Bool
  | .privateCost _ _ .typePrivate => true
  | _ => false

/-- **What the cost is for.** What was charged for private rooms is what
was to be charged, in order, and no cost was shared by nobody. -/
structure Charged (s : PrivateGame) : Prop where
  charges : s.log.filter Effect.charges = (account s.log).charges
  fault : s.fault = false

/-! ## When it is charged -/

/-- The first hand of a private room runs. -/
def FirstHand (info : PrivateTableInfo) (frame : TableFrame) : Prop :=
  frame.gameStarted = true ∧ info.roomType = .typePrivate ∧ info.startPlayCout = 1

/-- Who has the chair and is not without a connection. -/
def stays (frame : TableFrame) (offLine : List UserID) (c : ℕ) : Option UserID :=
  (frame.tableUserItem c).filter fun u => decide (u ∉ offLine)

def staying (opt : ServiceOption) (frame : TableFrame) (offLine : List UserID) : List UserID :=
  (List.range opt.chairCount).filterMap (stays frame offLine)

/-- Somebody stays, and those who stay are at the first chairs. -/
def Together (opt : ServiceOption) (frame : TableFrame) (offLine : List UserID) : Prop :=
  staying opt frame offLine ≠ [] ∧
    ∀ c < (staying opt frame offLine).length, (stays frame offLine c).isSome = true

/-- A first hand that ends is the hand of an open room, and who shares its
cost sits together. -/
def EndOk (opt : ServiceOption) (offLine : List UserID) (info : PrivateTableInfo)
    (frame : TableFrame) : Prop :=
  FirstHand info frame →
    info.createrUserID ≠ 0 ∧ (info.isCardAARule = true → Together opt frame offLine)

/-- The timer at one table ends no first hand it must not end. -/
def TimerCostOk (opt : ServiceOption) (given : Given) (info : PrivateTableInfo)
    (frame : TableFrame) : Prop :=
  (Cleared info → given.leaveConcludes = true →
      (∃ c < opt.chairCount, frame.tableUserItem c ≠ none) → EndOk opt given.offLine info frame) ∧
    (Expired info → ¬FirstHand info frame) ∧
    (VoteDue info → ¬Cleared info → ¬Expired info → ¬FirstHand info frame)

/-- **The condition.** No first hand of a private room is dismissed, it
ends while the room is open, with the AA rule those who are still there
sit at the first chairs, and the hands of a room are fewer than `2 ^ 32`. -/
def CostOk (opt : ServiceOption) (s : PrivateGame) : Event → Prop
  | .dismiss u dismiss _ => ∀ t ∈ s.userTable opt u,
      ∀ info ∈ vote u (s.userItem u).chairID dismiss (s.tableInfo t),
        voteDismisses (s.getSitUserCount opt t) info = true →
          ¬FirstHand (s.tableInfo t) (s.tableFrame t)
  | .standUp u given => given.leaveConcludes = true → ∀ t ∈ s.userTable opt u,
      EndOk opt given.offLine (s.tableInfo t) (s.tableFrame t)
  | .gameStart t _ =>
      (s.tableInfo t).createrUserID ≠ 0 → (s.tableInfo t).startPlayCout + 1 < 2 ^ 32
  | .gameEnd t given => t < opt.tableCount →
      EndOk opt given.offLine (s.tableInfo t) (s.tableFrame t)
  | .timer given => ∀ t < opt.tableCount,
      TimerCostOk opt given (s.tableInfo t) (s.tableFrame t)
  | .create .. | .join .. | .ready _ | .writeScore .. | .addPlayCout .. | .privateInfo _
  | .singleRecord .. => True

def roomOf (info : PrivateTableInfo) : Option Room :=
  if info.createrUserID = 0 then none
  else some
    { createrUserID := info.createrUserID
      roomType := info.roomType
      cardAA := info.isCardAARule
      playCost := info.playCost
      hands := info.startPlayCout }

/-- The records are those of the rooms that are open. -/
structure Accounted (s : PrivateGame) : Prop extends Charged s where
  room : ∀ t, (account s.log).room t = roomOf (s.tableInfo t)
  ended : ∀ t, (s.tableInfo t).inEnd = true → roomOf (s.tableInfo t) = none

/-! ## What costs nothing -/

theorem account_concat (log : List Effect) (o : Effect) :
    account (log ++ [o]) = (account log).next o := by
  rw [account, List.foldl_append]
  rfl

/-- An effect that the account does not follow. -/
def Effect.Silent (o : Effect) : Prop := ∀ a : Account, a.next o = a

theorem account_append {log new : List Effect} (h : ∀ o ∈ new, o.Silent) :
    account (log ++ new) = account log := by
  rw [account, List.foldl_append, ← account]
  generalize account log = a
  induction new with
  | nil => rfl
  | cons o new ih =>
    rw [List.foldl_cons, h o List.mem_cons_self a]
    exact ih fun o ho => h o (List.mem_cons_of_mem _ ho)

theorem silent_of_room {o : Effect} (hroom : ∀ t room, Room.next t room o = room)
    (hdue : ∀ a : Account, a.due o = []) : o.Silent := by
  intro a
  show (⟨fun t => Room.next t (a.room t) o, a.charges ++ a.due o⟩ : Account) = a
  rw [hdue, List.append_nil]
  congr
  funext t
  exact hroom t _

theorem silent_writeUserScore (u : UserID) (lScore : ℤ) :
    (Effect.writeUserScore u lScore).Silent := silent_of_room (fun _ _ => rfl) fun _ => rfl

theorem silent_privateCost (userID cost : ℕ) (costType : RoomType) :
    (Effect.privateCost userID cost costType).Silent :=
  silent_of_room (fun _ _ => rfl) fun _ => rfl

theorem silent_popValue (n : ℕ) : (Effect.popValue n).Silent :=
  silent_of_room (fun _ _ => rfl) fun _ => rfl

theorem silent_pushValue (n : ℕ) : (Effect.pushValue n).Silent :=
  silent_of_room (fun _ _ => rfl) fun _ => rfl

/-- No room is opened, closed or charged, and no first hand begins. -/
structure Still (s s' : PrivateGame) : Prop where
  room : ∀ t, roomOf (s'.tableInfo t) = roomOf (s.tableInfo t)
  inEnd : ∀ t, (s'.tableInfo t).inEnd = true → (s.tableInfo t).inEnd = true
  fault : s'.fault = s.fault
  log : ∃ new, s'.log = s.log ++ new ∧ ∀ o ∈ new, o.Silent ∧ o.charges = false

theorem Still.trans {s₁ s₂ s₃ : PrivateGame} (h : Still s₁ s₂) (h' : Still s₂ s₃) :
    Still s₁ s₃ where
  room t := (h'.room t).trans (h.room t)
  inEnd t ht := h.inEnd t (h'.inEnd t ht)
  fault := h'.fault.trans h.fault
  log := by
    obtain ⟨new, hlog, hnew⟩ := h.log
    obtain ⟨new', hlog', hnew'⟩ := h'.log
    refine ⟨new ++ new', by rw [hlog', hlog, List.append_assoc], fun o ho => ?_⟩
    exact (List.mem_append.1 ho).elim (hnew o) (hnew' o)

theorem Accounted.still (hs : Accounted s) (h : Still s s') : Accounted s' := by
  obtain ⟨new, hlog, hnew⟩ := h.log
  have hsame : account s'.log = account s.log := by
    rw [hlog]
    exact account_append fun o ho => (hnew o ho).1
  have hnone : new.filter Effect.charges = [] :=
    List.filter_eq_nil_iff.2 fun o ho => by simp [(hnew o ho).2]
  exact
    { charges := by rw [hsame, hlog, List.filter_append, hnone, List.append_nil, hs.charges]
      fault := h.fault.trans hs.fault
      room := fun t => by rw [hsame, h.room, hs.room]
      ended := fun t ht => by
        rw [h.room]
        exact hs.ended t (h.inEnd t ht) }

theorem still_sits (h : Sits s s') : Still s s' where
  room t := by rw [h.tableInfo]
  inEnd t ht := by rwa [h.tableInfo] at ht
  fault := h.fault
  log := by
    obtain ⟨scores, hlog⟩ := h.log
    refine ⟨_, hlog, fun o ho => ?_⟩
    obtain ⟨score, -, rfl⟩ := List.mem_map.1 ho
    exact ⟨silent_writeUserScore _ _, rfl⟩

theorem still_emit (s : PrivateGame) {effects : List Effect}
    (h : ∀ o ∈ effects, o.Silent ∧ o.charges = false) : Still s (s.emit effects) :=
  ⟨fun _ => rfl, fun _ h => h, rfl, effects, rfl, h⟩

theorem still_modifyInfo (s : PrivateGame) (t : ℕ) (f : PrivateTableInfo → PrivateTableInfo)
    (h : roomOf (f (s.tableInfo t)) = roomOf (s.tableInfo t))
    (hend : (f (s.tableInfo t)).inEnd = true → (s.tableInfo t).inEnd = true) :
    Still s (s.modifyInfo t f) where
  room t' := by
    show roomOf (Function.update s.tableInfo t _ t') = _
    by_cases ht : t' = t
    · subst ht
      rw [Function.update_self, h]
    · rw [Function.update_of_ne ht]
  inEnd t' ht' := by
    replace ht' : (Function.update s.tableInfo t _ t').inEnd = true := ht'
    by_cases ht : t' = t
    · subst ht
      rw [Function.update_self] at ht'
      exact hend ht'
    · rwa [Function.update_of_ne ht] at ht'
  fault := rfl
  log := ⟨[], (List.append_nil _).symm, nofun⟩

theorem roomOf_of_closed {info : PrivateTableInfo} (h : info.createrUserID = 0) :
    roomOf info = none := if_pos h

theorem closed_of_roomOf {info : PrivateTableInfo} (h : roomOf info = none) :
    info.createrUserID = 0 := by
  rw [roomOf] at h
  split at h
  · assumption
  · cases h

theorem still_restValue (h : (s.tableInfo t).createrUserID = 0) :
    Still s (s.modifyInfo t (PrivateTableInfo.restValue opt.toTableAttrib)) :=
  still_modifyInfo s t _ (by rw [roomOf_of_closed h]; rfl) nofun

theorem still_clearIdle (h : (s.tableInfo t).createrUserID = 0) :
    Still s (s.clearIdle opt t) := by
  obtain ⟨s₁, hseats, hclear⟩ := @clearIdle_eq opt s t
  rw [hclear]
  refine (still_sits hseats.sits).trans (still_restValue ?_)
  rw [hseats.tableInfo]
  exact h

/-! ## Rooms that open and close -/

/-- An effect on the room at one table. -/
theorem accounted_of_room (hs : Accounted s) {o : Effect} {new : List Effect}
    (hlog : s'.log = s.log ++ o :: new) (hfault : s'.fault = s.fault)
    (hdue : (account s.log).due o = []) (ho : o.charges = false)
    (hnew : ∀ o ∈ new, o.Silent ∧ o.charges = false)
    (hroom : ∀ t, Room.next t (roomOf (s.tableInfo t)) o = roomOf (s'.tableInfo t))
    (hended : ∀ t, (s'.tableInfo t).inEnd = true → roomOf (s'.tableInfo t) = none) :
    Accounted s' := by
  have haccount : account s'.log = (account s.log).next o := by
    rw [hlog, ← List.singleton_append, ← List.append_assoc,
      account_append fun o ho => (hnew o ho).1, account_concat]
  have hnone : (o :: new).filter Effect.charges = [] := by
    refine List.filter_eq_nil_iff.2 fun o' ho' => ?_
    rcases List.mem_cons.1 ho' with rfl | hmem
    · simp [ho]
    · simp [(hnew o' hmem).2]
  exact
    { charges := by
        rw [haccount, hlog, List.filter_append, hnone, List.append_nil, hs.charges]
        show _ = (account s.log).charges ++ (account s.log).due o
        rw [hdue, List.append_nil]
      fault := hfault.trans hs.fault
      room := fun t => by
        rw [haccount]
        show Room.next t ((account s.log).room t) o = _
        rw [hs.room, hroom]
      ended := hended }

theorem log_closeRoom (s : PrivateGame) (t : ℕ) :
    (s.closeRoom opt t).log = s.log ++
        [Effect.dismissRoom t (s.tableInfo t).createrUserID, .pushValue (number s t)] ∧
      (s.closeRoom opt t).fault = s.fault := by
  rw [closeRoom]
  split
  · exact ⟨List.append_assoc .., rfl⟩
  · obtain ⟨s₁, hseats, hclear⟩ := @clearIdle_eq opt (s.delPRMRedisKey t) t
    rw [hclear]
    refine ⟨?_, hseats.fault⟩
    show s₁.log ++ [_] = _
    rw [hseats.log]
    exact List.append_assoc ..

theorem Accounted.closeRoom (hs : Accounted s) (t : ℕ) : Accounted (s.closeRoom opt t) := by
  obtain ⟨hlog, hfault⟩ := @log_closeRoom opt s t
  have hclose := @closes_closeRoom opt s t
  refine accounted_of_room hs hlog hfault rfl rfl ?_ (fun t' => ?_) fun t' hend => ?_
  · intro o ho
    cases List.mem_singleton.1 ho
    exact ⟨silent_pushValue _, rfl⟩
  · rw [Room.next]
    by_cases ht : t = t'
    · subst ht
      rw [if_pos rfl, roomOf_of_closed hclose.createrUserID]
    · rw [if_neg ht, hclose.others t' (Ne.symm ht)]
  · by_cases ht : t = t'
    · subst ht
      exact roomOf_of_closed hclose.createrUserID
    · rw [hclose.others t' (Ne.symm ht)] at hend ⊢
      exact hs.ended t' hend

theorem Accounted.takeTable (hs : Accounted s) (t : ℕ) : Accounted (s.takeTable opt t) := by
  refine accounted_of_room hs rfl rfl rfl rfl nofun (fun t' => ?_) fun t' hend => ?_
  · show _ = roomOf (Function.update s.tableInfo t _ t')
    rw [Room.next]
    by_cases ht : t = t'
    · subst ht
      rw [if_pos rfl, Function.update_self]
      rfl
    · rw [if_neg ht, Function.update_of_ne (Ne.symm ht)]
  · by_cases ht : t' = t
    · subst ht
      rw [PrivateGame.takeTable, tableInfo_modifyInfo]
      rfl
    · have hsame : (s.takeTable opt t).tableInfo t' = s.tableInfo t' := Function.update_of_ne ht ..
      rw [hsame] at hend ⊢
      exact hs.ended t' hend

theorem roomOf_of_open {info : PrivateTableInfo} (h : info.createrUserID ≠ 0) :
    roomOf info = some
      { createrUserID := info.createrUserID
        roomType := info.roomType
        cardAA := info.isCardAARule
        playCost := info.playCost
        hands := info.startPlayCout } := if_neg h

/-- A room is opened at a table whose hands are counted from 0. -/
theorem Accounted.storeRoom (hs : Accounted s) (u : UserID) (request : CreatePrivateResult)
    (t time : ℕ) (hreset : (s.tableInfo t).startPlayCout = 0)
    (hend : (s.tableInfo t).inEnd = false) :
    Accounted (s.storeRoom opt u request t time) := by
  have hpop : Accounted (s.emit [.popValue s.allocationID.popValue.1]) := by
    refine hs.still (still_emit s fun o ho => ?_)
    cases List.mem_singleton.1 ho
    exact ⟨silent_popValue _, rfl⟩
  have hlog : (s.storeRoom opt u request t time).log =
      (s.emit [.popValue s.allocationID.popValue.1]).log ++
        [.createRoom t u request.roomType
          ((s.storeRoom opt u request t time).tableInfo t).isCardAARule
          ((s.storeRoom opt u request t time).tableInfo t).playCost] :=
    (List.append_assoc s.log [_] [_]).symm
  have hinfo : ((s.storeRoom opt u request t time).tableInfo t).createrUserID = u ∧
      ((s.storeRoom opt u request t time).tableInfo t).roomType = request.roomType ∧
      ((s.storeRoom opt u request t time).tableInfo t).startPlayCout = 0 ∧
      ((s.storeRoom opt u request t time).tableInfo t).inEnd = false := by
    rw [PrivateGame.storeRoom]
    dsimp only [modifyInfo, emit]
    rw [Function.update_self]
    exact ⟨rfl, rfl, hreset, hend⟩
  obtain ⟨hcreater, htype, hhands, hinEnd⟩ := hinfo
  have hothers : ∀ t', t' ≠ t → (s.storeRoom opt u request t time).tableInfo t' = s.tableInfo t' :=
    fun t' ht => Function.update_of_ne ht ..
  refine accounted_of_room hpop hlog rfl rfl rfl (by simp) (fun t' => ?_) fun t' hended => ?_
  · rw [Room.next]
    by_cases ht : t = t'
    · subst ht
      rw [if_pos rfl, roomOf_of_open (by rw [hcreater]; exact u.pos.ne'), hcreater, htype, hhands]
    · rw [if_neg ht, hothers t' (Ne.symm ht)]
      rfl
  · by_cases ht : t' = t
    · rw [ht, hinEnd] at hended
      cases hended
    · rw [hothers t' ht] at hended ⊢
      exact hs.ended t' hended

theorem roomOf_begins {info info' : PrivateTableInfo}
    (hcreater : info'.createrUserID = info.createrUserID) (htype : info'.roomType = info.roomType)
    (hrule : info'.isCardAARule = info.isCardAARule) (hcost : info'.playCost = info.playCost)
    (hhands : info'.startPlayCout = (info.startPlayCout + 1) % 2 ^ 32)
    (hok : info.createrUserID ≠ 0 → info.startPlayCout + 1 < 2 ^ 32) :
    (roomOf info).map (fun room => { room with hands := room.hands + 1 }) = roomOf info' := by
  by_cases hopen : info.createrUserID = 0
  · rw [roomOf_of_closed hopen, roomOf_of_closed (hcreater.trans hopen), Option.map_none]
  · rw [Nat.mod_eq_of_lt (hok hopen)] at hhands
    rw [roomOf_of_open hopen, roomOf_of_open (by rwa [hcreater]), hcreater, htype, hrule, hcost,
      hhands, Option.map_some]

theorem Accounted.startGame (hs : Accounted s) (t time : ℕ)
    (hok : (s.tableInfo t).createrUserID ≠ 0 → (s.tableInfo t).startPlayCout + 1 < 2 ^ 32) :
    Accounted (s.startGame opt t time) := by
  rw [PrivateGame.startGame]
  split
  · refine accounted_of_room hs rfl rfl rfl rfl (by simp) (fun t' => ?_) fun t' hended => ?_
    · rw [Room.next]
      by_cases ht : t = t'
      · subst ht
        rw [if_pos rfl, onEventGameStart, tableInfo_modifyInfo]
        exact roomOf_begins rfl rfl rfl rfl rfl hok
      · rw [if_neg ht]
        show _ = roomOf (Function.update s.tableInfo t _ t')
        rw [Function.update_of_ne (Ne.symm ht)]
    · by_cases ht : t' = t
      · subst ht
        rw [onEventGameStart, tableInfo_modifyInfo] at hended ⊢
        have hclosed := closed_of_roomOf (hs.ended t' hended)
        exact roomOf_of_closed hclosed
      · replace hended : (Function.update s.tableInfo t _ t').inEnd = true := hended
        show roomOf (Function.update s.tableInfo t _ t') = none
        rw [Function.update_of_ne ht] at hended ⊢
        exact hs.ended t' hended
  · exact hs

/-! ## Who stays at a table whose hand is over -/

theorem getTableUserItem_eq_some {c : ℕ} (h : s.getTableUserItem opt t c = some u) :
    (s.tableFrame t).tableUserItem c = some u := by
  rw [getTableUserItem] at h
  split at h
  · exact h
  · cases h

theorem getTableUserItem_leaveTable (hs : Seats s) {c : ℕ}
    (hu : s.getTableUserItem opt t c = some u) (c' : ℕ) :
    (s.leaveTable opt u t).getTableUserItem opt t c' =
      if c' = c then none else s.getTableUserItem opt t c' := by
  have hchair := (hs.place t c u (getTableUserItem_eq_some hu)).2
  rw [PrivateGame.leaveTable]
  rw [hchair, if_pos hu, getTableUserItem, getTableUserItem]
  show (if c' < opt.chairCount then (Function.update s.tableFrame t _ t).tableUserItem c'
    else none) = _
  rw [Function.update_self]
  by_cases hc : c' = c
  · rw [hc, if_pos rfl]
    dsimp only
    rw [Function.update_self, ite_self]
  · rw [if_neg hc]
    dsimp only
    rw [Function.update_of_ne hc]

/-- Of the users at some chairs, those without a connection leave. -/
theorem getTableUserItem_leaveOffLine (offLine : List UserID) (cs : List ℕ) (c : ℕ) :
    ∀ s : PrivateGame, Seats s →
      (leaveChairs opt (fun s u => if u ∈ offLine then s.leaveTable opt u t else s) t cs
          s).getTableUserItem opt t c =
        if c ∈ cs then (s.getTableUserItem opt t c).filter fun u => decide (u ∉ offLine)
        else s.getTableUserItem opt t c := by
  induction cs with
  | nil => exact fun s _ => rfl
  | cons c₀ cs ih =>
    intro s hs
    rw [leaveChairs]
    cases hget : s.getTableUserItem opt t c₀ with
    | none =>
      rw [ih s hs]
      by_cases hc : c = c₀
      · rw [hc, hget, if_pos List.mem_cons_self]
        exact ite_self _
      · simp only [List.mem_cons, hc, false_or]
    | some u =>
      have hplace := hs.place t c₀ u (getTableUserItem_eq_some hget)
      dsimp only
      rw [hplace.1, if_pos (show (some t).isSome = true from rfl)]
      by_cases hoff : u ∈ offLine
      · rw [if_pos hoff, ih _ (hs.leaveTable u t), getTableUserItem_leaveTable hs hget]
        by_cases hc : c = c₀
        · rw [hc, hget, if_pos rfl, if_pos List.mem_cons_self, Option.filter_some]
          simp [hoff]
        · simp only [List.mem_cons, hc, false_or, if_false]
      · rw [if_neg hoff, ih s hs]
        by_cases hc : c = c₀
        · rw [hc, hget, if_pos List.mem_cons_self, Option.filter_some]
          simp [hoff]
        · simp only [List.mem_cons, hc, false_or]

/-- What is seen of a table whose hand is over: its users who have a
connection. -/
theorem getTableUserItem_over (hs : Seats s) (offLine : List UserID) {c : ℕ}
    (hc : c < opt.chairCount) :
    ((s.setFrame t { s.tableFrame t with gameStarted := false }).leaveOffLine opt t
        offLine).getTableUserItem opt t c = stays (s.tableFrame t) offLine c := by
  rw [PrivateGame.leaveOffLine, getTableUserItem_leaveOffLine offLine _ c _
    (hs.stay (stay_setFrame s t false)), if_pos (List.mem_range.2 hc), getTableUserItem, if_pos hc]
  show ((Function.update s.tableFrame t _ t).tableUserItem c).filter _ = _
  rw [Function.update_self]
  rfl

theorem seated_over (hs : Seats s) (offLine : List UserID) :
    ((s.setFrame t { s.tableFrame t with gameStarted := false }).leaveOffLine opt t offLine).seated
      opt t = staying opt (s.tableFrame t) offLine := by
  exact List.filterMap_congr fun c hc => getTableUserItem_over hs offLine (List.mem_range.1 hc)

/-! ## The end of a hand -/

/-- If the first `n` places are taken, where `n` is how many are taken at
all, then these are all. -/
theorem filterMap_range_first {α : Type*} (g : ℕ → Option α) (N : ℕ)
    (h : ∀ c < ((List.range N).filterMap g).length, (g c).isSome = true) :
    (List.range ((List.range N).filterMap g).length).filterMap g = (List.range N).filterMap g := by
  generalize hn : ((List.range N).filterMap g).length = n at *
  have hle : n ≤ N := by
    have hlength := List.length_filterMap_le g (List.range N)
    rwa [hn, List.length_range] at hlength
  obtain ⟨k, rfl⟩ := Nat.exists_eq_add_of_le hle
  have hfirst : ((List.range n).filterMap g).length = n := by
    have hall := List.filterMap_length_eq_length.2 fun c hc => h c (List.mem_range.1 hc)
    rwa [List.length_range] at hall
  rw [List.range_add, List.filterMap_append, List.length_append, hfirst] at hn
  have hrest := List.eq_nil_of_length_eq_zero (Nat.add_left_cancel (hn.trans n.add_zero.symm))
  rw [List.range_add, List.filterMap_append, hrest, List.append_nil]

/-- The cost that is requested, for a room with these players. -/
theorem createPrivateCost_eq (s : PrivateGame) (t : ℕ) (seated : List UserID)
    (hseated : s.seated opt t = seated) (htype : (s.tableInfo t).roomType = .typePrivate)
    (hcount : (s.tableInfo t).startPlayCout = 1) (hopen : (s.tableInfo t).createrUserID ≠ 0)
    (hshare : (s.tableInfo t).isCardAARule = true → seated ≠ [] ∧
      ∀ c < seated.length, (s.getTableUserItem opt t c).isSome = true) :
    ∃ room, roomOf (s.tableInfo t) = some room ∧
      s.createPrivateCost opt t = s.emit (room.charges seated) := by
  refine ⟨_, roomOf_of_open hopen, ?_⟩
  rw [Room.charges, if_pos ⟨htype, hcount⟩, createPrivateCost, htype]
  by_cases haa : (s.tableInfo t).isCardAARule = true
  · obtain ⟨hsome, hfirst⟩ := hshare haa
    have hlength : seated.length ≠ 0 := fun h => hsome (List.eq_nil_of_length_eq_zero h)
    rw [if_pos haa, if_pos haa, everyOnePrivateCost, getSitUserCount, hseated]
    dsimp only
    rw [if_neg (fun h => hlength h.2), if_pos rfl, htype, ← List.map_filterMap]
    have hall := filterMap_range_first (s.getTableUserItem opt t) opt.chairCount (by
      rw [← hseated] at hfirst
      exact hfirst)
    rw [PrivateGame.seated] at hseated
    rw [hseated] at hall
    rw [hall]
  · rw [if_neg haa, if_neg haa, createrPlayerPrivateCost, htype]

theorem still_publicCost (s : PrivateGame) (t : ℕ)
    (htype : (s.tableInfo t).roomType = .typePublic) : Still s (s.createPrivateCost opt t) := by
  rw [createPrivateCost, htype]
  refine still_emit s fun o ho => ?_
  obtain ⟨c, -, ho⟩ := List.mem_filterMap.1 ho
  obtain ⟨v, -, rfl⟩ := Option.map_eq_some_iff.1 ho
  rw [htype]
  exact ⟨silent_privateCost _ _ _, rfl⟩

theorem mem_charges {room : Room} {seated : List UserID} {o : Effect}
    (ho : o ∈ room.charges seated) : o.Silent ∧ o.charges = true := by
  rw [Room.charges] at ho
  split at ho
  · split at ho
    · obtain ⟨v, -, rfl⟩ := List.mem_map.1 ho
      exact ⟨silent_privateCost _ _ _, rfl⟩
    · cases List.mem_singleton.1 ho
      exact ⟨silent_privateCost _ _ _, rfl⟩
  · cases ho

/-- The first hand is over, and its cost is requested. -/
theorem Accounted.charge (hs : Accounted s) (t : ℕ) (seated : List UserID) {room : Room}
    (hroom : roomOf (s.tableInfo t) = some room) :
    Accounted ((s.emit [.concludeGame t false seated]).emit (room.charges seated)) := by
  have haccount : account ((s.log ++ [Effect.concludeGame t false seated]) ++ room.charges seated) =
      (account s.log).next (.concludeGame t false seated) := by
    rw [account_append fun o ho => (mem_charges ho).1, account_concat]
  have hdue : (account s.log).due (.concludeGame t false seated) = room.charges seated := by
    rw [Account.due, hs.room, hroom]
  have hfilter : (room.charges seated).filter Effect.charges = room.charges seated :=
    List.filter_eq_self.2 fun o ho => (mem_charges ho).2
  exact
    { charges := by
        show ((s.log ++ [Effect.concludeGame t false seated]) ++ room.charges seated).filter _ =
          (account ((s.log ++ [Effect.concludeGame t false seated]) ++ room.charges seated)).charges
        rw [haccount, List.filter_append, List.filter_append, hs.charges, hfilter]
        show ((account s.log).charges ++ []) ++ _ = (account s.log).charges ++ _
        rw [hdue, List.append_nil]
      fault := hs.fault
      room := fun t' => by
        show (account ((s.log ++ [Effect.concludeGame t false seated]) ++
          room.charges seated)).room t' = _
        rw [haccount]
        exact hs.room t'
      ended := hs.ended }

theorem Accounted.free (hs : Accounted s) (t : ℕ) (dismissed : Bool) (seated : List UserID)
    (hfree : dismissed = false → (s.tableInfo t).roomType = .typePrivate →
      (s.tableInfo t).startPlayCout ≠ 1) :
    Accounted (s.emit [.concludeGame t dismissed seated]) := by
  refine accounted_of_room hs rfl rfl ?_ rfl nofun (fun _ => rfl) hs.ended
  cases dismissed with
  | true => rfl
  | false =>
    rw [Account.due, hs.room]
    by_cases hopen : (s.tableInfo t).createrUserID = 0
    · rw [roomOf_of_closed hopen]
    · rw [roomOf_of_open hopen]
      exact if_neg fun h => hfree rfl h.1 h.2

/-- What the room does when a hand is over. -/
theorem Accounted.onEventGameEnd (hs : Accounted s) (t : ℕ) (dismissed : Bool)
    (seated : List UserID) (hseated : s.seated opt t = seated) (given : Given)
    (hok : (s.tableInfo t).roomType = .typePrivate → (s.tableInfo t).startPlayCout = 1 →
      dismissed = false ∧ (s.tableInfo t).createrUserID ≠ 0 ∧
        ((s.tableInfo t).isCardAARule = true → seated ≠ [] ∧
          ∀ c < seated.length, (s.getTableUserItem opt t c).isSome = true)) :
    Accounted ((s.emit [.concludeGame t dismissed seated]).onEventGameEnd opt t gameStatusFree
      given) := by
  rw [PrivateGame.onEventGameEnd]
  split
  · rename_i htype
    dsimp only
    have hcharged : Accounted (if gameStatusFree ≠ gerDismiss ∧
        ((s.emit [.concludeGame t dismissed seated]).tableInfo t).startPlayCout = 1 then
          (s.emit [.concludeGame t dismissed seated]).createPrivateCost opt t
        else s.emit [.concludeGame t dismissed seated]) := by
      split
      · rename_i hfirst
        obtain ⟨rfl, hopen, hshare⟩ := hok htype hfirst.2
        obtain ⟨room, hroom, hcost⟩ := @createPrivateCost_eq opt
          (s.emit [.concludeGame t false seated]) t seated hseated htype hfirst.2 hopen hshare
        rw [hcost]
        exact hs.charge t seated hroom
      · rename_i hfirst
        exact hs.free t dismissed seated fun _ _ hcount => hfirst ⟨by decide, hcount⟩
    split
    · exact hcharged.closeRoom t
    · exact hcharged
  · rename_i htype
    have hfree := hs.free t dismissed seated fun _ hprivate => by
      have hcontra : RoomType.typePublic = .typePrivate := htype.symm.trans hprivate
      cases hcontra
    have hclosed := @Accounted.closeRoom opt _ (hfree.still (@still_publicCost opt _ t htype)) t
    exact hclosed.still (still_clearIdle (closes_closeRoom _ t).createrUserID)

/-- **A hand is over.** -/
theorem Accounted.concludeGame (hs : Accounted s) (hseats : Seats s) (t : ℕ) (dismissed : Bool)
    (given : Given) (hok : FirstHand (s.tableInfo t) (s.tableFrame t) → dismissed = false ∧
      (s.tableInfo t).createrUserID ≠ 0 ∧ ((s.tableInfo t).isCardAARule = true →
        Together opt (s.tableFrame t) given.offLine)) :
    Accounted (s.concludeGame opt t dismissed given) := by
  by_cases hgame : (s.tableFrame t).gameStarted = true
  · have honly := (onlySeats_setFrame s t { s.tableFrame t with gameStarted := false }).trans
      (@onlySeats_leaveOffLine opt _ t given.offLine)
    rw [PrivateGame.concludeGame, if_pos hgame]
    dsimp only
    rw [seated_over hseats]
    refine (hs.still (still_sits honly.sits)).onEventGameEnd t dismissed _
      (seated_over hseats given.offLine) given ?_
    rw [honly.tableInfo]
    intro htype hcount
    obtain ⟨hend, hopen, hshare⟩ := hok ⟨hgame, htype, hcount⟩
    refine ⟨hend, hopen, fun haa => ⟨(hshare haa).1, fun c hc => ?_⟩⟩
    have hlength := List.length_filterMap_le (stays (s.tableFrame t) given.offLine)
      (List.range opt.chairCount)
    rw [List.length_range] at hlength
    rw [getTableUserItem_over hseats given.offLine (Nat.lt_of_lt_of_le hc hlength)]
    exact (hshare haa).2 c hc
  · rw [concludeGame_of_idle (Bool.eq_false_iff.2 hgame)]
    exact hs

theorem Accounted.dismissRoom (hs : Accounted s) (hseats : Seats s) (t : ℕ) (given : Given)
    (hok : ¬FirstHand (s.tableInfo t) (s.tableFrame t)) :
    Accounted (s.dismissRoom opt t given) :=
  (hs.concludeGame hseats t true given fun hfirst => absurd hfirst hok).closeRoom t

theorem Accounted.performStandUpAction (hs : Accounted s) (hseats : Seats s) (u : UserID) (t : ℕ)
    (given : Given) (hok : given.leaveConcludes = true →
      EndOk opt given.offLine (s.tableInfo t) (s.tableFrame t)) :
    Accounted (s.performStandUpAction opt u t given) := by
  refine Accounted.still ?_ (still_sits (onlySeats_leaveTable ..).sits)
  split
  · rename_i hleave
    exact hs.concludeGame hseats t false given fun hfirst => ⟨rfl, hok hleave hfirst⟩
  · exact hs

/-- A hand that is over opens no room. -/
theorem closed_concludeGame (hclosed : (s.tableInfo t).createrUserID = 0) (dismissed : Bool)
    (given : Given) :
    ((s.concludeGame opt t dismissed given).tableInfo t).createrUserID = 0 := by
  have hend : ∀ s : PrivateGame, (s.tableInfo t).createrUserID = 0 →
      ((s.onEventGameEnd opt t gameStatusFree given).tableInfo t).createrUserID = 0 := by
    intro s hclosed
    rw [PrivateGame.onEventGameEnd]
    split
    · dsimp only
      split
      · exact (closes_closeRoom _ t).createrUserID
      · split
        · rw [tableInfo_createPrivateCost]
          exact hclosed
        · exact hclosed
    · have hclose := @closes_closeRoom opt (s.createPrivateCost opt t) t
      rw [(quiet_clearIdle hclose.createrUserID).createrUserID]
      exact hclose.createrUserID
  by_cases hgame : (s.tableFrame t).gameStarted = true
  · obtain ⟨s₁, -, hinfo, heq⟩ := @concludeGame_eq opt s t dismissed given hgame
    rw [heq]
    exact hend s₁ (by rw [hinfo]; exact hclosed)
  · rw [concludeGame_of_idle (Bool.eq_false_iff.2 hgame)]
    exact hclosed

/-- What the accounts of a table without a room need while its users
leave. -/
structure Leaving (t : ℕ) (given : Given) (s : PrivateGame) : Prop where
  seats : Seats s
  accounted : Accounted s
  closed : (s.tableInfo t).createrUserID = 0
  noFirstHand : given.leaveConcludes = true → ¬FirstHand (s.tableInfo t) (s.tableFrame t)

theorem Leaving.performStandUpAction (h : Leaving t given s) (u : UserID) :
    Leaving t given (s.performStandUpAction opt u t given) where
  seats := h.seats.performStandUpAction ..
  accounted := h.accounted.performStandUpAction h.seats u t given fun hleave hfirst =>
    absurd hfirst (h.noFirstHand hleave)
  closed := by
    rw [PrivateGame.performStandUpAction, (onlySeats_leaveTable ..).tableInfo]
    split
    · exact closed_concludeGame h.closed false given
    · exact h.closed
  noFirstHand hleave hfirst := by
    -- the hand that ran is over now
    have hidle := @idle_concludeGame opt s t false given
    have hgame := hfirst.1
    rw [PrivateGame.performStandUpAction, gameStarted_leaveTable, if_pos hleave] at hgame
    rw [Idle, hgame] at hidle
    cases hidle

section

variable (hs : Accounted s) (hseats : Seats s) (t : ℕ)
include hs hseats

theorem Accounted.clearRoom (given : Given) (hclosed : (s.tableInfo t).createrUserID = 0)
    (hok : given.leaveConcludes = true →
      (∃ c < opt.chairCount, (s.tableFrame t).tableUserItem c ≠ none) →
      EndOk opt given.offLine (s.tableInfo t) (s.tableFrame t)) :
    Accounted (s.clearRoom opt t given) := by
  rw [PrivateGame.clearRoom]
  by_cases hseated : ∃ c < opt.chairCount, (s.tableFrame t).tableUserItem c ≠ none
  · have hleaving : Leaving t given s :=
      ⟨hseats, hs, hclosed, fun hleave hfirst => (hok hleave hseated hfirst).1 hclosed⟩
    have hleft := @leaveChairs_keeps opt (Leaving t given)
      (fun s u => s.performStandUpAction opt u t given) (fun _ u h => h.performStandUpAction u) t
      (List.range opt.chairCount) s hleaving
    exact hleft.accounted.still (still_restValue hleft.closed)
  · push Not at hseated
    rw [leaveChairs_of_empty hseated]
    exact hs.still (still_restValue hclosed)

/-! ## The timer -/

/-- A room that has ended waits, or is cleared. -/
theorem Accounted.timerAgain (given : Given)
    (hok : Cleared (s.tableInfo t) → given.leaveConcludes = true →
      (∃ c < opt.chairCount, (s.tableFrame t).tableUserItem c ≠ none) →
      EndOk opt given.offLine (s.tableInfo t) (s.tableFrame t)) :
    Accounted (s.timerAgain opt t given) := by
  rw [PrivateGame.timerAgain]
  split
  · rename_i hend
    have htick := hs.still (still_modifyInfo s t
      (fun info => { info with againPastTime := info.againPastTime + 5 }) rfl id)
    dsimp only
    split
    · rename_i hdue
      rw [tableInfo_modifyInfo] at hdue
      refine htick.clearRoom (hseats.stay (stay_modifyInfo ..)) t given ?_ ?_
      · rw [tableInfo_modifyInfo]
        exact closed_of_roomOf (hs.ended t hend)
      · rw [tableInfo_modifyInfo]
        exact hok ⟨hend, hdue⟩
    · exact htick
  · exact hs

/-- A room that has not started waits, or is dismissed. -/
theorem Accounted.timerCreate (given : Given)
    (hok : Expired (s.tableInfo t) → ¬FirstHand (s.tableInfo t) (s.tableFrame t)) :
    Accounted (s.timerCreate opt t given) := by
  rw [PrivateGame.timerCreate]
  split
  · rename_i hopen
    have htick := hs.still (still_modifyInfo s t
      (fun info => { info with createTime := info.createTime + 5 }) rfl id)
    dsimp only
    split
    · rename_i hdue
      refine htick.dismissRoom (hseats.stay (stay_modifyInfo ..)) t given ?_
      rw [tableInfo_modifyInfo] at hdue ⊢
      exact hok ⟨Nat.pos_iff_ne_zero.1 hopen.1, hopen.2, hdue⟩
    · exact htick
  · exact hs

theorem Accounted.timerDismiss (given : Given)
    (hok : VoteDue (s.tableInfo t) → ¬FirstHand (s.tableInfo t) (s.tableFrame t)) :
    Accounted (s.timerDismiss opt t given) := by
  rw [PrivateGame.timerDismiss]
  split
  · rename_i hvote
    have htick := hs.still (still_modifyInfo s t
      (fun info => { info with dismissPastTime := info.dismissPastTime + 5 }) rfl id)
    dsimp only
    split
    · rename_i hdue
      refine htick.dismissRoom (hseats.stay (stay_modifyInfo ..)) t given ?_
      rw [tableInfo_modifyInfo] at hdue ⊢
      exact hok ⟨hvote, hdue⟩
    · exact htick
  · exact hs

end

/-- After the room that has not started had its turn. -/
theorem timerCreate_idle (s : PrivateGame) (t : ℕ) (given : Given) :
    Idle (s.timerCreate opt t given) t ∨
      (¬Expired (s.tableInfo t) ∧
        (s.timerCreate opt t given).tableFrame t = s.tableFrame t ∧
        ∃ createTime, (s.timerCreate opt t given).tableInfo t =
          { s.tableInfo t with createTime }) := by
  rw [PrivateGame.timerCreate]
  split
  · dsimp only
    rw [tableInfo_modifyInfo]
    split
    · exact .inl (idle_dismissRoom ..)
    · rename_i hdue
      exact .inr ⟨fun h => hdue h.2.2, rfl, _, tableInfo_modifyInfo ..⟩
  · rename_i hopen
    exact .inr ⟨fun h => hopen ⟨Nat.pos_of_ne_zero h.1, h.2.1⟩, rfl, _, rfl⟩

/-- **The timer at a table.** -/
theorem Accounted.timerTable (hs : Accounted s) (hseats : Seats s) (t : ℕ) (given : Given)
    (hok : TimerCostOk opt given (s.tableInfo t) (s.tableFrame t)) :
    Accounted (s.timerTable opt t given) := by
  obtain ⟨hclear, hcreate, hvote⟩ := hok
  have hagain := hs.timerAgain hseats t given hclear
  have hseats₁ : Seats (s.timerAgain opt t given) := hseats.timerAgain t given
  rw [PrivateGame.timerTable]
  rcases @timerAgain_cases opt s t given with ⟨-, hclosed, hnil⟩ | ⟨hnot, hframe, _, hinfo⟩
  · rw [timerCreate_of_closed hclosed, timerDismiss_of_nil hnil]
    exact hagain
  · have hok₁ : Expired ((s.timerAgain opt t given).tableInfo t) →
        ¬FirstHand ((s.timerAgain opt t given).tableInfo t)
          ((s.timerAgain opt t given).tableFrame t) := by
      rw [hinfo, hframe]
      exact hcreate
    have hcreated : Accounted ((s.timerAgain opt t given).timerCreate opt t given) :=
      hagain.timerCreate hseats₁ t given hok₁
    have hseats₂ : Seats ((s.timerAgain opt t given).timerCreate opt t given) :=
      hseats₁.timerCreate t given
    refine hcreated.timerDismiss hseats₂ t given ?_
    rcases @timerCreate_idle opt (s.timerAgain opt t given) t given with
      hidle | ⟨hnot₁, hframe₁, _, hinfo₁⟩
    · exact fun _ hfirst => Bool.false_ne_true (hidle.symm.trans hfirst.1)
    · rw [hinfo₁, hframe₁, hinfo, hframe]
      rw [hinfo] at hnot₁
      exact fun hdue => hvote hdue hnot hnot₁

/-! ## Creating a room -/

/-- A room is opened at a table whose record is new. -/
theorem Accounted.enterRoom (hs : Accounted s) (t : ℕ) (u : UserID) (request : CreatePrivateResult)
    (given : Given) (hreset : (s.tableInfo t).startPlayCout = 0)
    (hend : (s.tableInfo t).inEnd = false) : Accounted (s.enterRoom opt u request t given) := by
  rw [PrivateGame.enterRoom]
  have hsits := @sits_joinPrivateRoom opt s u t given.admits
  have hjoined := hs.still (still_sits hsits)
  split
  · refine Accounted.still ?_ (still_sits (sits_onActionUserSitDown ..))
    refine hjoined.storeRoom u request t given.time ?_ ?_
    · rw [hsits.tableInfo]
      exact hreset
    · rw [hsits.tableInfo]
      exact hend
  · exact hjoined

theorem Accounted.onEventCreatePrivate (hs : Accounted s) (u : UserID)
    (request : CreatePrivateResult) (given : Given) :
    Accounted (s.onEventCreatePrivate opt u request given) := by
  rw [PrivateGame.onEventCreatePrivate]
  split
  · exact hs
  · split
    · -- the room is created again
      rename_i t _
      split
      · exact hs
      · split
        · exact hs.still (still_sits (sits_joinPrivateRoom ..))
        · rename_i hend
          rw [Bool.not_eq_false] at hend
          have hclosed := hs.ended t hend
          have hcreater := closed_of_roomOf hclosed
          have hreset := hs.still (still_modifyInfo s t
            (PrivateTableInfo.restAgainValue opt.toTableAttrib)
            (by rw [hclosed]; exact roomOf_of_closed hcreater) (by rintro ⟨⟩))
          refine hreset.enterRoom t u request given ?_ ?_
          · rw [tableInfo_modifyInfo]
            rfl
          · rw [tableInfo_modifyInfo]
            rfl
    · split
      · exact hs
      · rename_i t _
        dsimp only
        split
        · exact hs.takeTable t
        · refine (hs.takeTable t).enterRoom t u request given ?_ ?_
          · rw [PrivateGame.takeTable, tableInfo_modifyInfo]
            rfl
          · rw [PrivateGame.takeTable, tableInfo_modifyInfo]
            rfl

/-! ## Every event, and a run -/

theorem Accounted.onTCPNetworkSubDismissPrivate (hs : Accounted s) (hseats : Seats s) (u : UserID)
    (dismiss : Bool) (given : Given) (hok : CostOk opt s (.dismiss u dismiss given)) :
    Accounted (s.onTCPNetworkSubDismissPrivate opt u dismiss given) := by
  rw [PrivateGame.onTCPNetworkSubDismissPrivate]
  split
  · exact hs
  · rename_i t htable
    split
    · exact hs
    · rename_i info hvote
      obtain ⟨_, _, hinfo⟩ := vote_some hvote
      obtain ⟨_, _, _, hreject⟩ := rejectVote_eq info
      have hvoted : Accounted (s.modifyInfo t fun _ => rejectVote info) :=
        hs.still (still_modifyInfo s t _ (by rw [hreject, hinfo]; rfl)
          (by rw [hreject, hinfo]; exact id))
      split
      · rename_i hdismisses
        have hnot : ¬FirstHand ((s.modifyInfo t fun _ => rejectVote info).tableInfo t)
            ((s.modifyInfo t fun _ => rejectVote info).tableFrame t) := by
          rw [tableInfo_modifyInfo, hreject, hinfo]
          exact hok t htable info hvote hdismisses
        have hdismiss : Accounted
            ((s.modifyInfo t fun _ => rejectVote info).dismissRoom opt t given) :=
          hvoted.dismissRoom (hseats.stay (stay_modifyInfo ..)) t given hnot
        rw [clearRoom_of_idle (idle_dismissRoom ..)]
        exact hdismiss.still (still_clearIdle (closes_closeRoom _ t).createrUserID)
      · exact hvoted

theorem still_writeTableScore (s : PrivateGame) (t : ℕ) (lScore : List ℤ) (time : ℕ) :
    Still s (s.writeTableScore t lScore time) := by
  obtain ⟨_, _, heq⟩ := writeSocre_eq lScore time (s.tableInfo t)
  refine still_modifyInfo s t _ ?_ ?_
  all_goals rw [heq]
  · rfl
  · exact id

/-- **What one event keeps.** -/
theorem Accounted.handle (hs : Accounted s) (hseats : Seats s) (e : Event) (hok : CostOk opt s e) :
    Accounted (s.handle opt e) := by
  cases e with
  | create u request given => exact hs.onEventCreatePrivate u request given
  | join u roomNum given =>
    show Accounted (s.onTCPNetworkSubJoinPrivate opt u roomNum given)
    rw [onTCPNetworkSubJoinPrivate]
    split
    · exact hs
    · dsimp only
      split
      · exact hs
      · exact hs.still (still_sits (sits_joinPrivateRoom ..))
  | dismiss u dismiss given => exact hs.onTCPNetworkSubDismissPrivate hseats u dismiss given hok
  | standUp u given =>
    rw [PrivateGame.handle]
    split
    · exact hs
    · rename_i t htable
      exact hs.performStandUpAction hseats u t given fun hleave => hok hleave t htable
  | ready u => exact hs.still (still_sits (sits_onActionUserOnReady ..))
  | gameStart t time => exact hs.startGame t time hok
  | gameEnd t given =>
    rw [PrivateGame.handle]
    split
    · rename_i ht
      exact hs.concludeGame hseats t false given fun hfirst => ⟨rfl, hok ht hfirst⟩
    · exact hs
  | writeScore t lScore time => exact hs.still (still_writeTableScore ..)
  | addPlayCout t cout =>
    show Accounted (s.addPrivatePlayCout t cout)
    exact hs.still (still_modifyInfo s t _ rfl id)
  | timer given =>
    have htable : ∀ s t, Accounted s ∧ Seats s → t < opt.tableCount →
        TimerCostOk opt given (s.tableInfo t) (s.tableFrame t) →
        Accounted (s.timerTable opt t given) ∧ Seats (s.timerTable opt t given) :=
      fun s t h _ hok => ⟨h.1.timerTable h.2 t given hok, h.2.timerTable t given⟩
    exact (@timer_keeps opt s given (fun s => Accounted s ∧ Seats s)
      (fun info frame _ => TimerCostOk opt given info frame) htable ⟨hs, hseats⟩ hok).1
  | privateInfo info =>
    exact hs.still ⟨fun _ => rfl, fun _ h => h, rfl, [], (List.append_nil _).symm, (by simp)⟩
  | singleRecord createrUserID recordID =>
    show Accounted (s.singleRecord opt createrUserID recordID)
    rw [singleRecord]
    split
    · exact hs
    · refine hs.still (still_modifyInfo s _ _ ?_ id)
      simp only [roomOf, PrivateTableInfo.isCardAARule]

theorem accounted_init (opt : ServiceOption) (order : Shuffle) (memory : ℕ → ℕ × ℤ)
    (userItem : UserID → UserItem) : Accounted (init opt order memory userItem) where
  charges := rfl
  fault := rfl
  room _ := rfl
  ended _ _ := rfl

/-- **The cost in a run.** Where each event of a run meets the condition,
in every state the run goes through that was charged which was to be. -/
theorem charged_prefixes (opt : ServiceOption) (es : List Event) (order : Shuffle)
    (memory : ℕ → ℕ × ℤ) (userItem : UserID → UserItem)
    (hok : (step opt).Along (CostOk opt) (init opt order memory userItem) es) (n : ℕ) :
    Charged ((step opt).run (init opt order memory userItem) (es.take n)).1 := by
  have hstep : ∀ s e, Accounted s ∧ Seats s → CostOk opt s e →
      Accounted (step opt s e).1 ∧ Seats (step opt s e).1 := by
    intro s e ⟨hs, hseats⟩ hok
    refine ⟨?_, seats_step s e hseats⟩
    rw [PrivateGame.step]
    split
    · exact hs
    · exact hs.handle hseats e hok
  exact (TotalMachine.inv_prefixes hstep es _ ⟨accounted_init opt order memory userItem,
    seats_init order memory userItem⟩ hok n).1.toCharged

instance (info : PrivateTableInfo) (frame : TableFrame) : Decidable (FirstHand info frame) :=
  inferInstanceAs (Decidable (_ ∧ _ ∧ _))

instance (opt : ServiceOption) (frame : TableFrame) (offLine : List UserID) :
    Decidable (Together opt frame offLine) := inferInstanceAs (Decidable (_ ∧ ∀ _ < _, _))

instance (opt : ServiceOption) (offLine : List UserID) (info : PrivateTableInfo)
    (frame : TableFrame) : Decidable (EndOk opt offLine info frame) :=
  inferInstanceAs (Decidable (_ → _ ∧ (_ → _)))

/-- Two users share the cost of a room, and play its first hand. -/
def sharedRoom : List Event :=
  [.privateInfo { playCost := fun _ => 10 }, .create 1 { gameRuleIdex := 1 } {},
    .join 2 150001 {}, .gameStart 0 0, .gameEnd 0 {}]

theorem charged_sharedRoom :
    Charged ((step smallServer).run (init smallServer orderly (fun _ => (0, 0)) fun _ => {})
        (sharedRoom.take 5)).1 ∧
      ((step smallServer).run (init smallServer orderly (fun _ => (0, 0)) fun _ => {})
        sharedRoom).1.log.filter Effect.charges =
          [.privateCost 1 5 .typePrivate, .privateCost 2 5 .typePrivate] := by
  refine ⟨charged_prefixes smallServer sharedRoom orderly (fun _ => (0, 0)) (fun _ => {})
    ⟨trivial, trivial, trivial, ?_, ?_, trivial⟩ 5, by decide +kernel⟩
  · exact fun _ => by decide +kernel
  · exact fun _ => by decide +kernel

/-- A room that is dismissed while its first hand runs is charged. -/
theorem not_charged_dismissed :
    ¬∀ (opt : ServiceOption) (es : List Event) (order : Shuffle) (memory : ℕ → ℕ × ℤ)
      (userItem : UserID → UserItem) (n : ℕ),
      Charged ((step opt).run (init opt order memory userItem) (es.take n)).1 := by
  intro h
  have hcharges := (h smallServer [.create 1 {} {}, .join 2 150001 {}, .gameStart 0 0,
    .dismiss 1 true {}] orderly (fun _ => (0, 0)) (fun _ => {}) 4).charges
  revert hcharges
  decide +kernel

end GameServer.PrivateService
