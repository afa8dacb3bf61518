import GameServer.PrivateService.Tables
import Mathlib.Data.Finset.Card
/-!
# PrivateService — the registry of rooms

The rooms that are open, their numbers and `wCurTable` (`Registered`). A
room is closed once as long as nothing that closes rooms comes upon one
that is not open, no hand that is being dismissed closes its room as well,
and nobody is given a table whose room is open (`RegistryOk`).
-/

namespace GameServer.PrivateService

open PrivateGame ServiceCore

variable {opt : ServiceOption} {s s' : PrivateGame} {u : UserID} {t n : ℕ} {given : Given}

/-- The tables whose rooms are open: somebody has created them. -/
def openTables (opt : ServiceOption) (s : PrivateGame) : Finset ℕ :=
  (Finset.range opt.tableCount).filter fun t => (s.tableInfo t).createrUserID ≠ 0

def number (s : PrivateGame) (t : ℕ) : ℕ := (s.tableInfo t).roomNum % 10000

/-- The open rooms with a number. -/
def holders (opt : ServiceOption) (s : PrivateGame) (n : ℕ) : Finset ℕ :=
  (openTables opt s).filter fun t => number s t = n

/-- **What the registry is for.** Open rooms have different numbers of the
allocator, each number that was taken is given back once when its room is
closed, `wCurTable` counts the open rooms, and no room is closed that is
not open and no table given away whose room is. -/
structure Registered (opt : ServiceOption) (s : PrivateGame) : Prop where
  distinct : ∀ t ∈ openTables opt s, ∀ t' ∈ openTables opt s, number s t = number s t' → t = t'
  nonzero : ∀ t ∈ openTables opt s, number s t ≠ 0
  givenBack : ∀ n, s.log.count (.popValue n) = s.log.count (.pushValue n) + (holders opt s n).card
  curTable : s.curTable = (openTables opt s).card
  dismissed : ∀ t createrUserID, Effect.dismissRoom t createrUserID ∈ s.log → createrUserID ≠ 0
  taken : ∀ t createrUserID, Effect.takeTable t createrUserID ∈ s.log → createrUserID = 0

/-! ## When it is kept -/

/-- The room is open, and the end of a hand that is being dismissed does
not close it. -/
def Dismissable (info : PrivateTableInfo) (frame : TableFrame) (privateEnd : Bool) : Prop :=
  info.createrUserID ≠ 0 ∧
    (frame.gameStarted = true → info.roomType = .typePrivate ∧ privateEnd = false)

/-- If the end of the hand closes the room, it is open. -/
def HandEndOk (info : PrivateTableInfo) (frame : TableFrame) (privateEnd : Bool) : Prop :=
  frame.gameStarted = true → (info.roomType = .typePublic ∨ privateEnd = true) →
    info.createrUserID ≠ 0

/-- A user would be let sit down at a table, or is at it. -/
def Seatable (opt : ServiceOption) (s : PrivateGame) (u : UserID) (t : ℕ) (admits : Bool) : Prop :=
  u ∈ s.seated opt t ∨
    ((∃ c < opt.chairCount, s.getTableUserItem opt t c = none) ∧
      ((s.userItem u).tableID = some t ∨ ((s.userItem u).tableID = none ∧ admits = true)))

def NumberLeft (opt : ServiceOption) (s : PrivateGame) (u : UserID) (t : ℕ) (given : Given) :
    Prop :=
  Seatable opt s u t given.admits → opt.serverID < 90 → s.allocationID.allocationIDQueue ≠ []

/-- A table is given to a creator when its room is not open. -/
def CreateOk (opt : ServiceOption) (s : PrivateGame) (u : UserID) (request : CreatePrivateResult)
    (given : Given) : Prop :=
  request.sucess = true → request.playCoutIdex < 4 →
    match request.againTable with
    | some t => t < opt.tableCount → (s.tableInfo t).inEnd = true → NumberLeft opt s u t given
    | none => ∀ t, s.freeTable opt = some t → (s.tableInfo t).createrUserID = 0 ∧
        (s.getTableInfoByCreaterID opt u = none → NumberLeft opt s u t given)

/-- The timer clears the room that has ended. -/
def Cleared (info : PrivateTableInfo) : Prop :=
  info.inEnd = true ∧ againWaiteTime ≤ info.againPastTime + 5

/-- The timer dismisses a room that has not started in time. -/
def Expired (info : PrivateTableInfo) : Prop :=
  info.createrUserID ≠ 0 ∧ info.start = false ∧ createPrivateFreeTime ≤ info.createTime + 5

def VoteDue (info : PrivateTableInfo) : Prop :=
  info.dismissChairID ≠ [] ∧ dismissWaiteTime ≤ info.dismissPastTime + 5 ∧
    info.notAgreeChairID.length ≤ 1

def TimerOk (opt : ServiceOption) (given : Given) (info : PrivateTableInfo) (frame : TableFrame)
    (t : ℕ) : Prop :=
  (Cleared info → given.leaveConcludes = true →
      (∃ c < opt.chairCount, frame.tableUserItem c ≠ none) →
      HandEndOk info frame (given.privateEnd t)) ∧
    (Expired info → Dismissable info frame (given.privateEnd t)) ∧
    (VoteDue info → ¬Cleared info → ¬Expired info → Dismissable info frame (given.privateEnd t))

/-- **The condition.** What closes a room finds it open, a hand that is
dismissed does not close its room itself, no table is given away whose
room is open, and the allocator has a number left. -/
def RegistryOk (opt : ServiceOption) (s : PrivateGame) : Event → Prop
  | .create u request given => CreateOk opt s u request given
  | .dismiss u dismiss given => ∀ t, s.userTable opt u = some t →
      ∀ info, vote u (s.userItem u).chairID dismiss (s.tableInfo t) = some info →
        voteDismisses (s.getSitUserCount opt t) info = true →
          Dismissable (s.tableInfo t) (s.tableFrame t) (given.privateEnd t)
  | .standUp u given => given.leaveConcludes = true → ∀ t, s.userTable opt u = some t →
      HandEndOk (s.tableInfo t) (s.tableFrame t) (given.privateEnd t)
  | .gameEnd t given => t < opt.tableCount →
      HandEndOk (s.tableInfo t) (s.tableFrame t) (given.privateEnd t)
  | .timer given => ∀ t, t < opt.tableCount →
      TimerOk opt given (s.tableInfo t) (s.tableFrame t) t
  | .join .. | .ready _ | .gameStart .. | .writeScore .. | .addPlayCout .. | .privateInfo _
  | .singleRecord .. => True

/-- The registry, with what the numbers in use are for. -/
structure Registry (opt : ServiceOption) (s : PrivateGame) : Prop extends Registered opt s where
  inUse : ∀ t ∈ openTables opt s, s.allocationID.allocationIDMap (number s t) = some false
  ended : ∀ t, (s.tableInfo t).inEnd = true → (s.tableInfo t).createrUserID = 0

/-! ## What leaves the registry alone -/

def Effect.registers : Effect → Bool
  | .popValue _ | .pushValue _ | .dismissRoom .. | .takeTable .. => true
  | _ => false

/-- No room is opened or closed. The record of a room that is not open may
be reset. -/
structure Quiet (s s' : PrivateGame) : Prop where
  createrUserID : ∀ t, (s'.tableInfo t).createrUserID = (s.tableInfo t).createrUserID
  roomNum : ∀ t, (s.tableInfo t).createrUserID ≠ 0 →
    (s'.tableInfo t).roomNum = (s.tableInfo t).roomNum
  inEnd : ∀ t, (s'.tableInfo t).inEnd = true → (s.tableInfo t).inEnd = true
  allocationID : s'.allocationID = s.allocationID
  curTable : s'.curTable = s.curTable
  log : s'.log.filter Effect.registers = s.log.filter Effect.registers

theorem Quiet.refl (s : PrivateGame) : Quiet s s :=
  ⟨fun _ => rfl, fun _ _ => rfl, fun _ h => h, rfl, rfl, rfl⟩

theorem Quiet.trans {s₁ s₂ s₃ : PrivateGame} (h : Quiet s₁ s₂) (h' : Quiet s₂ s₃) :
    Quiet s₁ s₃ where
  createrUserID t := (h'.createrUserID t).trans (h.createrUserID t)
  roomNum t ht := (h'.roomNum t (by rw [h.createrUserID]; exact ht)).trans (h.roomNum t ht)
  inEnd t ht := h.inEnd t (h'.inEnd t ht)
  allocationID := h'.allocationID.trans h.allocationID
  curTable := h'.curTable.trans h.curTable
  log := h'.log.trans h.log

theorem mem_openTables : t ∈ openTables opt s ↔
    t < opt.tableCount ∧ (s.tableInfo t).createrUserID ≠ 0 := by
  rw [openTables, Finset.mem_filter, Finset.mem_range]

theorem mem_holders : t ∈ holders opt s n ↔ t ∈ openTables opt s ∧ number s t = n :=
  Finset.mem_filter

theorem Quiet.openTables (h : Quiet s s') : openTables opt s' = openTables opt s := by
  ext t
  rw [mem_openTables, mem_openTables, h.createrUserID]

theorem Quiet.number (h : Quiet s s') (ht : t ∈ PrivateService.openTables opt s) :
    number s' t = number s t := by
  rw [PrivateService.number, h.roomNum t (mem_openTables.1 ht).2, PrivateService.number]

theorem Quiet.holders (h : Quiet s s') (n : ℕ) : holders opt s' n = holders opt s n := by
  ext t
  rw [mem_holders, mem_holders, h.openTables]
  refine and_congr_right fun ht => ?_
  rw [h.number ht]

/-- Counts and members of the log, from its part about the registry. -/
theorem Quiet.count (h : Quiet s s') {o : Effect} (ho : o.registers = true) :
    s'.log.count o = s.log.count o := by
  rw [← List.count_filter ho, h.log, List.count_filter ho]

theorem Quiet.mem (h : Quiet s s') {o : Effect} (ho : o.registers = true) (hmem : o ∈ s'.log) :
    o ∈ s.log := by
  have hfilter : o ∈ s'.log.filter Effect.registers := List.mem_filter.2 ⟨hmem, ho⟩
  rw [h.log] at hfilter
  exact (List.mem_filter.1 hfilter).1

theorem Registry.quiet (hs : Registry opt s) (h : Quiet s s') : Registry opt s' where
  distinct t ht t' ht' heq := by
    rw [h.openTables] at ht ht'
    rw [h.number ht, h.number ht'] at heq
    exact hs.distinct t ht t' ht' heq
  nonzero t ht := by
    rw [h.openTables] at ht
    rw [h.number ht]
    exact hs.nonzero t ht
  givenBack n := by
    rw [h.count rfl, h.count rfl, h.holders]
    exact hs.givenBack n
  curTable := by
    rw [h.curTable, h.openTables]
    exact hs.curTable
  dismissed t c hmem := hs.dismissed t c (h.mem rfl hmem)
  taken t c hmem := hs.taken t c (h.mem rfl hmem)
  inUse t ht := by
    rw [h.openTables] at ht
    rw [h.number ht, h.allocationID]
    exact hs.inUse t ht
  ended t ht := by
    rw [h.createrUserID]
    exact hs.ended t (h.inEnd t ht)

theorem quiet_modifyInfo (s : PrivateGame) (t : ℕ) (f : PrivateTableInfo → PrivateTableInfo)
    (hcreater : (f (s.tableInfo t)).createrUserID = (s.tableInfo t).createrUserID)
    (hnum : (s.tableInfo t).createrUserID ≠ 0 →
      (f (s.tableInfo t)).roomNum = (s.tableInfo t).roomNum)
    (hend : (f (s.tableInfo t)).inEnd = true → (s.tableInfo t).inEnd = true) :
    Quiet s (s.modifyInfo t f) where
  createrUserID t' := by
    show (Function.update s.tableInfo t _ t').createrUserID = _
    by_cases ht : t' = t
    · rw [ht, Function.update_self, hcreater]
    · rw [Function.update_of_ne ht]
  roomNum t' ht' := by
    show (Function.update s.tableInfo t _ t').roomNum = _
    by_cases ht : t' = t
    · subst ht
      rw [Function.update_self, hnum ht']
    · rw [Function.update_of_ne ht]
  inEnd t' ht' := by
    replace ht' : (Function.update s.tableInfo t _ t').inEnd = true := ht'
    by_cases ht : t' = t
    · subst ht
      rw [Function.update_self] at ht'
      exact hend ht'
    · rwa [Function.update_of_ne ht] at ht'
  allocationID := rfl
  curTable := rfl
  log := rfl

theorem quiet_restValue (h : (s.tableInfo t).createrUserID = 0) :
    Quiet s (s.modifyInfo t (PrivateTableInfo.restValue opt.toTableAttrib)) :=
  quiet_modifyInfo s t _ h.symm (fun hne => absurd h hne) nofun

theorem quiet_sits (h : Sits s s') : Quiet s s' where
  createrUserID t := by rw [h.tableInfo]
  roomNum t _ := by rw [h.tableInfo]
  inEnd t ht := by rwa [h.tableInfo] at ht
  allocationID := h.allocationID
  curTable := h.curTable
  log := by
    obtain ⟨scores, hlog⟩ := h.log
    have hnone : (scores.map fun score => Effect.writeUserScore score.1 score.2).filter
        Effect.registers = [] := by
      refine List.filter_eq_nil_iff.2 fun o ho => ?_
      obtain ⟨score, -, rfl⟩ := List.mem_map.1 ho
      exact Bool.false_ne_true
    rw [hlog, List.filter_append, hnone, List.append_nil]

theorem quiet_onlySeats (h : OnlySeats s s') : Quiet s s' := quiet_sits h.sits

theorem quiet_clearIdle (h : (s.tableInfo t).createrUserID = 0) :
    Quiet s (s.clearIdle opt t) := by
  obtain ⟨s₁, hseats, hclear⟩ := @clearIdle_eq opt s t
  rw [hclear]
  refine (quiet_onlySeats hseats).trans (quiet_restValue ?_)
  rw [hseats.tableInfo]
  exact h

theorem quiet_emit (s : PrivateGame) {effects : List Effect}
    (h : ∀ o ∈ effects, o.registers = false) : Quiet s (s.emit effects) where
  createrUserID _ := rfl
  roomNum _ _ := rfl
  inEnd _ ht := ht
  allocationID := rfl
  curTable := rfl
  log := by
    have hnone : effects.filter Effect.registers = [] :=
      List.filter_eq_nil_iff.2 fun o ho => by simp [h o ho]
    show (s.log ++ effects).filter Effect.registers = _
    rw [List.filter_append, hnone, List.append_nil]

theorem quiet_everyOnePrivateCost (s : PrivateGame) (t : ℕ) (divideCost : Bool) :
    Quiet s (s.everyOnePrivateCost opt t divideCost) := by
  rw [everyOnePrivateCost]
  split
  · exact ⟨fun _ => rfl, fun _ _ => rfl, fun _ h => h, rfl, rfl, rfl⟩
  · refine quiet_emit _ fun o ho => ?_
    obtain ⟨c, -, ho⟩ := List.mem_filterMap.1 ho
    obtain ⟨v, -, rfl⟩ := Option.map_eq_some_iff.1 ho
    rfl

theorem quiet_createPrivateCost (s : PrivateGame) (t : ℕ) :
    Quiet s (s.createPrivateCost opt t) := by
  rw [createPrivateCost]
  split
  · split
    · exact quiet_everyOnePrivateCost ..
    · exact quiet_emit _ (by simp [Effect.registers])
  · exact quiet_everyOnePrivateCost ..

/-! ## Opening and closing a room -/

/-- A room is closed: its table has no creator any more, its number goes
back and `wCurTable` goes down. -/
structure Closes (t : ℕ) (s s' : PrivateGame) : Prop where
  others : ∀ t', t' ≠ t → s'.tableInfo t' = s.tableInfo t'
  createrUserID : (s'.tableInfo t).createrUserID = 0
  allocationID : s'.allocationID = s.allocationID.pushValue (number s t)
  curTable : s'.curTable = s.curTable - 1
  log : s'.log.filter Effect.registers = s.log.filter Effect.registers ++
    [.dismissRoom t (s.tableInfo t).createrUserID, .pushValue (number s t)]

theorem closes_closeRoom (s : PrivateGame) (t : ℕ) : Closes t s (s.closeRoom opt t) := by
  rw [closeRoom]
  split
  · exact
      { others := fun t' ht => Function.update_of_ne ht ..
        createrUserID := by
          show (Function.update s.tableInfo t _ t).createrUserID = 0
          rw [Function.update_self]
          rfl
        allocationID := rfl
        curTable := rfl
        log := by
          show ((s.log ++ [_]) ++ [_]).filter Effect.registers = _
          rw [List.append_assoc, List.filter_append]
          rfl }
  · obtain ⟨s₁, hseats, hclear⟩ := @clearIdle_eq opt (s.delPRMRedisKey t) t
    rw [hclear]
    exact
      { others := fun t' ht => by
          show Function.update s₁.tableInfo t _ t' = _
          rw [Function.update_of_ne ht, hseats.tableInfo]
          rfl
        createrUserID := by
          show (Function.update s₁.tableInfo t _ t).createrUserID = 0
          rw [Function.update_self]
          rfl
        allocationID := by
          show s₁.allocationID.pushValue _ = _
          rw [hseats.allocationID]
          rfl
        curTable := hseats.curTable
        log := by
          show (s₁.log ++ [_]).filter Effect.registers = _
          rw [hseats.log]
          show ((s.log ++ [_]) ++ [_]).filter Effect.registers = _
          rw [List.append_assoc, List.filter_append]
          rfl }

/-- **An open room is closed.** -/
theorem Registry.closes (hs : Registry opt s) (ht : t < opt.tableCount)
    (hopen : (s.tableInfo t).createrUserID ≠ 0) (h : Closes t s s') : Registry opt s' := by
  have hmem : t ∈ openTables opt s := mem_openTables.2 ⟨ht, hopen⟩
  have htables : openTables opt s' = (openTables opt s).erase t := by
    ext t'
    rw [Finset.mem_erase, mem_openTables, mem_openTables]
    by_cases heq : t' = t
    · subst heq
      simp [h.createrUserID]
    · simp [heq, h.others t' heq]
  have hnumber : ∀ t' ∈ openTables opt s', number s' t' = number s t' := by
    intro t' ht'
    rw [htables, Finset.mem_erase] at ht'
    rw [number, h.others t' ht'.1, number]
  have hholders : ∀ n, holders opt s' n = (holders opt s n).erase t := by
    intro n
    ext t'
    rw [Finset.mem_erase, mem_holders, mem_holders]
    constructor
    · rintro ⟨ht', hn⟩
      rw [hnumber t' ht'] at hn
      rw [htables, Finset.mem_erase] at ht'
      exact ⟨ht'.1, ht'.2, hn⟩
    · rintro ⟨hne, ht', hn⟩
      have ht'' : t' ∈ openTables opt s' := by
        rw [htables]
        exact Finset.mem_erase.2 ⟨hne, ht'⟩
      exact ⟨ht'', by rw [hnumber t' ht'']; exact hn⟩
  have hcount : ∀ o : Effect, o.registers = true → s'.log.count o = s.log.count o +
      [Effect.dismissRoom t (s.tableInfo t).createrUserID, .pushValue (number s t)].count o := by
    intro o ho
    rw [← List.count_filter ho, h.log, List.count_append, List.count_filter ho]
  have hlog : ∀ o ∈ s'.log, o.registers = true → o ∈ s.log ∨
      o = .dismissRoom t (s.tableInfo t).createrUserID ∨ o = .pushValue (number s t) := by
    intro o ho hreg
    have hfilter : o ∈ s'.log.filter Effect.registers := List.mem_filter.2 ⟨ho, hreg⟩
    rw [h.log, List.mem_append] at hfilter
    rcases hfilter with hold | hnew
    · exact .inl (List.mem_filter.1 hold).1
    · simp only [List.mem_cons, List.not_mem_nil, or_false] at hnew
      exact .inr hnew
  have hused := hs.inUse t hmem
  exact
    { distinct := fun t₁ h₁ t₂ h₂ heq => by
        rw [hnumber t₁ h₁, hnumber t₂ h₂] at heq
        rw [htables, Finset.mem_erase] at h₁ h₂
        exact hs.distinct t₁ h₁.2 t₂ h₂.2 heq
      nonzero := fun t' ht' => by
        rw [hnumber t' ht']
        rw [htables, Finset.mem_erase] at ht'
        exact hs.nonzero t' ht'.2
      givenBack := fun n => by
        rw [hcount _ rfl, hcount _ rfl, hholders, hs.givenBack n]
        by_cases hn : number s t = n
        · have hheld : t ∈ holders opt s n := mem_holders.2 ⟨hmem, hn⟩
          have hpos := Finset.card_pos.2 ⟨t, hheld⟩
          rw [Finset.card_erase_of_mem hheld, hn]
          simp only [List.count_cons, List.count_nil, beq_iff_eq, reduceCtorEq, if_false, if_true]
          omega
        · have hheld : t ∉ holders opt s n := fun hheld => hn (mem_holders.1 hheld).2
          rw [Finset.erase_eq_of_notMem hheld]
          simp only [List.count_cons, List.count_nil, beq_iff_eq, reduceCtorEq, if_false,
            Effect.pushValue.injEq, hn]
          omega
      curTable := by
        have hpos := Finset.card_pos.2 ⟨t, hmem⟩
        rw [h.curTable, hs.curTable, htables, Finset.card_erase_of_mem hmem]
        omega
      dismissed := fun t' c hc => by
        rcases hlog _ hc rfl with hold | heq | heq
        · exact hs.dismissed t' c hold
        · cases heq
          exact hopen
        · cases heq
      taken := fun t' c hc => by
        rcases hlog _ hc rfl with hold | heq | heq
        · exact hs.taken t' c hold
        · cases heq
        · cases heq
      inUse := fun t' ht' => by
        have hne : number s t' ≠ number s t := by
          rw [htables, Finset.mem_erase] at ht'
          exact fun heq => ht'.1 (hs.distinct t' ht'.2 t hmem heq)
        rw [hnumber t' ht', h.allocationID, AllocationID.pushValue_of_used hused,
          Function.update_of_ne hne]
        rw [htables, Finset.mem_erase] at ht'
        exact hs.inUse t' ht'.2
      ended := fun t' hend => by
        by_cases heq : t' = t
        · rw [heq, h.createrUserID]
        · rw [h.others t' heq] at hend ⊢
          exact hs.ended t' hend }

/-- A room is opened: its table has a creator, and a number that was left. -/
structure Opens (opt : ServiceOption) (t : ℕ) (s s' : PrivateGame) : Prop where
  others : ∀ t', t' ≠ t → s'.tableInfo t' = s.tableInfo t'
  createrUserID : (s'.tableInfo t).createrUserID ≠ 0
  roomNum : (s'.tableInfo t).roomNum = (opt.serverID + 10) * 10000 + s.allocationID.popValue.1
  inEnd : (s'.tableInfo t).inEnd = false
  allocationID : s'.allocationID = s.allocationID.popValue.2
  curTable : s'.curTable = s.curTable + 1
  log : s'.log.filter Effect.registers = s.log.filter Effect.registers ++
    [.popValue s.allocationID.popValue.1]

theorem opens_storeRoom (s : PrivateGame) (u : UserID) (request : CreatePrivateResult) (t time : ℕ)
    (hend : (s.tableInfo t).inEnd = false) : Opens opt t s (s.storeRoom opt u request t time) := by
  exact
    { others := fun t' ht => Function.update_of_ne ht ..
      createrUserID := by
        show (Function.update s.tableInfo t _ t).createrUserID ≠ 0
        rw [Function.update_self]
        exact u.pos.ne'
      roomNum := by
        show (Function.update s.tableInfo t _ t).roomNum = _
        rw [Function.update_self]
        rfl
      inEnd := by
        show (Function.update s.tableInfo t _ t).inEnd = false
        rw [Function.update_self]
        exact hend
      allocationID := rfl
      curTable := rfl
      log := by
        show (s.log ++ [_, _]).filter Effect.registers = _
        rw [List.filter_append]
        rfl }

/-- **A room is opened at a table without one.** -/
theorem Registry.opens (hs : Registry opt s) (ht : t < opt.tableCount)
    (hfree : (s.tableInfo t).createrUserID = 0) (hleft : s.allocationID.allocationIDQueue ≠ [])
    (h : Opens opt t s s') : Registry opt s' := by
  obtain ⟨hunused, hmap⟩ := AllocationID.popValue_of_ne hleft
  have hnum := h.roomNum
  have hnewLog := h.log
  have hallocation := h.allocationID
  generalize hpop : s.allocationID.popValue.1 = n at hunused hmap hnum hnewLog
  obtain ⟨hpos, hlt⟩ := AllocationID.lt_of_map hunused
  have hnew : number s' t = n := by
    have hlt' : n < 10000 := hlt
    rw [number, hnum]
    omega
  have hnot : t ∉ openTables opt s := fun hmem => (mem_openTables.1 hmem).2 hfree
  have htables : openTables opt s' = insert t (openTables opt s) := by
    ext t'
    rw [Finset.mem_insert, mem_openTables, mem_openTables]
    by_cases heq : t' = t
    · subst heq
      simp [h.createrUserID, ht]
    · simp [heq, h.others t' heq]
  have hnumber : ∀ t', t' ≠ t → number s' t' = number s t' := by
    intro t' hne
    rw [number, h.others t' hne, number]
  -- no open room has the number that was left
  have hfresh : ∀ t' ∈ openTables opt s, number s t' ≠ n := by
    intro t' ht' heq
    have hused := hs.inUse t' ht'
    rw [heq, hunused] at hused
    cases hused
  have hholders : ∀ k, holders opt s' k = if k = n then insert t (holders opt s k)
      else holders opt s k := by
    intro k
    ext t'
    by_cases heq : t' = t
    · subst heq
      have hold : t' ∉ holders opt s k := fun hmem => hnot (mem_holders.1 hmem).1
      rw [mem_holders, htables, hnew]
      by_cases hk : k = n
      · simp [hk]
      · simp [hk, hold, Ne.symm hk]
    · have hiff : t' ∈ holders opt s' k ↔ t' ∈ holders opt s k := by
        rw [mem_holders, mem_holders, htables, hnumber t' heq, Finset.mem_insert]
        simp [heq]
      rw [hiff]
      split
      · simp [heq]
      · rfl
  have hcount : ∀ o : Effect, o.registers = true → s'.log.count o = s.log.count o +
      [Effect.popValue n].count o := by
    intro o ho
    rw [← List.count_filter ho, hnewLog, List.count_append, List.count_filter ho]
  have hlog : ∀ o ∈ s'.log, o.registers = true → o ∈ s.log ∨ o = .popValue n := by
    intro o ho hreg
    have hfilter : o ∈ s'.log.filter Effect.registers := List.mem_filter.2 ⟨ho, hreg⟩
    rw [hnewLog, List.mem_append, List.mem_singleton] at hfilter
    exact hfilter.imp_left fun hold => (List.mem_filter.1 hold).1
  exact
    { distinct := fun t₁ h₁ t₂ h₂ heq => by
        rw [htables, Finset.mem_insert] at h₁ h₂
        by_cases hone : t₁ = t
        · by_cases htwo : t₂ = t
          · rw [hone, htwo]
          · rw [hone, hnew, hnumber t₂ htwo] at heq
            exact absurd heq.symm (hfresh t₂ (h₂.resolve_left htwo))
        · by_cases htwo : t₂ = t
          · rw [htwo, hnew, hnumber t₁ hone] at heq
            exact absurd heq (hfresh t₁ (h₁.resolve_left hone))
          · rw [hnumber t₁ hone, hnumber t₂ htwo] at heq
            exact hs.distinct t₁ (h₁.resolve_left hone) t₂ (h₂.resolve_left htwo) heq
      nonzero := fun t' ht' => by
        rw [htables, Finset.mem_insert] at ht'
        by_cases heq : t' = t
        · rw [heq, hnew]
          omega
        · rw [hnumber t' heq]
          exact hs.nonzero t' (ht'.resolve_left heq)
      givenBack := fun k => by
        rw [hcount _ rfl, hcount _ rfl, hholders, hs.givenBack k]
        by_cases hk : k = n
        · have hold : t ∉ holders opt s k := fun hmem => hnot (mem_holders.1 hmem).1
          rw [if_pos hk, Finset.card_insert_of_notMem hold, hk]
          simp only [List.count_cons, List.count_nil, beq_iff_eq, reduceCtorEq, if_false, if_true]
          omega
        · rw [if_neg hk]
          simp only [List.count_cons, List.count_nil, beq_iff_eq, reduceCtorEq, if_false,
            Effect.popValue.injEq, Ne.symm hk]
          omega
      curTable := by
        rw [h.curTable, hs.curTable, htables, Finset.card_insert_of_notMem hnot]
        rfl
      dismissed := fun t' c hc => by
        rcases hlog _ hc rfl with hold | heq
        · exact hs.dismissed t' c hold
        · cases heq
      taken := fun t' c hc => by
        rcases hlog _ hc rfl with hold | heq
        · exact hs.taken t' c hold
        · cases heq
      inUse := fun t' ht' => by
        rw [htables, Finset.mem_insert] at ht'
        rw [hallocation, hmap]
        by_cases heq : t' = t
        · rw [heq, hnew, Function.update_self]
        · have hold := ht'.resolve_left heq
          rw [hnumber t' heq, Function.update_of_ne (hfresh t' hold)]
          exact hs.inUse t' hold
      ended := fun t' hend => by
        by_cases heq : t' = t
        · rw [heq, h.inEnd] at hend
          cases hend
        · rw [h.others t' heq] at hend ⊢
          exact hs.ended t' hend }

/-- The table of a room that is not open is taken. -/
theorem Registry.takeTable (hs : Registry opt s) (hfree : (s.tableInfo t).createrUserID = 0) :
    Registry opt (s.takeTable opt t) := by
  have htaken : Registry opt (s.emit [.takeTable t (s.tableInfo t).createrUserID]) :=
    { hs with
      givenBack := fun n => by
        show (s.log ++ [_]).count _ = (s.log ++ [_]).count _ + _
        rw [List.count_append, List.count_append, hs.givenBack n]
        rfl
      dismissed := fun t' c hmem => by
        rcases List.mem_append.1 hmem with hold | hnew
        · exact hs.dismissed t' c hold
        · cases List.mem_singleton.1 hnew
      taken := fun t' c hmem => by
        rcases List.mem_append.1 hmem with hold | hnew
        · exact hs.taken t' c hold
        · cases List.mem_singleton.1 hnew
          exact hfree }
  exact htaken.quiet (quiet_restValue hfree)

end GameServer.PrivateService
