import GameServer.KernelEngine.Model.TimerEngine
import Mathlib.Data.List.Induction
import Mathlib.Data.List.Nodup
import Mathlib.Data.List.Perm.Basic
/-!
# KernelEngine — timers keep their counts

A step of the engine moves items between two arrays and changes the
timer of an identifier, so an item is always in one of the two and a
timer is active once (`Partitioned`). A pass of the thread posts one
event of each timer whose tick count has come, and counts it
(`posts_add_left`).

What can go wrong is the time. Tick counts have 32 bits and are compared
as numbers, so a timer that is due behind the next wrap has come as soon
as it is set. `StepOk` rules that out, and is exact.
-/

namespace GameServer.KernelEngine.TimerEngine

variable {s s' : TimerEngine} {item : TimerItem} {active free : List TimerItem}
variable {now timerID n : ℕ}

/-! ## What is asked of the engine -/

def Active (s : TimerEngine) (timerID : ℕ) : Prop :=
  ∃ item ∈ s.timerItemActive, item.wTimerID = timerID

def postsOf (timerID : ℕ) (posts : List TimerPost) : ℕ :=
  posts.countP fun post => post.timerID = timerID

/-- **An item is in one place**: a timer is active once, and the items
made are in the two arrays, each in one of them and once. -/
def Partitioned (s : TimerEngine) : Prop :=
  (s.timerItemActive.map TimerItem.wTimerID).Nodup ∧
    ((s.timerItemActive ++ s.timerItemFree).map TimerItem.address).Perm (List.range s.made)

/-- The tick count of a timer has come. -/
def Due (s : TimerEngine) (timerID now : ℕ) : Prop :=
  ∃ item ∈ s.timerItemActive, item.wTimerID = timerID ∧ item.destTime ≤ dword now

instance : Decidable (Due s timerID now) := by
  unfold Due
  infer_instance

/-- A pass of the thread posts no event before its time, and one of each
timer whose tick count has come. -/
def Punctual (s : TimerEngine) : TimerStep → Prop
  | .onTimerThreadSink now =>
      (∀ post ∈ (s.onTimerThreadSink now).2, post.due ≤ now) ∧
        ∀ timerID, postsOf timerID (s.onTimerThreadSink now).2 = if Due s timerID now then 1 else 0
  | _ => True

/-- The step sets or kills a timer. -/
def Concerns (timerID : ℕ) : TimerStep → Prop
  | .setTimer _ id _ _ _ _ => id = timerID
  | .killTimer id => id = timerID
  | .killAllTimer => True
  | .onTimerThreadSink _ => False

/-- **A timer that repeats `n` times posts `n` events**, until it is set
again or killed: never more, and it is active until then. -/
def Counts (es : List TimerStep) : Prop :=
  ∀ before now timerID elapse n bindParameter allocates fs,
    before ++ .setTimer now timerID elapse n bindParameter allocates :: fs <+: es →
    n < timesInfinity → (∀ e ∈ fs, ¬ Concerns timerID e) →
    ∀ s, ((step.run {} before).1.setTimer now timerID elapse n bindParameter allocates) = (s, true) →
      postsOf timerID (step.run s fs).2 ≤ n ∧
        (Active (step.run s fs).1 timerID ↔ postsOf timerID (step.run s fs).2 < n)

/-- The condition: a timer that is due behind the next wrap of the tick
count has a tick count that is not reached yet. -/
def StepOk (s : TimerEngine) : TimerStep → Prop
  | .onTimerThreadSink now =>
      ∀ item ∈ s.timerItemActive, item.due / 2 ^ 32 ≤ now / 2 ^ 32 ∨ dword now < item.destTime
  | _ => True

/-! ## A pass of the thread -/

/-- What becomes of an item that stays active. -/
def stays (now : ℕ) (item : TimerItem) : Option TimerItem :=
  if item.destTime ≤ dword now then
    if item.countDown.repeatTimes = 0 then none else some item.countDown.rearm
  else some item

/-- What becomes of an item that is free afterwards. -/
def leaves (now : ℕ) (item : TimerItem) : Option TimerItem :=
  if item.destTime ≤ dword now ∧ item.countDown.repeatTimes = 0 then some item.countDown else none

/-- The event of an item. -/
def postOf (now : ℕ) (item : TimerItem) : Option TimerPost :=
  if item.destTime ≤ dword now then some ⟨item.wTimerID, item.wBindParam, item.due, now⟩ else none

/-- **A pass of the thread**, item by item. -/
theorem sinkLoop_eq (now n : ℕ) (active rest : List TimerItem) : ∀ free : List TimerItem,
    sinkLoop now active.length ⟨free, active ++ rest, n⟩ =
      (⟨free ++ active.reverse.filterMap (leaves now), active.filterMap (stays now) ++ rest, n⟩,
        active.reverse.filterMap (postOf now)) := by
  induction active using List.reverseRecOn generalizing rest with
  | nil =>
    simp [sinkLoop]
  | append_singleton xs x ih =>
    intro free
    have hget : (xs ++ [x] ++ rest)[xs.length]? = some x := by simp
    rw [List.length_append, List.length_singleton, sinkLoop, hget]
    dsimp only
    by_cases hdue : x.destTime ≤ dword now
    · by_cases hlast : x.countDown.repeatTimes = 0
      · have hfire : fire ⟨free, xs ++ [x] ++ rest, n⟩ xs.length x =
            ⟨free ++ [x.countDown], xs ++ rest, n⟩ := by
          simp [fire, freeAt, hlast, List.eraseIdx_append_of_length_le]
        rw [if_pos hdue, hfire, ih]
        simp [stays, leaves, postOf, hdue, hlast]
      · have hfire : fire ⟨free, xs ++ [x] ++ rest, n⟩ xs.length x =
            ⟨free, xs ++ x.countDown.rearm :: rest, n⟩ := by
          simp [fire, hlast]
        rw [if_pos hdue, hfire, ih]
        simp [stays, leaves, postOf, hdue, hlast]
    · rw [if_neg hdue, List.append_assoc, List.singleton_append, ih]
      simp [stays, leaves, postOf, hdue]

theorem onTimerThreadSink_eq (s : TimerEngine) (now : ℕ) :
    s.onTimerThreadSink now =
      (⟨s.timerItemFree ++ s.timerItemActive.reverse.filterMap (leaves now),
        s.timerItemActive.filterMap (stays now), s.made⟩,
        s.timerItemActive.reverse.filterMap (postOf now)) := by
  have h := sinkLoop_eq now s.made s.timerItemActive [] s.timerItemFree
  rwa [List.append_nil, List.append_nil] at h

/-! ## Single items -/

section Items

variable {elapse repeatTimes bindParameter address : ℕ}

@[simp] theorem rearm_id : item.rearm.wTimerID = item.wTimerID := rfl

@[simp] theorem rearm_address : item.rearm.address = item.address := rfl

@[simp] theorem rearm_repeatTimes : item.rearm.repeatTimes = item.repeatTimes := rfl

theorem rearm_dest (h : item.destTime = dword item.due) :
    item.rearm.destTime = dword item.rearm.due := by
  change dword (item.destTime + item.interval) = dword (item.due + item.interval)
  rw [h, dword, dword, dword, Nat.mod_add_mod]

@[simp] theorem countDown_id : item.countDown.wTimerID = item.wTimerID := by
  unfold TimerItem.countDown
  split <;> rfl

@[simp] theorem countDown_address : item.countDown.address = item.address := by
  unfold TimerItem.countDown
  split <;> rfl

theorem countDown_dest (h : item.destTime = dword item.due) :
    item.countDown.destTime = dword item.countDown.due := by
  unfold TimerItem.countDown
  split
  · exact h
  · exact h

theorem countDown_finite (h : item.repeatTimes ≠ timesInfinity) :
    item.countDown.repeatTimes = item.repeatTimes - 1 := by
  rw [TimerItem.countDown, if_neg h]

@[simp] theorem timerOf_id :
    (timerOf now timerID elapse repeatTimes bindParameter address).wTimerID = timerID := rfl

@[simp] theorem timerOf_address :
    (timerOf now timerID elapse repeatTimes bindParameter address).address = address := rfl

@[simp] theorem timerOf_repeatTimes :
    (timerOf now timerID elapse repeatTimes bindParameter address).repeatTimes = repeatTimes := rfl

theorem timerOf_dest :
    (timerOf now timerID elapse repeatTimes bindParameter address).destTime =
      dword (timerOf now timerID elapse repeatTimes bindParameter address).due :=
  rearm_dest rfl

end Items

theorem stays_id {kept : TimerItem} (h : stays now item = some kept) :
    kept.wTimerID = item.wTimerID := by
  unfold stays at h
  split_ifs at h
  · cases h
    rw [rearm_id, countDown_id]
  · cases h
    rfl

theorem stays_or_leaves (now : ℕ) (item : TimerItem) :
    (∃ kept, stays now item = some kept ∧ leaves now item = none ∧ kept.address = item.address) ∨
      ∃ freed, stays now item = none ∧ leaves now item = some freed ∧
        freed.address = item.address := by
  unfold stays leaves
  by_cases hdue : item.destTime ≤ dword now
  · by_cases hlast : item.countDown.repeatTimes = 0
    · exact Or.inr ⟨item.countDown, by simp [hdue, hlast], by simp [hdue, hlast],
        countDown_address⟩
    · exact Or.inl ⟨item.countDown.rearm, by simp [hdue, hlast], by simp [hlast],
        countDown_address⟩
  · exact Or.inl ⟨item, by simp [hdue], by simp [hdue], rfl⟩

theorem stays_leaves_perm (now : ℕ) (active : List TimerItem) :
    ((active.filterMap (stays now) ++ active.filterMap (leaves now)).map TimerItem.address).Perm
      (active.map TimerItem.address) := by
  induction active with
  | nil => exact List.Perm.nil
  | cons item active ih =>
    rcases stays_or_leaves now item with ⟨kept, hstays, hleaves, haddr⟩ |
      ⟨freed, hstays, hleaves, haddr⟩
    · rw [List.filterMap_cons_some hstays, List.filterMap_cons_none hleaves, List.cons_append,
        List.map_cons, List.map_cons, haddr]
      exact ih.cons _
    · rw [List.filterMap_cons_none hstays, List.filterMap_cons_some hleaves, List.map_cons, ← haddr]
      refine List.Perm.trans ?_ (ih.cons _)
      rw [List.map_append, List.map_append, List.map_cons]
      exact List.perm_middle

/-- The timers that stay are some of the timers, in their order. -/
theorem stays_ids (now : ℕ) (active : List TimerItem) :
    ((active.filterMap (stays now)).map TimerItem.wTimerID).Sublist
      (active.map TimerItem.wTimerID) := by
  induction active with
  | nil => exact List.Sublist.refl _
  | cons item active ih =>
    cases hstays : stays now item with
    | none =>
      rw [List.filterMap_cons_none hstays]
      exact ih.cons _
    | some kept =>
      rw [List.filterMap_cons_some hstays, List.map_cons, List.map_cons, stays_id hstays]
      exact ih.cons_cons _

/-! ## Finding a timer -/

theorem findTimer_some {i : ℕ} (h : findTimer active timerID n = some i) :
    ∃ item, active[i]? = some item ∧ item.wTimerID = timerID := by
  induction n with
  | zero => cases h
  | succ n ih =>
    rw [findTimer] at h
    split_ifs at h with hid
    · cases h
      exact Option.map_eq_some_iff.1 hid
    · exact ih h

theorem findTimer_none (h : findTimer active timerID n = none) {i : ℕ} (hi : i < n)
    (hget : active[i]? = some item) : item.wTimerID ≠ timerID := by
  induction n with
  | zero => omega
  | succ n ih =>
    rw [findTimer] at h
    split_ifs at h with hid
    rcases Nat.lt_succ_iff_lt_or_eq.1 hi with hlt | rfl
    · exact ih h hlt
    · intro heq
      rw [hget, Option.map_some, heq] at hid
      exact hid rfl

/-- **A timer is found where it is.** -/
theorem findActive_cases (s : TimerEngine) (timerID : ℕ) :
    (s.findActive timerID = none ∧ ¬ Active s timerID) ∨
      ∃ xs item ys, s.timerItemActive = xs ++ item :: ys ∧ item.wTimerID = timerID ∧
        s.findActive timerID = some xs.length := by
  cases hfind : s.findActive timerID with
  | none =>
    refine Or.inl ⟨rfl, ?_⟩
    rintro ⟨item, hmem, hid⟩
    obtain ⟨i, hi, hget⟩ := List.mem_iff_getElem.1 hmem
    exact findTimer_none hfind hi (List.getElem?_eq_some_iff.2 ⟨hi, hget⟩) hid
  | some i =>
    obtain ⟨item, hget, hid⟩ := findTimer_some hfind
    obtain ⟨hi, hitem⟩ := List.getElem?_eq_some_iff.1 hget
    refine Or.inr ⟨s.timerItemActive.take i, item, s.timerItemActive.drop (i + 1), ?_, hid, ?_⟩
    · rw [← hitem, ← List.drop_eq_getElem_cons hi, List.take_append_drop]
    · rw [List.length_take, Nat.min_eq_left hi.le]

/-! ## What a step keeps -/

/-- The invariant: also, `dwDestTime` is what 32 bits keep of the time it
stands for, and an active timer has something left to repeat. -/
structure Sound (s : TimerEngine) : Prop where
  partitioned : Partitioned s
  dest : ∀ item ∈ s.timerItemActive, item.destTime = dword item.due
  left : ∀ item ∈ s.timerItemActive, item.repeatTimes ≠ 0

/-- What `SetTimer` and `KillTimer` do to the timers of an engine: other
timers stay as they are. -/
def Others (timerID : ℕ) (s s' : TimerEngine) : Prop :=
  ∀ item : TimerItem, item.wTimerID ≠ timerID →
    (item ∈ s'.timerItemActive ↔ item ∈ s.timerItemActive)

section Changes

variable {timer : TimerItem} {xs ys : List TimerItem}

theorem modify_middle {f : TimerItem → TimerItem} (xs : List TimerItem) :
    (xs ++ item :: ys).modify xs.length f = xs ++ f item :: ys := by
  induction xs with
  | nil => rfl
  | cons x xs ih => rw [List.cons_append, List.length_cons, List.modify_succ_cons, ih, List.cons_append]

theorem Sound.append (h : Sound s) (hfresh : ¬ Active s timer.wTimerID)
    (hdest : timer.destTime = dword timer.due) (hleft : timer.repeatTimes ≠ 0)
    (hitems : ((s.timerItemActive ++ [timer] ++ free).map TimerItem.address).Perm (List.range n)) :
    Sound ⟨free, s.timerItemActive ++ [timer], n⟩ := by
  refine ⟨⟨?_, hitems⟩, fun item hmem => ?_, fun item hmem => ?_⟩
  · rw [List.map_append]
    refine List.nodup_append.2 ⟨h.partitioned.1, List.nodup_singleton _, ?_⟩
    rintro id hid other hother rfl
    obtain ⟨item, hmem, heq⟩ := List.mem_map.1 hid
    exact hfresh ⟨item, hmem, heq.trans (List.mem_singleton.1 hother)⟩
  · rcases List.mem_append.1 hmem with hmem | hmem
    · exact h.dest item hmem
    · rw [List.mem_singleton.1 hmem]
      exact hdest
  · rcases List.mem_append.1 hmem with hmem | hmem
    · exact h.left item hmem
    · rw [List.mem_singleton.1 hmem]
      exact hleft

/-- A timer in the place of one with its identifier and its address. -/
theorem Sound.replace (h : Sound s) (heq : s.timerItemActive = xs ++ item :: ys)
    (hid : timer.wTimerID = item.wTimerID) (haddr : timer.address = item.address)
    (hdest : timer.destTime = dword timer.due) (hleft : timer.repeatTimes ≠ 0) :
    Sound { s with timerItemActive := xs ++ timer :: ys } := by
  obtain ⟨⟨hids, hitems⟩, hdests, hlefts⟩ := h
  rw [heq] at hids hitems hdests hlefts
  have hmem : ∀ x ∈ xs ++ timer :: ys, x = timer ∨ x ∈ xs ++ item :: ys := by
    intro x hx
    rcases List.mem_append.1 hx with hx | hx
    · exact Or.inr (List.mem_append_left _ hx)
    · rcases List.mem_cons.1 hx with hx | hx
      · exact Or.inl hx
      · exact Or.inr (List.mem_append_right _ (List.mem_cons_of_mem _ hx))
  refine ⟨⟨?_, ?_⟩, fun x hx => ?_, fun x hx => ?_⟩
  · simpa [hid] using hids
  · simpa [haddr] using hitems
  · rcases hmem x hx with rfl | hx
    · exact hdest
    · exact hdests x hx
  · rcases hmem x hx with rfl | hx
    · exact hleft
    · exact hlefts x hx

theorem Sound.remove (h : Sound s) (heq : s.timerItemActive = xs ++ item :: ys) :
    Sound { s with timerItemActive := xs ++ ys, timerItemFree := s.timerItemFree ++ [item] } := by
  obtain ⟨⟨hids, hitems⟩, hdests, hlefts⟩ := h
  rw [heq] at hids hitems hdests hlefts
  have hsub : (xs ++ ys).Sublist (xs ++ item :: ys) :=
    (List.sublist_cons_self item ys).append_left xs
  refine ⟨⟨(hsub.map _).nodup hids, List.Perm.trans ?_ hitems⟩,
    fun x hx => hdests x (hsub.subset hx), fun x hx => hlefts x (hsub.subset hx)⟩
  refine List.Perm.map _ ?_
  rw [← List.append_assoc]
  refine (List.perm_append_singleton item _).trans ?_
  rw [List.append_assoc, List.append_assoc]
  exact List.perm_middle.symm

theorem others_append (hid : timer.wTimerID = timerID) :
    Others timerID s ⟨free, s.timerItemActive ++ [timer], n⟩ := by
  intro item hne
  refine ⟨fun hmem => ?_, fun hmem => List.mem_append_left _ hmem⟩
  rcases List.mem_append.1 hmem with hmem | hmem
  · exact hmem
  · exact absurd ((congrArg TimerItem.wTimerID (List.mem_singleton.1 hmem)).trans hid) hne

theorem others_replace (heq : s.timerItemActive = xs ++ item :: ys)
    (hid : timer.wTimerID = item.wTimerID) :
    Others item.wTimerID s { s with timerItemActive := xs ++ timer :: ys } := by
  intro x hne
  have hitem : x ≠ item := fun h => hne (congrArg TimerItem.wTimerID h)
  have htimer : x ≠ timer := fun h => hne ((congrArg TimerItem.wTimerID h).trans hid)
  simp [heq, hitem, htimer]

theorem others_remove (heq : s.timerItemActive = xs ++ item :: ys) :
    Others item.wTimerID s
      { s with timerItemActive := xs ++ ys, timerItemFree := s.timerItemFree ++ [item] } := by
  intro x hne
  have hitem : x ≠ item := fun h => hne (congrArg TimerItem.wTimerID h)
  simp [heq, hitem]

end Changes

/-- **`SetTimer`** leaves the timer active with its count, or the engine
as it is. -/
theorem setTimer_spec (h : Sound s) (now timerID elapse repeatTimes bindParameter : ℕ)
    (allocates : Bool) :
    s.setTimer now timerID elapse repeatTimes bindParameter allocates = (s, false) ∨
      ∃ s', s.setTimer now timerID elapse repeatTimes bindParameter allocates = (s', true) ∧
        Sound s' ∧ repeatTimes ≠ 0 ∧ Others timerID s s' ∧
        ∃ item ∈ s'.timerItemActive, item.wTimerID = timerID ∧ item.repeatTimes = repeatTimes := by
  unfold setTimer
  by_cases hzero : repeatTimes = 0
  · rw [if_pos hzero]
    exact Or.inl rfl
  rw [if_neg hzero]
  rcases findActive_cases s timerID with ⟨hnone, hactive⟩ | ⟨xs, item, ys, heq, hid, hfind⟩
  · rw [hnone]
    have hitems := h.partitioned.2
    rcases List.eq_nil_or_concat' s.timerItemFree with hfree | ⟨free, item, hfree⟩
    · rw [hfree, List.getLast?_nil]
      rw [hfree, List.append_nil] at hitems
      cases allocates with
      | false => exact Or.inl rfl
      | true =>
        refine Or.inr ⟨_, rfl, h.append hactive timerOf_dest hzero ?_, hzero, others_append timerOf_id, _,
          List.mem_append_right _ (List.mem_singleton_self _), timerOf_id, timerOf_repeatTimes⟩
        rw [List.append_nil, List.map_append, List.range_succ]
        exact hitems.append_right _
    · have herase : (free ++ [item]).eraseIdx ((free ++ [item]).length - 1) = free := by
        rw [List.length_append, List.length_singleton, Nat.add_sub_cancel,
          List.eraseIdx_append_of_length_le (Nat.le_refl _), Nat.sub_self]
        exact List.append_nil free
      rw [hfree, List.getLast?_concat, herase]
      refine Or.inr ⟨_, rfl, h.append hactive timerOf_dest hzero ?_, hzero, others_append timerOf_id, _,
        List.mem_append_right _ (List.mem_singleton_self _), timerOf_id, timerOf_repeatTimes⟩
      refine List.Perm.trans ?_ hitems
      have haddress : (s.timerItemActive ++ [timerOf now timerID elapse repeatTimes bindParameter
          item.address] ++ free).map TimerItem.address =
            (s.timerItemActive ++ ([item] ++ free)).map TimerItem.address := by
        simp
      rw [hfree, haddress]
      exact (List.perm_append_comm.append_left _).map _
  · have hmodify : s.timerItemActive.modify xs.length (fun item =>
        timerOf now timerID elapse repeatTimes bindParameter item.address) =
          xs ++ timerOf now timerID elapse repeatTimes bindParameter item.address :: ys := by
      rw [heq]
      exact modify_middle xs
    rw [hfind]
    dsimp only
    rw [hmodify]
    subst hid
    exact Or.inr ⟨_, rfl, h.replace heq rfl rfl timerOf_dest hzero, hzero, others_replace heq rfl, _,
      List.mem_append_right _ List.mem_cons_self, timerOf_id, timerOf_repeatTimes⟩

/-- **`KillTimer`.** -/
theorem killTimer_spec (h : Sound s) (timerID : ℕ) :
    Sound (s.killTimer timerID).1 ∧ Others timerID s (s.killTimer timerID).1 := by
  unfold killTimer
  rcases findActive_cases s timerID with ⟨hnone, -⟩ | ⟨xs, item, ys, heq, hid, hfind⟩
  · rw [hnone]
    exact ⟨h, fun _ _ => Iff.rfl⟩
  · have hget : s.timerItemActive[xs.length]? = some item := by
      rw [heq]
      simp
    have hfreed : s.freeAt xs.length item =
        { s with timerItemActive := xs ++ ys, timerItemFree := s.timerItemFree ++ [item] } := by
      rw [freeAt, heq, List.eraseIdx_append_of_length_le (Nat.le_refl _), Nat.sub_self]
      rfl
    rw [hfind]
    dsimp only
    rw [hget]
    dsimp only
    rw [hfreed]
    subst hid
    exact ⟨h.remove heq, others_remove heq⟩

theorem Sound.killAllTimer (h : Sound s) : Sound s.killAllTimer := by
  refine ⟨⟨List.nodup_nil, List.Perm.trans ?_ h.partitioned.2⟩, fun _ hmem => ?_, fun _ hmem => ?_⟩
  · change ((s.timerItemFree ++ s.timerItemActive).map _).Perm _
    exact List.perm_append_comm.map _
  · cases hmem
  · cases hmem

theorem stays_sound {kept : TimerItem} (h : stays now item = some kept)
    (hdest : item.destTime = dword item.due) (hleft : item.repeatTimes ≠ 0) :
    kept.destTime = dword kept.due ∧ kept.repeatTimes ≠ 0 := by
  unfold stays at h
  split_ifs at h with hdue hlast
  · cases h
    exact ⟨rearm_dest (countDown_dest hdest), hlast⟩
  · cases h
    exact ⟨hdest, hleft⟩

/-- **A pass of the thread.** -/
theorem Sound.onTimerThreadSink (h : Sound s) (now : ℕ) : Sound (s.onTimerThreadSink now).1 := by
  rw [onTimerThreadSink_eq]
  refine ⟨⟨(stays_ids now _).nodup h.partitioned.1, List.Perm.trans ?_ h.partitioned.2⟩,
    fun item hmem => ?_, fun item hmem => ?_⟩
  · have hleaves : (s.timerItemActive.reverse.filterMap (leaves now)).Perm
        (s.timerItemActive.filterMap (leaves now)) := (List.reverse_perm _).filterMap _
    refine (((List.perm_append_comm.trans (hleaves.append_right _)).append_left _).map _).trans ?_
    have hsplit : (s.timerItemActive ++ s.timerItemFree).map TimerItem.address =
        s.timerItemActive.map TimerItem.address ++ s.timerItemFree.map TimerItem.address :=
      List.map_append
    rw [← List.append_assoc, List.map_append, hsplit]
    exact (stays_leaves_perm now s.timerItemActive).append_right _
  · obtain ⟨old, hold, hkept⟩ := List.mem_filterMap.1 hmem
    exact (stays_sound hkept (h.dest old hold) (h.left old hold)).1
  · obtain ⟨old, hold, hkept⟩ := List.mem_filterMap.1 hmem
    exact (stays_sound hkept (h.dest old hold) (h.left old hold)).2

/-- **Every step keeps the invariant.** -/
theorem Sound.step (h : Sound s) (e : TimerStep) : Sound (step s e).1 := by
  cases e with
  | setTimer now timerID elapse repeatTimes bindParameter allocates =>
    rcases setTimer_spec h now timerID elapse repeatTimes bindParameter allocates with
      heq | ⟨s', heq, hs', -⟩
    · exact (congrArg (fun r : TimerEngine × Bool => Sound r.1) heq).mpr h
    · exact (congrArg (fun r : TimerEngine × Bool => Sound r.1) heq).mpr hs'
  | killTimer timerID => exact (killTimer_spec h timerID).1
  | killAllTimer => exact h.killAllTimer
  | onTimerThreadSink now => exact h.onTimerThreadSink now

/-! ## Events -/

theorem posts_none (h : ∀ item ∈ active, item.wTimerID = timerID → ¬ item.destTime ≤ dword now) :
    postsOf timerID (active.filterMap (postOf now)) = 0 := by
  refine List.countP_eq_zero.2 fun post hpost => ?_
  obtain ⟨item, hmem, heq⟩ := List.mem_filterMap.1 hpost
  unfold postOf at heq
  split_ifs at heq with hdue
  cases heq
  simpa using fun hid => h item hmem hid hdue

/-- A timer is active once, so a pass posts it once. -/
theorem posts_one (hids : (active.map TimerItem.wTimerID).Nodup) (hmem : item ∈ active)
    (hdue : item.destTime ≤ dword now) :
    postsOf item.wTimerID (active.filterMap (postOf now)) = 1 := by
  obtain ⟨xs, ys, rfl⟩ := List.append_of_mem hmem
  rw [List.map_append, List.map_cons, List.nodup_middle, List.nodup_cons, ← List.map_append] at hids
  have hother : ∀ other ∈ xs ++ ys, other.wTimerID = item.wTimerID →
      ¬ other.destTime ≤ dword now := by
    intro other hother hid
    exact absurd (hid ▸ List.mem_map_of_mem hother) hids.1
  have hxs := posts_none fun other h => hother other (List.mem_append_left _ h)
  have hys := posts_none fun other h => hother other (List.mem_append_right _ h)
  have hitem : postOf now item = some ⟨item.wTimerID, item.wBindParam, item.due, now⟩ := if_pos hdue
  rw [List.filterMap_append, List.filterMap_cons_some hitem]
  unfold postsOf at hxs hys ⊢
  rw [List.countP_append, List.countP_cons, hxs, hys]
  simp

/-- **A pass posts one event of each timer whose tick count has come.** -/
theorem posts_eq (h : Sound s) (timerID now : ℕ) :
    postsOf timerID (s.onTimerThreadSink now).2 = if Due s timerID now then 1 else 0 := by
  have hreverse : postsOf timerID (s.onTimerThreadSink now).2 =
      postsOf timerID (s.timerItemActive.filterMap (postOf now)) := by
    rw [onTimerThreadSink_eq]
    exact ((List.reverse_perm _).filterMap _).countP_eq _
  rw [hreverse]
  by_cases hdue : Due s timerID now
  · obtain ⟨item, hmem, rfl, hcome⟩ := hdue
    rw [if_pos ⟨item, hmem, rfl, hcome⟩]
    exact posts_one h.partitioned.1 hmem hcome
  · rw [if_neg hdue]
    exact posts_none fun item hmem hid hcome => hdue ⟨item, hmem, hid, hcome⟩

/-! ## Counting -/

/-- A timer has `n` events left, and none if it is not active. -/
def Left (s : TimerEngine) (timerID : ℕ) : ℕ → Prop
  | 0 => ¬ Active s timerID
  | n + 1 => n + 1 < timesInfinity ∧
      ∃ item ∈ s.timerItemActive, item.wTimerID = timerID ∧ item.repeatTimes = n + 1

theorem Left.active_iff (h : Left s timerID n) : Active s timerID ↔ 0 < n := by
  cases n with
  | zero => exact iff_of_false h (Nat.lt_irrefl 0)
  | succ n =>
    obtain ⟨-, item, hmem, hid, -⟩ := h
    exact iff_of_true ⟨item, hmem, hid⟩ n.succ_pos

theorem Left.others {other : ℕ} (h : Left s timerID n) (hne : other ≠ timerID)
    (hothers : Others other s s') : Left s' timerID n := by
  cases n with
  | zero =>
    rintro ⟨item, hmem, hid⟩
    exact h ⟨item, (hothers item (hid ▸ hne.symm)).1 hmem, hid⟩
  | succ n =>
    obtain ⟨hfinite, item, hmem, hid, hleft⟩ := h
    exact ⟨hfinite, item, (hothers item (hid ▸ hne.symm)).2 hmem, hid, hleft⟩

/-- A pass takes as many events from what is left as it posts. -/
theorem Left.pass (hs : Sound s) (h : Left s timerID n) (now : ℕ) :
    ∃ m, postsOf timerID (s.onTimerThreadSink now).2 + m = n ∧
      Left (s.onTimerThreadSink now).1 timerID m := by
  have hactive : (s.onTimerThreadSink now).1.timerItemActive =
      s.timerItemActive.filterMap (stays now) := by rw [onTimerThreadSink_eq]
  rw [posts_eq hs]
  by_cases hdue : Due s timerID now
  · rw [if_pos hdue]
    obtain ⟨item, hmem, hid, hcome⟩ := hdue
    cases n with
    | zero => exact absurd ⟨item, hmem, hid⟩ h
    | succ n =>
      obtain ⟨hfinite, item', hmem', hid', hleft⟩ := h
      have hitem : item' = item :=
        List.inj_on_of_nodup_map hs.partitioned.1 hmem' hmem (hid'.trans hid.symm)
      rw [hitem] at hleft
      have hcount : item.countDown.repeatTimes = n := by
        rw [countDown_finite (by omega), hleft, Nat.add_sub_cancel]
      refine ⟨n, Nat.add_comm 1 n, ?_⟩
      cases n with
      | zero =>
        -- it was the last one
        rintro ⟨kept, hkept, hkid⟩
        rw [hactive] at hkept
        obtain ⟨old, hold, hstays⟩ := List.mem_filterMap.1 hkept
        have holdid := (stays_id hstays).symm.trans hkid
        have hsame : old = item :=
          List.inj_on_of_nodup_map hs.partitioned.1 hold hmem (holdid.trans hid.symm)
        rw [hsame, stays, if_pos hcome, if_pos hcount] at hstays
        cases hstays
      | succ n =>
        refine ⟨by omega, item.countDown.rearm, ?_, countDown_id.trans hid, hcount⟩
        rw [hactive]
        refine List.mem_filterMap.2 ⟨item, hmem, ?_⟩
        rw [stays, if_pos hcome, if_neg (by omega)]
  · rw [if_neg hdue]
    refine ⟨n, Nat.zero_add n, ?_⟩
    cases n with
    | zero =>
      rintro ⟨kept, hkept, hkid⟩
      rw [hactive] at hkept
      obtain ⟨old, hold, hstays⟩ := List.mem_filterMap.1 hkept
      exact h ⟨old, hold, (stays_id hstays).symm.trans hkid⟩
    | succ n =>
      obtain ⟨hfinite, item, hmem, hid, hleft⟩ := h
      refine ⟨hfinite, item, ?_, hid, hleft⟩
      rw [hactive]
      exact List.mem_filterMap.2 ⟨item, hmem, if_neg fun hcome => hdue ⟨item, hmem, hid, hcome⟩⟩

/-- **A step takes as many events of a timer as it posts**, if it does
not set or kill it. -/
theorem Left.step (hs : Sound s) (h : Left s timerID n) {e : TimerStep}
    (he : ¬ Concerns timerID e) :
    ∃ m, postsOf timerID (step s e).2 + m = n ∧ Left (step s e).1 timerID m := by
  cases e with
  | setTimer now other elapse repeatTimes bindParameter allocates =>
    refine ⟨n, Nat.zero_add n, ?_⟩
    change Left (s.setTimer now other elapse repeatTimes bindParameter allocates).1 timerID n
    rcases setTimer_spec hs now other elapse repeatTimes bindParameter allocates with
      heq | ⟨s', heq, -, -, hothers, -⟩
    · rw [heq]
      exact h
    · rw [heq]
      exact h.others he hothers
  | killTimer other => exact ⟨n, Nat.zero_add n, h.others he (killTimer_spec hs other).2⟩
  | killAllTimer => exact absurd trivial he
  | onTimerThreadSink now => exact h.pass hs now

/-- **So does a run.** -/
theorem Left.run (hs : Sound s) (h : Left s timerID n) {es : List TimerStep}
    (hes : ∀ e ∈ es, ¬ Concerns timerID e) :
    ∃ m, postsOf timerID (TimerEngine.step.run s es).2 + m = n ∧
      Left (TimerEngine.step.run s es).1 timerID m := by
  induction es generalizing s n with
  | nil => exact ⟨n, Nat.zero_add n, h⟩
  | cons e es ih =>
    obtain ⟨k, hk, hnext⟩ := h.step hs (hes e List.mem_cons_self)
    obtain ⟨m, hm, hlast⟩ := ih (hs.step e) hnext fun e he => hes e (List.mem_cons_of_mem _ he)
    refine ⟨m, ?_, hlast⟩
    have hsplit : postsOf timerID (TimerEngine.step.run s (e :: es)).2 =
        postsOf timerID (TimerEngine.step s e).2 +
          postsOf timerID (TimerEngine.step.run (TimerEngine.step s e).1 es).2 :=
      List.countP_append
    rw [hsplit, Nat.add_assoc, hm, hk]

/-! ## Times -/

/-- When a tick count that has come is a time that has come. -/
theorem not_early_iff {due : ℕ} : (dword due ≤ dword now → due ≤ now) ↔
    (due / 2 ^ 32 ≤ now / 2 ^ 32 ∨ dword now < dword due) := by
  unfold dword
  constructor
  · intro h
    rcases Nat.lt_or_ge (now % 2 ^ 32) (due % 2 ^ 32) with hlt | hge
    · exact Or.inr hlt
    · exact Or.inl (Nat.div_le_div_right (h hge))
  · omega

/-- **A pass is punctual exactly when it meets the condition.** -/
theorem punctual_iff (h : Sound s) (e : TimerStep) : Punctual s e ↔ StepOk s e := by
  cases e with
  | setTimer now timerID elapse repeatTimes bindParameter allocates => exact Iff.rfl
  | killTimer timerID => exact Iff.rfl
  | killAllTimer => exact Iff.rfl
  | onTimerThreadSink now =>
    have hposts : (∀ post ∈ (s.onTimerThreadSink now).2, post.due ≤ now) ↔
        ∀ item ∈ s.timerItemActive, item.destTime ≤ dword now → item.due ≤ now := by
      rw [onTimerThreadSink_eq]
      constructor
      · intro hall item hmem hcome
        exact hall ⟨item.wTimerID, item.wBindParam, item.due, now⟩
          (List.mem_filterMap.2 ⟨item, List.mem_reverse.2 hmem, if_pos hcome⟩)
      · intro hall post hpost
        obtain ⟨item, hmem, heq⟩ := List.mem_filterMap.1 hpost
        unfold postOf at heq
        split_ifs at heq with hcome
        cases heq
        exact hall item (List.mem_reverse.1 hmem) hcome
    have hitem : ∀ item ∈ s.timerItemActive, (item.destTime ≤ dword now → item.due ≤ now) ↔
        (item.due / 2 ^ 32 ≤ now / 2 ^ 32 ∨ dword now < item.destTime) := by
      intro item hmem
      rw [h.dest item hmem]
      exact not_early_iff
    exact (and_iff_left (posts_eq h · now)).trans (hposts.trans (forall₂_congr hitem))

theorem sound_start : Sound {} :=
  ⟨⟨List.nodup_nil, List.Perm.nil⟩, fun _ h => (by cases h), fun _ h => (by cases h)⟩

theorem counts_run (es : List TimerStep) : Counts es := by
  intro before now timerID elapse n bindParameter allocates fs _ hfinite hfs s hset
  have hs : Sound (step.run {} before).1 :=
    TotalMachine.inv_run_traced (P := fun s _ => Sound s) (fun s _ e h => h.step e) before {} []
      sound_start
  rcases setTimer_spec hs now timerID elapse n bindParameter allocates with
    heq | ⟨s', heq, hs', hn, -, item, hmem, hid, hleft⟩
  · rw [heq] at hset
    cases hset
  · rw [heq] at hset
    cases hset
    obtain ⟨k, rfl⟩ := Nat.exists_eq_succ_of_ne_zero hn
    have hstart : Left s timerID (k + 1) := ⟨hfinite, item, hmem, hid, hleft⟩
    obtain ⟨m, hm, hlast⟩ := hstart.run hs' hfs
    exact ⟨by omega, hlast.active_iff.trans (by omega)⟩

/-- **The timers of an engine are in order** exactly when no pass comes
upon a timer that is due behind the next wrap of the tick count and has a
tick count that is reached already. -/
theorem timers_iff (es : List TimerStep) :
    ((∀ n, Partitioned (step.run {} (es.take n)).1) ∧ Counts es ∧ step.Along Punctual {} es) ↔
      step.Along StepOk {} es := by
  have hprefixes : ((∀ n, Partitioned (step.run {} (es.take n)).1) ∧ step.Along Punctual {} es) ↔
      step.Along StepOk {} es :=
    TotalMachine.prefixes_iff (I := Sound) (fun _ h => h.partitioned)
      (fun s e hs hok => ⟨(punctual_iff hs e).2 hok, hs.step e⟩)
      (fun s e hs hQ _ => (punctual_iff hs e).1 hQ) es {} sound_start
  rw [← hprefixes]
  exact ⟨fun ⟨hP, _, hQ⟩ => ⟨hP, hQ⟩, fun ⟨hP, hQ⟩ => ⟨hP, counts_run es, hQ⟩⟩

/-- A second's timer, set ten milliseconds before the tick count wraps. -/
def setAtWrap : List TimerStep :=
  [.setTimer (2 ^ 32 - 10) 1 1000 1 0 true, .onTimerThreadSink (2 ^ 32 - 5)]

theorem timer_is_early_at_wrap : ¬ ((∀ n, Partitioned (step.run {} (setAtWrap.take n)).1) ∧
    Counts setAtWrap ∧ step.Along Punctual {} setAtWrap) := by
  rintro ⟨-, -, -, ⟨hposts, -⟩, -⟩
  have hpost := hposts ⟨1, 0, 2 ^ 32 + 490, 2 ^ 32 - 5⟩ (by decide +kernel)
  exact absurd hpost (by decide)

end GameServer.KernelEngine.TimerEngine
