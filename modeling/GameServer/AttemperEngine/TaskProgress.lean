import GameServer.AttemperEngine.Model.TaskProgress
import Mathlib.Data.List.Forall2
/-!
# AttemperEngine — which tasks an event reaches

`PerformTaskProgress` goes along the unfinished entries of a user and
ends at the first that is of another game, or has no parameters. An
entry behind that one is not told of the event, and is not failed when
its time is up (`performTaskProgress_eq`, `walk`). An entry that is told
of it counts in 16 bits.

`TasksOk` says that neither matters to the entries there are, and is
exact.
-/

namespace GameServer.AttemperEngine

variable {e : TaskEvent} {entry entry' : UserTaskEntry} {parameter : TaskParameter}
variable {entries : List UserTaskEntry}

/-! ## What an event asks of an entry -/

/-- An unfinished entry, for this game. -/
structure Concerns (e : TaskEvent) (entry : UserTaskEntry) (parameter : TaskParameter) : Prop where
  parameter_eq : entry.taskParameter = some parameter
  unfinish : entry.cbTaskStatus = taskStatusUnfinish
  kind : parameter.wKindID = e.wKindID

/-- The time of an entry is up. -/
def Expired (e : TaskEvent) (entry : UserTaskEntry) : Prop :=
  entry.dwResidueTime ≤ dwordOfInt ((e.now : ℤ) - entry.dwLastUpdateTime)

def contribution (parameter : TaskParameter) (e : TaskEvent) : Option ℕ :=
  if 0 < parameter.wTaskType &&& e.wTaskType then
    if parameter.wTaskType = taskTypeWinInnings then some e.variationInfo.dwWinCount
    else if parameter.wTaskType = taskTypeSumInnings then
      some (e.variationInfo.dwWinCount + e.variationInfo.dwLostCount + e.variationInfo.dwDrawCount)
    else if parameter.wTaskType = taskTypeMagicExp then some 1
    else none
  else none

/-- An entry advanced by a count, and finished if that reaches the
target. -/
def advanced (entry : UserTaskEntry) (parameter : TaskParameter) (count : ℕ) : UserTaskEntry :=
  { entry with
    wTaskProgress := entry.wTaskProgress + count
    cbTaskStatus :=
      if parameter.wTaskObject ≤ entry.wTaskProgress + count then taskStatusSuccess
      else taskStatusUnfinish }

/-- The same entry, but for the account of its time. -/
def SameTask (entry entry' : UserTaskEntry) : Prop :=
  entry' = { entry with
    dwResidueTime := entry'.dwResidueTime
    dwLastUpdateTime := entry'.dwLastUpdateTime }

/-- **What becomes of an entry**: an unfinished one of this game fails if
its time is up, advances by what the event contributes to it, and stays
as it is if it contributes nothing. Other entries do not change at all. -/
def Followed (e : TaskEvent) (entry entry' : UserTaskEntry) : Prop :=
  (∀ parameter, Concerns e entry parameter →
    (Expired e entry → entry'.cbTaskStatus = taskStatusFailed) ∧
    (¬ Expired e entry → SameTask
      (match contribution parameter e with
        | some count => advanced entry parameter count
        | none => entry) entry')) ∧
  ((∀ parameter, ¬ Concerns e entry parameter) → entry' = entry)

/-- A count that 16 bits hold. -/
def Fits (e : TaskEvent) (entry : UserTaskEntry) : Prop :=
  ∀ parameter, Concerns e entry parameter → ¬ Expired e entry →
    ∀ count, contribution parameter e = some count → entry.wTaskProgress + count < 2 ^ 16

/-- An entry that the event does not change. -/
def Still (e : TaskEvent) (entry : UserTaskEntry) : Prop :=
  ∀ parameter, Concerns e entry parameter → ¬ Expired e entry ∧
    ∀ count, contribution parameter e = some count →
      count = 0 ∧ entry.wTaskProgress < parameter.wTaskObject

/-- An unfinished entry of another game, or without parameters. -/
def Halts (e : TaskEvent) (entry : UserTaskEntry) : Prop :=
  entry.cbTaskStatus = taskStatusUnfinish ∧ ∀ parameter, ¬ Concerns e entry parameter

/-- The condition: counts fit, and behind an unfinished entry of another
game there is no entry that the event changes. -/
def TasksOk (e : TaskEvent) : List UserTaskEntry → Prop
  | [] => True
  | entry :: entries =>
      Fits e entry ∧ (Halts e entry → ∀ other ∈ entries, Still e other) ∧
        (¬ Halts e entry → TasksOk e entries)

/-! ## The entries that are reached -/

/-- The entries of a user after an event. -/
def walk (e : TaskEvent) : List UserTaskEntry → List UserTaskEntry
  | [] => []
  | entry :: entries =>
      if entry.cbTaskStatus = taskStatusUnfinish then
        match entry.performEntry e with
        | none => entry :: entries
        | some after => after.1 :: walk e entries
      else entry :: walk e entries

/-- **`PerformTaskProgress` walks along the chain.** That it tests one
link and follows another changes nothing: behind the last entry of the
chain there is none of the status either. -/
theorem performTaskProgress_eq (e : TaskEvent) (todo : List UserTaskEntry) :
    ∀ past : List UserTaskEntry,
      (performTaskProgress e (statusEntries taskStatusUnfinish past.length todo)
        (past ++ todo)).1 = past ++ walk e todo := by
  induction todo with
  | nil => exact fun _ => rfl
  | cons entry todo ih =>
    intro past
    have hnext : ∀ entry : UserTaskEntry,
        (performTaskProgress e (statusEntries taskStatusUnfinish (past.length + 1) todo)
          (past ++ entry :: todo)).1 = past ++ entry :: walk e todo := by
      intro entry
      have h := ih (past ++ [entry])
      rwa [List.length_append, List.length_singleton, List.append_assoc, List.append_assoc,
        List.singleton_append, List.singleton_append] at h
    rw [statusEntries, walk]
    by_cases hstatus : entry.cbTaskStatus = taskStatusUnfinish
    · have hget : (past ++ entry :: todo)[past.length]? = some entry := by
        rw [List.getElem?_append_right (Nat.le_refl _), Nat.sub_self, List.getElem?_cons_zero]
      rw [if_pos hstatus, if_pos hstatus, performTaskProgress, hget, Option.bind_some]
      rcases entry.performEntry e with _ | ⟨after, calls⟩
      · rfl
      · have hset : (past ++ entry :: todo).set past.length after = past ++ after :: todo := by
          rw [List.set_append_right _ _ (Nat.le_refl _), Nat.sub_self, List.set_cons_zero]
        dsimp only
        rw [hset]
        cases todo with
        | nil =>
          rw [if_neg (by simp)]
          rfl
        | cons other todo =>
          rw [if_pos (by simp)]
          exact hnext after
    · rw [if_neg hstatus, if_neg hstatus]
      exact hnext entry

theorem progressUserTasks_eq (e : TaskEvent) (entries : List UserTaskEntry) :
    (progressUserTasks e entries).1 = walk e entries := by
  have h := performTaskProgress_eq e entries []
  rwa [List.length_nil, List.nil_append, List.nil_append] at h

/-! ## One entry -/

theorem Concerns.unique {parameter' : TaskParameter} (h : Concerns e entry parameter)
    (h' : Concerns e entry parameter') : parameter' = parameter :=
  Option.some.inj (h'.parameter_eq.symm.trans h.parameter_eq)

theorem updateTime_eq (e : TaskEvent) (entry : UserTaskEntry) :
    (Expired e entry → (entry.updateTime e.now).cbTaskStatus = taskStatusFailed) ∧
      (¬ Expired e entry → entry.updateTime e.now =
        { entry with
          dwResidueTime := entry.dwResidueTime - entry.spanSecond e.now
          dwLastUpdateTime := e.now }) := by
  unfold Expired UserTaskEntry.updateTime UserTaskEntry.spanSecond
  constructor
  · intro h
    have hzero : entry.dwResidueTime - min (dwordOfInt ((e.now : ℤ) - entry.dwLastUpdateTime))
        entry.dwResidueTime = 0 := by omega
    rw [if_pos hzero]
  · intro h
    have hleft : entry.dwResidueTime - min (dwordOfInt ((e.now : ℤ) - entry.dwLastUpdateTime))
        entry.dwResidueTime ≠ 0 := by omega
    rw [if_neg hleft]

theorem performEntry_of_concerns (h : Concerns e entry parameter) :
    entry.performEntry e = some (entry.perform parameter e) := by
  obtain ⟨hparameter, hunfinish, hkind⟩ := h
  unfold UserTaskEntry.performEntry
  rw [hparameter]
  dsimp only
  rw [if_neg (not_not.2 hunfinish), if_neg (not_not.2 hkind)]

theorem performEntry_of_halts (h : Halts e entry) : entry.performEntry e = none := by
  obtain ⟨hunfinish, hother⟩ := h
  unfold UserTaskEntry.performEntry
  cases hparameter : entry.taskParameter with
  | none => rfl
  | some parameter =>
    dsimp only
    by_cases hkind : parameter.wKindID = e.wKindID
    · exact absurd ⟨hparameter, hunfinish, hkind⟩ (hother parameter)
    · rw [if_neg (not_not.2 hunfinish), if_pos hkind]

theorem perform_expired (h : Expired e entry) :
    (entry.perform parameter e).1.cbTaskStatus = taskStatusFailed := by
  have hfailed := (updateTime_eq e entry).1 h
  unfold UserTaskEntry.perform
  rw [if_neg fun hlive => absurd (hfailed.symm.trans hlive.1) (by decide)]
  exact hfailed

theorem perform_none (hunfinish : entry.cbTaskStatus = taskStatusUnfinish)
    (hlive : ¬ Expired e entry) (hcount : contribution parameter e = none) :
    SameTask entry (entry.perform parameter e).1 := by
  unfold UserTaskEntry.perform UserTaskEntry.performType
  rw [(updateTime_eq e entry).2 hlive]
  unfold contribution at hcount
  split_ifs at hcount with hmatch hwin hsum hmagic
  · rw [if_pos ⟨hunfinish, hmatch⟩, if_neg hwin, if_neg hsum, if_neg hmagic]
    rfl
  · rw [if_neg fun h => hmatch h.2]
    rfl

/-- An entry advanced by a count, in 16 bits. -/
def advancedWord (entry : UserTaskEntry) (parameter : TaskParameter) (count : ℕ) : UserTaskEntry :=
  { entry with
    wTaskProgress := word (entry.wTaskProgress + count)
    cbTaskStatus :=
      if parameter.wTaskObject ≤ word (entry.wTaskProgress + count) then taskStatusSuccess
      else taskStatusUnfinish }

theorem advancedWord_of_lt {count : ℕ} (h : entry.wTaskProgress + count < 2 ^ 16) :
    advancedWord entry parameter count = advanced entry parameter count := by
  unfold advancedWord advanced
  rw [word_of_lt h]

theorem addProgress_same (hunfinish : entry.cbTaskStatus = taskStatusUnfinish) {n count : ℕ}
    (hn : word (entry.wTaskProgress + n) = word (entry.wTaskProgress + count)) (residue last : ℕ) :
    SameTask (advancedWord entry parameter count)
      (UserTaskEntry.addProgress
        { entry with dwResidueTime := residue, dwLastUpdateTime := last } parameter n) := by
  unfold UserTaskEntry.addProgress SameTask advancedWord
  rw [hn]
  by_cases hreached : parameter.wTaskObject ≤ word (entry.wTaskProgress + count)
  · rw [if_pos hreached, if_pos hreached]
  · rw [if_neg hreached, if_neg hreached, hunfinish]

/-- An entry that the event contributes to. -/
theorem perform_some {count : ℕ} (hunfinish : entry.cbTaskStatus = taskStatusUnfinish)
    (hlive : ¬ Expired e entry) (hcount : contribution parameter e = some count) :
    SameTask (advancedWord entry parameter count) (entry.perform parameter e).1 := by
  unfold contribution at hcount
  by_cases hmatch : 0 < parameter.wTaskType &&& e.wTaskType
  · have hbranch : entry.cbTaskStatus = taskStatusUnfinish ∧
        0 < parameter.wTaskType &&& e.wTaskType := ⟨hunfinish, hmatch⟩
    unfold UserTaskEntry.perform UserTaskEntry.performType
    rw [(updateTime_eq e entry).2 hlive]
    rw [if_pos hbranch]
    split_ifs at hcount with hwin hsum hmagic
    · cases hcount
      rw [if_pos hwin]
      exact addProgress_same hunfinish rfl _ _
    · cases hcount
      rw [if_neg hwin, if_pos hsum]
      refine addProgress_same hunfinish ?_ _ _
      unfold word dword
      omega
    · cases hcount
      rw [if_neg hwin, if_neg hsum, if_pos hmagic]
      exact addProgress_same hunfinish rfl _ _
  · rw [if_neg hmatch] at hcount
    cases hcount

/-- **An entry that is reached is followed exactly when its count fits.** -/
theorem followed_perform_iff (h : Concerns e entry parameter) :
    Followed e entry (entry.perform parameter e).1 ↔ Fits e entry := by
  constructor
  · rintro ⟨hmine, -⟩ parameter' h' hlive count hcount
    obtain rfl := h.unique h'
    have hsame := (hmine parameter' h').2 hlive
    have hcode := perform_some h.unfinish hlive hcount
    rw [hcount] at hsame
    have hprogress : word (entry.wTaskProgress + count) = entry.wTaskProgress + count :=
      (congrArg UserTaskEntry.wTaskProgress hcode).symm.trans
        (congrArg UserTaskEntry.wTaskProgress hsame)
    exact hprogress ▸ word_lt _
  · intro hfits
    refine ⟨fun parameter' h' => ?_, fun hnone => absurd h (hnone parameter)⟩
    obtain rfl := h.unique h'
    refine ⟨perform_expired, fun hlive => ?_⟩
    cases hcount : contribution parameter' e with
    | none => exact perform_none h.unfinish hlive hcount
    | some count =>
      have hcode := perform_some h.unfinish hlive hcount
      rwa [advancedWord_of_lt (hfits parameter' h' hlive count hcount)] at hcode

/-- **An entry that is not reached is followed exactly when the event
does not change it.** -/
theorem followed_self_iff : Followed e entry entry ↔ Still e entry := by
  constructor
  · rintro ⟨hmine, -⟩ parameter h
    obtain ⟨hexpired, hlive⟩ := hmine parameter h
    have hnot : ¬ Expired e entry := fun hup =>
      absurd (h.unfinish.symm.trans (hexpired hup)) (by decide)
    refine ⟨hnot, fun count hcount => ?_⟩
    have hsame := hlive hnot
    rw [hcount] at hsame
    have hprogress : entry.wTaskProgress = entry.wTaskProgress + count :=
      congrArg UserTaskEntry.wTaskProgress hsame
    have hstatus : entry.cbTaskStatus =
        if parameter.wTaskObject ≤ entry.wTaskProgress + count then taskStatusSuccess
        else taskStatusUnfinish := congrArg UserTaskEntry.cbTaskStatus hsame
    refine ⟨by omega, Nat.lt_of_not_le fun hreached => ?_⟩
    rw [← hprogress, if_pos hreached, h.unfinish] at hstatus
    exact absurd hstatus (by decide)
  · intro hstill
    refine ⟨fun parameter h => ⟨fun hup => absurd hup (hstill parameter h).1, fun _ => ?_⟩,
      fun _ => rfl⟩
    cases hcount : contribution parameter e with
    | none => exact rfl
    | some count =>
      obtain ⟨rfl, hbelow⟩ := (hstill parameter h).2 count hcount
      unfold SameTask advanced
      dsimp only
      rw [Nat.add_zero, if_neg (Nat.not_le.2 hbelow), ← h.unfinish]

/-! ## All of them -/

/-- **An event is counted once for every task of a user** exactly when no
count outgrows its 16 bits and no task that the event changes stands
behind an unfinished one of another game. -/
theorem progressUserTasks_iff (e : TaskEvent) (entries : List UserTaskEntry) :
    List.Forall₂ (Followed e) entries (progressUserTasks e entries).1 ↔ TasksOk e entries := by
  rw [progressUserTasks_eq]
  induction entries with
  | nil => exact iff_of_true List.Forall₂.nil trivial
  | cons entry entries ih =>
    rw [walk, TasksOk]
    by_cases hunfinish : entry.cbTaskStatus = taskStatusUnfinish
    · rw [if_pos hunfinish]
      by_cases hconcerns : ∃ parameter, Concerns e entry parameter
      · obtain ⟨parameter, h⟩ := hconcerns
        have hgoes : ¬ Halts e entry := fun hhalts => hhalts.2 parameter h
        rw [performEntry_of_concerns h]
        rw [List.forall₂_cons, followed_perform_iff h, ih]
        exact ⟨fun ⟨hfits, hrest⟩ => ⟨hfits, fun hhalts => absurd hhalts hgoes, fun _ => hrest⟩,
          fun ⟨hfits, _, hrest⟩ => ⟨hfits, hrest hgoes⟩⟩
      · have hnone : ∀ parameter, ¬ Concerns e entry parameter := not_exists.1 hconcerns
        have hhalts : Halts e entry := ⟨hunfinish, hnone⟩
        have hstill : ∀ entries : List UserTaskEntry,
            List.Forall₂ (Followed e) entries entries ↔ ∀ other ∈ entries, Still e other := by
          intro entries
          rw [List.forall₂_same]
          exact forall₂_congr fun _ _ => followed_self_iff
        rw [performEntry_of_halts hhalts]
        rw [List.forall₂_cons, hstill]
        exact ⟨fun ⟨_, hrest⟩ => ⟨fun parameter h => absurd h (hnone parameter), fun _ => hrest,
            fun hgoes => absurd hhalts hgoes⟩,
          fun ⟨_, hrest, _⟩ => ⟨followed_self_iff.2 fun parameter h => absurd h (hnone parameter),
            hrest hhalts⟩⟩
    · have hnone : ∀ parameter, ¬ Concerns e entry parameter := fun _ h => hunfinish h.unfinish
      rw [if_neg hunfinish, List.forall₂_cons, ih]
      exact ⟨fun ⟨_, hrest⟩ => ⟨fun parameter h => absurd h (hnone parameter),
          fun hhalts => absurd hhalts.1 hunfinish, fun _ => hrest⟩,
        fun ⟨_, _, hrest⟩ => ⟨followed_self_iff.2 fun parameter h => absurd h (hnone parameter),
          hrest fun hhalts => hunfinish hhalts.1⟩⟩

/-- A user with a task in each of two games, and a win in the second. -/
def twoGames : List UserTaskEntry :=
  [⟨1, taskStatusUnfinish, 0, 3600, 0, some ⟨1, taskTypeWinInnings, 5, 7⟩⟩,
    ⟨2, taskStatusUnfinish, 0, 3600, 0, some ⟨2, taskTypeWinInnings, 5, 6⟩⟩]

def winOfSecond : TaskEvent := ⟨1, 6, 60, ⟨1, 0, 0⟩, taskTypeWinInnings ||| taskTypeSumInnings⟩

theorem second_task_is_not_reached :
    ¬ List.Forall₂ (Followed winOfSecond) twoGames (progressUserTasks winOfSecond twoGames).1 := by
  have hsame : (progressUserTasks winOfSecond twoGames).1 = twoGames := by decide +kernel
  rw [hsame, List.forall₂_same]
  intro h
  have hsecond := followed_self_iff.1 (h _ (List.mem_cons_of_mem _ List.mem_cons_self))
  have hcount := ((hsecond _ ⟨rfl, rfl, rfl⟩).2 1 (by decide +kernel)).1
  exact absurd hcount (by decide)

end GameServer.AttemperEngine
