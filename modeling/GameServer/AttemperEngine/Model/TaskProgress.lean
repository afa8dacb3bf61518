import GameServer.Common.Memory
/-!
# AttemperEngine — the tasks of a user

The tasks of a user are a chain of entries, linked by `pNextTaskEntry`.
`GetUserTaskEntry` links those of one status a second time, by
`pNextStatusEntry`, and gives the first. `PerformTaskProgress` goes from
one entry to the next of these and tells each what an event of the game
has brought.

A chain is a list here, and the entries of a status are the list of their
indices in it. All entries of one call are updated at one time.
-/

namespace GameServer.AttemperEngine

def taskStatusUnfinish : ℕ := 0

def taskStatusSuccess : ℕ := 1

def taskStatusFailed : ℕ := 2

def taskTypeWinInnings : ℕ := 0x0001

def taskTypeSumInnings : ℕ := 0x0002

def taskTypeMagicExp : ℕ := 0x0004

structure TaskParameter where
  wTaskID : ℕ
  wTaskType : ℕ
  wTaskObject : ℕ
  wKindID : ℕ
  deriving DecidableEq, Repr

/-- `tagUserTaskEntry`, without its links. -/
structure UserTaskEntry where
  dwID : ℕ
  cbTaskStatus : ℕ
  wTaskProgress : ℕ
  dwResidueTime : ℕ
  dwLastUpdateTime : ℕ
  taskParameter : Option TaskParameter
  deriving DecidableEq, Repr

structure VariationInfo where
  dwWinCount : ℕ
  dwLostCount : ℕ
  dwDrawCount : ℕ
  deriving DecidableEq, Repr

/-- A call of `PerformTaskProgress`: the user, the game of the service,
the time, and what has happened. -/
structure TaskEvent where
  userID : ℕ
  wKindID : ℕ
  now : ℕ
  variationInfo : VariationInfo
  wTaskType : ℕ
  deriving DecidableEq, Repr

/-- What is sent. -/
inductive TaskCall where
  /-- `DBR_GR_TASK_PROGRESS`. -/
  | taskProgress (userID dwID wTaskProgress cbTaskStatus : ℕ)
  /-- `SUB_GR_TASK_FINISH`. -/
  | taskFinish (wFinishTaskID : ℕ)
  deriving DecidableEq, Repr

/-- The loop of `GetUserTaskEntry`, from the entry at an index on. -/
def statusEntries (cbTaskStatus : ℕ) : ℕ → List UserTaskEntry → List ℕ
  | _, [] => []
  | i, entry :: entries =>
      if entry.cbTaskStatus = cbTaskStatus then i :: statusEntries cbTaskStatus (i + 1) entries
      else statusEntries cbTaskStatus (i + 1) entries

def getUserTaskEntry (entries : List UserTaskEntry) (cbTaskStatus : ℕ) : List ℕ :=
  statusEntries cbTaskStatus 0 entries

namespace UserTaskEntry

variable (entry : UserTaskEntry)

/-- The seconds since the last update, as far as there are any left. -/
def spanSecond (now : ℕ) : ℕ :=
  min (dwordOfInt ((now : ℤ) - entry.dwLastUpdateTime)) entry.dwResidueTime

/-- The time that is left is updated, and a task without any has failed. -/
def updateTime (now : ℕ) : UserTaskEntry :=
  let entry :=
    { entry with
      dwResidueTime := entry.dwResidueTime - entry.spanSecond now
      dwLastUpdateTime := now }
  if entry.dwResidueTime = 0 then
    { entry with wTaskProgress := 0, taskParameter := none, cbTaskStatus := taskStatusFailed }
  else entry

/-- A count is added to `wTaskProgress`, which may finish the task. -/
def addProgress (parameter : TaskParameter) (count : ℕ) : UserTaskEntry :=
  let entry := { entry with wTaskProgress := word (entry.wTaskProgress + count) }
  if parameter.wTaskObject ≤ entry.wTaskProgress then
    { entry with cbTaskStatus := taskStatusSuccess }
  else entry

/-- What the task makes of an event, by its type. -/
def performType (parameter : TaskParameter) (variationInfo : VariationInfo) : UserTaskEntry :=
  if parameter.wTaskType = taskTypeWinInnings then
    entry.addProgress parameter variationInfo.dwWinCount
  else if parameter.wTaskType = taskTypeSumInnings then
    entry.addProgress parameter (dword (variationInfo.dwWinCount + variationInfo.dwLostCount +
      variationInfo.dwDrawCount))
  else if parameter.wTaskType = taskTypeMagicExp then entry.addProgress parameter 1
  else entry

/-- What is sent of a task, after it. `last` is the progress before. -/
def progressCalls (parameter : TaskParameter) (userID last : ℕ) : List TaskCall :=
  (if last ≠ entry.wTaskProgress then
      [.taskProgress userID entry.dwID entry.wTaskProgress entry.cbTaskStatus]
    else []) ++
  if entry.cbTaskStatus = taskStatusSuccess then [.taskFinish parameter.wTaskID] else []

/-- What `PerformTaskProgress` does with a task of this game. -/
def perform (parameter : TaskParameter) (e : TaskEvent) : UserTaskEntry × List TaskCall :=
  let entry := entry.updateTime e.now
  if entry.cbTaskStatus = taskStatusUnfinish ∧ 0 < parameter.wTaskType &&& e.wTaskType then
    let after := entry.performType parameter e.variationInfo
    (after, after.progressCalls parameter e.userID entry.wTaskProgress)
  else (entry, [])

/-- `PerformTaskProgress` up to its call of itself, or `none` where it
returns before. -/
def performEntry (e : TaskEvent) : Option (UserTaskEntry × List TaskCall) :=
  match entry.taskParameter with
  | none => none
  | some parameter =>
      if entry.cbTaskStatus ≠ taskStatusUnfinish then none
      else if parameter.wKindID ≠ e.wKindID then none
      else some (entry.perform parameter e)

end UserTaskEntry

/-- `PerformTaskProgress`, for the entry at the first of the indices. The
test is of `pNextTaskEntry`, and the call is for `pNextStatusEntry`. -/
def performTaskProgress (e : TaskEvent) : List ℕ → List UserTaskEntry →
    List UserTaskEntry × List TaskCall
  | [], entries => (entries, [])
  | i :: next, entries =>
      match (entries[i]?).bind fun entry => entry.performEntry e with
      | none => (entries, [])
      | some (entry, calls) =>
          if i + 1 < entries.length then
            let rest := performTaskProgress e next (entries.set i entry)
            (rest.1, calls ++ rest.2)
          else (entries.set i entry, calls)

/-- The call in `OnEventUserItemScore`: for the unfinished tasks. -/
def progressUserTasks (e : TaskEvent) (entries : List UserTaskEntry) :
    List UserTaskEntry × List TaskCall :=
  performTaskProgress e (getUserTaskEntry entries taskStatusUnfinish) entries

end GameServer.AttemperEngine
