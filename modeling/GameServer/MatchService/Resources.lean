import GameServer.MatchService.SignUp
import Mathlib.Data.List.Nodup
/-!
# MatchService — tables and timer numbers

Every bound table is free or in the array of one group, and every number is
free or a started group's. That much is kept by all steps (`Sound`). What a
match that ends holds is lost: nothing puts its group into the list whose
groups are deleted, so its tables are not recovered and its number has no
way back. The resources are conserved exactly as long as no match ends and
every start finds a number and tables (`resources_conserved_iff`).
-/

namespace GameServer.MatchService

variable {o : MatchManagerParameter} {m m' : ImmediateMatch} {group group' : ImmediateGroup}
variable {e : Event} {out : List Notice}

/-! ## Conservation -/

def ImmediateMatch.groups (m : ImmediateMatch) : List ImmediateGroup :=
  m.curMatchGroup :: (m.matchGroup ++ m.overMatchGroup)

def ImmediateMatch.liveGroups (m : ImmediateMatch) : List ImmediateGroup :=
  m.groups.filter (·.matchStatus ≠ .null)

def ImmediateMatch.runningGroups (m : ImmediateMatch) : List ImmediateGroup :=
  m.groups.filter (·.matchStatus = .firstRound)

/-- **Nothing is lost and nothing is held twice**: the free tables and the
tables of the live groups are the bound tables, the free numbers and the
numbers of the running groups are the numbers. -/
structure ResourcesConserved (o : MatchManagerParameter) (m : ImmediateMatch) : Prop where
  tables : (m.freeTableID ++ m.liveGroups.flatMap (·.matchTableArray)).Perm
    (List.range o.tableCount)
  numbers : (m.loopTimer ++ m.runningGroups.map (·.loopTimer)).Perm (List.range 79)

/-! ## What the groups hold -/

/-- What a group holds, and whether it is played. -/
structure Share where
  tables : List ℕ
  number : ℕ
  status : MatchStatus

def ImmediateGroup.share (group : ImmediateGroup) : Share :=
  ⟨group.matchTableArray, group.loopTimer, group.matchStatus⟩

/-- What is free and what the groups hold. -/
structure Holding where
  free : List ℕ
  numbers : List ℕ
  cur : Share
  started : List Share
  ended : List Share

def ImmediateMatch.holding (m : ImmediateMatch) : Holding :=
  ⟨m.freeTableID, m.loopTimer, m.curMatchGroup.share, m.matchGroup.map (·.share),
    m.overMatchGroup.map (·.share)⟩

/-- Every table and every number is in one place, a started group among
them; the list of ended groups is empty. -/
structure Sound (o : MatchManagerParameter) (h : Holding) : Prop where
  tables : (h.free ++ h.cur.tables ++ h.started.flatMap (·.tables)).Perm (List.range o.tableCount)
  numbers : (h.numbers ++ h.started.map (·.number)).Perm (List.range 79)
  cur : h.cur.status = .signup
  started : ∀ s ∈ h.started, s.status = .firstRound ∨ s.status = .null
  ended : h.ended = []

/-- Every started group is played. -/
def Holding.AllRunning (h : Holding) : Prop := ∀ s ∈ h.started, s.status = .firstRound

/-- In a sound state the resources are conserved exactly when no match has
ended. -/
theorem Sound.conserved_iff (h : Sound o m.holding) :
    ResourcesConserved o m ↔ m.holding.AllRunning := by
  have hcur : m.curMatchGroup.matchStatus = .signup := h.cur
  have hended : m.overMatchGroup = [] := List.map_eq_nil_iff.1 h.ended
  have hrunning : m.runningGroups = m.matchGroup.filter (·.matchStatus = .firstRound) := by
    simp [ImmediateMatch.runningGroups, ImmediateMatch.groups, hcur, hended]
  constructor
  · intro hc s hs
    obtain ⟨g, hg, rfl⟩ := List.mem_map.1 hs
    -- as many groups are played as have started
    have hlen : (m.matchGroup.filter (·.matchStatus = .firstRound)).length = m.matchGroup.length := by
      have h₁ := hc.numbers.length_eq
      have h₂ := h.numbers.length_eq
      rw [hrunning] at h₁
      simp only [ImmediateMatch.holding, List.length_append, List.length_map] at h₁ h₂
      omega
    have hg' := List.length_filter_eq_length_iff.1 hlen g hg
    exact of_decide_eq_true hg'
  · intro hall
    have hstatus : ∀ g ∈ m.matchGroup, g.matchStatus = .firstRound := fun g hg =>
      hall g.share (List.mem_map.2 ⟨g, hg, rfl⟩)
    have hlive : m.liveGroups = m.curMatchGroup :: m.matchGroup := by
      rw [ImmediateMatch.liveGroups, ImmediateMatch.groups, hended, List.append_nil,
        List.filter_eq_self]
      rintro g hg
      rcases List.mem_cons.1 hg with rfl | hg
      · simp [hcur]
      · simp [hstatus g hg]
    constructor
    · rw [hlive, List.flatMap_cons, ← List.append_assoc]
      simpa [ImmediateMatch.holding, List.flatMap_map, ImmediateGroup.share] using h.tables
    · rw [hrunning, List.filter_eq_self.2 fun g hg => by simp [hstatus g hg]]
      simpa [ImmediateMatch.holding, ImmediateGroup.share, Function.comp_def] using h.numbers

/-! ## What a step moves -/

@[simp] theorem startServed_joined (userID : ℕ) :
    StartServed o (joined o m userID) ↔ StartServed o m := Iff.rfl

theorem onUserQuitMatch_share {userID : ℕ} (h : group.onUserQuitMatch o userID = some group') :
    group'.share = group.share := by
  rw [ImmediateGroup.onUserQuitMatch] at h
  split at h
  · cases h
    rfl
  · cases h

theorem quitGroups_share {userID : ℕ} : ∀ {groups groups' : List ImmediateGroup},
    quitGroups o userID groups = some groups' →
      groups'.map (·.share) = groups.map (·.share) := by
  intro groups
  induction groups with
  | nil => intro groups' h; cases h
  | cons group groups ih =>
    intro groups' h
    rw [quitGroups] at h
    split at h
    case h_1 g hg =>
      cases h
      rw [List.map_cons, List.map_cons, onUserQuitMatch_share hg]
    case h_2 hg =>
      obtain ⟨rest, hrest, rfl⟩ := Option.map_eq_some_iff.1 h
      rw [List.map_cons, List.map_cons, ih hrest]

theorem holding_quit (userID userStatus : ℕ) :
    (onEventUserQuitMatch o m userID userStatus).1.holding = m.holding := by
  rw [onEventUserQuitMatch]
  split
  · rfl
  split
  · rfl
  split
  · simp only
    split
    case h_1 groups hgroups =>
      simp only [ImmediateMatch.holding, quitGroups_share hgroups]
    case h_2 =>
      split
      case h_1 g hg => simp only [ImmediateMatch.holding, onUserQuitMatch_share hg]
      case h_2 => rfl
  · rfl

theorem holding_join (user : JoinUser) :
    (onEventUserJoinMatch o m user).1.holding = m.holding := by
  rw [onEventUserJoinMatch]
  repeat' split
  all_goals rfl

theorem holding_unsignUp (item : Option ℕ) (resultCode : Bool) :
    (onUnsignUpResult m item resultCode).holding = m.holding := by
  cases item with
  | none => rfl
  | some userID => cases resultCode <;> rfl

/-- The timer of the last result of a group that is played. -/
def EndsAt (timerID : ℕ) (s : Share) : Prop :=
  s.status = .firstRound ∧ timerID = idiLastMatchResult + 10 * s.number

instance (timerID : ℕ) (s : Share) : Decidable (EndsAt timerID s) :=
  inferInstanceAs (Decidable (_ ∧ _))

/-- The share of a group after its timer: an ended match keeps it. -/
def Share.afterTimer (timerID : ℕ) (s : Share) : Share :=
  if EndsAt timerID s then { s with status := .null } else s

theorem onTimeMessage_share (timerID : ℕ)
    (h : group.loopTimer = (timerID - idiGroupTimerStart) / 10) :
    (group.onTimeMessage o (timerID - group.loopTimer * 10)).1.share =
      group.share.afterTimer timerID := by
  have hlast : timerID - group.loopTimer * 10 = idiLastMatchResult ↔
      timerID = idiLastMatchResult + 10 * group.loopTimer := by
    simp only [idiLastMatchResult, idiGroupTimerStart, idiMatchModuleStart] at h ⊢
    omega
  rw [ImmediateGroup.onTimeMessage, Share.afterTimer]
  by_cases hnull : group.matchStatus = .null
  · rw [if_pos hnull, if_neg fun h : EndsAt timerID group.share => by
      rw [show group.matchStatus = .firstRound from h.1] at hnull
      cases hnull]
  rw [if_neg hnull]
  by_cases hid' : timerID = idiLastMatchResult + 10 * group.loopTimer
  · rw [if_pos (hlast.2 hid'), ImmediateGroup.matchOver]
    by_cases hfirst : group.matchStatus = .firstRound
    · rw [if_pos hfirst, if_pos ⟨hfirst, hid'⟩]
      rfl
    · rw [if_neg hfirst, if_neg fun h : EndsAt timerID group.share => hfirst h.1]
  · rw [if_neg fun h => hid' (hlast.1 h), if_neg fun h : EndsAt timerID group.share => hid' h.2]

theorem groupTimers_share {timerID : ℕ} :
    ∀ groups : List ImmediateGroup,
      (groupTimers o timerID groups).1.map (·.share) =
        (groups.map (·.share)).map (·.afterTimer timerID) := by
  intro groups
  induction groups with
  | nil => rfl
  | cons group groups ih =>
    rcases hrest : groupTimers o timerID groups with ⟨rest, notices⟩
    rw [hrest] at ih
    simp only [groupTimers, hrest]
    split
    case isTrue h =>
      simp only [List.map_cons, ih, onTimeMessage_share timerID h]
    case isFalse h =>
      have hother : ¬ EndsAt timerID group.share := by
        rintro ⟨-, heq⟩
        apply h
        rw [heq]
        simp only [ImmediateGroup.share, idiLastMatchResult, idiGroupTimerStart,
          idiMatchModuleStart]
        omega
      simp only [List.map_cons, ih, Share.afterTimer, if_neg hother]

/-- With the list of ended groups empty, a timer ends matches and moves
nothing. -/
theorem holding_timer (timerID : ℕ) (h : m.holding.ended = []) :
    (onEventTimer o m timerID).1.holding =
      { m.holding with started := m.holding.started.map (·.afterTimer timerID) } := by
  have hended : m.overMatchGroup = [] := List.map_eq_nil_iff.1 h
  rw [onEventTimer]
  split
  case isTrue hid =>
    simp only [ImmediateMatch.holding, groupTimers_share]
  case isFalse hid =>
    have hsame : m.holding.started.map (·.afterTimer timerID) = m.holding.started := by
      refine List.map_id'' (fun s => if_neg ?_) _
      rintro ⟨-, heq⟩
      exact hid (by rw [heq]; simp only [idiLastMatchResult]; omega)
    rw [hsame]
    split
    · simp [ImmediateMatch.holding, hended]
    · rfl

/-- What the start of a match moves. -/
def Holding.Starts (h h' : Holding) : Prop :=
  ∃ number taken, h.numbers = number :: h'.numbers ∧ (taken ++ h'.free).Perm h.free ∧
    h'.started = h.started ++ [{ h.cur with number := number, status := .firstRound }] ∧
    h'.cur = ⟨taken, 0, .signup⟩ ∧ h'.ended = h.ended

theorem holding_start {now : ℕ} (h : efficacyStartMatch o now m = some m') :
    m.holding.Starts m'.holding := by
  obtain ⟨number, taken, hnum, hfree, hgroups, hcur, hover, -⟩ := efficacyStartMatch_spec h
  refine ⟨number, taken, hnum, hfree, ?_, ?_, ?_⟩
  · simp [ImmediateMatch.holding, hgroups, ImmediateGroup.share]
  · simp [ImmediateMatch.holding, hcur, ImmediateGroup.share]
  · simp only [ImmediateMatch.holding, hover]

/-- **What a step moves**: nothing, the share of a group that starts, or
the status of groups that end. -/
theorem step_holding (hend : m.holding.ended = []) (h : step o m e = some (m', out)) :
    m'.holding = m.holding ∨ m.holding.Starts m'.holding ∨
      ∃ timerID, e = .timer timerID ∧ m'.holding =
        { m.holding with started := m.holding.started.map (·.afterTimer timerID) } := by
  cases e with
  | matchFee userID fee => cases h; exact Or.inl rfl
  | unsignUpResult item resultCode =>
    cases h
    exact Or.inl (holding_unsignUp item resultCode)
  | joinMatch user =>
    obtain rfl := congrArg Prod.fst (Option.some.inj h)
    exact Or.inl (holding_join user)
  | leaveMatch userID userStatus =>
    obtain rfl := congrArg Prod.fst (Option.some.inj h)
    exact Or.inl (holding_quit userID userStatus)
  | timer timerID =>
    obtain rfl := congrArg Prod.fst (Option.some.inj h)
    exact Or.inr (Or.inr ⟨timerID, rfl, holding_timer timerID hend⟩)
  | signUpResult requester item resultCode frames now =>
    rw [step] at h
    obtain ⟨m₁, h₁, heq⟩ := Option.map_eq_some_iff.1 h
    cases heq
    cases item with
    | none => cases h₁; exact Or.inl rfl
    | some userID =>
      cases resultCode with
      | false => cases h₁; exact Or.inl rfl
      | true =>
        rw [onSignUpResult_eq] at h₁
        split at h₁
        · cases h₁; exact Or.inl rfl
        split at h₁
        · cases h₁; exact Or.inl rfl
        split at h₁
        · obtain ⟨m₂, h₂, rfl⟩ := Option.map_eq_some_iff.1 h₁
          have hstart : (joined o m userID).holding.Starts m₂.holding := holding_start h₂
          exact Or.inr (Or.inl hstart)
        · cases h₁; exact Or.inl rfl

/-! ## Runs -/

theorem Share.afterTimer_tables (timerID : ℕ) (s : Share) :
    (s.afterTimer timerID).tables = s.tables := by
  rw [Share.afterTimer]
  split <;> rfl

theorem Share.afterTimer_number (timerID : ℕ) (s : Share) :
    (s.afterTimer timerID).number = s.number := by
  rw [Share.afterTimer]
  split <;> rfl

theorem Sound.starts {h h' : Holding} (hs : Sound o h) (hstart : h.Starts h') : Sound o h' := by
  obtain ⟨number, taken, hnum, hfree, hstarted, hcur, hended⟩ := hstart
  constructor
  · have hmove : (h'.free ++ h'.cur.tables ++ h'.started.flatMap (·.tables)).Perm
        (h.free ++ h.cur.tables ++ h.started.flatMap (·.tables)) := by
      rw [hstarted, hcur]
      simp only [List.flatMap_append, List.flatMap_cons, List.flatMap_nil, List.append_nil]
      refine ((List.perm_append_comm.trans hfree).append_right _).trans ?_
      rw [List.append_assoc]
      exact List.perm_append_comm.append_left _
    exact hmove.trans hs.tables
  · have hmove : (h'.numbers ++ h'.started.map (·.number)).Perm
        (h.numbers ++ h.started.map (·.number)) := by
      rw [hstarted, hnum, List.map_append, ← List.append_assoc]
      exact List.perm_append_comm
    exact hmove.trans hs.numbers
  · rw [hcur]
  · rw [hstarted]
    intro s hmem
    rcases List.mem_append.1 hmem with hmem | hmem
    · exact hs.started s hmem
    · rw [List.mem_singleton.1 hmem]
      exact Or.inl rfl
  · rw [hended]
    exact hs.ended

theorem Sound.timer {h : Holding} (hs : Sound o h) (timerID : ℕ) :
    Sound o { h with started := h.started.map (·.afterTimer timerID) } := by
  constructor
  · simpa only [List.flatMap_map, Share.afterTimer_tables] using hs.tables
  · simpa only [List.map_map, Function.comp_def, Share.afterTimer_number] using hs.numbers
  · exact hs.cur
  · intro s hmem
    obtain ⟨s', hs', rfl⟩ := List.mem_map.1 hmem
    rw [Share.afterTimer]
    split
    · exact Or.inr rfl
    · exact hs.started s' hs'
  · exact hs.ended

/-- **No step loses or doubles a table or a number that a group has.** -/
theorem Sound.step (hs : Sound o m.holding)
    (h : step o m e = some (m', out)) : Sound o m'.holding := by
  rcases step_holding hs.ended h with hsame | hstart | ⟨timerID, -, htimer⟩
  · rwa [hsame]
  · exact hs.starts hstart
  · rw [htimer]
    exact hs.timer timerID

theorem sound_onStartService {now : ℕ} (h : onStartService o now = some m) :
    Sound o m.holding ∧ m.holding.AllRunning := by
  obtain ⟨⟨group, left⟩, hgroup, rfl⟩ := Option.map_eq_some_iff.1 h
  obtain ⟨taken, rfl, hperm⟩ := newGroup_spec hgroup
  refine ⟨⟨?_, ?_, rfl, nofun, rfl⟩, nofun⟩
  · simpa [ImmediateMatch.holding, ImmediateGroup.share] using List.perm_append_comm.trans hperm
  · simp [ImmediateMatch.holding]

/-- **The condition.** A sign-up that fills the group finds a number and
tables for the next group, and no match ends. -/
def Orderly (o : MatchManagerParameter) (m : ImmediateMatch) : Event → Prop
  | .signUpResult _ (some userID) true frames _ =>
      Admits o frames m userID → ¬ AndroidFull o m userID → Fills o m → StartServed o m
  | .timer timerID => ∀ group ∈ m.matchGroup, ¬ EndsAt timerID group.share
  | _ => True

/-- A sign-up answer is handled exactly when a start finds what it needs. -/
theorem onSignUpResult_isSome (frames : TableFrames) (now userID : ℕ) :
    (onSignUpResult o frames now m (some userID) true).isSome ↔
      (Admits o frames m userID → ¬ AndroidFull o m userID → Fills o m → StartServed o m) := by
  rw [onSignUpResult_eq]
  by_cases hadmits : Admits o frames m userID
  · by_cases hfull : AndroidFull o m userID
    · simp [hadmits, hfull]
    · by_cases hfills : Fills o m
      · simp [hadmits, hfull, hfills, efficacyStartMatch_isSome]
      · simp [hadmits, hfull, hfills]
  · simp [hadmits]

theorem step_isSome (e : Event) :
    (step o m e).isSome ↔ ∀ requester userID frames now,
      e = .signUpResult requester (some userID) true frames now →
        Admits o frames m userID → ¬ AndroidFull o m userID → Fills o m → StartServed o m := by
  cases e with
  | signUpResult requester item resultCode frames now =>
    rw [step, Option.isSome_map]
    cases item with
    | none => simp [onSignUpResult]
    | some userID =>
      cases resultCode with
      | false => simp [onSignUpResult]
      | true =>
        rw [onSignUpResult_isSome]
        constructor
        · rintro h _ _ _ _ ⟨⟩
          exact h
        · exact fun h => h requester userID frames now rfl
  | matchFee userID fee => simp [step]
  | unsignUpResult item resultCode => simp [step]
  | joinMatch user => simp [step]
  | leaveMatch userID userStatus => simp [step]
  | timer timerID => simp [step]

/-- From a sound state with all matches running, an orderly step is taken
and leads to such a state. -/
theorem Orderly.step (hs : Sound o m.holding) (hall : m.holding.AllRunning) (hok : Orderly o m e) :
    ∃ m' out, step o m e = some (m', out) ∧ Sound o m'.holding ∧ m'.holding.AllRunning := by
  have htaken : (MatchService.step o m e).isSome := by
    rw [step_isSome]
    rintro requester userID frames now rfl
    exact hok
  obtain ⟨⟨m', out⟩, h⟩ := Option.isSome_iff_exists.1 htaken
  refine ⟨m', out, h, hs.step h, ?_⟩
  rcases step_holding hs.ended h with hsame | ⟨number, taken, -, -, hstarted, -⟩ |
    ⟨timerID, rfl, htimer⟩
  · rwa [hsame]
  · rw [Holding.AllRunning, hstarted]
    intro s hmem
    rcases List.mem_append.1 hmem with hmem | hmem
    · exact hall s hmem
    · rw [List.mem_singleton.1 hmem]
  · rw [Holding.AllRunning, htimer]
    intro s hmem
    obtain ⟨s', hs', rfl⟩ := List.mem_map.1 hmem
    obtain ⟨group, hgroup, rfl⟩ := List.mem_map.1 hs'
    rw [Share.afterTimer, if_neg (hok group hgroup)]
    exact hall _ hs'

/-- A step that is taken and leaves all matches running was orderly. -/
theorem Orderly.of_step (hs : Sound o m.holding)
    (h : MatchService.step o m e = some (m', out)) (hall : m'.holding.AllRunning) :
    Orderly o m e := by
  have htaken := (step_isSome (o := o) (m := m) e).1 (by rw [h]; rfl)
  cases e with
  | signUpResult requester item resultCode frames now =>
    cases item with
    | none => trivial
    | some userID =>
      cases resultCode with
      | false => trivial
      | true => exact htaken requester userID frames now rfl
  | timer timerID =>
    intro group hgroup hends
    obtain rfl := congrArg Prod.fst (Option.some.inj h)
    have hnull : group.share.afterTimer timerID ∈ (onEventTimer o m timerID).1.holding.started := by
      rw [holding_timer timerID hs.ended]
      exact List.mem_map.2 ⟨group.share, List.mem_map.2 ⟨group, hgroup, rfl⟩, rfl⟩
    have hrunning := hall _ hnull
    rw [Share.afterTimer, if_pos hends] at hrunning
    cases hrunning
  | matchFee userID fee => trivial
  | unsignUpResult item resultCode => trivial
  | joinMatch user => trivial
  | leaveMatch userID userStatus => trivial

/-- **When the resources are conserved.** The service starts, every event
is handled and the resources are conserved in every state, exactly when the
bound tables serve the first group and every step is orderly; and
`GetNullTable` takes `n` of the free tables exactly when there is at most
one to take or `2 n - 1` are free. -/
theorem resources_conserved_iff (o : MatchManagerParameter) (now : ℕ) (events : List Event) :
    ((∃ m₀, onStartService o now = some m₀ ∧
        ∀ n, ∃ r, (step o).run m₀ (events.take n) = some r ∧ ResourcesConserved o r.1) ↔
      GroupServed o (List.range o.tableCount) ∧
        ∀ m₀, onStartService o now = some m₀ → Machine.Along (step o) (Orderly o) m₀ events) ∧
    ∀ (free : List ℕ) (n : ℕ), n ≤ free.length →
      (TakesDistinct free n ↔ n = 0 ∨ 2 * n ≤ free.length + 1) := by
  refine ⟨?_, fun free n hn => takesDistinct_iff hn⟩
  have hstarts : (onStartService o now).isSome ↔ GroupServed o (List.range o.tableCount) := by
    rw [onStartService, Option.isSome_map, newGroup_isSome]
  have hruns : ∀ m₀, onStartService o now = some m₀ →
      ((∀ n, ∃ r, (step o).run m₀ (events.take n) = some r ∧ ResourcesConserved o r.1) ↔
        Machine.Along (step o) (Orderly o) m₀ events) := by
    intro m₀ hm₀
    have hiff := Machine.prefixes_iff
      (I := fun m : ImmediateMatch => Sound o m.holding ∧ m.holding.AllRunning)
      (P := ResourcesConserved o) (Q := fun _ _ => True)
      (fun m hm => hm.1.conserved_iff.2 hm.2)
      (fun m e hm (hok : Orderly o m e) => ⟨trivial, hok.step hm.1 hm.2⟩)
      (fun m e m' out hm _ he hP =>
        .of_step hm.1 he ((hm.1.step he).conserved_iff.1 hP))
      events m₀ (sound_onStartService hm₀)
    rw [← hiff]
    exact ⟨fun h => ⟨h, Machine.along_of_forall (fun _ _ => trivial) _ _⟩, And.left⟩
  constructor
  · rintro ⟨m₀, hm₀, h⟩
    refine ⟨hstarts.1 (by rw [hm₀]; rfl), fun m₁ hm₁ => (hruns m₁ hm₁).1 ?_⟩
    rw [hm₀] at hm₁
    cases hm₁
    exact h
  · rintro ⟨hserved, hal⟩
    obtain ⟨m₀, hm₀⟩ := Option.isSome_iff_exists.1 (hstarts.2 hserved)
    exact ⟨m₀, hm₀, (hruns m₀ hm₀).2 (hal m₀ hm₀)⟩

/-! ### A match of two players -/

/-- Three tables of two chairs, two users to a match. -/
def duel : MatchManagerParameter where
  matchID := 1
  matchFee := 100
  startUserCount := 2
  androidUserCount := 0
  initalBase := 1
  initalScore := 1000
  minEnterGold := 0
  chairCount := 2
  tableCount := 3

/-- Tables that seat everybody, with the given user on the first chair of
the first one. -/
def duelTables (first : Option ℕ) : TableFrames where
  chairCount := 2
  tableUser table chair := if table = 0 ∧ chair = 0 then first else none
  performSitDown _ _ _ := true

def duelSignUps : List Event :=
  [.matchFee 1 (some 100), .signUpResult 1 (some 1) true (duelTables none) 100,
    .matchFee 2 (some 100), .signUpResult 2 (some 2) true (duelTables (some 1)) 101]

theorem resources_conserved_duel :
    (∃ m₀, onStartService duel 100 = some m₀ ∧ ∀ n, ∃ r,
      (step duel).run m₀ (duelSignUps.take n) = some r ∧ ResourcesConserved duel r.1) ∧
    TakesDistinct [0, 1, 2] 2 := by
  obtain ⟨hruns, htakes⟩ := resources_conserved_iff duel 100 duelSignUps
  refine ⟨hruns.2 ⟨⟨by decide, by unfold TablesServed; decide⟩, ?_⟩,
    (htakes [0, 1, 2] 2 (by decide)).2 (by decide)⟩
  rintro m₀ ⟨⟩
  refine Machine.along_cons rfl trivial (Machine.along_cons rfl (fun _ _ h => ?_)
    (Machine.along_cons rfl trivial (Machine.along_cons rfl (fun _ _ _ => ?_) trivial)))
  · exact absurd h (by decide)
  · exact ⟨by decide, by decide, by unfold TablesServed; decide⟩

/-- The duel is over: its table and its number are gone. And the second of
two tables is looked for past the end of the list. -/
theorem match_over_loses :
    (∃ m₀ r, onStartService duel 100 = some m₀ ∧
      (step duel).run m₀ (duelSignUps ++ [.timer 213]) = some r ∧ ¬ ResourcesConserved duel r.1) ∧
    ¬ TakesDistinct [0, 1] 2 := by
  refine ⟨⟨_, _, rfl, rfl, fun h => ?_⟩, ?_⟩
  · exact absurd h.numbers.length_eq (by decide)
  · rintro ⟨left, taken, h, -⟩
    cases h

end GameServer.MatchService
