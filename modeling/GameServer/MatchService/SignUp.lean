import GameServer.MatchService.Model.ImmediateMatch
import Mathlib.Data.List.Perm.Basic
import Mathlib.Data.List.Nodup
/-!
# MatchService — what a sign-up does

`takeTables` walks the free list while it shrinks: at its `k`-th turn it
takes the entry at index `k` of what is left, so `n` tables need about `2n`
free ones (`takeTables_isSome`). A sign-up is refused, left half done for
want of a robot's place, takes its place in the group, or fills it; the
last starts the match (`onUserSignUpMatch_eq`).
-/

namespace GameServer.MatchService

variable {o : MatchManagerParameter} {m m' : ImmediateMatch} {group group' : ImmediateGroup}

/-! ## Taking tables -/

theorem takeTables_isSome : ∀ (n i : ℕ) (free : List ℕ),
    (takeTables free i n).isSome ↔ n = 0 ∨ i + 2 * n ≤ free.length + 1 := by
  intro n
  induction n with
  | zero => simp [takeTables]
  | succ n ih =>
    intro i free
    rw [takeTables]
    by_cases hi : i < free.length
    · have hlen : (free.eraseIdx i).length = free.length - 1 := List.length_eraseIdx_of_lt hi
      rw [List.getElem?_eq_getElem hi]
      simp only [Option.isSome_map]
      rw [ih, hlen]
      omega
    · rw [List.getElem?_eq_none (by omega)]
      simp only [Option.isSome_none, Bool.false_eq_true, false_iff]
      omega

/-- The tables taken and the tables left are the tables there were. -/
theorem takeTables_perm : ∀ {n i : ℕ} {free left taken : List ℕ},
    takeTables free i n = some (left, taken) → taken.length = n ∧ (taken ++ left).Perm free := by
  intro n
  induction n with
  | zero =>
    intro i free left taken h
    cases h
    exact ⟨rfl, List.Perm.refl _⟩
  | succ n ih =>
    intro i free left taken h
    rw [takeTables] at h
    by_cases hi : i < free.length
    · rw [List.getElem?_eq_getElem hi] at h
      obtain ⟨⟨left', taken'⟩, hrest, heq⟩ := Option.map_eq_some_iff.1 h
      cases heq
      obtain ⟨hlen, hperm⟩ := ih hrest
      refine ⟨by rw [List.length_cons, hlen], ?_⟩
      exact (hperm.cons _).trans (List.getElem_cons_eraseIdx_perm hi)
    · rw [List.getElem?_eq_none (by omega)] at h
      cases h

/-- The request for `n` of the free tables can be met, or is turned down as
a whole. -/
def TablesServed (free : List ℕ) (n : ℕ) : Prop :=
  free.length < n ∨ n = 0 ∨ 2 * n ≤ free.length + 1

theorem getNullTable_isSome (free : List ℕ) (n : ℕ) :
    (getNullTable free n).isSome ↔ TablesServed free n := by
  rw [getNullTable, TablesServed]
  split
  case isTrue h => simp [h]
  case isFalse h => rw [takeTables_isSome]; omega

theorem getNullTable_perm {free left taken : List ℕ} {n : ℕ}
    (h : getNullTable free n = some (left, taken)) : (taken ++ left).Perm free := by
  rw [getNullTable] at h
  split at h
  · cases h
    exact List.Perm.refl _
  · exact (takeTables_perm h).2

/-- **`GetNullTable` takes that many distinct free tables.** -/
def TakesDistinct (free : List ℕ) (n : ℕ) : Prop :=
  ∃ left taken, getNullTable free n = some (left, taken) ∧ taken.length = n ∧
    (taken ++ left).Perm free

theorem takesDistinct_iff {free : List ℕ} {n : ℕ} (hn : n ≤ free.length) :
    TakesDistinct free n ↔ n = 0 ∨ 2 * n ≤ free.length + 1 := by
  have hserved : TablesServed free n ↔ n = 0 ∨ 2 * n ≤ free.length + 1 := by
    rw [TablesServed]
    omega
  rw [← hserved, ← getNullTable_isSome]
  constructor
  · rintro ⟨left, taken, h, -⟩
    rw [h]
    rfl
  · intro h
    obtain ⟨⟨left, taken⟩, h⟩ := Option.isSome_iff_exists.1 h
    have htake := h
    rw [getNullTable, if_neg (by omega)] at htake
    exact ⟨left, taken, h, takeTables_perm htake⟩

/-! ## A new group -/

/-- A group can be made from the free tables. -/
def GroupServed (o : MatchManagerParameter) (free : List ℕ) : Prop :=
  o.groupChairCount ≠ 0 ∧ TablesServed free o.groupTableCount

theorem newGroup_isSome (now : ℕ) (free : List ℕ) :
    (newGroup o now free).isSome ↔ GroupServed o free := by
  rw [newGroup, GroupServed]
  split
  case isTrue h => simp [h]
  case isFalse h => simp [h, getNullTable_isSome]

/-- A new group is open for sign-ups, and what it holds was free. -/
theorem newGroup_spec {now : ℕ} {free left : List ℕ} (h : newGroup o now free = some (group, left)) :
    ∃ taken, group = { matchNO := now, matchTableArray := taken } ∧ (taken ++ left).Perm free := by
  rw [newGroup] at h
  split at h
  · cases h
  · obtain ⟨⟨left', taken⟩, htake, heq⟩ := Option.map_eq_some_iff.1 h
    cases heq
    exact ⟨taken, rfl, getNullTable_perm htake⟩

/-! ## A sign-up -/

/-- The current group takes the user in. -/
def Admits (o : MatchManagerParameter) (frames : TableFrames) (m : ImmediateMatch) (userID : ℕ) :
    Prop :=
  userID ∉ m.curMatchGroup.onMatchUserMap ∧
    m.curMatchGroup.onMatchUserMap.length < o.startUserCount ∧
    userSitDown frames m.curMatchGroup.matchTableArray userID = true

/-- The user is a robot and the current group has no place for one. -/
def AndroidFull (o : MatchManagerParameter) (m : ImmediateMatch) (userID : ℕ) : Prop :=
  o.isAndroidUser userID = true ∧ m.curMatchGroup.androidUserCount ≥ o.androidUserCount

/-- One more user fills the current group. -/
def Fills (o : MatchManagerParameter) (m : ImmediateMatch) : Prop :=
  o.startUserCount ≤ m.curMatchGroup.onMatchUserMap.length + 1

instance (frames : TableFrames) (userID : ℕ) : Decidable (Admits o frames m userID) :=
  inferInstanceAs (Decidable (_ ∧ _ ∧ _))

instance (userID : ℕ) : Decidable (AndroidFull o m userID) := inferInstanceAs (Decidable (_ ∧ _))

instance : Decidable (Fills o m) := inferInstanceAs (Decidable (_ ≤ _))

/-- The match with the user in the map of the current group. -/
def seated (m : ImmediateMatch) (userID : ℕ) : ImmediateMatch :=
  { m with
    curMatchGroup := { m.curMatchGroup with
      onMatchUserMap := m.curMatchGroup.onMatchUserMap ++ [userID] }
    signUpStatus := Function.update m.signUpStatus userID .signup }

/-- The match with the user counted as well. -/
def joined (o : MatchManagerParameter) (m : ImmediateMatch) (userID : ℕ) : ImmediateMatch :=
  { seated m userID with
    curMatchGroup := { m.curMatchGroup with
      onMatchUserMap := m.curMatchGroup.onMatchUserMap ++ [userID]
      androidUserCount :=
        m.curMatchGroup.androidUserCount + (if o.isAndroidUser userID then 1 else 0) } }

theorem onUserSignUpMatch_eq (frames : TableFrames) (now : ℕ) (userID : ℕ) :
    onUserSignUpMatch o frames now m userID =
      if ¬ Admits o frames m userID then some (false, m)
      else if AndroidFull o m userID then some (false, seated m userID)
      else if Fills o m then (efficacyStartMatch o now (joined o m userID)).map (true, ·)
      else some (true, joined o m userID) := by
  rw [onUserSignUpMatch]
  by_cases hmem : userID ∈ m.curMatchGroup.onMatchUserMap
  · rw [if_pos hmem, if_pos fun h : Admits o frames m userID => h.1 hmem]
  by_cases hlen : m.curMatchGroup.onMatchUserMap.length ≥ o.startUserCount
  · rw [if_neg hmem, if_pos hlen,
      if_pos fun h : Admits o frames m userID => by have := h.2.1; omega]
  by_cases hsit : userSitDown frames m.curMatchGroup.matchTableArray userID = false
  · rw [if_neg hmem, if_neg hlen, if_pos hsit,
      if_pos fun h : Admits o frames m userID => by rw [h.2.2] at hsit; cases hsit]
  have hadmits : Admits o frames m userID := ⟨hmem, by omega, by simpa using hsit⟩
  rw [if_neg hmem, if_neg hlen, if_neg hsit, if_neg (not_not.2 hadmits)]
  simp only [AndroidFull, Fills, List.length_append, List.length_singleton, ge_iff_le]
  rfl

/-- The number and the tables of the next group are there. -/
def StartServed (o : MatchManagerParameter) (m : ImmediateMatch) : Prop :=
  m.loopTimer ≠ [] ∧ GroupServed o m.freeTableID

theorem efficacyStartMatch_isSome (now : ℕ) :
    (efficacyStartMatch o now m).isSome ↔ StartServed o m := by
  rw [efficacyStartMatch, onEventMatchStart, StartServed]
  cases h : m.loopTimer with
  | nil => simp
  | cons number numbers => simp [newGroup_isSome]

/-- What the start of a match moves: the group with its users and tables
goes to the running ones under a free number, and an empty group with free
tables takes its place. -/
theorem efficacyStartMatch_spec {now : ℕ} (h : efficacyStartMatch o now m = some m') :
    ∃ number taken, m.loopTimer = number :: m'.loopTimer ∧
      (taken ++ m'.freeTableID).Perm m.freeTableID ∧
      m'.matchGroup = m.matchGroup ++
        [{ m.curMatchGroup with matchStatus := .firstRound, loopTimer := number }] ∧
      m'.curMatchGroup = { matchNO := now, matchTableArray := taken } ∧
      m'.overMatchGroup = m.overMatchGroup ∧ m'.onMatchUserItem = m.onMatchUserItem := by
  rw [efficacyStartMatch, onEventMatchStart] at h
  split at h
  · cases h
  · rename_i number numbers hnum
    obtain ⟨⟨group, left⟩, hgroup, heq⟩ := Option.map_eq_some_iff.1 h
    obtain ⟨taken, rfl, hperm⟩ := newGroup_spec hgroup
    cases heq
    exact ⟨number, taken, hnum, hperm, rfl, rfl, rfl, rfl⟩

/-- The match with the user in the list of its users. -/
def enrolled (userID : ℕ) (m : ImmediateMatch) : ImmediateMatch :=
  { m with onMatchUserItem := m.onMatchUserItem ++ [userID] }

/-- What the answer to a fee request does, case by case. -/
theorem onSignUpResult_eq (frames : TableFrames) (now : ℕ) (userID : ℕ) :
    onSignUpResult o frames now m (some userID) true =
      if ¬ Admits o frames m userID then some m
      else if AndroidFull o m userID then some (seated m userID)
      else if Fills o m then
        (efficacyStartMatch o now (joined o m userID)).map (enrolled userID)
      else some (enrolled userID (joined o m userID)) := by
  simp only [onSignUpResult, onUserSignUpMatch_eq, Bool.true_eq_false, if_false]
  split
  · rfl
  split
  · rfl
  split
  · rw [Option.map_map]
    rfl
  · rfl

end GameServer.MatchService
