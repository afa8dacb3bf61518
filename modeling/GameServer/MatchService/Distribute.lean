import GameServer.MatchService.Model.Distribute
import Mathlib.Data.List.Rotate
import Mathlib.Data.List.ReduceOption
import Mathlib.Data.List.Count
/-!
# MatchService — the queue of a timed match

Whatever happens to the queue, its users are distinct, and their data are
those `InsertDistribute` sets (`Waiting`). A selection looks at the users
from its first node around, each of them once (`performDistribute_eq`).
The address that is asked of them is one that nobody has set.
-/

namespace GameServer.MatchService

open Function GameService

namespace DistributeManage

variable {s s' : DistributeManage} {p q u : ℕ}

/-- The data of the users in the queue. -/
def infos (s : DistributeManage) : List DistributeInfo := s.queue.map s.node

def users (l : List DistributeInfo) : List ℕ := l.map DistributeInfo.userID

/-- **A queue as `InsertDistribute` builds it.** -/
structure Waiting (s : DistributeManage) : Prop where
  nodup : s.queue.Nodup
  freeNodup : s.freeList.Nodup
  disjoint : s.queue.Disjoint s.freeList
  made : ∀ p ∈ s.queue ++ s.freeList, p < s.made
  users : (users s.infos).Nodup
  pertain : ∀ p ∈ s.queue, (s.node p).pPertainNode = some p
  unset : ∀ p ∈ s.queue, (s.node p).dwClientAddr = 0 ∧ (s.node p).wDistribute = 0
  count : s.wNodeCount = word s.queue.length

theorem waiting_start (rule : ℕ) : Waiting { cbDistributeRule := rule } where
  nodup := List.nodup_nil
  freeNodup := List.nodup_nil
  disjoint := List.disjoint_nil_left _
  made := nofun
  users := List.nodup_nil
  pertain := nofun
  unset := nofun
  count := rfl

theorem searchNode_eq_some (h : s.searchNode u = some p) :
    p ∈ s.queue ∧ (s.node p).userID = u := by
  have huser := List.find?_some h
  exact ⟨List.mem_of_find?_eq_some h, by simpa using huser⟩

theorem searchNode_eq_none : s.searchNode u = none ↔ u ∉ users s.infos := by
  simp [searchNode, users, infos]

theorem Waiting.searchNode (h : Waiting s) (hp : p ∈ s.queue) :
    s.searchNode (s.node p).userID = some p := by
  cases hq : s.searchNode (s.node p).userID with
  | none =>
    refine absurd ?_ (searchNode_eq_none.1 hq)
    exact List.mem_map_of_mem (List.mem_map_of_mem hp)
  | some q =>
    obtain ⟨hmem, heq⟩ := searchNode_eq_some hq
    have husers := h.users
    rw [infos, DistributeManage.users, List.map_map] at husers
    exact congrArg some (List.inj_on_of_nodup_map husers hmem hp heq)

/-! ## The queue changes -/

theorem Waiting.supplied (h : Waiting s) :
    Waiting s.supplied ∧ s.supplied.freeList ≠ [] ∧ s.supplied.queue = s.queue ∧
      s.supplied.node = s.node ∧ s.supplied.wNodeCount = s.wNodeCount := by
  rw [DistributeManage.supplied]
  cases hfree : s.freeList with
  | cons p free => exact ⟨h, by simp [hfree], rfl, rfl, rfl⟩
  | nil =>
    refine ⟨?_, by simp [distributeBlockSize], rfl, rfl, rfl⟩
    have hfresh : ∀ p ∈ ((List.range distributeBlockSize).map (s.made + ·)).reverse,
        s.made ≤ p ∧ p < s.made + distributeBlockSize := by
      intro p hp
      obtain ⟨i, hi, rfl⟩ := List.mem_map.1 (List.mem_reverse.1 hp)
      have := List.mem_range.1 hi
      omega
    have hqueue : ∀ p ∈ s.queue, p < s.made := fun p hp =>
      h.made p (List.mem_append_left _ hp)
    exact { h with
      freeNodup := List.nodup_reverse.2
        (List.nodup_range.map fun i j hij => Nat.add_left_cancel hij)
      disjoint := fun p hp hp' => by
        have := hqueue p hp
        have := (hfresh p hp').1
        omega
      made := fun p hp => by
        rcases List.mem_append.1 hp with hp | hp
        · exact Nat.lt_add_right _ (hqueue p hp)
        · exact (hfresh p hp).2 }

theorem linkBehind_perm (p : ℕ) : ∀ queue : List ℕ, (linkBehind p queue).Perm (p :: queue)
  | [] => .refl _
  | head :: queue => .swap p head queue

theorem word_succ (n : ℕ) : word (word n + 1) = word (n + 1) := by
  simp only [word]
  omega

/-- **A user is inserted**, whose level and address are not set. -/
theorem Waiting.insert (h : Waiting s) (info : DistributeInfo)
    (hunset : info.dwClientAddr = 0 ∧ info.wDistribute = 0) :
    Waiting (s.insertDistributeNode info).2 := by
  rw [insertDistributeNode]
  cases hsearch : s.searchNode info.userID with
  | some p => exact h
  | none =>
    obtain ⟨hsupplied, hne, hqueue, hnode, hcount⟩ := h.supplied
    cases hfree : s.supplied.freeList with
    | nil => exact absurd hfree hne
    | cons p free =>
      have hfreeNodup := hsupplied.freeNodup
      have hdisj := hsupplied.disjoint
      have hmade := hsupplied.made
      rw [hfree] at hfreeNodup hdisj hmade
      rw [hqueue] at hdisj hmade
      have hp : p ∉ s.queue := fun hmem => hdisj hmem List.mem_cons_self
      have hperm := linkBehind_perm p s.queue
      have hinfo : ∀ q ∈ s.queue,
          update s.node p { info with pPertainNode := some p } q = s.node q := fun q hq =>
        update_of_ne (ne_of_mem_of_not_mem hq hp) ..
      have hself : update s.node p { info with pPertainNode := some p } p =
          { info with pPertainNode := some p } := update_self ..
      have hall : ∀ P : ℕ → Prop, P p → (∀ q ∈ s.queue, P q) →
          ∀ q ∈ linkBehind p s.queue, P q := by
        intro P hPp hPq q hq
        rcases List.mem_cons.1 (hperm.mem_iff.1 hq) with rfl | hq
        · exact hPp
        · exact hPq q hq
      exact
        { nodup := hperm.nodup_iff.2 (List.nodup_cons.2 ⟨hp, h.nodup⟩)
          freeNodup := (List.nodup_cons.1 hfreeNodup).2
          disjoint := fun q hq hqf => by
            rcases List.mem_cons.1 (hperm.mem_iff.1 hq) with rfl | hq
            · exact (List.nodup_cons.1 hfreeNodup).1 hqf
            · exact hdisj hq (List.mem_cons_of_mem _ hqf)
          made := fun q hq => by
            rcases List.mem_append.1 hq with hq | hq
            · exact hall (· < s.supplied.made)
                (hmade p (List.mem_append_right _ List.mem_cons_self))
                (fun q hq => hmade q (List.mem_append_left _ hq)) q hq
            · exact hmade q (List.mem_append_right _ (List.mem_cons_of_mem _ hq))
          users := by
            have husers := searchNode_eq_none.1 hsearch
            have hnodes : s.queue.map (s.addNode p free info).node = s.infos :=
              List.map_congr_left hinfo
            refine ((hperm.map _).map _).nodup_iff.2 ?_
            rw [List.map_cons, List.map_cons, hnodes, show (s.addNode p free info).node p = _ from
              hself]
            exact List.nodup_cons.2 ⟨husers, h.users⟩
          pertain := hall (fun q => ((s.addNode p free info).node q).pPertainNode = some q)
            (congrArg DistributeInfo.pPertainNode hself) fun q hq =>
              (congrArg DistributeInfo.pPertainNode (hinfo q hq)).trans (h.pertain q hq)
          unset := hall (fun q => ((s.addNode p free info).node q).dwClientAddr = 0 ∧
              ((s.addNode p free info).node q).wDistribute = 0)
            ⟨(congrArg DistributeInfo.dwClientAddr hself).trans hunset.1,
              (congrArg DistributeInfo.wDistribute hself).trans hunset.2⟩ fun q hq =>
            ⟨(congrArg DistributeInfo.dwClientAddr (hinfo q hq)).trans (h.unset q hq).1,
              (congrArg DistributeInfo.wDistribute (hinfo q hq)).trans (h.unset q hq).2⟩
          count := by
            change word (s.wNodeCount + 1) = word (linkBehind p s.queue).length
            rw [hperm.length_eq, h.count, word_succ]
            rfl }

/-- **A node of the queue is removed.** -/
theorem Waiting.removeNode (h : Waiting s) (hp : p ∈ s.queue) :
    ∃ s', s.removeDistributeNode p = some s' ∧ Waiting s' ∧ s'.queue = s.queue.erase p ∧
      s'.node = s.node ∧ s'.freeList = p :: s.freeList ∧ s'.sameTable = s.sameTable ∧
      s'.cbDistributeRule = s.cbDistributeRule := by
  rw [removeDistributeNode, h.searchNode hp]
  simp only [if_pos hp]
  refine ⟨_, rfl, ?_, rfl, rfl, rfl, rfl, rfl⟩
  have hsub : (s.queue.erase p).Sublist s.queue := List.erase_sublist
  have hlength : (s.queue.erase p).length + 1 = s.queue.length :=
    List.length_erase_add_one hp
  have hpfree : p ∉ s.freeList := h.disjoint hp
  exact
    { nodup := h.nodup.sublist hsub
      freeNodup := List.nodup_cons.2 ⟨hpfree, h.freeNodup⟩
      disjoint := List.disjoint_cons_right.2
        ⟨h.nodup.not_mem_erase, fun q hq => h.disjoint (hsub.subset hq)⟩
      made := fun q hq => by
        rcases List.mem_append.1 hq with hq | hq
        · exact h.made q (List.mem_append_left _ (hsub.subset hq))
        · rcases List.mem_cons.1 hq with rfl | hq
          · exact h.made q (List.mem_append_left _ hp)
          · exact h.made q (List.mem_append_right _ hq)
      users := h.users.sublist ((hsub.map _).map _)
      pertain := fun q hq => h.pertain q (hsub.subset hq)
      unset := fun q hq => h.unset q (hsub.subset hq)
      count := by
        rw [h.count]
        simp only [word]
        omega }

theorem Waiting.removeUser (h : Waiting s) (u : ℕ) :
    ∃ s', s.removeDistributeUser u = some s' ∧ Waiting s' := by
  rw [removeDistributeUser]
  cases hsearch : s.searchNode u with
  | none => exact ⟨s, rfl, h⟩
  | some p =>
    obtain ⟨s', heq, hw, -⟩ := h.removeNode (searchNode_eq_some hsearch).1
    exact ⟨s', heq, hw⟩

/-! ## The last table -/

/-- Only the users of last tables have changed. -/
def SameQueue (s s' : DistributeManage) : Prop := ∃ t, s' = { s with sameTable := t }

theorem SameQueue.trans {s'' : DistributeManage} (h : SameQueue s s') (h' : SameQueue s' s'') :
    SameQueue s s'' := by
  obtain ⟨t, rfl⟩ := h
  obtain ⟨t', rfl⟩ := h'
  exact ⟨t', rfl⟩

theorem Waiting.sameQueue (h : Waiting s) (hsame : SameQueue s s') : Waiting s' := by
  obtain ⟨t, rfl⟩ := hsame
  exact { h with }

theorem sameQueue_insertTableUsers : ∀ (chairs : List (Option ℕ)) (s : DistributeManage),
    insertTableUsers u chairs s = some s' → SameQueue s s'
  | [], s, h => by
    cases h
    exact ⟨_, rfl⟩
  | none :: chairs, s, h => sameQueue_insertTableUsers chairs s h
  | some v :: chairs, s, h => by
    rw [insertTableUsers] at h
    by_cases hv : v = u
    · rw [if_pos hv] at h
      exact sameQueue_insertTableUsers chairs s h
    · rw [if_neg hv, Option.bind_eq_some_iff] at h
      obtain ⟨s₁, h₁, h₂⟩ := h
      rw [inserSameTableUser, Option.ite_none_right_eq_some] at h₁
      obtain ⟨-, heq⟩ := h₁
      have hfirst : SameQueue s s₁ := ⟨_, (Option.some.inj heq).symm⟩
      exact hfirst.trans (sameQueue_insertTableUsers chairs s₁ h₂)

theorem sameQueue_startTableUsers (chairs : List (Option ℕ)) :
    ∀ (rest : List (Option ℕ)) (s : DistributeManage),
      startTableUsers chairs rest s = some s' → SameQueue s s'
  | [], s, h => by
    cases h
    exact ⟨_, rfl⟩
  | none :: rest, s, h => sameQueue_startTableUsers chairs rest s h
  | some u :: rest, s, h => by
    rw [startTableUsers, Option.bind_eq_some_iff] at h
    obtain ⟨s₁, h₁, h₂⟩ := h
    have hclear : SameQueue s (s.clearSameTableUser u) := ⟨_, rfl⟩
    exact (hclear.trans (sameQueue_insertTableUsers chairs _ h₁)).trans
      (sameQueue_startTableUsers chairs rest s₁ h₂)

/-! ## What a selection looks at -/

variable {userItem : ℕ → MatchUser} {now need rand start : ℕ}
variable {drawn examined rest : List DistributeInfo} {info : DistributeInfo}

/-- The selection among users who come one behind the other. -/
def drawRound (s : DistributeManage) (userItem : ℕ → MatchUser) (now need : ℕ) :
    List DistributeInfo → List DistributeInfo → List DistributeInfo × List DistributeInfo
  | drawn, [] => (drawn, [])
  | drawn, info :: rest =>
      let drawn :=
        if s.firstSuccess userItem now need drawn info then drawn ++ [info] else drawn
      if drawn.length = need then (drawn, [info])
      else ((drawRound s userItem now need drawn rest).1,
        info :: (drawRound s userItem now need drawn rest).2)

/-- The walk from the `j`-th user behind the first one on is the selection
among those who are left. -/
theorem drawLoop_eq (hstart : start < s.queue.length) : ∀ (fuel j i : ℕ)
    (drawn examined : List DistributeInfo), fuel + j = s.queue.length → j < s.queue.length →
    i < s.queue.length → (i = start + j ∨ i + s.queue.length = start + j) →
    s.drawLoop userItem now need start fuel i drawn examined =
      some ((s.drawRound userItem now need drawn ((s.infos.rotate start).drop j)).1,
        examined ++ (s.drawRound userItem now need drawn ((s.infos.rotate start).drop j)).2) := by
  intro fuel
  induction fuel with
  | zero => omega
  | succ fuel ih =>
    intro j i drawn examined hj hlt hi hplace
    have hlength : (s.infos.rotate start).length = s.queue.length := by
      rw [List.length_rotate, infos, List.length_map]
    have hrot : j < (s.infos.rotate start).length := by omega
    have hnth : (s.infos.rotate start)[j] = s.node s.queue[i] := by
      have hinfos : s.infos.length = s.queue.length := List.length_map ..
      have hmod : (j + start) % s.infos.length = i := by
        rw [hinfos]
        rcases hplace with rfl | hwrap
        · rw [Nat.add_comm, Nat.mod_eq_of_lt hi]
        · rw [Nat.add_comm, ← hwrap, Nat.add_mod_right, Nat.mod_eq_of_lt hi]
      simp only [List.getElem_rotate, hmod]
      simp [infos]
    rw [List.drop_eq_getElem_cons hrot, hnth, drawLoop, List.getElem?_eq_getElem hi]
    simp only [drawRound]
    generalize (if s.firstSuccess userItem now need drawn (s.node s.queue[i]) then
      drawn ++ [s.node s.queue[i]] else drawn) = drawn'
    by_cases hneed : drawn'.length = need
    · rw [if_pos (.inl hneed), if_pos hneed]
    · rw [if_neg hneed]
      have hmove : (s.nextNode i).getD 0 = if i + 1 < s.queue.length then i + 1 else 0 := by
        rw [nextNode]
        split
        · rfl
        · rfl
      rw [hmove]
      by_cases hlast : j + 1 = s.queue.length
      · -- the walk is back where it has begun
        have hback : (if i + 1 < s.queue.length then i + 1 else 0) = start := by
          split
          · omega
          · omega
        have hnil : (s.infos.rotate start).drop (j + 1) = [] :=
          List.drop_eq_nil_of_le (by omega)
        rw [if_pos (.inr hback), hnil]
        rfl
      · have hon : (if i + 1 < s.queue.length then i + 1 else 0) ≠ start := by
          split
          · omega
          · omega
        rw [if_neg (by tauto), ih (j + 1) _ drawn' (examined ++ [s.node s.queue[i]]) (by omega)
          (by omega) (by split <;> omega) (by split <;> omega), List.append_assoc]
        rfl

theorem moveNodes_eq : ∀ k i : ℕ, i + k < s.queue.length →
    s.moveNodes k (some i) = some (i + k)
  | 0, _, _ => rfl
  | k + 1, i, h => by
    have hnext : s.nextNode i = some (i + 1) := if_pos (by omega)
    rw [moveNodes, hnext, moveNodes_eq k (i + 1) (by omega), Nat.add_right_comm, Nat.add_assoc]

/-- **A selection** goes once around, from some node of the queue on. It
does not begin in a queue of a single user. -/
theorem Waiting.performDistribute_eq (h : Waiting s) (userItem : ℕ → MatchUser)
    (rand now need : ℕ) :
    (word s.queue.length ≤ 1 → s.performDistribute userItem rand now need = some ([], [])) ∧
      (1 < word s.queue.length → ∃ start < s.queue.length,
        s.performDistribute userItem rand now need =
          some (s.drawRound userItem now need [] (s.infos.rotate start))) := by
  constructor
  · intro hcount
    have hnone : s.moveStartNode rand = none := if_neg fun hc => by
      rw [h.count] at hc
      omega
    rw [performDistribute, hnone]
  · intro hcount
    have hle : word s.queue.length ≤ s.queue.length := Nat.mod_le ..
    have hlt : rand % s.wNodeCount < s.wNodeCount := Nat.mod_lt _ (by rw [h.count]; omega)
    rw [h.count] at hlt
    have hstart : s.moveStartNode rand = some (rand % s.wNodeCount) := by
      have hne : s.queue ≠ [] := List.ne_nil_of_length_pos (by omega)
      rw [DistributeManage.moveStartNode, if_pos ⟨hne, by rwa [h.count]⟩,
        moveNodes_eq _ _ (by rw [h.count]; omega), Nat.zero_add]
    refine ⟨rand % s.wNodeCount, by rw [h.count]; omega, ?_⟩
    rw [performDistribute, hstart]
    exact drawLoop_eq (by rw [h.count]; omega) _ 0 _ [] [] rfl (by omega) (by rw [h.count]; omega)
      (.inl rfl)

/-- It looks at users in their order, and draws some of them. -/
theorem exists_drawRound (s : DistributeManage) (userItem : ℕ → MatchUser) (now need : ℕ) :
    ∀ rest drawn : List DistributeInfo, ∃ more examined,
    s.drawRound userItem now need drawn rest = (drawn ++ more, examined) ∧
      more.Sublist examined ∧ examined <+: rest
  | [], drawn => ⟨[], [], by rw [drawRound, List.append_nil], .slnil, List.prefix_rfl⟩
  | info :: rest, drawn => by
    rw [drawRound]
    by_cases hfirst : s.firstSuccess userItem now need drawn info
    · rw [if_pos hfirst]
      by_cases hneed : (drawn ++ [info]).length = need
      · rw [if_pos hneed]
        exact ⟨[info], [info], rfl, .refl _, List.prefix_append [info] rest⟩
      · rw [if_neg hneed]
        obtain ⟨more, examined, heq, hsub, hinit⟩ :=
          exists_drawRound s userItem now need rest (drawn ++ [info])
        refine ⟨info :: more, info :: examined, ?_, hsub.cons_cons info,
          (List.prefix_cons_inj info).2 hinit⟩
        rw [heq, List.append_assoc]
        rfl
    · rw [if_neg hfirst]
      by_cases hneed : drawn.length = need
      · rw [if_pos hneed]
        exact ⟨[], [info], by rw [List.append_nil], List.nil_sublist _,
          List.prefix_append [info] rest⟩
      · rw [if_neg hneed]
        obtain ⟨more, examined, heq, hsub, hinit⟩ :=
          exists_drawRound s userItem now need rest drawn
        exact ⟨more, info :: examined, by rw [heq], hsub.cons info,
          (List.prefix_cons_inj info).2 hinit⟩

/-! ## How many are drawn -/

theorem firstSuccess_iff : s.firstSuccess userItem now need drawn info ↔
    distributeWaitTimestamp ≤ dword (now + 2 ^ 32 - info.dwInsertStamp) ∧
      (∀ first ∈ drawn.head?, first.wDistribute = info.wDistribute) ∧
      ¬(drawn.length + 1 = need ∧ filterRuleIsAllAndroid userItem drawn info.userID = true) ∧
      ¬(s.cbDistributeRule &&& distributeSameAddress = 0 ∧
        filterRuleExitsIPAddr drawn info.dwClientAddr = true) ∧
      ¬(s.cbDistributeRule &&& distributeLastTable = 0 ∧
        s.filterRuleIsLastSameTable drawn info.userID = true) := by
  have hlevel : (drawn.head?.any fun first => first.wDistribute ≠ info.wDistribute) = true ↔
      ¬∀ first ∈ drawn.head?, first.wDistribute = info.wDistribute := by
    cases drawn with
    | nil => simp
    | cons first drawn => simp
  rw [firstSuccess]
  split_ifs with h₀ h₁ h₂ h₃ h₄
  · exact ⟨nofun, fun h => absurd h₀ (Nat.not_lt.2 h.1)⟩
  · exact ⟨nofun, fun h => absurd h.2.1 (hlevel.1 h₁)⟩
  · exact ⟨nofun, fun h => absurd h₂ h.2.2.1⟩
  · exact ⟨nofun, fun h => absurd h₃ h.2.2.2.1⟩
  · exact ⟨nofun, fun h => absurd h₄ h.2.2.2.2⟩
  · exact ⟨fun _ => ⟨Nat.not_lt.1 h₀, not_not.1 fun h => h₁ (hlevel.2 h), h₂, h₃, h₄⟩,
      fun _ => rfl⟩

theorem filterRuleIsAllAndroid_iff : filterRuleIsAllAndroid userItem drawn u ↔
    drawn ≠ [] ∧ (∀ i ∈ drawn, (userItem i.userID).androidUser) ∧ (userItem u).androidUser := by
  simp [filterRuleIsAllAndroid, and_assoc]

/-- Users who have waited long enough, none of whom sat with another in
the last game, and whose level and address are not set. -/
structure Ready (s : DistributeManage) (now : ℕ) (l : List DistributeInfo) : Prop where
  waited : ∀ info ∈ l, distributeWaitTimestamp ≤ dword (now + 2 ^ 32 - info.dwInsertStamp)
  apart : l.Pairwise fun i j => j.userID ∉ s.sameTable i.userID ∧ i.userID ∉ s.sameTable j.userID
  unset : ∀ info ∈ l, info.dwClientAddr = 0 ∧ info.wDistribute = 0

theorem Ready.sublist {l l' : List DistributeInfo} (h : Ready s now l) (hsub : l'.Sublist l) :
    Ready s now l' where
  waited := fun info hinfo => h.waited info (hsub.subset hinfo)
  apart := h.apart.sublist hsub
  unset := fun info hinfo => h.unset info (hsub.subset hinfo)

theorem Ready.perm {l l' : List DistributeInfo} (h : Ready s now l) (hperm : l'.Perm l) :
    Ready s now l' where
  waited := fun info hinfo => h.waited info (hperm.mem_iff.1 hinfo)
  apart := (hperm.pairwise_iff fun h => ⟨h.2, h.1⟩).2 h.apart
  unset := fun info hinfo => h.unset info (hperm.mem_iff.1 hinfo)

theorem Ready.firstSuccess_nil (h : Ready s now (info :: rest)) :
    s.firstSuccess userItem now need [] info := by
  refine firstSuccess_iff.2 ⟨h.waited info List.mem_cons_self, nofun, ?_, ?_, ?_⟩
  · simp [filterRuleIsAllAndroid]
  · simp [filterRuleExitsIPAddr]
  · simp [filterRuleIsLastSameTable]

/-- One behind others is not drawn for the address that nobody has set,
unless the rule lets him. -/
theorem Ready.firstSuccess_false (h : Ready s now (drawn ++ info :: rest)) (hne : drawn ≠ [])
    (hrule : s.cbDistributeRule &&& distributeSameAddress = 0) :
    s.firstSuccess userItem now need drawn info = false := by
  refine Bool.eq_false_of_not_eq_true fun hfirst => ?_
  obtain ⟨-, -, -, haddress, -⟩ := firstSuccess_iff.1 hfirst
  obtain ⟨first, drawn, rfl⟩ := List.exists_cons_of_ne_nil hne
  refine haddress ⟨hrule, List.any_eq_true.2 ⟨first, List.mem_cons_self, decide_eq_true ?_⟩⟩
  rw [(h.unset first (by simp)).1, (h.unset info (by simp)).1]

/-- If it does, only the robots can stand in his way. -/
theorem Ready.firstSuccess_iff (h : Ready s now (drawn ++ info :: rest))
    (hrule : s.cbDistributeRule &&& distributeSameAddress ≠ 0) :
    s.firstSuccess userItem now need drawn info ↔
      ¬(drawn.length + 1 = need ∧ filterRuleIsAllAndroid userItem drawn info.userID = true) := by
  rw [DistributeManage.firstSuccess_iff]
  have hmem : info ∈ drawn ++ info :: rest := List.mem_append_right _ List.mem_cons_self
  refine ⟨fun hf => hf.2.2.1, fun hrobots => ⟨h.waited info hmem, fun first hfirst => ?_, hrobots,
    fun ha => hrule ha.1, fun hlast => ?_⟩⟩
  · have hfirst' := List.mem_append_left (info :: rest) (List.mem_of_head? hfirst)
    rw [(h.unset first hfirst').2, (h.unset info hmem).2]
  · obtain ⟨i, hi, hin⟩ := List.any_eq_true.1 hlast.2
    have happart := (List.pairwise_append.1 h.apart).2.2 i hi info List.mem_cons_self
    exact happart.1 (of_decide_eq_true hin)

/-- Enough users, one of them no robot, are found. -/
theorem drawRound_found (hrule : s.cbDistributeRule &&& distributeSameAddress ≠ 0) :
    ∀ rest drawn : List DistributeInfo, Ready s now (drawn ++ rest) → drawn.length < need →
      need ≤ drawn.length + rest.length →
      (∃ i ∈ drawn ++ rest, (userItem i.userID).androidUser = false) →
      (s.drawRound userItem now need drawn rest).1.length = need
  | [], drawn, _, hlt, hle, _ => by
    rw [List.length_nil] at hle
    omega
  | info :: rest, drawn, h, hlt, hle, hreal => by
    rw [List.length_cons] at hle
    have happend : drawn ++ info :: rest = drawn ++ [info] ++ rest := by simp
    have hlength : (drawn ++ [info]).length = drawn.length + 1 := List.length_append ..
    rw [drawRound]
    by_cases hfirst : s.firstSuccess userItem now need drawn info
    · rw [if_pos hfirst]
      by_cases hneed : (drawn ++ [info]).length = need
      · rw [if_pos hneed]
        exact hneed
      · rw [if_neg hneed]
        rw [happend] at h hreal
        exact drawRound_found hrule rest _ h (by omega) (by omega) hreal
    · -- all so far are robots, so one behind them is not
      rw [if_neg hfirst, if_neg (Nat.ne_of_lt hlt)]
      obtain ⟨hlast, hrobots⟩ := not_not.1 (mt (h.firstSuccess_iff hrule).2 hfirst)
      obtain ⟨-, hdrawn, hinfo⟩ := filterRuleIsAllAndroid_iff.1 hrobots
      have hall : ∀ i ∈ drawn ++ [info], (userItem i.userID).androidUser := by
        intro i hi
        rcases List.mem_append.1 hi with hi | hi
        · exact hdrawn i hi
        · rwa [List.mem_singleton.1 hi]
      obtain ⟨i, hi, hireal⟩ := hreal
      have hirest : i ∈ rest := by
        rw [happend] at hi
        rcases List.mem_append.1 hi with hi | hi
        · rw [hall i hi] at hireal
          cases hireal
        · exact hi
      have hpos : 0 < rest.length := List.length_pos_of_mem hirest
      have hsub : (drawn ++ rest).Sublist (drawn ++ info :: rest) :=
        (List.sublist_cons_self info rest).append_left drawn
      exact drawRound_found hrule rest drawn (h.sublist hsub) hlt (by omega)
        ⟨i, List.mem_append_right _ hirest, hireal⟩

/-- Nobody is drawn behind others, if the rule asks for addresses. -/
theorem drawRound_alone (hrule : s.cbDistributeRule &&& distributeSameAddress = 0) :
    ∀ rest drawn : List DistributeInfo, Ready s now (drawn ++ rest) → drawn ≠ [] →
      (s.drawRound userItem now need drawn rest).1 = drawn
  | [], drawn, _, _ => rfl
  | info :: rest, drawn, h, hne => by
    rw [drawRound, h.firstSuccess_false hne hrule, if_neg Bool.false_ne_true]
    have hsub : (drawn ++ rest).Sublist (drawn ++ info :: rest) :=
      (List.sublist_cons_self info rest).append_left drawn
    split
    · rfl
    · exact drawRound_alone hrule rest drawn (h.sublist hsub) hne

/-! ## Any queue -/

/-- The queue of a selection that finds as many users as it is asked
for. -/
def Formable (rule need count : ℕ) : Prop :=
  need = 0 ∧ word count ≤ 1 ∨
    1 < word count ∧ (need = 1 ∨ 2 ≤ need ∧ rule &&& distributeSameAddress ≠ 0)

instance (rule need count : ℕ) : Decidable (Formable rule need count) := by
  unfold Formable
  infer_instance

theorem Waiting.step (h : Waiting s) (o : LockTimeOption) (e : QueueEvent) {out : List Unit}
    (hstep : queueStep o s e = some (s', out)) : Waiting s' := by
  cases e with
  | insert matchStatus curTime time user userID =>
    obtain rfl : (insertDistribute o matchStatus curTime time user userID s).2 = s' :=
      congrArg Prod.fst (Option.some.inj hstep)
    rw [insertDistribute]
    split
    · exact h
    · split
      · exact h
      · split
        · exact h
        · exact h.insert _ ⟨rfl, rfl⟩
  | remove userID =>
    obtain ⟨s₁, heq, h₁⟩ := h.removeUser userID
    rw [queueStep, heq] at hstep
    obtain rfl : s₁ = s' := congrArg Prod.fst (Option.some.inj hstep)
    exact h₁
  | quit userID =>
    obtain ⟨s₁, heq, h₁⟩ := h.removeUser userID
    rw [queueStep, heq] at hstep
    obtain rfl : s₁.clearSameTableUser userID = s' := congrArg Prod.fst (Option.some.inj hstep)
    exact h₁.sameQueue ⟨_, rfl⟩
  | gameStart chairs =>
    obtain ⟨s₁, heq, hs₁⟩ := Option.map_eq_some_iff.1 hstep
    obtain rfl : s₁ = s' := congrArg Prod.fst hs₁
    exact h.sameQueue (sameQueue_startTableUsers chairs chairs s heq)

theorem Waiting.run (o : LockTimeOption) (rule : ℕ) (es : List QueueEvent)
    (r : DistributeManage × List Unit)
    (hrun : Machine.run (queueStep o) { cbDistributeRule := rule } es = some r) : Waiting r.1 :=
  Machine.inv_run (fun _ e _ _ h _ hstep => h.step o e hstep) es _ r (waiting_start rule)
    (Machine.along_of_forall (fun _ _ => trivial) _ _) hrun

/-- How many users a selection finds among those who may sit together. -/
theorem Waiting.length_drawn_iff (h : Waiting s) (hready : Ready s now s.infos)
    (hreal : ∃ i ∈ s.infos, (userItem i.userID).androidUser = false)
    (hneed : need ≤ s.infos.length)
    (hdrawn : s.performDistribute userItem rand now need = some (drawn, examined)) :
    drawn.length = need ↔ Formable s.cbDistributeRule need s.queue.length := by
  obtain ⟨hfew, hmany⟩ := h.performDistribute_eq userItem rand now need
  rw [Formable]
  rcases Nat.lt_or_ge 1 (word s.queue.length) with hcount | hcount
  · obtain ⟨start, hstart, heq⟩ := hmany hcount
    rw [heq] at hdrawn
    obtain rfl : _ = drawn := congrArg Prod.fst (Option.some.inj hdrawn)
    have hperm := List.rotate_perm s.infos start
    have hrot := hready.perm hperm
    have hlength := hperm.length_eq
    have hrealRot : ∃ i ∈ s.infos.rotate start, (userItem i.userID).androidUser = false :=
      hreal.imp fun i hi => ⟨hperm.mem_iff.2 hi.1, hi.2⟩
    have hqueue : s.infos.length = s.queue.length := List.length_map ..
    cases hl : s.infos.rotate start with
    | nil =>
      rw [hl, List.length_nil] at hlength
      omega
    | cons info rest =>
      rw [hl] at hrot hrealRot hlength
      rw [drawRound, if_pos hrot.firstSuccess_nil, List.nil_append]
      rcases Nat.lt_trichotomy need 1 with hzero | rfl | htwo
      · obtain ⟨more, seen, hround, -⟩ :=
          exists_drawRound s userItem now need rest [info]
        rw [if_neg (by simp only [List.length_singleton]; omega), hround, List.length_append,
          List.length_singleton]
        omega
      · simp [hcount]
      · rw [if_neg (by simp only [List.length_singleton]; omega)]
        by_cases hrule : s.cbDistributeRule &&& distributeSameAddress = 0
        · rw [drawRound_alone hrule rest [info] hrot nofun, List.length_singleton]
          omega
        · rw [drawRound_found hrule rest [info] hrot (by omega)
            (by simp only [List.length_cons] at hlength ⊢; omega) hrealRot]
          exact ⟨fun _ => .inr ⟨hcount, .inr ⟨htwo, hrule⟩⟩, fun _ => rfl⟩
  · rw [hfew hcount] at hdrawn
    obtain rfl : [] = drawn := congrArg Prod.fst (Option.some.inj hdrawn)
    rw [List.length_nil]
    omega

/-- **A selection** from any queue that `InsertDistribute` has built looks
at each user once at most and draws distinct ones. Among users who have
waited, who did not sit together and who are not all robots, it finds as
many as it is asked for, where the queue has as many, just if `Formable`
says so: their addresses do not matter. -/
theorem selection_found (o : LockTimeOption) (rule : ℕ) (es : List QueueEvent)
    (s : DistributeManage) (out : List Unit)
    (hrun : Machine.run (queueStep o) { cbDistributeRule := rule } es = some (s, out))
    (userItem : ℕ → MatchUser) (rand now need : ℕ) :
    ∃ drawn examined, s.performDistribute userItem rand now need = some (drawn, examined) ∧
      (∀ info ∈ examined, info ∈ s.infos) ∧ (users examined).Nodup ∧
      (∀ info ∈ drawn, info ∈ s.infos) ∧ (users drawn).Nodup ∧
      ((∀ info ∈ s.infos,
          distributeWaitTimestamp ≤ dword (now + 2 ^ 32 - info.dwInsertStamp)) →
        (s.infos.Pairwise fun i j =>
          j.userID ∉ s.sameTable i.userID ∧ i.userID ∉ s.sameTable j.userID) →
        (∃ i ∈ s.infos, (userItem i.userID).androidUser = false) →
        need ≤ s.infos.length →
        (drawn.length = need ↔ Formable s.cbDistributeRule need s.queue.length)) := by
  have h : Waiting s := Waiting.run o rule es (s, out) hrun
  have hround : ∃ start drawn examined,
      s.performDistribute userItem rand now need = some (drawn, examined) ∧
        drawn.Sublist examined ∧ examined <+: s.infos.rotate start := by
    obtain ⟨hfew, hmany⟩ := h.performDistribute_eq userItem rand now need
    rcases Nat.lt_or_ge 1 (word s.queue.length) with hcount | hcount
    · obtain ⟨start, -, heq⟩ := hmany hcount
      obtain ⟨more, examined, hdrawn, hsub, hinit⟩ :=
        exists_drawRound s userItem now need (s.infos.rotate start) []
      exact ⟨start, more, examined, heq.trans (congrArg some hdrawn), hsub, hinit⟩
    · exact ⟨0, [], [], hfew hcount, .slnil, List.nil_prefix⟩
  obtain ⟨start, drawn, examined, heq, hsub, hinit⟩ := hround
  have hperm := List.rotate_perm s.infos start
  have hnodup : (users (s.infos.rotate start)).Nodup := (hperm.map _).nodup_iff.2 h.users
  refine ⟨drawn, examined, heq, fun info hinfo => hperm.mem_iff.1 (hinit.subset hinfo),
    hnodup.sublist (hinit.sublist.map _),
    fun info hinfo => hperm.mem_iff.1 (hinit.subset (hsub.subset hinfo)),
    hnodup.sublist ((hsub.trans hinit.sublist).map _), ?_⟩
  intro hwaited hapart hreal hneed
  refine h.length_drawn_iff ⟨hwaited, hapart, fun info hinfo => ?_⟩ hreal hneed heq
  obtain ⟨p, hp, rfl⟩ := List.mem_map.1 hinfo
  exact h.unset p hp

/-- A match that is played from the first day to the tenth. -/
def tenDays : LockTimeOption where
  matchStartTime := 8 * 3600
  matchEndTime := 10 * 24 * 3600 + 20 * 3600
  lMatchCullScore := 0

def ownAddress (userID : ℕ) : MatchUser := { clientAddr := userID }

/-- Two users come, one after the other. -/
def twoInsert : List QueueEvent :=
  [.insert .playing (9 * 3600) 100 (ownAddress 1) 1,
    .insert .playing (9 * 3600 + 1) 101 (ownAddress 2) 2]

/-- With the rule bit for equal addresses the two are found. -/
theorem selection_found_twoInsert :
    ∃ s out drawn examined, Machine.run (queueStep tenDays) { cbDistributeRule := 8 } twoInsert =
        some (s, out) ∧
      s.performDistribute ownAddress 1 200 2 = some (drawn, examined) ∧ drawn.length = 2 := by
  obtain ⟨drawn, examined, heq, -, -, -, -, hfound⟩ :=
    selection_found tenDays 8 twoInsert _ _ rfl ownAddress 1 200 2
  exact ⟨_, _, drawn, examined, rfl, heq,
    (hfound (by decide +kernel) (by decide +kernel) (by decide +kernel) (by decide +kernel)).2
      (by decide +kernel)⟩

/-- Two users with different addresses are not drawn together. -/
theorem own_addresses_kept_apart :
    ∃ s out drawn examined, Machine.run (queueStep tenDays) { cbDistributeRule := 0 } twoInsert =
        some (s, out) ∧
      (∀ info ∈ s.infos, distributeWaitTimestamp ≤ dword (200 + 2 ^ 32 - info.dwInsertStamp)) ∧
      (s.infos.Pairwise fun i j =>
        (ownAddress i.userID).clientAddr ≠ (ownAddress j.userID).clientAddr) ∧
      (s.infos.Pairwise fun i j =>
        j.userID ∉ s.sameTable i.userID ∧ i.userID ∉ s.sameTable j.userID) ∧
      (∃ i ∈ s.infos, (ownAddress i.userID).androidUser = false) ∧ 2 ≤ s.infos.length ∧
      s.performDistribute ownAddress 1 200 2 = some (drawn, examined) ∧ drawn.length = 1 :=
  ⟨_, _, _, _, rfl, by decide +kernel, by decide +kernel, by decide +kernel, by decide +kernel,
    by decide +kernel, rfl, by decide +kernel⟩

end DistributeManage

end GameServer.MatchService
