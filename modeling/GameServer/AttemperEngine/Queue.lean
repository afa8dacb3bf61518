import GameServer.AttemperEngine.Nodes
/-!
# AttemperEngine — who is drawn together

The users who are drawn have one level, and the rules of the same table
and of the same address hold between any two of them
(`drawUsers_together`). How many there are is asked behind the second
node first, so a single user may get company: `SelectionFits` says when
the selection is as large as it should be (`selectionSound_iff`).
-/

namespace GameServer.AttemperEngine

open Function GameService

variable {rule need : ℕ} {userItem : ℕ → WaitingUser} {info : DistributeInfo}
variable {drawn queue : List DistributeInfo}

/-- Users who may sit together. -/
structure Together (rule : ℕ) (userItem : ℕ → WaitingUser) (drawn : List DistributeInfo) :
    Prop where
  level : ∀ i ∈ drawn, ∀ j ∈ drawn, i.wDistribute = j.wDistribute
  table : rule &&& distributeLastTable = 0 →
    drawn.Pairwise fun i j => ¬(i.wLastTableID = j.wLastTableID ∧ j.wLastTableID ≠ invalidTable)
  address : rule &&& distributeSameAddress = 0 →
    drawn.Pairwise fun i j => (userItem i.userID).clientAddr ≠ (userItem j.userID).clientAddr

def MadeOfRobots (userItem : ℕ → WaitingUser) (drawn : List DistributeInfo) : Prop :=
  drawn ≠ [] ∧ ∀ i ∈ drawn, (userItem i.userID).androidUser

theorem firstSuccess_iff : firstSuccess rule userItem need drawn info ↔
    (∀ first ∈ drawn.head?, first.wDistribute = info.wDistribute) ∧
      ¬(drawn.length + 1 = need ∧ filterRuleIsAllAndroid userItem drawn info.userID = true) ∧
      ¬(rule &&& distributeLastTable = 0 ∧
        filterRuleExitsSameTable drawn info.wLastTableID = true) ∧
      ¬(rule &&& distributeSameAddress = 0 ∧
        filterRuleExitsIPAddr userItem drawn (userItem info.userID).clientAddr = true) := by
  have hlevel : (drawn.head?.any fun first => first.wDistribute ≠ info.wDistribute) = true ↔
      ¬∀ first ∈ drawn.head?, first.wDistribute = info.wDistribute := by
    cases drawn with
    | nil => simp
    | cons first drawn => simp
  rw [firstSuccess]
  split_ifs with h₁ h₂ h₃ h₄
  · exact ⟨nofun, fun h => absurd h.1 (hlevel.1 h₁)⟩
  · exact ⟨nofun, fun h => absurd h₂ h.2.1⟩
  · exact ⟨nofun, fun h => absurd h₃ h.2.2.1⟩
  · exact ⟨nofun, fun h => absurd h₄ h.2.2.2⟩
  · exact ⟨fun _ => ⟨not_not.1 fun h => h₁ (hlevel.2 h), h₂, h₃, h₄⟩, fun _ => rfl⟩

theorem filterRuleIsAllAndroid_iff {u : ℕ} : filterRuleIsAllAndroid userItem drawn u ↔
    MadeOfRobots userItem drawn ∧ (userItem u).androidUser := by
  simp [filterRuleIsAllAndroid, MadeOfRobots]

/-- Who is let through may sit with all of them. -/
theorem Together.append (h : Together rule userItem drawn)
    (hfirst : firstSuccess rule userItem need drawn info) :
    Together rule userItem (drawn ++ [info]) := by
  obtain ⟨hlevel, -, htable, haddress⟩ := firstSuccess_iff.1 hfirst
  have hsame : ∀ i ∈ drawn, i.wDistribute = info.wDistribute := by
    intro i hi
    cases drawn with
    | nil => cases hi
    | cons head drawn => exact (h.level i hi head List.mem_cons_self).trans (hlevel head rfl)
  refine ⟨?_, fun hrule => ?_, fun hrule => ?_⟩
  · intro i hi j hj
    have hone : ∀ k ∈ drawn ++ [info], k.wDistribute = info.wDistribute := by
      intro k hk
      rcases List.mem_append.1 hk with hk | hk
      · exact hsame k hk
      · rw [List.mem_singleton.1 hk]
    rw [hone i hi, hone j hj]
  · refine List.pairwise_append.2 ⟨h.table hrule, List.pairwise_singleton .., ?_⟩
    intro i hi j hj heq
    rw [List.mem_singleton.1 hj] at heq
    exact htable ⟨hrule, List.any_eq_true.2 ⟨i, hi, decide_eq_true heq⟩⟩
  · refine List.pairwise_append.2 ⟨h.address hrule, List.pairwise_singleton .., ?_⟩
    intro i hi j hj heq
    rw [List.mem_singleton.1 hj] at heq
    exact haddress ⟨hrule, List.any_eq_true.2 ⟨i, hi, decide_eq_true heq⟩⟩

theorem drawFrom_together : ∀ queue drawn, Together rule userItem drawn →
    Together rule userItem (drawFrom rule userItem need drawn queue) := by
  intro queue
  induction queue with
  | nil => exact fun drawn h => h
  | cons info queue ih =>
    intro drawn h
    have hnext : Together rule userItem
        (if firstSuccess rule userItem need drawn info then drawn ++ [info] else drawn) := by
      split
      · exact h.append ‹_›
      · exact h
    rw [drawFrom]
    generalize (if firstSuccess rule userItem need drawn info then drawn ++ [info] else drawn) =
      next at hnext ⊢
    split
    · exact hnext
    · exact ih _ hnext

/-- **Who is drawn may sit together**, whatever number is asked for. -/
theorem drawUsers_together (rule : ℕ) (userItem : ℕ → WaitingUser) (need : ℕ)
    (queue : List DistributeInfo) :
    Together rule userItem (drawUsers rule userItem need queue) := by
  have hnil : Together rule userItem [] := ⟨nofun, fun _ => .nil, fun _ => .nil⟩
  cases queue with
  | nil => exact hnil
  | cons head queue =>
    refine drawFrom_together queue [head] ⟨?_, fun _ => List.pairwise_singleton .., fun _ =>
      List.pairwise_singleton ..⟩
    intro i hi j hj
    rw [List.mem_singleton.1 hi, List.mem_singleton.1 hj]

/-- As many as asked for are not robots only, when the loop begins with
fewer. -/
theorem drawFrom_real : ∀ queue drawn, drawn ≠ [] → drawn.length < need →
    (drawFrom rule userItem need drawn queue).length = need →
    ¬MadeOfRobots userItem (drawFrom rule userItem need drawn queue) := by
  intro queue
  induction queue with
  | nil => exact fun drawn _ hlt heq => absurd heq (Nat.ne_of_lt hlt)
  | cons info queue ih =>
    intro drawn hne hlt
    rw [drawFrom]
    by_cases hfirst : firstSuccess rule userItem need drawn info
    · have hlength : (drawn ++ [info]).length = drawn.length + 1 := List.length_append ..
      rw [if_pos hfirst]
      by_cases hneed : (drawn ++ [info]).length = need
      · rw [if_pos hneed]
        intro _ hrobots
        obtain ⟨-, hfilter, -, -⟩ := firstSuccess_iff.1 hfirst
        refine hfilter ⟨by omega, filterRuleIsAllAndroid_iff.2 ⟨⟨hne, fun i hi => ?_⟩, ?_⟩⟩
        · exact hrobots.2 i (List.mem_append_left _ hi)
        · exact hrobots.2 info (List.mem_append_right _ (List.mem_singleton_self _))
      · rw [if_neg hneed]
        exact ih _ (by simp) (by omega)
    · rw [if_neg hfirst, if_neg (Nat.ne_of_lt hlt)]
      exact ih drawn hne hlt

/-- **What a selection should be**: at most as many users as asked for,
all of them queued, each once, who may sit together, and who are not
robots only if they are as many. -/
structure SelectionSound (rule : ℕ) (userItem : ℕ → WaitingUser) (need : ℕ)
    (queue drawn : List DistributeInfo) : Prop extends Together rule userItem drawn where
  length_le : drawn.length ≤ need
  queued : ∀ i ∈ drawn, i ∈ queue
  distinct : (users drawn).Nodup
  real : drawn.length = need → ¬MadeOfRobots userItem drawn

/-- When it is: two users at least are asked for, or there is nobody, or
one is asked for, who is no robot, and the filters keep the second user
from him. -/
def SelectionFits (rule : ℕ) (userItem : ℕ → WaitingUser) (need : ℕ) :
    List DistributeInfo → Prop
  | [] => True
  | head :: queue =>
      2 ≤ need ∨ need = 1 ∧ (userItem head.userID).androidUser = false ∧
        ∀ second ∈ queue.head?, firstSuccess rule userItem 1 [head] second = false

theorem le_length_drawFrom (queue drawn : List DistributeInfo) :
    drawn.length ≤ (drawFrom rule userItem need drawn queue).length := by
  obtain ⟨more, heq, -⟩ := exists_drawFrom rule userItem need queue drawn
  rw [heq, List.length_append]
  exact Nat.le_add_right ..

/-- A single user is drawn alone, if the second one may not sit with
him. -/
theorem drawUsers_one {head : DistributeInfo}
    (h : ∀ second ∈ queue.head?, firstSuccess rule userItem 1 [head] second = false) :
    drawUsers rule userItem 1 (head :: queue) = [head] := by
  cases queue with
  | nil => rfl
  | cons second queue =>
    rw [drawUsers, drawFrom, h second rfl]
    rfl

theorem two_le_drawUsers_one {head second : DistributeInfo} (h : queue.head? = some second)
    (hfirst : firstSuccess rule userItem 1 [head] second) :
    2 ≤ (drawUsers rule userItem 1 (head :: queue)).length := by
  cases queue with
  | nil => cases h
  | cons second queue =>
    cases h
    rw [drawUsers, drawFrom, if_pos hfirst]
    exact le_length_drawFrom queue [head, second]

/-- **When the selection is sound.** -/
theorem selectionSound_iff (hnodup : (users queue).Nodup) :
    SelectionSound rule userItem need queue (drawUsers rule userItem need queue) ↔
      SelectionFits rule userItem need queue := by
  have hsub := drawUsers_sublist rule userItem need queue
  have htogether := drawUsers_together rule userItem need queue
  have hdistinct : (users (drawUsers rule userItem need queue)).Nodup :=
    hnodup.sublist (users_sublist hsub)
  have hsound : (drawUsers rule userItem need queue).length ≤ need →
      ((drawUsers rule userItem need queue).length = need →
        ¬MadeOfRobots userItem (drawUsers rule userItem need queue)) →
      SelectionSound rule userItem need queue (drawUsers rule userItem need queue) :=
    fun hle hreal => ⟨htogether, hle, fun i hi => hsub.subset hi, hdistinct, hreal⟩
  cases queue with
  | nil => exact ⟨fun _ => trivial, fun _ => hsound (Nat.zero_le _) fun _ h => h.1 rfl⟩
  | cons head queue =>
    have hlength : 1 ≤ (drawUsers rule userItem need (head :: queue)).length :=
      le_length_drawFrom queue [head]
    constructor
    · intro h
      have hle := h.length_le
      rcases Nat.lt_or_ge need 2 with hneed | hneed
      · obtain rfl : need = 1 := by omega
        have hsecond : ∀ second ∈ queue.head?,
            firstSuccess rule userItem 1 [head] second = false := by
          intro second hmem
          by_contra hfirst
          have htwo := two_le_drawUsers_one hmem (Bool.eq_true_of_not_eq_false hfirst)
          omega
        have hreal := h.real
        rw [drawUsers_one hsecond] at hreal
        refine .inr ⟨rfl, ?_, hsecond⟩
        by_contra hrobot
        refine hreal rfl ⟨nofun, fun i hi => ?_⟩
        rw [List.mem_singleton.1 hi]
        exact Bool.eq_true_of_not_eq_false hrobot
      · exact .inl hneed
    · rintro (hneed | ⟨rfl, hreal, hsecond⟩)
      · exact hsound (length_drawUsers_le rule userItem hneed _)
          (drawFrom_real queue [head] nofun hneed)
      · refine hsound ?_ fun _ hrobots => ?_
        · rw [drawUsers_one hsecond]
          exact Nat.le_refl 1
        · rw [drawUsers_one hsecond] at hrobots
          have hrobot := hrobots.2 head (List.mem_singleton_self _)
          rw [hreal] at hrobot
          cases hrobot

/-! ## Whole runs -/

namespace DistributeManager

theorem Listed.back {s : DistributeManager} {nodes free : List ℕ} (h : Listed s nodes free) :
    ∀ p ∈ nodes, ∀ q, s.next p = some q → s.prep q = some p := by
  intro p hp q hq
  obtain ⟨xs, ys, rfl⟩ := List.append_of_mem hp
  have hhead : ys.head? = some q := h.next.link_eq.symm.trans hq
  obtain ⟨zs, rfl⟩ := List.head?_eq_some_iff.1 hhead
  have hback : Leads s.prep (zs.reverse ++ q :: p :: xs.reverse) none := by
    simpa using h.prep
  exact hback.link_eq_some

/-- **Every run keeps the queue** when a node that is handed in is one of
the list and 65535 users are not exceeded, and what is drawn from it is as
it should be when the number asked for fits. -/
theorem distributeQueue_kept (userItem : ℕ → WaitingUser) (node : ℕ → DistributeNode) (rule : ℕ)
    (ops : List NodeOperation)
    (hfits : Machine.Along (step userItem) CallFits (start node rule) ops) :
    ∃ s history nodes free, Machine.run (step userItem) (start node rule) ops =
        some (s, history) ∧ Keeps userItem s history nodes free ∧
      (∀ p ∈ nodes, ∀ q, s.next p = some q → s.prep q = some p) ∧
      ∀ need, ∃ drawn, s.performDistribute userItem need = some (drawn.length, drawn) ∧
        drawn.Sublist (nodes.map fun p => (s.node p).distributeInfo) ∧
        (SelectionSound s.cbDistributeRule userItem need (s.queue nodes)
            (drawn.map PertainInfo.toDistributeInfo) ↔
          SelectionFits s.cbDistributeRule userItem need (s.queue nodes)) := by
  have hstep : ∀ (s : DistributeManager) (history : List NodeEvent) (op : NodeOperation),
      (∃ nodes free, Keeps userItem s history nodes free) → CallFits s op →
      ∃ s' out, step userItem s op = some (s', out) ∧
        ∃ nodes free, Keeps userItem s' (history ++ out) nodes free :=
    fun s history op h hop => by
      obtain ⟨nodes, free, h⟩ := h
      exact h.step hop
  obtain ⟨⟨s, history⟩, hrun, nodes, free, hkeeps⟩ := Machine.inv_run_total hstep ops
    (start node rule) [] ⟨[], [], keeps_start userItem node rule⟩ hfits
  refine ⟨s, history, nodes, free, hrun, hkeeps, hkeeps.back, fun need => ?_⟩
  obtain ⟨drawn, hsub, hperform, hqueue⟩ := hkeeps.performDistribute need
  refine ⟨drawn.map fun p => (s.node p).distributeInfo, by rwa [List.length_map], hsub.map _, ?_⟩
  have hmap : (drawn.map fun p => (s.node p).distributeInfo).map PertainInfo.toDistributeInfo =
      s.queue drawn := List.map_map ..
  rw [hmap, hqueue]
  exact selectionSound_iff hkeeps.users

/-- Three users, the last of them a robot. -/
def threeUsers (userID : ℕ) : WaitingUser :=
  { androidUser := userID = 3, clientAddr := userID }

/-- Two of them are queued and one of these leaves, and the node is used
again. -/
def threeCalls : List NodeOperation :=
  [.insertDistributeNode { userID := 1 }, .insertDistributeNode { userID := 2 },
    .removeDistributeNode (some 39), .insertDistributeNode { userID := 3 }]

theorem distributeQueue_kept_threeCalls :
    ∃ s history nodes free, Machine.run (step threeUsers) (start (fun _ => zeroNode) 0)
        threeCalls = some (s, history) ∧ Keeps threeUsers s history nodes free ∧
      (∀ p ∈ nodes, ∀ q, s.next p = some q → s.prep q = some p) ∧
      ∀ need, ∃ drawn, s.performDistribute threeUsers need = some (drawn.length, drawn) ∧
        drawn.Sublist (nodes.map fun p => (s.node p).distributeInfo) ∧
        (SelectionSound s.cbDistributeRule threeUsers need (s.queue nodes)
            (drawn.map PertainInfo.toDistributeInfo) ↔
          SelectionFits s.cbDistributeRule threeUsers need (s.queue nodes)) :=
  distributeQueue_kept threeUsers (fun _ => zeroNode) 0 threeCalls (by decide +kernel)

/-- One user is asked for, and two are drawn. -/
theorem oneUser_not_alone :
    ∃ s history drawn, Machine.run (step threeUsers) (start (fun _ => zeroNode) 0)
        [.insertDistributeNode { userID := 1 }, .insertDistributeNode { userID := 2 }] =
        some (s, history) ∧
      s.performDistribute threeUsers 1 = some (2, drawn) ∧ 1 < drawn.length :=
  ⟨_, _, _, rfl, rfl, by decide⟩

end DistributeManager

end GameServer.AttemperEngine
