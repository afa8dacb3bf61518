import GameServer.AttemperEngine.Model.Nodes
import GameServer.AttemperEngine.Selection
import GameServer.Common.Links
/-!
# AttemperEngine — the queue kept in its nodes

`Listed` says which nodes a manager keeps: the list is linked both ways,
the pool one way, and no node is in both. Every call keeps it
(`Listed.insert`, `Listed.remove`) and is a call of the queue as a list
of users.
-/

namespace GameServer.AttemperEngine

open Function

namespace DistributeManager

variable {userItem : ℕ → WaitingUser} {s s' : DistributeManager} {nodes free xs ys : List ℕ}
variable {p : ℕ}

/-- The links to the nodes behind. -/
def next (s : DistributeManager) (p : ℕ) : Option ℕ := (s.node p).pNextDistributeNode

/-- The links to the nodes before. -/
def prep (s : DistributeManager) (p : ℕ) : Option ℕ := (s.node p).pPrepDistributeNode

/-- The data of a node, without the node. -/
def info (s : DistributeManager) (p : ℕ) : DistributeInfo :=
  (s.node p).distributeInfo.toDistributeInfo

def queue (s : DistributeManager) (nodes : List ℕ) : List DistributeInfo := nodes.map s.info

/-- The nodes a manager keeps, and those in its pool. -/
structure Listed (s : DistributeManager) (nodes free : List ℕ) : Prop where
  head : s.pHeadNode = nodes.head?
  next : Leads s.next nodes none
  prep : Leads s.prep nodes.reverse none
  freeHead : s.pHeadOfFreeList = free.head?
  freeNext : Leads s.next free none
  disjoint : nodes.Disjoint free
  made : ∀ p ∈ nodes ++ free, p < s.made
  pertain : ∀ p ∈ nodes, (s.node p).distributeInfo.pPertainNode = some p

theorem Listed.nodup (h : Listed s nodes free) : nodes.Nodup := h.next.nodup

theorem listed_start (node : ℕ → DistributeNode) (rule : ℕ) : Listed (start node rule) [] [] :=
  { head := rfl, next := trivial, prep := trivial, freeHead := rfl, freeNext := trivial
    disjoint := List.disjoint_nil_left _, made := nofun, pertain := nofun }

/-! ## The links behind an assignment -/

section Assign

variable (s : DistributeManager) (p : ℕ) (q : Option ℕ)

@[simp] theorem next_setNext : (s.setNext p q).next = update s.next p q := by
  funext a
  by_cases h : a = p
  · subst h
    simp [next, setNext]
  · simp [next, setNext, h]

@[simp] theorem next_setPrep : (s.setPrep p q).next = s.next := by
  funext a
  by_cases h : a = p
  · subst h
    simp [next, setPrep]
  · simp [next, setPrep, h]

@[simp] theorem prep_setPrep : (s.setPrep p q).prep = update s.prep p q := by
  funext a
  by_cases h : a = p
  · subst h
    simp [prep, setPrep]
  · simp [prep, setPrep, h]

@[simp] theorem prep_setNext : (s.setNext p q).prep = s.prep := by
  funext a
  by_cases h : a = p
  · subst h
    simp [prep, setNext]
  · simp [prep, setNext, h]

theorem distributeInfo_setNext (a : ℕ) :
    ((s.setNext p q).node a).distributeInfo = (s.node a).distributeInfo := by
  by_cases h : a = p
  · subst h
    simp [setNext]
  · simp [setNext, h]

theorem distributeInfo_setPrep (a : ℕ) :
    ((s.setPrep p q).node a).distributeInfo = (s.node a).distributeInfo := by
  by_cases h : a = p
  · subst h
    simp [setPrep]
  · simp [setPrep, h]

end Assign

/-! ## The pool -/

theorem Listed.newBlock (h : Listed s nodes free) :
    Listed s.newBlock nodes (s.made :: free) := by
  have hlt : ∀ p ∈ nodes ++ free, p ≠ s.made := fun p hp => Nat.ne_of_lt (h.made p hp)
  have hnext : ∀ p ∈ nodes ++ free, s.newBlock.next p = s.next p := fun p hp =>
    (congrFun (next_setNext s s.made s.pHeadOfFreeList) p).trans (update_of_ne (hlt p hp) ..)
  exact
    { head := h.head
      next := h.next.congr fun p hp => hnext p (List.mem_append_left _ hp)
      prep := h.prep.congr fun p _ => congrFun (prep_setNext s s.made s.pHeadOfFreeList) p
      freeHead := rfl
      freeNext := by
        refine ⟨?_, h.freeNext.congr fun p hp => hnext p (List.mem_append_right _ hp)⟩
        rw [Option.or_none, ← h.freeHead]
        exact (congrFun (next_setNext s s.made s.pHeadOfFreeList) s.made).trans (update_self ..)
      disjoint := List.disjoint_cons_right.2
        ⟨fun hp => hlt _ (List.mem_append_left _ hp) rfl, h.disjoint⟩
      made := by
        intro p hp
        rcases List.mem_append.1 hp with hp | hp
        · exact Nat.lt_succ_of_lt (h.made p (List.mem_append_left _ hp))
        · rcases List.mem_cons.1 hp with rfl | hp
          · exact Nat.lt_succ_self _
          · exact Nat.lt_succ_of_lt (h.made p (List.mem_append_right _ hp))
      pertain := fun p hp =>
        (congrArg _ (distributeInfo_setNext s s.made s.pHeadOfFreeList p)).trans
          (h.pertain p hp) }

/-- The pool has changed, and nothing that is told of the queue. -/
structure SameQueue (nodes : List ℕ) (s s' : DistributeManager) : Prop where
  head : s'.pHeadNode = s.pHeadNode
  wNodeCount : s'.wNodeCount = s.wNodeCount
  wRealCount : s'.wRealCount = s.wRealCount
  wAndroidCount : s'.wAndroidCount = s.wAndroidCount
  info : ∀ p ∈ nodes, s'.info p = s.info p

theorem sameQueue_newBlocks (nodes : List ℕ) (n : ℕ) :
    ∀ s : DistributeManager, SameQueue nodes s (newBlocks n s) := by
  induction n with
  | zero => exact fun s => ⟨rfl, rfl, rfl, rfl, fun _ _ => rfl⟩
  | succ n ih =>
    intro s
    have h := ih s.newBlock
    have hinfo : ∀ p, s.newBlock.info p = s.info p := fun p =>
      congrArg _ (distributeInfo_setNext s s.made s.pHeadOfFreeList p)
    exact ⟨h.head, h.wNodeCount, h.wRealCount, h.wAndroidCount,
      fun p hp => (h.info p hp).trans (hinfo p)⟩

theorem Listed.newBlocks (n : ℕ) : ∀ {s : DistributeManager} {free : List ℕ},
    Listed s nodes free → ∃ more, more.length = n ∧
      Listed (newBlocks n s) nodes (more ++ free) := by
  induction n with
  | zero => exact fun h => ⟨[], rfl, h⟩
  | succ n ih =>
    intro s free h
    obtain ⟨more, hlength, hlisted⟩ := ih h.newBlock
    refine ⟨more ++ [s.made], ?_, ?_⟩
    · rw [List.length_append, hlength]
      rfl
    · rwa [List.append_assoc]

/-- A pool has a node to give when it is asked for one. -/
theorem Listed.supplied (h : Listed s nodes free) :
    SameQueue nodes s s.supplied ∧ ∃ p rest, Listed s.supplied nodes (p :: rest) := by
  cases free with
  | cons p rest =>
    have heq : s.supplied = s := by
      rw [DistributeManager.supplied, show s.pHeadOfFreeList = some p from h.freeHead]
    rw [heq]
    exact ⟨⟨rfl, rfl, rfl, rfl, fun _ _ => rfl⟩, p, rest, h⟩
  | nil =>
    have heq : s.supplied = DistributeManager.newBlocks blockSize s := by
      rw [DistributeManager.supplied, show s.pHeadOfFreeList = none from h.freeHead]
    rw [heq]
    obtain ⟨more, hlength, hlisted⟩ := h.newBlocks blockSize
    refine ⟨sameQueue_newBlocks nodes blockSize s, ?_⟩
    cases more with
    | nil => cases hlength
    | cons p rest =>
      rw [List.append_nil] at hlisted
      exact ⟨p, rest, hlisted⟩

/-- **A node that is given** is in no list. -/
theorem Listed.alloc (h : Listed s nodes free) :
    ∃ p rest s', s.allocNode = (some p, s') ∧ SameQueue nodes s s' ∧ Listed s' nodes rest ∧
      p ∉ nodes ∧ p ∉ rest ∧ p < s'.made ∧ s'.next p = none ∧ s'.prep p = none := by
  obtain ⟨hsame, p, rest, hlisted⟩ := h.supplied
  have hnodes : p ∉ nodes := fun hp => hlisted.disjoint hp List.mem_cons_self
  have hrest : p ∉ rest := (List.nodup_cons.1 hlisted.freeNext.nodup).1
  have hnode : ∀ q, q ≠ p → update s.supplied.node p zeroNode q = s.supplied.node q :=
    fun q hq => update_of_ne hq ..
  have hmem : ∀ q ∈ nodes, q ≠ p := fun q hq => ne_of_mem_of_not_mem hq hnodes
  refine ⟨p, rest, { s.supplied with
      pHeadOfFreeList := (s.supplied.node p).pNextDistributeNode
      node := update s.supplied.node p zeroNode }, ?_, ?_, ?_, hnodes, hrest,
    hlisted.made p (List.mem_append_right _ List.mem_cons_self), ?_, ?_⟩
  · rw [allocNode, show s.supplied.pHeadOfFreeList = some p from hlisted.freeHead]
  · exact { hsame with
      info := fun q hq => (congrArg (·.distributeInfo.toDistributeInfo) (hnode q (hmem q hq))).trans
        (hsame.info q hq) }
  · exact
      { head := hlisted.head
        next := hlisted.next.congr fun q hq =>
          congrArg DistributeNode.pNextDistributeNode (hnode q (hmem q hq))
        prep := hlisted.prep.congr fun q hq =>
          congrArg DistributeNode.pPrepDistributeNode (hnode q (hmem q (List.mem_reverse.1 hq)))
        freeHead := by
          have := hlisted.freeNext.1
          rwa [Option.or_none] at this
        freeNext := hlisted.freeNext.2.congr fun q hq =>
          congrArg DistributeNode.pNextDistributeNode
            (hnode q (ne_of_mem_of_not_mem hq hrest))
        disjoint := (List.disjoint_cons_right.1 hlisted.disjoint).2
        made := fun q hq => hlisted.made q (by
          rcases List.mem_append.1 hq with hq | hq
          · exact List.mem_append_left _ hq
          · exact List.mem_append_right _ (List.mem_cons_of_mem _ hq))
        pertain := fun q hq =>
          (congrArg (·.distributeInfo.pPertainNode) (hnode q (hmem q hq))).trans
            (hlisted.pertain q hq) }
  · change (update s.supplied.node p zeroNode p).pNextDistributeNode = none
    rw [update_self]
    rfl
  · change (update s.supplied.node p zeroNode p).pPrepDistributeNode = none
    rw [update_self]
    rfl

/-! ## A node is put in -/

/-- Where `InsertDistributeNode` puts a node: behind the head. -/
def behindHead {α : Type*} (a : α) : List α → List α
  | [] => [a]
  | head :: l => head :: a :: l

theorem behindHead_perm {α : Type*} (a : α) : ∀ l : List α, (behindHead a l).Perm (a :: l)
  | [] => .refl _
  | head :: l => .swap a head l

theorem mem_behindHead {q : ℕ} : q ∈ behindHead p nodes ↔ q = p ∨ q ∈ nodes := by
  rw [(behindHead_perm p nodes).mem_iff, List.mem_cons]

theorem map_behindHead {α β : Type*} (f : α → β) (a : α) :
    ∀ l : List α, (behindHead a l).map f = behindHead (f a) (l.map f)
  | [] => rfl
  | _ :: _ => rfl

theorem next_fillNode (s : DistributeManager) (p : ℕ) (i : DistributeInfo) :
    (s.fillNode p i).next = s.next := by
  funext a
  by_cases h : a = p
  · subst h
    simp [next, fillNode]
  · simp [next, fillNode, h]

theorem prep_fillNode (s : DistributeManager) (p : ℕ) (i : DistributeInfo) :
    (s.fillNode p i).prep = s.prep := by
  funext a
  by_cases h : a = p
  · subst h
    simp [prep, fillNode]
  · simp [prep, fillNode, h]

theorem linkNode_of_head {head : ℕ} (hhead : s.pHeadNode = some head) (hp : s.next p = none)
    (hne : s.next head ≠ some p) :
    (s.linkNode p).next = redirect (update s.next p (s.next head)) (some head) (some p) ∧
      (s.linkNode p).prep = redirect (update s.prep p (some head)) (s.next head) (some p) ∧
      (s.linkNode p).pHeadNode = some head := by
  rw [linkNode, hhead]
  simp only
  rcases hnext : (s.node head).pNextDistributeNode with _ | n
  · have hupdate : update s.next p none = s.next := by rw [← hp, update_eq_self]
    rw [show s.next head = none from hnext, hupdate]
    refine ⟨?_, ?_, hhead⟩
    · simp [redirect]
    · simp [redirect]
  · rw [show s.next head = some n from hnext] at hne ⊢
    have hpn : p ≠ n := fun heq => hne (congrArg some heq.symm)
    refine ⟨?_, ?_, hhead⟩
    · simp [redirect]
    · simp only [redirect, prep_setNext, prep_setPrep]
      exact update_comm hpn.symm ..

/-- Only links have changed. -/
structure SameButLinks (s s' : DistributeManager) : Prop where
  freeHead : s'.pHeadOfFreeList = s.pHeadOfFreeList
  made : s'.made = s.made
  wNodeCount : s'.wNodeCount = s.wNodeCount
  wRealCount : s'.wRealCount = s.wRealCount
  wAndroidCount : s'.wAndroidCount = s.wAndroidCount
  distributeInfo : ∀ p, (s'.node p).distributeInfo = (s.node p).distributeInfo

theorem sameButLinks_linkNode (s : DistributeManager) (p : ℕ) :
    SameButLinks s (s.linkNode p) := by
  rw [linkNode]
  split
  · exact ⟨rfl, rfl, rfl, rfl, rfl, fun _ => rfl⟩
  · split
    · refine ⟨rfl, rfl, rfl, rfl, rfl, fun q => ?_⟩
      rw [distributeInfo_setNext, distributeInfo_setPrep]
    · refine ⟨rfl, rfl, rfl, rfl, rfl, fun q => ?_⟩
      rw [distributeInfo_setNext, distributeInfo_setPrep, distributeInfo_setNext,
        distributeInfo_setPrep]

/-- **A node is put in** behind the head. -/
theorem Listed.link (h : Listed s nodes free) (hp : p ∉ nodes) (hfree : p ∉ free)
    (hmade : p < s.made) (hnext : s.next p = none) (hprep : s.prep p = none)
    (hpertain : (s.node p).distributeInfo.pPertainNode = some p) :
    Listed (s.linkNode p) (behindHead p nodes) free := by
  have hmade' : ∀ q ∈ behindHead p nodes ++ free, q < s.made := by
    intro q hq
    rcases List.mem_append.1 hq with hq | hq
    · rcases mem_behindHead.1 hq with rfl | hq
      · exact hmade
      · exact h.made q (List.mem_append_left _ hq)
    · exact h.made q (List.mem_append_right _ hq)
  have hpertain' : ∀ q ∈ behindHead p nodes,
      ((s.linkNode p).node q).distributeInfo.pPertainNode = some q := by
    intro q hq
    rw [(sameButLinks_linkNode s p).distributeInfo]
    rcases mem_behindHead.1 hq with rfl | hq
    · exact hpertain
    · exact h.pertain q hq
  have hdisjoint : (behindHead p nodes).Disjoint free := by
    intro q hq hqf
    rcases mem_behindHead.1 hq with rfl | hq
    · exact hfree hqf
    · exact h.disjoint hq hqf
  cases nodes with
  | nil =>
    have heq : s.linkNode p = { s with pHeadNode := some p } := by
      rw [linkNode, show s.pHeadNode = none from h.head]
    rw [heq] at hpertain' ⊢
    exact
      { head := rfl, next := ⟨hnext, trivial⟩, prep := ⟨hprep, trivial⟩, freeHead := h.freeHead
        freeNext := h.freeNext, disjoint := hdisjoint, made := hmade', pertain := hpertain' }
  | cons head nodes =>
    have hlink : s.next head = nodes.head? := h.next.head_eq
    have hne : s.next head ≠ some p := by
      rw [hlink]
      intro heq
      exact hp (List.mem_cons_of_mem _ (List.mem_of_head? heq))
    obtain ⟨hnext', hprep', hhead'⟩ := linkNode_of_head h.head hnext hne
    have hsame := sameButLinks_linkNode s p
    have hheadFree : head ∉ free := h.disjoint List.mem_cons_self
    refine
      { head := hhead', next := ?_, prep := ?_, freeHead := hsame.freeHead.trans h.freeHead
        freeNext := ?_, disjoint := hdisjoint, made := by rwa [hsame.made], pertain := hpertain' }
    · rw [hnext', hlink]
      have hlead : Leads s.next ([head] ++ nodes) none := h.next
      have := hlead.insert (b := p) h.nodup hp
      rwa [Option.or_none] at this
    · -- read backwards, the node is put in before the head
      rw [hprep', hlink, behindHead]
      have hrev : (nodes.reverse ++ [head]).Nodup := by
        rw [← List.reverse_cons]
        exact List.nodup_reverse.2 h.nodup
      have hback : Leads s.prep (nodes.reverse ++ [head]) none := by
        rw [← List.reverse_cons]
        exact h.prep
      have := hback.insert (b := p) hrev (by
        rw [← List.reverse_cons]
        exact fun hmem => hp (List.mem_reverse.1 hmem))
      simpa using this
    · rw [hnext']
      refine h.freeNext.congr fun q hq => ?_
      have hqp : q ≠ p := ne_of_mem_of_not_mem hq hfree
      have hqh : q ≠ head := ne_of_mem_of_not_mem hq hheadFree
      rw [redirect, update_of_ne hqh, update_of_ne hqp]

/-! ## A node is taken out -/

theorem unlinkNode_links (hnext : ∀ q, s.prep p = some q → s.next q = some p) :
    (s.unlinkNode p).next = redirect s.next (s.prep p) (s.next p) ∧
      (s.unlinkNode p).prep = redirect s.prep (s.next p) (s.prep p) ∧
      (s.unlinkNode p).pHeadNode =
        if s.prep p = none then s.next p else s.pHeadNode := by
  rw [unlinkNode]
  rcases hp : (s.node p).pPrepDistributeNode with _ | q <;>
    rcases hn : (s.node p).pNextDistributeNode with _ | n
  · rw [show s.prep p = none from hp, show s.next p = none from hn]
    exact ⟨rfl, rfl, rfl⟩
  · rw [show s.prep p = none from hp, show s.next p = some n from hn]
    exact ⟨next_setPrep s n none, prep_setPrep s n none, rfl⟩
  · rw [show s.prep p = some q from hp, show s.next p = none from hn]
    have hq : (s.node q).pNextDistributeNode = some p := hnext q hp
    dsimp only
    rw [if_pos hq, if_neg (Option.some_ne_none q)]
    exact ⟨next_setNext s q none, prep_setNext s q none, rfl⟩
  · rw [show s.prep p = some q from hp, show s.next p = some n from hn,
      if_neg (Option.some_ne_none q)]
    refine ⟨?_, ?_, rfl⟩
    · simp [redirect]
    · simp [redirect]

theorem sameButLinks_unlinkNode (s : DistributeManager) (p : ℕ) :
    SameButLinks s (s.unlinkNode p) := by
  rw [unlinkNode]
  split
  · refine ⟨rfl, rfl, rfl, rfl, rfl, fun q => ?_⟩
    rw [distributeInfo_setPrep, distributeInfo_setNext]
  · split
    · exact ⟨rfl, rfl, rfl, rfl, rfl, fun _ => distributeInfo_setNext ..⟩
    · exact ⟨rfl, rfl, rfl, rfl, rfl, fun _ => rfl⟩
  · exact ⟨rfl, rfl, rfl, rfl, rfl, fun _ => distributeInfo_setPrep ..⟩
  · exact ⟨rfl, rfl, rfl, rfl, rfl, fun _ => rfl⟩

/-- **A node is taken out**, from wherever it is in the list. -/
theorem Listed.unlink (h : Listed s (xs ++ p :: ys) free) :
    Listed (s.unlinkNode p) (xs ++ ys) free := by
  have hrev : (xs ++ p :: ys).reverse = ys.reverse ++ p :: xs.reverse := by simp
  have hback : Leads s.prep (ys.reverse ++ p :: xs.reverse) none := by
    rw [← hrev]
    exact h.prep
  have hbackNodup : (ys.reverse ++ p :: xs.reverse).Nodup := by
    rw [← hrev]
    exact List.nodup_reverse.2 h.nodup
  have hnext : s.next p = ys.head? := h.next.link_eq
  have hprep : s.prep p = xs.getLast? := hback.link_eq.trans List.head?_reverse
  obtain ⟨hnext', hprep', hhead'⟩ := unlinkNode_links (s := s) (p := p) fun q hq => by
    rw [hprep] at hq
    obtain ⟨zs, rfl⟩ := List.getLast?_eq_some_iff.1 hq
    have hlead := h.next
    rw [List.append_assoc] at hlead
    exact hlead.link_eq_some
  have hsame := sameButLinks_unlinkNode s p
  have hsub : (xs ++ ys).Sublist (xs ++ p :: ys) := (List.sublist_cons_self p ys).append_left xs
  refine
    { head := ?_, next := ?_, prep := ?_, freeHead := hsame.freeHead.trans h.freeHead
      freeNext := ?_
      disjoint := fun q hq => h.disjoint (hsub.subset hq), made := ?_, pertain := ?_ }
  · rw [hhead', hprep, hnext, h.head]
    cases xs with
    | nil => rfl
    | cons x xs => rfl
  · rw [hnext', hprep]
    exact h.next.bypass h.nodup
  · rw [hprep', hnext, List.reverse_append]
    have := hback.bypass hbackNodup
    rwa [List.getLast?_reverse] at this
  · rw [hnext', hprep]
    refine h.freeNext.congr (redirect_of_notMem fun q hq hqf => ?_)
    exact h.disjoint (List.mem_append_left _ (List.mem_of_getLast? hq)) hqf
  · rw [hsame.made]
    intro q hq
    refine h.made q ?_
    rcases List.mem_append.1 hq with hq | hq
    · exact List.mem_append_left _ (hsub.subset hq)
    · exact List.mem_append_right _ hq
  · intro q hq
    rw [hsame.distributeInfo]
    exact h.pertain q (hsub.subset hq)

theorem Listed.freed (h : Listed s nodes free) (hp : p ∉ nodes) (hfree : p ∉ free)
    (hmade : p < s.made) : Listed (s.freeNode p) nodes (p :: free) := by
  have hnext : ∀ q, q ≠ p → (s.freeNode p).next q = s.next q := fun q hq =>
    (congrFun (next_setNext s p s.pHeadOfFreeList) q).trans (update_of_ne hq ..)
  exact
    { head := h.head
      next := h.next.congr fun q hq => hnext q (ne_of_mem_of_not_mem hq hp)
      prep := h.prep.congr fun q _ => congrFun (prep_setNext s p s.pHeadOfFreeList) q
      freeHead := rfl
      freeNext := by
        refine ⟨?_, h.freeNext.congr fun q hq => hnext q (ne_of_mem_of_not_mem hq hfree)⟩
        rw [Option.or_none, ← h.freeHead]
        exact (congrFun (next_setNext s p s.pHeadOfFreeList) p).trans (update_self ..)
      disjoint := List.disjoint_cons_right.2 ⟨hp, h.disjoint⟩
      made := by
        intro q hq
        rcases List.mem_append.1 hq with hq | hq
        · exact h.made q (List.mem_append_left _ hq)
        · rcases List.mem_cons.1 hq with rfl | hq
          · exact hmade
          · exact h.made q (List.mem_append_right _ hq)
      pertain := fun q hq =>
        (congrArg _ (distributeInfo_setNext s p s.pHeadOfFreeList q)).trans (h.pertain q hq) }

/-! ## What a manager keeps -/

def listNodes (s : DistributeManager) : List ℕ := follow s.next s.made s.pHeadNode

theorem Listed.length_le (h : Listed s nodes free) : nodes.length ≤ s.made :=
  length_le_of_lt h.nodup fun p hp => h.made p (List.mem_append_left _ hp)

theorem Listed.listNodes_eq (h : Listed s nodes free) : s.listNodes = nodes := by
  rw [listNodes, h.head]
  exact h.next.follow_eq h.length_le

def robots (userItem : ℕ → WaitingUser) (queue : List DistributeInfo) : ℕ :=
  queue.countP fun info => (userItem info.userID).androidUser

def reals (userItem : ℕ → WaitingUser) (queue : List DistributeInfo) : ℕ :=
  queue.countP fun info => !(userItem info.userID).androidUser

/-- **What a manager keeps**, when all this has happened: a list of nodes
with every user who has been inserted and not removed once, apart from the
pool, and its numbers. -/
structure Keeps (userItem : ℕ → WaitingUser) (s : DistributeManager) (history : List NodeEvent)
    (nodes free : List ℕ) : Prop extends Listed s nodes free where
  users : (users (s.queue nodes)).Nodup
  once : ∀ u, (AttemperEngine.users (s.queue nodes)).count u + history.count (.removed u) =
    history.count (.inserted u)
  wNodeCount : s.wNodeCount = nodes.length
  wRealCount : s.wRealCount = reals userItem (s.queue nodes)
  wAndroidCount : s.wAndroidCount = robots userItem (s.queue nodes)
  fits : nodes.length < 2 ^ 16

theorem searchFrom_eq (userID : ℕ) : ∀ (nodes : List ℕ) (fuel : ℕ), Leads s.next nodes none →
    nodes.length ≤ fuel →
    s.searchFrom userID fuel nodes.head? = some (nodes.find? fun p => (s.info p).userID = userID)
  | [], _, _, _ => by rw [List.head?_nil, searchFrom]; rfl
  | _ :: _, 0, _, hfuel => absurd hfuel (Nat.not_succ_le_zero _)
  | p :: nodes, fuel + 1, h, hfuel => by
    have hnext : (s.node p).pNextDistributeNode = nodes.head? := h.head_eq
    have ih := searchFrom_eq userID nodes fuel h.2 (Nat.le_of_succ_le_succ hfuel)
    rw [List.head?_cons, searchFrom, hnext, ih]
    by_cases hp : (s.node p).distributeInfo.userID = userID
    · simp [info, hp]
    · simp [info, hp]

theorem Listed.searchNode (h : Listed s nodes free) (userID : ℕ) :
    s.searchNode userID = some (nodes.find? fun p => (s.info p).userID = userID) := by
  rw [DistributeManager.searchNode, h.head]
  exact searchFrom_eq userID nodes s.made h.next h.length_le

theorem mem_users_queue {u : ℕ} :
    u ∈ users (s.queue nodes) ↔ ∃ p ∈ nodes, (s.info p).userID = u := by
  simp [users, queue]

theorem queue_congr (h : ∀ p ∈ nodes, s'.info p = s.info p) : s'.queue nodes = s.queue nodes :=
  List.map_congr_left h

theorem countUser_spec (s : DistributeManager) (i : DistributeInfo) {queue : List DistributeInfo}
    (hlength : queue.length + 1 < 2 ^ 16) (hnode : s.wNodeCount = queue.length)
    (hreal : s.wRealCount = reals userItem queue)
    (hrobot : s.wAndroidCount = robots userItem queue) :
    (s.countUser userItem i.userID).wNodeCount = queue.length + 1 ∧
      (s.countUser userItem i.userID).wRealCount = reals userItem (i :: queue) ∧
      (s.countUser userItem i.userID).wAndroidCount = robots userItem (i :: queue) := by
  have hle : reals userItem queue ≤ queue.length := List.countP_le_length
  have hle' : robots userItem queue ≤ queue.length := List.countP_le_length
  rw [countUser]
  by_cases h : (userItem i.userID).androidUser
  · rw [if_pos h, reals, robots, List.countP_cons_of_neg (by simpa using h),
      List.countP_cons_of_pos (by simpa using h)]
    refine ⟨?_, hreal, ?_⟩
    · rw [← hnode]; exact word_of_lt (by omega)
    · rw [← robots, ← hrobot]; exact word_of_lt (by omega)
  · rw [if_neg h, reals, robots, List.countP_cons_of_pos (by simpa using h),
      List.countP_cons_of_neg (by simpa using h)]
    refine ⟨?_, ?_, hrobot⟩
    · rw [← hnode]; exact word_of_lt (by omega)
    · rw [← reals, ← hreal]; exact word_of_lt (by omega)

/-- The counters of a queue with one user less. -/
theorem uncountUser_spec (userItem : ℕ → WaitingUser) (s : DistributeManager)
    (i : DistributeInfo) (queue : List DistributeInfo)
    (hlength : queue.length + 1 < 2 ^ 16) (hnode : s.wNodeCount = queue.length + 1)
    (hreal : s.wRealCount = reals userItem (i :: queue))
    (hrobot : s.wAndroidCount = robots userItem (i :: queue)) :
    (s.uncountUser userItem i.userID).wNodeCount = queue.length ∧
      (s.uncountUser userItem i.userID).wRealCount = reals userItem queue ∧
      (s.uncountUser userItem i.userID).wAndroidCount = robots userItem queue := by
  have hle : reals userItem queue ≤ queue.length := List.countP_le_length
  have hle' : robots userItem queue ≤ queue.length := List.countP_le_length
  rw [uncountUser]
  by_cases h : (userItem i.userID).androidUser
  · rw [reals, List.countP_cons_of_neg (by simpa using h)] at hreal
    rw [robots, List.countP_cons_of_pos (by simpa using h), ← robots] at hrobot
    rw [if_pos h, hnode, hrobot]
    simp only [word]
    exact ⟨by omega, hreal, by omega⟩
  · rw [reals, List.countP_cons_of_pos (by simpa using h), ← reals] at hreal
    rw [robots, List.countP_cons_of_neg (by simpa using h)] at hrobot
    rw [if_neg h, hnode, hreal]
    simp only [word]
    exact ⟨by omega, by omega, hrobot⟩

theorem keeps_start (userItem : ℕ → WaitingUser) (node : ℕ → DistributeNode) (rule : ℕ) :
    Keeps userItem (start node rule) [] [] [] :=
  { listed_start node rule with
    users := List.nodup_nil, once := fun _ => rfl, wNodeCount := rfl, wRealCount := rfl
    wAndroidCount := rfl, fits := by decide }

theorem node_countUser (s : DistributeManager) (u : ℕ) :
    (s.countUser userItem u).node = s.node := by
  rw [countUser]
  split
  · rfl
  · rfl

theorem node_uncountUser (s : DistributeManager) (u : ℕ) :
    (s.uncountUser userItem u).node = s.node := by
  rw [uncountUser]
  split
  · rfl
  · rfl

variable {history : List NodeEvent} {u : ℕ}

/-- A list is the one of any manager with the same nodes. -/
theorem Listed.of_eq (h : Listed s nodes free) (hnode : s'.node = s.node)
    (hhead : s'.pHeadNode = s.pHeadNode) (hfree : s'.pHeadOfFreeList = s.pHeadOfFreeList)
    (hmade : s'.made = s.made) : Listed s' nodes free := by
  have hnext : s'.next = s.next := by
    funext p
    rw [DistributeManager.next, hnode]
    rfl
  have hprep : s'.prep = s.prep := by
    funext p
    rw [DistributeManager.prep, hnode]
    rfl
  exact
    { head := hhead.trans h.head, next := hnext ▸ h.next, prep := hprep ▸ h.prep
      freeHead := hfree.trans h.freeHead, freeNext := hnext ▸ h.freeNext, disjoint := h.disjoint
      made := hmade ▸ h.made, pertain := hnode ▸ h.pertain }

theorem Listed.countUser (h : Listed s nodes free) (u : ℕ) :
    Listed (s.countUser userItem u) nodes free := by
  refine h.of_eq (node_countUser s u) ?_ ?_ ?_ <;>
  · rw [DistributeManager.countUser]
    split
    · rfl
    · rfl

theorem Listed.uncountUser (h : Listed s nodes free) (u : ℕ) :
    Listed (s.uncountUser userItem u) nodes free := by
  refine h.of_eq (node_uncountUser s u) ?_ ?_ ?_ <;>
  · rw [DistributeManager.uncountUser]
    split
    · rfl
    · rfl

theorem find_eq_none (h : u ∉ AttemperEngine.users (s.queue nodes)) :
    (nodes.find? fun p => (s.info p).userID = u) = none := by
  refine List.find?_eq_none.2 fun p hp heq => h (mem_users_queue.2 ⟨p, hp, ?_⟩)
  exact of_decide_eq_true heq

/-- **A user is inserted**, who is not in the queue. -/
theorem Keeps.insert (h : Keeps userItem s history nodes free) {i : DistributeInfo}
    (hnew : i.userID ∉ AttemperEngine.users (s.queue nodes)) (hfits : nodes.length + 1 < 2 ^ 16) :
    ∃ s' p rest, s.insertDistributeNode userItem i = some (true, s') ∧
      Keeps userItem s' (history ++ [.inserted i.userID]) (behindHead p nodes) rest ∧
      s'.queue (behindHead p nodes) = behindHead i (s.queue nodes) := by
  obtain ⟨p, rest, t, halloc, hsame, hlisted, hp, hrest, hmade, hnext, hprep⟩ := h.alloc
  have hinsert : s.insertDistributeNode userItem i =
      some (true, ((t.fillNode p i).linkNode p).countUser userItem i.userID) := by
    rw [insertDistributeNode, h.searchNode, find_eq_none hnew]
    simp only [halloc]
  have hfill : ∀ q, q ≠ p → (t.fillNode p i).node q = t.node q := fun q hq => update_of_ne hq ..
  have hself : ((t.fillNode p i).node p).distributeInfo = { i with pPertainNode := some p } := by
    simp [fillNode]
  have hfilled : Listed (t.fillNode p i) nodes rest :=
    { hlisted with
      next := (next_fillNode t p i).symm ▸ hlisted.next
      prep := (prep_fillNode t p i).symm ▸ hlisted.prep
      freeNext := (next_fillNode t p i).symm ▸ hlisted.freeNext
      pertain := fun q hq => by
        rw [hfill q (ne_of_mem_of_not_mem hq hp)]
        exact hlisted.pertain q hq }
  have hlinked := hfilled.link hp hrest hmade ((congrFun (next_fillNode t p i) p).trans hnext)
    ((congrFun (prep_fillNode t p i) p).trans hprep) (by rw [hself])
  have hlink := sameButLinks_linkNode (t.fillNode p i) p
  have hinfo : ∀ q, (((t.fillNode p i).linkNode p).countUser userItem i.userID).info q =
      (t.fillNode p i).info q := fun q => by
    rw [info, node_countUser, hlink.distributeInfo]
    rfl
  have hqueue : (((t.fillNode p i).linkNode p).countUser userItem i.userID).queue
      (behindHead p nodes) = behindHead i (s.queue nodes) := by
    rw [queue, map_behindHead, hinfo]
    have hi : (t.fillNode p i).info p = i := by rw [info, hself]
    have hmap : nodes.map (((t.fillNode p i).linkNode p).countUser userItem i.userID).info =
        s.queue nodes := by
      refine List.map_congr_left fun q hq => ?_
      rw [hinfo, info, hfill q (ne_of_mem_of_not_mem hq hp)]
      exact hsame.info q hq
    rw [hi, hmap]
  refine ⟨_, p, rest, hinsert, ?_, hqueue⟩
  have hperm := behindHead_perm i (s.queue nodes)
  have hlength : (s.queue nodes).length = nodes.length := List.length_map ..
  obtain ⟨hnodes, hreals, hrobots⟩ := countUser_spec ((t.fillNode p i).linkNode p) i
    (by rwa [hlength])
    ((hlink.wNodeCount.trans hsame.wNodeCount).trans (h.wNodeCount.trans hlength.symm))
    ((hlink.wRealCount.trans hsame.wRealCount).trans h.wRealCount)
    ((hlink.wAndroidCount.trans hsame.wAndroidCount).trans h.wAndroidCount)
  exact
    { hlinked.countUser i.userID with
      users := by
        rw [hqueue]
        exact (hperm.map DistributeInfo.userID).nodup_iff.2 (List.nodup_cons.2 ⟨hnew, h.users⟩)
      once := fun u => by
        have honce := h.once u
        rw [hqueue, AttemperEngine.users, (hperm.map DistributeInfo.userID).count_eq,
          List.map_cons, List.count_cons, List.count_append, List.count_append,
          List.count_singleton, List.count_singleton, ← AttemperEngine.users]
        by_cases hu : i.userID = u
        · simp only [hu, beq_self_eq_true, if_true, reduceCtorEq, beq_iff_eq, if_false]
          omega
        · simp only [hu, beq_iff_eq, reduceCtorEq, NodeEvent.inserted.injEq, if_false]
          omega
      wNodeCount := by
        rw [hnodes, hlength, (behindHead_perm p nodes).length_eq]
        rfl
      wRealCount := by
        rw [hreals, hqueue]
        exact (hperm.countP_eq _).symm
      wAndroidCount := by
        rw [hrobots, hqueue]
        exact (hperm.countP_eq _).symm
      fits := by rwa [(behindHead_perm p nodes).length_eq] }

/-- **A node is removed**, and its user with it. -/
theorem Keeps.remove (h : Keeps userItem s history (xs ++ p :: ys) free) :
    Keeps userItem (s.removeDistributeNode userItem p)
        (history ++ [.removed (s.info p).userID]) (xs ++ ys) (p :: free) ∧
      (s.removeDistributeNode userItem p).queue (xs ++ ys) = s.queue (xs ++ ys) := by
  have hsame := sameButLinks_unlinkNode s p
  have hperm : (xs ++ p :: ys).Perm (p :: (xs ++ ys)) := List.perm_middle
  have hp : p ∉ xs ++ ys := (List.nodup_cons.1 (hperm.nodup_iff.1 h.nodup)).1
  have hmem : p ∈ xs ++ p :: ys := List.mem_append_right _ List.mem_cons_self
  have hlisted : Listed (s.removeDistributeNode userItem p) (xs ++ ys) (p :: free) := by
    refine (h.unlink.uncountUser (s.info p).userID).freed hp (h.disjoint hmem) ?_
    rw [show ((s.unlinkNode p).uncountUser userItem (s.info p).userID).made = s.made by
      rw [uncountUser]; split <;> exact hsame.made]
    exact h.made p (List.mem_append_left _ hmem)
  have hinfo : ∀ q, (s.removeDistributeNode userItem p).info q = s.info q := fun q => by
    rw [info, removeDistributeNode, freeNode, distributeInfo_setNext, node_uncountUser,
      hsame.distributeInfo]
    rfl
  have hqueue : (s.removeDistributeNode userItem p).queue (xs ++ ys) = s.queue (xs ++ ys) :=
    queue_congr fun q _ => hinfo q
  refine ⟨?_, hqueue⟩
  have hqueuePerm : (s.queue (xs ++ p :: ys)).Perm (s.info p :: s.queue (xs ++ ys)) :=
    hperm.map s.info
  have hlength : (s.queue (xs ++ ys)).length = (xs ++ ys).length := List.length_map ..
  have hlengthAll : (xs ++ p :: ys).length = (xs ++ ys).length + 1 := hperm.length_eq
  have hfits := h.fits
  obtain ⟨hnodes, hreals, hrobots⟩ := uncountUser_spec userItem (s.unlinkNode p) (s.info p)
    (s.queue (xs ++ ys)) (by omega)
    (by rw [hsame.wNodeCount, h.wNodeCount, hlengthAll, hlength])
    (by rw [hsame.wRealCount, h.wRealCount]; exact hqueuePerm.countP_eq _)
    (by rw [hsame.wAndroidCount, h.wAndroidCount]; exact hqueuePerm.countP_eq _)
  have husers := hqueuePerm.map DistributeInfo.userID
  exact
    { hlisted with
      users := by
        rw [hqueue]
        exact (List.nodup_cons.1 (husers.nodup_iff.1 h.users)).2
      once := fun u => by
        have honce := h.once u
        rw [AttemperEngine.users, husers.count_eq, List.map_cons, List.count_cons,
          ← AttemperEngine.users] at honce
        rw [hqueue, List.count_append, List.count_append, List.count_singleton,
          List.count_singleton]
        by_cases hu : (s.info p).userID = u
        · simp only [hu, beq_self_eq_true, if_true, reduceCtorEq, beq_iff_eq, if_false] at honce ⊢
          omega
        · simp only [hu, beq_iff_eq, reduceCtorEq, NodeEvent.removed.injEq, if_false] at honce ⊢
          omega
      wNodeCount := hnodes.trans hlength
      wRealCount := by
        rw [hqueue]
        exact hreals
      wAndroidCount := by
        rw [hqueue]
        exact hrobots
      fits := by omega }

/-- `RemoveAll` takes the nodes out from the head on. -/
theorem Keeps.removeNodes : ∀ (nodes : List ℕ) (s : DistributeManager)
    (history : List NodeEvent) (free : List ℕ) (fuel : ℕ),
    Keeps userItem s history nodes free → nodes.length ≤ fuel →
    ∃ s' out rest, removeNodes userItem fuel s = some (s', out) ∧
      Keeps userItem s' (history ++ out) [] rest
  | [], s, history, free, fuel, h, _ => by
    refine ⟨s, [], free, ?_, by rwa [List.append_nil]⟩
    rw [DistributeManager.removeNodes, show s.pHeadNode = none from h.head]
  | p :: nodes, _, _, _, 0, _, hfuel => absurd hfuel (Nat.not_succ_le_zero _)
  | p :: nodes, s, history, free, fuel + 1, h, hfuel => by
    have hhead : Keeps userItem s history ([] ++ p :: nodes) free := h
    have hrest := hhead.remove.1
    obtain ⟨s', out, rest, hrun, hkeeps⟩ :=
      Keeps.removeNodes nodes _ _ _ fuel hrest (Nat.le_of_succ_le_succ hfuel)
    refine ⟨s', .removed (s.info p).userID :: out, rest, ?_, ?_⟩
    · rw [DistributeManager.removeNodes, show s.pHeadNode = some p from h.head]
      simp only [hrun, Option.map_some]
      rfl
    · rwa [List.append_assoc] at hkeeps

theorem Keeps.removeAll (h : Keeps userItem s history nodes free) :
    ∃ s' out rest, s.removeAll userItem = some (s', out) ∧
      Keeps userItem s' (history ++ out) [] rest := by
  obtain ⟨s', out, rest, hrun, hkeeps⟩ :=
    Keeps.removeNodes nodes s history free s.made h h.length_le
  refine ⟨_, out, rest, by rw [DistributeManager.removeAll, hrun]; rfl, ?_⟩
  exact
    { hkeeps.toListed with
      head := rfl, users := List.nodup_nil, once := hkeeps.once, wNodeCount := rfl
      wRealCount := rfl, wAndroidCount := rfl, fits := by decide }

/-- What the caller of a manager has to see to: a node it hands in is one
of the list, and a user comes on top of fewer than 65535. -/
def CallFits (s : DistributeManager) : NodeOperation → Prop
  | .insertDistributeNode i =>
      i.userID ∈ AttemperEngine.users (s.queue s.listNodes) ∨ s.listNodes.length + 1 < 2 ^ 16
  | .removeDistributeNode (some p) => p ∈ s.listNodes
  | _ => True

instance (s : DistributeManager) : ∀ op, Decidable (CallFits s op)
  | .insertDistributeNode i => inferInstanceAs (Decidable
      (i.userID ∈ AttemperEngine.users (s.queue s.listNodes) ∨
        s.listNodes.length + 1 < 2 ^ 16))
  | .removeDistributeNode (some p) => inferInstanceAs (Decidable (p ∈ s.listNodes))
  | .removeDistributeNode none => isTrue trivial
  | .removeDistributeUser _ => isTrue trivial
  | .removeAll => isTrue trivial

/-- **A call keeps the queue.** -/
theorem Keeps.step {op : NodeOperation} (h : Keeps userItem s history nodes free)
    (hfits : CallFits s op) :
    ∃ s' out, DistributeManager.step userItem s op = some (s', out) ∧
      ∃ nodes' free', Keeps userItem s' (history ++ out) nodes' free' := by
  have hremove : ∀ p ∈ nodes, ∃ nodes' free', Keeps userItem (s.removeDistributeNode userItem p)
      (history ++ [.removed (s.info p).userID]) nodes' free' := by
    intro p hp
    obtain ⟨xs, ys, rfl⟩ := List.append_of_mem hp
    exact ⟨_, _, h.remove.1⟩
  have hsame : Keeps userItem s (history ++ []) nodes free := by rwa [List.append_nil]
  cases op with
  | insertDistributeNode i =>
    by_cases hi : i.userID ∈ AttemperEngine.users (s.queue nodes)
    · obtain ⟨p, hp, hu⟩ := mem_users_queue.1 hi
      have hfound : (nodes.find? fun p => (s.info p).userID = i.userID).isSome :=
        List.find?_isSome.2 ⟨p, hp, decide_eq_true hu⟩
      obtain ⟨q, hq⟩ := Option.isSome_iff_exists.1 hfound
      refine ⟨s, [], ?_, nodes, free, hsame⟩
      rw [DistributeManager.step, insertDistributeNode, h.searchNode, hq]
      rfl
    · rw [CallFits, h.listNodes_eq] at hfits
      obtain ⟨s', p, rest, hinsert, hkeeps, -⟩ := h.insert hi (hfits.resolve_left hi)
      refine ⟨s', [.inserted i.userID], ?_, _, _, hkeeps⟩
      rw [DistributeManager.step, hinsert]
      rfl
  | removeDistributeNode p =>
    cases p with
    | none => exact ⟨s, [], rfl, nodes, free, hsame⟩
    | some p =>
      rw [CallFits, h.listNodes_eq] at hfits
      exact ⟨_, _, rfl, hremove p hfits⟩
  | removeDistributeUser u =>
    rw [DistributeManager.step, h.searchNode]
    cases hfind : nodes.find? fun p => (s.info p).userID = u with
    | none => exact ⟨s, [], rfl, nodes, free, hsame⟩
    | some p => exact ⟨_, _, rfl, hremove p (List.mem_of_find?_eq_some hfind)⟩
  | removeAll =>
    obtain ⟨s', out, rest, hrun, hkeeps⟩ := h.removeAll
    exact ⟨s', out, hrun, [], rest, hkeeps⟩

/-! ## Who is drawn -/

theorem drawNodes_eq (userItem : ℕ → WaitingUser) (need : ℕ) :
    ∀ (nodes : List ℕ) (fuel : ℕ) (drawn : List PertainInfo),
    Leads s.next nodes none → nodes.length ≤ fuel →
    ∃ more, s.drawNodes userItem need fuel drawn nodes.head? =
        some (drawn ++ more.map fun p => (s.node p).distributeInfo) ∧ more.Sublist nodes ∧
      drawFrom s.cbDistributeRule userItem need (drawn.map PertainInfo.toDistributeInfo)
        (s.queue nodes) = drawn.map PertainInfo.toDistributeInfo ++ s.queue more
  | [], fuel, drawn, _, _ => by
    refine ⟨[], ?_, .slnil, (List.append_nil _).symm⟩
    rw [List.head?_nil, drawNodes, List.map_nil, List.append_nil]
  | _ :: _, 0, _, _, hfuel => absurd hfuel (Nat.not_succ_le_zero _)
  | p :: nodes, fuel + 1, drawn, h, hfuel => by
    have hnext : (s.node p).pNextDistributeNode = nodes.head? := h.head_eq
    have hle := Nat.le_of_succ_le_succ hfuel
    have hqueue : s.queue (p :: nodes) =
        (s.node p).distributeInfo.toDistributeInfo :: s.queue nodes := rfl
    rw [List.head?_cons, drawNodes, hnext, hqueue, drawFrom]
    by_cases hfirst : firstSuccess s.cbDistributeRule userItem need
        (drawn.map PertainInfo.toDistributeInfo) (s.node p).distributeInfo.toDistributeInfo
    · have hmap : drawn.map PertainInfo.toDistributeInfo ++
          [(s.node p).distributeInfo.toDistributeInfo] =
          (drawn ++ [(s.node p).distributeInfo]).map PertainInfo.toDistributeInfo := by simp
      simp only [if_pos hfirst, hmap, List.length_map]
      by_cases hneed : (drawn ++ [(s.node p).distributeInfo]).length = need
      · rw [if_pos hneed, if_pos hneed]
        exact ⟨[p], rfl, List.singleton_sublist.2 List.mem_cons_self, hmap.symm⟩
      · rw [if_neg hneed, if_neg hneed]
        obtain ⟨more, hrun, hsub, hdrawn⟩ := drawNodes_eq userItem need nodes fuel
          (drawn ++ [(s.node p).distributeInfo]) h.2 hle
        refine ⟨p :: more, ?_, hsub.cons_cons p, ?_⟩
        · rw [hrun, List.append_assoc]
          rfl
        · rw [hdrawn, ← hmap, List.append_assoc]
          rfl
    · simp only [if_neg hfirst, List.length_map]
      by_cases hneed : drawn.length = need
      · rw [if_pos hneed, if_pos hneed]
        exact ⟨[], by simp, List.nil_sublist _, (List.append_nil _).symm⟩
      · rw [if_neg hneed, if_neg hneed]
        obtain ⟨more, hrun, hsub, hdrawn⟩ := drawNodes_eq userItem need nodes fuel drawn h.2 hle
        exact ⟨more, hrun, hsub.cons p, hdrawn⟩

/-- **The selection** is the one from the queue as a list of users, and
comes with their nodes. -/
theorem Keeps.performDistribute (h : Keeps userItem s history nodes free) (need : ℕ) :
    ∃ drawn : List ℕ, drawn.Sublist nodes ∧
      s.performDistribute userItem need =
        some (drawn.length, drawn.map fun p => (s.node p).distributeInfo) ∧
      s.queue drawn = drawUsers s.cbDistributeRule userItem need (s.queue nodes) := by
  rw [DistributeManager.performDistribute, h.head]
  have hmade := h.length_le
  have hfits := h.fits
  have hlead := h.next
  cases nodes with
  | nil => exact ⟨[], .slnil, rfl, rfl⟩
  | cons p nodes =>
    have hnext : (s.node p).pNextDistributeNode = nodes.head? := hlead.head_eq
    obtain ⟨more, hrun, hsub, hdrawn⟩ := drawNodes_eq userItem need nodes s.made
      [(s.node p).distributeInfo] hlead.2 (Nat.le_of_lt hmade)
    have hlength := (hsub.cons_cons p).length_le
    refine ⟨p :: more, hsub.cons_cons p, ?_, hdrawn.symm⟩
    simp only [List.head?_cons, hnext, hrun, Option.map_some, Option.some.injEq, Prod.mk.injEq]
    refine ⟨?_, rfl⟩
    rw [List.length_append, List.length_map]
    exact (word_of_lt (by simp only [List.length_cons, List.length_nil] at *; omega)).trans
      (Nat.add_comm ..)

end DistributeManager

end GameServer.AttemperEngine
