import GameServer.KernelEngine.SocketItem
import Mathlib.Data.List.Nodup
/-!
# KernelEngine — the life of an item

An item is spare while no connection can use it: it is free, not made
yet, or taken by the accept thread and not attached. `Inv` says that
spare items are idle, that free and active items are a partition of the
storage, and that each item stands in `ItemInv` to the operations
Winsock holds for it. `Life` is what the outputs show of one item: it is
attached, reports its end once and is freed, in that order and over
again. `step_moves` says once what a step can do, `Moves.keeps` what
that leaves, and `run_keeps_lifecycle` is the result over all orders of
steps.
-/

namespace GameServer.KernelEngine

open ServiceCore ServerSocketItem TCPNetworkEngine

variable {e e' : TCPNetworkEngine} {i j : ℕ} {r : ItemResult} {out : List EngineOutput}
variable {pr : ℕ} {ps : List OverLappedSend}

/-! ## The state of the engine -/

namespace TCPNetworkEngine

/-- The item at an index, or the one that would be made there. -/
def itemAt (e : TCPNetworkEngine) (i : ℕ) : ServerSocketItem :=
  e.storageSocketItem[i]?.getD { index := i }

def sendsOf (e : TCPNetworkEngine) (i : ℕ) : List OverLappedSend :=
  e.pendingSend.filterMap fun q => if q.1 = i then some q.2 else none

/-- No connection can use the item. -/
def Spare (e : TCPNetworkEngine) (i : ℕ) : Prop :=
  i ∉ e.activeSocketItem ∨ i ∈ e.accepting

/-- **What every step of the engine keeps.** -/
structure Inv (e : TCPNetworkEngine) : Prop where
  index_eq : ∀ i, (e.itemAt i).index = i
  perm : (e.freeSocketItem ++ e.activeSocketItem).Perm (List.range e.storageSocketItem.length)
  length_le : e.storageSocketItem.length ≤ e.maxSocketItem.toNat
  accepting_nodup : e.accepting.Nodup
  accepting_sub : ∀ i ∈ e.accepting, i ∈ e.activeSocketItem
  items : ∀ i, ItemInv (e.itemAt i) (e.pendingRecv.count i) (e.sendsOf i)
  spare : ∀ i, e.Spare i → Idle (e.itemAt i)

end TCPNetworkEngine

/-! ## What the outputs show -/

/-- Where an item stands: no connection, a connection, or a connection
that has ended. -/
inductive Life where
  | idle
  | live
  | shut
  deriving DecidableEq, Repr

/-- One output in the life of item `i`; `none` if it comes out of
order. -/
def lifeStep (i : ℕ) (s : Life) : EngineOutput → Option Life
  | .attached j _ => if j ≠ i then some s else if s = .idle then some .live else none
  | .shut j .. => if j ≠ i then some s else if s = .live then some .shut else none
  | .freed j => if j ≠ i then some s else if s = .shut then some .idle else none
  | .accept .. | .read .. | .reset .. => some s

/-- The life of item `i` over a history of outputs. -/
def life (i : ℕ) (history : List EngineOutput) : Option Life :=
  history.foldlM (lifeStep i) .idle

/-- How the life of an item shows in the state. -/
structure LifeRel (e : TCPNetworkEngine) (i : ℕ) (s : Life) : Prop where
  spare : e.Spare i → s = .idle
  connected : (e.itemAt i).notify = false → s = .live

/-- From `e` the outputs lead to `e'`, and the life of every item goes on
in order. -/
structure Keeps (e e' : TCPNetworkEngine) (out : List EngineOutput) : Prop where
  inv : e'.Inv
  life : ∀ j s, LifeRel e j s → ∃ s', out.foldlM (lifeStep j) s = some s' ∧ LifeRel e' j s'

theorem Keeps.trans {e₁ e₂ e₃ : TCPNetworkEngine} {out₁ out₂ : List EngineOutput}
    (h₁ : Keeps e₁ e₂ out₁) (h₂ : Keeps e₂ e₃ out₂) : Keeps e₁ e₃ (out₁ ++ out₂) := by
  refine ⟨h₂.inv, fun j s hs => ?_⟩
  obtain ⟨s₁, hfold₁, hs₁⟩ := h₁.life j s hs
  obtain ⟨s₂, hfold₂, hs₂⟩ := h₂.life j s₁ hs₁
  refine ⟨s₂, ?_, hs₂⟩
  rw [List.foldlM_append, hfold₁]
  exact hfold₂

/-- A step that no output shows, on items that stay as they are. -/
theorem Keeps.silent (hinv : e'.Inv) (hitems : ∀ j, e'.itemAt j = e.itemAt j)
    (hspare : ∀ j, e'.Spare j → e.Spare j) : Keeps e e' [] := by
  refine ⟨hinv, fun j s hs => ⟨s, rfl, fun h => hs.spare (hspare j h), fun h => ?_⟩⟩
  rw [hitems j] at h
  exact hs.connected h

/-! ## Items that run -/

theorem ItemInv.mono {item : ServerSocketItem} {pr' : ℕ} {ps' : List OverLappedSend}
    (h : ItemInv item pr ps) (hpr : pr' ≤ pr) (hps : ps'.Sublist ps) : ItemInv item pr' ps' := by
  refine ⟨h.closeIng, Nat.le_trans hpr h.recv_le, ?_, h.idle⟩
  rcases h.send_eq with rfl | rfl
  · exact Or.inl (List.sublist_nil.1 hps)
  · rcases hhead : item.overLappedSendActive.head? with - | p
    · rw [hhead] at hps
      exact Or.inl (List.sublist_nil.1 hps)
    · rw [hhead] at hps
      exact List.sublist_singleton.1 hps

theorem ItemInv.nothing_in_flight {item : ServerSocketItem}
    (h : ItemInv item pr ps) (hidle : Idle item) : pr = 0 ∧ ps = [] := by
  have hpr := h.recv_le
  rw [hidle.recvIng] at hpr
  have hps := h.send_eq
  rw [hidle.sends] at hps
  exact ⟨by simpa using hpr, by simpa using hps⟩

theorem TCPNetworkEngine.Inv.not_spare (he : e.Inv) (hnotify : (e.itemAt i).notify = false) :
    ¬ e.Spare i := by
  intro hs
  have := (he.spare i hs).notify
  rw [hnotify] at this
  cases this

theorem itemAt_set (e : TCPNetworkEngine) (hi : i < e.storageSocketItem.length)
    (item : ServerSocketItem) :
    (e.storageSocketItem.set i item)[j]?.getD { index := j } =
      if j = i then item else e.itemAt j := by
  rw [itemAt, List.getElem?_set]
  by_cases hj : j = i
  · subst hj
    simp [hi]
  · rw [if_neg (Ne.symm hj), if_neg hj]

/-- The engine with the item stored and its operations in flight. -/
def stored (e : TCPNetworkEngine) (i : ℕ) (r : ItemResult) : TCPNetworkEngine :=
  { e with
    storageSocketItem := e.storageSocketItem.set i r.item
    pendingRecv := e.pendingRecv ++ List.replicate (recvs r.calls) i
    pendingSend := e.pendingSend ++ (sends r.calls).map fun p => (i, p) }

/-- **What a step of the engine is made of.** Lists and flags change that
no item shows, an item runs, or the accept thread attaches to an item it
holds. -/
inductive Moves : TCPNetworkEngine → TCPNetworkEngine → List EngineOutput → Prop
  | silent {e e' : TCPNetworkEngine} : e'.Inv → (∀ j, e'.itemAt j = e.itemAt j) →
      (∀ j, e'.Spare j → e.Spare j) → Moves e e' []
  | absorb {e : TCPNetworkEngine} {i : ℕ} {r : ItemResult} : e.Inv →
      i < e.storageSocketItem.length →
      Effect (e.itemAt i) (e.pendingRecv.count i) (e.sendsOf i) r →
      Moves e (e.absorb i r).1 (e.absorb i r).2
  | attach {e : TCPNetworkEngine} {i : ℕ} (hSocket clientAddr tick now : ℕ) : e.Inv →
      i ∈ e.accepting →
      Moves e
        (stored { e with accepting := e.accepting.erase i } i
          ((e.itemAt i).attach hSocket clientAddr tick now))
        (({ e with accepting := e.accepting.erase i } : TCPNetworkEngine).output i
          (.acceptEvent (e.itemAt i).socketID clientAddr))
  | trans {e₁ e₂ e₃ : TCPNetworkEngine} {out₁ out₂ : List EngineOutput} :
      Moves e₁ e₂ out₁ → Moves e₂ e₃ out₂ → Moves e₁ e₃ (out₁ ++ out₂)

theorem Moves.after_silent {e₁ : TCPNetworkEngine} (hinv : e₁.Inv)
    (hitems : ∀ j, e₁.itemAt j = e.itemAt j) (hspare : ∀ j, e₁.Spare j → e.Spare j)
    (h : Moves e₁ e' out) : Moves e e' out :=
  (Moves.silent hinv hitems hspare).trans h

/-- An item is freed when it reports its end while the service runs. -/
def Frees (e : TCPNetworkEngine) (i : ℕ) (r : ItemResult) : Prop :=
  e.service = true ∧ closes r.calls = true ∧ i ∈ e.activeSocketItem

theorem absorb_of_not_frees (h : ¬ Frees e i r) : (e.absorb i r).1 = stored e i r := by
  unfold absorb
  simp only
  split_ifs with hclose
  · have hmem : i ∉ e.activeSocketItem := fun hmem => h ⟨hclose.1, hclose.2, hmem⟩
    rw [freeItem, if_neg hmem]
    rfl
  · rfl

theorem absorb_of_frees (h : Frees e i r) :
    (e.absorb i r).1 =
      { stored e i r with
        activeSocketItem := e.activeSocketItem.erase i
        freeSocketItem := e.freeSocketItem ++ [i] } := by
  unfold absorb
  simp only
  rw [if_pos ⟨h.1, h.2.1⟩, freeItem, if_pos h.2.2]
  rfl

theorem absorb_itemAt (hi : i < e.storageSocketItem.length) (j : ℕ) :
    (e.absorb i r).1.itemAt j = if j = i then r.item else e.itemAt j := by
  by_cases hfree : Frees e i r
  · rw [absorb_of_frees hfree]
    exact itemAt_set e hi r.item
  · rw [absorb_of_not_frees hfree]
    exact itemAt_set e hi r.item

/-- The operations in flight after an item has run. -/
theorem stored_in_flight (e : TCPNetworkEngine) (i j : ℕ) (r : ItemResult) :
    (stored e i r).pendingRecv.count j =
      e.pendingRecv.count j + (if j = i then recvs r.calls else 0) ∧
    (stored e i r).sendsOf j = e.sendsOf j ++ (if j = i then sends r.calls else []) := by
  constructor
  · rw [stored, List.count_append, List.count_replicate]
    by_cases hj : j = i
    · subst hj
      simp
    · rw [if_neg hj, if_neg (by simpa using Ne.symm hj)]
  · rw [stored, sendsOf, sendsOf, List.filterMap_append, List.filterMap_map]
    by_cases hj : j = i
    · subst hj
      simp
    · rw [if_neg hj]
      simp [Ne.symm hj]

/-- Storing an item keeps the invariant. -/
theorem stored_inv (he : e.Inv) (hi : i < e.storageSocketItem.length)
    (hitem : ItemInv r.item (e.pendingRecv.count i + recvs r.calls) (e.sendsOf i ++ sends r.calls))
    (hindex : r.item.index = i) (hspare : e.Spare i → Idle r.item) : (stored e i r).Inv := by
  have hat : ∀ j, (stored e i r).itemAt j = if j = i then r.item else e.itemAt j :=
    fun j => itemAt_set e hi r.item
  refine ⟨fun j => ?_, ?_, ?_, he.accepting_nodup, he.accepting_sub, fun j => ?_, fun j hs => ?_⟩
  · rw [hat]
    split_ifs with hj
    · rw [hj, hindex]
    · exact he.index_eq j
  · rw [show (stored e i r).storageSocketItem.length = e.storageSocketItem.length from
      List.length_set]
    exact he.perm
  · rw [show (stored e i r).storageSocketItem.length = e.storageSocketItem.length from
      List.length_set]
    exact he.length_le
  · obtain ⟨hrecv, hsend⟩ := stored_in_flight e i j r
    rw [hat, hrecv, hsend]
    split_ifs with hj
    · rw [hj]
      exact hitem
    · rw [Nat.add_zero, List.append_nil]
      exact he.items j
  · rw [hat]
    split_ifs with hj
    · exact hspare (hj ▸ hs)
    · exact he.spare j hs

/-! ## The life of an item that runs -/

theorem life_skip {s : Life} (h : ∀ o ∈ out, lifeStep j s o = some s) :
    out.foldlM (lifeStep j) s = some s := by
  induction out with
  | nil => rfl
  | cons o out ih =>
    rw [List.foldlM_cons, h o (List.mem_cons_self ..)]
    exact ih fun o' ho' => h o' (List.mem_cons_of_mem _ ho')

/-- The outputs of an item are no part of another item's life. -/
theorem lifeStep_of_ne (hj : j ≠ i) {c : ItemCall} {o : EngineOutput} (ho : o ∈ e.output i c)
    (s : Life) : lifeStep j s o = some s := by
  have hne : i ≠ j := Ne.symm hj
  cases c with
  | acceptEvent id addr =>
    rcases List.mem_cons.1 ho with rfl | ho
    · exact if_pos hne
    · split_ifs at ho
      · rw [List.mem_singleton.1 ho]
        rfl
      · cases ho
  | readEvent id command data =>
    simp only [output] at ho
    split_ifs at ho
    · rw [List.mem_singleton.1 ho]
      rfl
    · cases ho
  | closeEvent id addr time =>
    simp only [output] at ho
    split_ifs at ho
    · rcases List.mem_cons.1 ho with rfl | ho
      · exact if_pos hne
      · rw [List.mem_singleton.1 ho]
        exact if_pos hne
    · rw [List.mem_singleton.1 ho]
      exact if_pos hne
    · cases ho
  | wsaRecv => cases ho
  | wsaSend p => cases ho
  | reset round =>
    rw [List.mem_singleton.1 ho]
    rfl

/-- Nor are data and operations part of any item's life. -/
theorem lifeStep_of_not_lifeCall {c : ItemCall} (hc : ¬ isLifeCall c = true) {o : EngineOutput}
    (ho : o ∈ e.output i c) (s : Life) : lifeStep j s o = some s := by
  cases c with
  | acceptEvent id addr => exact absurd rfl hc
  | readEvent id command data =>
    simp only [output] at ho
    split_ifs at ho
    · rw [List.mem_singleton.1 ho]
      rfl
    · cases ho
  | closeEvent id addr time => exact absurd rfl hc
  | wsaRecv => cases ho
  | wsaSend p => cases ho
  | reset round => exact absurd rfl hc

theorem life_lifeCalls (e : TCPNetworkEngine) (i j : ℕ) : ∀ (calls : List ItemCall) (s : Life),
    (calls.flatMap (e.output i)).foldlM (lifeStep j) s =
      ((lifeCalls calls).flatMap (e.output i)).foldlM (lifeStep j) s := by
  intro calls
  induction calls with
  | nil => intro s; rfl
  | cons c calls ih =>
    intro s
    by_cases hc : isLifeCall c = true
    · rw [lifeCalls, List.filter_cons_of_pos hc, List.flatMap_cons, List.flatMap_cons,
        List.foldlM_append, List.foldlM_append]
      congr 1
      funext s'
      exact ih s'
    · rw [lifeCalls, List.filter_cons_of_neg hc, List.flatMap_cons, List.foldlM_append,
        life_skip fun o ho => lifeStep_of_not_lifeCall hc ho s]
      exact ih s

theorem closes_lifeCalls (calls : List ItemCall) : closes calls = closes (lifeCalls calls) := by
  rw [closes, closes, lifeCalls, List.any_filter]
  congr 1
  funext c
  cases c <;> rfl

/-- A step that does not free its item shows nothing of the item's
life. -/
theorem life_of_not_frees (he : e.Inv)
    (hr : Effect (e.itemAt i) pr ps r) (hfree : ¬ Frees e i r) (s : Life) :
    (r.calls.flatMap (e.output i)).foldlM (lifeStep i) s = some s := by
  rw [life_lifeCalls]
  rcases hr.outcome with ⟨hcalls, -, -⟩ | ⟨addr, time, hcalls, -, -⟩
  · rw [hcalls]
    rfl
  · rw [hcalls]
    by_cases hn : (e.itemAt i).notify = true
    · rw [if_pos hn]
      rfl
    · -- the end is reported, and as the item is active the service does not run
      rw [if_neg hn]
      have hact : i ∈ e.activeSocketItem := by
        by_contra hact
        exact hn (he.spare i (Or.inl hact)).notify
      have hclose : closes r.calls = true := by
        rw [closes_lifeCalls, hcalls, if_neg hn]
        rfl
      have hservice : ¬ e.service = true := fun hs => hfree ⟨hs, hclose, hact⟩
      simp [output, hservice, lifeStep]

/-- A step that frees its item ends a connection: the end is reported,
and then the item is freed. -/
theorem life_of_frees (hr : Effect (e.itemAt i) pr ps r) (hfree : Frees e i r) :
    (e.itemAt i).notify = false ∧ Idle r.item ∧
      (r.calls.flatMap (e.output i)).foldlM (lifeStep i) .live = some .idle := by
  obtain ⟨hservice, hclose, hact⟩ := hfree
  rw [closes_lifeCalls] at hclose
  rw [life_lifeCalls]
  rcases hr.outcome with ⟨hcalls, -, -⟩ | ⟨addr, time, hcalls, hidle, -⟩
  · rw [hcalls] at hclose
    cases hclose
  · by_cases hn : (e.itemAt i).notify = true
    · rw [hcalls, if_pos hn] at hclose
      cases hclose
    · refine ⟨by simpa using hn, hidle, ?_⟩
      rw [hcalls, if_neg hn]
      simp [output, hservice, hact, lifeStep]

/-! ## Freeing -/

section

variable (he : e.Inv)
include he

/-- Freeing an idle item that the accept thread does not hold. -/
theorem free_inv (hact : i ∈ e.activeSocketItem) (hacc : i ∉ e.accepting)
    (hidle : Idle (e.itemAt i)) :
    Inv { e with
      activeSocketItem := e.activeSocketItem.erase i
      freeSocketItem := e.freeSocketItem ++ [i] } := by
  refine ⟨he.index_eq, ?_, he.length_le, he.accepting_nodup, fun j hj => ?_, he.items,
    fun j hs => ?_⟩
  · refine List.Perm.trans ?_ he.perm
    rw [List.append_assoc]
    exact (List.perm_cons_erase hact).symm.append_left _
  · have hne : j ≠ i := fun heq => hacc (heq ▸ hj)
    exact (List.mem_erase_of_ne hne).2 (he.accepting_sub j hj)
  · by_cases hj : j = i
    · subst hj
      exact hidle
    · rcases hs with hs | hs
      · exact he.spare j (Or.inl fun hmem => hs ((List.mem_erase_of_ne hj).2 hmem))
      · exact he.spare j (Or.inr hs)

/-- **An item that runs goes on in its life.** -/
theorem absorb_keeps (hi : i < e.storageSocketItem.length)
    (hr : Effect (e.itemAt i) (e.pendingRecv.count i) (e.sendsOf i) r) :
    Keeps e (e.absorb i r).1 (e.absorb i r).2 := by
  have hstays : e.Spare i → Idle r.item := by
    -- a spare item was idle, and it stays so
    intro hs
    rcases hr.outcome with ⟨-, hn, -⟩ | ⟨-, -, -, hidle, -⟩
    · exact hr.inv.idle (hn.trans (he.spare i hs).notify)
    · exact hidle
  have hinv := stored_inv he hi hr.inv (hr.index_eq.trans (he.index_eq i)) hstays
  have hat : ∀ j, (stored e i r).itemAt j = if j = i then r.item else e.itemAt j :=
    fun j => itemAt_set e hi r.item
  -- nothing that comes out speaks of another item
  have hother : ∀ j, j ≠ i → ∀ s, (r.calls.flatMap (e.output i)).foldlM (lifeStep j) s = some s := by
    intro j hj s
    refine life_skip fun o ho => ?_
    obtain ⟨c, -, ho⟩ := List.mem_flatMap.1 ho
    exact lifeStep_of_ne hj ho s
  by_cases hfree : Frees e i r
  · rw [absorb_of_frees hfree]
    obtain ⟨hn, hidle, hlife⟩ := life_of_frees hr hfree
    have hacc : i ∉ e.accepting := fun hacc => he.not_spare hn (Or.inr hacc)
    refine ⟨free_inv hinv hfree.2.2 hacc (by rw [hat, if_pos rfl]; exact hidle), fun j s hs => ?_⟩
    by_cases hj : j = i
    · subst hj
      rw [hs.connected hn]
      refine ⟨.idle, hlife, fun _ => rfl, fun hn' => ?_⟩
      have hitem : (stored e j r).itemAt j = r.item := by rw [hat, if_pos rfl]
      have : ((stored e j r).itemAt j).notify = false := hn'
      rw [hitem, hidle.notify] at this
      cases this
    · refine ⟨s, hother j hj s, fun hspare => hs.spare ?_, fun hn' => hs.connected ?_⟩
      · rcases hspare with hspare | hspare
        · exact Or.inl fun hmem => hspare ((List.mem_erase_of_ne hj).2 hmem)
        · exact Or.inr hspare
      · have : ((stored e i r).itemAt j).notify = false := hn'
        rwa [hat, if_neg hj] at this
  · rw [absorb_of_not_frees hfree]
    refine ⟨hinv, fun j s hs => ?_⟩
    by_cases hj : j = i
    · subst hj
      refine ⟨s, life_of_not_frees he hr hfree s, hs.spare, fun hn => ?_⟩
      rw [hat, if_pos rfl] at hn
      rcases hr.outcome with ⟨-, hnotify, -⟩ | ⟨-, -, -, hidle, -⟩
      · exact hs.connected (hnotify.symm.trans hn)
      · rw [hidle.notify] at hn
        cases hn
    · refine ⟨s, hother j hj s, hs.spare, fun hn => ?_⟩
      rw [hat, if_neg hj] at hn
      exact hs.connected hn

theorem onItem_moves {f : ServerSocketItem → Option ItemResult} (hf : ∀ r, f (e.itemAt i) = some r →
      Effect (e.itemAt i) (e.pendingRecv.count i) (e.sendsOf i) r)
    (h : e.onItem i f = some (e', out)) : Moves e e' out := by
  obtain ⟨item, hitem, h⟩ := Option.bind_eq_some_iff.1 h
  obtain ⟨r, hr, heq⟩ := Option.map_eq_some_iff.1 h
  have hat : e.itemAt i = item := by
    rw [itemAt, hitem]
    rfl
  have hmoves := Moves.absorb he (List.getElem?_eq_some_iff.1 hitem).1 (hf r (hat ▸ hr))
  rwa [heq] at hmoves

/-! ## Operations that come back -/

theorem recvDone_inv (i : ℕ) : Inv { e with pendingRecv := e.pendingRecv.erase i } := by
  refine ⟨he.index_eq, he.perm, he.length_le, he.accepting_nodup, he.accepting_sub, fun j => ?_,
    he.spare⟩
  have hle : (e.pendingRecv.erase i).count j ≤ e.pendingRecv.count j :=
    List.Sublist.count_le j List.erase_sublist
  exact (he.items j).mono hle (List.Sublist.refl _)

theorem sendDone_inv (q : ℕ × OverLappedSend) :
    Inv { e with pendingSend := e.pendingSend.erase q } := by
  refine ⟨he.index_eq, he.perm, he.length_le, he.accepting_nodup, he.accepting_sub, fun j => ?_,
    he.spare⟩
  exact (he.items j).mono (Nat.le_refl _) (List.Sublist.filterMap _ List.erase_sublist)

theorem TCPNetworkEngine.Inv.recv_eq_one (hi : i ∈ e.pendingRecv) : e.pendingRecv.count i = 1 := by
  have hpos := List.count_pos_iff.2 hi
  have hle := (he.items i).recv_le
  split_ifs at hle <;> omega

/-- The only send in flight for an item is the first in line. -/
theorem TCPNetworkEngine.Inv.sendsOf_eq {p : OverLappedSend} (hp : (i, p) ∈ e.pendingSend) :
    e.sendsOf i = [p] ∧
      sendsOf { e with pendingSend := e.pendingSend.erase (i, p) } i = [] := by
  have hperm : (e.sendsOf i).Perm
      (p :: sendsOf { e with pendingSend := e.pendingSend.erase (i, p) } i) := by
    have := (List.perm_cons_erase hp).filterMap fun q => if q.1 = i then some q.2 else none
    rwa [List.filterMap_cons_some (b := p) (by simp)] at this
  have hlen := hperm.length_eq
  rw [List.length_cons] at hlen
  have hle : (e.sendsOf i).length ≤ 1 := by
    rcases (he.items i).send_eq with hps | hps
    · rw [hps]
      exact Nat.zero_le _
    · rw [hps]
      cases (e.itemAt i).overLappedSendActive.head? <;> simp
  have hnil := List.eq_nil_of_length_eq_zero
    (show (sendsOf { e with pendingSend := e.pendingSend.erase (i, p) } i).length = 0 by omega)
  rw [hnil] at hperm
  exact ⟨List.perm_singleton.1 hperm, hnil⟩

/-! ## Taking an item and attaching to it -/

theorem TCPNetworkEngine.Inv.nodup : (e.freeSocketItem ++ e.activeSocketItem).Nodup :=
  he.perm.nodup_iff.2 List.nodup_range

/-- Handing an item that is not active to the accept thread. -/
theorem take_moves (hi : i ∉ e.activeSocketItem) {free : List ℕ} {storage : List ServerSocketItem}
    (hstorage : ∀ j, storage[j]?.getD { index := j } = e.itemAt j)
    (hperm : (free ++ (e.activeSocketItem ++ [i])).Perm (List.range storage.length))
    (hle : storage.length ≤ e.maxSocketItem.toNat) :
    Moves e { e with
      storageSocketItem := storage
      freeSocketItem := free
      activeSocketItem := e.activeSocketItem ++ [i]
      accepting := e.accepting ++ [i] } [] := by
  have hspare : ∀ j, j ∉ e.activeSocketItem ++ [i] ∨ j ∈ e.accepting ++ [i] → e.Spare j := by
    rintro j (hj | hj)
    · exact Or.inl fun hmem => hj (List.mem_append_left _ hmem)
    · rcases List.mem_append.1 hj with hj | hj
      · exact Or.inr hj
      · rw [List.mem_singleton.1 hj]
        exact Or.inl hi
  have hacc : i ∉ e.accepting := fun hacc => hi (he.accepting_sub i hacc)
  refine .silent ⟨fun j => ?_, hperm, hle, ?_, fun j hj => ?_, fun j => ?_, fun j hs => ?_⟩ hstorage
    hspare
  · rw [itemAt, hstorage]
    exact he.index_eq j
  · exact List.nodup_append.2 ⟨he.accepting_nodup, by simp, by
      rintro j hj k hk rfl
      exact hacc (List.mem_singleton.1 hk ▸ hj)⟩
  · rcases List.mem_append.1 hj with hj | hj
    · exact List.mem_append_left _ (he.accepting_sub j hj)
    · exact List.mem_append_right _ hj
  · rw [itemAt, hstorage]
    exact he.items j
  · rw [itemAt, hstorage]
    exact he.spare j (hspare j hs)

/-- **`ActiveSocketItem`** takes a free item, or makes one. -/
theorem activeItem_moves (alloc : Bool) : Moves e (e.activeItem alloc) [] := by
  unfold activeItem
  rcases hlast : e.freeSocketItem.getLast? with - | i
  · have hfree : e.freeSocketItem = [] := List.getLast?_eq_none_iff.1 hlast
    have hword : word e.storageSocketItem.length = e.storageSocketItem.length := by
      have := he.length_le
      have := e.maxSocketItem.toNat_lt
      exact word_of_lt (by omega)
    simp only
    rw [hword]
    split_ifs with hroom
    · have hperm := he.perm
      rw [hfree, List.nil_append] at hperm
      refine take_moves he ?_ (fun j => ?_) ?_ ?_
      · intro hmem
        exact absurd (List.mem_range.1 (hperm.subset hmem)) (Nat.lt_irrefl _)
      · rw [itemAt, List.getElem?_append]
        split_ifs with hj
        · rfl
        · rw [List.getElem?_eq_none (Nat.le_of_not_lt hj)]
          by_cases heq : j = e.storageSocketItem.length
          · simp [heq]
          · rw [List.getElem?_eq_none]
            simp
            omega
      · rw [hfree, List.nil_append, List.length_append, List.length_singleton, List.range_succ]
        exact hperm.append_right _
      · rw [List.length_append, List.length_singleton]
        omega
    · exact .silent he (fun _ => rfl) fun _ => id
  · have hne : e.freeSocketItem ≠ [] := fun hnil => by rw [hnil] at hlast; cases hlast
    have hsplit : e.freeSocketItem = e.freeSocketItem.dropLast ++ [i] := by
      rw [List.getLast?_eq_some_getLast hne] at hlast
      cases hlast
      exact (List.dropLast_append_getLast hne).symm
    have hi : i ∉ e.activeSocketItem := by
      intro hmem
      have hin : i ∈ e.freeSocketItem := hsplit ▸ List.mem_append_right _ (List.mem_singleton_self i)
      exact (List.nodup_append.1 he.nodup).2.2 i hin i hmem rfl
    refine take_moves he hi (fun _ => rfl) ?_ he.length_le
    refine List.Perm.trans ?_ he.perm
    conv_rhs => rw [hsplit, List.append_assoc]
    exact List.Perm.append_left _ List.perm_append_comm

theorem TCPNetworkEngine.Inv.lt_of_accepting (hi : i ∈ e.accepting) :
    i < e.storageSocketItem.length :=
  List.mem_range.1 (he.perm.subset (List.mem_append_right _ (he.accepting_sub i hi)))

theorem accepted_inv (i : ℕ) : Inv { e with accepting := e.accepting.erase i } := by
  refine ⟨he.index_eq, he.perm, he.length_le, he.accepting_nodup.erase i,
    fun j hj => he.accepting_sub j (List.mem_of_mem_erase hj), he.items, fun j hs => he.spare j ?_⟩
  rcases hs with hs | hs
  · exact Or.inl hs
  · exact Or.inr (List.mem_of_mem_erase hs)

/-- **`Attach`** begins a life. -/
theorem attach_keeps (hi : i ∈ e.accepting) (hSocket clientAddr tick now : ℕ) :
    Keeps e
      (stored { e with accepting := e.accepting.erase i } i
        ((e.itemAt i).attach hSocket clientAddr tick now))
      (({ e with accepting := e.accepting.erase i } : TCPNetworkEngine).output i
        (.acceptEvent (e.itemAt i).socketID clientAddr)) := by
  have hlt := he.lt_of_accepting hi
  obtain ⟨hrecv, hsend⟩ := (he.items i).nothing_in_flight (he.spare i (Or.inr hi))
  have hnot : ¬ Spare { e with accepting := e.accepting.erase i } i := by
    rintro (hs | hs)
    · exact hs (he.accepting_sub i hi)
    · exact he.accepting_nodup.not_mem_erase hs
  have hat : ∀ j, (stored { e with accepting := e.accepting.erase i } i
      ((e.itemAt i).attach hSocket clientAddr tick now)).itemAt j =
        if j = i then ((e.itemAt i).attach hSocket clientAddr tick now).item else e.itemAt j :=
    fun j => itemAt_set e hlt _
  refine ⟨stored_inv (accepted_inv he i) hlt ?_ (he.index_eq i) fun hs => absurd hs hnot,
    fun j s hs => ?_⟩
  · show ItemInv _ (e.pendingRecv.count i + 0) (e.sendsOf i ++ [])
    rw [hrecv, hsend]
    exact (attach_connected (e.itemAt i) hSocket clientAddr tick now).inv
  · by_cases hj : j = i
    · subst hj
      rw [hs.spare (Or.inr hi)]
      refine ⟨.live, ?_, fun h => absurd h hnot, fun _ => rfl⟩
      simp only [output]
      split_ifs <;> simp [lifeStep]
    · refine ⟨s, life_skip fun o ho => lifeStep_of_ne hj ho s, fun h => hs.spare ?_, fun h => ?_⟩
      · rcases h with h | h
        · exact Or.inl h
        · exact Or.inr (List.mem_of_mem_erase h)
      · rw [hat, if_neg hj] at h
        exact hs.connected h

end

/-- **Every move keeps the invariant and the lives in order.** -/
theorem Moves.keeps (h : Moves e e' out) : Keeps e e' out := by
  induction h with
  | silent hinv hitems hspare => exact .silent hinv hitems hspare
  | absorb he hi hr => exact absorb_keeps he hi hr
  | attach hSocket clientAddr tick now he hi => exact attach_keeps he hi hSocket clientAddr tick now
  | trans _ _ ih₁ ih₂ => exact ih₁.trans ih₂

/-- The accept thread's step is `Attach` and then `RecvData`. -/
theorem absorb_attach (e : TCPNetworkEngine) (i : ℕ) (item : ServerSocketItem)
    (hSocket clientAddr tick now : ℕ) (r : ItemResult) :
    e.absorb i { r with calls := (item.attach hSocket clientAddr tick now).calls ++ r.calls } =
      (((stored e i (item.attach hSocket clientAddr tick now)).absorb i r).1,
        e.output i (.acceptEvent item.socketID clientAddr) ++
          ((stored e i (item.attach hSocket clientAddr tick now)).absorb i r).2) := by
  have hstored : stored (stored e i (item.attach hSocket clientAddr tick now)) i r =
      stored e i { r with
        calls := (item.attach hSocket clientAddr tick now).calls ++ r.calls } := by
    have hrecvs : recvs ((item.attach hSocket clientAddr tick now).calls ++ r.calls) =
        recvs r.calls := by
      rw [recvs, List.count_append]
      exact Nat.zero_add _
    have hnone : (e.pendingRecv ++ List.replicate
        (recvs (item.attach hSocket clientAddr tick now).calls) i) = e.pendingRecv :=
      List.append_nil _
    have hnil : (e.pendingSend ++ (sends (item.attach hSocket clientAddr tick now).calls).map
        fun p => (i, p)) = e.pendingSend := List.append_nil _
    simp only [stored, hrecvs, hnone, hnil, List.set_set]
    rfl
  by_cases hfree : Frees e i r
  · have hfree₁ : Frees (stored e i (item.attach hSocket clientAddr tick now)) i r := hfree
    have hfree₂ : Frees e i { r with
      calls := (item.attach hSocket clientAddr tick now).calls ++ r.calls } := hfree
    refine Prod.ext ?_ rfl
    rw [absorb_of_frees hfree₁, absorb_of_frees hfree₂, hstored]
    rfl
  · have hfree₁ : ¬ Frees (stored e i (item.attach hSocket clientAddr tick now)) i r := hfree
    have hfree₂ : ¬ Frees e i { r with
      calls := (item.attach hSocket clientAddr tick now).calls ++ r.calls } := hfree
    refine Prod.ext ?_ rfl
    rw [absorb_of_not_frees hfree₁, absorb_of_not_frees hfree₂, hstored]

/-- `Attach` and the first `RecvData`. -/
theorem accept_moves (he : e.Inv) (hi : i ∈ e.accepting) {hSocket clientAddr tick now : ℕ}
    {accepted : Bool}
    (h : onItem { e with accepting := e.accepting.erase i } i (fun item =>
      let r := item.attach hSocket clientAddr tick now
      let r' := r.item.recvData accepted
      some { r' with calls := r.calls ++ r'.calls }) = some (e', out)) : Moves e e' out := by
  obtain ⟨item, hitem, h⟩ := Option.bind_eq_some_iff.1 h
  obtain ⟨r, hr, heq⟩ := Option.map_eq_some_iff.1 h
  cases hr
  obtain rfl : e.itemAt i = item := by
    rw [itemAt, hitem]
    rfl
  rw [absorb_attach] at heq
  cases heq
  have hattach := Moves.attach hSocket clientAddr tick now he hi
  have hinv := (attach_keeps he hi hSocket clientAddr tick now).inv
  have hlt := he.lt_of_accepting hi
  have hbet := attach_connected (e.itemAt i) hSocket clientAddr tick now
  refine hattach.trans (.absorb hinv ?_ ?_)
  · rwa [stored, List.length_set]
  · obtain ⟨hrecv, hsend⟩ := (he.items i).nothing_in_flight (he.spare i (Or.inr hi))
    obtain ⟨hrecv', hsend'⟩ := stored_in_flight { e with accepting := e.accepting.erase i } i i
      ((e.itemAt i).attach hSocket clientAddr tick now)
    have hat : (stored { e with accepting := e.accepting.erase i } i
        ((e.itemAt i).attach hSocket clientAddr tick now)).itemAt i =
          ((e.itemAt i).attach hSocket clientAddr tick now).item :=
      (itemAt_set e hlt _).trans (if_pos rfl)
    rw [hat, hrecv', hsend', if_pos rfl, if_pos rfl]
    show Effect _ (e.pendingRecv.count i + 0) (e.sendsOf i ++ []) _
    rw [hrecv, hsend]
    exact recvData_effect hbet.inv hbet.notify accepted

/-! ## Runs -/

theorem sweep_moves (he : e.Inv) {rest : List ℕ} {f : ServerSocketItem → Option ItemResult}
    (hf : ∀ r, f (e.itemAt i) = some r →
      Effect (e.itemAt i) (e.pendingRecv.count i) (e.sendsOf i) r)
    (h : onItem { e with tempSocketItem := rest } i f = some (e', out)) : Moves e e' out := by
  have hinv : Inv { e with tempSocketItem := rest } :=
    ⟨he.index_eq, he.perm, he.length_le, he.accepting_nodup, he.accepting_sub, he.items, he.spare⟩
  exact .after_silent hinv (fun _ => rfl) (fun _ => id) (onItem_moves hinv hf h)

/-- **Every step is made of moves.** -/
theorem step_moves (he : e.Inv) {s : LockStep} (h : TCPNetworkEngine.step e s = some (e', out)) :
    Moves e e' out := by
  cases s with
  | startService =>
    cases h
    exact .silent ⟨he.index_eq, he.perm, he.length_le, he.accepting_nodup, he.accepting_sub,
      he.items, he.spare⟩ (fun _ => rfl) fun _ => id
  | activeSocketItem alloc =>
    cases h
    exact activeItem_moves he alloc
  | attach i hSocket clientAddr tick now accepted =>
    rw [TCPNetworkEngine.step] at h
    split_ifs at h with hi
    · exact accept_moves he hi h
    · cases h
      exact .silent he (fun _ => rfl) fun _ => id
  | sendData i data command rountID alloc accepted =>
    exact onItem_moves he (fun r hr => sendData_effect (he.items i) hr) h
  | closeSocket i rountID =>
    rw [TCPNetworkEngine.step] at h
    split_ifs at h with hi
    · refine onItem_moves he (fun r hr => ?_) h
      cases hr
      exact closeSocket_effect (he.items i) rountID
    · cases h
      exact .silent he (fun _ => rfl) fun _ => id
  | shutDownSocket i rountID =>
    refine onItem_moves he (fun r hr => ?_) h
    cases hr
    exact effect_self (he.items i) true
  | allowBatchSend i rountID allow =>
    refine onItem_moves he (fun r hr => ?_) h
    cases hr
    exact allowBatchSend_effect (he.items i) rountID allow
  | onSendCompleted i p transferred tick accepted =>
    rw [TCPNetworkEngine.step] at h
    split_ifs at h with hp
    · -- the send in flight is the first in line, so a connection uses the item
      obtain ⟨hone, hnone⟩ := he.sendsOf_eq hp
      have hitem := he.items i
      have hact : (e.itemAt i).overLappedSendActive ≠ [] := by
        intro hnil
        have := hitem.send_eq
        rw [hone, hnil] at this
        simp at this
      have hnotify := hitem.notify_eq_false (Or.inr (Or.inr hact))
      have hdone := sendDone_inv he (i, p)
      refine .after_silent hdone (fun _ => rfl) (fun _ => id)
        (onItem_moves hdone (fun r hr => ?_) h)
      cases hr
      rw [hnone]
      exact onSendCompleted_effect _ hnotify hitem.closeIng hitem.recv_le p transferred tick accepted
    · cases h
      exact .silent he (fun _ => rfl) fun _ => id
  | onRecvCompleted i chunk tick sent accepted =>
    rw [TCPNetworkEngine.step] at h
    split_ifs at h with hi
    · have hone := he.recv_eq_one hi
      have hnone : (e.pendingRecv.erase i).count i = 0 := by
        rw [List.count_erase_self, hone]
      have hdone := recvDone_inv he i
      refine .after_silent hdone (fun _ => rfl) (fun _ => id)
        (onItem_moves hdone (fun r hr => ?_) h)
      have hitem := he.items i
      rw [hone] at hitem
      rw [hnone]
      exact onRecvCompleted_effect hitem hr
    · cases h
      exact .silent he (fun _ => rfl) fun _ => id
  | loseSend i p =>
    cases h
    exact .silent (sendDone_inv he (i, p)) (fun _ => rfl) fun _ => id
  | loseRecv i =>
    cases h
    exact .silent (recvDone_inv he i) (fun _ => rfl) fun _ => id
  | copyActive =>
    cases h
    exact .silent ⟨he.index_eq, he.perm, he.length_le, he.accepting_nodup, he.accepting_sub,
      he.items, he.spare⟩ (fun _ => rfl) fun _ => id
  | batchNext data command alloc accepted =>
    rw [TCPNetworkEngine.step] at h
    split at h
    · cases h
      exact .silent he (fun _ => rfl) fun _ => id
    · exact sweep_moves he (fun r hr => batchItem_effect (he.items _) hr) h
  | detectNext recvTick now breakTick data alloc accepted =>
    rw [TCPNetworkEngine.step] at h
    split at h
    · cases h
      exact .silent he (fun _ => rfl) fun _ => id
    · exact sweep_moves he (fun r hr => detectItem_effect (he.items _) hr) h

theorem init_inv (maxSocketItem : UInt16) : Inv { maxSocketItem } := by
  have hidle : ∀ i, Idle ({ index := i } : ServerSocketItem) := fun i => ⟨rfl, rfl, rfl, rfl⟩
  exact ⟨fun _ => rfl, List.Perm.refl _, Nat.zero_le _, List.nodup_nil, by simp,
    fun i => (hidle i).itemInv rfl, fun i _ => hidle i⟩

theorem run_keeps {steps : List LockStep} {maxSocketItem : UInt16}
    {r : TCPNetworkEngine × List EngineOutput}
    (hrun : TCPNetworkEngine.step.run { maxSocketItem } steps = some r) :
    r.1.Inv ∧ ∀ i, ∃ s, life i r.2 = some s ∧ LifeRel r.1 i s := by
  have hstep : ∀ (e : TCPNetworkEngine) (history : List EngineOutput) (s : LockStep) e' out,
      (e.Inv ∧ ∀ i, ∃ s, life i history = some s ∧ LifeRel e i s) → True →
      TCPNetworkEngine.step e s = some (e', out) →
      e'.Inv ∧ ∀ i, ∃ s, life i (history ++ out) = some s ∧ LifeRel e' i s := by
    rintro e history s e' out ⟨he, hlife⟩ - h
    have hkeeps := (step_moves he h).keeps
    refine ⟨hkeeps.inv, fun i => ?_⟩
    obtain ⟨s, hs, hrel⟩ := hlife i
    obtain ⟨s', hs', hrel'⟩ := hkeeps.life i s hrel
    refine ⟨s', ?_, hrel'⟩
    rw [life, List.foldlM_append]
    exact Option.bind_eq_some_iff.2 ⟨s, hs, hs'⟩
  have hinit : Inv { maxSocketItem } ∧ ∀ i, ∃ s, life i [] = some s ∧ LifeRel { maxSocketItem } i s :=
    ⟨init_inv maxSocketItem, fun i => ⟨.idle, rfl, fun _ => rfl, fun hn => by cases hn⟩⟩
  exact Machine.inv_run_traced hstep steps _ [] r hinit
    (Machine.along_of_forall (fun _ _ => trivial) steps _) hrun

/-- **Every order of steps keeps the life of an item.** In every state the
engine reaches, each item has been attached, has reported its end and has
been freed in that order and over again; nothing is in flight for a free
item; and every item is once in the free list or once in the active one. -/
theorem run_keeps_lifecycle (maxSocketItem : UInt16) (steps : List LockStep)
    (r : TCPNetworkEngine × List EngineOutput)
    (hrun : TCPNetworkEngine.step.run { maxSocketItem } steps = some r) :
    (∀ i, life i r.2 ≠ none) ∧
    (∀ i ∈ r.1.freeSocketItem, i ∉ r.1.pendingRecv ∧ ∀ p, (i, p) ∉ r.1.pendingSend) ∧
    ∀ i < r.1.storageSocketItem.length,
      r.1.freeSocketItem.count i + r.1.activeSocketItem.count i = 1 := by
  obtain ⟨hinv, hlife⟩ := run_keeps hrun
  refine ⟨fun i => ?_, fun i hi => ?_, fun i hi => ?_⟩
  · obtain ⟨s, hs, -⟩ := hlife i
    rw [hs]
    exact Option.some_ne_none s
  · have hout : i ∉ r.1.activeSocketItem := fun hmem =>
      (List.nodup_append.1 hinv.nodup).2.2 i hi i hmem rfl
    obtain ⟨hrecv, hsend⟩ := (hinv.items i).nothing_in_flight (hinv.spare i (Or.inl hout))
    refine ⟨List.count_eq_zero.1 hrecv, fun p hp => ?_⟩
    have := List.filterMap_eq_nil_iff.1 hsend (i, p) hp
    simp at this
  · rw [← List.count_append, hinv.perm.count_eq]
    exact List.count_eq_one_of_mem List.nodup_range (List.mem_range.2 hi)

/-- A connection that is accepted, closed by its peer and freed. -/
theorem run_keeps_lifecycle_closed : ∃ r,
    TCPNetworkEngine.step.run { maxSocketItem := 4 }
      [.startService, .activeSocketItem true, .attach 0 7 1 1 1 true,
        .onRecvCompleted 0 [] 2 true true] = some r ∧
    r.1.freeSocketItem = [0] ∧ ∀ i, life i r.2 ≠ none := by
  have hfree : (TCPNetworkEngine.step.run { maxSocketItem := 4 }
      [.startService, .activeSocketItem true, .attach 0 7 1 1 1 true,
        .onRecvCompleted 0 [] 2 true true]).map (·.1.freeSocketItem) = some [0] := rfl
  obtain ⟨r, hrun, hfree⟩ := Option.map_eq_some_iff.1 hfree
  exact ⟨r, hrun, hfree, (run_keeps_lifecycle 4 _ r hrun).1⟩

end GameServer.KernelEngine
