import GameServer.KernelEngine.Lifecycle
/-!
# KernelEngine — socket IDs

A connection is known to the rest of the server by the index of its item
and the round the item is in. The round is a 16-bit counter that every
reset advances, and the ID 0 addresses all connections. As long as no
item is reset in its last round, the IDs of an item only grow: none is 0,
none is held twice and none handed out earlier is found again
(`run_keeps_socketIDs`). The reset in round 65535 leads to round 0, and
the item at index 0 then carries the ID of a broadcast.
-/

namespace GameServer.KernelEngine

open ServiceCore ServerSocketItem TCPNetworkEngine

variable {e e' : TCPNetworkEngine} {i j : ℕ} {r : ItemResult} {out history : List EngineOutput}

/-! ## What is handed out -/

/-- The item a request with a socket ID is done on: the one at its index,
if it is in the round of the ID. -/
def TCPNetworkEngine.resolve (e : TCPNetworkEngine) (socketID : ℕ) : Option ServerSocketItem :=
  e.storageSocketItem[loWord socketID]?.filter fun item => item.rountID = hiWord socketID

/-- The IDs an item has been attached with. -/
def handedOut (i : ℕ) (history : List EngineOutput) : List ℕ :=
  history.filterMap fun
    | .attached j socketID => if j = i then some socketID else none
    | _ => none

/-- No item is reset in its last round. -/
def NoWrap (e : TCPNetworkEngine) (s : LockStep) : Prop :=
  ∀ e' out, TCPNetworkEngine.step e s = some (e', out) → ∀ o ∈ out, ∀ i, o ≠ .reset i 65535

/-- **The rounds of an item only grow.** -/
structure RoundRel (e : TCPNetworkEngine) (i : ℕ) (history : List EngineOutput) : Prop where
  pos : 0 < (e.itemAt i).rountID
  lt : (e.itemAt i).rountID < 2 ^ 16
  index : ∀ socketID ∈ handedOut i history, loWord socketID = i
  increasing : (handedOut i history).Pairwise fun a b => hiWord a < hiWord b
  le : ∀ socketID ∈ handedOut i history, hiWord socketID ≤ (e.itemAt i).rountID
  ended : (e.itemAt i).notify = true →
    ∀ socketID ∈ handedOut i history, hiWord socketID < (e.itemAt i).rountID

theorem loWord_makeLong {lo : ℕ} (hlo : lo < 2 ^ 16) (hi : ℕ) : loWord (makeLong lo hi) = lo := by
  rw [loWord, makeLong, Nat.add_mul_mod_self_left, Nat.mod_eq_of_lt hlo]

theorem hiWord_makeLong {lo : ℕ} (hlo : lo < 2 ^ 16) (hi : ℕ) : hiWord (makeLong lo hi) = hi := by
  rw [hiWord, makeLong, Nat.add_mul_div_left _ _ (by omega), Nat.div_eq_of_lt hlo, Nat.zero_add]

theorem handedOut_append (i : ℕ) (history out : List EngineOutput) :
    handedOut i (history ++ out) = handedOut i history ++ handedOut i out :=
  List.filterMap_append

theorem mem_handedOut {socketID : ℕ} :
    socketID ∈ handedOut i history ↔ .attached i socketID ∈ history := by
  rw [handedOut, List.mem_filterMap]
  constructor
  · rintro ⟨o, ho, heq⟩
    split at heq
    · split_ifs at heq with hj
      · cases heq
        rwa [← hj]
    · cases heq
  · intro h
    exact ⟨_, h, if_pos rfl⟩

/-- A step that hands nothing out for the item and leaves its round. -/
theorem RoundRel.congr (h : RoundRel e i history) (hround : (e'.itemAt i).rountID = (e.itemAt i).rountID)
    (hnotify : (e'.itemAt i).notify = (e.itemAt i).notify) (hout : handedOut i out = []) :
    RoundRel e' i (history ++ out) := by
  have heq : handedOut i (history ++ out) = handedOut i history := by
    rw [handedOut_append, hout, List.append_nil]
  refine ⟨?_, ?_, ?_, ?_, ?_, ?_⟩ <;> simp only [heq, hround, hnotify]
  · exact h.pos
  · exact h.lt
  · exact h.index
  · exact h.increasing
  · exact h.le
  · exact h.ended

/-! ## Moves -/

theorem handedOut_eq_nil (h : ∀ socketID, .attached i socketID ∉ out) : handedOut i out = [] :=
  List.eq_nil_iff_forall_not_mem.2 fun socketID hmem => h socketID (mem_handedOut.1 hmem)

/-- Only a call of the sink's accept event hands an ID out. -/
theorem mem_output_attached {c : ItemCall} {socketID : ℕ}
    (h : .attached j socketID ∈ e.output i c) :
    i = j ∧ ∃ clientAddr, c = .acceptEvent socketID clientAddr := by
  cases c with
  | acceptEvent id addr =>
    rcases List.mem_cons.1 h with heq | h
    · cases heq
      exact ⟨rfl, addr, rfl⟩
    · split_ifs at h <;> simp at h
  | readEvent id command data =>
    simp only [output] at h
    split_ifs at h <;> simp at h
  | closeEvent id addr time =>
    simp only [output] at h
    split_ifs at h <;> simp at h
  | wsaRecv => cases h
  | wsaSend p => cases h
  | reset round => simp [output] at h

/-- An item with a connection, or whose connection ends, hands nothing
out. -/
theorem Effect.handedOut_eq {item : ServerSocketItem} {pr : ℕ} {ps : List OverLappedSend}
    (hr : Effect item pr ps r) (e : TCPNetworkEngine) (i j : ℕ) :
    handedOut j (r.calls.flatMap (e.output i)) = [] := by
  refine handedOut_eq_nil fun socketID hmem => ?_
  obtain ⟨c, hc, hmem⟩ := List.mem_flatMap.1 hmem
  obtain ⟨-, clientAddr, rfl⟩ := mem_output_attached hmem
  have hlife : .acceptEvent socketID clientAddr ∈ lifeCalls r.calls :=
    List.mem_filter.2 ⟨hc, rfl⟩
  rcases hr.outcome with ⟨hcalls, -, -⟩ | ⟨addr, time, hcalls, -, -⟩
  · rw [hcalls] at hlife
    cases hlife
  · rw [hcalls] at hlife
    split_ifs at hlife <;> simp at hlife

theorem mem_output_reset {round : ℕ} (h : .reset round ∈ lifeCalls r.calls) :
    .reset i round ∈ r.calls.flatMap (e.output i) :=
  List.mem_flatMap.2 ⟨_, (List.mem_filter.1 h).1, List.mem_singleton_self _⟩

/-- An item that runs keeps its round, or is reset to the next. -/
theorem absorb_rounds (hi : i < e.storageSocketItem.length)
    (hr : Effect (e.itemAt i) (e.pendingRecv.count i) (e.sendsOf i) r)
    (hwrap : ∀ j, .reset j 65535 ∉ (e.absorb i r).2) (h : RoundRel e j history) :
    RoundRel (e.absorb i r).1 j (history ++ (e.absorb i r).2) := by
  have hout : handedOut j (e.absorb i r).2 = [] := hr.handedOut_eq e i j
  have hat := absorb_itemAt (r := r) hi j
  by_cases hj : j = i
  · subst hj
    rw [if_pos rfl] at hat
    rcases hr.outcome with ⟨-, hnotify, hround⟩ | ⟨addr, time, hcalls, hidle, hround⟩
    · exact h.congr (by rw [hat, hround]) (by rw [hat, hnotify]) hout
    · have hne : (e.itemAt j).rountID ≠ 65535 := by
        intro heq
        refine hwrap j (mem_output_reset ?_)
        rw [hcalls, heq]
        exact List.mem_append_right _ (List.mem_singleton_self _)
      have hlt := h.lt
      have hnext : ((e.absorb j r).1.itemAt j).rountID = (e.itemAt j).rountID + 1 := by
        rw [hat, hround, word_of_lt (by omega)]
      have heq : handedOut j (history ++ (e.absorb j r).2) = handedOut j history := by
        rw [handedOut_append, hout, List.append_nil]
      refine ⟨by omega, by omega, ?_, ?_, fun id hid => ?_, fun _ id hid => ?_⟩
      · rw [heq]
        exact h.index
      · rw [heq]
        exact h.increasing
      · have := h.le id (heq ▸ hid)
        omega
      · have := h.le id (heq ▸ hid)
        omega
  · rw [if_neg hj] at hat
    exact h.congr (by rw [hat]) (by rw [hat]) hout

/-- An ID is handed out in a round of its own. -/
theorem attach_rounds (he : e.Inv) (hi : i ∈ e.accepting) (hSocket clientAddr tick now : ℕ)
    (h : RoundRel e j history) :
    RoundRel
      (stored { e with accepting := e.accepting.erase i } i
        ((e.itemAt i).attach hSocket clientAddr tick now)) j
      (history ++ ({ e with accepting := e.accepting.erase i } : TCPNetworkEngine).output i
        (.acceptEvent (e.itemAt i).socketID clientAddr)) := by
  have hlt := he.lt_of_accepting hi
  have hat : (stored { e with accepting := e.accepting.erase i } i
      ((e.itemAt i).attach hSocket clientAddr tick now)).itemAt j =
        if j = i then ((e.itemAt i).attach hSocket clientAddr tick now).item else e.itemAt j :=
    itemAt_set e hlt _
  by_cases hj : j = i
  · subst hj
    rw [if_pos rfl] at hat
    have hsmall : j < 2 ^ 16 := by
      have := he.length_le
      have := e.maxSocketItem.toNat_lt
      omega
    have hid : (e.itemAt j).socketID = makeLong j (e.itemAt j).rountID := by
      rw [socketID, he.index_eq]
    have hnew : handedOut j (({ e with accepting := e.accepting.erase j } : TCPNetworkEngine).output j
        (.acceptEvent (e.itemAt j).socketID clientAddr)) =
        [makeLong j (e.itemAt j).rountID] := by
      rw [hid, output]
      split_ifs <;> simp [handedOut]
    -- an item that waits for its connection has ended all earlier rounds
    have hended := h.ended (he.spare j (Or.inr hi)).notify
    refine ⟨?_, ?_, ?_, ?_, ?_, fun hn => ?_⟩
    · rw [hat]
      exact h.pos
    · rw [hat]
      exact h.lt
    · rw [handedOut_append, hnew]
      intro id hmem
      rcases List.mem_append.1 hmem with hmem | hmem
      · exact h.index id hmem
      · rw [List.mem_singleton.1 hmem, loWord_makeLong hsmall]
    · rw [handedOut_append, hnew]
      refine List.pairwise_append.2 ⟨h.increasing, List.pairwise_singleton _ _, fun a ha b hb => ?_⟩
      rw [List.mem_singleton.1 hb, hiWord_makeLong hsmall]
      exact hended a ha
    · rw [handedOut_append, hnew, hat]
      intro id hmem
      rcases List.mem_append.1 hmem with hmem | hmem
      · exact h.le id hmem
      · rw [List.mem_singleton.1 hmem, hiWord_makeLong hsmall]
        exact Nat.le_refl _
    · rw [hat] at hn
      cases hn
  · rw [if_neg hj] at hat
    refine h.congr (by rw [hat]) (by rw [hat]) (handedOut_eq_nil fun socketID hmem => ?_)
    exact hj (mem_output_attached hmem).1.symm

/-- **Every move without a reset in the last round makes rounds grow.** -/
theorem Moves.rounds (h : Moves e e' out) :
    (∀ j, .reset j 65535 ∉ out) → ∀ j history, RoundRel e j history →
      RoundRel e' j (history ++ out) := by
  induction h with
  | silent hinv hitems hspare =>
    intro _ j history hrel
    exact hrel.congr (by rw [hitems]) (by rw [hitems]) rfl
  | absorb he hi hr =>
    intro hwrap j history hrel
    exact absorb_rounds hi hr hwrap hrel
  | attach hSocket clientAddr tick now he hi =>
    intro _ j history hrel
    exact attach_rounds he hi hSocket clientAddr tick now hrel
  | trans _ _ ih₁ ih₂ =>
    intro hwrap j history hrel
    have h₁ := ih₁ (fun k hk => hwrap k (List.mem_append_left _ hk)) j history hrel
    have h₂ := ih₂ (fun k hk => hwrap k (List.mem_append_right _ hk)) j _ h₁
    rwa [List.append_assoc] at h₂

/-! ## Runs -/

theorem run_rounds {steps : List LockStep} {maxSocketItem : UInt16}
    {r : TCPNetworkEngine × List EngineOutput}
    (hok : TCPNetworkEngine.step.Along NoWrap { maxSocketItem } steps)
    (hrun : TCPNetworkEngine.step.run { maxSocketItem } steps = some r) :
    r.1.Inv ∧ ∀ i, RoundRel r.1 i r.2 := by
  have hstep : ∀ (e : TCPNetworkEngine) (history : List EngineOutput) (s : LockStep) e' out,
      (e.Inv ∧ ∀ i, RoundRel e i history) → NoWrap e s →
      TCPNetworkEngine.step e s = some (e', out) →
      e'.Inv ∧ ∀ i, RoundRel e' i (history ++ out) := by
    rintro e history s e' out ⟨he, hrel⟩ hwrap h
    have hmoves := step_moves he h
    exact ⟨hmoves.keeps.inv, fun i => hmoves.rounds (fun j hj => hwrap e' out h _ hj j rfl) i history (hrel i)⟩
  have hinit : Inv { maxSocketItem } ∧ ∀ i, RoundRel { maxSocketItem } i [] :=
    ⟨init_inv maxSocketItem, fun i => ⟨Nat.one_pos, show 1 < 2 ^ 16 by omega, by simp [handedOut],
      List.Pairwise.nil, by simp [handedOut], by simp [handedOut]⟩⟩
  exact Machine.inv_run_traced hstep steps _ [] r hinit hok hrun

/-- **Socket IDs address one connection.** In every state the engine
reaches without a reset in a last round, the ID of an active item is not
0 and no other active item has it, and an ID that was handed out before
the item was attached again is not found. -/
theorem run_keeps_socketIDs (maxSocketItem : UInt16) (steps : List LockStep)
    (r : TCPNetworkEngine × List EngineOutput)
    (hok : TCPNetworkEngine.step.Along NoWrap { maxSocketItem } steps)
    (hrun : TCPNetworkEngine.step.run { maxSocketItem } steps = some r) :
    (∀ i ∈ r.1.activeSocketItem, (r.1.itemAt i).socketID ≠ 0) ∧
    (∀ i ∈ r.1.activeSocketItem, ∀ j ∈ r.1.activeSocketItem,
      (r.1.itemAt i).socketID = (r.1.itemAt j).socketID → i = j) ∧
    ∀ i socketID socketID' before after, r.2 = before ++ .attached i socketID :: after →
      .attached i socketID' ∈ after → socketID ≠ socketID' ∧ r.1.resolve socketID = none := by
  obtain ⟨hinv, hrel⟩ := run_rounds hok hrun
  have hid : ∀ i, (r.1.itemAt i).socketID = makeLong i (r.1.itemAt i).rountID := by
    intro i
    rw [socketID, hinv.index_eq]
  have hsmall : ∀ i ∈ r.1.activeSocketItem, i < 2 ^ 16 := by
    intro i hi
    have hlt := List.mem_range.1 (hinv.perm.subset (List.mem_append_right _ hi))
    have := hinv.length_le
    have := r.1.maxSocketItem.toNat_lt
    omega
  refine ⟨fun i hi => ?_, fun i hi j hj heq => ?_, fun i id id' before after hsplit hlater => ?_⟩
  · have := (hrel i).pos
    rw [hid, makeLong]
    omega
  · rw [hid, hid] at heq
    rw [← loWord_makeLong (hsmall i hi), heq, loWord_makeLong (hsmall j hj)]
  · -- the later ID is of a later round, and the item's round is not before it
    have heq : handedOut i r.2 = handedOut i before ++ id :: handedOut i after := by
      rw [hsplit, handedOut_append]
      congr 1
      exact List.filterMap_cons_some (if_pos rfl)
    have hgrow := (hrel i).increasing
    rw [heq] at hgrow
    have hlt : hiWord id < hiWord id' :=
      List.rel_of_pairwise_cons (List.pairwise_append.1 hgrow).2.1 (mem_handedOut.2 hlater)
    have hle := (hrel i).le id' (mem_handedOut.2 (hsplit ▸ by simp [hlater]))
    refine ⟨fun h => Nat.lt_irrefl _ (h ▸ hlt), ?_⟩
    have hindex := (hrel i).index id (mem_handedOut.2 (hsplit ▸ by simp))
    rw [resolve, hindex]
    rcases hitem : r.1.storageSocketItem[i]? with - | item
    · rfl
    · have hat : r.1.itemAt i = item := by
        rw [itemAt, hitem]
        rfl
      rw [hat] at hle
      have hne : ¬ item.rountID = hiWord id := by omega
      simp [Option.filter, hne]

/-- Two connections, one after the other, on the same item. -/
theorem run_keeps_socketIDs_reattached : ∃ r,
    TCPNetworkEngine.step.run { maxSocketItem := 4 }
      [.startService, .activeSocketItem true, .attach 0 7 1 1 1 true,
        .onRecvCompleted 0 [] 2 true true, .activeSocketItem true, .attach 0 8 1 3 3 true] =
      some r ∧ r.1.activeSocketItem = [0] ∧ (r.1.itemAt 0).socketID ≠ 0 := by
  have hout : (TCPNetworkEngine.step.run { maxSocketItem := 4 }
      [.startService, .activeSocketItem true, .attach 0 7 1 1 1 true,
        .onRecvCompleted 0 [] 2 true true, .activeSocketItem true, .attach 0 8 1 3 3 true]).map
      (fun r => (r.1.activeSocketItem, r.2)) =
      some ([0], [.attached 0 65536, .accept 65536 1, .shut 0 65536 1 1, .freed 0, .reset 0 1,
        .attached 0 131072, .accept 131072 1]) := rfl
  obtain ⟨r, hrun, heq⟩ := Option.map_eq_some_iff.1 hout
  obtain ⟨hact, hout⟩ := Prod.mk.inj heq
  have hok := Machine.along_of_run (P := fun o => ∀ i, o ≠ .reset i 65535) hrun (by simp [hout])
  exact ⟨r, hrun, hact, (run_keeps_socketIDs 4 _ r hok hrun).1 0 (hact ▸ List.mem_singleton_self 0)⟩

/-! ## The last round -/

/-- The engine with one free item, in some round. -/
def oneFree (rountID : ℕ) : TCPNetworkEngine :=
  { maxSocketItem := 1, service := true, storageSocketItem := [{ index := 0, rountID }]
    freeSocketItem := [0] }

def connectOnce : List LockStep :=
  [.activeSocketItem true, .attach 0 7 1 1 1 true, .onRecvCompleted 0 [] 2 true true]

theorem run_connectOnce (rountID : ℕ) : ∃ out,
    TCPNetworkEngine.step.run (oneFree rountID) connectOnce =
      some (oneFree (word (rountID + 1)), out) := by
  refine ⟨[.attached 0 (makeLong 0 rountID), .accept (makeLong 0 rountID) 1,
    .shut 0 (makeLong 0 rountID) 1 1, .freed 0, .reset 0 rountID], ?_⟩
  simp only [Machine.run, connectOnce]
  simp [TCPNetworkEngine.step, oneFree, activeItem, onItem, absorb, ServerSocketItem.attach,
    recvData, onRecvCompleted, closeSocket, onCloseCompleted, resetSocketData, recvs, sends, closes,
    freeItem, output]
  exact ⟨rfl, rfl, rfl⟩

/-- Connections one after the other count the rounds up. -/
theorem run_connects : ∀ n, n + 2 < 2 ^ 16 → ∃ steps out,
    TCPNetworkEngine.step.run { maxSocketItem := 1 } steps = some (oneFree (n + 2), out) := by
  intro n
  induction n with
  | zero =>
    intro _
    exact ⟨.startService :: connectOnce, _, rfl⟩
  | succ n ih =>
    intro hn
    obtain ⟨steps, out, hout⟩ := ih (by omega)
    obtain ⟨out', hout'⟩ := run_connectOnce (n + 2)
    refine ⟨steps ++ connectOnce, out ++ out', ?_⟩
    rw [Machine.run_append, hout, Option.bind_some, hout', word_of_lt (by omega)]
    rfl

/-- **The item at index 0 gets the ID of a broadcast.** After 65535
connections on it, it is active in round 0. -/
theorem socketID_becomes_zero : ∃ steps r,
    TCPNetworkEngine.step.run { maxSocketItem := 1 } steps = some r ∧
    0 ∈ r.1.activeSocketItem ∧ (r.1.itemAt 0).socketID = 0 := by
  obtain ⟨steps, out₁, h₁⟩ := run_connects 65533 (by omega)
  obtain ⟨out₂, h₂⟩ := run_connectOnce 65535
  rw [show word (65535 + 1) = 0 from rfl] at h₂
  obtain ⟨e, out₃, h₃, hact, hid⟩ : ∃ e out, TCPNetworkEngine.step.run (oneFree 0)
      [.activeSocketItem true, .attach 0 7 1 1 1 true] = some (e, out) ∧
      0 ∈ e.activeSocketItem ∧ (e.itemAt 0).socketID = 0 :=
    ⟨_, _, rfl, List.mem_singleton_self 0, rfl⟩
  refine ⟨steps ++ (connectOnce ++ [.activeSocketItem true, .attach 0 7 1 1 1 true]),
    (e, out₁ ++ (out₂ ++ out₃)), ?_, hact, hid⟩
  rw [Machine.run_append, h₁, Option.bind_some, Machine.run_append, h₂, Option.bind_some, h₃]
  rfl

end GameServer.KernelEngine
