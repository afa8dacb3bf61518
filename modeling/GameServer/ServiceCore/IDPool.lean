import GameServer.ServiceCore.Model.IDPool
import Mathlib.Data.List.Induction
/-!
# ServiceCore — who holds a number

The queue and the map agree after every call, and a number in use is not
handed out: unless the pool grows while numbers are out, since it forgets
then which these are.
-/

namespace GameServer.ServiceCore.IDPool

variable {s : IDPool} {log : List Record} {n : ℤ}
variable {m : ℤ}

def largest (log : List Record) : ℤ :=
  log.foldl (fun m r => match r with | .sized nMaxSize => max nMaxSize m | _ => m) 1

/-- The numbers that were returned and have not been pushed back since. -/
def outstanding (log : List Record) : List ℤ :=
  log.foldl (fun out r => match r with
    | .popped n => n :: out
    | .pushed n => out.filter (· ≠ n)
    | .sized _ => out) []

/-- Whoever gets a number gets one below the size. -/
def InRange (log : List Record) : Prop :=
  ∀ before n, before ++ [.popped n] <+: log → n ≠ 0 → 1 ≤ n ∧ n < largest before

/-- Nobody gets a number that somebody has. -/
def Unique (log : List Record) : Prop :=
  ∀ before n, before ++ [.popped n] <+: log → n ≠ 0 → n ∉ outstanding before

/-- The queue has the numbers that are marked free, each once. -/
structure Exact (s : IDPool) : Prop where
  nodup : s.allocationIDQueue.Nodup
  mem_iff : ∀ n, n ∈ s.allocationIDQueue ↔ s.allocationIDMap.lookup n = some true

structure Sized (s : IDPool) (nMaxSize : ℤ) : Prop extends Exact s where
  keys : s.allocationIDMap.keys.Perm (numbers nMaxSize)

/-- What every call may assume: the pool does not grow while a number is in
use. -/
def Settled (s : IDPool) : Call → Prop
  | .reAllocate nMaxSize _ =>
      nMaxSize ≤ s.size + 1 ∨ ∀ n, s.allocationIDMap.lookup n ≠ some false
  | _ => True

/-! ### The numbers -/

theorem mem_numbers : n ∈ numbers m ↔ 1 ≤ n ∧ n < m := by
  simp only [numbers, List.mem_map, List.mem_range'_1]
  constructor
  · rintro ⟨k, hk, rfl⟩
    omega
  · intro h
    exact ⟨n.toNat, by omega, by omega⟩

theorem nodup_numbers (m : ℤ) : (numbers m).Nodup :=
  List.Nodup.map (fun _ _ => Int.ofNat.inj) (List.nodup_range' ..)

theorem length_numbers (m : ℤ) : (numbers m).length = (m - 1).toNat := by
  rw [numbers, List.length_map, List.length_range']

theorem Sized.mem (h : Sized s m) {free : Bool}
    (hn : s.allocationIDMap.lookup n = some free) : 1 ≤ n ∧ n < m :=
  mem_numbers.1 (h.keys.mem_iff.1 (AList.mem_keys.1
    (AList.lookup_isSome.1 (Option.isSome_iff_exists.2 ⟨free, hn⟩))))

theorem Sized.size (hm : 1 ≤ m) (h : Sized s m) : s.size + 1 = m := by
  rw [IDPool.size, h.keys.length_eq, length_numbers]
  omega

/-! ### The calls -/

/-- A mark changes that one, and no other number comes or goes. -/
theorem Sized.mark (h : Sized s m) {old : Bool}
    (hn : s.allocationIDMap.lookup n = some old) (free : Bool) :
    (s.mark n free).keys.Perm (numbers m) ∧
      ∀ k, (s.mark n free).lookup k = if k = n then some free else s.allocationIDMap.lookup k := by
  rw [IDPool.mark, if_pos (by rw [hn]; rfl)]
  refine ⟨?_, fun k => ?_⟩
  · rw [AList.keys_insert]
    refine (List.perm_cons_erase ?_).symm.trans h.keys
    exact AList.mem_keys.1 (AList.lookup_isSome.1 (by rw [hn]; rfl))
  · split_ifs with hk
    · rw [hk, AList.lookup_insert]
    · exact AList.lookup_insert_ne hk

/-- A number comes from the front of the queue, or there is none. -/
theorem Sized.popValue (h : Sized s m) :
    Sized s.popValue.2 m ∧
      (s.popValue = (0, s) ∨ s.allocationIDMap.lookup s.popValue.1 = some true ∧
        ∀ k, s.popValue.2.allocationIDMap.lookup k =
          if k = s.popValue.1 then some false else s.allocationIDMap.lookup k) := by
  rw [IDPool.popValue]
  cases hq : s.allocationIDQueue with
  | nil => exact ⟨h, .inl rfl⟩
  | cons nRet rest =>
    have hnodup := h.nodup
    rw [hq, List.nodup_cons] at hnodup
    have hfree := (h.mem_iff nRet).1 (by rw [hq]; exact List.mem_cons_self)
    obtain ⟨hkeys, hlook⟩ := h.mark hfree false
    refine ⟨⟨⟨hnodup.2, fun k => ?_⟩, hkeys⟩, .inr ⟨hfree, hlook⟩⟩
    rw [hlook]
    split_ifs with hk
    · simpa [hk] using hnodup.1
    · rw [← h.mem_iff, hq, List.mem_cons]
      exact ⟨.inr, fun h => h.resolve_left hk⟩

theorem Sized.pushValue (h : Sized s m) (nID : ℤ) :
    Sized (s.pushValue nID) m ∧ ∀ k, k ≠ nID →
      (s.pushValue nID).allocationIDMap.lookup k = s.allocationIDMap.lookup k := by
  rw [IDPool.pushValue]
  split_ifs with hused
  · obtain ⟨hkeys, hlook⟩ := h.mark hused true
    have hnot : nID ∉ s.allocationIDQueue := by
      rw [h.mem_iff, hused]
      exact Bool.false_ne_true ∘ Option.some.inj
    refine ⟨⟨⟨by simpa using h.nodup.concat hnot, fun k => ?_⟩, hkeys⟩, fun k hk => ?_⟩
    · rw [hlook, List.mem_append, List.mem_singleton, h.mem_iff]
      split_ifs with hk
      · simp [hk]
      · exact or_iff_left hk
    · rw [hlook, if_neg hk]
  · exact ⟨h, fun _ _ => rfl⟩

/-- Every number is drawn, whatever `rand` gives, and marked free. -/
theorem drawIDs_sized {rand : ℕ → ℕ} : ∀ {rounds : ℕ} {vec : List ℤ} {s : IDPool},
    vec.length = rounds → (s.allocationIDQueue ++ vec).Perm (numbers m) →
      s.allocationIDMap.keys.Perm s.allocationIDQueue →
      (∀ n ∈ s.allocationIDQueue, s.allocationIDMap.lookup n = some true) →
      ∃ s', drawIDs rand rounds vec s = some s' ∧ Sized s' m := by
  intro rounds
  induction rounds with
  | zero =>
    intro vec s hlen hperm hkeys hfree
    rw [List.length_eq_zero_iff.1 hlen, List.append_nil] at hperm
    exact ⟨s, rfl, ⟨hperm.nodup_iff.2 (nodup_numbers m), fun n => ⟨hfree n, fun hn =>
      hkeys.mem_iff.1 (AList.mem_keys.1 (AList.lookup_isSome.1 (by rw [hn]; rfl)))⟩⟩,
      hkeys.trans hperm⟩
  | succ rounds ih =>
    intro vec s hlen hperm hkeys hfree
    have hlt : rand rounds % vec.length < vec.length := Nat.mod_lt _ (by omega)
    have hnew : vec[rand rounds % vec.length] ∉ s.allocationIDQueue := fun hmem =>
      (List.nodup_append.1 (hperm.nodup_iff.2 (nodup_numbers m))).2.2 _ hmem _
        (List.getElem_mem hlt) rfl
    rw [drawIDs, List.getElem?_eq_getElem hlt]
    refine ih (by rw [List.length_eraseIdx_of_lt hlt]; omega) ?_ ?_ fun n hn => ?_
    · rw [List.append_assoc, List.singleton_append]
      exact ((List.getElem_cons_eraseIdx_perm hlt).append_left _).trans hperm
    · rw [AList.keys_insert, List.erase_of_not_mem (fun hmem => hnew (hkeys.mem_iff.1 hmem))]
      exact (hkeys.cons _).trans (List.perm_append_singleton _ _).symm
    · rcases List.mem_append.1 hn with hn | hn
      · rw [AList.lookup_insert_ne (by rintro rfl; exact hnew hn)]
        exact hfree n hn
      · rw [List.mem_singleton.1 hn, AList.lookup_insert]

theorem Sized.reAllocate (hm : 1 ≤ m) (h : Sized s m) (nMaxSize : ℤ) (rand : ℕ → ℕ) :
    ∃ s', s.reAllocate nMaxSize rand = some s' ∧ Sized s' (max nMaxSize m) := by
  rw [IDPool.reAllocate, h.size hm]
  split_ifs with hle
  · exact ⟨s, rfl, by rwa [show max nMaxSize m = m by omega]⟩
  · obtain ⟨s', hs', hsized⟩ := @drawIDs_sized nMaxSize rand _ _ ⟨[], ∅⟩
      (length_numbers nMaxSize) (List.Perm.refl _) (List.Perm.refl _) (by simp)
    exact ⟨s', hs', by rwa [show max nMaxSize m = nMaxSize by omega]⟩

/-! ### The runs -/

theorem one_le_largest : 1 ≤ largest log := by
  induction log using List.reverseRecOn with
  | nil => exact Int.le_refl 1
  | append_singleton log r ih =>
    rw [largest] at ih ⊢
    rw [List.foldl_append]
    cases r with
    | sized m => exact Int.le_trans ih (Int.le_max_right _ _)
    | popped n => exact ih
    | pushed n => exact ih

/-- What is asked of each number that comes out is asked once more when the
next record is written. -/
theorem prefix_concat {P : List Record → ℤ → Prop} {r : Record}
    (h : ∀ before n, before ++ [.popped n] <+: log → n ≠ 0 → P before n)
    (hr : ∀ n, r = .popped n → n ≠ 0 → P log n) (before : List Record) (n : ℤ)
    (hbefore : before ++ [.popped n] <+: log ++ [r]) (hn : n ≠ 0) : P before n := by
  rcases List.prefix_concat_iff.1 hbefore with heq | hbefore
  · obtain ⟨hlog, hlast⟩ := List.append_inj' heq rfl
    exact hlog ▸ hr n (List.singleton_inj.1 hlast).symm hn
  · exact h before n hbefore hn

/-- The state after a log. -/
structure Booked (s : IDPool) (log : List Record) : Prop extends Sized s (largest log) where
  inRange : InRange log

structure Marked (s : IDPool) (log : List Record) : Prop extends Booked s log where
  unique : Unique log
  used : ∀ n ∈ outstanding log, n ≠ 0 → s.allocationIDMap.lookup n = some false

/-- **No call faults or loses a number**, and without growing over numbers
that are out the marks stay right. -/
theorem Booked.step (h : Booked s log) (call : Call) :
    ∃ s' r, step s call = some (s', [r]) ∧ Booked s' (log ++ [r]) ∧
      (Marked s log → Settled s call → Marked s' (log ++ [r])) := by
  cases call with
  | popValue =>
    obtain ⟨hsized, hcase⟩ := h.toSized.popValue
    have hbook : Booked s.popValue.2 (log ++ [.popped s.popValue.1]) := by
      refine ⟨by simpa [largest] using hsized, fun before n => prefix_concat h.inRange ?_ before n⟩
      rintro n heq hn
      cases heq
      obtain hnone | ⟨hfree, -⟩ := hcase
      · exact absurd (by rw [hnone]) hn
      · exact h.mem hfree
    refine ⟨_, _, rfl, hbook, fun hm _ => ⟨hbook, ?_, ?_⟩⟩
    · refine fun before n => prefix_concat hm.unique ?_ before n
      rintro n heq hn hout
      cases heq
      obtain hnone | ⟨hfree, -⟩ := hcase
      · exact hn (by rw [hnone])
      · rw [hm.used _ hout hn] at hfree
        cases hfree
    · intro n hout hn
      have hout : n = s.popValue.1 ∨ n ∈ outstanding log := by simpa [outstanding] using hout
      obtain hnone | ⟨-, hlook⟩ := hcase
      · rw [hnone] at hout ⊢
        exact hm.used n (hout.resolve_left hn) hn
      · rw [hlook]
        split_ifs with hk
        · rfl
        · exact hm.used n (hout.resolve_left hk) hn
  | pushValue nID =>
    obtain ⟨hsized, hlook⟩ := h.toSized.pushValue nID
    have hbook : Booked (s.pushValue nID) (log ++ [.pushed nID]) :=
      ⟨by simpa [largest] using hsized, fun before n =>
        prefix_concat h.inRange (fun n heq => by cases heq) before n⟩
    refine ⟨_, _, rfl, hbook, fun hm _ => ⟨hbook, fun before n =>
      prefix_concat hm.unique (fun n heq => by cases heq) before n, fun n hout hn => ?_⟩⟩
    have hout : n ∈ outstanding log ∧ n ≠ nID := by simpa [outstanding] using hout
    rw [hlook n hout.2]
    exact hm.used n hout.1 hn
  | reAllocate nMaxSize rand =>
    obtain ⟨s', hs', hsized⟩ := h.toSized.reAllocate one_le_largest nMaxSize rand
    have hbook : Booked s' (log ++ [.sized nMaxSize]) :=
      ⟨by simpa [largest] using hsized, fun before n =>
        prefix_concat h.inRange (fun n heq => by cases heq) before n⟩
    refine ⟨s', _, by rw [IDPool.step, hs']; rfl, hbook, fun hm hsettled => ⟨hbook, fun before n =>
      prefix_concat hm.unique (fun n heq => by cases heq) before n, fun n hout hn => ?_⟩⟩
    have hused := hm.used n (by simpa [outstanding] using hout) hn
    rcases hsettled with hle | hfree
    · rw [IDPool.reAllocate, if_pos hle] at hs'
      cases hs'
      exact hused
    · exact absurd hused (hfree n)

/-- **A number that is out is not handed out again**, in every run that does
not make the pool larger while a number is in use. The numbers are below
the size, and the queue has the free ones, in every run. -/
theorem popValue_unique (nMaxSize : ℤ) (rand : ℕ → ℕ) (calls : List Call) :
    ∃ s log, Machine.run step {} (.reAllocate nMaxSize rand :: calls) = some (s, log) ∧
      InRange log ∧ Exact s ∧
      (Machine.Along step Settled {} (.reAllocate nMaxSize rand :: calls) → Unique log) := by
  have hnil : Booked ⟨[], ∅⟩ [] :=
    ⟨⟨⟨List.nodup_nil, by simp⟩, List.Perm.refl _⟩, by simp [InRange]⟩
  have hstep : ∀ s log call, Booked s log → True →
      ∃ s' out, step s call = some (s', out) ∧ Booked s' (log ++ out) := fun s log call h _ => by
    obtain ⟨s', r, hstep, hbook, -⟩ := h.step call
    exact ⟨s', _, hstep, hbook⟩
  obtain ⟨⟨s, log⟩, hr, hbook⟩ := Machine.inv_run_total hstep
    (.reAllocate nMaxSize rand :: calls) _ [] hnil (Machine.along_of_forall (fun _ _ => trivial) ..)
  refine ⟨s, log, hr, hbook.inRange, hbook.toExact, fun hal => ?_⟩
  have hmarked : Marked ⟨[], ∅⟩ [] := ⟨hnil, by simp [Unique], by simp [outstanding]⟩
  refine (Machine.inv_run_traced (fun s log call s' out h hok hstep => ?_) _ _ [] (s, log) hmarked
    hal hr).unique
  obtain ⟨s'', r, hstep', -, hmarked⟩ := h.step call
  rw [hstep'] at hstep
  cases hstep
  exact hmarked h hok

/-- Growing gives out number 1 twice. -/
theorem popValue_returns_used : ¬ ∀ nMaxSize rand calls s log,
    Machine.run step {} (.reAllocate nMaxSize rand :: calls) = some (s, log) → Unique log := by
  intro h
  refine h 2 (fun _ => 0) [.popValue, .reAllocate 3 fun _ => 0, .popValue] _ _ rfl
    [.sized 2, .popped 1, .sized 3] 1 ?_ (by decide) (by decide)
  exact List.prefix_rfl

end GameServer.ServiceCore.IDPool
