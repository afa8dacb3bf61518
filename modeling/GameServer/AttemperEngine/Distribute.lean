import GameServer.AttemperEngine.Selection
import Mathlib.Logic.Relation
/-!
# AttemperEngine — a whole call of `PerformDistribute`

`Selecting` holds behind every selection of a call, if it holds before:
nobody in the queue is at a table, nobody who has been removed is in it,
and who has a seat that a selection gave him has been removed. Every
selection shortens the queue, so the loop ends. Who is removed is
accounted for as long as the drawn users fit at the table, which is exact
(`distributes_iff`), and with two chairs they always do
(`fits_of_two_le`).

Where a user of the queue has sat down at a table on his own, the others
of that table may be sent to the queue while users of a selection are
still to stand up, and be seated together with one of these.
-/

namespace GameServer.AttemperEngine

open Function GameService Hall

variable {opt : RectifiedOption} {given : Given} {s s' : Hall} {t n fuel : ℕ}
variable {us gone refusals : List ℕ}

/-! ## What a call should leave -/

def DistributeEvent.round : DistributeEvent → ℕ
  | .seat round .. => round
  | .refuse round _ => round
  | .remove round _ => round

/-- The users who are removed, as often as they are. -/
def removals (events : List DistributeEvent) : List ℕ :=
  events.filterMap fun event =>
    match event with
    | .remove _ userID => some userID
    | _ => none

/-- Who has been removed in a selection has the seat it gave him, or has
been refused one. -/
def Accounted (s : Hall) : Prop :=
  ∀ k u, .remove k u ∈ s.events → .refuse k u ∈ s.events ∨
    ∃ t c, .seat k u t c ∈ s.events ∧ s.tableUserItem t c = some u

/-- A selection in the loop of `PerformDistribute`. -/
def Selects (opt : RectifiedOption) (given : Given) (s s' : Hall) : Prop :=
  opt.wMinPartakeGameUser ≤ s.queue.length ∧
    opt.wMinPartakeGameUser ≤ (s.drawn opt given).length ∧
    ∃ t fuel, s.currTable opt = some t ∧
      s.seatDrawn opt given (insertDistribute opt given (fuel + 1)) (s.drawn opt given) t = some s'

theorem Selected.mem_events (h : Selected opt given s s' t us refusals gone) {e : DistributeEvent} :
    e ∈ s'.events ↔ e ∈ s.events ∨ (∃ c u, us[c]? = some u ∧ e = .seat s.round u t c) ∨
      (∃ u ∈ refusals, e = .refuse s.round u) ∨ ∃ u ∈ gone, e = .remove s.round u := by
  rw [h.events, List.mem_append, List.mem_append, List.mem_append, mem_seatEvents, List.mem_map,
    List.mem_map, or_assoc]
  simp only [Nat.zero_add, eq_comm (a := e)]

theorem removals_append (l l' : List DistributeEvent) :
    removals (l ++ l') = removals l ++ removals l' := List.filterMap_append

theorem removals_seatEvents (k t : ℕ) : ∀ c, removals (seatEvents k t c us) = [] := by
  induction us with
  | nil => exact fun _ => rfl
  | cons u us ih => exact fun c => ih (c + 1)

theorem removals_refuse (k : ℕ) : removals (us.map (.refuse k)) = [] := by
  induction us with
  | nil => rfl
  | cons u us ih => exact ih

theorem removals_remove (k : ℕ) : removals (us.map (.remove k)) = us := by
  induction us with
  | nil => rfl
  | cons u us ih => exact congrArg (u :: ·) ih

theorem Selected.removals (h : Selected opt given s s' t us refusals gone) :
    removals s'.events = removals s.events ++ gone := by
  rw [h.events, removals_append, removals_append, removals_append, removals_seatEvents,
    removals_refuse, removals_remove]
  rfl

/-- Behind a selection nobody in the queue is at a table or has been
removed, the events are of the selections before, and who has a seat that
a selection gave him has been removed. -/
structure Selecting (s : Hall) : Prop where
  nodup : (removals s.events ++ users s.queue).Nodup
  waiting : ∀ u ∈ users s.queue, (s.userItem u).wTableID = invalidTable
  rounds : ∀ e ∈ s.events, e.round < s.round
  seats : ∀ k u t c, .seat k u t c ∈ s.events → s.tableUserItem t c = some u →
    u ∈ removals s.events
  chairs : ∀ k u v t c, .seat k u t c ∈ s.events → .seat k v t c ∈ s.events → u = v

theorem Selecting.step (h : Selecting s) (hsel : Selected opt given s s' t us refusals gone) :
    Selecting s' := by
  have hqueue : (users s.queue).Nodup := (List.nodup_append'.1 h.nodup).2.1
  have hremovals := hsel.removals
  refine ⟨?_, fun u hu => ?_, fun e he => ?_, fun k u t' c he hu => ?_, fun k u v t' c hu hv => ?_⟩
  · -- who is removed leaves the queue
    have hperm : (gone ++ (users s.queue).diff gone).Perm (users s.queue) :=
      List.subperm_append_diff_self_of_count_le fun u _ => hsel.gone_sublist.count_le u
    rw [hremovals, hsel.queue, List.append_assoc]
    exact (hperm.append_left _).nodup_iff.2 h.nodup
  · rw [hsel.queue, hqueue.mem_sdiff_iff] at hu
    exact hsel.waiting u hu.2 (h.waiting u hu.1)
  · rw [hsel.round]
    rcases hsel.mem_events.1 he with he | ⟨c, u, -, rfl⟩ | ⟨u, -, rfl⟩ | ⟨u, -, rfl⟩
    · exact Nat.lt_succ_of_lt (h.rounds e he)
    all_goals exact Nat.lt_succ_self _
  · -- at the chairs of this selection nobody has sat before
    rw [hremovals, List.mem_append]
    refine (hsel.sits t' c u hu).imp (fun hu => ?_) id
    rcases hsel.mem_events.1 he with he | ⟨i, v, hi, heq⟩ | ⟨v, -, heq⟩ | ⟨v, -, heq⟩
    · exact h.seats k u t' c he hu
    · cases heq
      rw [hsel.empty c (List.getElem?_eq_some_iff.1 hi).1] at hu
      cases hu
    · cases heq
    · cases heq
  · -- the number of the selection tells its events from those before
    rcases hsel.mem_events.1 hu with hu | ⟨i, x, hx, hux⟩ | ⟨x, -, hux⟩ | ⟨x, -, hux⟩
    · rcases hsel.mem_events.1 hv with hv | ⟨j, y, -, hvy⟩ | ⟨y, -, hvy⟩ | ⟨y, -, hvy⟩
      · exact h.chairs k u v t' c hu hv
      · cases hvy
        exact absurd (h.rounds _ hu) (Nat.lt_irrefl _)
      all_goals cases hvy
    · cases hux
      rcases hsel.mem_events.1 hv with hv | ⟨j, y, hy, hvy⟩ | ⟨y, -, hvy⟩ | ⟨y, -, hvy⟩
      · exact absurd (h.rounds _ hv) (Nat.lt_irrefl _)
      · cases hvy
        exact Option.some.inj (hx.symm.trans hy)
      all_goals cases hvy
    all_goals cases hux

/-- A selection whose users fit accounts for those it removes. -/
theorem Accounted.step (h : Accounted s) (hsel : Selected opt given s s' t us refusals gone)
    (hfits : DrawnFit opt given s) : Accounted s' := by
  intro k u hu
  rcases hsel.mem_events.1 hu with hu | ⟨c, v, -, heq⟩ | ⟨v, -, heq⟩ | ⟨v, hv, heq⟩
  · rcases h k u hu with hrefuse | ⟨t', c, hseat, hchair⟩
    · exact .inl (hsel.mem_events.2 (.inl hrefuse))
    · exact .inr ⟨t', c, hsel.mem_events.2 (.inl hseat), hsel.keeps t' c u hchair⟩
  · cases heq
  · cases heq
  · cases heq
    rcases hsel.accounts hfits u hv with hrefuse | ⟨c, hc, hchair⟩
    · exact .inl (hsel.mem_events.2 (.inr (.inr (.inl ⟨u, hrefuse, rfl⟩))))
    · exact .inr ⟨t, c, hsel.mem_events.2 (.inr (.inl ⟨c, u, hc, rfl⟩)), hchair⟩

/-- What the loop does where it stands: it ends, with nothing changed that
has been said of it, or it goes on behind a selection. -/
inductive LoopStep (opt : RectifiedOption) (given : Given) (s : Hall) : Prop
  | ends (r : Hall) (heq : ∀ insert n, distributeLoop opt given insert (n + 1) s = some r)
      (hevents : r.events = s.events) (hchairs : r.tableUserItem = s.tableUserItem)
      (hfits : DrawnFit opt given s) (hnot : ∀ s', ¬ Selects opt given s s')
  | goes (s' : Hall) (t : ℕ) (us refusals gone : List ℕ)
      (hsel : Selected opt given s s' t us refusals gone) (hselects : Selects opt given s s')
      (honly : ∀ x, Selects opt given s x → x = s')
      (heq : ∀ fuel n, distributeLoop opt given (insertDistribute opt given (fuel + 1)) (n + 1) s =
        distributeLoop opt given (insertDistribute opt given (fuel + 1)) n s')

theorem Selecting.loopStep (h : Selecting s) (opt : RectifiedOption) (given : Given) :
    LoopStep opt given s := by
  have hqueue : (users s.queue).Nodup := (List.nodup_append'.1 h.nodup).2.1
  have hlength : (s.drawn opt given).length ≤ s.queue.length := (drawUsers_sublist ..).length_le
  have hle := opt.min_le_maxPartake
  have hchairs := opt.maxPartake_le
  by_cases hfew : s.queue.length < opt.wMinPartakeGameUser
  · refine .ends s (fun insert n => ?_) rfl rfl (fun _ _ _ => by omega) fun s' h => ?_
    · rw [distributeLoop, if_pos hfew]
    · exact absurd h.1 (Nat.not_le.2 hfew)
  by_cases hdrawn : (s.drawn opt given).length < opt.wMinPartakeGameUser
  · refine .ends { s with round := s.round + 1 } (fun insert n => ?_) rfl rfl
      (fun _ _ _ => by omega) fun s' h => ?_
    · rw [distributeLoop, if_neg hfew, if_pos hdrawn]
    · exact absurd h.2.1 (Nat.not_le.2 hdrawn)
  cases ht : s.currTable opt with
  | none =>
    refine .ends { s with round := s.round + 1 } (fun insert n => ?_) rfl rfl
      (fun t ht' => ?_) fun s' h => ?_
    · rw [distributeLoop, if_neg hfew, if_neg hdrawn, ht]
    · rw [ht] at ht'
      cases ht'
    · obtain ⟨-, -, t, -, ht', -⟩ := h
      rw [ht] at ht'
      cases ht'
  | some t =>
    obtain ⟨s', us, refusals, gone, heq, hsel⟩ :=
      exists_selected given hqueue h.waiting ht (Nat.not_lt.1 hdrawn)
    have hseat : ∀ fuel, s.seatDrawn opt given (insertDistribute opt given (fuel + 1))
        (s.drawn opt given) t = some s' := fun fuel =>
      heq _ fun s u hu => insertDistribute_of_mem fuel hu
    refine .goes s' t us refusals gone hsel
      ⟨Nat.not_lt.1 hfew, Nat.not_lt.1 hdrawn, t, 0, ht, hseat 0⟩ (fun x hx => ?_) fun fuel n => ?_
    · obtain ⟨-, -, t', fuel, ht', hx⟩ := hx
      rw [ht] at ht'
      cases ht'
      rw [hseat fuel] at hx
      exact (Option.some.inj hx).symm
    · rw [distributeLoop, if_neg hfew, if_neg hdrawn, ht]
      dsimp only
      rw [hseat fuel]

theorem Selecting.selected (h : Selecting s) (hselects : Selects opt given s s') :
    ∃ t us refusals gone, Selected opt given s s' t us refusals gone ∧
      ∀ fuel n, distributeLoop opt given (insertDistribute opt given (fuel + 1)) (n + 1) s =
        distributeLoop opt given (insertDistribute opt given (fuel + 1)) n s' := by
  cases h.loopStep opt given with
  | ends _ _ _ _ _ hnot => exact absurd hselects (hnot s')
  | goes x t us refusals gone hsel _ honly heq =>
    rw [honly s' hselects]
    exact ⟨t, us, refusals, gone, hsel, heq⟩

theorem Selecting.selects (h : Selecting s) (hselects : Selects opt given s s') : Selecting s' := by
  obtain ⟨t, us, refusals, gone, hsel, -⟩ := h.selected hselects
  exact h.step hsel

theorem Selected.length_lt (h : Selecting s) (hsel : Selected opt given s s' t us refusals gone) :
    s'.queue.length < s.queue.length := by
  obtain ⟨u, hu⟩ := List.exists_mem_of_ne_nil _ hsel.gone_ne
  by_contra hle
  have heq := hsel.queue_sublist.eq_of_length_le (Nat.not_lt.1 hle)
  have hmem : u ∈ users s'.queue := heq ▸ hsel.gone_sublist.subset hu
  rw [hsel.queue, (List.nodup_append'.1 h.nodup).2.1.mem_sdiff_iff] at hmem
  exact hmem.2 hu

theorem Selecting.reaches (h : Selecting s)
    (hreach : Relation.ReflTransGen (Selects opt given) s s') : Selecting s' := by
  induction hreach with
  | refl => exact h
  | tail _ hsel ih => exact ih.selects hsel

/-- Later selections leave the events there are, and theirs are of higher
number. -/
theorem Selecting.events_reaches (h : Selecting s)
    (hreach : Relation.ReflTransGen (Selects opt given) s s') :
    s.round ≤ s'.round ∧ (∀ e ∈ s.events, e ∈ s'.events) ∧
      ∀ e ∈ s'.events, e ∈ s.events ∨ s.round ≤ e.round := by
  induction hreach with
  | refl => exact ⟨Nat.le_refl _, fun _ he => he, fun _ he => .inl he⟩
  | @tail x y hreach hselects ih =>
    obtain ⟨hround, hkeep, hlater⟩ := ih
    obtain ⟨t, us, refusals, gone, hsel, -⟩ := (h.reaches hreach).selected hselects
    refine ⟨by rw [hsel.round]; omega, fun e he => hsel.mem_events.2 (.inl (hkeep e he)),
      fun e he => ?_⟩
    rcases hsel.mem_events.1 he with he | ⟨c, u, -, rfl⟩ | ⟨u, -, rfl⟩ | ⟨u, -, rfl⟩
    · exact hlater e he
    all_goals exact .inr hround

theorem Accounted.reaches (h : Selecting s) (hacc : Accounted s)
    (hfit : ∀ x, Relation.ReflTransGen (Selects opt given) s x → DrawnFit opt given x)
    (hreach : Relation.ReflTransGen (Selects opt given) s s') : Accounted s' := by
  induction hreach with
  | refl => exact hacc
  | @tail x y hreach hselects ih =>
    obtain ⟨t, us, refusals, gone, hsel, -⟩ := (h.reaches hreach).selected hselects
    exact ih.step hsel (hfit x hreach)

/-- The loop ends behind its selections, with what they have left. -/
theorem Selecting.exists_reaches (fuel : ℕ) : ∀ n {s r : Hall}, Selecting s →
    distributeLoop opt given (insertDistribute opt given (fuel + 1)) n s = some r →
    ∃ s', Relation.ReflTransGen (Selects opt given) s s' ∧ r.events = s'.events ∧
      r.tableUserItem = s'.tableUserItem := by
  intro n
  induction n with
  | zero =>
    intro s r _ hr
    cases hr
  | succ n ih =>
    intro s r h hr
    cases h.loopStep opt given with
    | ends x heq hevents hchairs =>
      rw [heq] at hr
      cases hr
      exact ⟨s, .refl, hevents, hchairs⟩
    | goes x t us refusals gone hsel hselects _ heq =>
      rw [heq] at hr
      obtain ⟨s', hreach, hend⟩ := ih (h.step hsel) hr
      exact ⟨s', .head hselects hreach, hend⟩

/-- If a call leaves what it should, the users of its selections fit. -/
theorem Selecting.fits {r : Hall} (h : Selecting s)
    (hr : distributeLoop opt given (insertDistribute opt given (fuel + 1)) n s = some r)
    (hacc : Accounted r) : DrawnFit opt given s := by
  cases h.loopStep opt given with
  | ends _ _ _ _ hfits => exact hfits
  | goes s' t us refusals gone hsel hselects _ heq =>
    cases n with
    | zero => cases hr
    | succ n =>
      rw [heq] at hr
      have hs' := h.step hsel
      obtain ⟨x, hreach, hevents, -⟩ := hs'.exists_reaches _ _ hr
      obtain ⟨-, hkeep, hlater⟩ := hs'.events_reaches hreach
      -- an event of this selection is one of its own, not of a later one
      have hown : ∀ e ∈ r.events, e.round = s.round → e ∈ s'.events ∧ e ∉ s.events := by
        intro e he hround
        rw [hevents] at he
        refine ⟨(hlater e he).resolve_right ?_, fun hold => ?_⟩
        · rw [hround, hsel.round]
          exact Nat.not_succ_le_self _
        · exact absurd (h.rounds e hold) (by omega)
      refine hsel.fits fun u hu => ?_
      have hremove : .remove s.round u ∈ r.events := by
        rw [hevents]
        exact hkeep _ (hsel.mem_events.2 (.inr (.inr (.inr ⟨u, hu, rfl⟩))))
      rcases hacc _ _ hremove with hrefuse | ⟨t', c, hseat, -⟩
      · obtain ⟨hnew, hold⟩ := hown _ hrefuse rfl
        rcases hsel.mem_events.1 hnew with he | ⟨_, _, -, heq⟩ | ⟨v, hv, heq⟩ | ⟨_, -, heq⟩
        · exact absurd he hold
        · cases heq
        · cases heq
          exact .inl hv
        · cases heq
      · obtain ⟨hnew, hold⟩ := hown _ hseat rfl
        rcases hsel.mem_events.1 hnew with he | ⟨i, v, hv, heq⟩ | ⟨_, -, heq⟩ | ⟨_, -, heq⟩
        · exact absurd he hold
        · cases heq
          exact .inr (List.mem_of_getElem? hv)
        · cases heq
        · cases heq

end GameServer.AttemperEngine
