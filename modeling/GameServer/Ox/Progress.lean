import GameServer.Ox.Hands
/-!
# Ox — the timer moves the hand on

A call and the cards are always brought forward by the timer. The default
stake is an eighth of the limit, which the table itself refuses when the
limit is less than eight (`timer_forward`).
-/

namespace GameServer.Ox.TableSink

/-- **The hand moves on**: the next caller is asked or the banker is
found, the stakes are in, or the cards are open and the hand is
settled. -/
def Forward (s s' : TableSink) (out : List Output) : Prop :=
  match s.gameStatus with
  | .free => False
  | .call => (s'.gameStatus = .score ∧ s'.bankerUser ≠ none) ∨
      ∃ current next, s.currentUser = some current ∧ s'.gameStatus = .call ∧
        s'.currentUser = some next ∧ next ≠ current ∧ s.playStatus next = .playing ∧
        s.callStatus next = false ∧ s'.callStatus current = true
  | .score => s'.gameStatus = .playing
  | .playing => s'.gameStatus = .free ∧
      ∃ banker bankerScore score, Output.gameEnd banker bankerScore score ∈ out

/-- A user comes to the table with a score that is let in. -/
def Admitted (minTableScore : ℤ) : Event → Prop
  | .gameStart users _ => ∀ i score, users i = some score → admits minTableScore score = true
  | .sitDown _ score => admits minTableScore score = true
  | _ => True

/-- **The timer moves every hand on but for the stakes**: these end exactly
when an eighth of the limit is a stake for all who have not bet. -/
theorem timer_forward (events : List Event) (s : TableSink) (out : List Output) (rand : ℕ → ℕ)
    (hrun : Machine.run step {} events = some (s, out)) (hhand : s.gameStatus ≠ .free) :
    (∃ s' out', s.step (.timer rand) = some (s', out') ∧ s.Forward s' out') ↔
      (s.gameStatus = .score → ∀ i, s.playStatus i = .playing → some i ≠ s.bankerUser →
        s.tableScore i = 0 → 8 ≤ s.turnMaxScore i) := by
  obtain ⟨r, hrun', hstage, -⟩ := run_stage events
  obtain rfl := Option.some.inj (hrun.symm.trans hrun')
  obtain ⟨s', out', htimer, hstage', -, hcall, hscore, hplaying⟩ := hstage.timer hhand rand
  have hforward : (∃ s' out', s.step (.timer rand) = some (s', out') ∧ s.Forward s' out') ↔
      s.Forward s' out' := by
    refine ⟨?_, fun h => ⟨s', out', htimer, h⟩⟩
    rintro ⟨s₁, out₁, htimer', h⟩
    cases htimer.symm.trans htimer'
    exact h
  rw [hforward, Forward]
  cases hstatus : s.gameStatus with
  | free => exact absurd hstatus hhand
  | call =>
    refine iff_of_true ?_ nofun
    obtain hstaking | ⟨hcalling, current, next, h⟩ := hcall hstatus
    · obtain ⟨banker, bankerScore, n, hb⟩ := hstaking.betting.banked
      refine .inl ⟨hstaking.betting.status, ?_⟩
      rw [hb.user]
      exact nofun
    · obtain ⟨first, current', ht, -⟩ := hcalling.turn
      exact .inr ⟨current, next, h.1, ht.status, h.2⟩
  | score =>
    refine (hscore hstatus).trans ⟨fun h _ i hi hne hzero => h i ⟨hi, hne, hzero⟩,
      fun h i hi => h rfl i hi.1 hi.2.1 hi.2.2⟩
  | playing => exact iff_of_true (hplaying hstatus) nofun

theorem timer_forward_thousand :
    ∃ events s out, Machine.run step {} events = some (s, out) ∧ s.gameStatus = .score ∧
      ∀ rand, ∃ s' out', s.step (.timer rand) = some (s', out') ∧ s.Forward s' out' :=
  ⟨[.gameStart (fun _ => some 1000) 0, .callBanker 0 true 1], _, _, rfl, rfl, fun rand =>
    (timer_forward [.gameStart (fun _ => some 1000) 0, .callBanker 0 true 1] _ _ rand rfl
      nofun).2 fun _ => by decide⟩

/-- Four users of a hundred each may stake six at most: an eighth of that
is refused, and the timer does nothing. -/
theorem timer_stuck : ∃ events s out, (∀ e ∈ events, Admitted 50 e) ∧
    Machine.run step {} events = some (s, out) ∧ s.gameStatus ≠ .free ∧
      ∀ rand, s.step (.timer rand) = some (s, []) ∧ ¬ s.Forward s [] := by
  refine ⟨[.gameStart (fun _ => some 100) 0, .callBanker 0 true 1], _, _, ?_, rfl, ?_, ?_⟩
  · refine List.forall_mem_cons.2 ⟨fun i score h => ?_, List.forall_mem_cons.2 ⟨trivial, nofun⟩⟩
    cases h
    decide
  · nofun
  · exact fun rand => ⟨rfl, nofun⟩

end GameServer.Ox.TableSink
