import GameServer.GuanDan.Stages
import Mathlib.Tactic.FinCases
/-!
# Guandan — the rounds

What the hands of one table leave for the next: the ranking, who pays and
who receives tribute, the banker and the levels. The end of a hand in
play settles them (`Settled`); a hand that is broken off, the last level
and a player who is short of money reset them, the last one all but the
result. While no hand is dealt upon such a result (`Carried`), tribute is
that of the hand before (`run_keeps_rounds`).
-/

namespace GameServer.GuanDan

/-- The end of a hand that was sent. -/
def Output.ended : Output → Option (EndReason × (Fin 4 → Chair) × Series)
  | .gameEnd reason ranking series => some (reason, ranking, series)
  | _ => none

def lastEnd (history : List Output) : Option (EndReason × (Fin 4 → Chair) × Series) :=
  (history.filterMap Output.ended).getLast?

theorem lastEnd_quiet {out : List Output} (hout : ∀ o ∈ out, o.isEnd = false)
    (history : List Output) : lastEnd (history ++ out) = lastEnd history := by
  have hnil : out.filterMap Output.ended = [] := by
    rw [List.filterMap_eq_nil_iff]
    intro o ho
    have := hout o ho
    cases o with
    | gameEnd => exact Bool.noConfusion this
    | _ => rfl
  rw [lastEnd, List.filterMap_append, hnil, List.append_nil, lastEnd]

theorem lastEnd_gameEnd (history : List Output) (reason : EndReason) (ranking : Fin 4 → Chair)
    (series : Series) :
    lastEnd (history ++ [.gameEnd reason ranking series]) = some (reason, ranking, series) := by
  rw [lastEnd, List.filterMap_append]
  exact List.getLast?_concat

/-- Both levels stay between the first and the last, and one of them is
played. -/
structure Series.Valid (series : Series) : Prop where
  our : 2 ≤ series.ourSeries ∧ series.ourSeries ≤ 14
  other : 2 ≤ series.otherSeries ∧ series.otherSeries ≤ 14
  current : series.currentSeries = series.ourSeries ∨ series.currentSeries = series.otherSeries

theorem Series.valid_init : Series.Valid {} :=
  ⟨by decide, by decide, Or.inl rfl⟩

namespace TableSink

variable {s s' t : TableSink} {out history pre : List Output} {scores : Chair → ℤ}

/-! ## The result of a hand -/

/-- Who pays whom: the last two pay the first two where these are of one
side, and else the last pays the first. -/
structure Settled (s : TableSink) : Prop where
  ranking : Function.Bijective s.ranking
  sides : (s.ranking 1 = s.ranking 0 + 2 ∧ s.payers = [s.ranking 2, s.ranking 3] ∧
      s.receivers = [s.ranking 0, s.ranking 1]) ∨
    (s.ranking 1 ≠ s.ranking 0 + 2 ∧ s.payers = [s.ranking 3] ∧ s.receivers = [s.ranking 0])
  pays : ∀ i, s.payTribute i = 2 ↔ i ∈ s.payers

/-- The rounds are those of the last hand, which ended in play and raised
the level of its winners. -/
structure Outcome (s : TableSink) (history : List Output) : Prop extends s.Settled where
  last : lastEnd history = some (.normal, s.ranking, s.series)
  raised : 2 < s.series.currentSeries

theorem Settled.receivers_nodup (hs : s.Settled) : s.receivers.Nodup := by
  obtain ⟨-, -, h⟩ | ⟨-, -, h⟩ := hs.sides
  · rw [h, List.nodup_cons]
    refine ⟨fun hmem => ?_, List.nodup_singleton _⟩
    exact absurd (hs.ranking.1 (List.mem_singleton.1 hmem)) (by decide)
  · rw [h]
    exact List.nodup_singleton _

theorem Settled.congr (hs : s.Settled) (hresult : t.result = s.result)
    (hranking : t.ranking = s.ranking) (hpay : t.payTribute = s.payTribute) : t.Settled := by
  have hpayers : t.payers = s.payers := by rw [payers, payers, hresult, hranking]
  have hreceivers : t.receivers = s.receivers := by rw [receivers, receivers, hresult, hranking]
  refine ⟨?_, ?_, ?_⟩
  · rw [hranking]
    exact hs.ranking
  · rw [hranking, hpayers, hreceivers]
    exact hs.sides
  · rw [hpay, hpayers]
    exact hs.pays

theorem bijective_of_pair : ∀ a : Fin 4, Function.Bijective ![a, a + 2, a + 1, a + 3] := by
  decide

theorem bijective_of_third : ∀ a b : Fin 4, b ≠ a → b ≠ a + 2 →
    Function.Bijective ![a, b, a + 2, b + 2] := by
  decide

theorem bijective_of_last : ∀ a b : Fin 4, b ≠ a → b ≠ a + 2 →
    Function.Bijective ![a, b, b + 2, a + 2] := by
  decide

theorem bijective_ranking {f : Fin 4 → Chair} {a b c d : Chair} (h₀ : f 0 = a) (h₁ : f 1 = b)
    (h₂ : f 2 = c) (h₃ : f 3 = d) (h : Function.Bijective ![a, b, c, d]) : Function.Bijective f := by
  have hf : f = ![a, b, c, d] := by
    funext i
    fin_cases i
    · exact h₀
    · exact h₁
    · exact h₂
    · exact h₃
  rwa [hf]

/-- **The first two of one side**: both others pay. -/
theorem settled_of_pair (hpair : s.ranking 1 = s.ranking 0 + 2) : s.rankUsers.Settled := by
  have hback : s.ranking 0 = s.ranking 1 + 2 := by grind
  rw [rankUsers, if_pos hback]
  refine ⟨?_, Or.inl ⟨hpair, rfl, rfl⟩, fun i => ?_⟩
  · exact bijective_ranking rfl hpair rfl rfl (bijective_of_pair _)
  · change Function.update _ _ _ i = 2 ↔ i ∈ [s.ranking 0 + 1, s.ranking 0 + 3]
    simp only [Function.update_apply, List.mem_pair]
    grind

/-- **The first and the third of one side**: the friend of the second
pays. -/
theorem settled_of_third (hfirst : s.ranking 1 ≠ s.ranking 0)
    (hpair : s.ranking 1 ≠ s.ranking 0 + 2) (hthird : s.ranking 2 = s.ranking 0 + 2) :
    s.rankUsers.Settled := by
  have hback : s.ranking 0 ≠ s.ranking 1 + 2 := by grind
  have hback' : s.ranking 0 = s.ranking 2 + 2 := by grind
  rw [rankUsers, if_neg hback, if_pos hback']
  refine ⟨?_, Or.inr ⟨hpair, rfl, rfl⟩, fun i => ?_⟩
  · exact bijective_ranking rfl rfl hthird rfl (bijective_of_third _ _ hfirst hpair)
  · change Function.update _ _ _ i = 2 ↔ i ∈ [s.ranking 1 + 2]
    simp only [Function.update_apply, List.mem_singleton]
    grind

/-- **The second and the third of one side**: the friend of the first
pays. -/
theorem settled_of_last (hfirst : s.ranking 1 ≠ s.ranking 0)
    (hpair : s.ranking 1 ≠ s.ranking 0 + 2) (hthird : s.ranking 2 = s.ranking 1 + 2) :
    s.rankUsers.Settled := by
  have hback : s.ranking 0 ≠ s.ranking 1 + 2 := by grind
  have hback' : s.ranking 0 ≠ s.ranking 2 + 2 := by grind
  rw [rankUsers, if_neg hback, if_neg hback']
  refine ⟨?_, Or.inr ⟨hpair, rfl, rfl⟩, fun i => ?_⟩
  · exact bijective_ranking rfl rfl hthird rfl (bijective_of_last _ _ hfirst hpair)
  · change Function.update _ _ _ i = 2 ↔ i ∈ [s.ranking 0 + 2]
    simp only [Function.update_apply, List.mem_singleton]
    grind

/-! ## The levels -/

@[simp] theorem rankUsers_series (s : TableSink) : s.rankUsers.series = s.series := by
  rw [rankUsers]
  split_ifs
  all_goals rfl

theorem upgrading_pos (result : Option HandResult) : 1 ≤ upgrading result := by
  cases result with
  | none => decide
  | some result =>
    cases result with
    | shuangXia => decide
    | danXia => decide
    | other => decide

/-- **A hand raises the level of its winners**, or the last level ends the
rounds. -/
theorem upgrade_spec (hvalid : s.series.Valid) : s.upgrade.series.Valid ∧
    (s.upgrade.result ≠ none → s.upgrade.result = s.result ∧ s.upgrade.ranking = s.ranking ∧
      s.upgrade.payTribute = s.payTribute ∧ 2 < s.upgrade.series.currentSeries) := by
  have hup := upgrading_pos s.result
  have hour := hvalid.our
  have hother := hvalid.other
  rw [upgrade]
  split_ifs with hlast hside
  · exact ⟨Series.valid_init, fun h => absurd rfl h⟩
  · refine ⟨⟨⟨?_, ?_⟩, hother, Or.inl rfl⟩, fun _ => ⟨rfl, rfl, rfl, ?_⟩⟩
    · change 2 ≤ min 14 _
      omega
    · exact Nat.min_le_left _ _
    · change 2 < min 14 _
      omega
  · refine ⟨⟨hour, ⟨?_, ?_⟩, Or.inr rfl⟩, fun _ => ⟨rfl, rfl, rfl, ?_⟩⟩
    · change 2 ≤ min 14 _
      omega
    · exact Nat.min_le_left _ _
    · change 2 < min 14 _
      omega

/-! ## Hand after hand -/

/-- The levels are valid; and with a result that is not left from a reset,
the rounds are those of the last hand. -/
structure Rounds (s : TableSink) (history : List Output) : Prop where
  levels : s.series.Valid
  outcome : s.gameStatus ≠ .playing → s.result ≠ none →
    (s.gameStatus = .free → s.bankerUser ≠ none) → s.Outcome history

theorem Outcome.congr (hs : s.Outcome history) (hresult : t.result = s.result)
    (hranking : t.ranking = s.ranking) (hpay : t.payTribute = s.payTribute)
    (hseries : t.series = s.series) (hout : ∀ o ∈ out, o.isEnd = false) :
    t.Outcome (history ++ out) := by
  refine ⟨hs.toSettled.congr hresult hranking hpay, ?_, ?_⟩
  · rw [lastEnd_quiet hout, hs.last, hranking, hseries]
  · rw [hseries]
    exact hs.raised

/-- No hand is dealt upon the result that a player short of money left. -/
def Carried (s : TableSink) : Event → Prop
  | .gameStart _ => s.gameStatus = .free → s.result ≠ none → s.bankerUser ≠ none
  | _ => True

/-- **A hand goes on.** -/
theorem Rounds.keeps (hs : s.Rounds history) (hkeeps : s.Keeps s' out) :
    s'.Rounds (history ++ out) := by
  refine ⟨?_, fun hstatus hresult hfree => ?_⟩
  · rw [hkeeps.series]
    exact hs.levels
  · obtain ⟨hstatus', hresult', hranking, hpay⟩ := hkeeps.rounds hstatus
    have hbanker : s.gameStatus = .free → s.bankerUser ≠ none := by
      intro h
      rw [← hkeeps.banker h]
      exact hfree (hkeeps.free.2 h)
    exact (hs.outcome hstatus' (by rwa [← hresult']) hbanker).congr hresult' hranking hpay
      hkeeps.series hkeeps.quiet

/-- **A side is out.** -/
theorem rounds_concludeNormal (hlevels : t.series.Valid)
    (hside : t.ranking 1 = t.ranking 0 + 2 ∨
      (t.ranking 1 ≠ t.ranking 0 ∧ t.ranking 1 ≠ t.ranking 0 + 2 ∧
        (t.ranking 2 = t.ranking 0 + 2 ∨ t.ranking 2 = t.ranking 1 + 2)))
    (scores : Chair → ℤ) (history : List Output) :
    (t.concludeNormal scores).1.Rounds (history ++ (t.concludeNormal scores).2) := by
  have hsettled : t.rankUsers.Settled := by
    obtain hpair | ⟨hfirst, hpair, hthird | hthird⟩ := hside
    · exact settled_of_pair hpair
    · exact settled_of_third hfirst hpair hthird
    · exact settled_of_last hfirst hpair hthird
  obtain ⟨hvalid, hraised⟩ := upgrade_spec (s := t.rankUsers) (by rwa [rankUsers_series])
  simp only [concludeNormal]
  split_ifs with hshort
  · -- a player is short of money: the result is all that is left
    exact ⟨Series.valid_init, fun _ _ hfree => absurd rfl (hfree rfl)⟩
  · refine ⟨hvalid, fun _ hresult _ => ?_⟩
    obtain ⟨hresult', hranking, hpay, hlevel⟩ := hraised hresult
    exact ⟨hsettled.congr hresult' hranking hpay, lastEnd_gameEnd _ _ _ _, hlevel⟩

/-- **A step** keeps the rounds. -/
theorem step_keeps_rounds {e : Event} {l : HandLog} (hstage : s.Stage l) (hs : s.Rounds history)
    (hok : s.Orderly e) (hcarried : s.Carried e) :
    ∃ s' out, step s e = some (s', out) ∧ s'.Stage (l.read out) ∧ s'.Rounds (history ++ out) := by
  by_cases hdeal : ∀ rand, e ≠ .gameStart rand
  · obtain ⟨s', out, hstep, hstage', hleads⟩ := step_goes hstage hok hdeal
    refine ⟨s', out, hstep, hstage', ?_⟩
    cases hleads with
    | keeps hkeeps => exact hs.keeps hkeeps
    | ends t scores pre _ hseries hside _ hs' hout =>
      rw [hs', hout, ← List.append_assoc]
      exact rounds_concludeNormal (by rw [hseries]; exact hs.levels) hside scores _
    | broken reason ranking series _ _ hresult hseries _ =>
      exact ⟨by rw [hseries]; exact Series.valid_init, fun _ h => absurd hresult h⟩
  · obtain ⟨rand, rfl⟩ : ∃ rand, e = .gameStart rand := by simpa using hdeal
    by_cases hfree : s.gameStatus = .free
    · refine ⟨_, _, if_pos hfree, hstage.deal hfree rand, hs.levels, fun _ hresult _ => ?_⟩
      have hplaying : s.gameStatus ≠ .playing := by
        rw [hfree]
        nofun
      exact (hs.outcome hplaying hresult fun _ => hcarried hfree hresult).congr rfl rfl rfl rfl
        (List.forall_mem_singleton.2 rfl)
    · refine ⟨s, [], if_neg hfree, hstage, ?_⟩
      rwa [List.append_nil]

/-- What the hands of a table leave: valid levels, and tribute only after
a hand that ended in play and whose levels were not reset, by the losers
of that hand to its winners. -/
structure Consistent (s : TableSink) (history : List Output) : Prop where
  levels : s.series.Valid
  reset : s.series = {} → s.gameStatus ≠ .tribute
  tribute : s.gameStatus = .tribute → s.Outcome history
  moves : s.gameStatus = .tribute → ∀ e s' out, s.Orderly e → step s e = some (s', out) →
    s'.gameStatus ≠ .free → ∀ o ∈ out, o.Moves s.payers s.receivers
  leaves : s.gameStatus = .tribute → ∀ e s' out, s.Orderly e → step s e = some (s', out) →
    s'.gameStatus = .playing → (∀ i, s'.handCardCount i = 27) ∧ ∃ c, s'.currentUser = some c

/-- A step out of tribute, but for the end of the hand, only moves cards. -/
theorem Stage.keeps_of_tribute {e : Event} {l : HandLog} (hs : s.Stage l)
    (hstatus : s.gameStatus = .tribute) (hok : s.Orderly e) (hstep : step s e = some (s', out))
    (hfree : s'.gameStatus ≠ .free) : s.Keeps s' out := by
  by_cases hdeal : ∀ rand, e ≠ .gameStart rand
  · obtain ⟨t, out', hstep', -, hleads⟩ := step_goes hs hok hdeal
    rw [hstep] at hstep'
    cases hstep'
    cases hleads with
    | keeps hkeeps => exact hkeeps
    | ends t scores pre hplaying => exact absurd (hstatus.symm.trans hplaying) (by simp)
    | broken reason ranking series _ hbroken => exact absurd hbroken hfree
  · obtain ⟨rand, rfl⟩ : ∃ rand, e = .gameStart rand := by simpa using hdeal
    rw [step, if_neg (by rw [hstatus]; simp)] at hstep
    cases hstep
    exact Keeps.refl s

theorem Rounds.consistent {l : HandLog} (hstage : s.Stage l) (hs : s.Rounds history) :
    s.Consistent history := by
  have houtcome : s.gameStatus = .tribute → s.Outcome history := by
    intro hstatus
    have hresult : s.result ≠ none := by
      intro hnone
      obtain ⟨h | h, -⟩ := hstage.of_tribute hstatus
      · obtain ⟨i, hi, -⟩ := h.waits
        rw [payers, hnone] at hi
        exact List.not_mem_nil hi
      · obtain ⟨i, hi, -⟩ := h.waits
        rw [receivers, hnone] at hi
        exact List.not_mem_nil hi
    exact hs.outcome (by rw [hstatus]; simp) hresult fun h => absurd (hstatus.symm.trans h) (by simp)
  refine ⟨hs.levels, fun hseries hstatus => ?_, houtcome, ?_, ?_⟩
  · have hraised := (houtcome hstatus).raised
    rw [hseries] at hraised
    exact absurd hraised (by decide)
  · intro hstatus e s' out hok hstep hfree
    exact (hstage.keeps_of_tribute hstatus hok hstep hfree).moves hstatus
  · intro hstatus e s' out hok hstep hplaying
    obtain ⟨hcurrent, hcount⟩ := (hstage.keeps_of_tribute hstatus hok hstep
      (by rw [hplaying]; simp)).level hstatus hplaying
    exact ⟨hcount (houtcome hstatus).receivers_nodup, hcurrent⟩

/-- **The rounds of every run.** As long as no hand is dealt upon the
result that a player short of money left, the ranking, the payers and the
receivers of tribute are those of the hand before, which ended in play,
and tribute ends with full hands and one who leads. -/
theorem run_keeps_rounds {events : List Event}
    (hok : Machine.Along step (fun s e => s.Orderly e ∧ s.Carried e) {} events) :
    ∃ r, Machine.run step {} events = some r ∧ r.1.Consistent r.2 := by
  have hstage : ({} : TableSink).Stage {} :=
    Stage.free ⟨rfl, fun _ => rfl, rfl, rfl, rfl⟩ ⟨nofun, nofun⟩
  have hrounds : ({} : TableSink).Rounds [] := ⟨Series.valid_init, fun _ h => absurd rfl h⟩
  have hkeeps : ∀ (s : TableSink) history e,
      (s.Stage (HandLog.read {} history) ∧ s.Rounds history) → (s.Orderly e ∧ s.Carried e) →
        ∃ s' out, step s e = some (s', out) ∧ s'.Stage (HandLog.read {} (history ++ out)) ∧
          s'.Rounds (history ++ out) := by
    rintro s history e ⟨hs, hr⟩ ⟨horderly, hcarried⟩
    obtain ⟨s', out, hstep, hs', hr'⟩ := step_keeps_rounds hs hr horderly hcarried
    exact ⟨s', out, hstep, by rwa [HandLog.read_append], hr'⟩
  obtain ⟨r, hr, hs, hrounds'⟩ := Machine.inv_run_total hkeeps events {} [] ⟨hstage, hrounds⟩ hok
  exact ⟨r, hr, hrounds'.consistent hs⟩

instance (s : TableSink) : ∀ e, Decidable (s.Orderly e)
  | .payTribute _ _ _ => inferInstanceAs (Decidable (_ → _ → _ ∧ _))
  | .returnTribute _ _ _ => inferInstanceAs (Decidable (_ → _ → _ ∧ _))
  | .outCard _ _ _ _ _ => inferInstanceAs (Decidable (_ → _))
  | .gameStart _ => isTrue trivial
  | .timer _ _ _ => isTrue trivial
  | .passCard _ _ => isTrue trivial
  | .trustee _ _ _ _ => isTrue trivial
  | .sendGameScene _ => isTrue trivial
  | .dismiss => isTrue trivial
  | .userLeave => isTrue trivial

instance (s : TableSink) : ∀ e, Decidable (s.Carried e)
  | .gameStart _ => inferInstanceAs (Decidable (_ → _ → _))
  | .payTribute _ _ _ => isTrue trivial
  | .returnTribute _ _ _ => isTrue trivial
  | .outCard _ _ _ _ _ => isTrue trivial
  | .timer _ _ _ => isTrue trivial
  | .passCard _ _ => isTrue trivial
  | .trustee _ _ _ _ => isTrue trivial
  | .sendGameScene _ => isTrue trivial
  | .dismiss => isTrue trivial
  | .userLeave => isTrue trivial

/-- A hand that the timers play, after which everybody has `score`, and
the beginning of the next one. -/
def twoHands (score : ℤ) : List Event :=
  [.sendGameScene 1, .gameStart (fun n => 15 * n * n), .timer .gameStart 0 (fun _ => 0)] ++
    List.replicate 187 (.timer .outCard 0 (fun _ => score)) ++
    [.gameStart (fun n => 15 * n * n), .timer .gameStart 0 (fun _ => 0)]

theorem run_keeps_rounds_tribute :
    (Machine.run step {} (twoHands 3)).map (fun r => (r.1.gameStatus, List.ofFn r.1.ranking)) =
        some (.tribute, [0, 2, 1, 3]) ∧
      ∃ r, Machine.run step {} (twoHands 3) = some r ∧ r.1.Consistent r.2 :=
  ⟨by decide +kernel, run_keeps_rounds (by decide +kernel)⟩

/-- **Tribute after a reset**: everybody is short of money, and the next
hand has tribute of a ranking that was cleared. -/
theorem tribute_after_reset : ∃ r, Machine.run step {} (twoHands 0) = some r ∧
    r.1.gameStatus = .tribute ∧ ¬ r.1.Consistent r.2 := by
  have hrun : (Machine.run step {} (twoHands 0)).map
      (fun r => (r.1.gameStatus, r.1.ranking 0, r.1.ranking 1)) = some (.tribute, 0, 0) := by
    decide +kernel
  obtain ⟨r, hr, heq⟩ := Option.map_eq_some_iff.1 hrun
  obtain ⟨hstatus, hfirst, hsecond⟩ : r.1.gameStatus = .tribute ∧ r.1.ranking 0 = 0 ∧
      r.1.ranking 1 = 0 := by simpa using heq
  refine ⟨r, hr, hstatus, fun h => ?_⟩
  have := (h.tribute hstatus).ranking.1 (hfirst.trans hsecond.symm)
  exact absurd this (by decide)

end TableSink

end GameServer.GuanDan
