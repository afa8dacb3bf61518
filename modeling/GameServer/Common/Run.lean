import Mathlib.Data.List.Basic
/-!
# Runs of a machine

A machine takes one event at a time, moves to a next state and emits
outputs, or faults. `run` is a whole sequence of events and `Along` says
that a condition, read at the state before each step, holds at every
step of it. The rules are the invariant rule (`inv_run`, and
`inv_run_traced` with the outputs so far) and forward simulation against
a second machine that never faults (`run_simulates`).
-/

namespace GameServer

variable {σ α ε ω : Type*}
variable {es : List ε} {s : σ} {P : α → Prop}

/-- A machine that may fault: the next state and what it emits. -/
abbrev Machine (σ ε ω : Type*) := σ → ε → Option (σ × List ω)

/-- A machine that never faults. -/
abbrev TotalMachine (α ε ω : Type*) := α → ε → α × List ω

namespace Machine

variable (step : Machine σ ε ω)

/-- The state a sequence of events leads to, with everything emitted on
the way. -/
def run : σ → List ε → Option (σ × List ω)
  | s, [] => some (s, [])
  | s, e :: es =>
      match step s e with
      | none => none
      | some (s', out) => (run s' es).map fun r => (r.1, out ++ r.2)

/-- `ok` holds at every step of the run, at the state before it. -/
def Along (ok : σ → ε → Prop) : σ → List ε → Prop
  | _, [] => True
  | s, e :: es => ok s e ∧ ∀ s' out, step s e = some (s', out) → Along ok s' es

variable {step}

theorem run_cons {s' : σ} {e : ε} {out : List ω} (h : step s e = some (s', out)) :
    run step s (e :: es) = (run step s' es).map fun r => (r.1, out ++ r.2) := by
  rw [run, h]

theorem run_of_idle : ∀ {es : List ε}, (∀ e ∈ es, step s e = some (s, [])) →
    run step s es = some (s, []) := by
  intro es
  induction es with
  | nil => exact fun _ => rfl
  | cons e es ih =>
    intro h
    rw [run_cons (h e List.mem_cons_self), ih fun e' he' => h e' (List.mem_cons_of_mem _ he')]
    rfl

theorem run_cons_eq_some {e : ε} {r : σ × List ω} (h : run step s (e :: es) = some r) :
    ∃ s' out rest, step s e = some (s', out) ∧ run step s' es = some (r.1, rest) ∧
      r.2 = out ++ rest := by
  cases hs : step s e with
  | none => simp [run, hs] at h
  | some p =>
    obtain ⟨s', out⟩ := p
    rw [run_cons hs] at h
    cases hr : run step s' es with
    | none => rw [hr] at h; cases h
    | some q =>
      rw [hr] at h
      cases h
      exact ⟨s', out, q.2, rfl, hr, rfl⟩

/-- A run of two sequences is the run of the second from where the first
ends. -/
theorem run_append : ∀ {s : σ} (fs : List ε),
    run step s (es ++ fs) =
      (run step s es).bind fun r => (run step r.1 fs).map fun q => (q.1, r.2 ++ q.2) := by
  induction es with
  | nil => intro s fs; simp [run]
  | cons e es ih =>
    intro s fs
    rw [List.cons_append, run, run]
    cases step s e with
    | none => rfl
    | some p =>
      obtain ⟨s', out⟩ := p
      simp only
      rw [ih fs]
      cases run step s' es with
      | none => rfl
      | some r =>
        simp only [Option.map_some, Option.bind_some, Option.map_map]
        congr 1
        funext q
        simp

/-- **The invariant rule, with the history.** What one step keeps of the
state and everything emitted so far, a run keeps. -/
theorem inv_run_traced {P : σ → List ω → Prop} {ok : σ → ε → Prop}
    (hstep : ∀ s h e s' out, P s h → ok s e → step s e = some (s', out) → P s' (h ++ out)) :
    ∀ (es : List ε) (s : σ) (h : List ω) (r : σ × List ω), P s h → Along step ok s es →
      run step s es = some r → P r.1 (h ++ r.2) := by
  intro es
  induction es with
  | nil =>
    intro s h r hs _ hr
    cases hr
    simpa using hs
  | cons e es ih =>
    intro s h r hs hal hr
    obtain ⟨s', out, rest, h₁, h₂, heq⟩ := run_cons_eq_some hr
    have := ih s' (h ++ out) (r.1, rest) (hstep s h e s' out hs hal.1 h₁) (hal.2 s' out h₁) h₂
    rwa [List.append_assoc, ← heq] at this

/-- **The invariant rule for a machine that never faults here**: what one
step keeps, a step that is always taken, a whole run keeps. -/
theorem inv_run_total {P : σ → List ω → Prop} {ok : σ → ε → Prop}
    (hstep : ∀ s h e, P s h → ok s e → ∃ s' out, step s e = some (s', out) ∧ P s' (h ++ out)) :
    ∀ (es : List ε) (s : σ) (h : List ω), P s h → Along step ok s es →
      ∃ r, run step s es = some r ∧ P r.1 (h ++ r.2) := by
  intro es
  induction es with
  | nil =>
    intro s h hs _
    exact ⟨(s, []), rfl, by rwa [List.append_nil]⟩
  | cons e es ih =>
    intro s h hs hal
    obtain ⟨s', out, he, hs'⟩ := hstep s h e hs hal.1
    obtain ⟨r, hr, hlast⟩ := ih s' (h ++ out) hs' (hal.2 s' out he)
    rw [List.append_assoc] at hlast
    exact ⟨(r.1, out ++ r.2), by rw [run_cons he, hr, Option.map_some], hlast⟩

/-- **The invariant rule.** What one step keeps, a run keeps. -/
theorem inv_run {P : σ → Prop} {ok : σ → ε → Prop}
    (hstep : ∀ s e s' out, P s → ok s e → step s e = some (s', out) → P s')
    (es : List ε) (s : σ) (r : σ × List ω) (hs : P s) (hal : Along step ok s es)
    (hr : run step s es = some r) : P r.1 :=
  @inv_run_traced σ ε ω step (fun s _ => P s) ok (fun s _ e s' out => hstep s e s' out)
    es s [] r hs hal hr

theorem along_cons {ok : σ → ε → Prop} {s' : σ} {e : ε} {out : List ω}
    (hstep : step s e = some (s', out)) (hok : ok s e) (hal : Along step ok s' es) :
    Along step ok s (e :: es) := by
  refine ⟨hok, fun s'' out' h => ?_⟩
  rw [hstep] at h
  cases h
  exact hal

theorem along_and {ok ok' : σ → ε → Prop} : ∀ {s : σ}, Along step ok s es →
    Along step ok' s es → Along step (fun s e => ok s e ∧ ok' s e) s es := by
  induction es with
  | nil => exact fun _ _ => trivial
  | cons e es ih =>
    intro s h h'
    exact ⟨⟨h.1, h'.1⟩, fun s' out he => ih (h.2 s' out he) (h'.2 s' out he)⟩

instance decidableAlong {ok : σ → ε → Prop} [∀ s e, Decidable (ok s e)] :
    ∀ (s : σ) (es : List ε), Decidable (Along step ok s es)
  | _, [] => isTrue trivial
  | s, e :: es =>
      match h : step s e with
      | none => decidable_of_iff (ok s e) (by simp [Along, h])
      | some (s', _) =>
          have : Decidable (Along step ok s' es) := decidableAlong s' es
          decidable_of_iff (ok s e ∧ Along step ok s' es) (by simp [Along, h])

/-- A condition along two sequences holds along each, the second one from
where the first ends. -/
theorem along_append {ok : σ → ε → Prop} {fs : List ε} : ∀ {s : σ},
    Along step ok s (es ++ fs) → Along step ok s es ∧
      ∀ r, run step s es = some r → Along step ok r.1 fs := by
  induction es with
  | nil =>
    intro s h
    refine ⟨trivial, fun r hr => ?_⟩
    cases hr
    exact h
  | cons e es ih =>
    intro s h
    refine ⟨⟨h.1, fun s' out hs => (ih (h.2 s' out hs)).1⟩, fun r hr => ?_⟩
    obtain ⟨s', out, rest, hs, hr', -⟩ := run_cons_eq_some hr
    exact (ih (h.2 s' out hs)).2 (r.1, rest) hr'

/-- What holds of everything a run emits holds along it. -/
theorem along_of_run {P : ω → Prop} : ∀ {es : List ε} {s : σ} {r : σ × List ω},
    run step s es = some r → (∀ o ∈ r.2, P o) →
      Along step (fun s e => ∀ s' out, step s e = some (s', out) → ∀ o ∈ out, P o) s es := by
  intro es
  induction es with
  | nil => intro s r _ _; trivial
  | cons e es ih =>
    intro s r hr hP
    obtain ⟨s₁, out₁, rest, h₁, hr', heq⟩ := run_cons_eq_some hr
    rw [heq] at hP
    refine ⟨fun s' out h o ho => ?_, fun s' out h => ?_⟩
    · rw [h₁] at h
      cases h
      exact hP o (List.mem_append_left _ ho)
    · rw [h₁] at h
      cases h
      exact ih hr' fun o ho => hP o (List.mem_append_right _ ho)

/-- A condition on the events alone holds along every run of them. -/
theorem along_of_mem {ok : ε → Prop} : ∀ {es : List ε} (s : σ), (∀ e ∈ es, ok e) →
    Along step (fun _ e => ok e) s es := by
  intro es
  induction es with
  | nil => intro s _; trivial
  | cons e es ih =>
    intro s h
    exact ⟨h e List.mem_cons_self, fun s' _ _ => ih s' fun e' he' => h e' (List.mem_cons_of_mem _ he')⟩

theorem along_of_forall {ok : σ → ε → Prop} (h : ∀ s e, ok s e) :
    ∀ (es : List ε) (s : σ), Along step ok s es := by
  intro es
  induction es with
  | nil => intro s; trivial
  | cons e es ih => intro s; exact ⟨h s e, fun s' _ _ => ih s'⟩

/-- **The exact invariant rule for a machine that may fault.** Steps that
meet the condition are taken and keep the invariant, and nothing else
does: a run is taken and good in every state exactly when every step
meets the condition. -/
theorem prefixes_iff {I P : σ → Prop} {Q ok : σ → ε → Prop} (hP : ∀ s, I s → P s)
    (hok : ∀ s e, I s → ok s e → Q s e ∧ ∃ s' out, step s e = some (s', out) ∧ I s')
    (hbad : ∀ s e s' out, I s → Q s e → step s e = some (s', out) → P s' → ok s e) :
    ∀ (es : List ε) (s : σ), I s →
      (((∀ n, ∃ r, run step s (es.take n) = some r ∧ P r.1) ∧ Along step Q s es) ↔
        Along step ok s es) := by
  intro es
  induction es with
  | nil =>
    intro s hs
    simp only [List.take_nil]
    exact ⟨fun _ => trivial, fun _ => ⟨fun _ => ⟨(s, []), rfl, hP s hs⟩, trivial⟩⟩
  | cons e es ih =>
    intro s hs
    constructor
    · rintro ⟨hruns, hQ⟩
      obtain ⟨r, hr, hPr⟩ := hruns 1
      obtain ⟨s', out, rest, he, hr', -⟩ := run_cons_eq_some hr
      cases hr'
      have hoke := hbad s e r.1 out hs hQ.1 he hPr
      obtain ⟨-, s₂, out₂, he₂, hs'⟩ := hok s e hs hoke
      rw [he] at he₂
      cases he₂
      refine along_cons he hoke ((ih r.1 hs').1 ⟨fun n => ?_, hQ.2 r.1 out he⟩)
      obtain ⟨q, hq, hPq⟩ := hruns (n + 1)
      obtain ⟨s₂, out₂, rest, he₂, hq', -⟩ := run_cons_eq_some hq
      rw [he] at he₂
      cases he₂
      exact ⟨(q.1, rest), hq', hPq⟩
    · rintro ⟨hoke, hal⟩
      obtain ⟨hQ, s', out, he, hs'⟩ := hok s e hs hoke
      obtain ⟨hruns, hQs⟩ := (ih s' hs').2 (hal s' out he)
      refine ⟨fun n => ?_, along_cons he hQ hQs⟩
      cases n with
      | zero => exact ⟨(s, []), rfl, hP s hs⟩
      | succ n =>
        obtain ⟨r, hr, hPr⟩ := hruns n
        exact ⟨(r.1, out ++ r.2), by rw [List.take_succ_cons, run_cons he, hr, Option.map_some], hPr⟩

/-! ## Endless sequences of events -/

/-- The first `n` events of an endless sequence. -/
def first (events : ℕ → ε) (n : ℕ) : List ε := (List.range n).map events

variable (step) in
/-- Every event of the sequence can be taken. -/
def Endless (s : σ) (events : ℕ → ε) : Prop := ∀ n, (run step s (first events n)).isSome

theorem run_first_succ (s : σ) (events : ℕ → ε) (n : ℕ) :
    run step s (first events (n + 1)) = (run step s (first events n)).bind fun r =>
      (step r.1 (events n)).map fun q => (q.1, r.2 ++ q.2) := by
  rw [first, List.range_succ, List.map_append, List.map_cons, List.map_nil, run_append, ← first]
  congr 1
  funext r
  cases h : step r.1 (events n) <;> simp [run, h]

/-- The states of an endless run and what was emitted before each. -/
theorem Endless.states {events : ℕ → ε} (h : Endless step s events) :
    ∃ (S : ℕ → σ) (L : ℕ → List ω), (∀ n, run step s (first events n) = some (S n, L n)) ∧
      S 0 = s ∧ L 0 = [] ∧
      ∀ n, ∃ out, step (S n) (events n) = some (S (n + 1), out) ∧ L (n + 1) = L n ++ out := by
  choose r hr using fun n => Option.isSome_iff_exists.1 (h n)
  have hzero : r 0 = (s, []) := Option.some.inj (hr 0).symm
  refine ⟨fun n => (r n).1, fun n => (r n).2, hr, congrArg Prod.fst hzero,
    congrArg Prod.snd hzero, fun n => ?_⟩
  have hnext := hr (n + 1)
  rw [run_first_succ, hr n, Option.bind_some, Option.map_eq_some_iff] at hnext
  obtain ⟨q, hstep, hq⟩ := hnext
  exact ⟨q.2, hstep.trans (congrArg (fun p => some (p.1, q.2)) hq), congrArg Prod.snd hq.symm⟩

end Machine

namespace TotalMachine

variable (astep : TotalMachine α ε ω)

/-- The run of a machine that never faults. -/
def run : α → List ε → α × List ω
  | a, [] => (a, [])
  | a, e :: es =>
      let r := run (astep a e).1 es
      (r.1, (astep a e).2 ++ r.2)

/-- `ok` holds at every step of the run, at the state before it. -/
def Along (ok : α → ε → Prop) : α → List ε → Prop
  | _, [] => True
  | a, e :: es => ok a e ∧ Along ok (astep a e).1 es

instance decidableAlong {ok : α → ε → Prop} [∀ a e, Decidable (ok a e)] :
    ∀ (a : α) (es : List ε), Decidable (Along astep ok a es)
  | _, [] => isTrue trivial
  | a, e :: es =>
      have : Decidable (Along astep ok (astep a e).1 es) := decidableAlong (astep a e).1 es
      inferInstanceAs (Decidable (ok a e ∧ Along astep ok (astep a e).1 es))

variable {astep}

/-- **The invariant rule, with the history.** -/
theorem inv_run_traced {P : α → List ω → Prop}
    (hstep : ∀ a h e, P a h → P (astep a e).1 (h ++ (astep a e).2)) :
    ∀ (es : List ε) (a : α) (h : List ω), P a h →
      P (astep.run a es).1 (h ++ (astep.run a es).2) := by
  intro es
  induction es with
  | nil =>
    intro a h ha
    simpa [run] using ha
  | cons e es ih =>
    intro a h ha
    have := ih (astep a e).1 (h ++ (astep a e).2) (hstep a h e ha)
    rwa [List.append_assoc] at this

/-- **The exact invariant rule.** If a step keeps the invariant exactly
when it meets a condition, all states of a run have it exactly when every
step meets the condition. -/
theorem inv_prefixes_iff {ok : α → ε → Prop} (hstep : ∀ a e, P a → (P (astep a e).1 ↔ ok a e)) :
    ∀ (es : List ε) (a : α), P a →
      ((∀ n, P (astep.run a (es.take n)).1) ↔ astep.Along ok a es) := by
  intro es
  induction es with
  | nil =>
    intro a ha
    simp only [List.take_nil]
    exact ⟨fun _ => trivial, fun _ _ => ha⟩
  | cons e es ih =>
    intro a ha
    constructor
    · intro h
      have hnext : P (astep a e).1 := h 1
      exact ⟨(hstep a e ha).1 hnext, (ih _ hnext).1 fun n => h (n + 1)⟩
    · rintro ⟨hok, hal⟩ n
      have hnext := (hstep a e ha).2 hok
      cases n with
      | zero => exact ha
      | succ n => exact (ih _ hnext).2 hal n

/-- **The invariant rule, under a condition.** What every step that meets
the condition keeps holds in all states of a run that meets it. -/
theorem inv_prefixes {ok : α → ε → Prop} (hstep : ∀ a e, P a → ok a e → P (astep a e).1) :
    ∀ (es : List ε) (a : α), P a → astep.Along ok a es → ∀ n, P (astep.run a (es.take n)).1 := by
  intro es
  induction es with
  | nil =>
    intro a ha _ n
    rw [List.take_nil]
    exact ha
  | cons e es ih =>
    intro a ha hal n
    cases n with
    | zero => exact ha
    | succ n => exact ih _ (hstep a e ha hal.1) hal.2 n

/-- **The exact invariant rule, with a condition on the steps.** Steps that
meet `ok` are good and keep the invariant, and no other step is good and
leads to a good state: a run is good in all its states and steps exactly
when every step meets `ok`. -/
theorem prefixes_iff {I : α → Prop} {Q ok : α → ε → Prop} (hP : ∀ a, I a → P a)
    (hok : ∀ a e, I a → ok a e → Q a e ∧ I (astep a e).1)
    (hbad : ∀ a e, I a → Q a e → P (astep a e).1 → ok a e) :
    ∀ (es : List ε) (a : α), I a →
      (((∀ n, P (astep.run a (es.take n)).1) ∧ astep.Along Q a es) ↔ astep.Along ok a es) := by
  intro es
  induction es with
  | nil =>
    intro a ha
    simp only [List.take_nil]
    exact ⟨fun _ => trivial, fun _ => ⟨fun _ => hP a ha, trivial⟩⟩
  | cons e es ih =>
    intro a ha
    constructor
    · rintro ⟨hruns, hQ⟩
      have hoke : ok a e := hbad a e ha hQ.1 (hruns 1)
      exact ⟨hoke, (ih _ (hok a e ha hoke).2).1 ⟨fun n => hruns (n + 1), hQ.2⟩⟩
    · rintro ⟨hoke, hal⟩
      obtain ⟨hQ, hnext⟩ := hok a e ha hoke
      obtain ⟨hruns, hQs⟩ := (ih _ hnext).2 hal
      refine ⟨fun n => ?_, hQ, hQs⟩
      cases n with
      | zero => exact hP a ha
      | succ n => exact hruns n

end TotalMachine

end GameServer
