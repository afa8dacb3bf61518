import GameServer.GuanDan.Turns
/-!
# Guandan — the stages of a hand

A hand is dealt, has tribute if the last one had a result, and is played
until a side is out or the hand is broken off. `Stage` says what holds in
each stage; a step with orderly messages keeps it (`Goes`), so that no
search and no array fails, and leads from one stage to another in four
ways only (`Leads`).
-/

namespace GameServer.GuanDan.TableSink

variable {s s' t : TableSink} {l : HandLog} {chair c p : Chair} {cards magic : List UInt8}
  {out : List Output}

/-! ## Stages of a hand -/

/-- Between two hands. -/
structure Free (s : TableSink) : Prop where
  status : s.gameStatus = .free
  timers : ∀ timer, s.timers timer = false
  current : s.currentUser = none
  cards : s.magicCardData = []
  mark : s.mark = 0

/-- The cards are dealt, and the hand has not begun. -/
structure Dealt (s : TableSink) : Prop where
  status : s.gameStatus = .sendCard
  back : s.timers .backTribute = false
  current : s.currentUser = none
  cards : s.magicCardData = []
  mark : s.mark = 0
  target : ∀ i, s.retTributeTarget i = none
  unpaid : ∀ i, s.tributeStatus i = false
  count : ∀ i, s.handCardCount i = 27

/-- No card is played yet. -/
structure Unplayed (s : TableSink) : Prop where
  friendFirst : s.friendFirst = 0
  cards : s.magicCardData = []
  mark : s.mark = 0

/-- What holds of the sink and of the plays that were sent, in each stage
of a hand. -/
inductive Stage (s : TableSink) (l : HandLog) : Prop
  | free (h : s.Free) (hseat : s.Seated)
  | sendCard (h : s.Dealt) (hseat : s.Seated) (hlog : l = {})
  | tribute (h : s.Paying ∨ s.Returning) (hseat : s.Seated) (hlog : l = {}) (hplay : s.Unplayed)
      (htimer : s.timers .gameStart = false)
  | playing (h : s.InTurn l) (htimer : s.timers .gameStart = false)

theorem SameHand.unplayed (h : s.SameHand t) (hs : s.Unplayed) : t.Unplayed :=
  ⟨h.friendFirst.trans hs.friendFirst, h.magicCardData.trans hs.cards, h.mark.trans hs.mark⟩

theorem Unplayed.inTurn (hs : s.Unplayed) (hstatus : s.gameStatus = .playing)
    (hcurrent : ∃ c, s.currentUser = some c) (hpos : ∀ i, 0 < s.handCardCount i)
    (hle : ∀ i, s.handCardCount i ≤ maxCount) (htotal : ∑ i, s.handCardCount i ≤ fullCount) :
    s.InTurn {} := by
  have hholds : ∀ i, s.holds i = true := fun i => holds_iff.2 (hpos i).ne'
  obtain ⟨c, hc⟩ := hcurrent
  refine ⟨⟨fun i => ?_, List.nodup_nil, ?_, hs.mark, hle, htotal⟩, hstatus,
    fun i => Or.inl (hholds i), Turn.start c rfl hs.cards hs.friendFirst hc (hholds c)⟩
  · rw [hholds i]
    exact iff_of_false List.not_mem_nil nofun
  · rw [hs.mark]
    rfl

theorem Started.inTurn (hs : s.Started) (hplay : s.Unplayed) : s.InTurn {} :=
  hplay.inTurn hs.status hs.current (fun i => by have := (hs.count i).1; omega)
    (fun i => (hs.count i).2) hs.total.le

/-! ## The end of a hand -/

theorem seated_clearRounds (s : TableSink) : s.clearRounds.Seated := by
  have htwo : (0 : Chair) + 2 ≠ 0 := by decide
  exact ⟨fun _ => Or.inr rfl, fun _ => htwo⟩

theorem seated_rankUsers (s : TableSink) : s.rankUsers.Seated := by
  have htwo : ∀ a b : Chair, a = b + 2 ↔ b = a + 2 := by decide
  rw [rankUsers]
  split_ifs with hdouble hsingle
  · refine ⟨fun _ => Or.inl ?_, nofun⟩
    simpa using (htwo _ _).1 hdouble
  · refine ⟨nofun, fun _ => ?_⟩
    simpa using fun h => hdouble h.symm
  · exact ⟨nofun, nofun⟩

theorem Seated.upgrade (hs : s.Seated) : s.upgrade.Seated := by
  rw [TableSink.upgrade]
  split_ifs
  · exact ⟨nofun, nofun⟩
  · exact ⟨hs.shuangXia, hs.danXia⟩
  · exact ⟨hs.shuangXia, hs.danXia⟩

@[simp] theorem rankUsers_timers (s : TableSink) : s.rankUsers.timers = s.timers := by
  rw [rankUsers]
  split_ifs
  all_goals rfl

@[simp] theorem upgrade_timers (s : TableSink) : s.upgrade.timers = s.timers := by
  rw [upgrade]
  split_ifs
  all_goals rfl

/-- The end of a hand in play, whether a reset follows or not. -/
theorem concludeNormal_spec (scores : Chair → ℤ) (htimers : ∀ timer, s.timers timer = false) :
    ∃ t ranking series, s.concludeNormal scores = (t, [.gameEnd .normal ranking series]) ∧
      t.Free ∧ t.Seated := by
  have hrest : ∀ timer, s.rankUsers.upgrade.timers timer = false := by simpa using htimers
  refine ⟨_, _, _, rfl, ?_⟩
  by_cases hshort : s.rankUsers.upgrade.moneyShort scores = true
  · rw [if_pos hshort]
    have hseat := s.rankUsers.upgrade.seated_clearRounds
    exact ⟨⟨rfl, hrest, rfl, rfl, rfl⟩, ⟨hseat.shuangXia, hseat.danXia⟩⟩
  · rw [if_neg hshort]
    have hseat := s.seated_rankUsers.upgrade
    exact ⟨⟨rfl, hrest, rfl, rfl, rfl⟩, ⟨hseat.shuangXia, hseat.danXia⟩⟩

theorem onEventGameConclude_normal (scores : Chair → ℤ)
    (htotal : ∑ i, s.handCardCount i ≤ fullCount) :
    s.onEventGameConclude .normal scores =
      some ({ s with timers := fun _ => false }.concludeNormal scores) := by
  rw [Fin.sum_univ_four] at htotal
  simp only [onEventGameConclude, if_neg (not_lt.2 htotal)]

/-- **A hand that is broken off** leaves no result. -/
theorem onEventGameConclude_broken {reason : EndReason} (hreason : reason ≠ .normal)
    (scores : Chair → ℤ) (htotal : ∑ i, s.handCardCount i ≤ fullCount) :
    ∃ t ranking series, s.onEventGameConclude reason scores =
      some (t, [.gameEnd reason ranking series]) ∧ t.Free ∧ t.result = none ∧ t.series = {} := by
  rw [Fin.sum_univ_four] at htotal
  simp only [onEventGameConclude, if_neg (not_lt.2 htotal)]
  cases reason with
  | normal => exact absurd rfl hreason
  | dismiss => exact ⟨_, _, _, rfl, ⟨rfl, fun _ => rfl, rfl, rfl, rfl⟩, rfl, rfl⟩
  | userLeave => exact ⟨_, _, _, rfl, ⟨rfl, fun _ => rfl, rfl, rfl, rfl⟩, rfl, rfl⟩

/-! ## Steps -/

/-- Messages for tribute come from those who are to pay or to return, and
the analysis of a play stays in its arrays. -/
def Orderly (s : TableSink) : Event → Prop
  | .payTribute chair playing _ => playing = true → s.tributeStatus chair = false →
      s.gameStatus = .tribute ∧ chair ∈ s.payers
  | .returnTribute chair playing _ => playing = true → s.tributeStatus chair = false →
      s.gameStatus = .tribute ∧ s.retTributeTarget chair ≠ none
  | .outCard chair _ _ cards _ => s.currentUser = some chair → s.legalPlay cards ≠ none
  | _ => True

/-- A step without an end of the hand. -/
structure Keeps (s s' : TableSink) (out : List Output) : Prop where
  series : s'.series = s.series
  quiet : ∀ o ∈ out, o.isEnd = false
  free : s'.gameStatus = .free ↔ s.gameStatus = .free
  banker : s.gameStatus = .free → s'.bankerUser = s.bankerUser
  rounds : s'.gameStatus ≠ .playing → s.gameStatus ≠ .playing ∧ s'.result = s.result ∧
    s'.ranking = s.ranking ∧ s'.payTribute = s.payTribute
  moves : s.gameStatus = .tribute → ∀ o ∈ out, o.Moves s.payers s.receivers
  level : s.gameStatus = .tribute → s'.gameStatus = .playing →
    (∃ c, s'.currentUser = some c) ∧ (s.receivers.Nodup → ∀ i, s'.handCardCount i = 27)
  opens : s.gameStatus = .sendCard → s'.gameStatus = .playing →
    s'.handCardCount = s.handCardCount

/-- What a step leads to: the hand goes on, a side was out, or the hand was
broken off. -/
inductive Leads (s s' : TableSink) (out : List Output) : Prop
  | keeps (h : s.Keeps s' out)
  | ends (t : TableSink) (scores : Chair → ℤ) (pre : List Output)
      (hstatus : s.gameStatus = .playing) (hseries : t.series = s.series)
      (hside : t.ranking 1 = t.ranking 0 + 2 ∨
        (t.ranking 1 ≠ t.ranking 0 ∧ t.ranking 1 ≠ t.ranking 0 + 2 ∧
          (t.ranking 2 = t.ranking 0 + 2 ∨ t.ranking 2 = t.ranking 1 + 2)))
      (hquiet : ∀ o ∈ pre, o.isEnd = false)
      (hs' : s' = (t.concludeNormal scores).1) (hout : out = pre ++ (t.concludeNormal scores).2)
  | broken (reason : EndReason) (ranking : Fin 4 → Chair) (series : Series)
      (hreason : reason ≠ .normal) (hfree : s'.gameStatus = .free) (hresult : s'.result = none)
      (hseries : s'.series = {}) (hout : out = [.gameEnd reason ranking series])

/-- A step is taken, keeps the stages, and leads somewhere. -/
def Goes (s : TableSink) (l : HandLog) (r : Option (TableSink × List Output)) : Prop :=
  ∃ s' out, r = some (s', out) ∧ s'.Stage (l.read out) ∧ s.Leads s' out

theorem Keeps.refl (s : TableSink) : s.Keeps s [] :=
  ⟨rfl, fun _ h => absurd h List.not_mem_nil, Iff.rfl, fun _ => rfl, fun h => ⟨h, rfl, rfl, rfl⟩,
    fun _ _ h => absurd h List.not_mem_nil, fun h h' => absurd (h.symm.trans h') nofun,
    fun _ _ => rfl⟩

theorem Stage.goes_same (hs : s.Stage l) : s.Goes l (some (s, [])) :=
  ⟨s, [], rfl, hs, Leads.keeps (Keeps.refl s)⟩

theorem keeps_playing (hstatus : s.gameStatus = .playing) (hstatus' : s'.gameStatus = .playing)
    (hseries : s'.series = s.series) (hquiet : ∀ o ∈ out, o.isEnd = false) : s.Keeps s' out := by
  refine ⟨hseries, hquiet, ?_, fun h => ?_, fun h => absurd hstatus' h, fun h => ?_, fun h => ?_,
    fun h => ?_⟩
  · rw [hstatus, hstatus']
  · exact absurd (hstatus.symm.trans h) nofun
  · exact absurd (hstatus.symm.trans h) nofun
  · exact absurd (hstatus.symm.trans h) nofun
  · exact absurd (hstatus.symm.trans h) nofun

theorem Goes.of_kill (timer : Timer) {r : Option (TableSink × List Output)}
    (h : (s.killGameTimer timer).Goes l r) : s.Goes l r := by
  obtain ⟨s', out, hr, hstage, hleads⟩ := h
  refine ⟨s', out, hr, hstage, ?_⟩
  cases hleads with
  | keeps h =>
    exact Leads.keeps ⟨h.series, h.quiet, h.free, h.banker, h.rounds, h.moves, h.level, h.opens⟩
  | ends t scores pre h₁ h₂ h₃ h₄ h₅ h₆ => exact Leads.ends t scores pre h₁ h₂ h₃ h₄ h₅ h₆
  | broken reason ranking series h₁ h₂ h₃ h₄ h₅ =>
    exact Leads.broken reason ranking series h₁ h₂ h₃ h₄ h₅

/-- **A play message**: the stage goes on, or the hand ends. -/
theorem InTurn.onSubOutCard (hs : s.InTurn l) (htimer : s.timers .gameStart = false)
    (hlegal : s.currentUser = some chair → s.legalPlay cards ≠ none) (scores : Chair → ℤ) :
    s.Goes l (s.onSubOutCard chair cards scores) := by
  rw [TableSink.onSubOutCard]
  obtain hplay | ⟨t, out, hplay, hafter⟩ := hs.outCard hlegal
  · rw [hplay]
    exact (Stage.playing hs htimer).goes_same
  · rw [hplay]
    cases huser : t.currentUser with
    | none =>
      have hend := onEventGameConclude_normal scores hafter.ranked.total
      obtain ⟨t', ranking, series, hnormal, hfree, hseat⟩ :=
        concludeNormal_spec (s := { t with timers := fun _ => false }) scores fun _ => rfl
      refine ⟨t', out ++ [.gameEnd .normal ranking series], ?_, Stage.free hfree hseat, ?_⟩
      · simp only [huser]
        rw [hend, Option.map_some, hnormal]
      exact Leads.ends { t with timers := fun _ => false } scores out hs.status hafter.same.series
        (hafter.side hs huser) hafter.quiet (by rw [hnormal]) (by rw [hnormal])
    | some user =>
      have hin := hafter.goesOn (by rw [huser]; nofun)
      exact ⟨t.setGameTimer .outCard, out, by simp [huser],
        Stage.playing (hin.timers _) (hafter.same.gameStart.trans htimer),
        Leads.keeps (keeps_playing hs.status hin.status hafter.same.series hafter.quiet)⟩

/-- **A player who is played for** leads his last card or passes. -/
theorem InTurn.onOutCardTimeOut (hs : s.InTurn l) (htimer : s.timers .gameStart = false)
    (scores : Chair → ℤ) : s.Goes l (s.onOutCardTimeOut scores) := by
  obtain ⟨c, hc, hholds⟩ := hs.current
  have hpos : s.handCardCount c ≠ 0 := holds_iff.1 hholds
  have hle := hs.count_le c
  have hkilled : (s.killGameTimer .outCard).InTurn l := hs.timers _
  rw [TableSink.onOutCardTimeOut, if_pos hs.status]
  change s.Goes l (if s.magicCardData = [] then _ else _)
  by_cases hcards : s.magicCardData = []
  · rw [if_pos hcards]
    have hlegal : ∀ card, (s.killGameTimer .outCard).legalPlay [card] ≠ none := by
      intro card
      rw [legalPlay_single (s := s.killGameTimer .outCard) hcards]
      nofun
    simp only [show (s.killGameTimer .outCard).currentUser = some c from hc]
    change s.Goes l (if s.handCardCount c = 0 ∨ maxCount < s.handCardCount c then none else _)
    rw [if_neg (by omega)]
    exact (hkilled.onSubOutCard htimer (fun _ => hlegal _) scores).of_kill _
  · rw [if_neg hcards]
    obtain ⟨s', out, hpass, hin, hsame, hquiet⟩ := hkilled.onSubPassCard c
    refine ⟨s', out, ?_, Stage.playing hin (hsame.gameStart.trans htimer),
      Leads.keeps (keeps_playing hs.status hin.status hsame.series hquiet)⟩
    change (s.killGameTimer .outCard).onSubPassCard s.currentUser = _
    rw [hc, hpass]

theorem onGameStart_of_none (hresult : s.result = none) (rand : ℕ) :
    s.onGameStart rand =
      (s.setUser rand).startOut (s.bankerUser.getD (Fin.ofNat gamePlayer rand)) := by
  rw [onGameStart]
  simp only [show (s.setUser rand).result = none from hresult]

theorem onGameStart_of_kangGong {result : HandResult} (hresult : s.result = some result) (rand : ℕ)
    (hkang : (s.setUser rand).kangGong result = true) :
    s.onGameStart rand =
      (({ s.setUser rand with
          payTribute := fun _ => 0
          currentUser := some (s.ranking 0) }.startOut (s.ranking 0)).1,
        [.kangGong, .startOut (s.ranking 0)]) := by
  rw [onGameStart]
  simp only [show (s.setUser rand).result = some result from hresult]
  rw [if_pos hkang]
  rfl

theorem onGameStart_of_tribute {result : HandResult} (hresult : s.result = some result) (rand : ℕ)
    (hkang : ¬ (s.setUser rand).kangGong result = true) :
    s.onGameStart rand =
      ({ s.setUser rand with currentUser := none, gameStatus := .tribute }.setGameTimer .tribute,
        [.payTributeNotify fun i => s.payTribute i = 2]) := by
  rw [onGameStart]
  simp only [show (s.setUser rand).result = some result from hresult]
  rw [if_neg hkang]
  rfl

theorem payers_ne_nil (h : s.result ≠ none) : ∃ i, i ∈ s.payers := by
  rw [payers]
  cases hresult : s.result with
  | none => exact absurd hresult h
  | some result =>
    cases result with
    | shuangXia => exact ⟨_, List.mem_cons_self⟩
    | danXia => exact ⟨_, List.mem_cons_self⟩
    | other => exact ⟨_, List.mem_cons_self⟩

/-- **The beginning of a hand**: with tribute or with the plays. -/
theorem Dealt.onGameStart (hs : s.Dealt) (hseat : s.Seated)
    (htimer : s.timers .gameStart = false) (rand : ℕ) :
    s.Goes {} (some (s.onGameStart rand)) := by
  have htotal : ∑ i, s.handCardCount i ≤ fullCount := by
    rw [Fin.sum_univ_four, hs.count, hs.count, hs.count, hs.count]
  have hpos : ∀ i, 0 < s.handCardCount i := fun i => by rw [hs.count]; omega
  have hle : ∀ i, s.handCardCount i ≤ maxCount := fun i => by rw [hs.count]; simp [maxCount]
  have hkeeps : ∀ t out, t.series = s.series → (∀ o ∈ out, o.isEnd = false) →
      t.handCardCount = s.handCardCount →
      (t.gameStatus = .playing ∨ (t.gameStatus = .tribute ∧ t.result = s.result ∧
        t.ranking = s.ranking ∧ t.payTribute = s.payTribute)) → s.Leads t out := by
    intro t out hseries hquiet hcount hstatus
    refine Leads.keeps ⟨hseries, hquiet, ?_, fun h => ?_, fun h => ?_, fun h => ?_, fun h => ?_,
      fun _ _ => hcount⟩
    · rw [hs.status]
      obtain h | ⟨h, -⟩ := hstatus
      · rw [h]
        exact iff_of_false nofun nofun
      · rw [h]
        exact iff_of_false nofun nofun
    · exact absurd (hs.status.symm.trans h) nofun
    · rw [hs.status]
      exact ⟨nofun, (hstatus.resolve_left h).2⟩
    · exact absurd (hs.status.symm.trans h) nofun
    · exact absurd (hs.status.symm.trans h) nofun
  cases hresult : s.result with
  | none =>
    rw [onGameStart_of_none hresult]
    refine ⟨_, _, rfl, Stage.playing ?_ htimer,
      hkeeps _ _ rfl (List.forall_mem_singleton.2 rfl) rfl (Or.inl rfl)⟩
    exact Unplayed.inTurn ⟨rfl, hs.cards, hs.mark⟩ rfl ⟨_, rfl⟩ hpos hle htotal
  | some result =>
    by_cases hkang : (s.setUser rand).kangGong result = true
    · rw [onGameStart_of_kangGong hresult rand hkang]
      refine ⟨_, _, rfl, Stage.playing ?_ htimer, hkeeps _ _ rfl (List.forall_mem_cons.2
        ⟨rfl, List.forall_mem_singleton.2 rfl⟩) rfl (Or.inl rfl)⟩
      exact Unplayed.inTurn ⟨rfl, hs.cards, hs.mark⟩ rfl ⟨_, rfl⟩ hpos hle htotal
    · rw [onGameStart_of_tribute hresult rand hkang]
      obtain ⟨i, hi⟩ := payers_ne_nil (by rw [hresult]; nofun : s.result ≠ none)
      refine ⟨_, _, rfl, Stage.tribute (Or.inl ⟨rfl, rfl, hs.back, hs.target, fun i hi => ?_,
        ⟨i, hi, hs.unpaid i⟩, fun i => ?_⟩) ⟨hseat.shuangXia, hseat.danXia⟩ rfl
        ⟨rfl, hs.cards, hs.mark⟩ htimer, hkeeps _ _ rfl (List.forall_mem_singleton.2 rfl) rfl
          (Or.inr ⟨rfl, rfl, rfl, rfl⟩)⟩
      · exact Bool.noConfusion ((hs.unpaid i).symm.trans hi)
      · change s.handCardCount i + (s.tributeStatus i).toNat = 27
        rw [hs.count, hs.unpaid]
        rfl

theorem Stage.killGameTimer (hs : s.Stage l) (timer : Timer) : (s.killGameTimer timer).Stage l := by
  have hfalse : ∀ timer', s.timers timer' = false →
      (s.killGameTimer timer).timers timer' = false := by
    intro timer' h
    change Function.update s.timers timer false timer' = false
    rw [Function.update_apply, h, ite_self]
  cases hs with
  | free h hseat =>
    exact Stage.free ⟨h.status, fun timer' => hfalse timer' (h.timers timer'), h.current, h.cards,
      h.mark⟩ ⟨hseat.shuangXia, hseat.danXia⟩
  | sendCard h hseat hlog =>
    exact Stage.sendCard ⟨h.status, hfalse _ h.back, h.current, h.cards, h.mark, h.target, h.unpaid,
      h.count⟩ ⟨hseat.shuangXia, hseat.danXia⟩ hlog
  | tribute h hseat hlog hplay htimer =>
    refine Stage.tribute ?_ ⟨hseat.shuangXia, hseat.danXia⟩ hlog
      ⟨hplay.friendFirst, hplay.cards, hplay.mark⟩ (hfalse _ htimer)
    obtain h | h := h
    · exact Or.inl ⟨h.status, h.current, hfalse _ h.back, h.target, h.mem, h.waits, h.count⟩
    · exact Or.inr ⟨⟨h.paid, h.mem, h.target_isSome, h.target_mem, h.target_inj, h.covered, h.bigID,
        h.count, h.total⟩, h.status, h.current, h.waits⟩
  | playing h htimer => exact Stage.playing (h.timers _) (hfalse _ htimer)

theorem Stage.total_le (hs : s.Stage l) (hfree : s.gameStatus ≠ .free) :
    ∑ i, s.handCardCount i ≤ fullCount := by
  have hfull : fullCount = 108 := rfl
  cases hs with
  | free h => exact absurd h.status hfree
  | sendCard h =>
    have := h.count
    rw [Fin.sum_univ_four, h.count, h.count, h.count, h.count]
  | tribute h =>
    obtain h | h := h
    · have hcount := h.count
      rw [Fin.sum_univ_four]
      have h₀ := hcount 0
      have h₁ := hcount 1
      have h₂ := hcount 2
      have h₃ := hcount 3
      omega
    · exact h.total.le
  | playing h => exact h.total

theorem Stage.current_or (hs : s.Stage l) :
    s.currentUser = none ∨ (s.InTurn l ∧ s.timers .gameStart = false) := by
  cases hs with
  | free h => exact Or.inl h.current
  | sendCard h => exact Or.inl h.current
  | tribute h => exact Or.inl (h.elim Paying.current Returning.current)
  | playing h htimer => exact Or.inr ⟨h, htimer⟩

theorem keeps_tribute (hstatus : s.gameStatus = .tribute)
    (hstatus' : s'.gameStatus = .tribute ∨ s'.Started) (hsame : s.SameHand s')
    (hout : ∀ o ∈ out, o.Moves s.payers s.receivers) : s.Keeps s' out := by
  have hfree : s'.gameStatus ≠ .free := by
    obtain h | h := hstatus'
    · rw [h]
      nofun
    · rw [h.status]
      nofun
  refine ⟨hsame.series, fun o ho => ?_, ?_, fun h => ?_, fun h => ?_, fun _ => hout,
    fun _ h => ?_, fun h => absurd (hstatus.symm.trans h) nofun⟩
  · have := hout o ho
    cases o with
    | gameEnd => exact False.elim this
    | _ => rfl
  · rw [hstatus]
    exact iff_of_false hfree nofun
  · exact absurd (hstatus.symm.trans h) nofun
  · rw [hstatus]
    exact ⟨nofun, hsame.result, hsame.ranking, hsame.payTribute⟩
  · obtain h' | h' := hstatus'
    · exact absurd (h.symm.trans h') nofun
    · refine ⟨h'.current, fun hnodup => h'.level ?_⟩
      rwa [hsame.receivers]

/-- What a step does that does not pass over its event. -/
inductive Takes (s s' : TableSink) (out : List Output) : Event → Prop
  | gameStart {rand} (hfree : s.gameStatus = .free)
      (h : some (s.onEventGameStart rand, [Output.sendCard s.series]) = some (s', out)) :
      s.Takes s' out (.gameStart rand)
  | timer {timer rand scores} (harmed : s.timers timer = true)
      (h : s.onTimerMessage timer rand scores = some (s', out)) :
      s.Takes s' out (.timer timer rand scores)
  | outCard {chair playing cardCount cards scores}
      (hread : cards.length = cardCount.toNat ∧ playing = true)
      (h : s.onSubOutCard chair cards scores = some (s', out)) :
      s.Takes s' out (.outCard chair playing cardCount cards scores)
  | passCard {chair playing} (h : s.onSubPassCard (some chair) = some (s', out)) :
      s.Takes s' out (.passCard chair playing)
  | payTribute {chair playing card} (hread : playing = true) (hpaying : s.Paying)
      (hseat : s.Seated) (hmem : chair ∈ s.payers) (hunpaid : s.tributeStatus chair = false)
      (h : s.onSubPayTribute chair card = some (s', out)) :
      s.Takes s' out (.payTribute chair playing card)
  | returnTribute {chair playing card} (hread : playing = true) (hreturning : s.Returning)
      (hseat : s.Seated) (hmem : chair ∈ s.receivers) (hunpaid : s.tributeStatus chair = false)
      (h : s.onSubReturnTribute chair card = some (s', out)) :
      s.Takes s' out (.returnTribute chair playing card)
  -- a user who has returned lets the plays begin
  | startOut {chair playing card c} (hstatus : s.gameStatus = .playing)
      (h : some ((s.killGameTimer .backTribute).startOut c) = some (s', out)) :
      s.Takes s' out (.returnTribute chair playing card)
  | trustee {chair playing trustee scores} (hread : playing = true ∧ s.handCardCount chair ≠ 0 ∧
      s.currentUser = some chair ∧ trustee = true)
      (h : s.onOutCardTimeOut scores = some (s', out)) :
      s.Takes s' out (.trustee chair playing trustee scores)
  | sendGameScene {cellScore} (hfree : s.gameStatus = .free)
      (h : some ({ s with baseScore := cellScore }, ([] : List Output)) = some (s', out)) :
      s.Takes s' out (.sendGameScene cellScore)
  | dismiss (h : s.onEventGameConclude .dismiss (fun _ => 0) = some (s', out)) :
      s.Takes s' out .dismiss
  | userLeave (h : s.onEventGameConclude .userLeave (fun _ => 0) = some (s', out)) :
      s.Takes s' out .userLeave

section

variable (hs : s.Stage l)
include hs

/-- **A payment message.** -/
theorem Stage.pay (hok : s.tributeStatus chair = false →
    s.gameStatus = .tribute ∧ chair ∈ s.payers) (card : UInt8) :
    s.Goes l (s.onSubPayTribute chair card) := by
  by_cases hpaid : s.tributeStatus chair = true
  · rw [onSubPayTribute, if_pos hpaid]
    exact hs.goes_same
  · have hunpaid : s.tributeStatus chair = false := Bool.eq_false_iff.2 hpaid
    obtain ⟨hstatus, hmem⟩ := hok hunpaid
    cases hs with
    | free h => exact absurd (h.status.symm.trans hstatus) (by simp)
    | sendCard h => exact absurd (h.status.symm.trans hstatus) (by simp)
    | tribute h hseat hlog hplay htimer =>
      obtain h | h := h
      · obtain ⟨s', out, hpay, hs', hsame, hout⟩ := h.pay hseat hmem hunpaid card
        refine ⟨s', out, hpay, ?_, Leads.keeps (keeps_tribute hstatus
          (Or.inl (hs'.elim Paying.status Returning.status)) hsame hout)⟩
        rw [HandLog.read_moves hout]
        exact Stage.tribute hs' (hsame.seated hseat) hlog (hsame.unplayed hplay)
          (hsame.gameStart.trans htimer)
      · exact absurd (h.paid chair hmem) hpaid
    | playing h => exact absurd (h.status.symm.trans hstatus) (by simp)

/-- **A return message.** -/
theorem Stage.giveBack (hok : s.tributeStatus chair = false →
    s.gameStatus = .tribute ∧ s.retTributeTarget chair ≠ none) (card : UInt8) :
    s.Goes l (s.onSubReturnTribute chair card) := by
  by_cases hreturned : s.tributeStatus chair = true
  · rw [onSubReturnTribute, if_pos hreturned, Option.map_some]
    obtain hcurrent | ⟨hin, htimer⟩ := hs.current_or
    · simp only [hcurrent]
      exact hs.goes_same
    · obtain ⟨c, hc, -⟩ := hin.current
      have hstart : ((s.killGameTimer .backTribute).startOut c).1 =
          (s.killGameTimer .backTribute).setGameTimer .outCard := by
        rw [startOut, ← hin.status]
        rfl
      simp only [hc]
      refine ⟨_, _, rfl, ?_, ?_⟩
      · rw [hstart]
        exact Stage.playing (hin.timers _) htimer
      · exact Leads.keeps (keeps_playing hin.status rfl rfl (List.forall_mem_singleton.2 rfl))
  · have hunreturned : s.tributeStatus chair = false := Bool.eq_false_iff.2 hreturned
    obtain ⟨hstatus, htarget⟩ := hok hunreturned
    cases hs with
    | free h => exact absurd (h.status.symm.trans hstatus) (by simp)
    | sendCard h => exact absurd (h.status.symm.trans hstatus) (by simp)
    | tribute h hseat hlog hplay htimer =>
      obtain h | h := h
      · exact absurd (h.target chair) htarget
      · obtain ⟨s', out, hback, hs', hsame, hout⟩ :=
          h.giveBack hseat ((h.target_isSome chair).2 htarget) hunreturned card
        refine ⟨s', out, hback, ?_, Leads.keeps (keeps_tribute hstatus
          (hs'.imp_left Returning.status) hsame hout)⟩
        rw [HandLog.read_moves hout]
        obtain hs' | hs' := hs'
        · exact Stage.tribute (Or.inr hs') (hsame.seated hseat) hlog (hsame.unplayed hplay)
            (hsame.gameStart.trans htimer)
        · rw [hlog]
          exact Stage.playing (hs'.inTurn (hsame.unplayed hplay)) (hsame.gameStart.trans htimer)
    | playing h => exact absurd (h.status.symm.trans hstatus) (by simp)

theorem Stage.of_tribute (hstatus : s.gameStatus = .tribute) :
    (s.Paying ∨ s.Returning) ∧ s.Seated ∧ s.Unplayed ∧ s.timers .gameStart = false := by
  cases hs with
  | free h => exact absurd (h.status.symm.trans hstatus) nofun
  | sendCard h => exact absurd (h.status.symm.trans hstatus) nofun
  | tribute h hseat _ hplay htimer => exact ⟨h, hseat, hplay, htimer⟩
  | playing h => exact absurd (h.status.symm.trans hstatus) nofun

/-- While the timer of the returns is set, the tributes have been paid. -/
theorem Stage.returning_of_backTribute (hstatus : s.gameStatus = .tribute)
    (harmed : s.timers .backTribute = true) : (s.killGameTimer .backTribute).Returning := by
  obtain ⟨h | h, -⟩ := hs.of_tribute hstatus
  · exact Bool.noConfusion (h.back.symm.trans harmed)
  · exact ⟨⟨h.paid, h.mem, h.target_isSome, h.target_mem, h.target_inj, h.covered, h.bigID, h.count,
      h.total⟩, h.status, h.current, h.waits⟩

/-- **A timer.** -/
theorem Stage.onTimerMessage {timer : Timer} (harmed : s.timers timer = true) (rand : ℕ)
    (scores : Chair → ℤ) : s.Goes l (s.onTimerMessage timer rand scores) := by
  have hkilled := hs.killGameTimer timer
  refine Goes.of_kill timer ?_
  cases hs with
  | free h => exact Bool.noConfusion ((h.timers timer).symm.trans harmed)
  | sendCard h hseat hlog =>
    have hstatus : (s.killGameTimer timer).gameStatus = .sendCard := h.status
    cases timer with
    | gameStart =>
      have hdealt : (s.killGameTimer .gameStart).Dealt :=
        ⟨h.status, h.back, h.current, h.cards, h.mark, h.target, h.unpaid, h.count⟩
      rw [hlog]
      exact hdealt.onGameStart ⟨hseat.shuangXia, hseat.danXia⟩ rfl rand
    | tribute =>
      rw [TableSink.onTimerMessage, if_neg (by rw [hstatus]; nofun)]
      exact hkilled.goes_same
    | backTribute => exact Bool.noConfusion (h.back.symm.trans harmed)
    | outCard =>
      rw [TableSink.onTimerMessage, onOutCardTimeOut, if_neg (by rw [hstatus]; nofun)]
      exact hkilled.goes_same
  | tribute h hseat hlog hplay htimer =>
    have hstatus : (s.killGameTimer timer).gameStatus = .tribute :=
      h.elim Paying.status Returning.status
    obtain ⟨h', hseat', hplay', htimer'⟩ := hkilled.of_tribute hstatus
    cases timer with
    | gameStart => exact Bool.noConfusion (htimer.symm.trans harmed)
    | tribute =>
      obtain ⟨r, hrun, hr, hsame, hout⟩ := run_payFor h' hseat'
      refine ⟨r.1, r.2, (if_pos hstatus).trans hrun, ?_, Leads.keeps (keeps_tribute hstatus
        (Or.inl (hr.elim Paying.status Returning.status)) hsame hout)⟩
      rw [HandLog.read_moves hout]
      exact Stage.tribute hr (hsame.seated hseat') hlog (hsame.unplayed hplay')
        (hsame.gameStart.trans htimer')
    | backTribute =>
      have hreturning := (Stage.tribute h hseat hlog hplay htimer).returning_of_backTribute hstatus
        harmed
      obtain ⟨r, hrun, hr, hsame, hout⟩ := run_returnFor hreturning hseat'
      refine ⟨r.1, r.2, (if_pos hstatus).trans hrun, ?_, Leads.keeps (keeps_tribute hstatus
        (hr.imp_left Returning.status) hsame hout)⟩
      rw [HandLog.read_moves hout]
      obtain hr | hr := hr
      · exact Stage.tribute (Or.inr hr) (hsame.seated hseat') hlog (hsame.unplayed hplay')
          (hsame.gameStart.trans htimer')
      · rw [hlog]
        exact Stage.playing (hr.inTurn (hsame.unplayed hplay')) (hsame.gameStart.trans htimer')
    | outCard =>
      rw [TableSink.onTimerMessage, onOutCardTimeOut, if_neg (by rw [hstatus]; nofun)]
      exact hkilled.goes_same
  | playing h htimer =>
    have hstatus : (s.killGameTimer timer).gameStatus = .playing := h.status
    have hnot : (s.killGameTimer timer).gameStatus ≠ .tribute := by
      rw [hstatus]
      nofun
    cases timer with
    | gameStart => exact Bool.noConfusion (htimer.symm.trans harmed)
    | tribute =>
      rw [TableSink.onTimerMessage, if_neg hnot]
      exact hkilled.goes_same
    | backTribute =>
      rw [TableSink.onTimerMessage, if_neg hnot]
      exact hkilled.goes_same
    | outCard =>
      have hin : (s.killGameTimer .outCard).InTurn l := h.timers _
      exact hin.onOutCardTimeOut htimer scores

/-- **A play message.** -/
theorem Stage.play (hlegal : s.currentUser = some chair → s.legalPlay cards ≠ none)
    (scores : Chair → ℤ) : s.Goes l (s.onSubOutCard chair cards scores) := by
  obtain hcurrent | ⟨hin, htimer⟩ := hs.current_or
  · have hnot : s.gameStatus ≠ .playing ∨ s.currentUser ≠ some chair :=
      Or.inr (by rw [hcurrent]; nofun)
    rw [onSubOutCard, outCard, if_pos hnot]
    exact hs.goes_same
  · exact hin.onSubOutCard htimer hlegal scores

/-- **A pass message.** -/
theorem Stage.pass (chair : Chair) : s.Goes l (s.onSubPassCard (some chair)) := by
  obtain hcurrent | ⟨hin, htimer⟩ := hs.current_or
  · rw [onSubPassCard, if_pos (Or.inr (Or.inl (by rw [hcurrent]; simp)))]
    exact hs.goes_same
  · obtain ⟨s', out, hpass, hin', hsame, hquiet⟩ := hin.onSubPassCard chair
    exact ⟨s', out, hpass, Stage.playing hin' (hsame.gameStart.trans htimer),
      Leads.keeps (keeps_playing hin.status hin'.status hsame.series hquiet)⟩

/-- **A hand that is broken off.** -/
theorem Stage.conclude (hfree : s.gameStatus ≠ .free) {reason : EndReason}
    (hreason : reason ≠ .normal) (scores : Chair → ℤ) :
    s.Goes l (s.onEventGameConclude reason scores) := by
  obtain ⟨t, ranking, series, hend, ht, hresult, hseries⟩ :=
    onEventGameConclude_broken hreason scores (hs.total_le hfree)
  refine ⟨t, _, hend, Stage.free ht ⟨fun h => ?_, fun h => ?_⟩,
    Leads.broken reason ranking series hreason ht.status hresult hseries rfl⟩
  · exact absurd (hresult.symm.trans h) nofun
  · exact absurd (hresult.symm.trans h) nofun

theorem Stage.of_free (hfree : s.gameStatus = .free) : s.Free ∧ s.Seated := by
  cases hs with
  | free h hseat => exact ⟨h, hseat⟩
  | sendCard h => exact absurd (h.status.symm.trans hfree) nofun
  | tribute h => exact absurd ((h.elim Paying.status Returning.status).symm.trans hfree) nofun
  | playing h => exact absurd (h.status.symm.trans hfree) nofun

/-- **The deal.** -/
theorem Stage.deal (hfree : s.gameStatus = .free) (rand : ℕ → ℕ) :
    (s.onEventGameStart rand).Stage {} := by
  obtain ⟨h, hseat⟩ := hs.of_free hfree
  exact Stage.sendCard ⟨rfl, h.timers _, h.current, h.cards, rfl, fun _ => rfl, fun _ => rfl,
    fun _ => rfl⟩ ⟨hseat.shuangXia, hseat.danXia⟩ rfl

/-- A step with orderly messages passes over its event or takes it. -/
theorem Stage.takes {e : Event} (hok : s.Orderly e) (h : step s e = some (s', out)) :
    (s' = s ∧ out = []) ∨ s.Takes s' out e := by
  have hsame : some (s, ([] : List Output)) = some (s', out) →
      (s' = s ∧ out = []) ∨ s.Takes s' out e := by
    intro h
    cases h
    exact .inl ⟨rfl, rfl⟩
  cases e with
  | gameStart rand =>
    by_cases hfree : s.gameStatus = .free
    · exact .inr (.gameStart hfree ((if_pos hfree).symm.trans h))
    · exact hsame ((if_neg hfree).symm.trans h)
  | timer timer rand scores =>
    by_cases harmed : s.timers timer = true
    · exact .inr (.timer harmed ((if_pos harmed).symm.trans h))
    · exact hsame ((if_neg harmed).symm.trans h)
  | outCard chair playing cardCount cards scores =>
    by_cases hread : cards.length = cardCount.toNat ∧ playing = true
    · exact .inr (.outCard hread ((if_pos hread).symm.trans h))
    · exact hsame ((if_neg hread).symm.trans h)
  | passCard chair playing =>
    by_cases hread : playing = true
    · exact .inr (.passCard ((if_pos hread).symm.trans h))
    · exact hsame ((if_neg hread).symm.trans h)
  | payTribute chair playing card =>
    by_cases hread : playing = true
    · have hpay := (if_pos hread).symm.trans h
      by_cases hpaid : s.tributeStatus chair = true
      · rw [onSubPayTribute, if_pos hpaid] at hpay
        exact hsame hpay
      · have hunpaid : s.tributeStatus chair = false := Bool.eq_false_iff.2 hpaid
        obtain ⟨hstatus, hmem⟩ := hok hread hunpaid
        obtain ⟨hpaying | hback, hseat, -⟩ := hs.of_tribute hstatus
        · exact .inr (.payTribute hread hpaying hseat hmem hunpaid hpay)
        · exact absurd (hback.paid chair hmem) hpaid
    · exact hsame ((if_neg hread).symm.trans h)
  | returnTribute chair playing card =>
    by_cases hread : playing = true
    · have hback := (if_pos hread).symm.trans h
      by_cases hreturned : s.tributeStatus chair = true
      · rw [onSubReturnTribute, if_pos hreturned, Option.map_some] at hback
        obtain hcurrent | ⟨hin, -⟩ := hs.current_or
        · simp only [hcurrent] at hback
          exact hsame hback
        · obtain ⟨c, hc, -⟩ := hin.current
          simp only [hc] at hback
          exact .inr (.startOut hin.status hback)
      · have hunreturned : s.tributeStatus chair = false := Bool.eq_false_iff.2 hreturned
        obtain ⟨hstatus, htarget⟩ := hok hread hunreturned
        obtain ⟨hpaying | hreturning, hseat, -⟩ := hs.of_tribute hstatus
        · exact absurd (hpaying.target chair) htarget
        · exact .inr (.returnTribute hread hreturning hseat ((hreturning.target_isSome chair).2 htarget)
            hunreturned hback)
    · exact hsame ((if_neg hread).symm.trans h)
  | trustee chair playing trustee scores =>
    by_cases hread : playing = true ∧ s.handCardCount chair ≠ 0 ∧ s.currentUser = some chair ∧
        trustee = true
    · exact .inr (.trustee hread ((if_pos hread).symm.trans h))
    · exact hsame ((if_neg hread).symm.trans h)
  | sendGameScene cellScore =>
    by_cases hfree : s.gameStatus = .free
    · exact .inr (.sendGameScene hfree ((if_pos hfree).symm.trans h))
    · exact hsame ((if_neg hfree).symm.trans h)
  | dismiss =>
    by_cases hfree : s.gameStatus = .free
    · exact hsame ((if_pos hfree).symm.trans h)
    · exact .inr (.dismiss ((if_neg hfree).symm.trans h))
  | userLeave =>
    by_cases hfree : s.gameStatus = .free
    · exact hsame ((if_pos hfree).symm.trans h)
    · exact .inr (.userLeave ((if_neg hfree).symm.trans h))

/-- **A step** with orderly messages, but for a deal, keeps the stages. -/
theorem step_goes {e : Event} (hok : s.Orderly e) (hdeal : ∀ rand, e ≠ .gameStart rand) :
    s.Goes l (step s e) := by
  cases e with
  | gameStart rand => exact absurd rfl (hdeal rand)
  | timer timer rand scores =>
    by_cases harmed : s.timers timer = true
    · rw [step, if_pos harmed]
      exact hs.onTimerMessage harmed rand scores
    · rw [step, if_neg harmed]
      exact hs.goes_same
  | outCard chair playing cardCount cards scores =>
    by_cases h : cards.length = cardCount.toNat ∧ playing = true
    · rw [step, if_pos h]
      exact hs.play hok scores
    · rw [step, if_neg h]
      exact hs.goes_same
  | passCard chair playing =>
    by_cases h : playing = true
    · rw [step, if_pos h]
      exact hs.pass chair
    · rw [step, if_neg h]
      exact hs.goes_same
  | payTribute chair playing card =>
    by_cases h : playing = true
    · rw [step, if_pos h]
      exact hs.pay (hok h) card
    · rw [step, if_neg h]
      exact hs.goes_same
  | returnTribute chair playing card =>
    by_cases h : playing = true
    · rw [step, if_pos h]
      exact hs.giveBack (hok h) card
    · rw [step, if_neg h]
      exact hs.goes_same
  | trustee chair playing trustee scores =>
    by_cases h : playing = true ∧ s.handCardCount chair ≠ 0 ∧ s.currentUser = some chair ∧
        trustee = true
    · rw [step, if_pos h]
      obtain hcurrent | ⟨hin, htimer⟩ := hs.current_or
      · exact absurd (hcurrent.symm.trans h.2.2.1) nofun
      · exact hin.onOutCardTimeOut htimer scores
    · rw [step, if_neg h]
      exact hs.goes_same
  | sendGameScene cellScore =>
    by_cases hfree : s.gameStatus = .free
    · obtain ⟨h, hseat⟩ := hs.of_free hfree
      refine ⟨_, _, if_pos hfree, Stage.free ⟨h.status, h.timers, h.current, h.cards, h.mark⟩
        ⟨hseat.shuangXia, hseat.danXia⟩, ?_⟩
      have hsame := Keeps.refl s
      exact Leads.keeps ⟨hsame.series, hsame.quiet, hsame.free, hsame.banker, hsame.rounds,
        hsame.moves, hsame.level, hsame.opens⟩
    · rw [step, if_neg hfree]
      exact hs.goes_same
  | dismiss =>
    by_cases hfree : s.gameStatus = .free
    · rw [step, if_pos hfree]
      exact hs.goes_same
    · rw [step, if_neg hfree]
      exact hs.conclude hfree (show EndReason.dismiss ≠ .normal from nofun) _
  | userLeave =>
    by_cases hfree : s.gameStatus = .free
    · rw [step, if_pos hfree]
      exact hs.goes_same
    · rw [step, if_neg hfree]
      exact hs.conclude hfree (show EndReason.userLeave ≠ .normal from nofun) _

/-- **A step** with orderly messages is taken, and keeps the stages. -/
theorem step_keeps_stage {e : Event} (hok : s.Orderly e) :
    ∃ s' out, step s e = some (s', out) ∧ s'.Stage (l.read out) := by
  by_cases hdeal : ∀ rand, e ≠ .gameStart rand
  · obtain ⟨s', out, hstep, hstage, -⟩ := step_goes hs hok hdeal
    exact ⟨s', out, hstep, hstage⟩
  · obtain ⟨rand, rfl⟩ : ∃ rand, e = .gameStart rand := by simpa using hdeal
    by_cases hfree : s.gameStatus = .free
    · exact ⟨_, _, if_pos hfree, hs.deal hfree rand⟩
    · exact ⟨s, [], if_neg hfree, hs⟩

end

/-! ## The order of turns -/

/-- Who has the turn, when a turn is new, and when the hand ends, against
the plays and passes that were sent. -/
structure TurnOrder (s : TableSink) (l : HandLog) : Prop where
  current : ∃ c, s.currentUser = some c ∧ s.handCardCount c ≠ 0
  searches : ∀ start, s.nextUser start ≠ none
  first : l.lastPlay = none → s.magicCardData = []
  newTurn : ∀ p, l.lastPlay = some p →
    (s.magicCardData = [] ↔ ∀ i, s.handCardCount i ≠ 0 → i ≠ p → i ∈ l.passed)
  lead : ∀ p, l.lastPlay = some p → s.magicCardData = [] →
    s.currentUser = some (if s.handCardCount p ≠ 0 then p else p + 2)
  sides : ¬ ∃ i, s.handCardCount i = 0 ∧ s.handCardCount (i + 2) = 0
  ranking : l.finished = (List.ofFn s.ranking).take s.mark
  finished : ∀ i, i ∈ l.finished ↔ s.handCardCount i = 0
  ends : ∀ chair cards scores t out, s.outCard chair cards = some (some (t, out)) →
    ∃ s' rest, s.onSubOutCard chair cards scores = some (s', out ++ rest) ∧
      ((∃ ranking series, .gameEnd .normal ranking series ∈ rest) ↔
        ∃ i, t.handCardCount i = 0 ∧ t.handCardCount (i + 2) = 0) ∧
      (l.read out).finished = (List.ofFn t.ranking).take t.mark ∧
      ∀ i, i ∈ (l.read out).finished ↔ t.handCardCount i = 0

/-- The end of a hand in play, when a side is out. -/
theorem InTurn.ends (hs : s.InTurn l) (scores : Chair → ℤ)
    (hplay : s.outCard chair cards = some (some (t, out))) :
    ∃ s' rest, s.onSubOutCard chair cards scores = some (s', out ++ rest) ∧
      ((∃ ranking series, .gameEnd .normal ranking series ∈ rest) ↔
        ∃ i, t.handCardCount i = 0 ∧ t.handCardCount (i + 2) = 0) ∧
      (l.read out).finished = (List.ofFn t.ranking).take t.mark ∧
      ∀ i, i ∈ (l.read out).finished ↔ t.handCardCount i = 0 := by
  have hlegal : s.currentUser = some chair → s.legalPlay cards ≠ none := by
    intro hc hnone
    rw [TableSink.outCard, if_neg (by simp [hs.status, hc])] at hplay
    simp [hnone] at hplay
  obtain hnot | ⟨t', out', hplay', hafter⟩ := hs.outCard hlegal
  · rw [hnot] at hplay
    cases hplay
  · rw [hplay] at hplay'
    cases hplay'
    have hfinished : ∀ i, i ∈ (l.read out).finished ↔ t.handCardCount i = 0 := fun i =>
      (hafter.ranked.finished i).trans holds_eq_false
    have hend := hafter.ends
    simp only [holds_eq_false] at hend
    rw [TableSink.onSubOutCard, hplay]
    cases huser : t.currentUser with
    | none =>
      obtain ⟨t', ranking, series, hnormal, -, -⟩ :=
        concludeNormal_spec (s := { t with timers := fun _ => false }) scores fun _ => rfl
      refine ⟨t', [.gameEnd .normal ranking series], ?_, ?_, hafter.ranked.ranking, hfinished⟩
      · simp only [huser]
        rw [onEventGameConclude_normal scores hafter.ranked.total, Option.map_some, hnormal]
      exact iff_of_true ⟨ranking, series, List.mem_singleton_self _⟩ (hend.1 huser)
    | some user =>
      refine ⟨t.setGameTimer .outCard, [], by simp [huser], ?_, hafter.ranked.ranking, hfinished⟩
      refine iff_of_false (by simp) fun h => ?_
      exact absurd (huser.symm.trans (hend.2 h)) (by simp)

theorem InTurn.turnOrder (hs : s.InTurn l) : s.TurnOrder l := by
  obtain ⟨c, hc, hholds⟩ := hs.current
  refine ⟨⟨c, hc, holds_iff.1 hholds⟩, fun start => ?_, fun hplay => ?_, fun p hp => ?_,
    fun p hp hcards => hs.turn.lead_current hp hcards, ?_, hs.ranking,
    fun i => (hs.finished i).trans holds_eq_false,
    fun chair cards scores t out hplay => hs.ends scores hplay⟩
  · have hstart : start = start - 1 + 1 := by
      revert start
      decide
    rw [hstart, nextUser_eq, ne_eq, List.find?_eq_none]
    exact fun h => h c (mem_seats _ c) hholds
  · cases hs.turn with
    | start _ _ hcards => exact hcards
    | lead _ h => exact absurd (h.symm.trans hplay) nofun
    | trick _ _ h => exact absurd (h.symm.trans hplay) nofun
  · simpa [holds_iff] using hs.turn.newTurn hp
  · rintro ⟨i, hi, hi'⟩
    obtain h | h := hs.sides i
    · exact holds_iff.1 h hi
    · exact holds_iff.1 h hi'

/-- **The turns of every run.** As long as tribute messages come from those
who are to pay or to return, no search and no array fails, and in each
playing stage the turn goes round those who hold cards. -/
theorem run_keeps_turn_order {events : List Event}
    (hok : Machine.Along step Orderly {} events) :
    ∃ r, Machine.run step {} events = some r ∧
      (r.1.gameStatus = .playing → r.1.TurnOrder (HandLog.read {} r.2)) := by
  have hinit : ({} : TableSink).Stage {} :=
    Stage.free ⟨rfl, fun _ => rfl, rfl, rfl, rfl⟩ ⟨nofun, nofun⟩
  have hkeeps : ∀ (s : TableSink) history e, s.Stage (HandLog.read {} history) → s.Orderly e →
      ∃ s' out, step s e = some (s', out) ∧ s'.Stage (HandLog.read {} (history ++ out)) := by
    intro s history e hs hok
    obtain ⟨s', out, hstep, hs'⟩ := step_keeps_stage hs hok
    exact ⟨s', out, hstep, by rwa [HandLog.read_append]⟩
  obtain ⟨r, hr, hs⟩ := Machine.inv_run_total hkeeps events {} [] hinit hok
  refine ⟨r, hr, fun hstatus => ?_⟩
  cases hs with
  | free h => exact absurd (h.status.symm.trans hstatus) nofun
  | sendCard h => exact absurd (h.status.symm.trans hstatus) nofun
  | tribute h => exact absurd ((h.elim Paying.status Returning.status).symm.trans hstatus) nofun
  | playing h => exact h.turnOrder

/-- A hand of chair 1's lead, which chair 2 passes. -/
def leadRun : List Event :=
  [.gameStart (fun n => 15 * n * n), .timer .gameStart 1 (fun _ => 0), .timer .outCard 0 (fun _ => 0),
    .passCard 2 true, .payTribute 3 false 0x03]

theorem run_keeps_turn_order_lead :
    (Machine.run step {} leadRun).map (fun r => (r.1.gameStatus, r.1.currentUser)) =
        some (.playing, some 3) ∧
      ∃ r, Machine.run step {} leadRun = some r ∧
        (r.1.gameStatus = .playing → r.1.TurnOrder (HandLog.read {} r.2)) := by
  refine ⟨by decide +kernel, run_keeps_turn_order ?_⟩
  exact ⟨trivial, fun _ _ _ => ⟨trivial, fun _ _ _ => ⟨trivial, fun _ _ _ => ⟨trivial,
    fun _ _ _ => ⟨nofun, fun _ _ _ => trivial⟩⟩⟩⟩⟩

/-- **A tribute message in the plays takes the turn from everybody**: in a
first hand chair 0 leads and pays a tribute that nobody asked for. -/
theorem tribute_takes_the_turn : ∃ r,
    Machine.run step {} [.gameStart (fun n => 15 * n * n), .timer .gameStart 0 (fun _ => 0),
      .payTribute 0 true 0x03] = some r ∧
      r.1.gameStatus = .playing ∧ ¬ r.1.TurnOrder (HandLog.read {} r.2) := by
  refine ⟨_, rfl, rfl, fun h => ?_⟩
  obtain ⟨c, hc, -⟩ := h.current
  cases hc

end GameServer.GuanDan.TableSink
