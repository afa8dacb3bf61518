import GameServer.Common.Circle
import GameServer.GuanDan.Tribute
/-!
# Guandan — who has the turn

The plays of a hand go around those who hold cards. The sink keeps the
player to beat in `m_wTurnWiner` and, where he is out, counts the passes in
the low byte of `m_wFriendFirst`; against the plays and passes that were
sent (`HandLog`) both say the same: a turn is new when everybody else who
holds cards has passed, and it is the player's, or his friend's.
-/

namespace GameServer.GuanDan

variable {i user : Chair}

/-- Who is written to the next place follows those before. -/
theorem take_ofFn_update {α : Type*} {n m : ℕ} (f : Fin n → α) (hm : m < n) (a : α) :
    (List.ofFn (Function.update f ⟨m, hm⟩ a)).take (m + 1) = (List.ofFn f).take m ++ [a] := by
  refine List.ext_getElem (by simp [hm.le, Nat.succ_le_of_lt hm]) fun k h₁ h₂ => ?_
  have hk : k < m + 1 := by
    rw [List.length_take] at h₁
    omega
  rw [List.getElem_take, List.getElem_ofFn, List.getElem_append]
  by_cases hlast : k = m
  · simp [hlast, hm.le]
  · have hlt : k < m := by omega
    rw [Function.update_of_ne (by simpa using hlast), dif_pos (by simp [hlt, hlt.trans hm]),
      List.getElem_take, List.getElem_ofFn]

def Output.isEnd : Output → Bool
  | .gameEnd _ _ _ => true
  | _ => false

/-- The plays of a hand, read off what was sent. -/
structure HandLog where
  lastPlay : Option Chair := none
  passed : List Chair := []
  finished : List Chair := []
  deriving DecidableEq

namespace HandLog

/-- What one message says of the plays. -/
def next (l : HandLog) : Output → HandLog
  | .sendCard _ => {}
  | .outCard chair _ => { l with lastPlay := some chair, passed := [] }
  | .passCard chair _ _ => { l with passed := l.passed ++ chair.toList }
  | .userOutOver chair _ => { l with finished := l.finished ++ [chair] }
  | _ => l

/-- The plays of the hand that was dealt last. -/
def read (l : HandLog) (out : List Output) : HandLog := out.foldl next l

variable {l : HandLog} {out : List Output}

@[simp] theorem read_nil (l : HandLog) : l.read [] = l := rfl

@[simp] theorem read_cons (l : HandLog) (o : Output) (out : List Output) :
    l.read (o :: out) = (l.next o).read out := rfl

theorem read_append (l : HandLog) (out out' : List Output) :
    l.read (out ++ out') = (l.read out).read out' := List.foldl_append

theorem read_moves {payers receivers : List Chair} (h : ∀ o ∈ out, o.Moves payers receivers) :
    l.read out = l := by
  induction out with
  | nil => rfl
  | cons o out ih =>
    obtain ⟨ho, hout⟩ := List.forall_mem_cons.1 h
    have hnext : l.next o = l := by
      cases o
      all_goals first | rfl | exact False.elim ho
    rw [read_cons, hnext, ih hout]

end HandLog

namespace TableSink

variable {s t : TableSink} {l : HandLog} {chair c p : Chair} {cards magic : List UInt8}
  {out : List Output}

def holds (s : TableSink) (i : Chair) : Bool := s.handCardCount i ≠ 0

theorem holds_iff : s.holds i = true ↔ s.handCardCount i ≠ 0 := decide_eq_true_iff

theorem nextUser_eq (s : TableSink) (c : Chair) : s.nextUser (c + 1) = (seats c).find? s.holds := by
  have hseats : seats c = [c + 1, c + 1 + 1, c + 1 + 2, c + 1 + 3] := by
    revert c
    decide
  rw [nextUser, hseats]
  rfl

/-- Whose turn it is, against the plays: the first turn, a new turn that
everybody else passed, or a turn in a round after the last play. -/
inductive Turn (s : TableSink) (l : HandLog) : Prop
  | start (c : Chair) (hplay : l.lastPlay = none) (hcards : s.magicCardData = [])
      (hfriend : s.friendFirst = 0) (hcurrent : s.currentUser = some c) (hholds : s.holds c = true)
  | lead (p : Chair) (hplay : l.lastPlay = some p) (hcards : s.magicCardData = [])
      (hfriend : s.friendFirst = 0) (hpassed : ∀ i, s.holds i = true → i ≠ p → i ∈ l.passed)
      (hcurrent : s.currentUser = some (if s.holds p then p else p + 2))
  | trick (p : Chair) (k : ℕ) (hplay : l.lastPlay = some p) (hcards : s.magicCardData ≠ [])
      (hk : k < (round s.holds p).length) (hpassed : l.passed = (round s.holds p).take k)
      (hcurrent : s.currentUser = some (round s.holds p)[k])
      (hin : s.holds p = true → k + 1 < (round s.holds p).length ∧ s.turnWiner = some p ∧
        s.friendFirst = 0)
      (hout : s.holds p = false → s.turnWiner = (round s.holds p)[0]? ∧
        s.friendFirst = (p + 2).val * 256 + ((round s.holds p).length - k))

theorem length_round_holds (s : TableSink) (p : Chair) : (round s.holds p).length ≤ 4 :=
  (List.length_filter_le _ _).trans (by rw [length_seats])

theorem one_lt_length_round (hsides : ∀ i, s.holds i = true ∨ s.holds (i + 2) = true)
    (hp : s.holds p = true) : 1 < (round s.holds p).length := by
  have hothers : ∀ c : Chair, c + 1 ≠ c ∧ c + 1 + 2 ≠ c := by decide
  obtain ⟨q, hq, hne⟩ : ∃ q, s.holds q = true ∧ q ≠ p := by
    obtain h | h := hsides (p + 1)
    · exact ⟨p + 1, h, (hothers p).1⟩
    · exact ⟨p + 1 + 2, h, (hothers p).2⟩
  have htwo : [q, p].Subperm (round s.holds p) := by
    refine List.Nodup.subperm (by simpa using hne) fun i hi => ?_
    obtain rfl | rfl := List.mem_pair.1 hi
    · exact mem_round.2 hq
    · exact mem_round.2 hp
  exact htwo.length_le

/-- Who is out, in the order of getting out. -/
structure Ranked (s : TableSink) (l : HandLog) : Prop where
  finished : ∀ i, i ∈ l.finished ↔ s.holds i = false
  nodup : l.finished.Nodup
  ranking : l.finished = (List.ofFn s.ranking).take s.mark
  mark : s.mark = l.finished.length
  count_le : ∀ i, s.handCardCount i ≤ maxCount
  total : ∑ i, s.handCardCount i ≤ fullCount

/-- The playing stage of a hand. -/
structure InTurn (s : TableSink) (l : HandLog) : Prop extends s.Ranked l where
  status : s.gameStatus = .playing
  sides : ∀ i, s.holds i = true ∨ s.holds (i + 2) = true
  turn : s.Turn l

theorem Ranked.length_round (hs : s.Ranked l) (p : Chair) :
    (round s.holds p).length + s.mark = 4 := by
  have hperm : l.finished.Perm ((List.finRange gamePlayer).filter fun i => ¬ s.holds i) := by
    refine (List.perm_ext_iff_of_nodup hs.nodup ((List.nodup_finRange _).filter _)).2 fun i => ?_
    rw [hs.finished, List.mem_filter]
    simp
  have hlength := hperm.length_eq
  rw [← List.countP_eq_length_filter] at hlength
  rw [GameServer.length_round, hs.mark, hlength]
  have := (List.finRange gamePlayer).length_eq_countP_add_countP s.holds
  rw [List.length_finRange] at this
  simp only [gamePlayer] at this ⊢
  omega

/-- What a turn leaves alone. -/
structure SameRound (s t : TableSink) : Prop where
  series : t.series = s.series
  result : t.result = s.result
  bankerUser : t.bankerUser = s.bankerUser
  baseScore : t.baseScore = s.baseScore
  gameStart : t.timers .gameStart = s.timers .gameStart

/-! ## Passes -/

/-- The turn goes on to a user. -/
def passOn (user : Chair) (s : TableSink) : TableSink :=
  { s.killGameTimer .outCard with
    currentUser := some user
    magicCardData := if s.turnWiner = some user then [] else s.magicCardData }.passFriend

theorem onSubPassCard_eq {user' : Chair} (hstatus : s.gameStatus = .playing)
    (hc : s.currentUser = some c) (hcards : s.magicCardData ≠ [])
    (hnext : s.nextUser (c + 1) = some user) (huser : (s.passOn user).currentUser = some user') :
    s.onSubPassCard (some c) = some ((s.passOn user).setGameTimer .outCard,
      [.passCard (some c) user' ((s.passOn user).magicCardData = [])]) := by
  rw [onSubPassCard, if_neg (by simp [hstatus, hc, hcards])]
  change (s.nextUser (c + 1)).bind _ = _
  rw [hnext, Option.bind_some]
  change (s.passOn user).currentUser.map _ = _
  rw [huser]
  rfl

theorem passOn_of_friend_zero (hfriend : s.friendFirst = 0) :
    s.passOn user = { s.killGameTimer .outCard with
      currentUser := some user
      magicCardData := if s.turnWiner = some user then [] else s.magicCardData } := by
  rw [passOn, passFriend, if_pos]
  change s.friendFirst % 256 = 0
  rw [hfriend]

theorem passOn_of_more {n : ℕ} (hfriend : s.friendFirst = p.val * 256 + (n + 2))
    (hn : n < 254) : s.passOn user = { s.killGameTimer .outCard with
      currentUser := some user
      magicCardData := if s.turnWiner = some user then [] else s.magicCardData
      friendFirst := p.val * 256 + (n + 1) } := by
  have hfriend' : (s.killGameTimer .outCard).friendFirst = p.val * 256 + (n + 2) := hfriend
  rw [passOn, passFriend, if_neg, if_neg]
  · congr 1
    change (s.killGameTimer .outCard).friendFirst - 1 = _
    omega
  · change ¬ ((s.killGameTimer .outCard).friendFirst - 1) % 256 = 0
    omega
  · change ¬ (s.killGameTimer .outCard).friendFirst % 256 = 0
    omega

/-- The last pass gives the friend a new turn. -/
theorem passOn_of_last (hfriend : s.friendFirst = p.val * 256 + 1) :
    s.passOn user = { s.killGameTimer .outCard with
      currentUser := some p
      turnWiner := some p
      magicCardData := []
      friendFirst := 0 } := by
  have hfriend' : (s.killGameTimer .outCard).friendFirst = p.val * 256 + 1 := hfriend
  have hp : Fin.ofNat gamePlayer (((s.killGameTimer .outCard).friendFirst - 1) / 256) = p := by
    ext
    rw [Fin.val_ofNat]
    have := p.isLt
    simp only [gamePlayer] at this ⊢
    omega
  rw [passOn, passFriend, if_neg, if_pos]
  · change { s.killGameTimer .outCard with
      currentUser := some (Fin.ofNat gamePlayer (((s.killGameTimer .outCard).friendFirst - 1) / 256))
      turnWiner := some (Fin.ofNat gamePlayer (((s.killGameTimer .outCard).friendFirst - 1) / 256))
      magicCardData := []
      friendFirst := 0 } = _
    rw [hp]
  · change ((s.killGameTimer .outCard).friendFirst - 1) % 256 = 0
    omega
  · change ¬ (s.killGameTimer .outCard).friendFirst % 256 = 0
    omega

/-- Where a round goes on, and with which cards on the table. -/
theorem Turn.pass (hs : s.Turn l) (hc : s.currentUser = some c) (hcards : s.magicCardData ≠ []) :
    ∃ user, s.nextUser (c + 1) = some user ∧ (s.passOn user).currentUser.isSome ∧
      (s.passOn user).Turn { l with passed := l.passed ++ [c] } := by
  cases hs with
  | start _ _ h => exact absurd h hcards
  | lead _ _ h => exact absurd h hcards
  | trick p k hplay _ hk hpassed hcurrent hin hout =>
    have hck : (round s.holds p)[k] = c := by
      rw [hc, Option.some_inj] at hcurrent
      exact hcurrent.symm
    have hnext : s.nextUser (c + 1) = (round s.holds p)[(k + 1) % (round s.holds p).length]? := by
      rw [nextUser_eq, ← hck, find_next hk]
    have htake : l.passed ++ [c] = (round s.holds p).take (k + 1) := by
      rw [hpassed, ← hck]
      exact List.take_concat_get' _ k hk
    have hnodup := nodup_round s.holds p
    have hle := length_round_holds s p
    cases hp : s.holds p with
    | true =>
      obtain ⟨hlt, hwiner, hfriend⟩ := hin hp
      rw [Nat.mod_eq_of_lt hlt, List.getElem?_eq_getElem hlt] at hnext
      refine ⟨_, hnext, ?_⟩
      rw [passOn_of_friend_zero hfriend, hwiner]
      have hlast : (round s.holds p)[(round s.holds p).length - 1]? = some p := by
        rw [← List.getLast?_eq_getElem?, getLast?_round hp]
      by_cases hend : k + 2 = (round s.holds p).length
      · -- everybody else has passed, and the next is the player
        have hplayer : (round s.holds p)[k + 1] = p := by
          rw [show (round s.holds p).length - 1 = k + 1 by omega, List.getElem?_eq_getElem hlt,
            Option.some_inj] at hlast
          exact hlast
        refine ⟨rfl, Turn.lead p hplay ?_ hfriend (fun i hi hne => ?_) ?_⟩
        · rw [hplayer]
          exact if_pos rfl
        · change i ∈ l.passed ++ [c]
          obtain ⟨n, hn, rfl⟩ := List.mem_iff_getElem.1 (mem_round.2 hi : i ∈ round s.holds p)
          have hnk : n ≠ k + 1 := by
            rintro rfl
            exact hne hplayer
          rw [htake]
          exact List.mem_take_iff_getElem.2 ⟨n, by omega, rfl⟩
        · change some _ = some (if s.holds p then p else p + 2)
          rw [hplayer, if_pos hp]
      · have hplayer : (round s.holds p)[k + 1] ≠ p := by
          intro heq
          rw [List.getElem?_eq_getElem (by omega), Option.some_inj] at hlast
          have := (hnodup.getElem_inj_iff).1 (hlast.trans heq.symm)
          omega
        refine ⟨rfl, Turn.trick p (k + 1) hplay ?_ hlt htake rfl (fun _ => ⟨?_, hwiner, hfriend⟩) ?_⟩
        · change (if some p = some _ then [] else s.magicCardData) ≠ []
          rwa [if_neg fun h => hplayer (Option.some.inj h).symm]
        · change k + 1 + 1 < (round s.holds p).length
          omega
        · intro hfalse
          exact Bool.noConfusion (hp.symm.trans hfalse)
    | false =>
      obtain ⟨hwiner, hfriend⟩ := hout hp
      have hmod : (k + 1) % (round s.holds p).length < (round s.holds p).length :=
        Nat.mod_lt _ (by omega)
      rw [List.getElem?_eq_getElem hmod] at hnext
      refine ⟨_, hnext, ?_⟩
      by_cases hend : k + 1 = (round s.holds p).length
      · -- everybody has passed: the friend has a new turn
        rw [show (round s.holds p).length - k = 1 by omega] at hfriend
        rw [passOn_of_last hfriend]
        refine ⟨rfl, Turn.lead p hplay rfl rfl (fun i hi _ => ?_) ?_⟩
        · change i ∈ l.passed ++ [c]
          rw [htake, hend, List.take_length]
          exact mem_round.2 hi
        · change some _ = some (if s.holds p then p else p + 2)
          rw [hp]
          rfl
      · have hlt : k + 1 < (round s.holds p).length := by omega
        have hfriend' : s.friendFirst =
            (p + 2).val * 256 + ((round s.holds p).length - k - 2 + 2) := by
          rw [hfriend]
          omega
        have hfirst : (round s.holds p)[0]? ≠ some (round s.holds p)[k + 1] := by
          rw [List.getElem?_eq_getElem (by omega), ne_eq, Option.some_inj]
          intro heq
          have := (hnodup.getElem_inj_iff).1 heq
          omega
        simp only [Nat.mod_eq_of_lt hlt]
        rw [passOn_of_more hfriend' (by omega), hwiner, if_neg hfirst]
        refine ⟨rfl, Turn.trick p (k + 1) hplay hcards hlt htake rfl (fun htrue => ?_)
          fun _ => ⟨hwiner, ?_⟩⟩
        · exact Bool.noConfusion (htrue.symm.trans hp)
        · change (p + 2).val * 256 + _ = (p + 2).val * 256 + ((round s.holds p).length - (k + 1))
          omega

/-! ## Plays -/

theorem takeOut_eq {u : TableSink} (h : s.takeOut chair cards magic = some u) :
    cards.length ≤ s.handCardCount chair ∧ ∃ data, u = { s with
      handCardCount := Function.update s.handCardCount chair (s.handCardCount chair - cards.length)
      handCardData := data
      magicCardData := magic
      friendFirst := 0
      timers := Function.update s.timers .outCard false } := by
  obtain ⟨data, hdata, rfl⟩ := Option.map_eq_some_iff.1 h
  refine ⟨?_, ⟨_, rfl⟩⟩
  rw [removeCard] at hdata
  split_ifs at hdata with hnil hlt
  · rw [hnil]
    exact Nat.zero_le _
  · omega

theorem Turn.current_holds (hs : s.Turn l)
    (hsides : ∀ i, s.holds i = true ∨ s.holds (i + 2) = true) (hc : s.currentUser = some c) :
    s.holds c = true := by
  cases hs with
  | start c' _ _ _ hcurrent hholds =>
    rw [hc, Option.some_inj] at hcurrent
    rwa [hcurrent]
  | lead p _ _ _ _ hcurrent =>
    rw [hc, Option.some_inj] at hcurrent
    rw [hcurrent]
    split_ifs with hp
    · exact hp
    · exact (hsides p).resolve_left hp
  | trick p k _ _ hk _ hcurrent =>
    rw [hc, Option.some_inj] at hcurrent
    rw [hcurrent]
    exact mem_round.1 (List.getElem_mem hk)

/-- The counts after a play: nobody else's, and no more than before. -/
structure Played (before after : Chair → ℕ) (chair : Chair) : Prop where
  others : ∀ i, i ≠ chair → after i = before i
  le : after chair ≤ before chair

theorem Played.holds (h : Played s.handCardCount t.handCardCount chair)
    (hi : i ≠ chair) : t.holds i = s.holds i := by
  rw [TableSink.holds, TableSink.holds, h.others i hi]

theorem Played.count_le {before after : Chair → ℕ} (h : Played before after chair) (i : Chair) :
    after i ≤ before i := by
  by_cases hi : i = chair
  · rw [hi]
    exact h.le
  · exact (h.others i hi).le

/-- A player who is not out yet leaves the ranking as it is. -/
theorem Ranked.play {l' : HandLog} (hs : s.Ranked l)
    (hplayed : Played s.handCardCount t.handCardCount chair) (hholds : s.holds chair = true) (hin : t.holds chair = true) (hranking : t.ranking = s.ranking)
    (hmark : t.mark = s.mark) (hlog : l'.finished = l.finished) : t.Ranked l' := by
  refine ⟨fun i => ?_, by rw [hlog]; exact hs.nodup, by rw [hlog, hranking, hmark]; exact hs.ranking,
    by rw [hlog, hmark]; exact hs.mark, fun i => (hplayed.count_le i).trans (hs.count_le i),
    (Finset.sum_le_sum fun i _ => hplayed.count_le i).trans hs.total⟩
  rw [hlog, hs.finished]
  by_cases hi : i = chair
  · rw [hi, hin, hholds]
  · rw [hplayed.holds hi]

theorem Ranked.playOut {l' : HandLog} (hs : s.Ranked l)
    (hplayed : Played s.handCardCount t.handCardCount chair) (hholds : s.holds chair = true) (hout : t.holds chair = false) (hlt : s.mark < 4)
    (hranking : t.ranking = Function.update s.ranking ⟨s.mark, hlt⟩ chair)
    (hmark : t.mark = s.mark + 1) (hlog : l'.finished = l.finished ++ [chair]) : t.Ranked l' := by
  have hnot : chair ∉ l.finished := by
    rw [hs.finished, hholds]
    exact nofun
  refine ⟨fun i => ?_, ?_, ?_, ?_, fun i => (hplayed.count_le i).trans (hs.count_le i),
    (Finset.sum_le_sum fun i _ => hplayed.count_le i).trans hs.total⟩
  · rw [hlog, List.mem_append, hs.finished, List.mem_singleton]
    by_cases hi : i = chair
    · rw [hi, hout]
      exact iff_of_true (Or.inr rfl) rfl
    · rw [hplayed.holds hi]
      exact or_iff_left hi
  · rw [hlog]
    exact List.concat_eq_append ▸ hs.nodup.concat hnot
  · rw [hlog, hmark, hranking, take_ofFn_update, ← hs.ranking]
  · rw [hlog, hmark, hs.mark, List.length_append, List.length_singleton]

/-- Whose turn it is after a play, if the hand goes on. -/
theorem switchUser_spec (s : TableSink) (chair : Chair) :
    ∃ user, s.switchUser chair = some { s with currentUser := user } ∧
      (user = none ↔ s.holds chair = false ∧ s.holds (chair + 2) = false) ∧
      (user ≠ none → user = (round s.holds chair)[0]?) := by
  have hzero : ∀ i, s.handCardCount i = 0 ↔ s.holds i = false := by simp [holds]
  simp only [switchUser, hzero]
  by_cases hout : s.holds chair = false ∧ s.holds (chair + 2) = false
  · rw [if_pos hout]
    exact ⟨none, rfl, iff_of_true rfl hout, fun h => absurd rfl h⟩
  · rw [if_neg hout, nextUser_eq]
    have hpos : 0 < (round s.holds chair).length := by
      rw [List.length_pos_iff_exists_mem]
      by_cases hchair : s.holds chair = true
      · exact ⟨chair, mem_round.2 hchair⟩
      · refine ⟨chair + 2, mem_round.2 ?_⟩
        simpa [hchair] using hout
    have hfind : (seats chair).find? s.holds = some (round s.holds chair)[0] := by
      rw [← List.head?_filter, ← round, List.head?_eq_getElem?, List.getElem?_eq_getElem hpos]
    rw [hfind]
    exact ⟨_, rfl, iff_of_false (by simp) hout, fun _ => (List.getElem?_eq_getElem hpos).symm⟩

theorem outOver_of_out (hlt : s.mark < 4) (hout : s.holds chair = false) :
    s.outOver chair = some ({ s with
        ranking := Function.update s.ranking ⟨s.mark, hlt⟩ chair
        mark := s.mark + 1
        turnWiner := s.currentUser
        friendFirst :=
          if s.currentUser ≠ none then (chair + 2).val * 256 + (gamePlayer - (s.mark + 1))
          else s.friendFirst }, [.userOutOver chair (s.mark + 1)]) := by
  have hzero : s.handCardCount chair = 0 := by simpa [holds] using hout
  rw [outOver, if_pos hzero, dif_pos hlt]

theorem outOver_of_in (hin : s.holds chair = true) :
    s.outOver chair = some ({ s with turnWiner := some chair }, []) := by
  have hpos : s.handCardCount chair ≠ 0 := holds_iff.1 hin
  rw [outOver, if_neg hpos]

/-- What a play leads to: who is out is ranked, and the hand ends with a
side that is out; else a round begins after the player. -/
structure AfterPlay (s : TableSink) (l : HandLog) (chair : Chair) (t : TableSink)
    (out : List Output) : Prop where
  same : s.SameRound t
  ranked : t.Ranked (l.read out)
  log : (l.read out).finished = l.finished ∨ (l.read out).finished = l.finished ++ [chair]
  ends : t.currentUser = none ↔ ∃ i, t.holds i = false ∧ t.holds (i + 2) = false
  goesOn : t.currentUser ≠ none → t.InTurn (l.read out)
  quiet : ∀ o ∈ out, o.isEnd = false

/-- **A play** of cards that were found. -/
theorem InTurn.play {u : TableSink} (hs : s.InTurn l) (hc : s.currentUser = some chair)
    (hmagic : magic ≠ []) (htake : s.takeOut chair cards magic = some u) :
    ∃ v t out, u.switchUser chair = some v ∧ v.outOver chair = some (t, out) ∧
      s.AfterPlay l chair t (out ++ [.outCard chair cards]) := by
  obtain ⟨hle, data, hu⟩ := takeOut_eq htake
  have hholds := hs.turn.current_holds hs.sides hc
  have hplayed : Played s.handCardCount u.handCardCount chair := by
    rw [hu]
    refine ⟨fun i hi => ?_, ?_⟩
    · exact Function.update_of_ne hi _ _
    · change Function.update s.handCardCount chair _ chair ≤ _
      rw [Function.update_self]
      exact Nat.sub_le _ _
  have hlt : s.mark < 4 := by
    have hlength := hs.length_round chair
    have hpos : 0 < (round s.holds chair).length :=
      List.length_pos_of_mem (mem_round.2 hholds)
    omega
  have hmark : u.mark = s.mark := by rw [hu]
  have hsides : (∃ i, u.holds i = false ∧ u.holds (i + 2) = false) ↔
      u.holds chair = false ∧ u.holds (chair + 2) = false := by
    have htwo : ∀ a b : Chair, a + 2 = b → a = b + 2 := by decide
    refine ⟨fun ⟨i, hi, hi'⟩ => ?_, fun h => ⟨chair, h⟩⟩
    by_cases heq : i = chair
    · rw [← heq]
      exact ⟨hi, hi'⟩
    · by_cases heq' : i + 2 = chair
      · have hback : i = chair + 2 := htwo i chair heq'
        rw [heq'] at hi'
        exact ⟨hi', hback ▸ hi⟩
      · rw [hplayed.holds heq] at hi
        rw [hplayed.holds heq'] at hi'
        obtain h | h := hs.sides i
        · exact Bool.noConfusion (hi.symm.trans h)
        · exact Bool.noConfusion (hi'.symm.trans h)
  obtain ⟨user, hswitch, hnone, hsome⟩ := u.switchUser_spec chair
  have hturn : user ≠ none → ∃ hpos : 0 < (round u.holds chair).length,
      user = some (round u.holds chair)[0] := by
    intro h
    have hpos : 0 < (round u.holds chair).length := by
      by_contra hle
      rw [List.getElem?_eq_none (by omega)] at hsome
      exact h (hsome h)
    exact ⟨hpos, (hsome h).trans (List.getElem?_eq_getElem hpos)⟩
  have hon : user ≠ none → ∀ i, u.holds i = true ∨ u.holds (i + 2) = true := by
    intro h i
    by_contra hnot
    exact h (hnone.2 (hsides.1 ⟨i, by simpa using hnot⟩))
  have hend : user = none ↔ ∃ i, u.holds i = false ∧ u.holds (i + 2) = false :=
    hnone.trans hsides.symm
  have hsame : s.SameRound u := by
    rw [hu]
    exact ⟨rfl, rfl, rfl, rfl, rfl⟩
  have hcards : u.magicCardData = magic := by rw [hu]
  have hstatus : u.gameStatus = s.gameStatus := by rw [hu]
  have hranking : u.ranking = s.ranking := by rw [hu]
  by_cases hout : u.holds chair = false
  · have hover := outOver_of_out (s := { u with currentUser := user }) (hmark ▸ hlt) hout
    have hranked : ({ u with
        currentUser := user
        ranking := Function.update u.ranking ⟨u.mark, hmark ▸ hlt⟩ chair
        mark := u.mark + 1
        turnWiner := user
        friendFirst :=
          if user ≠ none then (chair + 2).val * 256 + (gamePlayer - (u.mark + 1))
          else u.friendFirst } : TableSink).Ranked
          (l.read ([.userOutOver chair (u.mark + 1)] ++ [.outCard chair cards])) := by
      refine hs.toRanked.playOut hplayed hholds hout hlt ?_ (congrArg (· + 1) hmark) rfl
      simp only [hranking, hmark]
    refine ⟨_, _, _, hswitch, hover,
      ⟨hsame.series, hsame.result, hsame.bankerUser, hsame.baseScore, hsame.gameStart⟩, hranked,
      Or.inr rfl, hend, fun huser => ?_, by simp [Output.isEnd]⟩
    obtain ⟨hpos, hfirst⟩ := hturn huser
    refine ⟨hranked, hstatus.trans hs.status,
      hon huser, Turn.trick chair 0 rfl (hcards ▸ hmagic) hpos rfl hfirst (fun hin => ?_) ?_⟩
    · exact Bool.noConfusion (hout.symm.trans hin)
    · refine fun _ => ⟨hfirst.trans (List.getElem?_eq_getElem hpos).symm, ?_⟩
      have hlength := hranked.length_round chair
      change (if user ≠ none then _ else _) = _
      rw [if_pos huser]
      congr 1
      change (round u.holds chair).length + (u.mark + 1) = 4 at hlength
      change 4 - (u.mark + 1) = (round u.holds chair).length - 0
      omega
  · have hin : u.holds chair = true := by simpa using hout
    have hover := outOver_of_in (s := { u with currentUser := user }) hin
    refine ⟨_, _, _, hswitch, hover,
      ⟨hsame.series, hsame.result, hsame.bankerUser, hsame.baseScore, hsame.gameStart⟩, ?_,
      Or.inl rfl, hend, fun huser => ?_, by simp [Output.isEnd]⟩
    · exact hs.toRanked.play hplayed hholds hin hranking hmark rfl
    · obtain ⟨hpos, hfirst⟩ := hturn huser
      refine ⟨hs.toRanked.play hplayed hholds hin hranking hmark rfl, hstatus.trans hs.status,
        hon huser, Turn.trick chair 0 rfl (hcards ▸ hmagic) hpos rfl hfirst (fun _ => ?_) ?_⟩
      · exact ⟨one_lt_length_round (hon huser) hin, rfl, by rw [hu]⟩
      · intro hfalse
        exact absurd hfalse hout

theorem Turn.timers (hs : s.Turn l) (timers : Timer → Bool) : { s with timers }.Turn l := by
  cases hs with
  | start c h₁ h₂ h₃ h₄ h₅ => exact Turn.start c h₁ h₂ h₃ h₄ h₅
  | lead p h₁ h₂ h₃ h₄ h₅ => exact Turn.lead p h₁ h₂ h₃ h₄ h₅
  | trick p k h₁ h₂ h₃ h₄ h₅ h₆ h₇ => exact Turn.trick p k h₁ h₂ h₃ h₄ h₅ h₆ h₇

theorem InTurn.timers (hs : s.InTurn l) (timers : Timer → Bool) : { s with timers }.InTurn l :=
  ⟨⟨hs.finished, hs.nodup, hs.ranking, hs.mark, hs.count_le, hs.total⟩, hs.status, hs.sides,
    hs.turn.timers timers⟩

/-- A legal play has wild cards that became something. -/
theorem legalPlay_ne_nil (h : s.legalPlay cards = some (some magic)) : magic ≠ [] := by
  rintro rfl
  simp only [legalPlay, Option.bind_eq_bind, Option.bind_eq_some_iff] at h
  obtain ⟨m, -, cardType, htype, h⟩ := h
  have hm : m ≠ [] := by
    rintro rfl
    rw [if_pos (Option.some.inj htype).symm] at h
    cases h
  split_ifs at h with herror hlead
  · cases h
  · exact hm (Option.some.inj (Option.some.inj h))
  · obtain ⟨beats, -, h⟩ := Option.bind_eq_some_iff.1 h
    split_ifs at h with hbeats
    · exact hm (Option.some.inj (Option.some.inj h))
    · cases h

/-- **A play that is taken**, before the end of the hand is looked for. -/
theorem InTurn.outCard (hs : s.InTurn l) (hlegal : s.currentUser = some chair →
    s.legalPlay cards ≠ none) : s.outCard chair cards = some none ∨
      ∃ t out, s.outCard chair cards = some (some (t, out)) ∧ s.AfterPlay l chair t out := by
  rw [TableSink.outCard]
  by_cases hc : s.currentUser = some chair
  · rw [if_neg (by simp [hs.status, hc])]
    cases hplay : s.legalPlay cards with
    | none => exact absurd hplay (hlegal hc)
    | some magic =>
      cases magic with
      | none => exact Or.inl rfl
      | some magic =>
        cases htake : s.takeOut chair cards magic with
        | none => exact Or.inl (by simp [htake])
        | some u =>
          obtain ⟨v, t, out, hswitch, hover, hafter⟩ :=
            hs.play hc (legalPlay_ne_nil hplay) htake
          refine Or.inr ⟨t, out ++ [.outCard chair cards], ?_, hafter⟩
          simp [htake, hswitch, hover]
  · rw [if_pos (Or.inr hc)]
    exact Or.inl rfl

theorem sameRound_passOn (s : TableSink) (user : Chair) : s.SameRound (s.passOn user) := by
  rw [passOn, passFriend]
  split_ifs
  all_goals exact ⟨rfl, rfl, rfl, rfl, rfl⟩

theorem passOn_ranked (hs : s.Ranked l) (user : Chair) (passed : List Chair) :
    (s.passOn user).Ranked { l with passed } := by
  rw [passOn, passFriend]
  split_ifs
  all_goals exact ⟨hs.finished, hs.nodup, hs.ranking, hs.mark, hs.count_le, hs.total⟩

theorem passOn_status (s : TableSink) (user : Chair) :
    (s.passOn user).gameStatus = s.gameStatus ∧ (s.passOn user).holds = s.holds := by
  rw [passOn, passFriend]
  split_ifs
  all_goals exact ⟨rfl, rfl⟩

/-- **A pass** keeps the stage. -/
theorem InTurn.onSubPassCard (hs : s.InTurn l) (c : Chair) :
    ∃ s' out, s.onSubPassCard (some c) = some (s', out) ∧
      s'.InTurn (l.read out) ∧ s.SameRound s' ∧ ∀ o ∈ out, o.isEnd = false := by
  by_cases hpass : s.currentUser = some c ∧ s.magicCardData ≠ []
  · obtain ⟨hc, hcards⟩ := hpass
    obtain ⟨user, hnext, huser, hturn⟩ := hs.turn.pass hc hcards
    obtain ⟨user', huser'⟩ := Option.isSome_iff_exists.1 huser
    have hsame := s.sameRound_passOn user
    have hpassed : (s.passOn user).InTurn { l with passed := l.passed ++ [c] } := by
      obtain ⟨hstatus, hholds⟩ := s.passOn_status user
      refine ⟨passOn_ranked hs.toRanked user _, hstatus.trans hs.status, ?_, hturn⟩
      rw [hholds]
      exact hs.sides
    exact ⟨_, _, onSubPassCard_eq hs.status hc hcards hnext huser', hpassed.timers _,
      ⟨hsame.series, hsame.result, hsame.bankerUser, hsame.baseScore, hsame.gameStart⟩,
      List.forall_mem_singleton.2 rfl⟩
  · refine ⟨s, [], if_pos (Or.inr ?_), hs, ⟨rfl, rfl, rfl, rfl, rfl⟩, by simp⟩
    rw [not_and_or, not_not] at hpass
    exact hpass.imp_left Ne.symm

theorem legalPlay_single (hcards : s.magicCardData = []) (card : UInt8) :
    s.legalPlay [card] = some (some [card]) := by
  have hmagic : GuanDan.magicCardData s.mainValue [card] = some [card] := by
    rw [GuanDan.magicCardData]
    by_cases h : getCardValue card = s.mainValue ∧ getCardColor card = 0x20
    · simp [h]
    · simp [h]
  have htype : getCardType s.mainValue [card] = some .single := rfl
  simp only [legalPlay, hmagic, htype, hcards, Option.bind_eq_bind, Option.bind_some, reduceCtorEq,
    if_false, if_true]

theorem InTurn.current (hs : s.InTurn l) : ∃ c, s.currentUser = some c ∧ s.holds c = true := by
  obtain ⟨c, hc⟩ : ∃ c, s.currentUser = some c := by
    cases hs.turn with
    | start c _ _ _ hcurrent => exact ⟨c, hcurrent⟩
    | lead p _ _ _ _ hcurrent => exact ⟨_, hcurrent⟩
    | trick p k _ _ hk _ hcurrent => exact ⟨_, hcurrent⟩
  exact ⟨c, hc, hs.turn.current_holds hs.sides hc⟩

/-- Of three chairs two are a side. -/
theorem AfterPlay.side (h : s.AfterPlay l chair t out) (hs : s.InTurn l)
    (hend : t.currentUser = none) : t.ranking 1 = t.ranking 0 + 2 ∨
      (t.ranking 1 ≠ t.ranking 0 ∧ t.ranking 1 ≠ t.ranking 0 + 2 ∧
        (t.ranking 2 = t.ranking 0 + 2 ∨ t.ranking 2 = t.ranking 1 + 2)) := by
  have hback : ∀ a b : Chair, b + 2 = a → b = a + 2 := by decide
  have hnone : ∀ i ∈ l.finished, i + 2 ∉ l.finished := by
    intro i hi hi'
    rw [hs.finished] at hi hi'
    obtain h | h := hs.sides i
    · exact Bool.noConfusion (hi.symm.trans h)
    · exact Bool.noConfusion (hi'.symm.trans h)
  obtain ⟨i, hi, hi'⟩ := h.ends.1 hend
  rw [← h.ranked.finished] at hi hi'
  have hlog : (l.read out).finished = l.finished ++ [chair] := by
    refine h.log.resolve_left fun heq => ?_
    rw [heq] at hi hi'
    exact hnone i hi hi'
  have hfriend : chair + 2 ∈ l.finished := by
    rw [hlog, List.mem_append, List.mem_singleton] at hi hi'
    have htwo : ∀ c : Chair, c + 2 ≠ c ∧ c + 2 + 2 = c := by decide
    obtain hi | rfl := hi
    · obtain hi' | rfl := hi'
      · exact absurd hi' (hnone i hi)
      · rwa [(htwo i).2]
    · exact hi'.resolve_right (htwo i).1
  have hranking := h.ranked.ranking
  have hmark := h.ranked.mark
  have hnodup := hs.nodup
  rw [hlog] at hranking hmark
  have hofFn : List.ofFn t.ranking = [t.ranking 0, t.ranking 1, t.ranking 2, t.ranking 3] := by
    simp [List.ofFn_succ]
  rw [hofFn, hmark] at hranking
  match hfinished : l.finished, hranking, hfriend, hnone, hnodup with
  | [], _, hfriend, _, _ => exact absurd hfriend List.not_mem_nil
  | [a], hranking, hfriend, _, _ =>
    simp only [List.cons_append, List.nil_append, List.length_cons, List.length_nil,
      List.take_succ_cons, List.take_zero, List.cons.injEq, and_true] at hranking
    rw [List.mem_singleton] at hfriend
    rw [← hranking.1, ← hranking.2]
    exact Or.inl (hback a chair hfriend)
  | [a, b], hranking, hfriend, hnone, hnodup =>
    simp only [List.cons_append, List.nil_append, List.length_cons, List.length_nil,
      List.take_succ_cons, List.take_zero, List.cons.injEq, and_true] at hranking
    obtain ⟨rfl, rfl, rfl⟩ := hranking
    refine Or.inr ⟨?_, fun h => ?_, ?_⟩
    · simpa [eq_comm] using hnodup
    · exact hnone _ List.mem_cons_self (h ▸ List.mem_cons_of_mem _ (List.mem_singleton_self _))
    · exact (List.mem_pair.1 hfriend).imp (hback _ _) (hback _ _)
  | a :: b :: c :: rest, _, _, hnone, hnodup =>
    have hthree : ∀ a b c : Chair, b ≠ a → c ≠ a → c ≠ b →
        b = a + 2 ∨ c = a + 2 ∨ c = b + 2 := by decide
    simp only [List.nodup_cons, List.mem_cons, not_or] at hnodup
    obtain ⟨⟨hab, hac, -⟩, ⟨hbc, -⟩, -⟩ := hnodup
    obtain h | h | h := hthree a b c (Ne.symm hab) (Ne.symm hac) (Ne.symm hbc)
    · exact absurd (by simp [h]) (hnone a (by simp))
    · exact absurd (by simp [h]) (hnone a (by simp))
    · exact absurd (by simp [h]) (hnone b (by simp))

theorem holds_eq_false : s.holds i = false ↔ s.handCardCount i = 0 := by simp [holds]

/-- A new turn is one that everybody else who holds cards has passed. -/
theorem Turn.newTurn (hs : s.Turn l) (hp : l.lastPlay = some p) :
    s.magicCardData = [] ↔ ∀ i, s.holds i = true → i ≠ p → i ∈ l.passed := by
  cases hs with
  | start c hplay => exact absurd (hplay.symm.trans hp) nofun
  | lead p' hplay hcards _ hpassed =>
    rw [hp, Option.some_inj] at hplay
    subst hplay
    exact iff_of_true hcards hpassed
  | trick p' k hplay hcards hk hpassed hcurrent hin hout =>
    rw [hp, Option.some_inj] at hplay
    subst hplay
    refine iff_of_false hcards fun hall => ?_
    -- the user whose turn it is has not passed
    have hnodup := nodup_round s.holds p
    have hholds : s.holds (round s.holds p)[k] = true := mem_round.1 (List.getElem_mem hk)
    have hne : (round s.holds p)[k] ≠ p := by
      intro heq
      obtain ⟨hlt, -, -⟩ := hin (heq ▸ hholds)
      have hlast := getLast?_round (heq ▸ hholds : s.holds p = true)
      rw [List.getLast?_eq_getElem?, List.getElem?_eq_getElem (by omega), Option.some_inj] at hlast
      have := (hnodup.getElem_inj_iff).1 (hlast.trans heq.symm)
      omega
    have hmem := hall _ hholds hne
    rw [hpassed] at hmem
    obtain ⟨n, hn, heq⟩ := List.mem_take_iff_getElem.1 hmem
    have := (hnodup.getElem_inj_iff).1 heq
    omega

/-- A new turn is the player's, or the friend's of one who is out. -/
theorem Turn.lead_current (hs : s.Turn l) (hp : l.lastPlay = some p)
    (hcards : s.magicCardData = []) :
    s.currentUser = some (if s.handCardCount p ≠ 0 then p else p + 2) := by
  cases hs with
  | start c hplay => exact absurd (hplay.symm.trans hp) nofun
  | lead p' hplay _ _ _ hcurrent =>
    rw [hp, Option.some_inj] at hplay
    subst hplay
    rw [hcurrent]
    simp [holds]
  | trick p' k _ h => exact absurd hcards h

end TableSink

end GameServer.GuanDan
