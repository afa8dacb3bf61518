import GameServer.PrivateService.Independence
import Mathlib.Data.List.Nodup
/-!
# PrivateService — the vote on dismissing a room

The votes of a room are two lists of chairs. A message adds its chair to
one of them if it is not in that list; whether it is in the other is not
asked. `Ballot` is what the users know of a vote: who has agreed, who has
refused, and how often the timer has run. As long as nobody changes his
mind, the lists are those of the ballot (`Voting`).

`VoteOk` says that nobody does, and is exact.
-/

namespace GameServer.PrivateService

open PrivateGame

variable {opt : ServiceOption} {s s' : PrivateGame} {u v : UserID} {t : ℕ} {given : Given}
variable {x : PrivateGame × Ballot} {dismiss : Bool} {info : PrivateTableInfo} {us : List UserID}

/-! ## Votes -/

/-- What happens to a room that has started. -/
inductive VoteEvent
  /-- `OnTCPNetworkSubDismissPrivate`. -/
  | message (userID : UserID) (dismiss : Bool) (given : Given)
  /-- `OnEventTimer`. -/
  | timer (given : Given)

/-- Who has agreed and who has refused since a vote began, and how often
the timer has run since. -/
structure Ballot where
  agreed : List UserID := []
  refused : List UserID := []
  ticks : ℕ := 0

/-- A vote begins with a user who agrees, and is over when two have
refused. -/
def Ballot.next (b : Ballot) : VoteEvent → Ballot
  | .message u true _ => if u ∈ b.agreed then b else { b with agreed := b.agreed ++ [u] }
  | .message u false _ =>
      if b.agreed = [] ∨ u ∈ b.refused then b
      else if b.refused = [] then { b with refused := [u] }
      else {}
  | .timer _ => if b.agreed = [] then b else { b with ticks := b.ticks + 1 }

/-- The user is at a chair of the table. -/
def SeatedAt (opt : ServiceOption) (s : PrivateGame) (t : ℕ) (u : UserID) : Prop :=
  s.userTable opt u = some t ∧ s.getTableUserItem opt t (s.userItem u).chairID = some u

instance : Decidable (SeatedAt opt s t u) := by
  unfold SeatedAt
  infer_instance

/-- A message of a user at the table, or the timer, and what the users
know then. -/
def voteStep (opt : ServiceOption) (t : ℕ) :
    TotalMachine (PrivateGame × Ballot) VoteEvent Effect := fun x e =>
  match e with
  | .message u dismiss given =>
      if SeatedAt opt x.1 t u then
        let s := x.1.onTCPNetworkSubDismissPrivate opt u dismiss given
        ((s, x.2.next e), s.log.drop x.1.log.length)
      else (x, [])
  | .timer given =>
      let s := x.1.timerTable opt t given
      ((s, x.2.next e), s.log.drop x.1.log.length)

/-! ## What is asked of a vote -/

def Dismisses (t : ℕ) (effects : List Effect) : Prop :=
  ∃ createrUserID, Effect.dismissRoom t createrUserID ∈ effects

def CountedOnce (info : PrivateTableInfo) : Prop :=
  (info.dismissChairID ++ info.notAgreeChairID).Nodup

/-- **A vote is counted right**: a message counts no chair twice; with a
second refusal the vote is over and the room is not dismissed; and the
room is dismissed when all but one of the users at the table have agreed,
or when the time has passed with one refusal at most. -/
def Counted (opt : ServiceOption) (t : ℕ) (x : PrivateGame × Ballot) (e : VoteEvent) : Prop :=
  (x.1.tableInfo t).start = true →
    match e with
    | .message u dismiss _ => SeatedAt opt x.1 t u →
        (∀ info, vote u (x.1.userItem u).chairID dismiss (x.1.tableInfo t) = some info →
          CountedOnce info ∧
          (2 ≤ info.notAgreeChairID.length →
            ¬ Dismisses t (voteStep opt t x e).2 ∧
            ((voteStep opt t x e).1.1.tableInfo t).dismissChairID = [] ∧
            ((voteStep opt t x e).1.1.tableInfo t).notAgreeChairID = [])) ∧
        (Dismisses t (voteStep opt t x e).2 →
          (x.1.seated opt t).length ≤
            ((x.2.next e).agreed.filter fun v => v ∈ x.1.seated opt t).length + 1)
    | .timer _ => Dismisses t (voteStep opt t x e).2 →
        dismissWaiteTime ≤ 5 * (x.2.next e).ticks ∧ (x.2.next e).refused.length ≤ 1

/-- The condition: nobody agrees who has refused, or refuses who has
agreed. -/
def VoteOk (opt : ServiceOption) (t : ℕ) (x : PrivateGame × Ballot) : VoteEvent → Prop
  | .message u dismiss _ => (x.1.tableInfo t).start = true → SeatedAt opt x.1 t u →
      (x.1.userItem u).chairID ∉
        if dismiss then (x.1.tableInfo t).notAgreeChairID else (x.1.tableInfo t).dismissChairID
  | .timer _ => True

/-- A room that has started, before any vote. -/
structure StartedRoom (opt : ServiceOption) (t : ℕ) where
  game : PrivateGame
  start : (game.tableInfo t).start = true
  inEnd : (game.tableInfo t).inEnd = false
  dismissChairID : (game.tableInfo t).dismissChairID = []
  notAgreeChairID : (game.tableInfo t).notAgreeChairID = []
  dismissPastTime : (game.tableInfo t).dismissPastTime = 0

/-! ## The record and the ballot -/

/-- **The record of a room says what its users know.** -/
structure Voting (opt : ServiceOption) (t : ℕ) (s : PrivateGame) (b : Ballot) : Prop where
  inEnd : (s.tableInfo t).inEnd = false
  dismissChairID : (s.tableInfo t).dismissChairID = b.agreed.map fun u => (s.userItem u).chairID
  notAgreeChairID : (s.tableInfo t).notAgreeChairID = b.refused.map fun u => (s.userItem u).chairID
  dismissPastTime : (s.tableInfo t).dismissPastTime = 5 * b.ticks
  seatedAt : ∀ u ∈ b.agreed ++ b.refused, SeatedAt opt s t u
  once : (b.agreed ++ b.refused).Nodup
  idle : b.agreed = [] → b.refused = [] ∧ b.ticks = 0
  few : b.agreed ≠ [] → b.agreed.length + 1 < (s.seated opt t).length
  calm : b.refused.length ≤ 1

theorem SeatedAt.chair_inj (hu : SeatedAt opt s t u) (hv : SeatedAt opt s t v)
    (h : (s.userItem u).chairID = (s.userItem v).chairID) : u = v := by
  have hseat := hu.2
  rw [h, hv.2] at hseat
  exact (Option.some.inj hseat).symm

theorem SeatedAt.mem_seated (h : SeatedAt opt s t u) : u ∈ s.seated opt t := by
  refine List.mem_filterMap.2 ⟨(s.userItem u).chairID, List.mem_range.2 ?_, h.2⟩
  by_contra hout
  have hseat := h.2
  rw [getTableUserItem, if_neg hout] at hseat
  cases hseat

/-- A chair is in a list of the record exactly when its user is in that
of the ballot. -/
theorem SeatedAt.mem_map_iff (hu : SeatedAt opt s t u) (hus : ∀ v ∈ us, SeatedAt opt s t v) :
    (s.userItem u).chairID ∈ us.map (fun v => (s.userItem v).chairID) ↔ u ∈ us := by
  constructor
  · intro h
    obtain ⟨v, hv, hchair⟩ := List.mem_map.1 h
    exact (SeatedAt.chair_inj (hus v hv) hu hchair) ▸ hv
  · exact fun h => List.mem_map_of_mem h

theorem nodup_chairs (hus : ∀ v ∈ us, SeatedAt opt s t v) (honce : us.Nodup) :
    (us.map fun v => (s.userItem v).chairID).Nodup :=
  honce.map_on fun _ hu _ hv => (hus _ hu).chair_inj (hus _ hv)

variable {b : Ballot}

namespace Voting

theorem mem_dismissChairID (h : Voting opt t s b) (hu : SeatedAt opt s t u) :
    (s.userItem u).chairID ∈ (s.tableInfo t).dismissChairID ↔ u ∈ b.agreed := by
  rw [h.dismissChairID]
  exact hu.mem_map_iff fun v hv => h.seatedAt v (List.mem_append_left _ hv)

theorem mem_notAgreeChairID (h : Voting opt t s b) (hu : SeatedAt opt s t u) :
    (s.userItem u).chairID ∈ (s.tableInfo t).notAgreeChairID ↔ u ∈ b.refused := by
  rw [h.notAgreeChairID]
  exact hu.mem_map_iff fun v hv => h.seatedAt v (List.mem_append_right _ hv)

theorem countedOnce (h : Voting opt t s b) : CountedOnce (s.tableInfo t) := by
  rw [CountedOnce, h.dismissChairID, h.notAgreeChairID, ← List.map_append]
  exact nodup_chairs h.seatedAt h.once

end Voting

theorem StartedRoom.voting (r : StartedRoom opt t) : Voting opt t r.game {} where
  inEnd := r.inEnd
  dismissChairID := r.dismissChairID
  notAgreeChairID := r.notAgreeChairID
  dismissPastTime := r.dismissPastTime
  seatedAt _ h := by cases h
  once := List.nodup_nil
  idle _ := ⟨rfl, rfl⟩
  few h := absurd rfl h
  calm := Nat.zero_le 1

/-! ## Events -/

theorem start_restValue (s : PrivateGame) (t : ℕ) :
    ((s.modifyInfo t (PrivateTableInfo.restValue opt.toTableAttrib)).tableInfo t).start = false := by
  change (Function.update s.tableInfo t _ t).start = false
  rw [Function.update_self]
  rfl

theorem start_closeRoom (s : PrivateGame) (t : ℕ) :
    ((s.closeRoom opt t).tableInfo t).start = false := by
  rw [closeRoom]
  split
  · change (Function.update s.tableInfo t _ t).start = false
    rw [Function.update_self]
    rfl
  · exact start_restValue _ t

theorem message_eq (hu : SeatedAt opt s t u) (dismiss : Bool) (given : Given) :
    s.onTCPNetworkSubDismissPrivate opt u dismiss given =
      match vote u (s.userItem u).chairID dismiss (s.tableInfo t) with
      | none => s
      | some info =>
          if voteDismisses (s.getSitUserCount opt t) info then
            ((s.modifyInfo t fun _ => rejectVote info).dismissRoom opt t given).clearRoom opt t given
          else s.modifyInfo t fun _ => rejectVote info := by
  rw [onTCPNetworkSubDismissPrivate, hu.1] <;> rfl

theorem vote_eq (h : Voting opt t s b) (hstart : (s.tableInfo t).start = true)
    (hu : SeatedAt opt s t u) (dismiss : Bool) :
    vote u (s.userItem u).chairID dismiss (s.tableInfo t) =
      if b.agreed = [] ∧ dismiss = false then none
      else if dismiss then
        if u ∈ b.agreed then none
        else some { s.tableInfo t with
          dismissChairID := (s.tableInfo t).dismissChairID ++ [(s.userItem u).chairID] }
      else if u ∈ b.refused then none
      else some { s.tableInfo t with
        notAgreeChairID := (s.tableInfo t).notAgreeChairID ++ [(s.userItem u).chairID] } := by
  have hagreed := h.mem_dismissChairID hu
  have hrefused := h.mem_notAgreeChairID hu
  have hnil : (s.tableInfo t).dismissChairID = [] ↔ b.agreed = [] := by
    rw [h.dismissChairID, List.map_eq_nil_iff]
  rw [vote, if_neg fun hidle => absurd (hstart.symm.trans hidle.1) (by decide),
    if_neg fun hend => absurd (h.inEnd.symm.trans hend) (by decide)]
  simp only [hagreed, hrefused, hnil]

theorem counted_none (given : Given) (hu : SeatedAt opt x.1 t u)
    (hvote : vote u (x.1.userItem u).chairID dismiss (x.1.tableInfo t) = none) :
    Counted opt t x (.message u dismiss given) ∧
      (voteStep opt t x (.message u dismiss given)).1.1 = x.1 := by
  have hstep : voteStep opt t x (.message u dismiss given) =
      ((x.1, x.2.next (.message u dismiss given)), []) := by
    rw [voteStep]
    rw [if_pos hu, message_eq hu, hvote]
    dsimp only
    rw [List.drop_length]
  refine ⟨fun _ _ => ⟨fun info hinfo => ?_, ?_⟩, by rw [hstep]⟩
  · rw [hvote] at hinfo
    cases hinfo
  · rw [hstep]
    rintro ⟨_, hmem⟩
    cases hmem

theorem voteStep_open (hu : SeatedAt opt x.1 t u)
    (hvote : vote u (x.1.userItem u).chairID dismiss (x.1.tableInfo t) = some info)
    (hopen : voteDismisses (x.1.getSitUserCount opt t) info = false) :
    voteStep opt t x (.message u dismiss given) =
      ((x.1.modifyInfo t fun _ => rejectVote info, x.2.next (.message u dismiss given)), []) := by
  rw [voteStep]
  rw [if_pos hu, message_eq hu, hvote]
  dsimp only
  rw [hopen, if_neg (by decide)]
  exact congrArg (Prod.mk _) List.drop_length

theorem voteStep_dismisses (hu : SeatedAt opt x.1 t u)
    (hvote : vote u (x.1.userItem u).chairID dismiss (x.1.tableInfo t) = some info)
    (hdismisses : voteDismisses (x.1.getSitUserCount opt t) info = true) :
    ((voteStep opt t x (.message u dismiss given)).1.1.tableInfo t).start = false := by
  rw [voteStep]
  rw [if_pos hu, message_eq hu, hvote]
  dsimp only
  rw [hdismisses, if_pos rfl]
  exact start_restValue _ t

theorem voteDismisses_iff (info : PrivateTableInfo) (hstart : info.start = true) (n : ℕ) :
    voteDismisses n info = true ↔ n ≤ info.dismissChairID.length + 1 := by
  rw [voteDismisses, hstart, Bool.not_true, Bool.false_or, decide_eq_true_iff]

theorem filter_seated (hus : ∀ v ∈ us, SeatedAt opt s t v) :
    (us.filter fun v => v ∈ s.seated opt t) = us :=
  List.filter_eq_self.2 fun v hv => decide_eq_true (hus v hv).mem_seated

theorem counted_some (hu : SeatedAt opt x.1 t u)
    (hvote : vote u (x.1.userItem u).chairID dismiss (x.1.tableInfo t) = some info)
    (hchairs : CountedOnce info) (htwo : 2 ≤ info.notAgreeChairID.length →
      voteDismisses (x.1.getSitUserCount opt t) info = false)
    (hall : voteDismisses (x.1.getSitUserCount opt t) info = true → (x.1.seated opt t).length ≤
        ((x.2.next (.message u dismiss given)).agreed.filter fun v =>
          v ∈ x.1.seated opt t).length + 1) :
    Counted opt t x (.message u dismiss given) := by
  refine fun _ _ => ⟨fun info' hinfo => ?_, fun hdismisses => hall ?_⟩
  · obtain rfl := Option.some.inj (hvote.symm.trans hinfo)
    refine ⟨hchairs, fun hlength => ?_⟩
    rw [voteStep_open hu hvote (htwo hlength), tableInfo_modifyInfo, rejectVote, if_pos hlength]
    refine ⟨?_, rfl, rfl⟩
    rintro ⟨_, hmem⟩
    cases hmem
  · by_contra hopen
    rw [voteStep_open hu hvote (Bool.eq_false_iff.2 hopen)] at hdismisses
    obtain ⟨_, hmem⟩ := hdismisses
    cases hmem

namespace Voting

/-- **A user agrees.** -/
theorem agree (h : Voting opt t x.1 x.2)
    (hstart : (x.1.tableInfo t).start = true) (hu : SeatedAt opt x.1 t u)
    (hnot : u ∉ x.2.refused) (given : Given) :
    Counted opt t x (.message u true given) ∧
      (((voteStep opt t x (.message u true given)).1.1.tableInfo t).start = true →
        Voting opt t (voteStep opt t x (.message u true given)).1.1
          (x.2.next (.message u true given))) := by
  have hvote := vote_eq h hstart hu true
  rw [if_neg (by simp), if_pos rfl] at hvote
  by_cases hagreed : u ∈ x.2.agreed
  · rw [if_pos hagreed] at hvote
    obtain ⟨hcounted, hsame⟩ := counted_none given hu hvote
    refine ⟨hcounted, fun _ => ?_⟩
    rw [hsame, Ballot.next, if_pos hagreed]
    exact h
  rw [if_neg hagreed] at hvote
  have hnext : x.2.next (.message u true given) = { x.2 with agreed := x.2.agreed ++ [u] } :=
    if_neg hagreed
  generalize hinfo : ({ x.1.tableInfo t with
    dismissChairID := (x.1.tableInfo t).dismissChairID ++ [(x.1.userItem u).chairID] } :
      PrivateTableInfo) = info at hvote
  have hdismiss : info.dismissChairID =
      (x.2.agreed ++ [u]).map fun v => (x.1.userItem v).chairID := by
    rw [← hinfo, List.map_append, List.map_singleton, ← h.dismissChairID]
  have hrefused : info.notAgreeChairID = x.2.refused.map fun v => (x.1.userItem v).chairID := by
    rw [← hinfo, ← h.notAgreeChairID]
  have hone : ¬ 2 ≤ info.notAgreeChairID.length := by
    rw [hrefused, List.length_map]
    exact Nat.not_le.2 (Nat.lt_succ_of_le h.calm)
  have hseated : ∀ v ∈ x.2.agreed ++ [u] ++ x.2.refused, SeatedAt opt x.1 t v := by
    intro v hv
    rw [List.append_assoc, List.singleton_append] at hv
    rcases List.mem_cons.1 (List.perm_middle.mem_iff.1 hv) with rfl | hv
    · exact hu
    · exact h.seatedAt v hv
  have honce : (x.2.agreed ++ [u] ++ x.2.refused).Nodup := by
    rw [List.append_assoc, List.singleton_append, List.nodup_middle, List.nodup_cons]
    refine ⟨fun hmem => ?_, h.once⟩
    rcases List.mem_append.1 hmem with hmem | hmem
    · exact hagreed hmem
    · exact hnot hmem
  have hbound := voteDismisses_iff info (hinfo ▸ hstart) (x.1.getSitUserCount opt t)
  rw [hdismiss, List.length_map] at hbound
  constructor
  · refine counted_some hu hvote ?_ (fun htwo => absurd htwo hone) fun hdismisses => ?_
    · rw [CountedOnce, hdismiss, hrefused, ← List.map_append]
      exact nodup_chairs hseated honce
    · rw [hnext]
      rw [filter_seated fun v hv => hseated v (List.mem_append_left _ hv)]
      exact hbound.1 hdismisses
  · intro hopen
    have hfew : voteDismisses (x.1.getSitUserCount opt t) info = false := by
      rw [Bool.eq_false_iff]
      intro hdismisses
      exact absurd (hopen.symm.trans (voteStep_dismisses hu hvote hdismisses)) (by decide)
    rw [voteStep_open hu hvote hfew, rejectVote, if_neg hone, hnext]
    exact {
      inEnd := by rw [tableInfo_modifyInfo, ← hinfo]; exact h.inEnd
      dismissChairID := by rw [tableInfo_modifyInfo]; exact hdismiss
      notAgreeChairID := by rw [tableInfo_modifyInfo]; exact hrefused
      dismissPastTime := by rw [tableInfo_modifyInfo, ← hinfo]; exact h.dismissPastTime
      seatedAt := hseated
      once := honce
      idle := fun hnil => absurd hnil (List.append_ne_nil_of_right_ne_nil _ (List.cons_ne_nil _ _))
      few := fun _ => Nat.not_le.1 fun hle =>
        Bool.false_ne_true (hfew.symm.trans (hbound.2 hle))
      calm := h.calm }

/-- **A user refuses.** -/
theorem refuse (h : Voting opt t x.1 x.2)
    (hstart : (x.1.tableInfo t).start = true) (hu : SeatedAt opt x.1 t u)
    (hnot : u ∉ x.2.agreed) (given : Given) :
    Counted opt t x (.message u false given) ∧
      Voting opt t (voteStep opt t x (.message u false given)).1.1
        (x.2.next (.message u false given)) := by
  have hvote := vote_eq h hstart hu false
  by_cases hidle : x.2.agreed = [] ∨ u ∈ x.2.refused
  · have hnone : vote u (x.1.userItem u).chairID false (x.1.tableInfo t) = none := by
      rw [hvote]
      by_cases hnil : x.2.agreed = []
      · rw [if_pos ⟨hnil, rfl⟩]
      · rw [if_neg fun hn => hnil hn.1, if_neg (by decide), if_pos (hidle.resolve_left hnil)]
    obtain ⟨hcounted, hsame⟩ := counted_none given hu hnone
    refine ⟨hcounted, ?_⟩
    rw [hsame, Ballot.next, if_pos hidle]
    exact h
  obtain ⟨hrunning, hfirst⟩ := not_or.1 hidle
  rw [if_neg fun hn => hrunning hn.1, if_neg (by decide), if_neg hfirst] at hvote
  generalize hinfo : ({ x.1.tableInfo t with
    notAgreeChairID := (x.1.tableInfo t).notAgreeChairID ++ [(x.1.userItem u).chairID] } :
      PrivateTableInfo) = info at hvote
  have hdismiss : info.dismissChairID = x.2.agreed.map fun v => (x.1.userItem v).chairID := by
    rw [← hinfo, ← h.dismissChairID]
  have hrefused : info.notAgreeChairID =
      (x.2.refused ++ [u]).map fun v => (x.1.userItem v).chairID := by
    rw [← hinfo, List.map_append, List.map_singleton, ← h.notAgreeChairID]
  have hseated : ∀ v ∈ x.2.agreed ++ (x.2.refused ++ [u]), SeatedAt opt x.1 t v := by
    intro v hv
    rw [← List.append_assoc] at hv
    rcases List.mem_append.1 hv with hv | hv
    · exact h.seatedAt v hv
    · exact List.mem_singleton.1 hv ▸ hu
  have honce : (x.2.agreed ++ (x.2.refused ++ [u])).Nodup := by
    rw [← List.append_assoc, ← List.concat_eq_append, List.nodup_concat]
    refine ⟨fun hmem => ?_, h.once⟩
    rcases List.mem_append.1 hmem with hmem | hmem
    · exact hnot hmem
    · exact hfirst hmem
  -- a refusal adds nothing to those who have agreed, who were too few
  have hfew : voteDismisses (x.1.getSitUserCount opt t) info = false := by
    rw [Bool.eq_false_iff]
    intro hdismisses
    have hle := (voteDismisses_iff info (hinfo ▸ hstart) _).1 hdismisses
    rw [hdismiss, List.length_map] at hle
    exact Nat.not_le.2 (h.few hrunning) hle
  have hcounted : Counted opt t x (.message u false given) := by
    refine counted_some hu hvote ?_ (fun _ => hfew) fun hdismisses =>
      absurd (hfew.symm.trans hdismisses) (by decide)
    rw [CountedOnce, hdismiss, hrefused, ← List.map_append]
    exact nodup_chairs hseated honce
  refine ⟨hcounted, ?_⟩
  rw [voteStep_open hu hvote hfew, Ballot.next, if_neg hidle]
  by_cases hcalm : x.2.refused = []
  · have hone : ¬ 2 ≤ info.notAgreeChairID.length := by
      rw [hrefused, List.length_map, hcalm]
      exact Nat.not_le.2 (Nat.lt_succ_self 1)
    rw [if_pos hcalm, rejectVote, if_neg hone]
    rw [hcalm, List.nil_append] at hrefused hseated honce
    exact {
      inEnd := by rw [tableInfo_modifyInfo, ← hinfo]; exact h.inEnd
      dismissChairID := by rw [tableInfo_modifyInfo]; exact hdismiss
      notAgreeChairID := by rw [tableInfo_modifyInfo]; exact hrefused
      dismissPastTime := by rw [tableInfo_modifyInfo, ← hinfo]; exact h.dismissPastTime
      seatedAt := hseated
      once := honce
      idle := fun hnil => absurd hnil hrunning
      few := h.few
      calm := Nat.le_refl 1 }
  · have htwo : 2 ≤ info.notAgreeChairID.length := by
      rw [hrefused, List.length_map, List.length_append, List.length_singleton]
      exact Nat.succ_le_succ (List.length_pos_iff.2 hcalm)
    rw [if_neg hcalm, rejectVote, if_pos htwo]
    exact {
      inEnd := by rw [tableInfo_modifyInfo, ← hinfo]; exact h.inEnd
      dismissChairID := by rw [tableInfo_modifyInfo]; rfl
      notAgreeChairID := by rw [tableInfo_modifyInfo]; rfl
      dismissPastTime := by rw [tableInfo_modifyInfo]; rfl
      seatedAt := nofun
      once := List.nodup_nil
      idle := fun _ => ⟨rfl, rfl⟩
      few := fun hnil => absurd rfl hnil
      calm := Nat.zero_le 1 }

theorem timerTable_eq (h : Voting opt t s b) (hstart : (s.tableInfo t).start = true)
    (given : Given) : s.timerTable opt t given = s.timerDismiss opt t given := by
  have hagain : s.timerAgain opt t given = s :=
    if_neg fun hend => absurd (h.inEnd.symm.trans hend) (by decide)
  have hcreate : s.timerCreate opt t given = s :=
    if_neg fun hidle => absurd (hstart.symm.trans hidle.2) (by decide)
  rw [timerTable, hagain, hcreate]

theorem timerDismiss_eq (h : Voting opt t s b) (hrunning : b.agreed ≠ []) (given : Given) :
    s.timerDismiss opt t given =
      let s' := s.modifyInfo t fun info => { info with dismissPastTime := info.dismissPastTime + 5 }
      if dismissWaiteTime ≤ 5 * (b.ticks + 1) then s'.dismissRoom opt t given else s' := by
  have hne : (s.tableInfo t).dismissChairID ≠ [] := by
    rw [h.dismissChairID, Ne, List.map_eq_nil_iff]
    exact hrunning
  rw [timerDismiss, if_pos hne]
  dsimp only
  have htime : dismissWaiteTime ≤ 5 * (b.ticks + 1) ∧ b.refused.length ≤ 1 ↔
      dismissWaiteTime ≤ 5 * (b.ticks + 1) := and_iff_left h.calm
  rw [tableInfo_modifyInfo, h.dismissPastTime, h.notAgreeChairID, List.length_map]
  simp only [← Nat.mul_succ, Nat.succ_eq_add_one, htime]

/-- **The timer runs.** -/
theorem tick (h : Voting opt t x.1 x.2) (hstart : (x.1.tableInfo t).start = true) (given : Given) :
    Counted opt t x (.timer given) ∧
      (((voteStep opt t x (.timer given)).1.1.tableInfo t).start = true →
        Voting opt t (voteStep opt t x (.timer given)).1.1 (x.2.next (.timer given))) := by
  have hstep : voteStep opt t x (.timer given) =
      ((x.1.timerDismiss opt t given, x.2.next (.timer given)),
        (x.1.timerDismiss opt t given).log.drop x.1.log.length) := by
    rw [voteStep, h.timerTable_eq hstart]
  by_cases hidle : x.2.agreed = []
  · have hsame : x.1.timerDismiss opt t given = x.1 := by
      refine if_neg fun hne => hne ?_
      rw [h.dismissChairID, hidle, List.map_nil]
    rw [Counted, hstep, hsame, List.drop_length, Ballot.next, if_pos hidle]
    refine ⟨fun _ => ?_, fun _ => h⟩
    rintro ⟨_, hmem⟩
    cases hmem
  have hnext : x.2.next (.timer given) = { x.2 with ticks := x.2.ticks + 1 } := if_neg hidle
  have htimer := h.timerDismiss_eq hidle given
  by_cases htime : dismissWaiteTime ≤ 5 * (x.2.ticks + 1)
  · refine ⟨fun _ _ => ?_, fun hopen => absurd hopen ?_⟩
    · rw [hnext]
      exact ⟨htime, h.calm⟩
    · rw [hstep, htimer]
      rw [if_pos htime, dismissRoom, start_closeRoom]
      decide
  · rw [if_neg htime] at htimer
    have hlog : (x.1.timerDismiss opt t given).log = x.1.log := by
      rw [htimer]
      rfl
    rw [Counted, hstep, hlog, List.drop_length, htimer, hnext]
    refine ⟨fun _ => ?_, fun _ => ?_⟩
    · rintro ⟨_, hmem⟩
      cases hmem
    exact {
      inEnd := by rw [tableInfo_modifyInfo]; exact h.inEnd
      dismissChairID := by rw [tableInfo_modifyInfo]; exact h.dismissChairID
      notAgreeChairID := by rw [tableInfo_modifyInfo]; exact h.notAgreeChairID
      dismissPastTime := by
        rw [tableInfo_modifyInfo]
        rw [h.dismissPastTime, Nat.mul_succ]
      seatedAt := h.seatedAt
      once := h.once
      idle := fun hn => absurd hn hidle
      few := h.few
      calm := h.calm }

end Voting

/-! ## Runs -/

theorem start_clearRoom (s : PrivateGame) (t : ℕ) (given : Given) :
    ((s.clearRoom opt t given).tableInfo t).start = false := start_restValue _ t

theorem start_dismissRoom (s : PrivateGame) (t : ℕ) (given : Given) :
    ((s.dismissRoom opt t given).tableInfo t).start = false := start_closeRoom _ t

theorem start_vote {chairID : ℕ} {info' : PrivateTableInfo}
    (h : vote u chairID dismiss info = some info') : info'.start = info.start := by
  rw [vote] at h
  split_ifs at h
  all_goals cases h; rfl

theorem start_message (hstart : (s.tableInfo t).start = false) (hu : SeatedAt opt s t u)
    (dismiss : Bool) (given : Given) :
    ((s.onTCPNetworkSubDismissPrivate opt u dismiss given).tableInfo t).start = false := by
  rw [message_eq hu]
  cases hvote : vote u (s.userItem u).chairID dismiss (s.tableInfo t) with
  | none => exact hstart
  | some info =>
    have hinfo := (start_vote hvote).trans hstart
    have hdismisses : voteDismisses (s.getSitUserCount opt t) info = true := by
      rw [voteDismisses, hinfo, Bool.not_false, Bool.true_or]
    dsimp only
    rw [if_pos hdismisses]
    exact start_clearRoom _ t given

theorem start_timerTable (hstart : (s.tableInfo t).start = false) (given : Given) :
    ((s.timerTable opt t given).tableInfo t).start = false := by
  have hagain : ((s.timerAgain opt t given).tableInfo t).start = false := by
    rw [timerAgain]
    dsimp only
    split_ifs
    · exact start_clearRoom _ t given
    · rw [tableInfo_modifyInfo]
      exact hstart
    · exact hstart
  have hcreate : (((s.timerAgain opt t given).timerCreate opt t given).tableInfo t).start =
      false := by
    rw [timerCreate]
    dsimp only
    split_ifs
    · exact start_dismissRoom _ t given
    · rw [tableInfo_modifyInfo]
      exact hagain
    · exact hagain
  rw [timerTable, timerDismiss]
  dsimp only
  split_ifs
  · exact start_dismissRoom _ t given
  · rw [tableInfo_modifyInfo]
    exact hcreate
  · exact hcreate

theorem start_of_voteStep {e : VoteEvent}
    (h : ((voteStep opt t x e).1.1.tableInfo t).start = true) : (x.1.tableInfo t).start = true := by
  by_contra hover
  refine absurd h ?_
  rw [Bool.not_eq_true] at hover ⊢
  cases e with
  | message u dismiss given =>
    rw [voteStep]
    by_cases hu : SeatedAt opt x.1 t u
    · rw [if_pos hu]
      exact start_message hover hu dismiss given
    · rw [if_neg hu]
      exact hover
  | timer given => exact start_timerTable hover given

/-- What holds of a room and the votes in it. -/
def Honest (opt : ServiceOption) (t : ℕ) (x : PrivateGame × Ballot) : Prop :=
  (x.1.tableInfo t).start = true → Voting opt t x.1 x.2

theorem voteStep_of_not_seatedAt (hu : ¬ SeatedAt opt x.1 t u) :
    voteStep opt t x (.message u dismiss given) = (x, []) := if_neg hu

/-- **Events that meet the condition are counted right.** -/
theorem voteStep_honest (x : PrivateGame × Ballot) (e : VoteEvent) (h : Honest opt t x)
    (hok : VoteOk opt t x e) : Counted opt t x e ∧ Honest opt t (voteStep opt t x e).1 := by
  by_cases hstart : (x.1.tableInfo t).start = true
  swap
  · exact ⟨fun hs => absurd hs hstart, fun hs => absurd (start_of_voteStep hs) hstart⟩
  have hvoting := h hstart
  cases e with
  | message u dismiss given =>
    by_cases hu : SeatedAt opt x.1 t u
    swap
    · refine ⟨fun _ hseated => absurd hseated hu, ?_⟩
      rw [voteStep_of_not_seatedAt hu]
      exact h
    have hnext : (voteStep opt t x (.message u dismiss given)).1.2 =
        x.2.next (.message u dismiss given) := by
      rw [voteStep]
      rw [if_pos hu]
    rw [Honest, hnext]
    cases dismiss with
    | true =>
      exact hvoting.agree hstart hu (fun hmem => hok hstart hu
        ((hvoting.mem_notAgreeChairID hu).2 hmem)) given
    | false =>
      obtain ⟨hcounted, hnew⟩ := hvoting.refuse hstart hu (fun hmem => hok hstart hu
        ((hvoting.mem_dismissChairID hu).2 hmem)) given
      exact ⟨hcounted, fun _ => hnew⟩
  | timer given => exact hvoting.tick hstart given

/-- **And no other event is.** -/
theorem voteOk_of_counted (x : PrivateGame × Ballot) (e : VoteEvent) (h : Honest opt t x)
    (hcounted : Counted opt t x e) : VoteOk opt t x e := by
  cases e with
  | timer given => trivial
  | message u dismiss given =>
    intro hstart hu hother
    have hvoting := h hstart
    have hvote := vote_eq hvoting hstart hu dismiss
    obtain ⟨hcount, -⟩ := hcounted hstart hu
    cases dismiss with
    | true =>
      have hrefused : u ∈ x.2.refused := (hvoting.mem_notAgreeChairID hu).1 hother
      have hagreed : u ∉ x.2.agreed := fun hmem =>
        List.disjoint_of_nodup_append hvoting.once hmem hrefused
      rw [if_neg (by simp), if_pos rfl, if_neg hagreed] at hvote
      refine List.disjoint_of_nodup_append (hcount _ hvote).1 ?_ hother
      exact List.mem_append_right _ List.mem_cons_self
    | false =>
      have hagreed : u ∈ x.2.agreed := (hvoting.mem_dismissChairID hu).1 hother
      have hrefused : u ∉ x.2.refused := fun hmem =>
        List.disjoint_of_nodup_append hvoting.once hagreed hmem
      rw [if_neg fun hn => List.ne_nil_of_mem hagreed hn.1, if_neg (by decide),
        if_neg hrefused] at hvote
      refine List.disjoint_of_nodup_append (hcount _ hvote).1 hother ?_
      exact List.mem_append_right _ List.mem_cons_self

/-- **The votes of a room are counted right exactly when nobody changes
his mind**, for a room that has started and every sequence of messages and
timers. -/
theorem votes_iff (r : StartedRoom opt t) (es : List VoteEvent) :
    ((∀ n, (((voteStep opt t).run (r.game, {}) (es.take n)).1.1.tableInfo t).start = true →
        CountedOnce (((voteStep opt t).run (r.game, {}) (es.take n)).1.1.tableInfo t)) ∧
      (voteStep opt t).Along (Counted opt t) (r.game, {}) es) ↔
    (voteStep opt t).Along (VoteOk opt t) (r.game, {}) es :=
  TotalMachine.prefixes_iff (I := Honest opt t)
    (P := fun x => (x.1.tableInfo t).start = true → CountedOnce (x.1.tableInfo t))
    (fun _ h hstart => (h hstart).countedOnce) voteStep_honest
    (fun x e h hcounted _ => voteOk_of_counted x e h hcounted) es _ fun _ => r.voting

instance (info : PrivateTableInfo) : Decidable (CountedOnce info) :=
  inferInstanceAs (Decidable (List.Nodup _))

def threeChairs : ServiceOption where
  chairCount := 3
  kindID := 0
  clientVersion := 0
  serverID := 5
  tableCount := 1

def roomOfThree : StartedRoom threeChairs 0 where
  game := ((step threeChairs).run (init threeChairs orderly (fun _ => (0, 0)) fun _ => {})
    [.create 1 {} {}, .join 2 150001 {}, .join 3 150001 {}, .gameStart 0 0]).1
  start := by decide +kernel
  inEnd := by decide +kernel
  dismissChairID := by decide +kernel
  notAgreeChairID := by decide +kernel
  dismissPastTime := by decide +kernel

/-- Who agrees and then refuses is counted as both. -/
theorem changed_mind_is_counted_twice :
    ∃ s, ((voteStep threeChairs 0).run (roomOfThree.game, {})
        [.message 1 true {}, .message 1 false {}]).1.1 = s ∧
      (s.tableInfo 0).start = true ∧
      (s.tableInfo 0).dismissChairID = [0] ∧ (s.tableInfo 0).notAgreeChairID = [0] ∧
      ¬ CountedOnce (s.tableInfo 0) :=
  ⟨_, rfl, by decide +kernel⟩

end GameServer.PrivateService
