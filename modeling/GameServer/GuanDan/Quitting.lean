import GameServer.GuanDan.Model.QuitLog
/-!
# Guandan — who may make a player quit

A request is the sender's own, a request that is out is decided by the
three others, and the timer speaks only for those whose time is up
(`Proper`). In a hand where that is so every penalty, every dismissal and
every request put to the others is one that the log allows
(`quitting_authorised`). The code itself looks at none of the three.
-/

namespace GameServer.GuanDan

/-! ## What quitting is for -/

/-- The request that is out after a log: who is asked about, and what has
come since. A decision and the end of the hand close it. -/
def pending (log : List QuitEntry) : Option (ℕ × List QuitEntry) :=
  log.foldl (fun out entry =>
    match entry with
    | .asked chairID => some (chairID, [])
    | .responseQuit .. | .writeUserScore .. | .dismissed => none
    | _ => out.map fun r => (r.1, r.2 ++ [entry])) none

/-- The requests put to the others, in order. -/
def asks (log : List QuitEntry) : List ℕ :=
  log.filterMap fun
    | .asked chairID => some chairID
    | _ => none

/-- The requests queued, in order. -/
def queues (log : List QuitEntry) : List ℕ :=
  log.filterMap fun
    | .queued chairID => some chairID
    | _ => none

/-- What may come after a log: a request and a penalty for the chair that
just sent for it, the next request once none is out, a decision when just
the three others are recorded, and the end of the hand when each of the
three others said yes to the request that was out. -/
def Allowed (log : List QuitEntry) : QuitEntry → Prop
  | .queued chairID => ∃ (sender : Chair) (message : UInt16) (quitType : UInt8),
      log.getLast? = some (.request sender message quitType) ∧ sender.val = chairID
  | .asked chairID => pending log = none ∧ asks log ++ [chairID] <+: queues log
  | .responseQuit .. => ∀ user answers, pending log = some (user, answers) →
      ∀ i : Chair, (∃ responseType, responseType ≠ 0 ∧ .recorded i responseType ∈ answers) ↔
        i.val ≠ user
  | .dismissed => ∃ before chairID response user answers,
      log = before ++ [.responseQuit chairID response] ∧ pending before = some (user, answers) ∧
        ∀ i : Chair, i.val ≠ user → ∃ message, .response i message 1 ∈ answers
  | .writeUserScore chairID _ => ∃ (sender : Chair) (message : UInt16),
      log.getLast? = some (.request sender message 2) ∧ sender.val = chairID
  | _ => True

/-- Every entry of the log was allowed by those before it. -/
def Authorised (log : List QuitEntry) : Prop :=
  ∀ before entry, before ++ [entry] <+: log → Allowed before entry

/-! ## The log -/

section Log

variable {log entries : List QuitEntry} {entry : QuitEntry}

theorem pending_concat (log : List QuitEntry) (entry : QuitEntry) :
    pending (log ++ [entry]) =
      match entry with
      | .asked chairID => some (chairID, [])
      | .responseQuit .. | .writeUserScore .. | .dismissed => none
      | _ => (pending log).map fun r => (r.1, r.2 ++ [entry]) := by
  rw [pending, List.foldl_append, ← pending]
  rfl

@[simp] theorem asks_append (log entries : List QuitEntry) :
    asks (log ++ entries) = asks log ++ asks entries := List.filterMap_append

@[simp] theorem queues_append (log entries : List QuitEntry) :
    queues (log ++ entries) = queues log ++ queues entries := List.filterMap_append

theorem authorised_nil : Authorised [] := by
  intro before entry h
  have hlength := h.length_le
  simp at hlength

theorem Authorised.concat (hlog : Authorised log) (hentry : Allowed log entry) :
    Authorised (log ++ [entry]) := by
  intro before e h
  obtain heq | hprefix := List.prefix_concat_iff.1 h
  · obtain ⟨rfl, hlast⟩ := List.append_inj' heq rfl
    cases hlast
    exact hentry
  · exact hlog before e hprefix

end Log

/-! ## Votes -/

section Votes

variable {status : Chair → UInt8} {me user : Chair} {responseType : UInt8}

theorem count_all : ∀ (f : Chair → Bool) (user : Chair), f user = false →
    (3 ≤ (List.finRange gamePlayer).countP f ↔ ∀ i, i ≠ user → f i = true) := by decide

theorem count_update : ∀ (f : Chair → Bool) (me : Chair), f me = false →
    (List.finRange gamePlayer).countP (Function.update f me true) =
      (List.finRange gamePlayer).countP f + 1 := by decide

theorem responseCount_eq (status : Chair → UInt8) : responseCount status =
    (List.finRange gamePlayer).countP fun i => decide (status i ≠ 0) := rfl

/-- With `user` silent there are three answers when all others have
answered. -/
theorem responseCount_iff (huser : status user = 0) :
    3 ≤ responseCount status ↔ ∀ i, i ≠ user → status i ≠ 0 := by
  rw [responseCount_eq, count_all _ user (by simp [huser])]
  simp only [decide_eq_true_eq]

theorem agreeQuitCount_iff (huser : status user ≠ 1) :
    3 ≤ agreeQuitCount status ↔ ∀ i, i ≠ user → status i = 1 := by
  rw [agreeQuitCount, count_all _ user (by simp [huser])]
  simp only [decide_eq_true_eq]

theorem responseCount_update (hme : status me = 0) (htype : responseType ≠ 0) :
    responseCount (Function.update status me responseType) = responseCount status + 1 := by
  rw [responseCount_eq, responseCount_eq, ← count_update _ me (by simp [hme])]
  congr 1
  funext i
  by_cases hi : i = me
  · subst hi
    simp [htype]
  · simp [Function.update_of_ne hi]

@[simp] theorem responseCount_zero : responseCount (fun _ => 0) = 0 := by decide

@[simp] theorem agreeQuitCount_zero : agreeQuitCount (fun _ => 0) = 0 := by decide

theorem update_zero (hme : status me = 0) : Function.update status me 0 = status := by
  rw [← hme, Function.update_eq_self]

end Votes

/-! ## The requests and the log -/

def QuitEntry.Incoming : QuitEntry → Prop
  | .request .. | .response .. | .timeOut => True
  | _ => False

namespace QuitSink

variable {s s' : QuitSink} {log entries answers : List QuitEntry} {user me : Chair}
  {requestID chairID : ℕ} {responseType quitType : UInt8} {e : QuitEntry}

/-- No request is out. The answers to the last one may still stand. -/
structure Ready (s : QuitSink) (log : List QuitEntry) : Prop where
  authorised : Authorised log
  order : asks log ++ s.lstRequestUserID = queues log
  unsent : s.haveSendRequestQuit = false
  timer : s.responseQuitTimer = none
  closed : pending log = none
  few : agreeQuitCount s.responseStatus < 3

/-- The request of `user` is out, and another player is still to answer
it. -/
structure Asking (s : QuitSink) (log : List QuitEntry) (user : Chair) (answers : List QuitEntry) :
    Prop where
  authorised : Authorised log
  order : asks log ++ s.lstRequestUserID = queues log
  sent : s.haveSendRequestQuit = true
  out : pending log = some (user.val, answers)
  silent : s.responseStatus user = 0
  own : ∀ responseType, .recorded user responseType ∈ answers → responseType = 0
  recorded : ∀ i, s.responseStatus i ≠ 0 → .recorded i (s.responseStatus i) ∈ answers
  agreed : ∀ i, s.responseStatus i = 1 → ∃ message, .response i message 1 ∈ answers
  waiting : ∃ i, i ≠ user ∧ s.responseStatus i = 0

/-- The requests between two calls of a hand. -/
def InOrder (s : QuitSink) (log : List QuitEntry) : Prop :=
  (∃ user answers, s.Asking log user answers ∧ s.responseQuitTimer = some user.val) ∨
    s.Ready log ∧ s.lstRequestUserID = []

theorem Ready.incoming (hs : s.Ready log) (he : e.Incoming) : s.Ready (log ++ [e]) := by
  obtain ⟨hauthorised, horder, hunsent, htimer, hclosed, hfew⟩ := hs
  cases e with
  | request | response | timeOut =>
    refine ⟨hauthorised.concat trivial, ?_, hunsent, htimer, ?_, hfew⟩
    · simpa [asks, queues] using horder
    · rw [pending_concat, hclosed]
      rfl
  | _ => exact he.elim

theorem Asking.incoming (hs : s.Asking log user answers) (he : e.Incoming) :
    s.Asking (log ++ [e]) user (answers ++ [e]) := by
  have hrecorded : ∀ i t, .recorded i t ∈ answers ++ [e] ↔ .recorded i t ∈ answers := by
    intro i t
    cases e with
    | request | response | timeOut => simp
    | _ => exact he.elim
  have horder : asks (log ++ [e]) ++ s.lstRequestUserID = queues (log ++ [e]) ∧
      pending (log ++ [e]) = some (user.val, answers ++ [e]) ∧ Allowed log e := by
    cases e with
    | request | response | timeOut =>
      refine ⟨by simpa [asks, queues] using hs.order, ?_, trivial⟩
      rw [pending_concat, hs.out]
      rfl
    | _ => exact he.elim
  exact ⟨hs.authorised.concat horder.2.2, horder.1, hs.sent, horder.2.1, hs.silent,
    fun t ht => hs.own t ((hrecorded user t).1 ht),
    fun i hi => (hrecorded i _).2 (hs.recorded i hi),
    fun i hi => (hs.agreed i hi).imp fun _ h => List.mem_append_left _ h, hs.waiting⟩

/-- **The next request** is put to the others when none is out. -/
theorem Ready.sendRequestQuitMsg (hs : s.Ready log) (h : s.sendRequestQuitMsg = some s') :
    (s.lstRequestUserID = [] ∧ s' = s ∧ s.sendRequestEntries = []) ∨
      ∃ user : Chair, s.lstRequestUserID.head? = some user.val ∧
        s'.Asking (log ++ s.sendRequestEntries) user [] ∧ s'.responseQuitTimer = some user.val ∧
        s'.responseStatus = fun _ => 0 := by
  cases hlist : s.lstRequestUserID with
  | nil =>
    simp only [QuitSink.sendRequestQuitMsg, hlist, Option.some.injEq] at h
    exact .inl ⟨rfl, h.symm, by simp only [sendRequestEntries, hlist]⟩
  | cons next rest =>
    simp only [QuitSink.sendRequestQuitMsg, hlist, hs.unsent] at h
    split_ifs at h with hnext
    cases h
    have horder := hs.order
    rw [hlist] at horder
    refine .inr ⟨⟨next, hnext⟩, rfl, ?_, rfl, rfl⟩
    have hentries : s.sendRequestEntries = [.asked next] := by
      simp only [sendRequestEntries, hlist, hs.unsent]
    rw [hentries]
    have hallowed : Allowed log (.asked next) :=
      ⟨hs.closed, rest, by rw [← horder, List.append_assoc, List.singleton_append]⟩
    refine ⟨hs.authorised.concat hallowed, ?_, rfl, pending_concat _ _, rfl, nofun, ?_, ?_, ?_⟩
    · simpa [asks, queues] using horder
    · exact fun i hi => absurd rfl hi
    · intro i hi
      exact absurd hi (show (0 : UInt8) ≠ 1 by decide)
    · obtain ⟨i, hi⟩ := exists_ne (⟨next, hnext⟩ : Chair)
      exact ⟨i, hi, rfl⟩

theorem Ready.inOrder (hs : s.Ready log) (h : s.sendRequestQuitMsg = some s') :
    s'.InOrder (log ++ s.sendRequestEntries) := by
  obtain ⟨hlist, rfl, hentries⟩ | ⟨user, -, hasking, htimer, -⟩ := hs.sendRequestQuitMsg h
  · rw [hentries, List.append_nil]
    exact .inr ⟨hs, hlist⟩
  · exact .inl ⟨user, [], hasking, htimer⟩

/-! ## An answer -/

/-- The requests after a decision against, before the next one is put. -/
def decided (status : Chair → UInt8) (s : QuitSink) : QuitSink :=
  { s with responseStatus := status, responseQuitTimer := none, haveSendRequestQuit := false }

/-- An answer of one who has not answered, by the votes it makes. -/
theorem respond_eq (hme : s.responseStatus me = 0) :
    s.respond requestID responseType me =
      (if 3 ≤ responseCount (Function.update s.responseStatus me responseType) then
        if 3 ≤ agreeQuitCount (Function.update s.responseStatus me responseType) then
          ((s.decided (Function.update s.responseStatus me responseType)).onEventGameConclude 0xFFFF
            .dismiss).map fun r => (r.1, [.recorded me responseType, .responseQuit requestID false,
              .dismissed, .responseQuit requestID true])
        else
          (s.decided (Function.update s.responseStatus me responseType)).sendRequestQuitMsg.map
            fun s' => (s', [.recorded me responseType, .responseQuit requestID false,
              .responseQuit requestID false] ++
              (s.decided (Function.update s.responseStatus me responseType)).sendRequestEntries)
      else
        some ({ s with responseStatus := Function.update s.responseStatus me responseType },
          [.recorded me responseType])) := by
  have hnot : ¬ s.responseStatus me ≠ 0 := not_not.2 hme
  rw [respond, onDoResponseQuit, responseEntries, if_neg hnot, if_neg hnot]
  simp only [← responseCount.eq_1, ← agreeQuitCount.eq_1]
  split_ifs
  · rfl
  · rw [Option.map_map]
    rfl
  · rfl

theorem respond_of_answered (hme : s.responseStatus me ≠ 0) :
    s.respond requestID responseType me = some (s, []) := by
  rw [respond, onDoResponseQuit, responseEntries, if_pos hme, if_pos hme, Option.map_some]

theorem authorised_decision (hlog : Authorised log) (chairID : ℕ)
    (hallowed : Allowed log (.responseQuit chairID false)) :
    Authorised (log ++ [.responseQuit chairID false, .responseQuit chairID false]) ∧
      pending (log ++ [.responseQuit chairID false, .responseQuit chairID false]) = none := by
  have hfirst := hlog.concat hallowed
  have hagain : Allowed (log ++ [.responseQuit chairID false]) (.responseQuit chairID false) :=
    fun user answers hpending => absurd ((pending_concat _ _).symm.trans hpending) nofun
  have hsecond := hfirst.concat hagain
  have hnone := pending_concat (log ++ [.responseQuit chairID false]) (.responseQuit chairID false)
  rw [List.append_assoc] at hsecond hnone
  exact ⟨hsecond, hnone⟩

/-- **An answer when no request is out** changes nothing but itself, as
long as it is not the third yes. -/
theorem Ready.respond (hs : s.Ready log) (hempty : s.lstRequestUserID = [])
    (hfew : s.responseStatus me = 0 →
      agreeQuitCount (Function.update s.responseStatus me responseType) < 3)
    (h : s.respond requestID responseType me = some (s', entries)) :
    s'.Ready (log ++ entries) ∧ s'.lstRequestUserID = [] := by
  by_cases hme : s.responseStatus me = 0
  · have hnew := hfew hme
    have hrecorded : Authorised (log ++ [.recorded me responseType]) :=
      hs.authorised.concat trivial
    have hout : pending (log ++ [.recorded me responseType]) = none := by
      rw [pending_concat, hs.closed]
      rfl
    rw [respond_eq hme, if_neg (not_le.2 hnew)] at h
    split_ifs at h
    · have hsend : (s.decided
          (Function.update s.responseStatus me responseType)).lstRequestUserID = [] := hempty
      simp only [QuitSink.sendRequestQuitMsg, sendRequestEntries, hsend, Option.map_some,
        List.append_nil, Option.some.injEq, Prod.mk.injEq] at h
      obtain ⟨rfl, rfl⟩ := h
      have hdecision := authorised_decision hrecorded requestID fun user answers hpending =>
        absurd (hout.symm.trans hpending) nofun
      rw [List.append_assoc] at hdecision
      refine ⟨⟨hdecision.1, ?_, rfl, rfl, hdecision.2, hnew⟩, hempty⟩
      simpa [asks, queues, decided] using hs.order
    · cases h
      exact ⟨⟨hrecorded, by simpa [asks, queues] using hs.order, hs.unsent, hs.timer, hout, hnew⟩,
        hempty⟩
  · rw [respond_of_answered hme] at h
    cases h
    rw [List.append_nil]
    exact ⟨hs, hempty⟩

/-- What an answer to the request that is out comes to. -/
inductive Answered (s : QuitSink) (log : List QuitEntry) (user : Chair) (answers : List QuitEntry)
    (status : Chair → UInt8) : QuitSink → List QuitEntry → Prop
  /-- Another player is still to answer. -/
  | recorded {entry : QuitEntry}
      (asking : { s with responseStatus := status }.Asking (log ++ [entry]) user
        (answers ++ [entry])) :
      Answered s log user answers status { s with responseStatus := status } [entry]
  /-- All others have answered, not all with yes. -/
  | decided {first : List QuitEntry} {s' : QuitSink} (all : ∀ i, i ≠ user → status i ≠ 0)
      (ready : (s.decided status).Ready (log ++ first))
      (next : (s.decided status).sendRequestQuitMsg = some s') :
      Answered s log user answers status s' (first ++ (s.decided status).sendRequestEntries)
  /-- All others have said yes. -/
  | dismissed {entries : List QuitEntry} {s' : QuitSink} (all : ∀ i, i ≠ user → status i = 1)
      (authorised : Authorised (log ++ entries)) (ended : s'.table.gameStatus = .free) :
      Answered s log user answers status s' entries

theorem onEventGameConclude_free {reason : EndReason} {out : List Output}
    (hreason : reason ≠ .normal)
    (h : s.onEventGameConclude chairID reason = some (s', out)) : s'.table.gameStatus = .free := by
  rw [QuitSink.onEventGameConclude] at h
  split_ifs at h
  all_goals
    obtain ⟨r, hr, hs'⟩ := Option.map_eq_some_iff.1 h
    cases hs'
    cases reason with
    | normal => exact absurd rfl hreason
    | _ =>
      simp only [TableSink.onEventGameConclude] at hr
      split_ifs at hr
      cases hr
      rfl

/-- **An answer to the request that is out**, by one of the others, or one
that says nothing. -/
theorem Asking.respond (hs : s.Asking log user answers) (hme : s.responseStatus me = 0)
    (hsender : me = user → responseType = 0)
    (hagree : responseType = 1 → ∃ message, .response me message 1 ∈ answers)
    (h : s.respond requestID responseType me = some (s', entries)) :
    s.Answered log user answers (Function.update s.responseStatus me responseType) s' entries := by
  set status := Function.update s.responseStatus me responseType with hstatus
  have hsilent : status user = 0 := by
    by_cases heq : user = me
    · rw [hstatus, heq, Function.update_self, hsender heq.symm]
    · rw [hstatus, Function.update_of_ne heq, hs.silent]
  have hown : ∀ t, .recorded user t ∈ answers ++ [.recorded me responseType] → t = 0 := by
    intro t ht
    obtain ht | ht := List.mem_append.1 ht
    · exact hs.own t ht
    · cases List.mem_singleton.1 ht
      exact hsender rfl
  have hrecorded : ∀ i, status i ≠ 0 →
      .recorded i (status i) ∈ answers ++ [.recorded me responseType] := by
    intro i hi
    by_cases heq : i = me
    · subst heq
      rw [hstatus, Function.update_self]
      exact List.mem_append_right _ List.mem_cons_self
    · rw [hstatus, Function.update_of_ne heq] at hi ⊢
      exact List.mem_append_left _ (hs.recorded i hi)
  have hagreed : ∀ i, status i = 1 → ∃ message,
      .response i message 1 ∈ answers ++ [.recorded me responseType] := by
    intro i hi
    by_cases heq : i = me
    · subst heq
      rw [hstatus, Function.update_self] at hi
      exact (hagree hi).imp fun _ => List.mem_append_left _
    · rw [hstatus, Function.update_of_ne heq] at hi
      exact (hs.agreed i hi).imp fun _ => List.mem_append_left _
  have hlog : Authorised (log ++ [.recorded me responseType]) := hs.authorised.concat trivial
  have hout : pending (log ++ [.recorded me responseType]) =
      some (user.val, answers ++ [.recorded me responseType]) := by
    rw [pending_concat, hs.out]
    rfl
  have horder : asks (log ++ [.recorded me responseType]) ++ s.lstRequestUserID =
      queues (log ++ [.recorded me responseType]) := by simpa [asks, queues] using hs.order
  rw [respond_eq hme, ← hstatus] at h
  by_cases hcount : 3 ≤ responseCount status
  · have hall := (responseCount_iff hsilent).1 hcount
    have hallowed : ∀ response,
        Allowed (log ++ [.recorded me responseType]) (.responseQuit requestID response) := by
      intro response user' answers' hpending i
      cases hout.symm.trans hpending
      constructor
      · rintro ⟨t, ht, hmem⟩ hi
        cases Fin.ext hi
        exact ht (hown t hmem)
      · exact fun hi => ⟨status i, hall i fun heq => hi (congrArg Fin.val heq),
          hrecorded i (hall i fun heq => hi (congrArg Fin.val heq))⟩
    rw [if_pos hcount] at h
    by_cases hyes : 3 ≤ agreeQuitCount status
    · have hyes' := (agreeQuitCount_iff (by rw [hsilent]; decide)).1 hyes
      rw [if_pos hyes] at h
      obtain ⟨r, hr, heq⟩ := Option.map_eq_some_iff.1 h
      cases heq
      refine .dismissed hyes' ?_
        (onEventGameConclude_free (show EndReason.dismiss ≠ .normal from nofun) hr)
      have hfirst := hlog.concat (hallowed false)
      have hdone : Allowed ((log ++ [.recorded me responseType]) ++
          [.responseQuit requestID false]) .dismissed :=
        ⟨_, requestID, false, user, _, rfl, hout, fun i hi =>
          hagreed i (hyes' i fun heq => hi (congrArg Fin.val heq))⟩
      have htold : Allowed ((log ++ [.recorded me responseType]) ++
          [.responseQuit requestID false] ++ [.dismissed]) (.responseQuit requestID true) :=
        fun user answers hpending => absurd ((pending_concat _ _).symm.trans hpending) nofun
      have hlast := (hfirst.concat hdone).concat htold
      simpa using hlast
    · rw [if_neg hyes] at h
      obtain ⟨s'', hnext, heq⟩ := Option.map_eq_some_iff.1 h
      cases heq
      have hdecision := authorised_decision hlog requestID (hallowed false)
      rw [List.append_assoc] at hdecision
      refine .decided hall ⟨hdecision.1, ?_, rfl, rfl, hdecision.2, not_le.1 hyes⟩ hnext
      simpa [asks, queues, QuitSink.decided] using horder
  · rw [if_neg hcount] at h
    cases h
    have hwaiting : ∃ i, i ≠ user ∧ status i = 0 := by
      by_contra hnone
      push Not at hnone
      exact hcount ((responseCount_iff hsilent).2 hnone)
    exact .recorded ⟨hlog, horder, hs.sent, hout, hsilent, hown, hrecorded, hagreed, hwaiting⟩

/-! ## The timer

The loop answers the request that is out until all have answered, and goes
on through the request put next, or through none. -/

section TimeOut

variable {asker : ℕ} {l : List Chair} {r : QuitSink × List QuitEntry}

theorem timeOutOne_cases (h : timeOutOne asker s me = some (s', entries)) :
    (me.val ≠ asker ∧ s.responseStatus me = 0 ∧ s.respond asker 2 me = some (s', entries)) ∨
      ¬ (me.val ≠ asker ∧ s.responseStatus me = 0) ∧ s' = s ∧ entries = [] := by
  rw [timeOutOne] at h
  split_ifs at h with hsilent
  · exact .inl ⟨hsilent.1, hsilent.2, h⟩
  · cases h
    exact .inr ⟨hsilent, rfl, rfl⟩

theorem timeOut_of_answered (hall : ∀ i ∈ l, i.val ≠ asker → s.responseStatus i ≠ 0) :
    Machine.run (timeOutOne asker) s l = some (s, []) := by
  induction l with
  | nil => rfl
  | cons i l ih =>
    have hone : timeOutOne asker s i = some (s, []) :=
      if_neg fun h => hall i List.mem_cons_self h.1 h.2
    rw [Machine.run_cons hone, ih fun j hj => hall j (List.mem_cons_of_mem i hj), Option.map_some,
      List.nil_append]

/-- The loop on the request put next: it is not the turn of the chair
asked about, and too few are left to decide. -/
theorem Asking.timeOut_next (hnext : ∀ i ∈ l, i.val ≠ asker → i ≠ user)
    (hfew : responseCount s.responseStatus + (l.filter fun i => i.val ≠ asker).length < 3)
    (hs : s.Asking log user answers)
    (h : Machine.run (timeOutOne asker) s l = some r) :
    ∃ answers', r.1.Asking (log ++ r.2) user answers' ∧
      r.1.responseQuitTimer = s.responseQuitTimer := by
  induction l generalizing s log answers r with
  | nil =>
    cases h
    exact ⟨answers, by rwa [List.append_nil], rfl⟩
  | cons i l ih =>
    obtain ⟨s₁, out, rest, hone, hrest, hr⟩ := Machine.run_cons_eq_some h
    have hnext' := fun j hj => hnext j (List.mem_cons_of_mem i hj)
    rw [hr, ← List.append_assoc]
    obtain ⟨hasker, hsilent, hone⟩ | ⟨-, rfl, rfl⟩ := timeOutOne_cases hone
    · have hi : i ≠ user := hnext i List.mem_cons_self hasker
      have hcount := responseCount_update hsilent (show (2 : UInt8) ≠ 0 by decide)
      rw [List.filter_cons_of_pos (by simpa using hasker), List.length_cons] at hfew
      cases hs.respond hsilent (fun heq => absurd heq hi) (fun h => absurd h (by decide)) hone with
      | recorded hasking =>
        exact ih hnext' (by rw [hcount]; omega) hasking hrest
      | decided hall =>
        have hsilent' : Function.update s.responseStatus i 2 user = 0 := by
          rw [Function.update_of_ne hi.symm, hs.silent]
        have hthree := (responseCount_iff hsilent').2 hall
        omega
      | dismissed hall => exact absurd (hall i hi) (by rw [Function.update_self]; decide)
    · rw [List.append_nil]
      refine ih hnext' (lt_of_le_of_lt ?_ hfew) hs hrest
      exact Nat.add_le_add_left ((List.sublist_cons_self i l).filter _).length_le _

/-- **The loop** on the request whose time is up. Who is still silent is
to come, and the chair to be asked about next is not behind all of
them. -/
theorem Asking.timeOut (hsorted : l.Pairwise (· < ·))
    (hfew : (l.filter fun i => i.val ≠ user.val).length ≤ 3)
    (hwait : ∀ i, i ≠ user → s.responseStatus i = 0 → i ∈ l)
    (hnext : ∀ next ∈ s.lstRequestUserID.head?, next = user.val ∨
      ∃ i, next ≤ i.val ∧ i ≠ user ∧ s.responseStatus i = 0)
    (htimer : s.responseQuitTimer = none) (hs : s.Asking log user answers)
    (h : Machine.run (timeOutOne user) s l = some r) : r.1.InOrder (log ++ r.2) := by
  induction l generalizing s log answers r with
  | nil =>
    obtain ⟨i, hi, hsilent⟩ := hs.waiting
    exact absurd (hwait i hi hsilent) List.not_mem_nil
  | cons i l ih =>
    obtain ⟨s₁, out, rest, hone, hrest, hr⟩ := Machine.run_cons_eq_some h
    obtain ⟨hbefore, hsorted⟩ := List.pairwise_cons.1 hsorted
    rw [hr, ← List.append_assoc]
    obtain ⟨hasker, hsilent, hone⟩ | ⟨hanswered, rfl, rfl⟩ := timeOutOne_cases hone
    · have hi : i ≠ user := fun heq => hasker (congrArg Fin.val heq)
      rw [List.filter_cons_of_pos (by simpa using hasker), List.length_cons] at hfew
      have hupdate : ∀ j, Function.update s.responseStatus i 2 j = 0 →
          j ≠ i ∧ s.responseStatus j = 0 := by
        intro j hj
        by_cases heq : j = i
        · rw [heq, Function.update_self] at hj
          exact absurd hj (by decide)
        · exact ⟨heq, by rwa [Function.update_of_ne heq] at hj⟩
      cases hs.respond hsilent (fun heq => absurd heq hi) (fun h => absurd h (by decide)) hone with
      | recorded hasking =>
        refine ih (s := { s with responseStatus := Function.update s.responseStatus i 2 }) hsorted
          (by omega) (fun j hj hzero => ?_) (fun next hmem => ?_) htimer hasking hrest
        · obtain ⟨hne, hzero⟩ := hupdate j hzero
          exact (List.mem_cons.1 (hwait j hj hzero)).resolve_left hne
        · -- one who is still silent comes after `i`
          refine (hnext next hmem).imp_right fun hsome => ?_
          obtain ⟨k, hk, hzero⟩ := hasking.waiting
          obtain ⟨hne, hzero'⟩ := hupdate k hzero
          have hlater := hbefore k ((List.mem_cons.1 (hwait k hk hzero')).resolve_left hne)
          obtain ⟨j, hle, hj, hj'⟩ := hsome
          by_cases heq : j = i
          · exact ⟨k, hle.trans (heq ▸ hlater.le), hk, hzero⟩
          · exact ⟨j, hle, hj, (Function.update_of_ne heq _ _).trans hj'⟩
      | decided hall hready hsend =>
        have hlast : ∀ j, j ≠ user → s.responseStatus j = 0 → j = i := by
          intro j hj hzero
          by_contra hne
          exact hall j hj ((Function.update_of_ne hne _ _).trans hzero)
        rw [← List.append_assoc]
        obtain ⟨hempty, rfl, hentries⟩ | ⟨next, hhead, hasking, htimer', hzero⟩ :=
          hready.sendRequestQuitMsg hsend
        · rw [timeOut_of_answered fun j _ hj => hall j fun heq => hj (congrArg Fin.val heq)] at hrest
          obtain ⟨hstate, hout⟩ := Prod.mk.inj (Option.some.inj hrest)
          rw [hentries, ← hstate, ← hout, List.append_nil, List.append_nil]
          exact .inr ⟨hready, hempty⟩
        · have hbehind : ∀ j ∈ l, j.val ≠ user.val → j ≠ next := by
            rintro j hj hne rfl
            obtain heq | ⟨k, hle, hk, hk'⟩ := hnext j.val hhead
            · exact hne heq
            · exact absurd (hbefore j hj) (not_lt.2 ((hlast k hk hk') ▸ hle))
          have hfew' : responseCount s₁.responseStatus +
              (l.filter fun i => i.val ≠ user.val).length < 3 := by
            rw [hzero, responseCount_zero]
            omega
          obtain ⟨answers', hasking', htimer''⟩ := hasking.timeOut_next hbehind hfew' hrest
          exact .inl ⟨next, answers', hasking', htimer''.trans htimer'⟩
      | dismissed hall => exact absurd (hall i hi) (by rw [Function.update_self]; decide)
    · rw [List.append_nil]
      refine ih hsorted ?_ (fun j hj hzero => ?_) hnext htimer hs hrest
      · exact (((List.sublist_cons_self i l).filter _).length_le).trans hfew
      · refine (List.mem_cons.1 (hwait j hj hzero)).resolve_left ?_
        rintro rfl
        exact hanswered ⟨fun heq => hj (Fin.ext heq), hzero⟩

end TimeOut

/-! ## A hand -/

def InHand (s : QuitSink) : Prop := s.table.gameStatus ≠ .free

/-- `OnSubRequestQuit` acts on a request of the chair. -/
def Heeds (s : QuitSink) (chairID : ℕ) (quitType : UInt8) : Prop :=
  quitType = 2 ∨ ∃ h : chairID < gamePlayer, s.requestTimes ⟨chairID, h⟩ < requestQuitCount

/-- A request that is acted on names its sender. An answer that is heard
and says something is not the asker's own, or, with no request out, not
the third yes. When a request times out, the chair to be asked about next
is the asker's or not behind all that are silent. -/
def Proper (s : QuitSink) : QuitCall → Prop
  | .play _ => True
  | .requestQuit sender playing chairID quitType =>
      playing = true → s.Heeds chairID.toNat quitType → chairID.toNat = sender.val
  | .responseQuit sender playing _ responseType =>
      playing = true → responseType ≠ 0 → s.responseStatus sender = 0 →
        if s.haveSendRequestQuit = true then s.responseQuitTimer ≠ some sender.val
        else agreeQuitCount (Function.update s.responseStatus sender responseType) < 3
  | .responseQuitTimer =>
      ∀ asker ∈ s.responseQuitTimer, ∀ next ∈ s.lstRequestUserID.head?,
        next = asker ∨ ∃ i : Chair, next ≤ i.val ∧ i.val ≠ asker ∧ s.responseStatus i = 0

/-- What a run of a hand keeps. -/
structure Kept (s : QuitSink) (log : List QuitEntry) : Prop where
  authorised : Authorised log
  inOrder : s.InHand → s.InOrder log

theorem InOrder.authorised (hs : s.InOrder log) : Authorised log := by
  obtain ⟨user, answers, hasking, -⟩ | ⟨hready, -⟩ := hs
  · exact hasking.authorised
  · exact hready.authorised

theorem InOrder.kept (hs : s.InOrder log) : s.Kept log := ⟨hs.authorised, fun _ => hs⟩

theorem InOrder.incoming (hs : s.InOrder log) (he : e.Incoming) : s.InOrder (log ++ [e]) := by
  obtain ⟨user, answers, hasking, htimer⟩ | ⟨hready, hempty⟩ := hs
  · exact .inl ⟨user, answers ++ [e], hasking.incoming he, htimer⟩
  · exact .inr ⟨hready.incoming he, hempty⟩

theorem sendRequestQuitMsg_of_sent (hsent : s.haveSendRequestQuit = true) :
    s.sendRequestQuitMsg = some s ∧ s.sendRequestEntries = [] := by
  cases hlist : s.lstRequestUserID with
  | nil => simp only [sendRequestQuitMsg, sendRequestEntries, hlist, and_self]
  | cons => simp only [sendRequestQuitMsg, sendRequestEntries, hlist, hsent, and_self]

theorem Asking.queued (hs : s.Asking log user answers) (h : Allowed log (.queued chairID)) :
    { s with lstRequestUserID := s.lstRequestUserID ++ [chairID] }.Asking
      (log ++ [QuitEntry.queued chairID]) user (answers ++ [QuitEntry.queued chairID]) := by
  have hmem : ∀ {a}, a ∈ answers ++ [QuitEntry.queued chairID] → a ≠ .queued chairID →
      a ∈ answers :=
    fun ha hne => (List.mem_append.1 ha).resolve_right fun h => hne (List.mem_singleton.1 h)
  refine ⟨hs.authorised.concat h, ?_, hs.sent, ?_, hs.silent, fun t ht => hs.own t (hmem ht nofun),
    fun i hi => List.mem_append_left _ (hs.recorded i hi),
    fun i hi => (hs.agreed i hi).imp fun _ => List.mem_append_left _, hs.waiting⟩
  · simp only [asks_append, queues_append, ← hs.order, List.append_assoc]
    rfl
  · rw [pending_concat, hs.out]
    rfl

theorem Ready.queued (hs : s.Ready log) (h : Allowed log (.queued chairID)) :
    { s with lstRequestUserID := s.lstRequestUserID ++ [chairID] }.Ready
      (log ++ [QuitEntry.queued chairID]) := by
  refine ⟨hs.authorised.concat h, ?_, hs.unsent, hs.timer, ?_, hs.few⟩
  · simp only [asks_append, queues_append, ← hs.order, List.append_assoc]
    rfl
  · rw [pending_concat, hs.closed]
    rfl

/-- **A request** of the sender's own. -/
theorem InOrder.requestQuit {sender : Chair} {message : UInt16} {cellScore : ℤ}
    {userScore : ℕ → ℤ} {out : List Output} (hs : s.InOrder log)
    (hsender : s.Heeds chairID quitType → chairID = sender.val)
    (h : s.onSubRequestQuit chairID quitType = some (s', out)) :
    s'.Kept (log ++ .request sender message quitType ::
      s.requestEntries cellScore userScore chairID quitType) := by
  have hincoming := hs.incoming (e := .request sender message quitType) trivial
  rw [List.append_cons]
  rw [onSubRequestQuit] at h
  rw [requestEntries]
  split_ifs at h ⊢ with hforce hchair htimes
  · refine ⟨?_, fun hhand => absurd (onEventGameConclude_free
      (show EndReason.userLeave ≠ .normal from nofun) h) hhand⟩
    have hwrite : Allowed (log ++ [.request sender message quitType])
        (.writeUserScore chairID (0 - (min (flee * cellScore) (userScore chairID)).natAbs)) :=
      ⟨sender, message, by rw [List.getLast?_concat, hforce], (hsender (.inl hforce)).symm⟩
    have hquit (log : List QuitEntry) : Allowed log (.forceQuit chairID) := trivial
    have hlast := (hincoming.authorised.concat hwrite).concat (hquit _)
    rwa [List.append_assoc] at hlast
  · cases h
    rw [List.append_nil]
    exact hincoming.kept
  · obtain ⟨t, hsend, heq⟩ := Option.map_eq_some_iff.1 h
    cases heq
    have hallowed : Allowed (log ++ [.request sender message quitType]) (.queued chairID) :=
      ⟨sender, message, quitType, List.getLast?_concat,
        (hsender (.inr ⟨hchair, not_le.1 htimes⟩)).symm⟩
    rw [List.append_cons]
    obtain ⟨user, answers, hasking, htimer⟩ | ⟨hready, -⟩ := hincoming
    · have hqueued := hasking.queued hallowed
      obtain ⟨hsame, hentries⟩ := sendRequestQuitMsg_of_sent hqueued.sent
      cases hsame.symm.trans hsend
      rw [hentries, List.append_nil]
      exact InOrder.kept (.inl ⟨user, _, hqueued, htimer⟩)
    · exact ((hready.queued hallowed).inOrder hsend).kept

/-- **An answer**, heard or not. -/
theorem InOrder.responseQuit {message : UInt16} (hs : s.InOrder log)
    (hsender : responseType ≠ 0 → s.responseStatus me = 0 →
      if s.haveSendRequestQuit = true then s.responseQuitTimer ≠ some me.val
      else agreeQuitCount (Function.update s.responseStatus me responseType) < 3)
    (h : s.respond message.toNat responseType me = some (s', entries)) :
    s'.Kept (log ++ .response me message responseType :: entries) := by
  rw [List.append_cons]
  by_cases hme : s.responseStatus me = 0
  · obtain ⟨user, answers, hasking, htimer⟩ | ⟨hready, hempty⟩ := hs
    · have hsilent : me = user → responseType = 0 := by
        rintro rfl
        by_contra htype
        have hproper := hsender htype hme
        rw [if_pos hasking.sent] at hproper
        exact hproper htimer
      have hincoming := hasking.incoming (e := .response me message responseType) trivial
      cases hincoming.respond hme hsilent
          (fun hyes => ⟨message, List.mem_append_right _ (by rw [hyes]; exact List.mem_cons_self)⟩)
          h with
      | recorded hasking' => exact InOrder.kept (.inl ⟨user, _, hasking', htimer⟩)
      | decided _ hready hnext =>
        rw [← List.append_assoc]
        exact (hready.inOrder hnext).kept
      | dismissed _ hauthorised hended => exact ⟨hauthorised, fun hhand => absurd hended hhand⟩
    · have hfew : agreeQuitCount (Function.update s.responseStatus me responseType) < 3 := by
        by_cases htype : responseType = 0
        · rw [htype, update_zero hme]
          exact hready.few
        · have hproper := hsender htype hme
          rwa [if_neg (by rw [hready.unsent]; decide)] at hproper
      have hincoming := hready.incoming (e := .response me message responseType) trivial
      exact InOrder.kept (.inr (hincoming.respond hempty (fun _ => hfew) h))
  · rw [respond_of_answered hme] at h
    cases h
    rw [List.append_nil]
    exact (hs.incoming (e := .response me message responseType) trivial).kept

/-- **The time is up** for the request that is out. -/
theorem InOrder.responseQuitTimer {asker : ℕ} {r : QuitSink × List QuitEntry} (hs : s.InOrder log)
    (hasker : s.responseQuitTimer = some asker)
    (hnext : ∀ next ∈ s.lstRequestUserID.head?, next = asker ∨
      ∃ i : Chair, next ≤ i.val ∧ i.val ≠ asker ∧ s.responseStatus i = 0)
    (h : s.timeOut asker = some r) : r.1.Kept (log ++ .timeOut :: r.2) := by
  rw [List.append_cons]
  obtain ⟨user, answers, hasking, htimer⟩ | ⟨hready, -⟩ := hs
  · cases hasker.symm.trans htimer
    obtain ⟨hauthorised, horder, hsent, hout, hsilent, hown, hrecorded, hagreed, hwaiting⟩ :=
      hasking.incoming (e := .timeOut) trivial
    have hstopped : ({ s with responseQuitTimer := none } : QuitSink).Asking (log ++ [.timeOut]) user
        (answers ++ [.timeOut]) :=
      ⟨hauthorised, horder, hsent, hout, hsilent, hown, hrecorded, hagreed, hwaiting⟩
    refine (hstopped.timeOut (List.pairwise_lt_finRange _) ?_ (fun i _ _ => List.mem_finRange i)
      (fun next hmem => ?_) rfl h).kept
    · exact (by decide : ∀ user : Chair,
        ((List.finRange gamePlayer).filter fun i => i.val ≠ user.val).length ≤ 3) user
    · exact (hnext next hmem).imp_right fun ⟨i, hle, hi, hzero⟩ =>
        ⟨i, hle, fun heq => hi (congrArg Fin.val heq), hzero⟩
  · exact absurd (hready.timer.symm.trans hasker) nofun

variable {cellScore : ℤ} {userScore : ℕ → ℤ}

/-- **A step** of a hand. -/
theorem Kept.call (s : QuitSink) (log : List QuitEntry) (c : QuitCall) (s' : QuitSink)
    (entries : List QuitEntry) (hs : s.Kept log) (hok : s.InHand ∧ s.Proper c)
    (h : s.call cellScore userScore c = some (s', entries)) : s'.Kept (log ++ entries) := by
  have hinOrder := hs.inOrder hok.1
  cases c with
  | play table =>
    cases h
    rw [List.append_nil]
    obtain ⟨user, answers, ⟨hauthorised, horder, hsent, hout, hsilent, hown, hrecorded, hagreed,
      hwaiting⟩, htimer⟩ | ⟨⟨hauthorised, horder, hunsent, htimer, hclosed, hfew⟩, hempty⟩ := hinOrder
    · exact InOrder.kept (.inl ⟨user, answers, ⟨hauthorised, horder, hsent, hout, hsilent, hown,
        hrecorded, hagreed, hwaiting⟩, htimer⟩)
    · exact InOrder.kept (.inr ⟨⟨hauthorised, horder, hunsent, htimer, hclosed, hfew⟩, hempty⟩)
  | requestQuit sender playing chairID quitType =>
    rw [QuitSink.call] at h
    split_ifs at h with hplaying
    · obtain ⟨r, hr, heq⟩ := Option.map_eq_some_iff.1 h
      cases heq
      exact hinOrder.requestQuit (hok.2 hplaying) hr
    · cases h
      rwa [List.append_nil]
  | responseQuit sender playing chairID responseType =>
    rw [QuitSink.call] at h
    split_ifs at h with hplaying
    · obtain ⟨r, hr, heq⟩ := Option.map_eq_some_iff.1 h
      cases heq
      exact hinOrder.responseQuit (hok.2 hplaying) hr
    · cases h
      rwa [List.append_nil]
  | responseQuitTimer =>
    rw [QuitSink.call] at h
    split at h
    · rename_i asker hasker
      obtain ⟨r, hr, heq⟩ := Option.map_eq_some_iff.1 h
      cases heq
      exact hinOrder.responseQuitTimer hasker (hok.2 asker hasker) hr
    · cases h
      rwa [List.append_nil]

/-- **Every hand** whose calls are proper has a log in which each penalty,
each dismissal and each request put was due. -/
theorem quitting_authorised {table : TableSink} {calls : List QuitCall}
    {r : QuitSink × List QuitEntry}
    (hhand : Machine.Along (call cellScore userScore) (fun s _ => s.InHand) { table } calls)
    (hproper : Machine.Along (call cellScore userScore) Proper { table } calls)
    (hrun : Machine.run (call cellScore userScore) { table } calls = some r) : Authorised r.2 := by
  have hstart : ({ table } : QuitSink).Kept [] :=
    InOrder.kept (.inr ⟨⟨authorised_nil, rfl, rfl, rfl, rfl, agreeQuitCount_zero.trans_lt (by decide)⟩,
      rfl⟩)
  exact (Machine.inv_run_traced Kept.call calls _ [] r hstart (Machine.along_and hhand hproper)
    hrun).authorised

instance (s : QuitSink) : Decidable s.InHand :=
  inferInstanceAs (Decidable (s.table.gameStatus ≠ .free))

instance (s : QuitSink) (chairID : ℕ) (quitType : UInt8) : Decidable (s.Heeds chairID quitType) :=
  inferInstanceAs (Decidable (quitType = 2 ∨ ∃ _ : chairID < gamePlayer, _ < requestQuitCount))

instance (s : QuitSink) : ∀ c, Decidable (s.Proper c)
  | .play _ => inferInstanceAs (Decidable True)
  | .requestQuit _ _ _ _ => inferInstanceAs (Decidable (_ → _ → _))
  | .responseQuit _ _ _ _ => inferInstanceAs (Decidable (_ → _ → _ → ite _ _ _))
  | .responseQuitTimer => inferInstanceAs (Decidable (∀ asker ∈ _, ∀ next ∈ _, _ ∨ ∃ _ : Chair, _))

def dealt : TableSink :=
  ((Machine.run TableSink.step {} [.gameStart fun n => 15 * n * n]).map Prod.fst).getD {}

/-- Chair 0 asks to leave, and all others say yes. -/
theorem quitting_authorised_vote : ∃ r, Machine.run (call 10 fun _ => 100) { table := dealt }
    [.requestQuit 0 true 0 1, .responseQuit 1 true 0 1, .responseQuit 2 true 0 1,
      .responseQuit 3 true 0 1] = some r ∧ Authorised r.2 := by
  have hrun : (Machine.run (call 10 fun _ => 100) { table := dealt }
    [.requestQuit 0 true 0 1, .responseQuit 1 true 0 1, .responseQuit 2 true 0 1,
      .responseQuit 3 true 0 1]).isSome := by decide +kernel
  obtain ⟨r, hr⟩ := Option.isSome_iff_exists.1 hrun
  exact ⟨r, hr, quitting_authorised (by decide +kernel) (by decide +kernel) hr⟩

/-- **Not every hand**: chair 0 makes chair 1 pay for a flight, and chair 0
says yes to its own request for chair 3. -/
theorem quitting_unauthorised : dealt.gameStatus ≠ .free ∧
    (∃ log, (Machine.run (call 10 fun _ => 100) { table := dealt }
      [.requestQuit 0 true 1 2]).map Prod.snd = some log ∧ ¬ Authorised log) ∧
    ∃ log, (Machine.run (call 10 fun _ => 100) { table := dealt }
      [.requestQuit 0 true 0 1, .responseQuit 1 true 0 1, .responseQuit 2 true 0 1,
        .responseQuit 0 true 0 1]).map Prod.snd = some log ∧ ¬ Authorised log := by
  refine ⟨by decide +kernel, ⟨[.request 0 1 2, .writeUserScore 1 (-50), .forceQuit 1],
    by decide +kernel, fun h => ?_⟩, ⟨[.request 0 0 1, .queued 0, .asked 0, .response 1 0 1,
      .recorded 1 1, .response 2 0 1, .recorded 2 1, .response 0 0 1, .recorded 0 1,
      .responseQuit 0 false, .dismissed, .responseQuit 0 true], by decide +kernel, fun h => ?_⟩⟩
  · obtain ⟨sender, message, hlast, hsender⟩ :=
      h [.request 0 1 2] (.writeUserScore 1 (-50)) ⟨[.forceQuit 1], rfl⟩
    cases hlast
    exact absurd hsender (by decide)
  · -- the answers hold one of the asker's own
    have hown := h [.request 0 0 1, .queued 0, .asked 0, .response 1 0 1, .recorded 1 1,
      .response 2 0 1, .recorded 2 1, .response 0 0 1, .recorded 0 1] (.responseQuit 0 false)
      ⟨[.dismissed, .responseQuit 0 true], rfl⟩ 0 _ rfl 0
    exact absurd (hown.1 ⟨1, by decide, by decide⟩) (by decide)

end QuitSink

end GameServer.GuanDan
