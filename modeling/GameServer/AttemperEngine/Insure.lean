import GameServer.AttemperEngine.Model.Insure
import GameServer.GameService.TableSteps
/-!
# AttemperEngine — a deposit is answered on its socket

What a user has frozen is what the database owes him an answer on
(`Settled`), as long as every answer finds him (`Routed`). The sink looks
him up under the socket his deposit came on, and he may have moved to
another one: then the answer is dropped, what it should release stays
frozen, and the insure does not show what the database booked.

Changes of the connections keep what is frozen (`Frames`). Only an answer
can go wrong, and `insureResult_settled_iff` says when.
-/

namespace GameServer.AttemperEngine

open GameService Function Service

variable {opt : GameServiceOption} {s s' s'' : Service} {userID : UInt32} {u : UserItem}
variable {r : UserSaveScore} {k : ℕ} {rs : List UserSaveScore} {u' : UserItem}
  {p : UInt32 × UserItem}

/-! ## What is owed -/

/-- The deposit froze score of this item. -/
def UserSaveScore.IsOf (r : UserSaveScore) (userID : UInt32) (u : UserItem) : Prop :=
  r.userID = userID ∧ r.stay = u.stay

instance (r : UserSaveScore) (userID : UInt32) (u : UserItem) : Decidable (r.IsOf userID u) :=
  inferInstanceAs (Decidable (_ ∧ _))

/-- What the deposits of an item come to. -/
def owedOf (userID : UInt32) (u : UserItem) : List UserSaveScore → Score
  | [] => 0
  | r :: rs => (if r.IsOf userID u then r.lSaveScore else 0) + owedOf userID u rs

/-- What the database has still to answer to a user. -/
def owed (s : Service) (userID : UInt32) (u : UserItem) : Score := owedOf userID u s.inFlight

theorem owedOf_append (rs rs' : List UserSaveScore) :
    owedOf userID u (rs ++ rs') = owedOf userID u rs + owedOf userID u rs' := by
  induction rs with
  | nil => exact (Int64.zero_add _).symm
  | cons r rs ih =>
    rw [List.cons_append, owedOf, owedOf, ih, Int64.add_assoc]

theorem owedOf_eraseIdx (userID : UInt32) (u : UserItem) : ∀ {k : ℕ}, rs[k]? = some r →
      owedOf userID u rs =
        owedOf userID u (rs.eraseIdx k) + if r.IsOf userID u then r.lSaveScore else 0 := by
  induction rs with
  | nil => intro k h; cases h
  | cons r' rs ih =>
    intro k h
    cases k with
    | zero =>
      cases Option.some.inj h
      exact Int64.add_comm _ _
    | succ k =>
      rw [List.eraseIdx_cons_succ, owedOf, owedOf, ih h, Int64.add_assoc]

theorem owedOf_eq_zero (h : ∀ r ∈ rs, ¬ r.IsOf userID u) :
    owedOf userID u rs = 0 := by
  induction rs with
  | nil => rfl
  | cons r rs ih =>
    rw [owedOf, if_neg (h r List.mem_cons_self),
      ih fun r' hr' => h r' (List.mem_cons_of_mem _ hr')]
    rfl

theorem owedOf_congr (h : u'.stay = u.stay) (rs : List UserSaveScore) :
    owedOf userID u' rs = owedOf userID u rs := by
  induction rs with
  | nil => rfl
  | cons r rs ih =>
    have hr : r.IsOf userID u' ↔ r.IsOf userID u := by rw [UserSaveScore.IsOf, h, UserSaveScore.IsOf]
    rw [owedOf, owedOf, ih, if_congr hr rfl rfl]

/-! ## The property and its condition -/

/-- What a user has frozen is what he is owed. -/
def Settled (userID : UInt32) (s : Service) : Prop :=
  ∀ u, s.userItem userID = some u → u.item.frozenedScore = owed s userID u

/-- What an answer reports of score and of insure. -/
def InsureResult.variation : InsureResult → Score × Score
  | .success _ lVariationScore lVariationInsure _ _ => (lVariationScore, lVariationInsure)
  | .failure _ _ => (0, 0)

/-- What an answer changes for an item: what it reports, if the deposit
was his. -/
def dueTo (userID : UInt32) (u : UserItem) (r : UserSaveScore) (result : InsureResult) :
    Score × Score :=
  if r.IsOf userID u then result.variation else (0, 0)

/-- An answer changes the user's score and insure by exactly what it
reports of a deposit of his. -/
def Booked (opt : GameServiceOption) (userID : UInt32) (s : Service) : Event → Prop
  | .insureResult k result =>
      ∀ r, s.inFlight[k]? = some r → ∀ u, s.userItem userID = some u →
        ∃ u', (step opt s (.insureResult k result)).1.userItem userID = some u' ∧
          u'.stay = u.stay ∧
          heldTotal u'.item = heldTotal u.item + (dueTo userID u r result).1 ∧
          u'.lInsure = u.lInsure + (dueTo userID u r result).2
  | _ => True

/-- An answer to a deposit of his finds the user: the socket it came on is
still open and he is bound there. (The sum of what he is owed is 64-bit
and has not wrapped below the amount.) An answer to another deposit that
finds him is for more than he has in flight. -/
def Routed (opt : GameServiceOption) (userID : UInt32) (s : Service) : Event → Prop
  | .insureResult k _ =>
      ∀ r, s.inFlight[k]? = some r → ∀ u, s.userItem userID = some u →
        if r.IsOf userID u then
          s.bindTarget opt r.contextID = some (userID, u) ∧ r.lSaveScore ≤ owed s userID u
        else s.bindTarget opt r.contextID = some (userID, u) → owed s userID u < r.lSaveScore
  | _ => True

/-! ## What connections keep -/

/-- The deposits in flight stay, and so does what is frozen in every item
that stays. -/
structure Frames (s s' : Service) : Prop where
  inFlight : s'.inFlight = s.inFlight
  inserted : s'.inserted = s.inserted
  userItem : ∀ v u', s'.userItem v = some u' → ∃ u, s.userItem v = some u ∧ u'.stay = u.stay ∧
    u'.item.frozenedScore = u.item.frozenedScore ∧ u'.item.userID = u.item.userID

theorem Frames.refl : Frames s s := ⟨rfl, rfl, fun _ u hu => ⟨u, hu, rfl, rfl, rfl⟩⟩

theorem Frames.trans (h : Frames s s') (h' : Frames s' s'') : Frames s s'' := by
  refine ⟨h'.inFlight.trans h.inFlight, h'.inserted.trans h.inserted, fun v u'' hu'' => ?_⟩
  obtain ⟨u', hu', hstay', hfrozen', hid'⟩ := h'.userItem v u'' hu''
  obtain ⟨u, hu, hstay, hfrozen, hid⟩ := h.userItem v u' hu'
  exact ⟨u, hu, hstay'.trans hstay, hfrozen'.trans hfrozen, hid'.trans hid⟩

theorem frames_setBindParameter (bindIndex : ℕ) (b : BindParameter) :
    Frames s (s.setBindParameter bindIndex b) :=
  ⟨rfl, rfl, fun _ u hu => ⟨u, hu, rfl, rfl, rfl⟩⟩

theorem userItem_setUserItem (v : UInt32) (u : Option UserItem) :
    (s.setUserItem userID u).userItem v = if v = userID then u else s.userItem v :=
  update_apply _ _ _ _

theorem frames_delete (userID : UInt32) : Frames s (s.setUserItem userID none) := by
  refine ⟨rfl, rfl, fun v u' hu' => ?_⟩
  rw [userItem_setUserItem] at hu'
  split_ifs at hu'
  exact ⟨u', hu', rfl, rfl, rfl⟩

theorem frames_setUserItem (hu : s.userItem userID = some u)
    (hstay : u'.stay = u.stay) (hfrozen : u'.item.frozenedScore = u.item.frozenedScore)
    (hid : u'.item.userID = u.item.userID) : Frames s (s.setUserItem userID (some u')) := by
  refine ⟨rfl, rfl, fun v u'' hu'' => ?_⟩
  rw [userItem_setUserItem] at hu''
  split_ifs at hu'' with hv
  · cases hu''
    exact ⟨u, hv ▸ hu, hstay, hfrozen, hid⟩
  · exact ⟨u'', hu'', rfl, rfl, rfl⟩

theorem frames_unbind (userID : UInt32) (bindIndex : ℕ) :
    Frames s (s.unbind opt userID bindIndex) := by
  unfold Service.unbind
  split
  · exact .refl
  · split_ifs
    · exact frames_setBindParameter _ _
    · exact .refl

theorem frames_setUserStatus (userID : UInt32) (place : TablePlace) :
    Frames s (s.setUserStatus opt userID place) := by
  unfold Service.setUserStatus
  split
  · exact .refl
  · rename_i u hu
    split_ifs with hid hnull
    · exact .refl
    · exact (frames_unbind _ _).trans (frames_delete _)
    · refine frames_setUserItem hu rfl (frozenedScore_setUserStatus ..) ?_
      simp only [ServerUserItem.setUserStatus, if_neg hid]

theorem frames_onEventTCPNetworkBind (socketID : UInt32) :
    Frames s (s.onEventTCPNetworkBind opt socketID) := by
  unfold Service.onEventTCPNetworkBind
  split
  · exact .refl
  · exact frames_setBindParameter _ _

theorem getBindParameter_eq_some {i : ℕ} {b : BindParameter}
    (h : s.getBindParameter opt i = some b) :
    (i < opt.maxPlayer ∧ i ≠ invalidWord) ∧ b = s.bindParameter i := by
  unfold Service.getBindParameter at h
  split_ifs at h with hi
  exact ⟨hi, (Option.some.inj h).symm⟩

theorem getBindUserItem_eq_some {bindIndex : ℕ} (h : s.getBindUserItem opt bindIndex = some p) :
    (s.bindParameter bindIndex).serverUserItem = some p.1 ∧ s.userItem p.1 = some p.2 := by
  simp only [Service.getBindUserItem, Option.pure_def, Option.bind_eq_bind,
    Option.bind_eq_some_iff] at h
  obtain ⟨b, hb, userID, hbound, u, hu, hp⟩ := h
  obtain ⟨-, rfl⟩ := getBindParameter_eq_some hb
  cases hp
  exact ⟨hbound, hu⟩

theorem userItem_of_getBindUserItem {bindIndex : ℕ}
    (h : s.getBindUserItem opt bindIndex = some p) : s.userItem p.1 = some p.2 :=
  (getBindUserItem_eq_some h).2

theorem frames_loseUser (bindIndex : ℕ) (left : TablePlace) :
    Frames s (s.loseUser opt bindIndex left) := by
  unfold Service.loseUser
  split
  · exact .refl
  · rename_i userID u hbind
    have hu : s.userItem userID = some u := userItem_of_getBindUserItem hbind
    have hdetach : Frames s (s.setUserItem userID (some (detach opt u))) := by
      refine frames_setUserItem hu ?_ ?_ ?_ <;> (unfold detach; split_ifs <;> rfl)
    split_ifs
    · exact hdetach.trans (frames_setUserStatus _ _)
    · exact frames_setUserStatus _ _

theorem frames_onEventTCPNetworkShut (socketID : UInt32) (left : TablePlace) :
    Frames s (s.onEventTCPNetworkShut opt socketID left) := by
  unfold Service.onEventTCPNetworkShut
  split
  · exact .refl
  · exact (frames_loseUser _ _).trans (frames_setBindParameter _ _)

theorem frames_switchUserItemConnect (userID socketID : UInt32) :
    Frames s (s.switchUserItemConnect opt userID socketID) := by
  unfold Service.switchUserItemConnect
  split
  · exact .refl
  · rename_i u hu
    have hunbound : Frames s
        (if u.bindIndex ≠ invalidWord then s.unbind opt userID u.bindIndex else s) := by
      split_ifs
      · exact frames_unbind _ _
      · exact .refl
    generalize (if u.bindIndex ≠ invalidWord then s.unbind opt userID u.bindIndex else s) = s₁
      at hunbound
    have hresumed : Frames s (s₁.resume opt userID u) := by
      by_cases hoff : u.item.userStatus = .offline
      · rw [Service.resume, if_pos hoff]
        exact hunbound.trans (frames_setUserStatus _ _)
      · rw [Service.resume, if_neg hoff]
        exact hunbound
    simp only
    split
    · exact hresumed
    · rename_i u' hu'
      exact hresumed.trans ((frames_setBindParameter _ _).trans (frames_setUserItem hu' rfl rfl rfl))

theorem frames_onTCPNetworkSubLogonUserID (socketID userID : UInt32) :
    Frames s (s.onTCPNetworkSubLogonUserID opt socketID userID) := by
  unfold Service.onTCPNetworkSubLogonUserID
  split
  · exact .refl
  · split_ifs
    · exact .refl
    · exact frames_switchUserItemConnect _ _

/-- What a game writes does not touch what is frozen. -/
theorem step_gameWrite (u : ServerUserItem) {c : ScoreCall} (hc : c.IsGameWrite) :
    (ServerUserItem.step u c).1.frozenedScore = u.frozenedScore ∧
      (ServerUserItem.step u c).1.userID = u.userID := by
  cases c with
  | writeUserScore w =>
    exact ⟨frozenedScore_writeUserScore u w, (sameSeat_writeUserScore u w).userID⟩
  | frozenedUserScore lScore => exact absurd hc id
  | unFrozenedUserScore lScore => exact absurd hc id
  | takeGold lScore atOnce =>
    simp only [ServerUserItem.step, ServerUserItem.takeGold]
    split_ifs
    · exact ⟨rfl, rfl⟩
    · exact ⟨frozenedScore_putIn u lScore, (sameSeat_putIn u lScore).userID⟩
    · exact ⟨rfl, rfl⟩
  | writeOtherScore lScore =>
    simp only [ServerUserItem.step, ServerUserItem.writeOtherScore, ServerUserItem.draw]
    split_ifs <;> exact ⟨rfl, rfl⟩
  | distillVariation =>
    simp only [ServerUserItem.step, ServerUserItem.distillVariation]
    split_ifs <;> exact ⟨rfl, rfl⟩

theorem frames_gameWrite (userID : UInt32) {c : ScoreCall} (hc : c.IsGameWrite) :
    Frames s (s.gameWrite userID c) := by
  unfold Service.gameWrite
  split
  · exact .refl
  · rename_i u hu
    exact frames_setUserItem hu rfl (step_gameWrite u.item hc).1 (step_gameWrite u.item hc).2

/-! ## Steps -/

/-- What the runs keep for a user. No deposit in flight is of an item that
has yet to come. -/
structure Known (userID : UInt32) (s : Service) : Prop where
  settled : Settled userID s
  userID_eq : ∀ v u, s.userItem v = some u → u.item.userID = v
  stay_lt : ∀ v u, s.userItem v = some u → u.stay < s.inserted
  inFlight_lt : ∀ r ∈ s.inFlight, r.stay < s.inserted

theorem known_start : Known userID {} :=
  { settled := fun _ hu => by cases hu
    userID_eq := fun _ _ hu => by cases hu
    stay_lt := fun _ _ hu => by cases hu
    inFlight_lt := fun _ hr => by cases hr }

theorem Frames.known (h : Frames s s') (hs : Known userID s) : Known userID s' := by
  refine ⟨fun u' hu' => ?_, fun v u' hu' => ?_, fun v u' hu' => ?_, fun r hr => ?_⟩
  · obtain ⟨u, hu, hstay, hfrozen, -⟩ := h.userItem userID u' hu'
    rw [hfrozen, hs.settled u hu, owed, owed, h.inFlight, owedOf_congr hstay]
  · obtain ⟨u, hu, -, -, hid⟩ := h.userItem v u' hu'
    rw [hid, hs.userID_eq v u hu]
  · obtain ⟨u, hu, hstay, -, -⟩ := h.userItem v u' hu'
    rw [hstay, h.inserted]
    exact hs.stay_lt v u hu
  · rw [h.inFlight] at hr
    rw [h.inserted]
    exact hs.inFlight_lt r hr

/-- One item has changed, and the deposits in flight with it. -/
theorem Known.setUserItem (hs : Known userID s) {v : UInt32} {n : ℕ}
    (hid : u'.item.userID = v) (hinserted : s.inserted ≤ n)
    (hstay : u'.stay < n) (hrs : ∀ r ∈ rs, r.stay < n)
    (hsettled : ∀ u, (if userID = v then some u' else s.userItem userID) = some u →
      u.item.frozenedScore = owedOf userID u rs) :
    Known userID { s.setUserItem v (some u') with inserted := n, inFlight := rs } := by
  refine ⟨fun u hu => hsettled u ((userItem_setUserItem _ _).symm.trans hu), fun w u hu => ?_,
    fun w u hu => ?_, hrs⟩
  · have hu : (if w = v then some u' else s.userItem w) = some u :=
      (userItem_setUserItem _ _).symm.trans hu
    split_ifs at hu with hw
    · cases hu
      rw [hid, hw]
    · exact hs.userID_eq w u hu
  · have hu : (if w = v then some u' else s.userItem w) = some u :=
      (userItem_setUserItem _ _).symm.trans hu
    show u.stay < n
    split_ifs at hu with hw
    · cases hu
      exact hstay
    · have := hs.stay_lt w u hu
      omega

theorem known_onDBLogonSuccess (hs : Known userID s) (contextID : UInt32) (l : LogonSuccess) :
    Known userID (s.onDBLogonSuccess opt contextID l) := by
  unfold Service.onDBLogonSuccess
  split
  · exact hs
  rename_i b hb
  split_ifs with hfree hthere
  · exact hs
  · exact (frames_switchUserItemConnect _ _).known hs
  · have hbound : Known userID
        (s.setBindParameter (loWord contextID) { b with serverUserItem := some l.userID }) :=
      (frames_setBindParameter _ _).known hs
    refine hbound.setUserItem rfl (Nat.le_succ _) (Nat.lt_succ_self _) (fun r hr => ?_)
      fun u hu => ?_
    · have := hs.inFlight_lt r hr
      omega
    · split_ifs at hu
      · cases hu
        refine (owedOf_eq_zero fun r hr hof => ?_).symm
        exact absurd hof.2 (Nat.ne_of_lt (hs.inFlight_lt r hr))
      · exact hs.settled u hu

/-- A request for a deposit changes nothing, or it freezes the amount of the
deposit it posts. -/
theorem saveScoreRequest_cases (opt : GameServiceOption) (s : Service) (socketID : UInt32)
    (p : SaveScoreRequest) (lUserConsumeQuota : Score) :
    (s.onTCPNetworkSubSaveScoreRequest opt socketID p lUserConsumeQuota).1 = s ∨
      ∃ v u r, s.userItem v = some u ∧ (u.item.frozenedUserScore r.lSaveScore).2 = true ∧
        r.userID = u.item.userID ∧ r.stay = u.stay ∧
        (s.onTCPNetworkSubSaveScoreRequest opt socketID p lUserConsumeQuota).1 =
          { s.setUserItem v
              (some { u with item := (u.item.frozenedUserScore r.lSaveScore).1 }) with
            inFlight := s.inFlight ++ [r] } := by
  unfold Service.onTCPNetworkSubSaveScoreRequest
  by_cases hgold : ¬ opt.gold = true
  · rw [if_pos hgold]
    exact .inl rfl
  rw [if_neg hgold]
  by_cases hpos : 0 < p.lSaveScore
  swap
  · rw [dif_neg hpos]
    exact .inl rfl
  rw [dif_pos hpos]
  split
  · exact .inl rfl
  rename_i v u hbind
  simp only
  generalize (if u.item.tableID ≠ invalidTable then queryConsumeQuota opt u.item lUserConsumeQuota
    else u.item.lScore + u.item.trusteeScore) = lConsumeQuota
  split_ifs with hroom hgame hquota hwhole hfrozen
  · exact .inl rfl
  · exact .inl rfl
  · exact .inl rfl
  · exact .inl rfl
  · let r : UserSaveScore :=
      { contextID := socketID, userID := u.item.userID, lSaveScore := p.lSaveScore
        activityGame := p.activityGame, stay := u.stay
        userID_ne := u.item.userID_ne_of_frozened hfrozen, lSaveScore_pos := hpos }
    exact .inr ⟨v, u, r, userItem_of_getBindUserItem hbind, hfrozen, rfl, rfl, rfl⟩
  · exact .inl rfl

/-- A deposit freezes what is owed from then on. -/
theorem known_onTCPNetworkSubSaveScoreRequest (hs : Known userID s) (socketID : UInt32)
    (p : SaveScoreRequest) (lUserConsumeQuota : Score) :
    Known userID (s.onTCPNetworkSubSaveScoreRequest opt socketID p lUserConsumeQuota).1 := by
  rcases saveScoreRequest_cases opt s socketID p lUserConsumeQuota with
    heq | ⟨v, u, r, hu, hfrozen, hid, hstay, heq⟩
  · rw [heq]
    exact hs
  rw [heq]
  have huid : u.item.userID = v := hs.userID_eq v u hu
  have hnew : ((u.item.frozenedUserScore r.lSaveScore).1).frozenedScore =
      u.item.frozenedScore + r.lSaveScore := by
    rw [frozenedScore_frozenedUserScore, if_pos (frozenedUserScore_snd _ _ ▸ hfrozen)]
  refine hs.setUserItem ((sameSeat_frozenedUserScore _ _).userID.trans huid) (Nat.le_refl _)
    (hs.stay_lt v u hu) (fun r' hr' => ?_) fun u' hu' => ?_
  · rcases List.mem_append.1 hr' with hr' | hr'
    · exact hs.inFlight_lt r' hr'
    · rw [List.mem_singleton.1 hr', hstay]
      exact hs.stay_lt v u hu
  · rw [owedOf_append]
    split_ifs at hu' with hv
    · cases hu'
      have hof : r.IsOf userID u := ⟨hid.trans (huid.trans hv.symm), hstay⟩
      have hsame : ∀ rs, owedOf userID
          { u with item := (u.item.frozenedUserScore r.lSaveScore).1 } rs = owedOf userID u rs :=
        owedOf_congr rfl
      rw [hsame, hsame, owedOf, if_pos hof, owedOf, Int64.add_zero]
      rw [hnew, hs.settled u (hv ▸ hu)]
      rfl
    · have hof : ¬ r.IsOf userID u' := fun hof => hv (hof.1.symm.trans (hid.trans huid))
      rw [hs.settled u' hu', owedOf, if_neg hof]
      exact (Int64.add_zero _).symm

/-! ## An answer -/

theorem userItem_of_bindTarget {contextID : UInt32}
    (h : s.bindTarget opt contextID = some p) : s.userItem p.1 = some p.2 := by
  unfold Service.bindTarget at h
  split at h
  · cases h
  · split_ifs at h
    exact userItem_of_getBindUserItem h

theorem modifyUserInsure_frame (u : ServerUserItem) (lScore lInsure lRevenue : Score) :
    (u.modifyUserInsure lScore lInsure lRevenue).frozenedScore = u.frozenedScore ∧
      (u.modifyUserInsure lScore lInsure lRevenue).userID = u.userID ∧
      heldTotal (u.modifyUserInsure lScore lInsure lRevenue) = heldTotal u + lScore := by
  refine ⟨frozenedScore_adjustPut _, (sameSeat_adjustPut _).userID, ?_⟩
  rw [ServerUserItem.modifyUserInsure, (adjustPut_frame _).1]
  simp only [heldTotal]
  grind

theorem heldTotal_unFrozenedUserScore (u : ServerUserItem) (lScore : Score) :
    heldTotal (u.unFrozenedUserScore lScore).1 = heldTotal u := by
  unfold ServerUserItem.unFrozenedUserScore
  split_ifs
  · rfl
  · rw [(adjustPut_frame _).1]
    simp only [heldTotal]
    grind

theorem unFrozenedUserScore_of_false {u : ServerUserItem} {lScore : Score}
    (h : (u.unFrozenedUserScore lScore).2 = false) : (u.unFrozenedUserScore lScore).1 = u := by
  unfold ServerUserItem.unFrozenedUserScore at h ⊢
  split_ifs at h ⊢
  rfl

/-- An answer that finds a user with its amount frozen releases it and
books what it reports. -/
theorem onDBUserInsure_of_unfrozened {v : UInt32} (result : InsureResult)
    (hbind : s.bindTarget opt r.contextID = some (v, u))
    (h : (u.item.unFrozenedUserScore r.lSaveScore).2 = true) :
    ∃ u', (s.onDBUserInsure opt r result).1 = s.setUserItem v (some u') ∧ u'.stay = u.stay ∧
      u'.item.userID = u.item.userID ∧ u'.bindIndex = u.bindIndex ∧
      u'.item.frozenedScore = u.item.frozenedScore - r.lSaveScore ∧
      heldTotal u'.item = heldTotal u.item + result.variation.1 ∧
      u'.lInsure = u.lInsure + result.variation.2 := by
  have hfrozen := frozenedScore_unFrozenedUserScore u.item r.lSaveScore
  rw [if_pos h] at hfrozen
  have hid := (sameSeat_unFrozenedUserScore u.item r.lSaveScore).userID
  have hheld := heldTotal_unFrozenedUserScore u.item r.lSaveScore
  cases result with
  | success lSourceInsure lVariationScore lVariationInsure lInsureRevenue describe =>
    simp only [Service.onDBUserInsure, hbind]
    rw [if_neg fun hfail => hfail.2 h, if_pos r.lSaveScore_pos]
    obtain ⟨hfrozen', hid', hheld'⟩ := modifyUserInsure_frame
      (u.item.unFrozenedUserScore r.lSaveScore).1 lVariationScore lVariationInsure lInsureRevenue
    refine ⟨_, rfl, rfl, hid'.trans hid, rfl, hfrozen'.trans hfrozen, ?_, rfl⟩
    rw [hheld', hheld]
    rfl
  | failure resultCode describe =>
    simp only [Service.onDBUserInsure, hbind]
    rw [if_pos r.lSaveScore_pos]
    refine ⟨_, rfl, rfl, hid, rfl, hfrozen, ?_, (Int64.add_zero _).symm⟩
    exact hheld.trans (Int64.add_zero _).symm

/-- An answer that finds nobody, or somebody without its amount frozen,
changes no item. -/
theorem onDBUserInsure_of_not (result : InsureResult)
    (h : ∀ v u, s.bindTarget opt r.contextID = some (v, u) →
      (u.item.unFrozenedUserScore r.lSaveScore).2 = false) :
    (s.onDBUserInsure opt r result).1 = s := by
  cases hbind : s.bindTarget opt r.contextID with
  | none => cases result <;> simp only [Service.onDBUserInsure, hbind]
  | some p =>
    obtain ⟨v, u⟩ := p
    have hfalse := h v u hbind
    have hitem := unFrozenedUserScore_of_false hfalse
    cases result with
    | success =>
      simp only [Service.onDBUserInsure, hbind]
      rw [if_pos ⟨r.lSaveScore_pos, by simp [hfalse]⟩]
    | failure =>
      simp only [Service.onDBUserInsure, hbind]
      rw [if_pos r.lSaveScore_pos, hitem]
      have hu : s.userItem v = some u := userItem_of_bindTarget hbind
      have hsame : update s.userItem v (some u) = s.userItem := by rw [← hu, update_eq_self]
      rw [Service.setUserItem, hsame]

theorem step_insureResult (hr : s.inFlight[k]? = some r) (result : InsureResult) :
    step opt s (.insureResult k result) =
      { s with inFlight := s.inFlight.eraseIdx k }.onDBUserInsure opt r result := by
  rw [step, hr]

/-- Nobody is owed an amount that his item cannot release. -/
theorem Known.owed_lt (hs : Known userID s) (hu : s.userItem userID = some u) {lScore : Score}
    (hpos : 0 < lScore) (h : (u.item.unFrozenedUserScore lScore).2 = false) :
    owed s userID u < lScore := by
  by_cases hid : u.item.userID = 0
  · have huser : userID = 0 := (hs.userID_eq userID u hu).symm.trans hid
    have howed : owed s userID u = 0 :=
      owedOf_eq_zero fun r _ hof => r.userID_ne (hof.1.trans huser)
    rw [howed]
    exact hpos
  · have hnot : ¬ ¬ (lScore < 0 ∨ u.item.frozenedScore < lScore) := by
      rw [← unFrozenedUserScore_snd hid, h]
      exact Bool.false_ne_true
    rw [← hs.settled u hu]
    rcases not_not.1 hnot with hneg | hlt
    · exact absurd hpos (by grind)
    · exact hlt

/-- **What an answer does to a user.** It finds him and releases its
amount, or it leaves his item alone; then, if it found him, he is not
owed the amount. -/
theorem insureResult_cases (opt : GameServiceOption) (hs : Known userID s)
    (hr : s.inFlight[k]? = some r) (result : InsureResult) :
    (∃ u u', s.userItem userID = some u ∧ s.bindTarget opt r.contextID = some (userID, u) ∧
      r.lSaveScore ≤ owed s userID u ∧
      (step opt s (.insureResult k result)).1.userItem userID = some u' ∧ u'.stay = u.stay ∧
      u'.item.frozenedScore = u.item.frozenedScore - r.lSaveScore ∧
      heldTotal u'.item = heldTotal u.item + result.variation.1 ∧
      u'.lInsure = u.lInsure + result.variation.2) ∨
    ((step opt s (.insureResult k result)).1.userItem userID = s.userItem userID ∧
      ∀ u, s.bindTarget opt r.contextID = some (userID, u) →
        owed s userID u < r.lSaveScore) := by
  rw [step_insureResult hr]
  by_cases hfound : ∃ v u, s.bindTarget opt r.contextID = some (v, u) ∧
      (u.item.unFrozenedUserScore r.lSaveScore).2 = true
  · obtain ⟨v, u, hbind, hsucceeds⟩ := hfound
    obtain ⟨u', heq, hstay, -, -, hfrozen, hheld, hinsure⟩ := onDBUserInsure_of_unfrozened
      (s := { s with inFlight := s.inFlight.eraseIdx k }) result hbind hsucceeds
    rw [heq, userItem_setUserItem]
    by_cases hv : userID = v
    · left
      subst hv
      have hu : s.userItem userID = some u := userItem_of_bindTarget hbind
      refine ⟨u, u', hu, hbind, ?_, if_pos rfl, hstay, hfrozen, hheld, hinsure⟩
      rw [← hs.settled u hu]
      by_contra hlt
      rw [ServerUserItem.unFrozenedUserScore, if_pos (.inr (.inr (by grind)))] at hsucceeds
      cases hsucceeds
    · right
      refine ⟨if_neg hv, fun u₂ hbind₂ => ?_⟩
      rw [hbind] at hbind₂
      cases hbind₂
      exact absurd rfl hv
  · right
    have hfails : ∀ v u, s.bindTarget opt r.contextID = some (v, u) →
        (u.item.unFrozenedUserScore r.lSaveScore).2 = false := by
      intro v u hbind
      by_contra hne
      exact hfound ⟨v, u, hbind, by simpa using hne⟩
    rw [onDBUserInsure_of_not (s := { s with inFlight := s.inFlight.eraseIdx k }) result hfails]
    exact ⟨rfl, fun u hbind =>
      hs.owed_lt (userItem_of_bindTarget hbind) r.lSaveScore_pos (hfails userID u hbind)⟩

/-- An answer changes one item at most, and not whose it is. -/
theorem onDBUserInsure_cases (opt : GameServiceOption) (s : Service) (r : UserSaveScore) (result : InsureResult) :
    (s.onDBUserInsure opt r result).1 = s ∨
      ∃ v u u', s.userItem v = some u ∧ (s.onDBUserInsure opt r result).1 = s.setUserItem v (some u') ∧
        u'.stay = u.stay ∧ u'.item.userID = u.item.userID ∧ u'.bindIndex = u.bindIndex := by
  by_cases hfound : ∃ v u, s.bindTarget opt r.contextID = some (v, u) ∧
      (u.item.unFrozenedUserScore r.lSaveScore).2 = true
  · obtain ⟨v, u, hbind, hsucceeds⟩ := hfound
    obtain ⟨u', heq, hstay, hid, hindex, -⟩ := onDBUserInsure_of_unfrozened result hbind hsucceeds
    exact .inr ⟨v, u, u', userItem_of_bindTarget hbind, heq, hstay, hid, hindex⟩
  · refine .inl (onDBUserInsure_of_not result fun v u hbind => ?_)
    by_contra hne
    exact hfound ⟨v, u, hbind, by simpa using hne⟩

theorem inFlight_insureResult (opt : GameServiceOption) (hr : s.inFlight[k]? = some r)
    (result : InsureResult) :
    (step opt s (.insureResult k result)).1.inFlight = s.inFlight.eraseIdx k := by
  rw [step_insureResult hr]
  rcases onDBUserInsure_cases opt { s with inFlight := s.inFlight.eraseIdx k } r result with
    heq | ⟨v, u, u', -, heq, -⟩ <;> rw [heq]
  rfl

theorem known_insureResult (hs : Known userID s)
    (hr : s.inFlight[k]? = some r) (result : InsureResult)
    (hsettled : Settled userID (step opt s (.insureResult k result)).1) :
    Known userID (step opt s (.insureResult k result)).1 := by
  rw [step_insureResult hr] at hsettled ⊢
  have hlt : ∀ r' ∈ s.inFlight.eraseIdx k, r'.stay < s.inserted :=
    fun r' hr' => hs.inFlight_lt r' (List.mem_of_mem_eraseIdx hr')
  rcases onDBUserInsure_cases opt { s with inFlight := s.inFlight.eraseIdx k } r result with
    heq | ⟨v, u, u', hu, heq, hstay, hid, -⟩
  · rw [heq] at hsettled ⊢
    exact ⟨hsettled, hs.userID_eq, hs.stay_lt, hlt⟩
  · rw [heq] at hsettled ⊢
    refine hs.setUserItem (hid.trans (hs.userID_eq v u hu)) (Nat.le_refl _)
      (hstay ▸ hs.stay_lt v u hu) hlt fun u₂ hu₂ => ?_
    exact hsettled u₂ ((userItem_setUserItem _ _).trans hu₂)

/-- An answer that goes where it should is booked, and what is frozen
stays what is owed. -/
theorem insureResult_of_routed (hs : Known userID s) {result : InsureResult}
    (hroute : Routed opt userID s (.insureResult k result)) :
    Booked opt userID s (.insureResult k result) ∧
      Settled userID (step opt s (.insureResult k result)).1 := by
  cases hr : s.inFlight[k]? with
  | none =>
    refine ⟨fun r hr' => ?_, ?_⟩
    · rw [hr] at hr'
      cases hr'
    · rw [step, hr]
      exact hs.settled
  | some r =>
    have hinFlight := inFlight_insureResult opt hr result
    have howed := fun u : UserItem => owedOf_eraseIdx userID u hr
    rcases insureResult_cases opt hs hr result with
      ⟨u, u', hu, hbind, hle, hu', hstay, hfrozen, hheld, hinsure⟩ | ⟨hsame, hlt⟩
    · have hof : r.IsOf userID u := by
        by_contra hnot
        have hroute := hroute r hr u hu
        rw [if_neg hnot] at hroute
        exact absurd (hroute hbind) (by grind)
      refine ⟨fun r' hr' u₂ hu₂ => ?_, fun u₂ hu₂ => ?_⟩
      · rw [hu] at hu₂
        rw [hr] at hr'
        cases hu₂
        cases hr'
        rw [dueTo, if_pos hof]
        exact ⟨u', hu', hstay, hheld, hinsure⟩
      · rw [hu'] at hu₂
        cases hu₂
        have := howed u
        rw [hfrozen, hs.settled u hu, owed, owed, hinFlight, owedOf_congr hstay, this]
        grind
    · have hof : ∀ u, s.userItem userID = some u → ¬ r.IsOf userID u := by
        intro u hu hof
        have hroute := hroute r hr u hu
        rw [if_pos hof] at hroute
        exact absurd (hlt u hroute.1) (by grind)
      refine ⟨fun r' hr' u hu => ?_, fun u hu => ?_⟩
      · rw [hr] at hr'
        cases hr'
        rw [dueTo, if_neg (hof u hu)]
        exact ⟨u, hsame.trans hu, rfl, (Int64.add_zero _).symm, (Int64.add_zero _).symm⟩
      · rw [hsame] at hu
        have := howed u
        rw [if_neg (hof u hu), Int64.add_zero] at this
        rw [hs.settled u hu, owed, owed, hinFlight, this]

/-- An answer after which what is frozen is what is owed went where it
should. -/
theorem routed_of_settled (hs : Known userID s) {result : InsureResult}
    (hsettled : Settled userID (step opt s (.insureResult k result)).1) :
    Routed opt userID s (.insureResult k result) := by
  intro r hr u hu
  have hinFlight := inFlight_insureResult opt hr result
  have howed := owedOf_eraseIdx userID u hr
  have hfrozen := hs.settled u hu
  rw [owed, howed] at hfrozen
  have hpos := r.lSaveScore_pos
  rcases insureResult_cases opt hs hr result with
    ⟨u₂, u', hu₂, hbind, hle, hu', hstay, hfrozen', -⟩ | ⟨hsame, hlt⟩
  · rw [hu] at hu₂
    cases hu₂
    have hnext := hsettled u' hu'
    rw [owed, hinFlight, owedOf_congr hstay, hfrozen', hfrozen] at hnext
    by_cases hof : r.IsOf userID u
    · rw [if_pos hof]
      exact ⟨hbind, hle⟩
    · exact absurd hnext (by grind)
  · have hnext := hsettled u (hsame.trans hu)
    rw [owed, hinFlight, hfrozen] at hnext
    by_cases hof : r.IsOf userID u
    · exact absurd hnext (by grind)
    · rw [if_neg hof]
      exact hlt u

/-! ## Runs -/

theorem known_step (hs : Known userID s) (e : Event) (hroute : Routed opt userID s e) :
    Known userID (step opt s e).1 := by
  cases e with
  | networkBind socketID => exact (frames_onEventTCPNetworkBind socketID).known hs
  | networkShut socketID left => exact (frames_onEventTCPNetworkShut socketID left).known hs
  | logonUserID socketID v => exact (frames_onTCPNetworkSubLogonUserID socketID v).known hs
  | logonSuccess contextID l => exact known_onDBLogonSuccess hs contextID l
  | setUserStatus v place => exact (frames_setUserStatus v place).known hs
  | gameWrite v c => exact (frames_gameWrite v c.2).known hs
  | saveScoreRequest socketID p quota =>
    exact known_onTCPNetworkSubSaveScoreRequest hs socketID p quota
  | insureResult k result =>
    have hsettled := (insureResult_of_routed hs hroute).2
    cases hr : s.inFlight[k]? with
    | none =>
      rw [step, hr]
      exact hs
    | some r => exact known_insureResult hs hr result hsettled

/-- **Deposits agree with the database exactly if their answers find the
user.** In every run of the room, what a user has frozen is what he is
owed in every state, and every answer books what it reports of his
deposits and nothing else, if and only if every answer goes where it
should. -/
theorem deposits_agree_iff (opt : GameServiceOption) (userID : UInt32) (events : List Event) :
    ((∀ n, Settled userID ((step opt).run {} (events.take n)).1) ∧
        (step opt).Along (Booked opt userID) {} events) ↔
      (step opt).Along (Routed opt userID) {} events := by
  refine TotalMachine.prefixes_iff (I := Known userID) (fun s hs => hs.settled)
    (fun s e hs hroute => ⟨?_, known_step hs e hroute⟩) (fun s e hs _ hsettled => ?_) events {}
    known_start
  · cases e with
    | insureResult k result => exact (insureResult_of_routed hs hroute).1
    | _ => trivial
  · cases e with
    | insureResult k result => exact routed_of_settled hs hsettled
    | _ => trivial

/-- User 7 deposits 100 and logs on again from another socket before the
database has answered. -/
def depositThenSwitch : List Event :=
  [.networkBind 0x10001, .logonSuccess 0x10001 ⟨7, 1000, 0⟩,
    .saveScoreRequest 0x10001 ⟨2, 100⟩ 0, .networkBind 0x10002, .logonUserID 0x10002 7,
    .insureResult 0 (.success 0 (-100) 100 0 "")]

/-- **An answer is lost.** The database has booked 100 from score to
insure; nothing is in flight any more, and the user, who is still in the
room, has 100 frozen and no insure. -/
theorem deposit_lost :
    ∃ u, ((step {}).run {} depositThenSwitch).1.userItem 7 = some u ∧
      ((step {}).run {} depositThenSwitch).1.inFlight = [] ∧
      u.item.frozenedScore = 100 ∧ u.item.lScore = 900 ∧ u.lInsure = 0 ∧
      ¬ ((∀ n, Settled 7 ((step {}).run {} (depositThenSwitch.take n)).1) ∧
        (step {}).Along (Booked {} 7) {} depositThenSwitch) := by
  refine ⟨_, rfl, rfl, rfl, rfl, rfl, fun h => ?_⟩
  have hlast := h.1 6 _ rfl
  revert hlast
  decide

end GameServer.AttemperEngine
