import GameServer.GameService.Model.ServerUser
/-!
# GameService — a user's score is booked

What a user holds is what he plays with, what is frozen and what is kept
for him. Every call but one books what it adds to this or takes from it.
`WriteOtherScore` reduces its amount by what was kept before it books
it, so it books too little whenever it needs both places. Whether a call
does this shows before it (`Books`), and the books agree in every state
of a run exactly if no call does (`score_is_booked`). What is booked
reaches the database in any case: everything distilled and the pending
variation add up to the record.
-/

namespace GameServer.GameService

open ServerUserItem

variable {u : ServerUserItem} {lScore : Score}

/-! ## What the database is told -/

/-- Variations add up field by field. -/
instance : Add VariationInfo where
  add v w :=
    { lScore := v.lScore + w.lScore
      lGrade := v.lGrade + w.lGrade
      lInsure := v.lInsure + w.lInsure
      lRevenue := v.lRevenue + w.lRevenue
      winCount := v.winCount + w.winCount
      lostCount := v.lostCount + w.lostCount
      drawCount := v.drawCount + w.drawCount
      fleeCount := v.fleeCount + w.fleeCount
      playTimeCount := v.playTimeCount + w.playTimeCount
      lIngot := v.lIngot + w.lIngot
      experience := v.experience + w.experience
      loveLiness := v.loveLiness + w.loveLiness }

def VariationInfo.total : List VariationInfo → VariationInfo
  | [] => {}
  | v :: vs => v + total vs

namespace VariationInfo

variable (v w x : VariationInfo)

theorem add_assoc : v + w + x = v + (w + x) := by
  apply VariationInfo.ext <;>
    first
    | exact Int64.add_assoc ..
    | exact UInt32.add_assoc ..
    | exact Int32.add_assoc ..

theorem add_zero : v + ({} : VariationInfo) = v := by
  apply VariationInfo.ext <;>
    first
    | exact Int64.add_zero _
    | exact UInt32.add_zero _
    | exact Int32.add_zero _

theorem zero_add : ({} : VariationInfo) + v = v := by
  apply VariationInfo.ext <;>
    first
    | exact Int64.zero_add _
    | exact UInt32.zero_add _
    | exact Int32.zero_add _

theorem total_append (vs ws : List VariationInfo) : total (vs ++ ws) = total vs + total ws := by
  induction vs with
  | nil => exact (zero_add _).symm
  | cons v vs ih => rw [List.cons_append, total, total, ih, add_assoc]

theorem add_write (s : ScoreWrite) : v + w.write s = (v + w).write s := by
  apply VariationInfo.ext <;>
    first
    | rfl
    | exact (Int64.add_assoc ..).symm
    | exact (UInt32.add_assoc ..).symm

theorem add_spend (amount : Score) :
    v + { w with lScore := w.lScore - amount } =
      { v + w with lScore := (v + w).lScore - amount } := by
  have hscore : v.lScore + (w.lScore - amount) = v.lScore + w.lScore - amount := by grind
  exact VariationInfo.ext hscore rfl rfl rfl rfl rfl rfl rfl rfl rfl rfl rfl

end VariationInfo

/-! ## What a user holds -/

/-- A user with a score written, before his put-in is adjusted. -/
def ServerUserItem.written (u : ServerUserItem) (w : ScoreWrite) : ServerUserItem :=
  { u with
    winCount := u.winCount + countOf scoreTypeWin w
    lostCount := u.lostCount + countOf scoreTypeLose w
    drawCount := u.drawCount + countOf scoreTypeDraw w
    fleeCount := u.fleeCount + countOf scoreTypeFlee w
    modifyScore := true
    lScore := u.lScore + w.lScore
    experience := u.experience + w.winExperience
    recordInfo := u.recordInfo.write w
    variationInfo := u.variationInfo.write w }

theorem writeUserScore_eq (u : ServerUserItem) (w : ScoreWrite) :
    u.writeUserScore w = if u.userID = 0 ∨ w.scoreType = scoreTypeNull then (u, false)
      else ((u.written w).adjustPut, true) := rfl

/-- All of a user's score. -/
def heldTotal (u : ServerUserItem) : Score := u.lScore + u.frozenedScore + u.trusteeScore

theorem heldTotal_putIn (u : ServerUserItem) (limit : Score) :
    heldTotal (u.putIn limit) = heldTotal u := by
  unfold putIn heldTotal
  simp only
  split_ifs
  · grind
  · grind

theorem putIn_frame (u : ServerUserItem) (limit : Score) :
    (u.putIn limit).recordInfo = u.recordInfo ∧ (u.putIn limit).variationInfo = u.variationInfo ∧
      (u.putIn limit).modifyScore = u.modifyScore := by
  unfold putIn
  simp only
  split_ifs <;> exact ⟨rfl, rfl, rfl⟩

theorem adjustPut_frame (u : ServerUserItem) :
    heldTotal u.adjustPut = heldTotal u ∧ u.adjustPut.recordInfo = u.recordInfo ∧
      u.adjustPut.variationInfo = u.variationInfo ∧ u.adjustPut.modifyScore = u.modifyScore := by
  unfold adjustPut
  split_ifs
  · exact ⟨heldTotal_putIn u _, putIn_frame u _⟩
  · exact ⟨heldTotal_putIn u _, putIn_frame u _⟩
  · exact ⟨rfl, rfl, rfl, rfl⟩

theorem heldTotal_draw (u : ServerUserItem) (lScore : Score) :
    heldTotal (u.draw lScore) = heldTotal u - lScore := by
  unfold draw heldTotal
  split_ifs
  · grind
  · grind

theorem draw_frame (u : ServerUserItem) (lScore : Score) :
    (u.draw lScore).recordInfo = u.recordInfo ∧ (u.draw lScore).variationInfo = u.variationInfo ∧
      (u.draw lScore).modifyScore = u.modifyScore ∧
      (u.draw lScore).frozenedScore = u.frozenedScore := by
  unfold draw
  split_ifs <;> exact ⟨rfl, rfl, rfl, rfl⟩

/-! ## One call -/

/-- A call books what it takes: `WriteOtherScore` does not need both
what is kept and what is played with. -/
def Books (u : ServerUserItem) : ScoreCall → Prop
  | .writeOtherScore lScore => u.covers lScore → u.trusteeScore < lScore → u.trusteeScore = 0
  | _ => True

/-- The record accounts for what the user holds beyond `entered`. -/
def Balanced (entered : Score) (u : ServerUserItem) : Prop :=
  heldTotal u = entered + u.recordInfo.lScore

theorem writeUserScore_balanced {entered : Score} (h : Balanced entered u) (w : ScoreWrite) :
    Balanced entered (u.writeUserScore w).1 := by
  rw [writeUserScore_eq]
  split_ifs
  · exact h
  · obtain ⟨hheld, hrecord, -, -⟩ := adjustPut_frame (u.written w)
    simp only [Balanced, hheld, hrecord]
    simp only [Balanced, heldTotal, written, VariationInfo.write] at h ⊢
    grind

theorem frozenedUserScore_balanced {entered : Score} (h : Balanced entered u) (lScore : Score) :
    Balanced entered (u.frozenedUserScore lScore).1 := by
  unfold frozenedUserScore
  split_ifs
  · have hdraw := heldTotal_draw u lScore
    obtain ⟨hrecord, -, -, hfrozen⟩ := draw_frame u lScore
    simp only [Balanced, heldTotal, hrecord, hfrozen] at h hdraw ⊢
    grind
  · exact h

theorem unFrozenedUserScore_balanced {entered : Score} (h : Balanced entered u) (lScore : Score) :
    Balanced entered (u.unFrozenedUserScore lScore).1 := by
  unfold unFrozenedUserScore
  split_ifs
  · exact h
  · obtain ⟨hheld, hrecord, -, -⟩ := adjustPut_frame
      { u with frozenedScore := u.frozenedScore - lScore, lScore := u.lScore + lScore }
    simp only [Balanced, hheld, hrecord]
    simp only [Balanced, heldTotal] at h ⊢
    grind

theorem takeGold_balanced {entered : Score} (h : Balanced entered u) (lScore : Score)
    (atOnce : Bool) : Balanced entered (u.takeGold lScore atOnce).1 := by
  unfold takeGold
  by_cases hle : lScore ≤ 0
  · rw [if_pos hle]
    exact h
  · rw [if_neg hle]
    by_cases hnow : atOnce = true
    · simp only [if_pos hnow, Balanced, heldTotal_putIn, (putIn_frame u lScore).1]
      exact h
    · simp only [if_neg hnow]
      exact h

/-- `WriteOtherScore` keeps the balance exactly if it books what it
takes. -/
theorem writeOtherScore_balanced {entered : Score} (h : Balanced entered u) (lScore : Score) :
    Balanced entered (u.writeOtherScore lScore).1 ↔ Books u (.writeOtherScore lScore) := by
  unfold writeOtherScore Books
  by_cases hcov : u.covers lScore = true
  · have hdraw := heldTotal_draw u lScore
    simp only [Balanced, heldTotal] at h hdraw ⊢
    by_cases hlt : u.trusteeScore < lScore
    · constructor
      · grind
      · intro hz
        grind
    · constructor
      · intro _ _ hlt'
        exact absurd hlt' hlt
      · grind
  · rw [if_neg hcov]
    exact ⟨fun _ hc => absurd hc hcov, fun _ => h⟩

/-- **One call keeps the balance exactly if it books what it takes.** -/
theorem step_balanced {entered : Score} (u : ServerUserItem) (c : ScoreCall)
    (h : Balanced entered u) : Balanced entered (ServerUserItem.step u c).1 ↔ Books u c := by
  cases c with
  | writeUserScore w => exact iff_of_true (writeUserScore_balanced h w) trivial
  | frozenedUserScore lScore => exact iff_of_true (frozenedUserScore_balanced h lScore) trivial
  | unFrozenedUserScore lScore => exact iff_of_true (unFrozenedUserScore_balanced h lScore) trivial
  | takeGold lScore atOnce => exact iff_of_true (takeGold_balanced h lScore atOnce) trivial
  | writeOtherScore lScore => exact writeOtherScore_balanced h lScore
  | distillVariation =>
    refine iff_of_true ?_ trivial
    rw [ServerUserItem.step, distillVariation]
    by_cases hid : u.userID = 0
    · rw [if_pos hid]
      exact h
    · rw [if_neg hid]
      exact h

/-! ## What is booked reaches the database -/

/-- Everything distilled so far and the pending variation come to the
record, and nothing is pending when the flag says so. -/
structure Reported (u : ServerUserItem) (distilled : List VariationInfo) : Prop where
  total_eq : VariationInfo.total distilled + u.variationInfo = u.recordInfo
  pending : u.modifyScore = false → u.variationInfo = {}

theorem Reported.congr {u' : ServerUserItem} {distilled : List VariationInfo}
    (h : Reported u distilled) (hrecord : u'.recordInfo = u.recordInfo)
    (hvariation : u'.variationInfo = u.variationInfo) (hmodify : u'.modifyScore = u.modifyScore) :
    Reported u' distilled := by
  refine ⟨?_, fun hm => ?_⟩
  · rw [hrecord, hvariation]
    exact h.total_eq
  · rw [hvariation]
    exact h.pending (hmodify ▸ hm)

/-- **One call reports what it books.** -/
theorem step_reported (u : ServerUserItem) (distilled : List VariationInfo) (c : ScoreCall)
    (h : Reported u distilled) :
    Reported (ServerUserItem.step u c).1 (distilled ++ (ServerUserItem.step u c).2) := by
  cases c with
  | writeUserScore w =>
    rw [ServerUserItem.step, List.append_nil, writeUserScore_eq]
    split_ifs
    · exact h
    · obtain ⟨-, hrecord, hvariation, hmodify⟩ := adjustPut_frame (u.written w)
      refine ⟨?_, fun hm => ?_⟩
      · rw [hrecord, hvariation]
        exact (VariationInfo.add_write ..).trans (by rw [h.total_eq]; rfl)
      · rw [hmodify] at hm
        cases hm
  | frozenedUserScore lScore =>
    rw [ServerUserItem.step, List.append_nil, frozenedUserScore]
    split_ifs
    · obtain ⟨hrecord, hvariation, hmodify, -⟩ := draw_frame u lScore
      exact h.congr hrecord hvariation hmodify
    · exact h
  | unFrozenedUserScore lScore =>
    rw [ServerUserItem.step, List.append_nil, unFrozenedUserScore]
    split_ifs
    · exact h
    · obtain ⟨-, hrecord, hvariation, hmodify⟩ := adjustPut_frame
        { u with frozenedScore := u.frozenedScore - lScore, lScore := u.lScore + lScore }
      exact h.congr hrecord hvariation hmodify
  | takeGold lScore atOnce =>
    rw [ServerUserItem.step, List.append_nil, takeGold]
    by_cases hle : lScore ≤ 0
    · rw [if_pos hle]
      exact h
    · rw [if_neg hle]
      by_cases hnow : atOnce = true
      · simp only [if_pos hnow]
        obtain ⟨hrecord, hvariation, hmodify⟩ := putIn_frame u lScore
        exact h.congr hrecord hvariation hmodify
      · simp only [if_neg hnow]
        exact h.congr rfl rfl rfl
  | writeOtherScore lScore =>
    rw [ServerUserItem.step, List.append_nil, writeOtherScore]
    by_cases hcov : u.covers lScore = true
    · rw [if_pos hcov]
      refine ⟨?_, fun hm => by cases hm⟩
      rw [VariationInfo.add_spend, h.total_eq]
    · rw [if_neg hcov]
      exact h
  | distillVariation =>
    rw [ServerUserItem.step, distillVariation]
    by_cases hid : u.userID = 0
    · rw [if_pos hid]
      simpa using h
    · rw [if_neg hid]
      have hout : (if u.modifyScore then u.variationInfo else {}) = u.variationInfo := by
        split_ifs with hm
        · rfl
        · exact (h.pending (by simpa using hm)).symm
      refine ⟨?_, fun _ => rfl⟩
      rw [hout, VariationInfo.total_append, VariationInfo.add_zero]
      exact (congrArg _ (VariationInfo.add_zero _)).trans h.total_eq

/-! ## Runs -/

/-- A user who has just entered: `InsertUserItem` clears the books. -/
def entered (u : ServerUserItem) : ServerUserItem :=
  { u with modifyScore := false, recordInfo := {}, variationInfo := {} }

/-- **A user's score is booked exactly if every call books what it
takes, and what is booked is reported once.** -/
theorem score_is_booked (u : ServerUserItem) (calls : List ScoreCall) :
    ((∀ n, heldTotal (ServerUserItem.step.run (entered u) (calls.take n)).1 =
        heldTotal (entered u) +
          (ServerUserItem.step.run (entered u) (calls.take n)).1.recordInfo.lScore) ↔
      ServerUserItem.step.Along Books (entered u) calls) ∧
    ∀ n, VariationInfo.total (ServerUserItem.step.run (entered u) (calls.take n)).2 +
        (ServerUserItem.step.run (entered u) (calls.take n)).1.variationInfo =
      (ServerUserItem.step.run (entered u) (calls.take n)).1.recordInfo := by
  have hbalanced : Balanced (heldTotal (entered u)) (entered u) := (Int64.add_zero _).symm
  have hreported : Reported (entered u) [] := ⟨VariationInfo.zero_add _, fun _ => rfl⟩
  refine ⟨TotalMachine.inv_prefixes_iff step_balanced calls (entered u) hbalanced, fun n => ?_⟩
  exact (TotalMachine.inv_run_traced step_reported (calls.take n) (entered u) [] hreported).total_eq

/-- **`WriteOtherScore` books too little.** Of 3 kept and 5 played with, 4
are spent: the user holds 4, and the record says he has lost 1. -/
theorem writeOtherScore_books_too_little :
    ¬ (∀ n, heldTotal (ServerUserItem.step.run
          (entered { userID := 1, lScore := 5, trusteeScore := 3 })
          (List.take n [.writeOtherScore 4])).1 =
        heldTotal (entered { userID := 1, lScore := 5, trusteeScore := 3 }) +
          (ServerUserItem.step.run (entered { userID := 1, lScore := 5, trusteeScore := 3 })
            (List.take n [.writeOtherScore 4])).1.recordInfo.lScore) := by
  intro h
  have := h 1
  revert this
  decide

end GameServer.GameService
