import GameServer.TreasureDB.Model.BankService
import Mathlib.Tactic.Linarith
import Mathlib.Tactic.Ring
/-!
# TreasureDB — the bank keeps what it is given

Each of the three procedures ends in one of three ways: it refuses, it
writes the amounts it reports, or, for a transfer to a user who has no row,
it makes the row first and then goes one of the other ways. The last is
where money may appear and a refused call leaves a trace
(`bank_conserves_iff`).
-/

namespace GameServer.TreasureDB

open Sql

variable {db : Database} {t t' : Tables}
variable {r r' : GameScore} {p : TransferParam} {account : AccountsInfo}

theorem bind_eq_ok {ε α β : Type} {x : Except ε α} {f : α → Except ε β} {b : β}
    (h : (x >>= f) = .ok b) : ∃ a, x = .ok a ∧ f a = .ok b := by
  cases x with
  | error e => cases h
  | ok a => exact ⟨a, rfl, h⟩

theorem refuseIf_eq_ok {c : Bool} {r : Refusal} {u : Unit} (h : refuseIf c r = .ok u) : c = false := by
  cases c with
  | false => rfl
  | true => cases h

/-! ## Sums -/

theorem checked_eq_some {x y : ℤ} : checked x = some y ↔ bigint x = true ∧ x = y := by
  rw [checked]
  split <;> simp_all

theorem add_eq_some {a b c : ℤ} (h : r.add a b c = some r') :
    r' = ⟨r.score + a, r.insureScore + b, r.revenue + c⟩ := by
  simp only [GameScore.add, Option.bind_eq_bind, Option.bind_eq_some_iff, checked_eq_some] at h
  obtain ⟨_, ⟨-, rfl⟩, _, ⟨-, rfl⟩, _, ⟨-, rfl⟩, h⟩ := h
  cases h
  rfl

theorem pay_eq_some {a c : ℤ} (h : r.pay a c = some r') :
    r' = ⟨r.score, r.insureScore + a, r.revenue + c⟩ := by
  simp only [GameScore.pay, Option.bind_eq_bind, Option.bind_eq_some_iff, checked_eq_some] at h
  obtain ⟨_, ⟨-, rfl⟩, _, ⟨-, rfl⟩, h⟩ := h
  cases h
  rfl

theorem receive_eq_some {a c : ℤ} (h : r.receive a c = some r') :
    r' = ⟨r.score, r.insureScore + a - c, r.revenue⟩ := by
  simp only [GameScore.receive, Option.bind_eq_bind, Option.bind_eq_some_iff, checked_eq_some] at h
  obtain ⟨_, ⟨-, rfl⟩, _, ⟨-, rfl⟩, h⟩ := h
  cases h
  rfl

/-! ## Taxes -/

/-- No status value that is read is below zero. -/
def Database.NonNegative (db : Database) : Prop :=
  ∀ name status value, db.systemStatusInfo name = some status → status.statusValue = some value →
    0 ≤ value

theorem Database.NonNegative.statusValue_nonneg (h : db.NonNegative) {name : String} {value : ℤ}
    (hv : db.statusValue name none = some value) : 0 ≤ value := by
  rw [Database.statusValue, assign] at hv
  cases hs : db.systemStatusInfo name with
  | none => rw [hs] at hv; cases hv
  | some status =>
    rw [hs] at hv
    exact h name status value hs hv

/-- A rate of at most 300 per mille. -/
def IsRate (rate : ℤ) : Prop := 0 ≤ rate ∧ rate ≤ 300

theorem takeRate_isRate (h : db.NonNegative) : IsRate (takeRate db) := by
  rw [takeRate, adjustRate, IsRate]
  cases hv : db.statusValue "RevenueRateTake" none with
  | none => simp [lt]
  | some rate =>
    have := h.statusValue_nonneg hv
    by_cases hcap : (300 : ℤ) < rate
    · simp [lt, hcap]
    · simp only [lt, decide_eq_false hcap, Bool.false_eq_true, if_false, Option.getD_some]
      omega

theorem transferRate_isRate (h : db.NonNegative) (memberOrder : Option ℤ) :
    IsRate (transferRate db memberOrder) := by
  have hvalue : ∀ (name : String) (missing : ℤ), 0 ≤ missing →
      0 ≤ (db.statusValue name none).getD missing := by
    intro name missing hm
    cases hv : db.statusValue name none with
    | none => exact hm
    | some value => exact h.statusValue_nonneg hv
  have h₁ := hvalue "RevenueRateTransfer" 1 (by omega)
  have h₂ := hvalue "RevenueRateTransferMember" 0 (by omega)
  rw [IsRate, transferRate]
  split <;> split <;> omega

theorem revenueOf_range {amount rate revenue : ℤ} (ha : 0 < amount) (hr : IsRate rate)
    (h : revenueOf amount rate = some revenue) : 0 ≤ revenue ∧ revenue < amount := by
  obtain ⟨x, hx, rfl⟩ := Option.map_eq_some_iff.1 h
  obtain ⟨-, rfl⟩ := checked_eq_some.1 hx
  have hpos : 0 ≤ amount * rate := mul_nonneg ha.le hr.1
  rw [Int.tdiv_eq_ediv_of_nonneg hpos]
  have hle : amount * rate ≤ amount * 300 := mul_le_mul_of_nonneg_left hr.2 ha.le
  omega

theorem capRevenue_range (h : db.NonNegative) {revenue : ℤ} (hr : 0 ≤ revenue) :
    0 ≤ capRevenue db revenue ∧ capRevenue db revenue ≤ revenue := by
  rw [capRevenue]
  split
  · omega
  · rename_i maxTax hmax
    have := h.statusValue_nonneg hmax
    split <;> omega

/-! ## What the checks say -/

theorem saveChecks_ok {p : SaveParam} {source : GameScore} {k s : ℤ}
    (h : saveChecks db t p = .ok (account, source, k, s)) :
    t.gameScoreInfo.lookup p.userID = some source ∧ p.saveScore ≤ source.score := by
  obtain ⟨_, -, h⟩ := bind_eq_ok h
  obtain ⟨_, -, h⟩ := bind_eq_ok h
  obtain ⟨_, -, h⟩ := bind_eq_ok h
  obtain ⟨_, -, h⟩ := bind_eq_ok h
  split at h
  case h_1 => cases h
  case h_2 source' hsource =>
    obtain ⟨_, hscore, h⟩ := bind_eq_ok h
    obtain ⟨_, -, h⟩ := bind_eq_ok h
    cases h
    exact ⟨hsource, by simpa using refuseIf_eq_ok hscore⟩

theorem takeChecks_ok {p : TakeParam} {source : GameScore}
    (h : takeChecks db t p = .ok (account, source)) :
    t.gameScoreInfo.lookup p.userID = some source ∧ p.takeScore ≤ source.insureScore := by
  obtain ⟨_, -, h⟩ := bind_eq_ok h
  obtain ⟨_, -, h⟩ := bind_eq_ok h
  obtain ⟨_, -, h⟩ := bind_eq_ok h
  obtain ⟨_, -, h⟩ := bind_eq_ok h
  obtain ⟨_, -, h⟩ := bind_eq_ok h
  split at h
  case h_1 => cases h
  case h_2 source' hsource =>
    obtain ⟨_, hscore, h⟩ := bind_eq_ok h
    cases h
    exact ⟨hsource, by simpa using refuseIf_eq_ok hscore⟩

theorem transferChecks_ok {target : ℤ}
    (h : transferChecks db p = .ok (account, target)) : target ≠ p.userID := by
  obtain ⟨_, -, h⟩ := bind_eq_ok h
  obtain ⟨_, -, h⟩ := bind_eq_ok h
  obtain ⟨_, -, h⟩ := bind_eq_ok h
  obtain ⟨_, -, h⟩ := bind_eq_ok h
  obtain ⟨_, -, h⟩ := bind_eq_ok h
  obtain ⟨_, -, h⟩ := bind_eq_ok h
  split at h
  case h_1 => cases h
  case h_2 target' _ =>
    obtain ⟨_, hsame, h⟩ := bind_eq_ok h
    cases h
    simpa using refuseIf_eq_ok hsame

theorem balanceChecks_ok {source : GameScore} (h : balanceChecks db t p = .ok source) :
    t.gameScoreInfo.lookup p.userID = some source ∧ p.transferScore ≤ source.insureScore := by
  unfold balanceChecks at h
  split at h
  case h_1 => cases h
  case h_2 source' hsource =>
    obtain ⟨_, hscore, h⟩ := bind_eq_ok h
    obtain ⟨_, -, h⟩ := bind_eq_ok h
    cases h
    exact ⟨hsource, by simpa using refuseIf_eq_ok hscore⟩

/-! ## Conservation -/

/-- What a user owns and has paid in taxes. -/
def GameScore.worth (r : GameScore) : ℤ := r.score + r.insureScore + r.revenue

/-- The total over all users. -/
def Tables.worth (t : Tables) : ℤ := Table.total GameScore.worth t.gameScoreInfo

/-- No row is lost, and no amount that was not negative is negative. -/
def KeepsSign (t t' : Tables) : Prop :=
  ∀ u r, t.gameScoreInfo.lookup u = some r → ∃ r', t'.gameScoreInfo.lookup u = some r' ∧
    (0 ≤ r.score → 0 ≤ r'.score) ∧ (0 ≤ r.insureScore → 0 ≤ r'.insureScore)

/-- The variations of a result row are the changes of the caller's row. -/
def Reports (t t' : Tables) (userID : ℤ) (report : Report) : Prop :=
  ∃ r r', t.gameScoreInfo.lookup userID = some r ∧ t'.gameScoreInfo.lookup userID = some r' ∧
    r'.score - r.score = report.variationScore ∧
    r'.insureScore - r.insureScore = report.variationInsure

/-- **A call conserves money**: the total stays, nothing turns negative, the
tax is a part of the amount, what is reported is what was written, and a
refused call writes nothing. -/
structure Conserves (t t' : Tables) (userID amount : ℤ) (answer : Answer) : Prop where
  total : t'.worth = t.worth
  sign : KeepsSign t t'
  revenue : ∀ report, answer.report = some report →
    0 ≤ report.insureRevenue ∧ report.insureRevenue ≤ amount
  reported : ∀ report, answer.report = some report → Reports t t' userID report
  unchanged : answer.returnCode ≠ 0 → t' = t

theorem KeepsSign.refl (t : Tables) : KeepsSign t t := fun _ r h => ⟨r, h, id, id⟩

theorem KeepsSign.trans {t₁ t₂ t₃ : Tables} (h₁ : KeepsSign t₁ t₂) (h₂ : KeepsSign t₂ t₃) :
    KeepsSign t₁ t₃ := by
  intro u r hr
  obtain ⟨r₂, hr₂, hscore, hinsure⟩ := h₁ u r hr
  obtain ⟨r₃, hr₃, hscore', hinsure'⟩ := h₂ u r₂ hr₂
  exact ⟨r₃, hr₃, fun h => hscore' (hscore h), fun h => hinsure' (hinsure h)⟩

theorem conserves_refused (t : Tables) (userID amount : ℤ) (r : Refusal) :
    Conserves t t userID amount r.answer :=
  ⟨rfl, .refl t, nofun, nofun, fun _ => rfl⟩

theorem keepsSign_update {u : ℤ} {f : GameScore → Option GameScore}
    {table : Table ℤ GameScore} {records records' : List RecordInsure}
    (hu : table.lookup u = some r) (hf : f r = some r')
    (hscore : 0 ≤ r.score → 0 ≤ r'.score) (hinsure : 0 ≤ r.insureScore → 0 ≤ r'.insureScore) :
    KeepsSign ⟨table, records⟩ ⟨table.update u f, records'⟩ := by
  intro v q hq
  by_cases huv : v = u
  · subst huv
    obtain rfl : r = q := Option.some.inj (hu.symm.trans hq)
    exact ⟨r', Table.lookup_update hu hf, hscore, hinsure⟩
  · exact ⟨q, (Table.lookup_update_of_ne huv).trans hq, id, id⟩

/-- **A deposit or a withdrawal**: the sums fit and the row changes by what
is reported, or the update is terminated and the report is wrong. -/
theorem conserves_add_iff {userID amount : ℤ} {source : GameScore} (a b c : ℤ) (report : Report)
    {describe : String} {records : List RecordInsure}
    (ha : report.variationScore = a) (hb : report.variationInsure = b)
    (hc : report.insureRevenue = c) (hu : t.gameScoreInfo.lookup userID = some source)
    (hsum : a + b + c = 0) (hscore : 0 ≤ source.score → 0 ≤ source.score + a)
    (hinsure : 0 ≤ source.insureScore → 0 ≤ source.insureScore + b)
    (hrange : 0 ≤ c ∧ c ≤ amount) (hmoves : b ≠ 0) :
    Conserves t ⟨t.gameScoreInfo.update userID (GameScore.add a b c), records⟩ userID amount
        (report.answer describe) ↔
      (source.add a b c).isSome := by
  constructor
  · intro h
    by_contra hnone
    -- the update was terminated, the report says otherwise
    have hsame := Table.update_of_none hu (Option.not_isSome_iff_eq_none.1 hnone)
    obtain ⟨r, r', hr, hr', -, hvi⟩ := h.reported report rfl
    simp only [hsame] at hr'
    obtain rfl : r = r' := Option.some.inj (hr.symm.trans hr')
    omega
  · intro h
    obtain ⟨r', hr'⟩ := Option.isSome_iff_exists.1 h
    obtain rfl := add_eq_some hr'
    refine ⟨?_, keepsSign_update hu hr' hscore hinsure, ?_, ?_, fun hcode => absurd rfl hcode⟩
    · have htotal := Table.total_update (w := GameScore.worth) (d := 0) hu hr'
        (by simp only [GameScore.worth]; omega)
      simpa [Tables.worth] using htotal
    · rintro _ ⟨⟩
      rw [hc]
      exact hrange
    · rintro _ ⟨⟩
      refine ⟨source, _, hu, Table.lookup_update hu hr', ?_, ?_⟩
      · rw [ha, add_sub_cancel_left]
      · rw [hb, add_sub_cancel_left]

/-- The update of a deposit or a withdrawal goes through. -/
def SaveFits (db : Database) (t : Tables) (p : SaveParam) : Prop :=
  ∀ account source kindID serverID, saveChecks db t p = .ok (account, source, kindID, serverID) →
    (source.add (-p.saveScore) p.saveScore 0).isSome

theorem userSaveScore_conserves_iff {p : SaveParam} (hpos : 0 < p.saveScore) :
    Conserves t (userSaveScore db t p).2 p.userID p.saveScore (userSaveScore db t p).1 ↔
      SaveFits db t p := by
  unfold userSaveScore SaveFits
  generalize hchecks : saveChecks db t p = checks
  cases checks with
  | error r =>
    refine ⟨fun _ account source kindID serverID hok => ?_, fun _ => conserves_refused t _ _ r⟩
    cases hok
  | ok checks =>
    obtain ⟨account, source, kindID, serverID⟩ := checks
    obtain ⟨hu, hle⟩ := saveChecks_ok hchecks
    refine (conserves_add_iff (-p.saveScore) p.saveScore 0 _ rfl rfl rfl hu (by omega) (by omega)
      (by omega) (by omega) (by omega)).trans ⟨fun hfits _ _ _ _ hok => ?_, fun hfits => hfits account source kindID serverID rfl⟩
    cases hok
    exact hfits

def TakeFits (db : Database) (t : Tables) (p : TakeParam) : Prop :=
  ∀ account source revenue, takeChecks db t p = .ok (account, source) →
    revenueOf p.takeScore (takeRate db) = some revenue →
    (source.add (p.takeScore - revenue) (-p.takeScore) revenue).isSome

theorem userTakeScore_conserves_iff {p : TakeParam} (hdb : db.NonNegative) (hpos : 0 < p.takeScore)
    {answer : Answer} (h : userTakeScore db t p = some (answer, t')) :
    Conserves t t' p.userID p.takeScore answer ↔ TakeFits db t p := by
  unfold userTakeScore at h
  unfold TakeFits
  generalize hchecks : takeChecks db t p = checks at h
  cases checks with
  | error r =>
    cases h
    refine ⟨fun _ account source revenue hok => ?_, fun _ => conserves_refused t _ _ r⟩
    cases hok
  | ok checks =>
    obtain ⟨account, source⟩ := checks
    obtain ⟨hu, hle⟩ := takeChecks_ok hchecks
    obtain ⟨revenue, hrevenue, heq⟩ := Option.map_eq_some_iff.1 h
    cases heq
    obtain ⟨hlow, hhigh⟩ := revenueOf_range hpos (takeRate_isRate hdb) hrevenue
    refine (conserves_add_iff (p.takeScore - revenue) (-p.takeScore) revenue _ rfl rfl rfl hu
      (by omega) (by omega) (by omega) (by omega) (by omega)).trans ⟨fun hfits _ _ _ hok hrevenue' => ?_,
      fun hfits => hfits account source revenue rfl hrevenue⟩
    cases hok
    obtain rfl : revenue = _ := Option.some.inj (hrevenue.symm.trans hrevenue')
    exact hfits

/-! ### Transfers -/

/-- The target of a transfer has a row after 插入判断: its own, or a new
one. -/
theorem openTarget_lookup (db : Database) (t : Tables) (target : ℤ) :
    (openTarget db t target).gameScoreInfo.lookup target =
      some ((t.gameScoreInfo.lookup target).getD ⟨db.defaultScore, 0, 0⟩) := by
  rw [openTarget]
  cases h : t.gameScoreInfo.lookup target with
  | none => rw [Table.insertNew_eq h, AList.lookup_insert]; rfl
  | some r =>
    have hmem : target ∈ t.gameScoreInfo := AList.lookup_isSome.1 (by rw [h]; rfl)
    rw [Table.insertNew, if_pos hmem, h]
    rfl

theorem openTarget_of_some {target : ℤ}
    (h : t.gameScoreInfo.lookup target = some r) : openTarget db t target = t := by
  have hmem : target ∈ t.gameScoreInfo := AList.lookup_isSome.1 (by rw [h]; rfl)
  rw [openTarget, Table.insertNew, if_pos hmem]

theorem openTarget_of_none {target : ℤ} (h : t.gameScoreInfo.lookup target = none) :
    openTarget db t target =
      { t with gameScoreInfo := t.gameScoreInfo.insert target ⟨db.defaultScore, 0, 0⟩ } := by
  rw [openTarget, Table.insertNew_eq h]

theorem openTarget_lookup_of_ne {target u : ℤ} (h : u ≠ target) :
    (openTarget db t target).gameScoreInfo.lookup u = t.gameScoreInfo.lookup u := by
  rw [openTarget, Table.insertNew]
  split
  · rfl
  · exact AList.lookup_insert_ne h

theorem keepsSign_openTarget (target : ℤ) : KeepsSign t (openTarget db t target) := by
  intro u r hr
  by_cases h : u = target
  · subst h
    rw [openTarget_of_some hr]
    exact ⟨r, hr, id, id⟩
  · exact ⟨r, (openTarget_lookup_of_ne h).trans hr, id, id⟩

theorem worth_openTarget (db : Database) (t : Tables) (target : ℤ) :
    (openTarget db t target).worth =
      t.worth + (if t.gameScoreInfo.lookup target = none then db.defaultScore else 0) := by
  cases h : t.gameScoreInfo.lookup target with
  | none =>
    rw [openTarget_of_none h, Tables.worth, Table.total_insert_of_none h, if_pos rfl, Tables.worth]
    simp only [GameScore.worth]
    omega
  | some r => rw [openTarget_of_some h]; simp

/-- A row is made for the target only with nothing in it and for a call that
succeeds, and both updates go through. -/
def TransferFits (db : Database) (t : Tables) (p : TransferParam) : Prop :=
  ∀ account target, transferChecks db p = .ok (account, target) →
    (t.gameScoreInfo.lookup target = none →
      db.defaultScore = 0 ∧ ∃ source, balanceChecks db (openTarget db t target) p = .ok source) ∧
    ∀ source revenue, balanceChecks db (openTarget db t target) p = .ok source →
      revenueOf p.transferScore (transferRate db account.memberOrder) = some revenue →
      (source.pay (-p.transferScore) (capRevenue db revenue)).isSome ∧
        ∀ row, t.gameScoreInfo.lookup target = some row →
          (row.receive p.transferScore (capRevenue db revenue)).isSome

/-- What the two updates of a transfer leave. -/
def paidOver (T : Table ℤ GameScore) (userID target x c : ℤ) : Table ℤ GameScore :=
  (T.update userID (GameScore.pay (-x) c)).update target (GameScore.receive x c)

section Paid

variable {T : Table ℤ GameScore} {records records' : List RecordInsure}
variable {userID target x c : ℤ} {source row source' : GameScore}

/-- The source's update goes through: the total moves by what is not
received. -/
theorem worth_paidOver (records : List RecordInsure) (hsource : T.lookup userID = some source) (hne : target ≠ userID)
    (hrow : T.lookup target = some row) (hpay : source.pay (-x) c = some source') :
    Tables.worth ⟨paidOver T userID target x c, records'⟩ =
      Tables.worth ⟨T, records⟩ + (if (row.receive x c).isSome then 0 else c - x) := by
  have hpaid := Table.total_update (w := GameScore.worth) (d := c - x) hsource hpay
    (by rw [pay_eq_some hpay]; simp only [GameScore.worth]; ring)
  have hrow' : (T.update userID (GameScore.pay (-x) c)).lookup target = some row :=
    (Table.lookup_update_of_ne hne).trans hrow
  simp only [Tables.worth, paidOver]
  cases hreceive : row.receive x c with
  | none => rw [Table.update_of_none hrow' hreceive, hpaid]; simp
  | some row' =>
    have hreceived := Table.total_update (w := GameScore.worth) (d := x - c) hrow' hreceive
      (by rw [receive_eq_some hreceive]; simp only [GameScore.worth]; ring)
    rw [hreceived, hpaid]
    simp only [Option.isSome_some, if_true]
    ring

theorem lookup_paidOver (hsource : T.lookup userID = some source) (hne : target ≠ userID)
    (hpay : source.pay (-x) c = some source') :
    (paidOver T userID target x c).lookup userID = some source' := by
  rw [paidOver, Table.lookup_update_of_ne hne.symm]
  exact Table.lookup_update hsource hpay

theorem keepsSign_paidOver (hsource : T.lookup userID = some source) (hne : target ≠ userID)
    (hrow : T.lookup target = some row) (hpay : source.pay (-x) c = some source')
    (hle : x ≤ source.insureScore) (hc : c ≤ x) :
    KeepsSign ⟨T, records⟩ ⟨paidOver T userID target x c, records'⟩ := by
  have hpaid : KeepsSign ⟨T, records⟩ ⟨T.update userID (GameScore.pay (-x) c), records⟩ := by
    refine keepsSign_update hsource hpay ?_ ?_
    · rw [pay_eq_some hpay]; exact id
    · rw [pay_eq_some hpay]; simp only; omega
  have hrow' : (T.update userID (GameScore.pay (-x) c)).lookup target = some row :=
    (Table.lookup_update_of_ne hne).trans hrow
  refine hpaid.trans ?_
  rw [paidOver]
  cases hreceive : row.receive x c with
  | none => rw [Table.update_of_none hrow' hreceive]; exact .refl _
  | some row' =>
    refine keepsSign_update hrow' hreceive ?_ ?_
    · rw [receive_eq_some hreceive]; exact id
    · rw [receive_eq_some hreceive]; simp only; omega

end Paid

theorem receive_default (score : ℤ) {x c : ℤ} (hx : 0 < x) (hbig : bigint x = true) (hc : 0 ≤ c ∧ c ≤ x) :
    (GameScore.receive x c ⟨score, 0, 0⟩).isSome := by
  have hsub : bigint (x - c) = true := by
    simp only [bigint, Bool.and_eq_true, decide_eq_true_eq] at hbig ⊢
    omega
  simp [GameScore.receive, checked, hbig, hsub]

theorem userTransferScore_conserves_iff (hdb : db.NonNegative)
    (hpos : 0 < p.transferScore) (hbig : bigint p.transferScore = true) {answer : Answer}
    (h : userTransferScore db t p = some (answer, t')) :
    Conserves t t' p.userID p.transferScore answer ↔ TransferFits db t p := by
  unfold userTransferScore at h
  unfold TransferFits
  generalize hchecks : transferChecks db p = checks at h
  cases checks with
  | error r =>
    cases h
    refine ⟨fun _ account target hok => ?_, fun _ => conserves_refused t _ _ r⟩
    cases hok
  | ok checks =>
    obtain ⟨account, target⟩ := checks
    have hne := transferChecks_ok hchecks
    simp only at h
    generalize hbalance : balanceChecks db (openTarget db t target) p = balance at h
    cases balance with
    | error r =>
      cases h
      constructor
      · intro hcons _ _ hok
        cases hok
        -- a row was made, so the refused call left a trace
        have hsame := hcons.unchanged r.failed
        have hopen := openTarget_lookup db t target
        rw [hsame] at hopen
        refine ⟨fun hnone => ?_, fun source revenue hok => ?_⟩
        · rw [hnone] at hopen
          cases hopen
        · rw [hbalance] at hok
          cases hok
      · intro hfits
        cases hlookup : t.gameScoreInfo.lookup target with
        | none =>
          obtain ⟨-, source, hok⟩ := (hfits account target rfl).1 hlookup
          rw [hbalance] at hok
          cases hok
        | some row =>
          rw [openTarget_of_some hlookup]
          exact conserves_refused t _ _ r
    | ok source =>
      obtain ⟨hsource, hle⟩ := balanceChecks_ok hbalance
      obtain ⟨revenue, hrevenue, heq⟩ := Option.map_eq_some_iff.1 h
      cases heq
      obtain ⟨hlow, hhigh⟩ := revenueOf_range hpos (transferRate_isRate hdb account.memberOrder) hrevenue
      obtain ⟨hlow', hcap⟩ := capRevenue_range hdb hlow
      have hrow := openTarget_lookup db t target
      have hsource' : t.gameScoreInfo.lookup p.userID = some source :=
        (openTarget_lookup_of_ne hne.symm).symm.trans hsource
      constructor
      · intro hcons _ _ hok
        cases hok
        -- the caller's row changed as reported, so he paid
        have hpay : (source.pay (-p.transferScore) (capRevenue db revenue)).isSome := by
          by_contra hnone
          obtain ⟨r, r', hr, hr', -, hvi⟩ := hcons.reported _ rfl
          simp only [Table.update_of_none hsource (Option.not_isSome_iff_eq_none.1 hnone)] at hr'
          rw [Table.lookup_update_of_ne hne.symm, hsource] at hr'
          rw [hsource'] at hr
          cases hr
          cases hr'
          simp only at hvi
          omega
        obtain ⟨source₁, hpay'⟩ := Option.isSome_iff_exists.1 hpay
        have htotal : (openTarget db t target).worth + _ = t.worth :=
          (worth_paidOver (openTarget db t target).recordInsure hsource hne hrow
            hpay').symm.trans hcons.total
        rw [worth_openTarget] at htotal
        refine ⟨fun hnone => ⟨?_, source, hbalance⟩, fun source₂ revenue₂ hok hrev => ?_⟩
        · rw [hnone] at htotal
          have hreceive := receive_default db.defaultScore hpos hbig ⟨hlow', by omega⟩
          rw [Option.getD_none, if_pos rfl, if_pos hreceive] at htotal
          omega
        · rw [hbalance] at hok
          rw [hrevenue] at hrev
          cases hok
          cases hrev
          refine ⟨hpay, fun row hlookup => ?_⟩
          by_contra hnone
          rw [hlookup, Option.getD_some, if_neg hnone] at htotal
          simp only [reduceCtorEq, if_false] at htotal
          omega
      · intro hfits
        obtain ⟨hnew, hupdates⟩ := hfits account target rfl
        obtain ⟨hpay, hreceive⟩ := hupdates source revenue hbalance hrevenue
        obtain ⟨source₁, hpay'⟩ := Option.isSome_iff_exists.1 hpay
        have hreceive' : (GameScore.receive p.transferScore (capRevenue db revenue)
            ((t.gameScoreInfo.lookup target).getD ⟨db.defaultScore, 0, 0⟩)).isSome := by
          cases hlookup : t.gameScoreInfo.lookup target with
          | none => exact receive_default db.defaultScore hpos hbig ⟨hlow', by omega⟩
          | some row => exact hreceive row hlookup
        refine ⟨?_, (keepsSign_openTarget target).trans
          (keepsSign_paidOver hsource hne hrow hpay' hle (by omega)), ?_, ?_,
          fun hcode => absurd rfl hcode⟩
        · refine (worth_paidOver (openTarget db t target).recordInsure hsource hne hrow
            hpay').trans ?_
          rw [if_pos hreceive', add_zero]
          refine (worth_openTarget db t target).trans ?_
          split
          · rename_i hnone
            rw [(hnew hnone).1, add_zero]
          · rw [add_zero]
        · rintro _ ⟨⟩
          exact ⟨hlow', by simp only; omega⟩
        · rintro _ ⟨⟩
          refine ⟨source, source₁, hsource', lookup_paidOver hsource hne hpay', ?_, ?_⟩
          · rw [pay_eq_some hpay']; simp
          · rw [pay_eq_some hpay']; simp

/-! ## Sequences of calls -/

/-- The calls of the claim of conservation: status values of at least zero or
missing, a positive amount, and a tax product that is a `BIGINT`. -/
def Call.Admissible : Call → Prop
  | .userSaveScore db p => db.NonNegative ∧ 0 < p.saveScore ∧ bigint p.saveScore = true
  | .userTakeScore db p => db.NonNegative ∧ (0 < p.takeScore ∧ bigint p.takeScore = true) ∧
      (revenueOf p.takeScore (takeRate db)).isSome
  | .userTransferScore db p => db.NonNegative ∧
      (0 < p.transferScore ∧ bigint p.transferScore = true) ∧
      ∀ account target, transferChecks db p = .ok (account, target) →
        (revenueOf p.transferScore (transferRate db account.memberOrder)).isSome

def Call.userID : Call → ℤ
  | .userSaveScore _ p => p.userID
  | .userTakeScore _ p => p.userID
  | .userTransferScore _ p => p.userID

def Call.amount : Call → ℤ
  | .userSaveScore _ p => p.saveScore
  | .userTakeScore _ p => p.takeScore
  | .userTransferScore _ p => p.transferScore

abbrev BankCall := { c : Call // c.Admissible }

/-- The procedures, called one after the other. -/
def bank : Machine Tables BankCall Answer := fun t c => step t c.1

/-- **The condition.** -/
def Call.Fits (t : Tables) : Call → Prop
  | .userSaveScore db p => SaveFits db t p
  | .userTakeScore db p => TakeFits db t p
  | .userTransferScore db p => TransferFits db t p

/-- The call conserves money from here. -/
def ConservesNext (t : Tables) (c : BankCall) : Prop :=
  ∀ t' out, bank t c = some (t', out) →
    ∃ answer, out = [answer] ∧ Conserves t t' c.1.userID c.1.amount answer

theorem userTakeScore_isSome {p : TakeParam} (h : (revenueOf p.takeScore (takeRate db)).isSome) :
    (userTakeScore db t p).isSome := by
  unfold userTakeScore
  split
  · rfl
  · rw [Option.isSome_map]
    exact h

theorem userTransferScore_isSome
    (h : ∀ account target, transferChecks db p = .ok (account, target) →
      (revenueOf p.transferScore (transferRate db account.memberOrder)).isSome) :
    (userTransferScore db t p).isSome := by
  unfold userTransferScore
  split
  · rfl
  · rename_i account target hchecks
    simp only
    split
    · rfl
    · rw [Option.isSome_map]
      exact h account target hchecks

/-- **Every call returns**, and conserves money exactly when it meets the
condition. -/
theorem bank_spec (t : Tables) (c : BankCall) :
    ∃ t' answer, bank t c = some (t', [answer]) ∧
      (Conserves t t' c.1.userID c.1.amount answer ↔ c.1.Fits t) := by
  obtain ⟨c, hc⟩ := c
  cases c with
  | userSaveScore db p => exact ⟨_, _, rfl, userSaveScore_conserves_iff hc.2.1⟩
  | userTakeScore db p =>
    obtain ⟨⟨answer, t'⟩, h⟩ := Option.isSome_iff_exists.1 (userTakeScore_isSome (t := t) hc.2.2)
    exact ⟨t', answer, by simp only [bank, step, h]; rfl,
      userTakeScore_conserves_iff hc.1 hc.2.1.1 h⟩
  | userTransferScore db p =>
    obtain ⟨⟨answer, t'⟩, h⟩ :=
      Option.isSome_iff_exists.1 (userTransferScore_isSome (t := t) hc.2.2)
    exact ⟨t', answer, by simp only [bank, step, h]; rfl,
      userTransferScore_conserves_iff hc.1 hc.2.1.1 hc.2.1.2 h⟩

/-- **When the bank conserves money.** Over any sequence of calls, every call
returns, the total never changes, nothing turns negative, and every call
taxes a part of its amount, reports what it wrote and writes nothing when it
is refused, exactly when every call meets the condition. -/
theorem bank_conserves_iff (t : Tables) (calls : List BankCall) :
    ((∀ n, ∃ r, bank.run t (calls.take n) = some r ∧ r.1.worth = t.worth ∧ KeepsSign t r.1) ∧
      Machine.Along bank ConservesNext t calls) ↔
    Machine.Along bank (fun t c => c.1.Fits t) t calls := by
  refine Machine.prefixes_iff (I := fun s : Tables => s.worth = t.worth ∧ KeepsSign t s)
    (P := fun s : Tables => s.worth = t.worth ∧ KeepsSign t s) (fun _ h => h) ?_ ?_ calls t
    ⟨rfl, .refl t⟩
  · intro s c ⟨htotal, hsign⟩ hfits
    obtain ⟨s', answer, hstep, hiff⟩ := bank_spec s c
    have hconserves := hiff.2 hfits
    refine ⟨fun t' out h => ?_, s', [answer], hstep, hconserves.total.trans htotal,
      hsign.trans hconserves.sign⟩
    rw [hstep] at h
    cases h
    exact ⟨answer, rfl, hconserves⟩
  · intro s c s' out _ hnext hstep _
    obtain ⟨s₁, answer, hstep', hiff⟩ := bank_spec s c
    obtain ⟨answer', hout, hconserves⟩ := hnext s₁ [answer] hstep'
    cases hout
    exact hiff.1 hconserves

/-- Two accounts; the second user has never played. -/
def newUser : Database where
  accountsInfo := [⟨1, some "first", some "", some 0, some 0, some 0, some 0, none⟩,
    ⟨2, some "second", some "", some 0, some 0, some 0, some 0, none⟩]
  defaultScore := 1000

def sendFive : TransferParam where
  userID := 1
  kindID := 1
  serverID := 1
  clientIP := "127.0.0.1"
  machineID := "machine"
  transferScore := 5
  password := ""
  nickName := "second"
  transRemark := ""

def emptyBank : Tables := ⟨AList.singleton 1 ⟨100, 0, 0⟩, []⟩

/-- A user with an empty bank sends 5 to a user without a row: the call is
refused, and there are 1000 more, in a new row. -/
theorem refused_transfer_makes_row :
    ∃ c : BankCall, ¬ ConservesNext emptyBank c ∧ ∃ t' answer,
      bank emptyBank c = some (t', [answer]) ∧ answer.returnCode = 4 ∧
        t'.worth = emptyBank.worth + 1000 := by
  have hok : transferChecks newUser sendFive =
      .ok (⟨1, some "first", some "", some 0, some 0, some 0, some 0, none⟩, 2) := rfl
  have hadm : (Call.userTransferScore newUser sendFive).Admissible := by
    refine ⟨fun _ _ _ h => (by cases h), (by decide), fun account target h => ?_⟩
    cases h
    decide
  refine ⟨⟨_, hadm⟩, fun h => ?_, _, _, rfl, rfl, rfl⟩
  obtain ⟨answer, hout, hconserves⟩ := h _ _ rfl
  cases hout
  have hsame := congrArg (fun t : Tables => t.gameScoreInfo.lookup 2)
    (hconserves.unchanged (by decide))
  exact absurd hsame (by decide)

end GameServer.TreasureDB
