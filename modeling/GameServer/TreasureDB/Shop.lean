import GameServer.TreasureDB.BankService
import GameServer.TreasureDB.Model.Shop
/-!
# TreasureDB — what the shop takes and gives

Every balance is what it was at first, moved by the statements that have
run (`Fair`). A statement keeps this exactly when the balance it moves has
not been changed behind it: a payment finds the balance it has checked
still large enough, the medals are written over what was read, and the
sums fit their columns (`shop_fair_iff`). Nothing in the procedures makes
sure of it.
-/

namespace GameServer.TreasureDB

open Sql

variable {w₀ : Wallet} {s s' : Shop} {id : ℕ} {c c' : ShopCall}
variable {k : Balance} {x : ℤ}

/-! ## What a call has moved -/

def Purchase.paid (m : Purchase) : Balance → ℤ := Pi.single .currency (-m.cost)

def Purchase.presented (m : Purchase) : Balance → ℤ := Pi.single .score m.present

def Exchange.credited (x : Exchange) : Balance → ℤ := Pi.single .insureScore x.worth

def Exchange.debited (x : Exchange) : Balance → ℤ := Pi.single .userMedal (-x.exchangeIngot)

def Consume.paid (c : Consume) : Balance → ℤ := Pi.single .insureScore (-c.price)

/-- What the statements that a call has run were to move. -/
def ShopCall.moved : ShopCall → Balance → ℤ
  | .purchase m .presentScore => m.paid
  | .purchase m .commit => m.paid + m.presented
  | .purchase m .readCurrScore => m.paid + m.presented
  | .purchase m (.readCurrBeans _) => m.paid + m.presented
  | .exchange x .writeMedal => x.credited
  | .exchange x .readCurrScore => x.credited + x.debited
  | .consume c .commit => c.paid
  | .consume c (.record true) => c.paid
  | _ => 0

/-- What a completed call was to move: each is paid for at the configured
price or rate. -/
def Receipt.moved : Receipt → Balance → ℤ
  | .member m => m.paid + m.presented
  | .ingot x => x.credited + x.debited
  | .property c true => c.paid
  | .property _ false => 0

/-- The state is fair: a balance that starts non-negative is so still, and
each balance is what it was, moved by the completed calls and by the
statements that the others have run. -/
structure Fair (w₀ : Wallet) (s : Shop) : Prop where
  nonneg : ∀ k, k ≠ .score → 0 ≤ w₀.balance k → 0 ≤ s.wallet.balance k
  account : s.wallet.balance =
    w₀.balance + (s.completed.map Receipt.moved).sum + s.calls.total ShopCall.moved

/-! ## Steps of a call -/

/-- A call that goes on moves what its statement moves. -/
theorem fair_goto_iff (hc : s.calls.lookup id = some c) (hs : Fair w₀ s) {d : Balance → ℤ}
    (hd : c'.moved = c.moved + d) (hcalls : s'.calls = s.calls.insert id c')
    (hdone : s'.completed = s.completed) :
    Fair w₀ s' ↔ s'.wallet.balance = s.wallet.balance + d ∧
      ∀ k, k ≠ .score → 0 ≤ w₀.balance k → 0 ≤ s'.wallet.balance k := by
  have htotal : s'.calls.total ShopCall.moved = s.calls.total ShopCall.moved + d := by
    have h := Table.total_insert (w := ShopCall.moved) c' hc
    rw [hd, ← add_assoc, add_right_comm] at h
    rw [hcalls]
    exact add_right_cancel h
  have heq : w₀.balance + (s'.completed.map Receipt.moved).sum + s'.calls.total ShopCall.moved =
      s.wallet.balance + d := by
    rw [htotal, hdone, ← add_assoc, ← hs.account]
  constructor
  · intro h
    exact ⟨h.account.trans heq, h.nonneg⟩
  · rintro ⟨hbal, hnonneg⟩
    exact ⟨hnonneg, hbal.trans heq.symm⟩

theorem fair_goto (hc : s.calls.lookup id = some c) (hs : Fair w₀ s)
    (hcalls : s'.calls = s.calls.insert id c') (hdone : s'.completed = s.completed)
    (hd : c'.moved = c.moved) (hw : s'.wallet.balance = s.wallet.balance) : Fair w₀ s' := by
  refine (fair_goto_iff hc hs (by rw [hd, add_zero]) hcalls hdone).2 ⟨by rw [hw, add_zero], ?_⟩
  rw [hw]
  exact hs.nonneg

/-- A statement that moves one balance. -/
theorem fair_move_iff (c' : ShopCall) (hc : s.calls.lookup id = some c) (hs : Fair w₀ s)
    {w : Wallet} {a b : Option ℕ} (hd : c'.moved = c.moved + Pi.single k x)
    (hframe : ∀ j, j ≠ k → w.balance j = s.wallet.balance j) :
    Fair w₀ ⟨w, a, b, s.calls.insert id c', s.completed⟩ ↔
      w.balance k = s.wallet.balance k + x ∧
      (k ≠ .score → 0 ≤ w₀.balance k → 0 ≤ s.wallet.balance k + x) := by
  refine Iff.trans (fair_goto_iff hc hs hd ?_ ?_) ?_
  · exact rfl
  · exact rfl
  constructor
  · rintro ⟨hbal, hnonneg⟩
    have hk : w.balance k = s.wallet.balance k + x := by
      rw [hbal, Pi.add_apply, Pi.single_eq_same]
    exact ⟨hk, fun h₁ h₂ => hk ▸ hnonneg k h₁ h₂⟩
  · rintro ⟨hbal, hnonneg⟩
    refine ⟨funext fun j => ?_, fun j h₁ h₂ => ?_⟩
    · by_cases hj : j = k
      · rw [hj, hbal, Pi.add_apply, Pi.single_eq_same]
      · rw [hframe j hj, Pi.add_apply, Pi.single_eq_of_ne hj, add_zero]
    · by_cases hj : j = k
      · rw [hj, hbal]
        exact hnonneg (hj ▸ h₁) (hj ▸ h₂)
      · rw [hframe j hj]
        exact hs.nonneg j h₁ h₂

theorem fair_refuse (hc : s.calls.lookup id = some c) (hs : Fair w₀ s) (hd : c.moved = 0)
    (r : Refusal) : Fair w₀ (s.refuse id r).1 := by
  refine ⟨hs.nonneg, ?_⟩
  have h := Table.total_erase (w := ShopCall.moved) hc
  rw [hd, zero_add] at h
  exact hs.account.trans (by rw [h]; rfl)

theorem fair_complete (hc : s.calls.lookup id = some c) (hs : Fair w₀ s) {r : Receipt}
    (hd : r.moved = c.moved) (a : ShopAnswer) : Fair w₀ (s.complete id r a).1 := by
  refine ⟨hs.nonneg, ?_⟩
  have h := Table.total_erase (w := ShopCall.moved) hc
  show s.wallet.balance = w₀.balance + ((s.completed ++ [r]).map Receipt.moved).sum +
    Table.total ShopCall.moved (s.calls.erase id)
  rw [hs.account, h, List.map_append, List.sum_append, List.map_singleton, List.sum_singleton, hd]
  simp only [add_assoc]

theorem fair_call (hs : Fair w₀ s) (hd : c.moved = 0) : Fair w₀ (s.call id c) := by
  refine ⟨hs.nonneg, ?_⟩
  have htotal : (s.calls.insertNew id c).total ShopCall.moved = s.calls.total ShopCall.moved := by
    by_cases hmem : id ∈ s.calls
    · rw [Table.insertNew, if_pos hmem]
    · have hnone := AList.lookup_eq_none.2 hmem
      rw [Table.insertNew_eq hnone, Table.total_insert_of_none hnone, hd, zero_add]
  exact hs.account.trans (by rw [← htotal]; rfl)

/-! ## Sums that fit -/

/-- The sum fits its column, and so does what is added its variable. -/
def Fits (range : ℤ → Bool) (column d : Option ℤ) (x : ℤ) : Prop :=
  x = 0 ∨ ∃ v, column = some v ∧ d = some x ∧ range (v + x) = true

theorem fit_eq_some {range : ℤ → Bool} {y : ℤ} (h : fit range x = some y) : y = x := by
  rw [fit] at h
  split at h
  · exact (Option.some.inj h).symm
  · cases h

theorem map_neg_eq_some {d : Option ℤ} {y : ℤ} (h : ∀ z, d = some z → z = x)
    (hy : d.map (- ·) = some y) : y = -x := by
  obtain ⟨z, hz, rfl⟩ := Option.map_eq_some_iff.1 hy
  rw [h z hz]

/-- An update moves its column by the amount exactly when it fits. -/
theorem addTo_iff {range : ℤ → Bool} {column d : Option ℤ} {z : ℤ} (hd : ∀ y, d = some y → y = x) :
    (column.map (addTo range · d)).getD z = column.getD z + x ↔ Fits range column d x := by
  cases column with
  | none => simp [Fits]
  | some v =>
    simp only [Option.map_some, Option.getD_some, Fits, Option.some.injEq, exists_eq_left']
    cases d with
    | none => simp [addTo]
    | some y =>
      obtain rfl := hd y rfl
      cases hr : range (v + y) with
      | true => simp [addTo, fit, hr]
      | false => simp [addTo, fit, hr]

theorem consumeGold_eq_some {c : Consume} {y : ℤ} (h : c.consumeGold = some y) : y = c.price := by
  simp only [Consume.consumeGold, Option.bind_eq_bind, Option.bind_eq_some_iff] at h
  obtain ⟨gold, hgold, h⟩ := h
  obtain rfl := fit_eq_some hgold
  rw [Consume.price]
  by_cases horder : c.memberOrder = 0
  · rw [if_pos horder] at h ⊢
    exact (Option.some.inj h).symm
  · rw [if_neg horder] at h ⊢
    obtain ⟨total, htotal, h⟩ := Option.bind_eq_some_iff.1 h
    obtain rfl := fit_eq_some htotal
    exact (Option.some.inj h).symm

/-! ## Balances after a statement -/

theorem insertScore_balance (s : Shop) : s.insertScore.wallet.balance = s.wallet.balance := by
  rw [Shop.insertScore]
  split
  · rfl
  · rename_i hnone
    funext k
    cases k <;> simp [Wallet.balance, hnone]

theorem insertScore_calls (s : Shop) : s.insertScore.calls = s.calls := by
  rw [Shop.insertScore]
  split <;> rfl

theorem insertScore_completed (s : Shop) : s.insertScore.completed = s.completed := by
  rw [Shop.insertScore]
  split <;> rfl

/-- The columns of the row in `GameScoreInfo`. -/
def Wallet.scoreColumn (w : Wallet) : Option ℤ := w.gameScore.map (·.score)

def Wallet.insureColumn (w : Wallet) : Option ℤ := w.gameScore.map (·.insureScore)

theorem addScore_balance (s : Shop) (d : Option ℤ) :
    (s.addScore d).wallet.balance .score =
      (s.wallet.scoreColumn.map (addTo bigint · d)).getD s.wallet.defaultScore := by
  simp only [Shop.addScore, Wallet.balance, Wallet.scoreColumn, Option.map_map]
  rfl

theorem addInsure_balance (s : Shop) (d : Option ℤ) :
    (s.addInsure d).wallet.balance .insureScore =
      (s.wallet.insureColumn.map (addTo bigint · d)).getD 0 := by
  simp only [Shop.addInsure, Wallet.balance, Wallet.insureColumn, Option.map_map]
  rfl

theorem addScore_frame (s : Shop) (d : Option ℤ) (hk : k ≠ .score) :
    (s.addScore d).wallet.balance k = s.wallet.balance k := by
  cases k with
  | score => exact absurd rfl hk
  | insureScore =>
    simp only [Shop.addScore, Wallet.balance, Option.map_map]
    rfl
  | currency => rfl
  | userMedal => rfl

theorem addInsure_frame (s : Shop) (d : Option ℤ) (hk : k ≠ .insureScore) :
    (s.addInsure d).wallet.balance k = s.wallet.balance k := by
  cases k with
  | insureScore => exact absurd rfl hk
  | score =>
    simp only [Shop.addInsure, Wallet.balance, Option.map_map]
    rfl
  | currency => rfl
  | userMedal => rfl

theorem payCurrency_frame (s : Shop) (d : Option ℤ) (hk : k ≠ .currency) :
    (s.payCurrency d).wallet.balance k = s.wallet.balance k := by
  cases k with
  | currency => exact absurd rfl hk
  | _ => rfl

theorem writeMedal_frame (s : Shop) (x : ℤ) (hk : k ≠ .userMedal) :
    (s.writeMedal x).wallet.balance k = s.wallet.balance k := by
  cases k with
  | userMedal => exact absurd rfl hk
  | _ => rfl

/-- The medals end at what was read, less what is converted: that lowers
them by it exactly when they are still what was read. -/
theorem writeMedal_iff (s : Shop) (x : Exchange) :
    (s.writeMedal (x.userIngot - x.exchangeIngot)).wallet.balance .userMedal =
        s.wallet.balance .userMedal + -x.exchangeIngot ↔
      s.wallet.userMedal = some x.userIngot := by
  have hpos := x.positive
  cases hmedal : s.wallet.userMedal with
  | none =>
    simp only [Shop.writeMedal, Wallet.balance, hmedal, Option.map_none, Option.getD_none,
      reduceCtorEq, iff_false]
    omega
  | some v =>
    simp only [Shop.writeMedal, Wallet.balance, hmedal, Option.map_some, Option.getD_some,
      Option.some.injEq]
    omega

/-! ## The condition -/

/-- The balance still covers what is taken from it. -/
def Covers (w₀ : Wallet) (s : Shop) (k : Balance) (x : ℤ) : Prop :=
  0 ≤ w₀.balance k → 0 ≤ s.wallet.balance k + x

/-- What the next statement of a call needs: a payment that is not waiting
finds its sum to fit and the balance to cover it, and medals that are
written are those that were read. -/
def CallOk (w₀ : Wallet) (s : Shop) (id : ℕ) : ShopCall → Prop
  | .purchase m .payCurrency => Shop.waits s.currencyLock id = false →
      Fits decimal s.wallet.currency (m.consumeCurrency.map (- ·)) (-m.cost) ∧
        Covers w₀ s .currency (-m.cost)
  | .purchase m .presentScore => Shop.waits s.scoreLock id = false →
      Fits bigint s.wallet.scoreColumn m.totalPresentScore m.present
  | .exchange x .creditInsure => Shop.waits s.scoreLock id = false →
      Fits bigint s.wallet.insureColumn x.exchangeScore x.worth ∧
        Covers w₀ s .insureScore x.worth
  | .exchange x .writeMedal => s.wallet.userMedal = some x.userIngot
  | .consume c .payInsure => Shop.waits s.scoreLock id = false →
      Fits bigint s.wallet.insureColumn (c.consumeGold.map (- ·)) (-c.price) ∧
        Covers w₀ s .insureScore (-c.price)
  | _ => True

/-- The condition on a step. -/
def ShopOk (w₀ : Wallet) (s : Shop) : ShopEvent → Prop
  | .statement id => ∀ c, s.calls.lookup id = some c → CallOk w₀ s id c
  | _ => True

/-! ## Statements -/

theorem readCurrency_fair {p : PurchaseParam} (hc : s.calls.lookup id = some (.purchaseMember p))
    (hs : Fair w₀ s) : Fair w₀ (s.readCurrency id p).1 := by
  rw [Shop.readCurrency]
  split
  · exact fair_refuse hc hs rfl _
  · simp only
    split
    · exact fair_refuse hc hs rfl _
    · exact fair_goto hc hs rfl rfl rfl rfl

theorem purchaseStep_fair {m : Purchase} {stage : PurchaseStage}
    (hc : s.calls.lookup id = some (.purchase m stage)) (hs : Fair w₀ s) :
    Fair w₀ (s.purchaseStep id m stage).1 ↔ CallOk w₀ s id (.purchase m stage) := by
  cases stage with
  | readScore =>
    rw [Shop.purchaseStep]
    simp only [CallOk, iff_true]
    split <;> exact fair_goto hc hs rfl rfl rfl rfl
  | insertScore =>
    rw [Shop.purchaseStep]
    simp only [CallOk, iff_true]
    split
    · exact hs
    · exact fair_goto hc hs (congrArg (AList.insert id _) (insertScore_calls s))
        (insertScore_completed s) rfl (insertScore_balance s)
  | rereadScore =>
    rw [Shop.purchaseStep]
    simp only [CallOk, iff_true]
    split
    · exact hs
    · exact fair_goto hc hs rfl rfl rfl rfl
  | payCurrency =>
    rw [Shop.purchaseStep]
    by_cases hwait : Shop.waits s.currencyLock id = true
    · simp only [CallOk, hwait, reduceCtorEq, false_imp_iff, iff_true]
      exact hs
    · simp only [CallOk, Bool.eq_false_of_not_eq_true hwait, true_imp_iff]
      refine Iff.trans (fair_move_iff (k := .currency) (x := -m.cost) (.purchase m .presentScore)
        hc hs (zero_add _).symm fun j hj => payCurrency_frame s _ hj) ?_
      exact and_congr (addTo_iff fun y hy => map_neg_eq_some (fun z hz => fit_eq_some hz) hy)
        ⟨fun h => h nofun, fun h _ => h⟩
  | presentScore =>
    rw [Shop.purchaseStep]
    by_cases hwait : Shop.waits s.scoreLock id = true
    · simp only [CallOk, hwait, reduceCtorEq, false_imp_iff, iff_true]
      exact hs
    · simp only [CallOk, Bool.eq_false_of_not_eq_true hwait, true_imp_iff]
      refine Iff.trans (fair_move_iff (k := .score) (x := m.present) (.purchase m .commit) hc hs rfl
        fun j hj => addScore_frame s _ hj) ?_
      refine Iff.trans ⟨fun h => h.1, fun h => ⟨h, fun hk => absurd rfl hk⟩⟩ ?_
      show (s.addScore m.totalPresentScore).wallet.balance .score = _ ↔ _
      rw [addScore_balance]
      exact addTo_iff fun y hy => fit_eq_some hy
  | commit =>
    simp only [CallOk, iff_true]
    exact fair_goto hc hs rfl rfl rfl rfl
  | readCurrScore =>
    rw [Shop.purchaseStep]
    simp only [CallOk, iff_true]
    split
    · exact hs
    · exact fair_goto hc hs rfl rfl rfl rfl
  | readCurrBeans currScore =>
    rw [Shop.purchaseStep]
    simp only [CallOk, iff_true]
    split
    · exact hs
    · exact fair_complete hc hs rfl _

theorem readMedal_fair {p : ExchangeParam} (hc : s.calls.lookup id = some (.exchangeScore p))
    (hs : Fair w₀ s) : Fair w₀ (s.readMedal id p).1 := by
  rw [Shop.readMedal]
  split
  · exact fair_refuse hc hs rfl _
  · split
    · exact fair_refuse hc hs rfl _
    · split
      · exact fair_refuse hc hs rfl _
      · exact fair_goto hc hs rfl rfl rfl rfl

theorem readRate_fair {p : ExchangeParam} {userIngot : ℤ} {enough : p.exchangeIngot ≤ userIngot}
    (hc : s.calls.lookup id = some (.exchangeRate p userIngot enough)) (hs : Fair w₀ s) :
    Fair w₀ (s.readRate id p userIngot enough).1 := by
  rw [Shop.readRate]
  split
  · exact fair_refuse hc hs rfl _
  · exact fair_goto hc hs rfl rfl rfl rfl

theorem exchangeStep_fair {x : Exchange} {stage : ExchangeStage}
    (hc : s.calls.lookup id = some (.exchange x stage)) (hs : Fair w₀ s) :
    Fair w₀ (s.exchangeStep id x stage).1 ↔ CallOk w₀ s id (.exchange x stage) := by
  cases stage with
  | readInsure =>
    rw [Shop.exchangeStep]
    simp only [CallOk, iff_true]
    split
    · exact hs
    · split <;> exact fair_goto hc hs rfl rfl rfl rfl
  | insertScore =>
    rw [Shop.exchangeStep]
    simp only [CallOk, iff_true]
    split
    · exact hs
    · exact fair_goto hc hs (congrArg (AList.insert id _) (insertScore_calls s))
        (insertScore_completed s) rfl (insertScore_balance s)
  | creditInsure =>
    rw [Shop.exchangeStep]
    by_cases hwait : Shop.waits s.scoreLock id = true
    · simp only [CallOk, hwait, reduceCtorEq, false_imp_iff, iff_true]
      exact hs
    · simp only [CallOk, Bool.eq_false_of_not_eq_true hwait, true_imp_iff]
      refine Iff.trans (fair_move_iff (k := .insureScore) (x := x.worth) (.exchange x .writeMedal)
        hc hs (zero_add _).symm fun j hj => addInsure_frame s _ hj) ?_
      refine and_congr ?_ ⟨fun h => h nofun, fun h _ => h⟩
      rw [addInsure_balance]
      exact addTo_iff fun y hy => fit_eq_some hy
  | writeMedal =>
    simp only [CallOk]
    refine Iff.trans (fair_move_iff (k := .userMedal) (x := -x.exchangeIngot)
      (.exchange x .readCurrScore) hc hs rfl fun j hj => writeMedal_frame s _ hj) ?_
    have hiff := writeMedal_iff s x
    constructor
    · exact fun h => hiff.1 h.1
    · intro h
      refine ⟨hiff.2 h, fun _ _ => ?_⟩
      -- the medals that were read were enough
      have henough := x.enough
      simp only [Wallet.balance, h, Option.getD_some]
      omega
  | readCurrScore =>
    rw [Shop.exchangeStep]
    simp only [CallOk, iff_true]
    split
    · exact hs
    · exact fair_complete hc hs rfl _

theorem readInsure_fair {p : ConsumeParam} (hc : s.calls.lookup id = some (.consumeProperty p))
    (hs : Fair w₀ s) : Fair w₀ (s.readInsure id p).1 := by
  rw [Shop.readInsure]
  split
  · exact fair_refuse hc hs rfl _
  · split
    · split
      · exact fair_refuse hc hs rfl _
      · exact fair_goto hc hs rfl rfl rfl rfl
    · split
      · exact fair_refuse hc hs rfl _
      · exact fair_goto hc hs rfl rfl rfl rfl

theorem consumeStep_fair {c : Consume} {stage : ConsumeStage}
    (hc : s.calls.lookup id = some (.consume c stage)) (hs : Fair w₀ s) :
    Fair w₀ (s.consumeStep id c stage).1 ↔ CallOk w₀ s id (.consume c stage) := by
  cases stage with
  | payInsure =>
    rw [Shop.consumeStep]
    by_cases hwait : Shop.waits s.scoreLock id = true
    · simp only [CallOk, hwait, reduceCtorEq, false_imp_iff, iff_true]
      exact hs
    · simp only [CallOk, Bool.eq_false_of_not_eq_true hwait, true_imp_iff]
      refine Iff.trans (fair_move_iff (k := .insureScore) (x := -c.price) (.consume c .commit)
        hc hs (zero_add _).symm fun j hj => addInsure_frame s _ hj) ?_
      refine and_congr ?_ ⟨fun h => h nofun, fun h _ => h⟩
      show (s.addInsure (c.consumeGold.map (- ·))).wallet.balance .insureScore = _ ↔ _
      rw [addInsure_balance]
      exact addTo_iff fun y hy => map_neg_eq_some (fun z hz => consumeGold_eq_some hz) hy
  | commit =>
    simp only [CallOk, iff_true]
    exact fair_goto hc hs rfl rfl rfl rfl
  | record bank =>
    simp only [CallOk, iff_true]
    cases bank with
    | true => exact fair_complete hc hs rfl _
    | false => exact fair_complete hc hs rfl _

/-! ## Runs -/

/-- **One step keeps the shop fair exactly when it meets the condition.** -/
theorem fair_step_iff (w₀ : Wallet) (s : Shop) (e : ShopEvent) (hs : Fair w₀ s) :
    Fair w₀ (shopStep s e).1 ↔ ShopOk w₀ s e := by
  cases e with
  | purchaseMember id p => exact iff_of_true (fair_call hs rfl) trivial
  | exchangeScore id p => exact iff_of_true (fair_call hs rfl) trivial
  | consumeProperty id p => exact iff_of_true (fair_call hs rfl) trivial
  | statement id =>
    simp only [shopStep, ShopOk]
    cases hc : s.calls.lookup id with
    | none => exact iff_of_true hs fun _ h => absurd h (Option.some_ne_none _).symm
    | some c =>
      simp only [Option.some.injEq, forall_eq', Shop.statement]
      cases c with
      | purchaseMember p => exact iff_of_true (readCurrency_fair hc hs) trivial
      | purchase m stage => exact purchaseStep_fair hc hs
      | exchangeScore p => exact iff_of_true (readMedal_fair hc hs) trivial
      | exchangeRate p userIngot enough => exact iff_of_true (readRate_fair hc hs) trivial
      | exchange x stage => exact exchangeStep_fair hc hs
      | consumeProperty p => exact iff_of_true (readInsure_fair hc hs) trivial
      | consume c stage => exact consumeStep_fair hc hs

theorem fair_start (w : Wallet) : Fair w { wallet := w } where
  nonneg _ _ h := h
  account := by
    show w.balance = w.balance + 0 + 0
    rw [add_zero, add_zero]

/-- **What the shop takes and gives.** Whatever calls of the three
procedures are under way and however their statements interleave, the shop
is fair in every state of the run exactly when every step meets the
condition. -/
theorem shop_fair_iff (w : Wallet) (es : List ShopEvent) :
    (∀ n, Fair w (shopStep.run { wallet := w } (es.take n)).1) ↔
      shopStep.Along (ShopOk w) { wallet := w } es :=
  TotalMachine.inv_prefixes_iff (fair_step_iff w) es { wallet := w } (fair_start w)

/-! ## Two calls at once -/

/-- Ten medals, one bean, and the rows the calls write. -/
def smallWallet : Wallet := ⟨some 100, some 10, some ⟨0, 0, 0⟩, 0⟩

/-- All ten medals, five coins each. -/
def allMedals : ExchangeParam := ⟨some 0, some 5, 10, by decide⟩

def oneMonth : PurchaseParam := ⟨some ⟨some 0, some 0⟩, some ⟨some "m", 100, 1000⟩, 1⟩

/-- Two exchanges read the medals, and then each goes on to its end. -/
def twoExchanges : List ShopEvent :=
  [.exchangeScore 1 allMedals, .exchangeScore 2 allMedals, .statement 1, .statement 2] ++
    List.replicate 5 (.statement 1) ++ List.replicate 5 (.statement 2)

/-- Two purchases read the currency, and then each pays. -/
def twoPurchases : List ShopEvent :=
  [.purchaseMember 1 oneMonth, .purchaseMember 2 oneMonth, .statement 1, .statement 2] ++
    List.replicate 6 (.statement 1) ++ List.replicate 2 (.statement 2)

/-- Ten medals are converted twice, and one bean is spent twice. -/
theorem shop_spends_twice :
    let exchanged := (shopStep.run { wallet := smallWallet } twoExchanges).1
    let purchased := (shopStep.run { wallet := smallWallet } twoPurchases).1
    exchanged.wallet.userMedal = some 0 ∧ exchanged.wallet.balance .insureScore = 100 ∧
      exchanged.completed.length = 2 ∧ purchased.wallet.currency = some (-100) ∧
      ¬∀ n, Fair smallWallet (shopStep.run { wallet := smallWallet } (twoPurchases.take n)).1 := by
  have hcurrency : (shopStep.run { wallet := smallWallet } twoPurchases).1.wallet.currency =
      some (-100) := by decide +kernel
  refine ⟨by decide +kernel, by decide +kernel, by decide +kernel, hcurrency, fun h => ?_⟩
  have hnonneg := (h 12).nonneg .currency nofun (by decide)
  exact absurd hnonneg (by decide)

end GameServer.TreasureDB
