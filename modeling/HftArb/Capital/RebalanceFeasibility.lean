import HftArb.Capital.RebalanceMatrix

/-!
# What a computed rebalance does to the drift

`auditBalanceDrift` compares the shares of the two exchanges with the threshold of the engine, and
keeps its answer under the hash of the balances.  The hash of a fresh engine is zero, so that an
inventory whose hash is zero gets the answer of a fresh engine, which is that nothing drifts.

An action passes a tolerance of 0.05 around one half.  With a threshold of at least 0.55 no audit
asks for another transfer after it (`doCompute_feasible`).
-/

namespace HftArb

/-- The states of the system. -/
inductive SystemState
  | balanced
  | imbalanced
  | rebalancing
  | error
  deriving DecidableEq

/-- The part of the engine that audits: its threshold and the last audit. -/
structure DriftAudit where
  currentSystemState : SystemState
  maxAllowedImbalanceRatio : Decimal
  lastAuditHash : UInt64
  lastAuditResult : Bool

namespace DriftAudit

/-- The audit of a new engine. -/
def new (imbalanceThreshold : Decimal) : DriftAudit := ⟨.balanced, imbalanceThreshold, 0, false⟩

section Audit

-- A representation of balances: the number that is stored and its bytes.  In the program these are
-- stored decimals; over exact rationals every balance is its own number.
variable {α : Type} (value : α → Decimal) (serialize : α → List UInt8)

/-- The share of the first of two balances. -/
def ratioX (balX balY : α) : Decimal :=
  if 0 < value balX + value balY then value balX / (value balX + value balY) else 0

/-- The share of the second of two balances. -/
def ratioY (balX balY : α) : Decimal :=
  if 0 < value balX + value balY then 1 - value balX / (value balX + value balY) else 0

/-- Whether the balances have drifted apart; an unchanged hash gets the last answer. -/
def auditBalanceDrift (audit : DriftAudit) (balX balY : α) : Bool × DriftAudit :=
  let h := fnv1a (serialize balY) (fnv1a (serialize balX) 0xcbf29ce484222325)
  if h = audit.lastAuditHash then (audit.lastAuditResult, audit)
  else
    let needsRebalance := audit.maxAllowedImbalanceRatio < ratioX value balX balY ∨
      audit.maxAllowedImbalanceRatio < ratioY value balX balY
    (needsRebalance,
      { audit with
        currentSystemState := if needsRebalance then .imbalanced else .balanced
        lastAuditHash := h
        lastAuditResult := needsRebalance })

variable {value serialize} {balX balY : α} {threshold : Decimal}

/-- A fresh engine finds no drift where both shares are within the threshold. -/
lemma new_auditBalanceDrift (hx : ratioX value balX balY ≤ threshold)
    (hy : ratioY value balX balY ≤ threshold) :
    ((new threshold).auditBalanceDrift value serialize balX balY).1 = false := by
  unfold auditBalanceDrift
  dsimp only
  split
  · rfl
  · exact decide_eq_false (not_or.mpr ⟨not_lt.mpr hx, not_lt.mpr hy⟩)

/-- Shares within the tolerance around one half are within the threshold. -/
lemma new_auditBalanceDrift_of_near (hthreshold : 55 / 100 ≤ threshold)
    (hnear : |value balX / (value balX + value balY) - 5 / 10| ≤ 5 / 100) :
    ((new threshold).auditBalanceDrift value serialize balX balY).1 = false := by
  obtain ⟨hlower, hupper⟩ := abs_le.mp hnear
  apply new_auditBalanceDrift
  · unfold ratioX
    split <;> linarith
  · unfold ratioY
    split <;> linarith

end Audit

end DriftAudit

namespace AccountInventory

/-- The balances after an action: the amount leaves the larger balance, and what the fee leaves of
it arrives at the other one. -/
def afterAction (inventory : AccountInventory) (action : RebalanceAction) : Decimal × Decimal :=
  let balX := inventory.stableBalanceX.value
  let balY := inventory.stableBalanceY.value
  if balY < balX then
    (balX - action.transferAmount, balY + action.transferAmount - action.estimatedFee)
  else (balX + action.transferAmount - action.estimatedFee, balY - action.transferAmount)

/-- The first exchange is over-weighted when it holds more. -/
lemma ratioY_lt_ratioX_iff {inventory : AccountInventory} (htotal : 0 < inventory.totalStable) :
    inventory.ratioY < inventory.ratioX ↔
      inventory.stableBalanceY.value < inventory.stableBalanceX.value := by
  unfold ratioX ratioY
  rw [if_pos htotal, if_pos htotal, sub_lt_iff_lt_add, ← add_div, one_lt_div htotal]
  unfold totalStable
  constructor <;> intro h <;> linarith

end AccountInventory

namespace RebalanceMatrixEngine

/-- What the guards of an action say: the amount is positive, worth the transfer and less than the
source holds, and the share of the source after it is near one half. -/
lemma actionFor_guards {engine : RebalanceMatrixEngine} (hfee : engine.executionFee < 1)
    {sourceBalance destBalance transferAmount currentImbalance : Decimal} {fromId toId : UInt16}
    {action : RebalanceAction}
    (h : engine.actionFor sourceBalance destBalance transferAmount currentImbalance fromId toId =
      .ok (some action)) :
    action.transferAmount = transferAmount ∧ 0 < transferAmount ∧
      engine.minTransferAmount ≤ transferAmount ∧
      action.estimatedFee = transferAmount * engine.executionFee ∧
      |(sourceBalance - transferAmount) / (sourceBalance - transferAmount +
        (destBalance + transferAmount - action.estimatedFee)) - 5 / 10| ≤ 5 / 100 := by
  have hless := (actionFor_spec h).1
  unfold actionFor at h
  simp only at h
  by_cases hpos : transferAmount ≤ 0
  · rw [if_pos hpos] at h
    cases h
  rw [not_le] at hpos
  have hmin : min (transferAmount * engine.executionFee) transferAmount =
      transferAmount * engine.executionFee := by
    apply min_eq_left
    nlinarith
  rw [hmin] at h
  split_ifs at h with _ hworth hall
  any_goals cases h
  · exact absurd hall (not_le.mpr hless)
  · next hnear =>
    refine ⟨rfl, hpos, not_lt.mp hworth, rfl, ?_⟩
    rw [add_sub_assoc]
    exact not_lt.mp hnear

/-- A positive transfer comes from a balance beyond half of the total. -/
lemma excess_pos {excess oneMinusFee : Decimal} (hfee : 0 < oneMinusFee)
    (hpos : (0 : Decimal) < (⌊excess / oneMinusFee⌋ : ℤ)) : 0 < excess := by
  by_contra hexcess
  have hquot : excess / oneMinusFee ≤ 0 :=
    div_nonpos_of_nonpos_of_nonneg (not_lt.mp hexcess) hfee.le
  have hfloor : ⌊excess / oneMinusFee⌋ ≤ 0 := Int.floor_nonpos hquot
  exact absurd hpos (not_lt.mpr (by exact_mod_cast hfloor))

/-- Of two shares one is near one half when the other is. -/
lemma near_half_comm {a b : Decimal} (htotal : 0 < b + a) :
    |a / (a + b) - 5 / 10| ≤ 5 / 100 ↔ |b / (b + a) - 5 / 10| ≤ 5 / 100 := by
  have hshares : a / (a + b) - 5 / 10 = -(b / (b + a) - 5 / 10) := by
    rw [add_comm a b]
    field_simp
    ring
  rw [hshares, abs_neg]

/-- A computed rebalance is feasible and settles the drift.  It leaves the exchange with the larger
balance, which it does not empty, and an audit of a fresh engine finds no drift in the balances
after it, however they are stored. -/
theorem doCompute_feasible {engine : RebalanceMatrixEngine} (hfee₀ : 0 ≤ engine.executionFee)
    (hfee₁ : engine.executionFee < 1) {threshold : Decimal} (hthreshold : 55 / 100 ≤ threshold)
    {inventory : AccountInventory} (hx : 0 ≤ inventory.stableBalanceX.value)
    {fromExchangeId toExchangeId : UInt16} {action : RebalanceAction}
    (h : engine.doCompute inventory fromExchangeId toExchangeId = .ok (some action)) :
    (inventory.stableBalanceY.value < inventory.stableBalanceX.value ∧
        action.fromExchange = fromExchangeId ∧ action.toExchange = toExchangeId ∨
      inventory.stableBalanceX.value < inventory.stableBalanceY.value ∧
        action.fromExchange = toExchangeId ∧ action.toExchange = fromExchangeId) ∧
    0 < action.transferAmount ∧
    action.transferAmount < max inventory.stableBalanceX.value inventory.stableBalanceY.value ∧
    engine.minTransferAmount ≤ action.transferAmount ∧
    action.estimatedFee = action.transferAmount * engine.executionFee ∧
    ∀ {α : Type} (value : α → Decimal) (serialize : α → List UInt8) (balX balY : α),
      value balX = (inventory.afterAction action).1 →
      value balY = (inventory.afterAction action).2 →
      ((DriftAudit.new threshold).auditBalanceDrift value serialize balX balY).1 = false := by
  unfold doCompute at h
  simp only at h
  by_cases htotal : inventory.totalStable ≤ 0
  · rw [if_pos htotal] at h
    cases h
  rw [if_neg htotal, if_neg (by linarith)] at h
  rw [not_le] at htotal
  have hsum : inventory.totalStable =
    inventory.stableBalanceX.value + inventory.stableBalanceY.value := rfl
  by_cases hlarger : inventory.stableBalanceY.value < inventory.stableBalanceX.value
  · simp only [if_pos ((AccountInventory.ratioY_lt_ratioX_iff htotal).mpr hlarger)] at h
    obtain ⟨hless, hfrom, hto⟩ := actionFor_spec h
    obtain ⟨hamount, hpos, hworth, hestimated, hnear⟩ := actionFor_guards hfee₁ h
    rw [← hamount] at hpos hworth hestimated hnear
    refine ⟨Or.inl ⟨hlarger, hfrom, hto⟩, hpos, lt_max_of_lt_left hless, hworth, hestimated, ?_⟩
    intro α value serialize balX balY hbalX hbalY
    apply DriftAudit.new_auditBalanceDrift_of_near hthreshold
    rw [hbalX, hbalY]
    unfold AccountInventory.afterAction
    simp only [if_pos hlarger]
    exact hnear
  · have hover : ¬ inventory.ratioY < inventory.ratioX :=
      mt (AccountInventory.ratioY_lt_ratioX_iff htotal).mp hlarger
    simp only [if_neg hover] at h
    obtain ⟨hless, hfrom, hto⟩ := actionFor_spec h
    obtain ⟨hamount, hpos, hworth, hestimated, hnear⟩ := actionFor_guards hfee₁ h
    have hstrict : inventory.stableBalanceX.value < inventory.stableBalanceY.value := by
      have hexcess := excess_pos (by linarith) hpos
      linarith
    rw [← hamount] at hpos hworth hestimated hnear
    refine ⟨Or.inr ⟨hstrict, hfrom, hto⟩, hpos, lt_max_of_lt_right hless, hworth, hestimated, ?_⟩
    intro α value serialize balX balY hbalX hbalY
    apply DriftAudit.new_auditBalanceDrift_of_near hthreshold
    rw [hbalX, hbalY]
    unfold AccountInventory.afterAction
    simp only [if_neg hlarger]
    refine (near_half_comm ?_).mpr hnear
    nlinarith

/-- Of 9000 and 1000 dollars 4008 are moved, which leaves 4992 and 4999.984. -/
theorem doCompute_feasible_dollars :
    (dollars 9000).value = 9000 ∧
    ((dollars 1000).value < (dollars 9000).value ∧ firstAction.fromExchange = 1 ∧
        firstAction.toExchange = 2 ∨
      (dollars 9000).value < (dollars 1000).value ∧ firstAction.fromExchange = 2 ∧
        firstAction.toExchange = 1) ∧
    0 < firstAction.transferAmount ∧
    firstAction.transferAmount < max (dollars 9000).value (dollars 1000).value ∧
    testRebalanceEngine.minTransferAmount ≤ firstAction.transferAmount ∧
    firstAction.estimatedFee = firstAction.transferAmount * testRebalanceEngine.executionFee ∧
    ∀ {α : Type} (value : α → Decimal) (serialize : α → List UInt8) (balX balY : α),
      value balX = (firstQuestion.inventory.afterAction firstAction).1 →
      value balY = (firstQuestion.inventory.afterAction firstAction).2 →
      ((DriftAudit.new (7 / 10)).auditBalanceDrift value serialize balX balY).1 = false := by
  have hcompute : testRebalanceEngine.doCompute firstQuestion.inventory 1 2 =
      .ok (some firstAction) := by decide +kernel
  have hfee₀ : 0 ≤ testRebalanceEngine.executionFee := by decide +kernel
  have hfee₁ : testRebalanceEngine.executionFee < 1 := by decide +kernel
  have hthreshold : (55 / 100 : Decimal) ≤ 7 / 10 := by decide +kernel
  have hx : 0 ≤ firstQuestion.inventory.stableBalanceX.value := by decide +kernel
  refine ⟨by decide +kernel, ?_⟩
  exact doCompute_feasible hfee₀ hfee₁ hthreshold hx hcompute

end RebalanceMatrixEngine

end HftArb
