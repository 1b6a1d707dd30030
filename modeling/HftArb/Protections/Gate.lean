import HftArb.Protections.RiskManager

/-!
# What the gate does to the exposure counter

The gate writes one field, the exposure counter, and writes it once: in layer 7.  A leg *reserves*
when it gets past the layers 0 to 7 (`RiskManager.Reserves`) and is *accepted* when the layers 8 to
14 let it through as well (`RiskManager.Accepts`).  `preTradeCheck_cases` lists the three things a
run of the gate can do, and every other fact is derived from it.

A blast runs the gate once per leg, with one size for all of them: `gateLegs` is that loop with its
early exit.  `gateLegs_of_acceptsAll` says what a completed loop has reserved, and
`gateLegs_error_exposure_iff` when an interrupted one has left the counter alone.
-/

namespace HftArb

open Saturating

namespace RiskManager

variable (rm : RiskManager) (clk : GateClock) (p s c : UInt64) (e : UInt16)

/-- The leg gets past layer 7, so that the gate reserves its size. -/
def Reserves : Prop :=
  rm.layersBeforeReserve clk p c = none ∧ satAdd rm.totalExposure s ≤ rm.maxExposureFp c

/-- The leg gets past every layer. -/
def Accepts : Prop :=
  rm.Reserves clk p s c ∧ rm.layersAfterReserve clk s c e = none

instance : Decidable (rm.Reserves clk p s c) :=
  inferInstanceAs (Decidable (_ ∧ _))

instance : Decidable (rm.Accepts clk p s c e) :=
  inferInstanceAs (Decidable (_ ∧ _))

/-- The manager after the reservation of layer 7. -/
def reserved : RiskManager := { rm with totalExposure := satAdd rm.totalExposure s }

@[simp] lemma reserved_totalExposure :
    (rm.reserved s).totalExposure = satAdd rm.totalExposure s := rfl

/-- No layer before the reservation reads the exposure counter. -/
@[simp] lemma layersBeforeReserve_reserved :
    (rm.reserved s).layersBeforeReserve clk p c = rm.layersBeforeReserve clk p c := rfl

/-- No layer after the reservation reads the exposure counter. -/
@[simp] lemma layersAfterReserve_reserved (s' : UInt64) :
    (rm.reserved s').layersAfterReserve clk s c e = rm.layersAfterReserve clk s c e := rfl

/-- What a run of the gate can do: turn the leg away before reserving, turn it away after
reserving, or accept it. -/
lemma preTradeCheck_cases :
    (¬ rm.Reserves clk p s c ∧ ∃ r, rm.preTradeCheck clk p s c e = (.error r, rm)) ∨
    (rm.Reserves clk p s c ∧ ¬ rm.Accepts clk p s c e ∧
      ∃ r, rm.preTradeCheck clk p s c e = (.error r, rm.reserved s)) ∨
    (rm.Accepts clk p s c e ∧ rm.preTradeCheck clk p s c e = (.ok (), rm.reserved s)) := by
  unfold preTradeCheck Accepts Reserves tryReserveExposure
  cases hb : rm.layersBeforeReserve clk p c with
  | some r => exact Or.inl ⟨by simp, r, rfl⟩
  | none =>
    by_cases hx : rm.maxExposureFp c < satAdd rm.totalExposure s
    · have hle : ¬ satAdd rm.totalExposure s ≤ rm.maxExposureFp c := UInt64.not_le.mpr hx
      exact Or.inl ⟨by simp [hle], .exposureLimitBreached, by simp [hx]⟩
    · have hle : satAdd rm.totalExposure s ≤ rm.maxExposureFp c := UInt64.not_lt.mp hx
      have hra : ({ rm with totalExposure := satAdd rm.totalExposure s } :
          RiskManager).layersAfterReserve clk s c e = rm.layersAfterReserve clk s c e := rfl
      cases ha : rm.layersAfterReserve clk s c e with
      | some r =>
        exact Or.inr (Or.inl ⟨⟨rfl, hle⟩, by simp, r, by simp [hx, hra, ha, reserved]⟩)
      | none => exact Or.inr (Or.inr ⟨⟨⟨rfl, hle⟩, rfl⟩, by simp [hx, hra, ha, reserved]⟩)

/-- A leg is accepted exactly when the gate answers so. -/
lemma preTradeCheck_ok_iff :
    (rm.preTradeCheck clk p s c e).1 = .ok () ↔ rm.Accepts clk p s c e := by
  rcases rm.preTradeCheck_cases clk p s c e with ⟨hn, r, h⟩ | ⟨-, hn, r, h⟩ | ⟨ha, h⟩
  · rw [h]
    exact iff_of_false (by simp) fun ha => hn ha.1
  · rw [h]
    exact iff_of_false (by simp) hn
  · rw [h]
    exact iff_of_true rfl ha

/-- A manager that is frozen or whose kill switch is on accepts nothing. -/
lemma not_frozen_of_accepts (h : rm.Accepts clk p s c e) :
    rm.frozen = false ∧ rm.killSwitch = false := by
  have hb := h.1.1
  unfold layersBeforeReserve at hb
  cases hk : rm.killSwitch with
  | true => simp [hk] at hb
  | false =>
    cases hf : rm.frozen with
    | true => simp [hk, hf] at hb
    | false => exact ⟨rfl, rfl⟩

/-! ## The gate on every leg of a blast -/

/-- Run the gate on the legs in turn, stopping at the first rejection. -/
def gateLegs (rm : RiskManager) (p s c : UInt64) : List (GateClock × UInt16) →
    Except (UInt16 × TradeRejection) Unit × RiskManager
  | [] => (.ok (), rm)
  | (clk, e) :: rest =>
    match rm.preTradeCheck clk p s c e with
    | (.error r, rm') => (.error (e, r), rm')
    | (.ok (), rm') => gateLegs rm' p s c rest

/-- Every leg is accepted, each with the exposure the legs before it have reserved. -/
def AcceptsAll (rm : RiskManager) (p s c : UInt64) : List (GateClock × UInt16) → Prop
  | [] => True
  | (clk, e) :: rest => rm.Accepts clk p s c e ∧ AcceptsAll (rm.reserved s) p s c rest

instance AcceptsAll.decidable (p s c : UInt64) : ∀ (legs : List (GateClock × UInt16))
    (rm : RiskManager), Decidable (rm.AcceptsAll p s c legs)
  | [], _ => .isTrue trivial
  | (clk, e) :: rest, rm =>
    have := AcceptsAll.decidable p s c rest (rm.reserved s)
    inferInstanceAs (Decidable (rm.Accepts clk p s c e ∧ _))

/-- The manager after `k` reservations of the size `s`. -/
def reservedTimes (k : ℕ) : RiskManager :=
  { rm with totalExposure := reserve s k rm.totalExposure }

@[simp] lemma reservedTimes_totalExposure (k : ℕ) :
    (rm.reservedTimes s k).totalExposure = reserve s k rm.totalExposure := rfl

/-- One reservation and then `k` more are `k + 1` reservations. -/
lemma reserved_reservedTimes (k : ℕ) :
    (rm.reserved s).reservedTimes s k = rm.reservedTimes s (k + 1) := rfl

/-- When every leg is accepted the loop completes, with one reservation per leg. -/
lemma gateLegs_of_acceptsAll {legs : List (GateClock × UInt16)} (h : rm.AcceptsAll p s c legs) :
    rm.gateLegs p s c legs = (.ok (), rm.reservedTimes s legs.length) := by
  induction legs generalizing rm with
  | nil => rfl
  | cons leg rest ih =>
    obtain ⟨clk, e⟩ := leg
    obtain ⟨ha, hrest⟩ := h
    rcases rm.preTradeCheck_cases clk p s c e with ⟨hn, -⟩ | ⟨-, hn, -⟩ | ⟨-, heq⟩
    · exact absurd ha.1 hn
    · exact absurd ha hn
    · simp only [gateLegs, heq, List.length_cons]
      exact ih (rm.reserved s) hrest

/-- When some leg is rejected the loop stops there, having reserved once for every leg it let
through and once more when the rejected leg had got past layer 7. -/
lemma gateLegs_of_not_acceptsAll {legs : List (GateClock × UInt16)}
    (h : ¬ rm.AcceptsAll p s c legs) :
    ∃ err k, rm.gateLegs p s c legs = (.error err, rm.reservedTimes s k) := by
  induction legs generalizing rm with
  | nil => exact absurd trivial h
  | cons leg rest ih =>
    obtain ⟨clk, e⟩ := leg
    rcases rm.preTradeCheck_cases clk p s c e with ⟨-, r, heq⟩ | ⟨-, -, r, heq⟩ | ⟨ha, heq⟩
    · exact ⟨(e, r), 0, by simp only [gateLegs, heq]; rfl⟩
    · exact ⟨(e, r), 1, by simp only [gateLegs, heq]; rfl⟩
    · obtain ⟨err, k, hk⟩ := ih (rm.reserved s) fun hrest => h ⟨ha, hrest⟩
      exact ⟨err, k + 1, by simp only [gateLegs, heq, hk, reserved_reservedTimes]⟩

/-- A rejected loop whose first leg did not even reserve has done nothing. -/
lemma gateLegs_of_not_reserves (rest : List (GateClock × UInt16))
    (h : ¬ rm.Reserves clk p s c) :
    ∃ err, rm.gateLegs p s c ((clk, e) :: rest) = (.error err, rm) := by
  rcases rm.preTradeCheck_cases clk p s c e with ⟨-, r, heq⟩ | ⟨hn, -⟩ | ⟨ha, -⟩
  · exact ⟨(e, r), by simp only [gateLegs, heq]⟩
  · exact absurd hn h
  · exact absurd ha.1 h

/-- A rejected loop whose first leg reserved has reserved at least once. -/
lemma gateLegs_of_reserves_of_not_acceptsAll {rest : List (GateClock × UInt16)}
    (h : rm.Reserves clk p s c) (hn : ¬ rm.AcceptsAll p s c ((clk, e) :: rest)) :
    ∃ err k, rm.gateLegs p s c ((clk, e) :: rest) = (.error err, rm.reservedTimes s (k + 1)) := by
  rcases rm.preTradeCheck_cases clk p s c e with ⟨hnr, -⟩ | ⟨-, -, r, heq⟩ | ⟨ha, heq⟩
  · exact absurd h hnr
  · exact ⟨(e, r), 0, by simp only [gateLegs, heq]; rfl⟩
  · obtain ⟨err, k, hk⟩ :=
      (rm.reserved s).gateLegs_of_not_acceptsAll p s c fun hrest => hn ⟨ha, hrest⟩
    exact ⟨err, k, by simp only [gateLegs, heq, hk, reserved_reservedTimes]⟩

/-- A rejected loop has left the exposure counter where it was exactly when the first leg did not
reserve, the size is zero, or the counter was full. -/
lemma gateLegs_error_exposure_iff {rest : List (GateClock × UInt16)}
    (hn : ¬ rm.AcceptsAll p s c ((clk, e) :: rest)) :
    (rm.gateLegs p s c ((clk, e) :: rest)).2.totalExposure = rm.totalExposure ↔
      ¬ rm.Reserves clk p s c ∨ s = 0 ∨ rm.totalExposure = maxWord := by
  by_cases hr : rm.Reserves clk p s c
  · obtain ⟨err, k, heq⟩ := rm.gateLegs_of_reserves_of_not_acceptsAll clk p s c e hr hn
    rw [heq, reservedTimes_totalExposure, reserve_eq_self_iff]
    exact ⟨Or.inr, fun h => h.resolve_left (not_not_intro hr)⟩
  · obtain ⟨err, heq⟩ := rm.gateLegs_of_not_reserves clk p s c e rest hr
    rw [heq]
    exact ⟨fun _ => Or.inl hr, fun _ => rfl⟩

/-! ## Releasing -/

/-- Release the size `s` as often as the guard of a blast does. -/
def releaseTimes (rm : RiskManager) (s : UInt64) : ℕ → RiskManager
  | 0 => rm
  | k + 1 => releaseTimes (rm.releaseExposure s) s k

/-- The counter after releasing. -/
lemma releaseTimes_totalExposure (k : ℕ) :
    (rm.releaseTimes s k).totalExposure = release s k rm.totalExposure := by
  induction k generalizing rm with
  | zero => rfl
  | succ k ih => exact ih (rm.releaseExposure s)

/-! ## What trading can change -/

/-- Two managers that differ at most in the exposure and the exchange health. -/
def SameLimits (rm rm' : RiskManager) : Prop :=
  ∃ exposure health, rm' = { rm with totalExposure := exposure, exchangeHealth := health }

variable {rm} in
lemma SameLimits.trans {rm' rm'' : RiskManager} (h : rm.SameLimits rm')
    (h' : rm'.SameLimits rm'') : rm.SameLimits rm'' := by
  obtain ⟨exposure, health, rfl⟩ := h
  obtain ⟨exposure', health', rfl⟩ := h'
  exact ⟨exposure', health', rfl⟩

lemma SameLimits.refl : rm.SameLimits rm := ⟨rm.totalExposure, rm.exchangeHealth, rfl⟩

lemma reservedTimes_sameLimits (k : ℕ) : rm.SameLimits (rm.reservedTimes s k) :=
  ⟨_, rm.exchangeHealth, rfl⟩

/-- The gate of a blast only reserves. -/
lemma gateLegs_sameLimits (legs : List (GateClock × UInt16)) :
    rm.SameLimits (rm.gateLegs p s c legs).2 := by
  by_cases h : rm.AcceptsAll p s c legs
  · rw [rm.gateLegs_of_acceptsAll p s c h]
    exact rm.reservedTimes_sameLimits s _
  · obtain ⟨err, k, heq⟩ := rm.gateLegs_of_not_acceptsAll p s c h
    rw [heq]
    exact rm.reservedTimes_sameLimits s k

/-- Releasing only changes the exposure counter. -/
lemma releaseTimes_sameLimits (k : ℕ) : rm.SameLimits (rm.releaseTimes s k) := by
  induction k generalizing rm with
  | zero => exact SameLimits.refl rm
  | succ k ih =>
    have hone : rm.SameLimits (rm.releaseExposure s) := ⟨_, rm.exchangeHealth, rfl⟩
    exact hone.trans (ih (rm.releaseExposure s))

end RiskManager

end HftArb
