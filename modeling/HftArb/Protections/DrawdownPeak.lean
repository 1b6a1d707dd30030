import HftArb.Protections.RiskManager
import HftArb.Foundations.Runs

/-!
# The peak behind the drawdown

The drawdown layer of the gate compares the current equity with the highest one.  Two entry points
feed it: `update_equity`, and `set_initial_equity`, which is said to change nothing any more after
an update has raised the peak.  `EquityRecord` is what the two are to keep: the peak, the last
value of an update, and the initial equity.

Both call the same update of the tracker, so that a late `set_initial_equity` overwrites the current
equity and may raise the peak.  The tracker agrees with the record exactly as long as every such
call repeats the last value of an update (`drawdown_tracks_record_iff`).  The basis points are exact
and at most 10000 in every state of the tracker (`drawdownBps_toNat`).
-/

namespace HftArb

open Saturating Runs

/-! ## The tracker -/

namespace DrawdownTracker

/-- The basis points are the part of the peak that is lost, rounded down.  They are at most 10000,
and their product fits the 128 bits it is computed in. -/
lemma drawdownBps_toNat (t : DrawdownTracker) :
    t.drawdownBps.toNat =
        (t.peakEquity.toNat - t.currentEquity.toNat) * 10000 / t.peakEquity.toNat ∧
      (t.peakEquity.toNat - t.currentEquity.toNat) * 10000 < 2 ^ 128 ∧
      t.drawdownBps.toNat ≤ 10000 := by
  have hlt := t.peakEquity.toNat_lt
  have hle : (t.peakEquity.toNat - t.currentEquity.toNat) * 10000 / t.peakEquity.toNat ≤ 10000 := by
    apply Nat.div_le_of_le_mul
    exact Nat.mul_le_mul_right _ (Nat.sub_le _ _)
  have heq : t.drawdownBps.toNat =
      (t.peakEquity.toNat - t.currentEquity.toNat) * 10000 / t.peakEquity.toNat := by
    unfold drawdownBps
    split
    · next hzero =>
      rw [hzero]
      simp
    · rw [satSub_toNat, bpsScale, UInt64.toNat_ofNat']
      exact Nat.mod_eq_of_lt (by omega)
  exact ⟨heq, by omega, heq ▸ hle⟩

/-- Raising the peak is taking a maximum. -/
lemma update_peakEquity (t : DrawdownTracker) (equityFp : UInt64) :
    (t.update equityFp).peakEquity = max t.peakEquity equityFp := by
  have hmax : max t.peakEquity equityFp =
      if t.peakEquity ≤ equityFp then equityFp else t.peakEquity := rfl
  unfold update
  dsimp only
  rw [hmax]
  by_cases hle : equityFp ≤ t.peakEquity
  · rw [if_pos hle]
    split
    · next hge => exact UInt64.le_antisymm hge hle
    · rfl
  · rw [if_neg hle, if_pos (UInt64.le_of_lt (UInt64.not_le.mp hle))]

/-- The loop that raises the peak, with the outcomes of its weak compare-and-swaps, which may fail
without a reason; it has not returned when the outcomes are used up. -/
def raisePeak (peak equityFp : UInt64) : List Bool → Option UInt64
  | [] => if equityFp ≤ peak then some peak else none
  | success :: rest =>
    if equityFp ≤ peak then some peak
    else if success then some equityFp
    else raisePeak peak equityFp rest

/-- The loop returns the peak of the update, as soon as a compare-and-swap succeeds. -/
lemma raisePeak_spec (t : DrawdownTracker) (equityFp : UInt64) (outcomes : List Bool) :
    (∀ peak, raisePeak t.peakEquity equityFp outcomes = some peak →
      peak = (t.update equityFp).peakEquity) ∧
    (true ∈ outcomes → raisePeak t.peakEquity equityFp outcomes ≠ none) := by
  unfold update
  dsimp only
  induction outcomes with
  | nil =>
    unfold raisePeak
    split <;> simp
  | cons success rest ih =>
    unfold raisePeak
    by_cases hle : equityFp ≤ t.peakEquity
    · simp [hle]
    · cases success
      · simpa [hle] using ih
      · simp [hle]

end DrawdownTracker

namespace RiskManager

/-- `set_initial_equity`. -/
def setInitialEquity (rm : RiskManager) (equityFp : UInt64) : RiskManager :=
  { rm with drawdown := rm.drawdown.update equityFp }

end RiskManager

/-- A report of an equity value, with the reading of the clock. -/
inductive EquityCall
  | updateEquity (now : ℤ) (equityFp : UInt64)
  | setInitialEquity (equityFp : UInt64)

namespace EquityCall

/-- The gatekeeper after a report. -/
def apply (rm : RiskManager) : EquityCall → RiskManager
  | .updateEquity now equityFp => rm.updateEquity now equityFp
  | .setInitialEquity equityFp => rm.setInitialEquity equityFp

end EquityCall

/-- What the reports are to leave behind. -/
structure EquityRecord where
  /-- The highest value that counts. -/
  peak : UInt64
  /-- The last value of an update. -/
  lastUpdate : Option UInt64
  /-- The last initial equity that counts. -/
  initial : UInt64
  /-- An update has raised the peak. -/
  raised : Bool

namespace EquityRecord

/-- Nothing has been reported. -/
def empty : EquityRecord := ⟨0, none, 0, false⟩

/-- The last value of an update, or the initial equity if there is none. -/
def current (r : EquityRecord) : UInt64 := r.lastUpdate.getD r.initial

/-- A report: an initial equity does not count any more once an update has raised the peak. -/
def observe (r : EquityRecord) : EquityCall → EquityRecord
  | .updateEquity _ equityFp =>
    { r with
      peak := max r.peak equityFp
      lastUpdate := some equityFp
      raised := r.raised || decide (r.peak < equityFp) }
  | .setInitialEquity equityFp =>
    if r.raised then r else { r with peak := max r.peak equityFp, initial := equityFp }

/-- The record of some reports. -/
def ofCalls (calls : List EquityCall) : EquityRecord := calls.foldl observe empty

end EquityRecord

/-- The tracker has the peak and the current equity of the record, and its basis points are the
part of the peak that is lost. -/
structure TracksRecord (rm : RiskManager) (r : EquityRecord) : Prop where
  peak : rm.drawdown.peakEquity = r.peak
  current : rm.drawdown.currentEquity = r.current
  drawdown : rm.drawdown.drawdownBps.toNat =
    (r.peak.toNat - r.current.toNat) * 10000 / r.peak.toNat
  fits : (r.peak.toNat - r.current.toNat) * 10000 < 2 ^ 128
  bounded : rm.drawdown.drawdownBps.toNat ≤ 10000

/-- A report that does not overwrite the current equity: an initial equity after an update repeats
its value. -/
def EquityRecord.Repeats (r : EquityRecord) (call : EquityCall) : Prop :=
  ∀ equityFp, call = .setInitialEquity equityFp → ∀ last, r.lastUpdate = some last →
    equityFp = last

/-! ## Every sequence of reports -/

lemma toNat_max (a b : UInt64) : (max a b).toNat = max a.toNat b.toNat := by
  have hmax : max a b = if a ≤ b then b else a := rfl
  rw [hmax]
  split
  · next hle => rw [max_eq_right (UInt64.le_iff_toNat_le.mp hle)]
  · next hlt => rw [max_eq_left (UInt64.lt_iff_toNat_lt.mp (UInt64.not_le.mp hlt)).le]

/-- The rest follows from the peak and the current equity. -/
lemma tracksRecord_iff {rm : RiskManager} {r : EquityRecord} : TracksRecord rm r ↔
    rm.drawdown.peakEquity = r.peak ∧ rm.drawdown.currentEquity = r.current := by
  constructor
  · intro h
    exact ⟨h.peak, h.current⟩
  · rintro ⟨hpeak, hcurrent⟩
    obtain ⟨hbps, hfits, hbounded⟩ := rm.drawdown.drawdownBps_toNat
    rw [hpeak, hcurrent] at hbps hfits
    exact ⟨hpeak, hcurrent, hbps, hfits, hbounded⟩

namespace EquityRecord

/-- The current equity of a record is at most its peak, and it is an update that has raised it. -/
structure WellFormed (r : EquityRecord) : Prop where
  current_le : r.current.toNat ≤ r.peak.toNat
  updated : r.raised = true → r.lastUpdate ≠ none

lemma observe_of_raised {r : EquityRecord} {equityFp : UInt64} (h : r.raised = true) :
    r.observe (.setInitialEquity equityFp) = r :=
  if_pos h

lemma observe_of_not_raised {r : EquityRecord} {equityFp : UInt64} (h : ¬ r.raised = true) :
    r.observe (.setInitialEquity equityFp) =
      { r with peak := max r.peak equityFp, initial := equityFp } :=
  if_neg h

lemma WellFormed.observe {r : EquityRecord} (h : r.WellFormed) (call : EquityCall) :
    (r.observe call).WellFormed := by
  cases call with
  | updateEquity now equityFp =>
    refine ⟨?_, fun _ => Option.some_ne_none equityFp⟩
    simp only [EquityRecord.observe, current, Option.getD_some, toNat_max]
    exact le_max_right _ _
  | setInitialEquity equityFp =>
    by_cases hraised : r.raised = true
    · rw [observe_of_raised hraised]
      exact h
    · rw [observe_of_not_raised hraised]
      refine ⟨?_, h.updated⟩
      have hle := h.current_le
      unfold current at hle ⊢
      simp only [toNat_max]
      cases hlast : r.lastUpdate with
      | none => exact le_max_right _ _
      | some last =>
        rw [hlast, Option.getD_some] at hle
        exact hle.trans (le_max_left _ _)

lemma wellFormed_ofCalls (calls : List EquityCall) : (ofCalls calls).WellFormed := by
  refine List.foldlRecOn (motive := WellFormed) calls EquityRecord.observe ?_ ?_
  · exact ⟨le_rfl, fun h => nomatch h⟩
  · intro r h call _
    exact h.observe call

end EquityRecord

/-- A report keeps the tracker in agreement with the record exactly when it does not overwrite the
current equity. -/
lemma tracksRecord_apply_iff {rm : RiskManager} {r : EquityRecord} (h : TracksRecord rm r)
    (hwf : r.WellFormed) (call : EquityCall) :
    TracksRecord (call.apply rm) (r.observe call) ↔ r.Repeats call := by
  rw [tracksRecord_iff]
  cases call with
  | updateEquity now equityFp =>
    refine iff_of_true ⟨?_, rfl⟩ fun _ hcall => nomatch hcall
    change (rm.drawdown.update equityFp).peakEquity = max r.peak equityFp
    rw [DrawdownTracker.update_peakEquity, h.peak]
  | setInitialEquity equityFp =>
    change (rm.drawdown.update equityFp).peakEquity = _ ∧ equityFp = _ ↔ _
    rw [DrawdownTracker.update_peakEquity, h.peak]
    have hrepeats : r.Repeats (.setInitialEquity equityFp) ↔
        ∀ last, r.lastUpdate = some last → equityFp = last :=
      ⟨fun hall => hall equityFp rfl, fun hall x hx => by cases hx; exact hall⟩
    rw [hrepeats]
    by_cases hraised : r.raised = true
    · rw [EquityRecord.observe_of_raised hraised]
      obtain ⟨last, hlast⟩ := Option.ne_none_iff_exists'.mp (hwf.updated hraised)
      have hcurrent : r.current = last := by rw [EquityRecord.current, hlast, Option.getD_some]
      rw [hcurrent, hlast]
      constructor
      · rintro ⟨-, rfl⟩ _ hsome
        exact Option.some.inj hsome
      · intro hall
        obtain rfl := hall last rfl
        have hle := hwf.current_le
        rw [hcurrent] at hle
        refine ⟨UInt64.toNat_inj.mp ?_, rfl⟩
        rw [toNat_max, max_eq_left hle]
    · rw [EquityRecord.observe_of_not_raised hraised]
      refine (and_iff_right rfl).trans ?_
      unfold EquityRecord.current
      cases r.lastUpdate with
      | none => simp
      | some last => simp

/-- The tracker agrees with the record after every part of a sequence of reports exactly when every
initial equity reported after an update repeats its value. -/
theorem drawdown_tracks_record_iff (config : ValidatedRiskConfig) (now : ℤ)
    (calls : List EquityCall) :
    (∀ before after, calls = before ++ after →
      TracksRecord (before.foldl EquityCall.apply (RiskManager.new config now))
        (EquityRecord.ofCalls before)) ↔
    ∀ before call after, calls = before ++ call :: after →
      (EquityRecord.ofCalls before).Repeats call := by
  have hnil : TracksRecord (RiskManager.new config now) EquityRecord.empty :=
    tracksRecord_iff.mpr ⟨rfl, rfl⟩
  have hstep : ∀ (before : List EquityCall) (call : EquityCall),
      TracksRecord (before.foldl EquityCall.apply (RiskManager.new config now))
        (EquityRecord.ofCalls before) →
      (TracksRecord ((before ++ [call]).foldl EquityCall.apply (RiskManager.new config now))
        (EquityRecord.ofCalls (before ++ [call])) ↔
        (EquityRecord.ofCalls before).Repeats call) := by
    intro before call h
    have hrecord : EquityRecord.ofCalls (before ++ [call]) =
        (EquityRecord.ofCalls before).observe call := by
      simp [EquityRecord.ofCalls]
    rw [List.foldl_append, hrecord]
    exact tracksRecord_apply_iff h (EquityRecord.wellFormed_ofCalls before) call
  refine (forall_prefix_iff (P := fun before =>
    TracksRecord (before.foldl EquityCall.apply (RiskManager.new config now))
      (EquityRecord.ofCalls before))).trans ?_
  refine (and_iff_right hnil).trans ?_
  exact forall_split_congr (I := fun before =>
    TracksRecord (before.foldl EquityCall.apply (RiskManager.new config now))
      (EquityRecord.ofCalls before)) hnil hstep (fun before call h hok =>
    (hstep before call h).mpr hok) calls

/-- An initial equity of 50 dollars after an update of 100. -/
def lateInitialEquity : List EquityCall :=
  [.updateEquity 0 100000000, .setInitialEquity 50000000]

/-- The late initial equity overwrites the current one, which shows a drawdown of one half. -/
theorem lateInitialEquity_overwrites :
    (EquityRecord.ofCalls (lateInitialEquity.take 1)).raised = true ∧
    (EquityRecord.ofCalls lateInitialEquity).current = 100000000 ∧
    (lateInitialEquity.foldl EquityCall.apply
      (RiskManager.new testRiskConfig 0)).drawdown.currentEquity = 50000000 ∧
    (lateInitialEquity.foldl EquityCall.apply
      (RiskManager.new testRiskConfig 0)).drawdown.drawdownBps = 5000 := by
  exact ⟨by decide, by decide, by decide, by decide +kernel⟩

end HftArb
