import HftArb.Foundations.Latch
import HftArb.Strategies.MarketArena

/-!
# The flash-crash monitor

Every five seconds the monitor reads a bitcoin price and compares it with the reading before.  A
move of five percent between neighbouring readings sets the volatility circuit at once.  The largest
such move is kept, and at the end of a window of sixty ticks a move of one and a half percent sets
the circuit and spawns a timer that clears it after sixty seconds, whatever has happened meanwhile.

An instant of the model is one tick, five seconds after the last.  A timer that is due may run
before or after the pass of the monitor at the same instant, or be late by any time; an `Instant`
says which timers run when.

The circuit should be set for sixty seconds from every trigger, and `flash_protection_iff` lists
what stands in the way: windows whose move is spread over several readings or whose last tick has no
reading, jumps that overflow, and timers of an earlier window.
-/

namespace HftArb

/-! ## The monitor -/

/-- The variables of the monitor, with the volatility circuit and the spawned recovery timers. -/
structure FlashMonitor where
  lastBtcPrice : Decimal
  maxDeviationBps : UInt64
  tickCount : ℕ
  volatilityCircuit : Bool
  /-- The instants at which the recovery timers are due. -/
  timers : List ℕ

/-- The number of ticks of a window, `window_ticks`. -/
def windowTicks : ℕ := 60

/-- The move within a window that is a flash crash, `threshold_bps`. -/
def windowThresholdBps : UInt64 := 150

/-- The move between two readings that trips the circuit at once. -/
def singleTickBps : UInt64 := 500

/-- Sixty seconds in ticks. -/
def recoveryTicks : ℕ := 12

/-- The relative move between two prices in basis points, zero when it does not fit a word. -/
def deviationBps (last price : Decimal) : UInt64 :=
  let deviation := if last < price then (price - last) / last else (last - price) / last
  (Decimal.toU64 (deviation * 10000)).getD 0

namespace FlashMonitor

/-- The monitor when it is spawned. -/
def start : FlashMonitor := ⟨0, 0, 0, false, []⟩

/-- Compare a price with the one before and keep it. -/
def observe (m : FlashMonitor) (price : Decimal) : FlashMonitor :=
  if 0 < m.lastBtcPrice then
    let devBps := deviationBps m.lastBtcPrice price
    { m with
      lastBtcPrice := price
      volatilityCircuit := m.volatilityCircuit || decide (singleTickBps ≤ devBps)
      maxDeviationBps := if m.maxDeviationBps < devBps then devBps else m.maxDeviationBps }
  else { m with lastBtcPrice := price }

/-- Look back on a window at its end and start the next one. -/
def closeWindow (m : FlashMonitor) (now : ℕ) : FlashMonitor :=
  if m.tickCount % windowTicks = 0 then
    if windowThresholdBps ≤ m.maxDeviationBps then
      { m with
        volatilityCircuit := true
        timers := m.timers ++ [now + recoveryTicks]
        maxDeviationBps := 0
        tickCount := 0 }
    else { m with maxDeviationBps := 0, tickCount := 0 }
  else m

/-- One pass of the monitor; a reading of zero is a missing one. -/
def pass (m : FlashMonitor) (now : ℕ) (btcFp : UInt64) : FlashMonitor :=
  let m := { m with tickCount := m.tickCount + 1 }
  if btcFp = 0 then m else (m.observe (arenaPrice btcFp)).closeWindow now

/-- Run the timers that are due and get to run. -/
def recover (m : FlashMonitor) (now : ℕ) (runs : ℕ → Bool) : FlashMonitor :=
  { m with
    volatilityCircuit := m.volatilityCircuit && !m.timers.any fun t => decide (t ≤ now) && runs t
    timers := m.timers.filter fun t => !(decide (t ≤ now) && runs t) }

end FlashMonitor

/-- What happens at one tick.  A timer is named by the instant at which it is due. -/
structure Instant where
  /-- The timers that run before the pass of the monitor, once they are due. -/
  recoverBefore : ℕ → Bool
  /-- The reading, zero when there is none. -/
  btcFp : UInt64
  /-- The timers that run after the pass of the monitor, once they are due. -/
  recoverAfter : ℕ → Bool

namespace FlashMonitor

variable (sched : ℕ → Instant)

/-- The monitor before the instant `n`. -/
def stateAt : ℕ → FlashMonitor
  | 0 => start
  | n + 1 =>
    (((stateAt n).recover n (sched n).recoverBefore).pass n (sched n).btcFp).recover n
      (sched n).recoverAfter

/-- The monitor at the instant `n`, right before its pass. -/
def beforePass (n : ℕ) : FlashMonitor := (stateAt sched n).recover n (sched n).recoverBefore

/-- The monitor at the instant `n`, right after its pass. -/
def afterPass (n : ℕ) : FlashMonitor := (beforePass sched n).pass n (sched n).btcFp

lemma stateAt_succ (n : ℕ) :
    stateAt sched (n + 1) = (afterPass sched n).recover n (sched n).recoverAfter := rfl

/-! ## Triggers and protection -/

/-- The last reading before the instant `n`, zero when there is none. -/
def previousReading : ℕ → UInt64
  | 0 => 0
  | n + 1 => if (sched n).btcFp = 0 then previousReading n else (sched n).btcFp

/-- Two readings differ by at least a share of the earlier one. -/
def Differ (share : Decimal) (earlier later : UInt64) : Prop :=
  earlier ≠ 0 ∧ later ≠ 0 ∧ share * arenaPrice earlier ≤ |arenaPrice later - arenaPrice earlier|

/-- The reading of the instant differs by five percent from the one before. -/
def Jump (n : ℕ) : Prop := Differ (5 / 100) (previousReading sched n) (sched n).btcFp

/-- The instant is the last of a window of sixty ticks, and two readings of the window differ by one
and a half percent.  Which instants end a window is left open: every sixtieth tick does in the count
of the monitor (`countedEnd`). -/
def WindowMove (ends : ℕ → Prop) (n : ℕ) : Prop :=
  ends n ∧ ∃ i j, n < i + windowTicks ∧ i < j ∧ j ≤ n ∧
    Differ (15 / 1000) (sched i).btcFp (sched j).btcFp

/-- The ends of the windows the monitor counts. -/
def countedEnd (n : ℕ) : Prop := (n + 1) % windowTicks = 0

/-- The circuit is set from the pass of the instant `n` until sixty seconds after it. -/
def Protected (n : ℕ) : Prop :=
  (afterPass sched n).volatilityCircuit = true ∧
    (stateAt sched (n + 1)).volatilityCircuit = true ∧
    ∀ k, n < k → k < n + recoveryTicks →
      (beforePass sched k).volatilityCircuit = true ∧
        (afterPass sched k).volatilityCircuit = true ∧
        (stateAt sched (k + 1)).volatilityCircuit = true

/-! ## What the monitor sees -/

/-- The move from one price to another fits a word, in basis points. -/
def Fits (earlier later : UInt64) : Prop :=
  |arenaPrice later - arenaPrice earlier| * 10000 < 2 ^ 64 * arenaPrice earlier

/-- The readings up to the instant show the monitor a move of the given share: the reading of the
instant differs so much from the one before, and the move fits a word. -/
def Seen (share : Decimal) (n : ℕ) : Prop :=
  Differ share (previousReading sched n) (sched n).btcFp ∧
    Fits (previousReading sched n) (sched n).btcFp

/-- The monitor looks back on a window at the instant. -/
def Checks (n : ℕ) : Prop := countedEnd n ∧ (sched n).btcFp ≠ 0

/-- The monitor looks back on a window at the instant, and some neighbouring readings since it last
did have shown it a move of one and a half percent. -/
def SeenInWindow (n : ℕ) : Prop :=
  Checks sched n ∧ ∃ k ≤ n, Seen sched (15 / 1000) k ∧ ∀ j, k ≤ j → j < n → ¬ Checks sched j

/-- The monitor sets the circuit at the instant. -/
def SeesCrash (n : ℕ) : Prop := Seen sched (5 / 100) n ∨ SeenInWindow sched n

/-- The timer due at `t` has not run before the instant `n`. -/
def Waiting (t n : ℕ) : Prop :=
  ∀ j, t ≤ j → j < n → (sched j).recoverBefore t = false ∧ (sched j).recoverAfter t = false

/-- A timer runs before the pass of the instant: it was spawned for a window sixty seconds ago or
earlier, and it has not run yet. -/
def ClearsBefore (n : ℕ) : Prop :=
  ∃ w, SeenInWindow sched w ∧ w + recoveryTicks ≤ n ∧ Waiting sched (w + recoveryTicks) n ∧
    (sched n).recoverBefore (w + recoveryTicks) = true

/-- A timer runs after the pass of the instant. -/
def ClearsAfter (n : ℕ) : Prop :=
  ∃ w, SeenInWindow sched w ∧ w + recoveryTicks ≤ n ∧ Waiting sched (w + recoveryTicks) n ∧
    (sched n).recoverBefore (w + recoveryTicks) = false ∧
    (sched n).recoverAfter (w + recoveryTicks) = true

/-- The circuit as a latch: the crashes the monitor sees set it, the timers clear it. -/
def circuit : Latch := ⟨SeesCrash sched, ClearsBefore sched, ClearsAfter sched⟩

variable {sched}

/-- A present reading has a positive price. -/
lemma arenaPrice_pos {price : UInt64} (h : price ≠ 0) : 0 < arenaPrice price := by
  have hnat : 0 < price.toNat := by
    rw [Nat.pos_iff_ne_zero]
    intro hzero
    exact h (UInt64.toNat_inj.mp hzero)
  unfold arenaPrice arenaFpScale Decimal.ofU64
  positivity

/-- The computed move reaches a positive number of basis points exactly when the move does and fits
a word. -/
lemma le_deviationBps_iff {last price : Decimal} (hlast : 0 < last) {bps : UInt64}
    (hbps : 0 < bps) :
    bps ≤ deviationBps last price ↔
      Decimal.ofU64 bps / 10000 * last ≤ |price - last| ∧
        |price - last| * 10000 < 2 ^ 64 * last := by
  have hdev : (if last < price then (price - last) / last else (last - price) / last) =
      |price - last| / last := by
    split
    · next h => rw [abs_of_pos (sub_pos.mpr h)]
    · next h => rw [abs_of_nonpos (sub_nonpos.mpr (not_lt.mp h)), neg_sub]
  unfold deviationBps
  dsimp only
  rw [hdev]
  have hmove : 0 ≤ |price - last| / last * 10000 := by positivity
  have hreach : Decimal.ofU64 bps / 10000 * last ≤ |price - last| ↔
      Decimal.ofU64 bps ≤ |price - last| / last * 10000 := by
    rw [div_mul_eq_mul_div, div_le_iff₀ (by norm_num : (0 : ℚ) < 10000), div_mul_eq_mul_div,
      le_div_iff₀ hlast]
  have hfits : |price - last| * 10000 < 2 ^ 64 * last ↔
      |price - last| / last * 10000 < 2 ^ 64 := by
    rw [div_mul_eq_mul_div, div_lt_iff₀ hlast]
  rw [hreach, hfits]
  exact Decimal.le_toU64_iff hmove hbps

/-- A move the monitor computes is one it has seen. -/
lemma le_deviationBps_iff_seen {share : Decimal} {bps : UInt64} (hbps : 0 < bps)
    (hshare : Decimal.ofU64 bps / 10000 = share) {n : ℕ} (hfp : (sched n).btcFp ≠ 0) :
    (0 < arenaPrice (previousReading sched n) ∧
        bps ≤ deviationBps (arenaPrice (previousReading sched n)) (arenaPrice (sched n).btcFp)) ↔
      Seen sched share n := by
  unfold Seen Differ Fits
  by_cases hprev : previousReading sched n = 0
  · have hzero : ¬ 0 < arenaPrice (previousReading sched n) := by
      rw [hprev]
      decide +kernel
    exact iff_of_false (fun h => hzero h.1) fun h => h.1.1 hprev
  · have hpos : 0 < arenaPrice (previousReading sched n) := arenaPrice_pos hprev
    rw [le_deviationBps_iff hpos hbps, hshare]
    constructor
    · rintro ⟨-, hdiffer, hfits⟩
      exact ⟨⟨hprev, hfp, hdiffer⟩, hfits⟩
    · rintro ⟨⟨-, -, hdiffer⟩, hfits⟩
      exact ⟨hpos, hdiffer, hfits⟩

/-- A move is seen at an instant with a reading. -/
lemma Seen.btcFp_ne_zero {share : Decimal} {n : ℕ} (h : Seen sched share n) :
    (sched n).btcFp ≠ 0 :=
  h.1.2.1

/-! ## The variables of the monitor along a run -/

@[simp] lemma observe_tickCount (m : FlashMonitor) (price : Decimal) :
    (m.observe price).tickCount = m.tickCount := by
  unfold observe
  split <;> rfl

@[simp] lemma observe_timers (m : FlashMonitor) (price : Decimal) :
    (m.observe price).timers = m.timers := by
  unfold observe
  split <;> rfl

@[simp] lemma observe_lastBtcPrice (m : FlashMonitor) (price : Decimal) :
    (m.observe price).lastBtcPrice = price := by
  unfold observe
  split <;> rfl

/-- A comparison sets the circuit at a move of five percent. -/
lemma observe_volatilityCircuit (m : FlashMonitor) (price : Decimal) :
    (m.observe price).volatilityCircuit = true ↔ m.volatilityCircuit = true ∨
      0 < m.lastBtcPrice ∧ singleTickBps ≤ deviationBps m.lastBtcPrice price := by
  unfold observe
  by_cases hlast : 0 < m.lastBtcPrice
  · simp [hlast]
  · simp [hlast]

/-- A comparison keeps the largest move. -/
lemma le_observe_maxDeviationBps (m : FlashMonitor) (price : Decimal) (bps : UInt64) :
    bps ≤ (m.observe price).maxDeviationBps ↔ bps ≤ m.maxDeviationBps ∨
      0 < m.lastBtcPrice ∧ bps ≤ deviationBps m.lastBtcPrice price := by
  unfold observe
  by_cases hlast : 0 < m.lastBtcPrice
  · simp only [hlast, if_true, true_and]
    by_cases hlt : m.maxDeviationBps < deviationBps m.lastBtcPrice price
    · rw [if_pos hlt]
      simp only [UInt64.le_iff_toNat_le, UInt64.lt_iff_toNat_lt] at hlt ⊢
      omega
    · rw [if_neg hlt]
      simp only [UInt64.le_iff_toNat_le, UInt64.lt_iff_toNat_lt] at hlt ⊢
      omega
  · simp [hlast]

@[simp] lemma closeWindow_lastBtcPrice (m : FlashMonitor) (now : ℕ) :
    (m.closeWindow now).lastBtcPrice = m.lastBtcPrice := by
  unfold closeWindow
  split
  · split <;> rfl
  · rfl

/-- The tick count goes back to zero at a full window only. -/
lemma closeWindow_tickCount (m : FlashMonitor) (now : ℕ) :
    (m.closeWindow now).tickCount % windowTicks = m.tickCount % windowTicks := by
  unfold closeWindow
  split
  · next h =>
    rw [h]
    split <;> rfl
  · rfl

/-- The end of a window forgets the largest move. -/
lemma closeWindow_maxDeviationBps (m : FlashMonitor) (now : ℕ) :
    (m.closeWindow now).maxDeviationBps =
      if m.tickCount % windowTicks = 0 then 0 else m.maxDeviationBps := by
  unfold closeWindow
  split
  · split <;> rfl
  · rfl

/-- The end of a window sets the circuit at a move of one and a half percent. -/
lemma closeWindow_volatilityCircuit (m : FlashMonitor) (now : ℕ) :
    (m.closeWindow now).volatilityCircuit = true ↔ m.volatilityCircuit = true ∨
      m.tickCount % windowTicks = 0 ∧ windowThresholdBps ≤ m.maxDeviationBps := by
  unfold closeWindow
  by_cases hend : m.tickCount % windowTicks = 0
  · by_cases hmove : windowThresholdBps ≤ m.maxDeviationBps
    · simp [hend, hmove]
    · simp [hend, hmove]
  · simp [hend]

/-- The end of a window spawns a timer with every move of one and a half percent. -/
lemma mem_closeWindow_timers (m : FlashMonitor) (now t : ℕ) :
    t ∈ (m.closeWindow now).timers ↔ t ∈ m.timers ∨
      (m.tickCount % windowTicks = 0 ∧ windowThresholdBps ≤ m.maxDeviationBps) ∧
        t = now + recoveryTicks := by
  unfold closeWindow
  by_cases hend : m.tickCount % windowTicks = 0
  · by_cases hmove : windowThresholdBps ≤ m.maxDeviationBps
    · simp [hend, hmove]
    · simp [hend, hmove]
  · simp [hend]

/-- A timer that runs is gone. -/
lemma mem_recover_timers (m : FlashMonitor) (now t : ℕ) (runs : ℕ → Bool) :
    t ∈ (m.recover now runs).timers ↔ t ∈ m.timers ∧ (t ≤ now → runs t = false) := by
  have hkeep : (!(decide (t ≤ now) && runs t)) = true ↔ (t ≤ now → runs t = false) := by
    by_cases h : t ≤ now
    · simp [h]
    · simp [h]
  rw [recover, List.mem_filter, hkeep]

/-- A timer that runs clears the circuit. -/
lemma recover_volatilityCircuit (m : FlashMonitor) (now : ℕ) (runs : ℕ → Bool) :
    (m.recover now runs).volatilityCircuit = true ↔ m.volatilityCircuit = true ∧
      ¬ ∃ t ∈ m.timers, t ≤ now ∧ runs t = true := by
  simp [recover]

/-- The monitor compares with the last reading. -/
lemma lastBtcPrice_stateAt (n : ℕ) :
    (stateAt sched n).lastBtcPrice = arenaPrice (previousReading sched n) := by
  induction n with
  | zero => exact (by decide +kernel : (0 : Decimal) = arenaPrice 0)
  | succ n ih =>
    change (afterPass sched n).lastBtcPrice = _
    unfold afterPass pass previousReading
    by_cases hfp : (sched n).btcFp = 0
    · simp only [hfp, if_true]
      exact ih
    · simp [hfp]

/-- The tick count of the monitor tells the place in the window. -/
lemma tickCount_stateAt (n : ℕ) :
    (stateAt sched n).tickCount % windowTicks = n % windowTicks := by
  induction n with
  | zero => rfl
  | succ n ih =>
    change (afterPass sched n).tickCount % windowTicks = _
    have hcount : ((beforePass sched n).tickCount + 1) % windowTicks = (n + 1) % windowTicks :=
      Nat.ModEq.add_right 1 ih
    unfold afterPass pass
    by_cases hfp : (sched n).btcFp = 0
    · simp only [hfp, if_true]
      exact hcount
    · simp only [hfp, if_false]
      rw [closeWindow_tickCount, observe_tickCount]
      exact hcount

/-- The pass of an instant with a reading, before it looks back on the window. -/
def observed (sched : ℕ → Instant) (n : ℕ) : FlashMonitor :=
  observe { beforePass sched n with tickCount := (beforePass sched n).tickCount + 1 }
    (arenaPrice (sched n).btcFp)

lemma afterPass_of_reading {n : ℕ} (hfp : (sched n).btcFp ≠ 0) :
    afterPass sched n = (observed sched n).closeWindow n := by
  unfold afterPass pass
  simp only [hfp, if_false]
  rfl

lemma afterPass_of_missing {n : ℕ} (hfp : (sched n).btcFp = 0) :
    afterPass sched n =
      { beforePass sched n with tickCount := (beforePass sched n).tickCount + 1 } := by
  unfold afterPass pass
  simp only [hfp, if_true]

/-- The monitor looks back on the windows that end at an instant with a reading. -/
lemma observed_tickCount_iff {n : ℕ} (hfp : (sched n).btcFp ≠ 0) :
    (observed sched n).tickCount % windowTicks = 0 ↔ Checks sched n := by
  have hcount : (observed sched n).tickCount % windowTicks = (n + 1) % windowTicks := by
    unfold observed
    rw [observe_tickCount]
    exact Nat.ModEq.add_right 1 (tickCount_stateAt n)
  rw [hcount]
  exact (and_iff_left hfp).symm

/-- The largest move of the window reaches one and a half percent when the monitor has seen such a
move since it last looked back. -/
lemma le_observed_maxDeviationBps {n : ℕ} (hfp : (sched n).btcFp ≠ 0)
    (hbefore : windowThresholdBps ≤ (stateAt sched n).maxDeviationBps ↔
      ∃ k < n, Seen sched (15 / 1000) k ∧ ∀ j, k ≤ j → j < n → ¬ Checks sched j) :
    windowThresholdBps ≤ (observed sched n).maxDeviationBps ↔
      ∃ k ≤ n, Seen sched (15 / 1000) k ∧ ∀ j, k ≤ j → j < n → ¬ Checks sched j := by
  have hshare : Decimal.ofU64 windowThresholdBps / 10000 = (15 / 1000 : ℚ) := by
    decide +kernel
  have hnow := le_deviationBps_iff_seen (by decide) hshare hfp
  rw [← lastBtcPrice_stateAt] at hnow
  unfold observed
  rw [le_observe_maxDeviationBps]
  change windowThresholdBps ≤ (stateAt sched n).maxDeviationBps ∨
    0 < (stateAt sched n).lastBtcPrice ∧ windowThresholdBps ≤ deviationBps
      (stateAt sched n).lastBtcPrice (arenaPrice (sched n).btcFp) ↔ _
  rw [hbefore, hnow]
  constructor
  · rintro (⟨k, hk, hseen⟩ | hseen)
    · exact ⟨k, hk.le, hseen⟩
    · exact ⟨n, le_rfl, hseen, fun j hle hlt => absurd hlt (not_lt.mpr hle)⟩
  · rintro ⟨k, hk, hseen, hchecks⟩
    rcases hk.lt_or_eq with hlt | rfl
    · exact Or.inl ⟨k, hlt, hseen, hchecks⟩
    · exact Or.inr hseen

/-- The largest move of the window so far. -/
lemma le_maxDeviationBps_stateAt (n : ℕ) :
    windowThresholdBps ≤ (stateAt sched n).maxDeviationBps ↔
      ∃ k < n, Seen sched (15 / 1000) k ∧ ∀ j, k ≤ j → j < n → ¬ Checks sched j := by
  have hstart : ¬ windowThresholdBps ≤ 0 := by decide
  induction n with
  | zero => exact iff_of_false hstart fun ⟨k, hk, _⟩ => absurd hk (Nat.not_lt_zero k)
  | succ n ih =>
    change windowThresholdBps ≤ (afterPass sched n).maxDeviationBps ↔ _
    by_cases hfp : (sched n).btcFp = 0
    · rw [afterPass_of_missing hfp]
      refine ih.trans ⟨?_, ?_⟩
      · rintro ⟨k, hk, hseen, hchecks⟩
        refine ⟨k, Nat.lt_succ_of_lt hk, hseen, fun j hle hlt => ?_⟩
        rcases Nat.lt_succ_iff_lt_or_eq.mp hlt with hj | rfl
        · exact hchecks j hle hj
        · exact fun h => h.2 hfp
      · rintro ⟨k, hk, hseen, hchecks⟩
        rcases Nat.lt_succ_iff_lt_or_eq.mp hk with hlt | rfl
        · exact ⟨k, hlt, hseen, fun j hle hj => hchecks j hle (Nat.lt_succ_of_lt hj)⟩
        · exact absurd hfp hseen.btcFp_ne_zero
    · rw [afterPass_of_reading hfp, closeWindow_maxDeviationBps]
      by_cases hend : Checks sched n
      · rw [if_pos ((observed_tickCount_iff hfp).mpr hend)]
        exact iff_of_false hstart fun ⟨k, hk, _, hchecks⟩ =>
          hchecks n (Nat.le_of_lt_succ hk) (Nat.lt_succ_self n) hend
      · rw [if_neg fun h => hend ((observed_tickCount_iff hfp).mp h),
          le_observed_maxDeviationBps hfp ih]
        constructor
        · rintro ⟨k, hk, hseen, hchecks⟩
          refine ⟨k, Nat.lt_succ_of_le hk, hseen, fun j hle hlt => ?_⟩
          rcases Nat.lt_succ_iff_lt_or_eq.mp hlt with hj | rfl
          · exact hchecks j hle hj
          · exact hend
        · rintro ⟨k, hk, hseen, hchecks⟩
          exact ⟨k, Nat.le_of_lt_succ hk, hseen,
            fun j hle hj => hchecks j hle (Nat.lt_succ_of_lt hj)⟩

/-- The end of a window finds a move of one and a half percent in the windows of `SeenInWindow`. -/
lemma observed_window_iff {n : ℕ} (hfp : (sched n).btcFp ≠ 0) :
    ((observed sched n).tickCount % windowTicks = 0 ∧
        windowThresholdBps ≤ (observed sched n).maxDeviationBps) ↔ SeenInWindow sched n := by
  rw [observed_tickCount_iff hfp, le_observed_maxDeviationBps hfp (le_maxDeviationBps_stateAt n)]
  rfl

/-! ## The circuit and the timers along a run -/

/-- The pass of the monitor sets the circuit when it sees a crash. -/
lemma afterPass_volatilityCircuit (n : ℕ) :
    (afterPass sched n).volatilityCircuit = true ↔
      (beforePass sched n).volatilityCircuit = true ∨ SeesCrash sched n := by
  unfold SeesCrash
  by_cases hfp : (sched n).btcFp = 0
  · rw [afterPass_of_missing hfp]
    refine (or_iff_left ?_).symm
    rintro (hseen | hwindow)
    · exact hseen.btcFp_ne_zero hfp
    · exact hwindow.1.2 hfp
  · have hshare : Decimal.ofU64 singleTickBps / 10000 = (5 / 100 : ℚ) := by
      decide +kernel
    have hnow := le_deviationBps_iff_seen (by decide) hshare hfp
    rw [← lastBtcPrice_stateAt] at hnow
    rw [afterPass_of_reading hfp, closeWindow_volatilityCircuit, observed_window_iff hfp, ← hnow,
      ← or_assoc]
    exact or_congr_left (observe_volatilityCircuit _ _)

/-- The pass of the monitor spawns a timer with every window it finds. -/
lemma mem_afterPass_timers (n t : ℕ) :
    t ∈ (afterPass sched n).timers ↔
      t ∈ (beforePass sched n).timers ∨ SeenInWindow sched n ∧ t = n + recoveryTicks := by
  by_cases hfp : (sched n).btcFp = 0
  · rw [afterPass_of_missing hfp]
    refine (or_iff_left ?_).symm
    rintro ⟨hwindow, -⟩
    exact hwindow.1.2 hfp
  · rw [afterPass_of_reading hfp, mem_closeWindow_timers, observed_window_iff hfp]
    unfold observed
    rw [observe_timers]

/-- The timers of a run: those of the windows so far that have not run. -/
lemma mem_stateAt_timers (n t : ℕ) :
    t ∈ (stateAt sched n).timers ↔
      ∃ w < n, SeenInWindow sched w ∧ t = w + recoveryTicks ∧ Waiting sched t n := by
  induction n with
  | zero =>
    exact iff_of_false List.not_mem_nil fun ⟨w, hw, _⟩ => absurd hw (Nat.not_lt_zero w)
  | succ n ih =>
    rw [stateAt_succ, mem_recover_timers, mem_afterPass_timers]
    unfold beforePass
    rw [mem_recover_timers, ih]
    constructor
    · rintro ⟨⟨⟨w, hw, hseen, rfl, hwait⟩, hbefore⟩ | ⟨hseen, rfl⟩, hafter⟩
      · refine ⟨w, Nat.lt_succ_of_lt hw, hseen, rfl, fun j hle hlt => ?_⟩
        rcases Nat.lt_succ_iff_lt_or_eq.mp hlt with hj | rfl
        · exact hwait j hle hj
        · exact ⟨hbefore hle, hafter hle⟩
      · refine ⟨n, Nat.lt_succ_self n, hseen, rfl, fun j hle hlt => ?_⟩
        unfold recoveryTicks at hle
        omega
    · rintro ⟨w, hw, hseen, rfl, hwait⟩
      refine ⟨?_, fun hle => (hwait n hle (Nat.lt_succ_self n)).2⟩
      rcases Nat.lt_succ_iff_lt_or_eq.mp hw with hlt | rfl
      · exact Or.inl ⟨⟨w, hlt, hseen, rfl, fun j hle hj => hwait j hle (Nat.lt_succ_of_lt hj)⟩,
          fun hle => (hwait n hle (Nat.lt_succ_self n)).1⟩
      · exact Or.inr ⟨hseen, rfl⟩

/-- A timer that is due was spawned for a window sixty seconds ago or earlier, and has not run. -/
lemma exists_due_timer_iff (n : ℕ) {p : ℕ → Prop} :
    (∃ t ∈ (stateAt sched n).timers, t ≤ n ∧ p t) ↔
      ∃ w, SeenInWindow sched w ∧ w + recoveryTicks ≤ n ∧ Waiting sched (w + recoveryTicks) n ∧
        p (w + recoveryTicks) := by
  constructor
  · rintro ⟨t, ht, hdue, hruns⟩
    obtain ⟨w, -, hseen, rfl, hwait⟩ := (mem_stateAt_timers n t).mp ht
    exact ⟨w, hseen, hdue, hwait, hruns⟩
  · rintro ⟨w, hseen, hdue, hwait, hruns⟩
    have hw : w < n := by
      unfold recoveryTicks at hdue
      omega
    exact ⟨w + recoveryTicks, (mem_stateAt_timers n _).mpr ⟨w, hw, hseen, rfl, hwait⟩, hdue, hruns⟩

/-- The circuit survives the timers that run before the pass, if there are none. -/
lemma beforePass_volatilityCircuit (n : ℕ) :
    (beforePass sched n).volatilityCircuit = true ↔
      (stateAt sched n).volatilityCircuit = true ∧ ¬ ClearsBefore sched n := by
  unfold beforePass
  rw [recover_volatilityCircuit, exists_due_timer_iff]
  rfl

/-- The circuit survives the timers that run after the pass, if there are none. -/
lemma stateAt_succ_volatilityCircuit (n : ℕ) :
    (stateAt sched (n + 1)).volatilityCircuit = true ↔
      (afterPass sched n).volatilityCircuit = true ∧ ¬ ClearsAfter sched n := by
  have hleft : (∃ t ∈ (afterPass sched n).timers, t ≤ n ∧ (sched n).recoverAfter t = true) ↔
      ∃ t ∈ (stateAt sched n).timers, t ≤ n ∧
        (sched n).recoverBefore t = false ∧ (sched n).recoverAfter t = true := by
    refine exists_congr fun t => ?_
    rw [mem_afterPass_timers, beforePass, mem_recover_timers]
    constructor
    · rintro ⟨⟨hmem, hbefore⟩ | ⟨-, rfl⟩, hdue, hruns⟩
      · exact ⟨hmem, hdue, hbefore hdue, hruns⟩
      · unfold recoveryTicks at hdue
        omega
    · rintro ⟨hmem, hdue, hbefore, hruns⟩
      exact ⟨Or.inl ⟨hmem, fun _ => hbefore⟩, hdue, hruns⟩
  rw [stateAt_succ, recover_volatilityCircuit, hleft, exists_due_timer_iff]
  rfl

/-- The volatility circuit is the latch. -/
lemma stateAt_volatilityCircuit (n : ℕ) :
    (stateAt sched n).volatilityCircuit = true ↔ (circuit sched).On n := by
  induction n with
  | zero => exact iff_of_false Bool.false_ne_true id
  | succ n ih =>
    rw [stateAt_succ_volatilityCircuit, afterPass_volatilityCircuit, beforePass_volatilityCircuit,
      ih]
    rfl

/-- The circuit is set for sixty seconds exactly when the monitor has seen a crash and no timer runs
from then until the sixty seconds are over. -/
lemma protected_iff (n : ℕ) :
    Protected sched n ↔
      ∃ m ≤ n, SeesCrash sched m ∧ (circuit sched).Quiet m (n + recoveryTicks) := by
  have hbefore : ∀ k, (beforePass sched k).volatilityCircuit = true ↔
      (circuit sched).OnBefore k := by
    intro k
    rw [beforePass_volatilityCircuit, stateAt_volatilityCircuit]
    rfl
  have hafter : ∀ k, (afterPass sched k).volatilityCircuit = true ↔
      (circuit sched).OnAfter k := by
    intro k
    rw [afterPass_volatilityCircuit, hbefore]
    rfl
  have hheld : Protected sched n ↔ (circuit sched).Held n recoveryTicks := by
    unfold Protected Latch.Held
    simp only [hbefore, hafter, stateAt_volatilityCircuit]
  exact hheld.trans (Latch.held_iff (by decide))

/-- The circuit is set for sixty seconds from every trigger of a run exactly when the monitor has
seen a crash by then, at a jump that fits a word or in a window of its own with a move between
neighbouring readings, and no recovery timer runs from that crash until sixty seconds after the
trigger. -/
theorem flash_protection_iff (sched : ℕ → Instant) (ends : ℕ → Prop) :
    (∀ n, Jump sched n ∨ WindowMove sched ends n → Protected sched n) ↔
      ∀ n, Jump sched n ∨ WindowMove sched ends n →
        ∃ m ≤ n, SeesCrash sched m ∧ (circuit sched).Quiet m (n + recoveryTicks) :=
  forall_congr' fun n => imp_congr_right fun _ => protected_iff n

/-- A bitcoin that gains twenty dollars with every reading, from twenty thousand dollars on. -/
def driftSchedule (n : ℕ) : Instant :=
  ⟨fun _ => true, UInt64.ofNat (20000 + 20 * n) * 1000000000, fun _ => true⟩

/-- A bitcoin that falls by two percent at the last tick of the first window and by eight percent
half a minute later. -/
def secondFallSchedule (n : ℕ) : Instant :=
  ⟨fun _ => true, (if n < 59 then 20000 else if n < 65 then 19600 else 18000) * 1000000000,
    fun _ => true⟩

/-- A window in which the price gains five percent by small steps does not set the circuit, and a
jump half a minute after a detected window is protected for half a minute only: the timer of the
window clears the circuit. -/
theorem flash_protection_fails :
    (WindowMove driftSchedule countedEnd 59 ∧
      (afterPass driftSchedule 59).volatilityCircuit = false ∧ ¬ Protected driftSchedule 59) ∧
    (Jump secondFallSchedule 65 ∧
      (stateAt secondFallSchedule 66).volatilityCircuit = true ∧
      (beforePass secondFallSchedule 71).volatilityCircuit = false ∧
      ¬ Protected secondFallSchedule 65) := by
  have hdrift : (afterPass driftSchedule 59).volatilityCircuit = false := by decide +kernel
  have hmove : Differ (15 / 1000) (driftSchedule 0).btcFp (driftSchedule 59).btcFp := by
    unfold Differ
    decide +kernel
  have hjump : Jump secondFallSchedule 65 := by
    unfold Jump Differ
    decide +kernel
  have hcleared : (beforePass secondFallSchedule 71).volatilityCircuit = false := by
    decide +kernel
  refine ⟨⟨⟨rfl, 0, 59, by decide, by decide, by decide, hmove⟩, hdrift, fun h => ?_⟩,
    hjump, by decide +kernel, hcleared, fun h => ?_⟩
  · exact Bool.false_ne_true (hdrift.symm.trans h.1)
  · exact Bool.false_ne_true (hcleared.symm.trans (h.2.2 71 (by decide) (by decide)).1)

end FlashMonitor

end HftArb
