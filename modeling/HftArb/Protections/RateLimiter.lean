import HftArb.Foundations.Runs
import HftArb.Foundations.Saturating

/-!
# The weight limiter of an exchange

An exchange allows a weight per window of a minute.  A call records its weight; when the weight of
the window reaches a share of the allowance, the exchange is paused for a cooldown.

The clock enters through one reading a call, in nanoseconds.  A call that finds its window over
starts a new one and is answered well whatever its weight and whether or not the exchange is paused,
and the call that ends a pause starts the weight over, in the middle of a window.
`pause_and_window_honoured` says which runs keep to the pause and to the allowance nevertheless.

The counter of violations goes back to zero at the end of every pause, so it never gets past one:
`third_trip_not_extended`.
-/

namespace HftArb

open Saturating Runs

/-- `RateLimitStatus`: the answer to a recorded weight. -/
inductive RateLimitStatus where
  | ok
  | paused (remainingMs : UInt64)
  | tripped (used max : UInt64) (violations : UInt32) (cooldownMs : UInt64)
  deriving DecidableEq

/-- The answer refuses a call during a pause. -/
def RateLimitStatus.IsPaused : RateLimitStatus → Bool
  | .paused _ => true
  | _ => false

/-- The answer starts a pause. -/
def RateLimitStatus.IsTripped : RateLimitStatus → Bool
  | .tripped .. => true
  | _ => false

/-- The state of one exchange.  Instants and durations are in nanoseconds. -/
structure ExchangeRateState where
  usedWeight : UInt64
  maxWeight : UInt64
  /-- The share of the allowance at which the exchange is paused, in basis points. -/
  pauseThreshold : UInt32
  isPaused : Bool
  pausedAt : Option ℕ
  cooldownDuration : ℕ
  consecutiveViolations : UInt32
  maxViolationsBeforeExtended : UInt32
  windowStart : ℕ
  windowDuration : ℕ

namespace ExchangeRateState

/-- A fresh exchange, registered at the given instant. -/
def new (maxWeight : UInt64) (pauseThreshold : UInt32) (cooldown now : ℕ) : ExchangeRateState :=
  ⟨0, maxWeight, pauseThreshold, false, none, cooldown, 0, 3, now, 60 * 10 ^ 9⟩

variable (s : ExchangeRateState)

/-- The window is over. -/
def WindowOver (now : ℕ) : Prop := s.windowDuration ≤ now - s.windowStart

instance (now : ℕ) : Decidable (s.WindowOver now) := inferInstanceAs (Decidable (_ ≤ _))

/-- The cooldown after a number of violations. -/
def effectiveCooldown (violations : UInt32) : ℕ :=
  if s.maxViolationsBeforeExtended ≤ violations then s.cooldownDuration * 3
  else s.cooldownDuration

/-- The cooldown of a pause is over. -/
def shouldResume (now : ℕ) : Bool :=
  match s.pausedAt with
  | some t => decide (s.effectiveCooldown s.consecutiveViolations ≤ now - t)
  | none => false

/-- A duration in whole milliseconds. -/
def asMillis (duration : ℕ) : UInt64 := UInt64.ofNat (duration / 10 ^ 6)

/-- What is left of the cooldown of a pause. -/
def remainingMs (now : ℕ) : UInt64 :=
  match s.pausedAt with
  | some t => asMillis (s.effectiveCooldown s.consecutiveViolations - (now - t))
  | none => 0

/-- The cooldown reported by a trip. -/
def cooldownMs (violations : UInt32) : UInt64 :=
  if s.maxViolationsBeforeExtended ≤ violations then asMillis s.cooldownDuration * 3
  else asMillis s.cooldownDuration

/-- `u32::saturating_add(1)`. -/
def saturatingSucc (n : UInt32) : UInt32 := if n = 4294967295 then n else n + 1

/-- The comparison with the allowance, in 64-bit words that wrap around. -/
def Trips (weight : UInt64) : Prop :=
  s.maxWeight * s.pauseThreshold.toUInt64 ≤ satAdd s.usedWeight weight * 10000

instance (weight : UInt64) : Decidable (s.Trips weight) := inferInstanceAs (Decidable (_ ≤ _))

/-- Record the weight of a call. -/
def recordWeight (now : ℕ) (weight : UInt64) : RateLimitStatus × ExchangeRateState :=
  if s.WindowOver now then (.ok, { s with windowStart := now, usedWeight := weight })
  else if s.isPaused then
    if s.shouldResume now then
      (.ok, { s with
        isPaused := false
        pausedAt := none
        usedWeight := weight
        consecutiveViolations := 0 })
    else (.paused (s.remainingMs now), s)
  else if s.Trips weight then
    let violations := saturatingSucc s.consecutiveViolations
    (.tripped (satAdd s.usedWeight weight) s.maxWeight violations (s.cooldownMs violations),
      { s with
        usedWeight := s.usedWeight + weight
        isPaused := true
        pausedAt := some now
        consecutiveViolations := s.consecutiveViolations + 1 })
  else
    (.ok, { s with usedWeight := s.usedWeight + weight, consecutiveViolations := 0 })

/-- What a call can do: it rotates the window, ends a pause, is refused, trips the limit or is
accepted. -/
inductive Outcome (now : ℕ) (weight : UInt64) : RateLimitStatus × ExchangeRateState → Prop
  | rotated (hover : s.WindowOver now) :
    Outcome now weight (.ok, { s with windowStart := now, usedWeight := weight })
  | resumed (hin : ¬ s.WindowOver now) (hp : s.isPaused = true) (hr : s.shouldResume now = true) :
    Outcome now weight (.ok, { s with
      isPaused := false
      pausedAt := none
      usedWeight := weight
      consecutiveViolations := 0 })
  | refused (hin : ¬ s.WindowOver now) (hp : s.isPaused = true)
    (hr : s.shouldResume now = false) :
    Outcome now weight (.paused (s.remainingMs now), s)
  | tripped (hin : ¬ s.WindowOver now) (hp : s.isPaused = false) (ht : s.Trips weight) :
    Outcome now weight
      (.tripped (satAdd s.usedWeight weight) s.maxWeight (saturatingSucc s.consecutiveViolations)
        (s.cooldownMs (saturatingSucc s.consecutiveViolations)),
      { s with
        usedWeight := s.usedWeight + weight
        isPaused := true
        pausedAt := some now
        consecutiveViolations := s.consecutiveViolations + 1 })
  | accepted (hin : ¬ s.WindowOver now) (hp : s.isPaused = false) (ht : ¬ s.Trips weight) :
    Outcome now weight
      (.ok, { s with usedWeight := s.usedWeight + weight, consecutiveViolations := 0 })

/-- Every call has one of the outcomes. -/
lemma recordWeight_outcome (now : ℕ) (weight : UInt64) :
    s.Outcome now weight (s.recordWeight now weight) := by
  unfold recordWeight
  by_cases hover : s.WindowOver now
  · rw [if_pos hover]
    exact .rotated hover
  rw [if_neg hover]
  by_cases hp : s.isPaused = true
  · rw [if_pos hp]
    by_cases hr : s.shouldResume now = true
    · rw [if_pos hr]
      exact .resumed hover hp hr
    · rw [if_neg hr]
      exact .refused hover hp (Bool.eq_false_of_not_eq_true hr)
  · rw [if_neg hp]
    have hopen := Bool.eq_false_of_not_eq_true hp
    by_cases ht : s.Trips weight
    · rw [if_pos ht]
      exact .tripped hover hopen ht
    · rw [if_neg ht]
      exact .accepted hover hopen ht

/-! ## Runs -/

/-- A call with its instant and its weight. -/
structure Call where
  now : ℕ
  weight : UInt64

/-- One call. -/
def step (s : ExchangeRateState) (c : Call) : ExchangeRateState × List RateLimitStatus :=
  ((s.recordWeight c.now c.weight).2, [(s.recordWeight c.now c.weight).1])

/-- The answer to a call after others. -/
def statusAfter (before : List Call) (c : Call) : RateLimitStatus :=
  ((runState step s before).recordWeight c.now c.weight).1

/-- From a trip until its cooldown is over no call is answered well. -/
def PauseHonoured (calls : List Call) : Prop :=
  ∀ before c mid c' after, calls = before ++ c :: (mid ++ c' :: after) →
    ∀ used max violations cooldown,
      s.statusAfter before c = .tripped used max violations cooldown →
      s.statusAfter (before ++ c :: mid) c' = .ok →
      c.now + s.effectiveCooldown violations ≤ c'.now

/-- The weight recorded in the window after one more call.  A refused call records nothing. -/
def recordedBy (recorded : ℕ) (c : Call) : ℕ :=
  if s.WindowOver c.now then c.weight.toNat
  else
    match (s.recordWeight c.now c.weight).1 with
    | .paused _ => recorded
    | _ => recorded + c.weight.toNat

/-- The weight recorded in the window at the end of the calls, given the weight recorded before
them. -/
def recorded (s : ExchangeRateState) (before : ℕ) : List Call → ℕ
  | [] => before
  | c :: calls => recorded (step s c).1 (s.recordedBy before c) calls

/-- A weight is below the share of the allowance at which the exchange is paused. -/
def Below (weight : ℕ) : Prop := weight * 10000 < s.maxWeight.toNat * s.pauseThreshold.toNat

instance (weight : ℕ) : Decidable (s.Below weight) := inferInstanceAs (Decidable (_ < _))

/-- No call is answered well when the weight of the window, with the call, reaches the share of the
allowance. -/
def WindowHonoured (calls : List Call) : Prop :=
  ∀ before c after, calls = before ++ c :: after → s.statusAfter before c = .ok →
    s.Below (s.recorded 0 (before ++ [c]))

/-- What a call must be like for the limits to be honoured, given the weight recorded in the window:
a call that finds its window over finds no pause running and carries a weight below the allowance,
the call that ends a pause does so in a window without weight, and the weights of the window do not
overflow a word. -/
structure Orderly (recorded : ℕ) (c : Call) : Prop where
  rotation : s.WindowOver c.now →
    (s.isPaused = true → s.shouldResume c.now = true) ∧ s.Below c.weight.toNat
  resume : ¬ s.WindowOver c.now → s.isPaused = true → s.shouldResume c.now = true →
    recorded = 0 ∧ s.Below c.weight.toNat
  fits : ¬ s.WindowOver c.now → s.isPaused = false →
    (recorded + c.weight.toNat) * 10000 < 2 ^ 64 ∧
      s.maxWeight.toNat * s.pauseThreshold.toNat < 2 ^ 64

/-- An exchange as it is between calls: one violation is on record while it is paused, none
otherwise. -/
structure Regular : Prop where
  extended : s.maxViolationsBeforeExtended = 3
  opened : s.isPaused = false → s.consecutiveViolations = 0
  paused : s.isPaused = true → s.consecutiveViolations = 1 ∧ ∃ t, s.pausedAt = some t

variable {s}

/-- A fresh exchange is regular. -/
lemma regular_new (maxWeight : UInt64) (pauseThreshold : UInt32) (cooldown now : ℕ) :
    (new maxWeight pauseThreshold cooldown now).Regular :=
  ⟨rfl, fun _ => rfl, fun h => absurd h Bool.false_ne_true⟩

/-- A call leaves a regular exchange regular. -/
lemma Regular.step (h : s.Regular) (c : Call) : (step s c).1.Regular := by
  have hout := s.recordWeight_outcome c.now c.weight
  unfold ExchangeRateState.step
  generalize s.recordWeight c.now c.weight = out at hout ⊢
  cases hout with
  | rotated => exact ⟨h.extended, h.opened, h.paused⟩
  | resumed => exact ⟨h.extended, fun _ => rfl, fun hp => absurd hp Bool.false_ne_true⟩
  | refused => exact h
  | tripped hin hp =>
    refine ⟨h.extended, fun hp => absurd hp.symm Bool.false_ne_true, fun _ => ⟨?_, c.now, rfl⟩⟩
    change s.consecutiveViolations + 1 = 1
    rw [h.opened hp]
    rfl
  | accepted hin hp =>
    exact ⟨h.extended, fun _ => rfl, fun hp' => absurd (hp.symm.trans hp') (by decide)⟩

/-- A run leaves a regular exchange regular. -/
lemma Regular.run (h : s.Regular) (calls : List Call) :
    (runState ExchangeRateState.step s calls).Regular :=
  runState_induction (C := fun _ => True) (fun _ c hs _ => hs.step c) h fun _ _ => trivial

/-- The cooldown of a pause is the plain one. -/
lemma Regular.shouldResume_iff (h : s.Regular) (hp : s.isPaused = true) {t now : ℕ}
    (ht : s.pausedAt = some t) : s.shouldResume now = true ↔ s.cooldownDuration ≤ now - t := by
  have hnot : ¬ (3 : UInt32) ≤ 1 := by decide
  simp only [shouldResume, ht, decide_eq_true_eq, effectiveCooldown, h.extended, (h.paused hp).1,
    hnot, if_false]

/-- Every trip of a regular exchange reports one violation. -/
lemma Regular.violations_of_tripped (h : s.Regular) {now : ℕ} {weight used max cooldown : UInt64}
    {violations : UInt32}
    (ht : (s.recordWeight now weight).1 = .tripped used max violations cooldown) :
    violations = 1 ∧ (s.recordWeight now weight).2.isPaused = true ∧
      (s.recordWeight now weight).2.pausedAt = some now := by
  have hout := s.recordWeight_outcome now weight
  generalize s.recordWeight now weight = out at hout ht ⊢
  cases hout with
  | rotated | resumed | refused | accepted => cases ht
  | tripped hin hp =>
    rw [h.opened hp] at ht
    obtain ⟨-, -, hv, -⟩ := RateLimitStatus.tripped.inj ht
    exact ⟨hv.symm, rfl, rfl⟩

/-! ## The pause -/

/-- The configuration of an exchange is the same in two states. -/
structure SameConfig (s s' : ExchangeRateState) : Prop where
  maxWeight : s'.maxWeight = s.maxWeight
  pauseThreshold : s'.pauseThreshold = s.pauseThreshold
  cooldownDuration : s'.cooldownDuration = s.cooldownDuration
  maxViolations : s'.maxViolationsBeforeExtended = s.maxViolationsBeforeExtended

/-- A call leaves the configuration. -/
lemma sameConfig_step (s : ExchangeRateState) (c : Call) : SameConfig s (step s c).1 := by
  have hout := s.recordWeight_outcome c.now c.weight
  unfold step
  generalize s.recordWeight c.now c.weight = out at hout ⊢
  cases hout <;> exact ⟨rfl, rfl, rfl, rfl⟩

/-- A run leaves the configuration. -/
lemma sameConfig_run (s : ExchangeRateState) (calls : List Call) :
    SameConfig s (runState step s calls) := by
  induction calls generalizing s with
  | nil => exact ⟨rfl, rfl, rfl, rfl⟩
  | cons c calls ih =>
    have hfirst := sameConfig_step s c
    have hrest := ih (step s c).1
    exact ⟨hrest.maxWeight.trans hfirst.maxWeight, hrest.pauseThreshold.trans hfirst.pauseThreshold,
      hrest.cooldownDuration.trans hfirst.cooldownDuration,
      hrest.maxViolations.trans hfirst.maxViolations⟩

/-- A call to a paused exchange is refused, or it rotates the window, or the cooldown is over. -/
lemma paused_call_cases (hp : s.isPaused = true) (c : Call) :
    (step s c).1 = s ∧ (s.recordWeight c.now c.weight).1 ≠ .ok ∨
      s.WindowOver c.now ∨ s.shouldResume c.now = true := by
  have hout := s.recordWeight_outcome c.now c.weight
  unfold step
  generalize s.recordWeight c.now c.weight = out at hout ⊢
  cases hout with
  | rotated hover => exact Or.inr (Or.inl hover)
  | resumed hin _ hr => exact Or.inr (Or.inr hr)
  | refused => exact Or.inl ⟨rfl, by simp⟩
  | tripped hin hopen => exact absurd (hopen.symm.trans hp) (by decide)
  | accepted hin hopen => exact absurd (hopen.symm.trans hp) (by decide)

/-- When no call rotates the window of a pause before its cooldown is over, the first call answered
well comes after the cooldown, and so do all others. -/
lemma cooldown_le_of_ok {t : ℕ} (h : s.Regular) (hp : s.isPaused = true)
    (ht : s.pausedAt = some t) {mid : List Call} {c' : Call}
    (hle : ∀ c ∈ mid ++ [c'], t ≤ c.now) (hclock : (mid ++ [c']).Pairwise fun a b => a.now ≤ b.now)
    (hrot : ∀ before c after, mid ++ [c'] = before ++ c :: after →
      (runState step s before).WindowOver c.now →
      (runState step s before).isPaused = true →
      (runState step s before).shouldResume c.now = true)
    (hok : s.statusAfter mid c' = .ok) : t + s.cooldownDuration ≤ c'.now := by
  induction mid with
  | nil =>
    have hresume : s.shouldResume c'.now = true := by
      rcases paused_call_cases hp c' with ⟨-, hnot⟩ | hover | hr
      · exact absurd hok hnot
      · exact hrot [] c' [] rfl hover hp
      · exact hr
    have hover := (h.shouldResume_iff hp ht).mp hresume
    have hle' := hle c' (by simp)
    omega
  | cons c mid ih =>
    rw [List.cons_append, List.pairwise_cons] at hclock
    rcases paused_call_cases hp c with ⟨hsame, -⟩ | hfree
    · have hrot' : ∀ before a after, mid ++ [c'] = before ++ a :: after →
          (runState step s before).WindowOver a.now →
          (runState step s before).isPaused = true →
          (runState step s before).shouldResume a.now = true := by
        intro before a after heq
        have hpoint := hrot (c :: before) a after (by rw [List.cons_append, heq]; rfl)
        rw [runState_cons, hsame] at hpoint
        exact hpoint
      have hok' : s.statusAfter mid c' = .ok := by
        unfold statusAfter at hok
        rw [runState_cons, hsame] at hok
        exact hok
      exact ih (fun a ha => hle a (List.mem_cons_of_mem c ha)) hclock.2 hrot' hok'
    · have hresume : s.shouldResume c.now = true := by
        rcases hfree with hover | hr
        · exact hrot [] c (mid ++ [c']) rfl hover hp
        · exact hr
      have hover := (h.shouldResume_iff hp ht).mp hresume
      have hle' := hle c (by simp)
      have hlast := hclock.1 c' (by simp)
      omega

/-- No call of the run rotates the window of a pause before its cooldown is over. -/
def NoRotationInPause (s : ExchangeRateState) (calls : List Call) : Prop :=
  ∀ before c after, calls = before ++ c :: after → (runState step s before).WindowOver c.now →
    (runState step s before).isPaused = true → (runState step s before).shouldResume c.now = true

/-- The cooldown after one violation is the plain one. -/
lemma Regular.effectiveCooldown_one (h : s.Regular) :
    s.effectiveCooldown 1 = s.cooldownDuration := by
  have hnot : ¬ (3 : UInt32) ≤ 1 := by decide
  rw [effectiveCooldown, h.extended, if_neg hnot]

/-- A run that does not rotate the window of a pause honours its pauses. -/
lemma pauseHonoured_of_noRotationInPause (h : s.Regular) {calls : List Call}
    (hclock : calls.Pairwise fun a b => a.now ≤ b.now) (hrot : NoRotationInPause s calls) :
    s.PauseHonoured calls := by
  intro before c mid c' after heq used max violations cooldown htrip hok
  have hregular := h.run before
  obtain ⟨rfl, hp, ht⟩ := hregular.violations_of_tripped htrip
  have hconfig := sameConfig_run s (before ++ [c])
  have hstate : runState step s (before ++ [c]) =
      ((runState step s before).recordWeight c.now c.weight).2 := by
    rw [runState_append]
    rfl
  rw [hstate] at hconfig
  have hsplit : calls = (before ++ [c]) ++ (mid ++ [c'] ++ after) := by
    rw [heq]
    simp
  rw [hsplit, List.pairwise_append] at hclock
  obtain ⟨-, htail, hcross⟩ := hclock
  have hle : ∀ a ∈ mid ++ [c'], c.now ≤ a.now := by
    intro a ha
    exact hcross c (by simp) a (List.mem_append_left _ ha)
  have hrot' : NoRotationInPause ((runState step s before).recordWeight c.now c.weight).2
      (mid ++ [c']) := by
    intro pre a post hpre
    have hpoint := hrot (before ++ c :: pre) a (post ++ after) (by rw [hsplit, hpre]; simp)
    rw [runState_append, runState_cons] at hpoint
    exact hpoint
  have hok' : ((runState step s before).recordWeight c.now c.weight).2.statusAfter mid c' =
      .ok := by
    unfold statusAfter at hok ⊢
    rw [runState_append, runState_cons] at hok
    exact hok
  rw [h.effectiveCooldown_one, ← hconfig.cooldownDuration]
  exact cooldown_le_of_ok (hregular.step c) hp ht hle (List.pairwise_append.mp htail).1 hrot' hok'

/-! ## The window -/

/-- Below the limits the wrapping comparison is the exact one. -/
lemma trips_iff_of_fits {recorded : ℕ} {weight : UInt64} (hused : s.usedWeight.toNat = recorded)
    (hweight : (recorded + weight.toNat) * 10000 < 2 ^ 64)
    (hmax : s.maxWeight.toNat * s.pauseThreshold.toNat < 2 ^ 64) :
    s.Trips weight ↔ ¬ s.Below (recorded + weight.toNat) := by
  have hsum : (satAdd s.usedWeight weight).toNat = recorded + weight.toNat := by
    rw [satAdd_toNat, hused]
    omega
  unfold Trips Below
  rw [UInt64.le_iff_toNat_le, UInt64.toNat_mul, UInt64.toNat_mul, hsum, UInt32.toNat_toUInt64,
    Nat.mod_eq_of_lt hmax, Nat.mod_eq_of_lt (by simpa using hweight), not_lt]
  rfl

/-- An orderly call keeps the counter on the weight of the window, and is answered well only below
the share of the allowance. -/
lemma Orderly.recordWeight {recorded : ℕ} {c : Call} (h : s.Orderly recorded c)
    (hused : s.usedWeight.toNat = recorded) :
    (step s c).1.usedWeight.toNat = s.recordedBy recorded c ∧
      ((s.recordWeight c.now c.weight).1 = .ok → s.Below (s.recordedBy recorded c)) := by
  have hout := s.recordWeight_outcome c.now c.weight
  unfold step recordedBy
  generalize s.recordWeight c.now c.weight = out at hout ⊢
  cases hout with
  | rotated hover =>
    rw [if_pos hover]
    exact ⟨rfl, fun _ => (h.rotation hover).2⟩
  | resumed hin hp hr =>
    obtain ⟨rfl, hbelow⟩ := h.resume hin hp hr
    simp only [if_neg hin, zero_add]
    exact ⟨trivial, fun _ => hbelow⟩
  | refused hin hp hr =>
    simp only [if_neg hin]
    exact ⟨hused, fun hok => nomatch hok⟩
  | tripped hin hp ht =>
    obtain ⟨hweight, -⟩ := h.fits hin hp
    simp only [if_neg hin, UInt64.toNat_add, hused]
    exact ⟨Nat.mod_eq_of_lt (by omega), fun hok => nomatch hok⟩
  | accepted hin hp ht =>
    obtain ⟨hweight, hmax⟩ := h.fits hin hp
    rw [trips_iff_of_fits hused hweight hmax, not_not] at ht
    simp only [if_neg hin, UInt64.toNat_add, hused]
    exact ⟨Nat.mod_eq_of_lt (by omega), fun _ => ht⟩

/-- Every call of the run is orderly. -/
def AllOrderly (s : ExchangeRateState) (before : ℕ) (calls : List Call) : Prop :=
  ∀ pre c post, calls = pre ++ c :: post → (runState step s pre).Orderly (s.recorded before pre) c

/-- An orderly run honours the allowance of its windows. -/
lemma below_of_allOrderly {before : ℕ} {calls : List Call} (hused : s.usedWeight.toNat = before)
    (h : AllOrderly s before calls) :
    ∀ pre c post, calls = pre ++ c :: post → s.statusAfter pre c = .ok →
      s.Below (s.recorded before (pre ++ [c])) := by
  induction calls generalizing s before with
  | nil => exact forall_split_nil
  | cons a calls ih =>
    obtain ⟨hfirst, hrest⟩ := forall_split_cons.mp h
    have horderly : s.Orderly before a := hfirst
    obtain ⟨hcounter, hbelow⟩ := horderly.recordWeight hused
    have htail := ih hcounter hrest
    have hconfig := sameConfig_step s a
    refine forall_split_cons.mpr ⟨hbelow, ?_⟩
    intro pre c post heq hok
    have hpoint := htail pre c post heq hok
    unfold Below at hpoint ⊢
    rw [hconfig.maxWeight, hconfig.pauseThreshold] at hpoint
    exact hpoint

/-! ## Runs that honour the limits -/

/-- A paused exchange has tripped before, at the instant of the pause. -/
lemma exists_trip_of_paused (hopen : s.isPaused = false) (calls : List Call)
    (hp : (runState step s calls).isPaused = true) :
    ∃ before c mid used max violations cooldown, calls = before ++ c :: mid ∧
      s.statusAfter before c = .tripped used max violations cooldown ∧
      (runState step s calls).pausedAt = some c.now := by
  induction calls using List.reverseRecOn with
  | nil => exact absurd (hopen.symm.trans hp) (by decide)
  | append_singleton calls a ih =>
    have hstate : runState step s (calls ++ [a]) =
        ((runState step s calls).recordWeight a.now a.weight).2 := by
      rw [runState_append]
      rfl
    have hkeep : ∀ s' : ExchangeRateState, (runState step s calls).isPaused = true →
        s'.pausedAt = (runState step s calls).pausedAt →
        ∃ before c mid used max violations cooldown,
          calls ++ [a] = before ++ c :: mid ∧
          s.statusAfter before c = .tripped used max violations cooldown ∧
          s'.pausedAt = some c.now := by
      intro s' hpaused hsame
      obtain ⟨before, c, mid, used, max, violations, cooldown, heq, htrip, hat⟩ := ih hpaused
      exact ⟨before, c, mid ++ [a], used, max, violations, cooldown, by rw [heq]; simp, htrip,
        hsame.trans hat⟩
    rw [hstate] at hp ⊢
    have hout := (runState step s calls).recordWeight_outcome a.now a.weight
    have hstatus : s.statusAfter calls a =
        ((runState step s calls).recordWeight a.now a.weight).1 := rfl
    generalize (runState step s calls).recordWeight a.now a.weight = out at hout hp hstatus ⊢
    cases hout with
    | rotated => exact hkeep _ hp rfl
    | resumed => exact absurd hp Bool.false_ne_true
    | refused => exact hkeep _ hp rfl
    | tripped => exact ⟨calls, a, [], _, _, _, _, rfl, hstatus, rfl⟩
    | accepted hin hopen' => exact absurd (hopen'.symm.trans hp) (by decide)

/-- A rotating call is answered well. -/
lemma recordWeight_of_windowOver {c : Call} (h : s.WindowOver c.now) :
    (s.recordWeight c.now c.weight).1 = .ok := by
  rw [recordWeight, if_pos h]

/-- The call that ends a pause is answered well. -/
lemma recordWeight_of_resume {c : Call} (hin : ¬ s.WindowOver c.now) (hp : s.isPaused = true)
    (hr : s.shouldResume c.now = true) : (s.recordWeight c.now c.weight).1 = .ok := by
  rw [recordWeight, if_neg hin, if_pos hp, if_pos hr]

/-- A run that honours its pauses does not rotate the window of a pause. -/
lemma noRotationInPause_of_pauseHonoured (h : s.Regular) (hopen : s.isPaused = false)
    {calls : List Call} (hpause : s.PauseHonoured calls) : NoRotationInPause s calls := by
  intro before c after heq hover hp
  obtain ⟨pre, c₀, mid, used, max, violations, cooldown, hbefore, htrip, hat⟩ :=
    exists_trip_of_paused hopen before hp
  have hregular := h.run pre
  obtain ⟨rfl, -, -⟩ := hregular.violations_of_tripped htrip
  have hok : s.statusAfter (pre ++ c₀ :: mid) c = .ok := by
    rw [← hbefore]
    exact recordWeight_of_windowOver hover
  have hle := hpause pre c₀ mid c after (by rw [heq, hbefore]; simp) used max 1 cooldown htrip hok
  rw [h.effectiveCooldown_one] at hle
  rw [(h.run before).shouldResume_iff hp hat, (sameConfig_run s before).cooldownDuration]
  omega

/-- The run honours every pause and the allowance of every window. -/
def LimitsHonoured (s : ExchangeRateState) (calls : List Call) : Prop :=
  s.PauseHonoured calls ∧ s.WindowHonoured calls

/-- Every call that rotates a window or ends a pause leaves the weight of the window below the share
of the allowance. -/
def RestartsBelow (s : ExchangeRateState) (calls : List Call) : Prop :=
  ∀ before c after, calls = before ++ c :: after →
    (runState step s before).WindowOver c.now ∨ (runState step s before).isPaused = true ∧
      (runState step s before).shouldResume c.now = true →
    s.Below (s.recorded 0 (before ++ [c]))

/-- From registration on, with a clock that does not go back, a run of orderly calls honours every
pause and the allowance of every window.  Conversely, in a run that honours them no call rotates the
window of a pause before its cooldown is over, and the calls that start the weight over do so below
the share of the allowance. -/
theorem pause_and_window_honoured (maxWeight : UInt64) (pauseThreshold : UInt32)
    (cooldown start : ℕ) (calls : List Call)
    (hclock : calls.Pairwise fun a b => a.now ≤ b.now) :
    (AllOrderly (new maxWeight pauseThreshold cooldown start) 0 calls →
      LimitsHonoured (new maxWeight pauseThreshold cooldown start) calls) ∧
    (LimitsHonoured (new maxWeight pauseThreshold cooldown start) calls →
      NoRotationInPause (new maxWeight pauseThreshold cooldown start) calls ∧
        RestartsBelow (new maxWeight pauseThreshold cooldown start) calls) := by
  have hregular := regular_new maxWeight pauseThreshold cooldown start
  generalize hs : new maxWeight pauseThreshold cooldown start = s at hregular ⊢
  have hopen : s.isPaused = false := by rw [← hs]; rfl
  have hused : s.usedWeight.toNat = 0 := by rw [← hs]; rfl
  constructor
  · intro horderly
    have hrot : NoRotationInPause s calls := by
      intro before c after heq hover
      exact ((horderly before c after heq).rotation hover).1
    exact ⟨pauseHonoured_of_noRotationInPause hregular hclock hrot,
      below_of_allOrderly hused horderly⟩
  · rintro ⟨hpause, hwindow⟩
    refine ⟨noRotationInPause_of_pauseHonoured hregular hopen hpause, ?_⟩
    intro before c after heq hcall
    apply hwindow before c after heq
    by_cases hover : (runState step s before).WindowOver c.now
    · exact recordWeight_of_windowOver hover
    · obtain ⟨hp, hr⟩ := hcall.resolve_left hover
      exact recordWeight_of_resume hover hp hr

/-- A trip whose window ends before the pause does, with calls at rest until the cooldown is
over. -/
theorem pause_and_window_honoured_after_trip :
    ([⟨10 ^ 9, 900⟩, ⟨61 * 10 ^ 9, 0⟩, ⟨62 * 10 ^ 9, 5⟩] : List Call).Pairwise
        (fun a b => a.now ≤ b.now) ∧
      LimitsHonoured (new 1000 8000 (30 * 10 ^ 9) 0)
        [⟨10 ^ 9, 900⟩, ⟨61 * 10 ^ 9, 0⟩, ⟨62 * 10 ^ 9, 5⟩] := by
  have hclock : ([⟨10 ^ 9, 900⟩, ⟨61 * 10 ^ 9, 0⟩, ⟨62 * 10 ^ 9, 5⟩] : List Call).Pairwise
      (fun a b => a.now ≤ b.now) := by
    decide
  refine ⟨hclock, (pause_and_window_honoured 1000 8000 (30 * 10 ^ 9) 0 _ hclock).1 ?_⟩
  refine forall_split_cons.mpr ⟨⟨by decide, by decide, by decide⟩, ?_⟩
  refine forall_split_cons.mpr ⟨⟨by decide, by decide, by decide⟩, ?_⟩
  exact forall_split_cons.mpr ⟨⟨by decide, by decide, by decide⟩, forall_split_nil⟩

/-- A pause of half a minute that starts a second before the window ends is over with the window. -/
theorem pause_broken_by_rotation :
    ¬ LimitsHonoured (new 1000 8000 (30 * 10 ^ 9) 0) [⟨59 * 10 ^ 9, 900⟩, ⟨60 * 10 ^ 9, 1⟩] := by
  rintro ⟨hpause, -⟩
  have hle := hpause [] ⟨59 * 10 ^ 9, 900⟩ [] ⟨60 * 10 ^ 9, 1⟩ [] rfl 900 1000 1 30000 (by decide)
    (by decide)
  exact absurd hle (by decide)

/-! ## Repeated violations -/

/-- Between two trips: calls that are refused, and a single one answered well, which ends the
pause. -/
def SingleResume (s : ExchangeRateState) (calls : List Call) : Prop :=
  ∃ before c after, calls = before ++ c :: after ∧
    (∀ status ∈ runTrace step s before, status.IsPaused) ∧ s.statusAfter before c = .ok ∧
    ∀ status ∈ runTrace step (runState step s (before ++ [c])) after, status.IsPaused

/-- Three trips with a single resume between each two of them. -/
structure ThreeTrips (s : ExchangeRateState) (before : List Call) (c₁ : Call) (mid₁ : List Call)
    (c₂ : Call) (mid₂ : List Call) (c₃ : Call) : Prop where
  first : (s.statusAfter before c₁).IsTripped
  resume₁ : SingleResume (runState step s (before ++ [c₁])) mid₁
  second : (s.statusAfter (before ++ c₁ :: mid₁) c₂).IsTripped
  resume₂ : SingleResume (runState step s (before ++ c₁ :: mid₁ ++ [c₂])) mid₂
  third : (s.statusAfter (before ++ c₁ :: mid₁ ++ c₂ :: mid₂) c₃).IsTripped

/-- A trip reports three violations and three times the cooldown, and no call is answered well for
that long. -/
structure Escalated (s : ExchangeRateState) (before : List Call) (c : Call) (after : List Call) :
    Prop where
  report : ∃ used max,
    s.statusAfter before c = .tripped used max 3 (asMillis s.cooldownDuration * 3)
  pause : ∀ mid c' rest, after = mid ++ c' :: rest → c'.now < c.now + s.cooldownDuration * 3 →
    s.statusAfter (before ++ c :: mid) c' ≠ .ok

/-- The third of three trips of the run is escalated. -/
def RepeatedTripsEscalate (s : ExchangeRateState) (calls : List Call) : Prop :=
  ∀ before c₁ mid₁ c₂ mid₂ c₃ after,
    calls = before ++ c₁ :: mid₁ ++ c₂ :: mid₂ ++ c₃ :: after →
    ThreeTrips s before c₁ mid₁ c₂ mid₂ c₃ →
    Escalated s (before ++ c₁ :: mid₁ ++ c₂ :: mid₂) c₃ after

/-- A trip of a regular exchange reports the plain cooldown. -/
lemma Regular.report_of_tripped (h : s.Regular) {now : ℕ} {weight : UInt64}
    (ht : (s.recordWeight now weight).1.IsTripped) :
    ∃ used max,
      (s.recordWeight now weight).1 = .tripped used max 1 (asMillis s.cooldownDuration) := by
  have hout := s.recordWeight_outcome now weight
  generalize s.recordWeight now weight = out at hout ht ⊢
  cases hout with
  | rotated | resumed | refused | accepted => exact absurd ht Bool.false_ne_true
  | tripped hin hp =>
    have hplain : s.cooldownMs (saturatingSucc 0) = asMillis s.cooldownDuration := by
      rw [cooldownMs, h.extended]
      exact if_neg (by decide)
    refine ⟨satAdd s.usedWeight weight, s.maxWeight, ?_⟩
    rw [h.opened hp, hplain]
    rfl

/-- The third of three trips with a single resume between each two reports one violation and the
plain cooldown, and the first call after the plain cooldown is answered well: no trip is ever
escalated. -/
theorem third_trip_not_extended (maxWeight : UInt64) (pauseThreshold : UInt32)
    (cooldown start : ℕ) (before : List Call) (c₁ : Call) (mid₁ : List Call) (c₂ : Call)
    (mid₂ : List Call) (c₃ : Call) (after : List Call)
    (h : ThreeTrips (new maxWeight pauseThreshold cooldown start) before c₁ mid₁ c₂ mid₂ c₃) :
    (∃ used max, (new maxWeight pauseThreshold cooldown start).statusAfter
      (before ++ c₁ :: mid₁ ++ c₂ :: mid₂) c₃ = .tripped used max 1 (asMillis cooldown)) ∧
    (∀ c', c₃.now + cooldown ≤ c'.now →
      (new maxWeight pauseThreshold cooldown start).statusAfter
        (before ++ c₁ :: mid₁ ++ c₂ :: mid₂ ++ [c₃]) c' = .ok) ∧
    ¬ Escalated (new maxWeight pauseThreshold cooldown start)
      (before ++ c₁ :: mid₁ ++ c₂ :: mid₂) c₃ after := by
  have hregular := regular_new maxWeight pauseThreshold cooldown start
  have hcooldown : (new maxWeight pauseThreshold cooldown start).cooldownDuration = cooldown := rfl
  generalize new maxWeight pauseThreshold cooldown start = s at h hregular hcooldown ⊢
  have hthird := h.third
  generalize before ++ c₁ :: mid₁ ++ c₂ :: mid₂ = calls at hthird ⊢
  have hcalls := hregular.run calls
  have hconfig := (sameConfig_run s calls).cooldownDuration
  obtain ⟨used, max, hreport⟩ := hcalls.report_of_tripped hthird
  rw [hconfig, hcooldown] at hreport
  obtain ⟨-, hp, hat⟩ := hcalls.violations_of_tripped hreport
  refine ⟨⟨used, max, hreport⟩, ?_, ?_⟩
  · intro c' hle
    have hstate : runState step s (calls ++ [c₃]) =
        ((runState step s calls).recordWeight c₃.now c₃.weight).2 := by
      rw [runState_append]
      rfl
    have hafter := hregular.run (calls ++ [c₃])
    have hlast := (sameConfig_run s (calls ++ [c₃])).cooldownDuration
    rw [← hstate] at hp hat
    unfold statusAfter
    by_cases hover : (runState step s (calls ++ [c₃])).WindowOver c'.now
    · exact recordWeight_of_windowOver hover
    · apply recordWeight_of_resume hover hp
      rw [hafter.shouldResume_iff hp hat, hlast, hcooldown]
      omega
  · intro hesc
    obtain ⟨used', max', hthree⟩ := hesc.report
    have heq := hreport.symm.trans hthree
    obtain ⟨-, -, hviolations, -⟩ := RateLimitStatus.tripped.inj heq
    exact absurd hviolations (by decide)

/-- Three trips in five seconds with a cooldown of a second, and a refused call between them. -/
theorem third_trip_not_extended_in_five_seconds :
    ThreeTrips (new 1000 8000 (10 ^ 9) 0) [] ⟨10 ^ 9, 900⟩ [⟨2 * 10 ^ 9, 900⟩] ⟨3 * 10 ^ 9, 900⟩
        [⟨3 * 10 ^ 9, 900⟩, ⟨4 * 10 ^ 9, 900⟩] ⟨5 * 10 ^ 9, 900⟩ ∧
      ¬ Escalated (new 1000 8000 (10 ^ 9) 0)
        [⟨10 ^ 9, 900⟩, ⟨2 * 10 ^ 9, 900⟩, ⟨3 * 10 ^ 9, 900⟩, ⟨3 * 10 ^ 9, 900⟩, ⟨4 * 10 ^ 9, 900⟩]
        ⟨5 * 10 ^ 9, 900⟩ [] := by
  have htrips : ThreeTrips (new 1000 8000 (10 ^ 9) 0) [] ⟨10 ^ 9, 900⟩ [⟨2 * 10 ^ 9, 900⟩]
      ⟨3 * 10 ^ 9, 900⟩ [⟨3 * 10 ^ 9, 900⟩, ⟨4 * 10 ^ 9, 900⟩] ⟨5 * 10 ^ 9, 900⟩ :=
    ⟨by decide, ⟨[], _, [], rfl, by decide, by decide, by decide⟩, by decide,
      ⟨[_], _, [], rfl, by decide, by decide, by decide⟩, by decide⟩
  exact ⟨htrips, (third_trip_not_extended _ _ _ _ _ _ _ _ _ _ [] htrips).2.2⟩

/-- Three trips in five seconds, the third of them answered with a single violation. -/
theorem third_trip_reports_one_violation :
    ¬ RepeatedTripsEscalate (new 1000 8000 (10 ^ 9) 0)
      [⟨10 ^ 9, 900⟩, ⟨2 * 10 ^ 9, 900⟩, ⟨3 * 10 ^ 9, 900⟩, ⟨4 * 10 ^ 9, 900⟩,
        ⟨5 * 10 ^ 9, 900⟩] := by
  intro h
  have hesc := h [] ⟨10 ^ 9, 900⟩ [⟨2 * 10 ^ 9, 900⟩] ⟨3 * 10 ^ 9, 900⟩ [⟨4 * 10 ^ 9, 900⟩]
    ⟨5 * 10 ^ 9, 900⟩ [] rfl
    ⟨by decide, ⟨[], _, [], rfl, by decide, by decide, by decide⟩, by decide,
      ⟨[], _, [], rfl, by decide, by decide, by decide⟩, by decide⟩
  obtain ⟨used, max, hreport⟩ := hesc.report
  have hfound : (new 1000 8000 (10 ^ 9) 0).statusAfter
      [⟨10 ^ 9, 900⟩, ⟨2 * 10 ^ 9, 900⟩, ⟨3 * 10 ^ 9, 900⟩, ⟨4 * 10 ^ 9, 900⟩] ⟨5 * 10 ^ 9, 900⟩ =
      .tripped 1800 1000 1 1000 := by
    decide
  obtain ⟨-, -, hviolations, -⟩ := RateLimitStatus.tripped.inj (hfound.symm.trans hreport)
  exact absurd hviolations (by decide)

end ExchangeRateState

end HftArb
