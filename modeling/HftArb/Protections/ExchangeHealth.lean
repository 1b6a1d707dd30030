import HftArb.Protections.RiskManager

/-!
# Pauses of exchanges

Failures of an exchange in a row pause it for some time.  A success starts the count again but does
not end a pause, and each further failure extends the pause.

The counters are kept in 256 slots, and an exchange uses the slot of its id modulo 256.
`isPaused_iff` says exactly when an exchange is paused, in terms of the events of its slot, and that
the events of other slots make no difference.  An exchange whose id is 256 or more shares the slot
of another one (`isPaused_of_failures_of_other`).
-/

namespace HftArb

/-- An interaction with an exchange that is recorded, a failure with the time at which it is. -/
inductive HealthEvent
  | failure (exchangeId : UInt16) (now : ℤ)
  | success (exchangeId : UInt16)
  deriving DecidableEq

namespace HealthEvent

/-- The exchange of an event. -/
def exchangeId : HealthEvent → UInt16
  | failure exchangeId _ => exchangeId
  | success exchangeId => exchangeId

/-- The time of a failure. -/
def time? : HealthEvent → Option ℤ
  | failure _ now => some now
  | success _ => none

/-- A failure of one of the exchanges. -/
def isFailureOf (mine : UInt16 → Bool) : HealthEvent → Bool
  | failure exchangeId _ => mine exchangeId
  | success _ => false

/-- A success of one of the exchanges. -/
def isSuccessOf (mine : UInt16 → Bool) : HealthEvent → Bool
  | failure _ _ => false
  | success exchangeId => mine exchangeId

end HealthEvent

namespace RiskManager

/-- Record an event. -/
def recordHealth (rm : RiskManager) : HealthEvent → RiskManager
  | .failure exchangeId now => rm.recordExchangeFailure now exchangeId
  | .success exchangeId => rm.recordExchangeSuccess exchangeId

/-- Record events one after the other. -/
def recordAll (rm : RiskManager) (events : List HealthEvent) : RiskManager :=
  events.foldl recordHealth rm

lemma recordAll_snoc (rm : RiskManager) (events : List HealthEvent) (event : HealthEvent) :
    rm.recordAll (events ++ [event]) = (rm.recordAll events).recordHealth event := by
  simp [recordAll]

/-- Events leave the threshold and the length of a pause. -/
lemma recordAll_config (rm : RiskManager) (events : List HealthEvent) :
    (rm.recordAll events).failureThreshold = rm.failureThreshold ∧
      (rm.recordAll events).pauseDurationMs = rm.pauseDurationMs := by
  induction events using List.reverseRecOn with
  | nil => exact ⟨rfl, rfl⟩
  | append_singleton events event ih =>
    rw [recordAll_snoc]
    cases event <;> exact ih

end RiskManager

/-! ## What the history says -/

/-- The failures of the exchanges since their last success. -/
def failuresSinceSuccess (mine : UInt16 → Bool) (events : List HealthEvent) : ℕ :=
  (events.reverse.takeWhile fun event => !event.isSuccessOf mine).countP
    (HealthEvent.isFailureOf mine)

/-- Some failure of the exchanges was at least the given one in a row, and its pause lasts beyond
the time `t`. -/
def PausedBy (mine : UInt16 → Bool) (threshold : UInt32) (pauseDurationMs : ℤ)
    (events : List HealthEvent) (t : ℤ) : Prop :=
  ∃ before exchangeId s after, events = before ++ .failure exchangeId s :: after ∧
    mine exchangeId = true ∧ t < s + pauseDurationMs ∧
    threshold.toNat ≤ failuresSinceSuccess mine (before ++ [.failure exchangeId s])

/-- Times of failures do not decrease, and none is later than `t`. -/
def TimesUpTo (events : List HealthEvent) (t : ℤ) : Prop :=
  (events.filterMap HealthEvent.time? ++ [t]).Pairwise (· ≤ ·)

/-- An exchange shares the health slot of another one: the ids agree modulo 256. -/
def sharesSlot (e exchangeId : UInt16) : Bool := decide (exchangeId.toNat % 256 = e.toNat % 256)

lemma idx_eq_iff (e exchangeId : UInt16) :
    ExchangeHealthTracker.idx exchangeId = ExchangeHealthTracker.idx e ↔
      sharesSlot e exchangeId = true := by
  unfold ExchangeHealthTracker.idx sharesSlot
  rw [Fin.ext_iff, decide_eq_true_eq]
  rfl

section History

variable {mine : UInt16 → Bool}

lemma failuresSinceSuccess_snoc (events : List HealthEvent) (event : HealthEvent) :
    failuresSinceSuccess mine (events ++ [event]) =
      if event.isSuccessOf mine then 0
      else failuresSinceSuccess mine events + if event.isFailureOf mine then 1 else 0 := by
  simp only [failuresSinceSuccess, List.reverse_append, List.reverse_singleton,
    List.singleton_append, List.takeWhile_cons]
  by_cases hsuccess : event.isSuccessOf mine = true
  · simp [hsuccess]
  · simp [hsuccess, List.countP_cons]

/-- A count of failures in a row is at most the number of failures. -/
lemma failuresSinceSuccess_le (events : List HealthEvent) :
    failuresSinceSuccess mine events ≤ events.countP (HealthEvent.isFailureOf mine) := by
  unfold failuresSinceSuccess
  refine ((List.takeWhile_sublist _).countP_le).trans ?_
  rw [List.countP_reverse]

/-- What one more event changes about a pause. -/
lemma pausedBy_snoc (threshold : UInt32) (pauseDurationMs : ℤ) (events : List HealthEvent)
    (event : HealthEvent) (t : ℤ) :
    PausedBy mine threshold pauseDurationMs (events ++ [event]) t ↔
      PausedBy mine threshold pauseDurationMs events t ∨
        ∃ exchangeId s, event = .failure exchangeId s ∧ mine exchangeId = true ∧
          t < s + pauseDurationMs ∧
          threshold.toNat ≤ failuresSinceSuccess mine (events ++ [event]) := by
  constructor
  · rintro ⟨before, exchangeId, s, after, heq, hmine, ht, hcount⟩
    rcases List.eq_nil_or_concat after with rfl | ⟨after, last, rfl⟩
    · obtain ⟨rfl, hlast⟩ := List.append_inj' heq rfl
      obtain rfl : event = .failure exchangeId s := by simpa using hlast
      exact Or.inr ⟨exchangeId, s, rfl, hmine, ht, hcount⟩
    · have hsplit : events ++ [event] =
          (before ++ .failure exchangeId s :: after) ++ [last] := by
        rw [heq]
        simp
      obtain ⟨rfl, -⟩ := List.append_inj' hsplit rfl
      exact Or.inl ⟨before, exchangeId, s, after, rfl, hmine, ht, hcount⟩
  · rintro (⟨before, exchangeId, s, after, rfl, hmine, ht, hcount⟩ |
      ⟨exchangeId, s, rfl, hmine, ht, hcount⟩)
    · exact ⟨before, exchangeId, s, after ++ [event], by simp, hmine, ht, hcount⟩
    · exact ⟨events, exchangeId, s, [], rfl, hmine, ht, hcount⟩

/-- A pause ends before the pause of any later failure would. -/
lemma PausedBy.lt_of_timesUpTo {threshold : UInt32} {pauseDurationMs : ℤ}
    {events : List HealthEvent} {s t : ℤ} (h : PausedBy mine threshold pauseDurationMs events t)
    (hs : TimesUpTo events s) : t < s + pauseDurationMs := by
  obtain ⟨before, exchangeId, s', after, rfl, -, ht, -⟩ := h
  have hle : s' ≤ s := by
    refine (List.pairwise_append.mp hs).2.2 s' ?_ s (List.mem_singleton_self s)
    rw [List.mem_filterMap]
    exact ⟨.failure exchangeId s', by simp, rfl⟩
  linarith

end History

/-- Times that do not decrease up to `t`, with the last event apart. -/
lemma timesUpTo_snoc {events : List HealthEvent} {event : HealthEvent} {t : ℤ}
    (h : TimesUpTo (events ++ [event]) t) :
    TimesUpTo events t ∧ ∀ exchangeId s, event = .failure exchangeId s → TimesUpTo events s := by
  unfold TimesUpTo at h ⊢
  rw [List.filterMap_append] at h
  constructor
  · refine h.sublist ?_
    exact (List.sublist_append_left _ _).append (List.Sublist.refl [t])
  · rintro exchangeId s rfl
    exact (List.pairwise_append.mp h).1

/-! ## The counters -/

/-- A saturating end of a pause is passed exactly when the exact one is. -/
lemma lt_satAddI64_iff {s p t : ℤ} (hs : 0 ≤ t) (ht : t < i64Max) :
    t < satAddI64 s p ↔ t < s + p := by
  unfold satAddI64 clampI64 i64Min i64Max at *
  omega

namespace ExchangeHealthTracker

variable (t : ExchangeHealthTracker)

lemma recordFailure_failureCounts (now : ℤ) (exchangeId e : UInt16) (threshold : UInt32)
    (pauseDurationMs : ℤ) :
    (t.recordFailure now exchangeId threshold pauseDurationMs).failureCounts (idx e) =
      if sharesSlot e exchangeId then t.failureCounts (idx e) + 1
      else t.failureCounts (idx e) := by
  by_cases hslot : idx exchangeId = idx e
  · simp [recordFailure, hslot, (idx_eq_iff e exchangeId).mp hslot]
  · have hother : ¬ sharesSlot e exchangeId = true := mt (idx_eq_iff e exchangeId).mpr hslot
    rw [if_neg hother]
    exact Function.update_of_ne (Ne.symm hslot) _ _

lemma recordFailure_pauseUntil (now : ℤ) (exchangeId e : UInt16) (threshold : UInt32)
    (pauseDurationMs : ℤ) :
    (t.recordFailure now exchangeId threshold pauseDurationMs).pauseUntil (idx e) =
      if sharesSlot e exchangeId ∧ threshold ≤ t.failureCounts (idx e) + 1 then
        satAddI64 now pauseDurationMs
      else t.pauseUntil (idx e) := by
  by_cases hslot : idx exchangeId = idx e
  · simp only [recordFailure, hslot, (idx_eq_iff e exchangeId).mp hslot, true_and]
    split_ifs <;> simp
  · have hother : ¬ sharesSlot e exchangeId = true := mt (idx_eq_iff e exchangeId).mpr hslot
    rw [if_neg fun h => hother h.1]
    simp only [recordFailure]
    split_ifs
    · exact Function.update_of_ne (Ne.symm hslot) _ _
    · rfl

lemma recordSuccess_failureCounts (exchangeId e : UInt16) :
    (t.recordSuccess exchangeId).failureCounts (idx e) =
      if sharesSlot e exchangeId then 0 else t.failureCounts (idx e) := by
  by_cases hslot : idx exchangeId = idx e
  · simp [recordSuccess, hslot, (idx_eq_iff e exchangeId).mp hslot]
  · have hother : ¬ sharesSlot e exchangeId = true := mt (idx_eq_iff e exchangeId).mpr hslot
    rw [if_neg hother]
    exact Function.update_of_ne (Ne.symm hslot) _ _

end ExchangeHealthTracker

/-- The number of failures of any exchange. -/
def failureCount (events : List HealthEvent) : ℕ :=
  events.countP (HealthEvent.isFailureOf fun _ => true)

lemma failureCount_snoc_lt {events : List HealthEvent} {event : HealthEvent} {n : ℕ}
    (h : failureCount (events ++ [event]) < n) : failureCount events < n :=
  ((List.sublist_append_left events [event]).countP_le).trans_lt h

/-- While failures are fewer than the words of a counter, a count in a row is a word. -/
lemma failuresSinceSuccess_lt {mine : UInt16 → Bool} {events : List HealthEvent} {n : ℕ}
    (h : failureCount events < n) : failuresSinceSuccess mine events < n := by
  refine ((failuresSinceSuccess_le events).trans ?_).trans_lt h
  refine List.countP_mono_left fun event _ hfailure => ?_
  cases event with
  | failure => rfl
  | success => exact hfailure

section Counters

variable (config : ValidatedRiskConfig) (start : ℤ) (e : UInt16)

/-- The counter of a slot is the number of its failures in a row. -/
lemma failureCounts_recordAll {events : List HealthEvent} (hcount : failureCount events < 2 ^ 32) :
    (((RiskManager.new config start).recordAll events).exchangeHealth.failureCounts
        (ExchangeHealthTracker.idx e)).toNat = failuresSinceSuccess (sharesSlot e) events := by
  induction events using List.reverseRecOn with
  | nil => rfl
  | append_singleton events event ih =>
    have hbefore := ih (failureCount_snoc_lt hcount)
    have hword : failuresSinceSuccess (sharesSlot e) (events ++ [event]) < 2 ^ 32 :=
      failuresSinceSuccess_lt hcount
    rw [RiskManager.recordAll_snoc]
    rw [failuresSinceSuccess_snoc] at hword ⊢
    cases event with
    | failure exchangeId now =>
      simp only [RiskManager.recordHealth, RiskManager.recordExchangeFailure,
        ExchangeHealthTracker.recordFailure_failureCounts, HealthEvent.isSuccessOf,
        HealthEvent.isFailureOf, Bool.false_eq_true, if_false] at hword ⊢
      by_cases hslot : sharesSlot e exchangeId = true
      · simp only [hslot, if_true] at hword ⊢
        rw [UInt32.toNat_add, hbefore]
        exact Nat.mod_eq_of_lt hword
      · simp only [hslot, if_false, add_zero, Bool.false_eq_true]
        exact hbefore
    | success exchangeId =>
      simp only [RiskManager.recordHealth, RiskManager.recordExchangeSuccess,
        ExchangeHealthTracker.recordSuccess_failureCounts, HealthEvent.isSuccessOf,
        HealthEvent.isFailureOf, Bool.false_eq_true, if_false, add_zero]
      split_ifs with hslot
      · rfl
      · exact hbefore

/-- The pause of a slot is the one its failures call for. -/
lemma lt_pauseUntil_recordAll_iff {events : List HealthEvent} {t : ℤ}
    (hcount : failureCount events < 2 ^ 32) (ht : 0 ≤ t) (htmax : t < i64Max)
    (htimes : TimesUpTo events t) :
    t < ((RiskManager.new config start).recordAll events).exchangeHealth.pauseUntil
        (ExchangeHealthTracker.idx e) ↔
      PausedBy (sharesSlot e) (RiskManager.new config start).failureThreshold
        (RiskManager.new config start).pauseDurationMs events t := by
  induction events using List.reverseRecOn with
  | nil =>
    refine iff_of_false (not_lt.mpr ht) ?_
    rintro ⟨before, exchangeId, s, after, heq, -⟩
    simp at heq
  | append_singleton events event ih =>
    obtain ⟨htimesBefore, hlast⟩ := timesUpTo_snoc htimes
    have hbefore := ih (failureCount_snoc_lt hcount) htimesBefore
    have hcounter := failureCounts_recordAll config start e hcount
    obtain ⟨hthreshold, hduration⟩ := (RiskManager.new config start).recordAll_config events
    rw [pausedBy_snoc, ← hcounter, ← hbefore, RiskManager.recordAll_snoc]
    cases event with
    | success exchangeId =>
      simp only [reduceCtorEq, false_and, exists_false, or_false]
      rfl
    | failure exchangeId now =>
      simp only [RiskManager.recordHealth, RiskManager.recordExchangeFailure, hthreshold,
        hduration, ExchangeHealthTracker.recordFailure_failureCounts,
        ExchangeHealthTracker.recordFailure_pauseUntil, HealthEvent.failure.injEq]
      by_cases hpauses : sharesSlot e exchangeId = true ∧
          (RiskManager.new config start).failureThreshold ≤
            ((RiskManager.new config start).recordAll events).exchangeHealth.failureCounts
              (ExchangeHealthTracker.idx e) + 1
      · -- The new pause ends no earlier than the old one: the clock does not go back.
        rw [if_pos hpauses, if_pos hpauses.1, lt_satAddI64_iff ht htmax]
        constructor
        · intro hlt
          exact Or.inr ⟨exchangeId, now, ⟨rfl, rfl⟩, hpauses.1, hlt, hpauses.2⟩
        · rintro (hold | ⟨_, _, ⟨rfl, rfl⟩, -, hlt, -⟩)
          · exact (hbefore.mp hold).lt_of_timesUpTo (hlast exchangeId now rfl)
          · exact hlt
      · rw [if_neg hpauses]
        refine (or_iff_left ?_).symm
        rintro ⟨_, _, ⟨rfl, rfl⟩, hmine, -, hreached⟩
        rw [if_pos hmine] at hreached
        exact hpauses ⟨hmine, hreached⟩

/-- Events of other slots leave the counters of a slot. -/
lemma recordAll_filter (events : List HealthEvent) :
    let health := ((RiskManager.new config start).recordAll events).exchangeHealth
    let healthOfSlot := ((RiskManager.new config start).recordAll
      (events.filter fun event => sharesSlot e event.exchangeId)).exchangeHealth
    health.failureCounts (ExchangeHealthTracker.idx e) =
        healthOfSlot.failureCounts (ExchangeHealthTracker.idx e) ∧
      health.pauseUntil (ExchangeHealthTracker.idx e) =
        healthOfSlot.pauseUntil (ExchangeHealthTracker.idx e) := by
  induction events using List.reverseRecOn with
  | nil => exact ⟨rfl, rfl⟩
  | append_singleton events event ih =>
    obtain ⟨hcounts, hpause⟩ := ih
    obtain ⟨hthreshold, hduration⟩ := (RiskManager.new config start).recordAll_config events
    obtain ⟨hthreshold', hduration'⟩ := (RiskManager.new config start).recordAll_config
      (events.filter fun event => sharesSlot e event.exchangeId)
    rw [List.filter_append, List.filter_singleton]
    by_cases hslot : sharesSlot e event.exchangeId = true
    · rw [hslot, cond_true, RiskManager.recordAll_snoc, RiskManager.recordAll_snoc]
      cases event with
      | failure exchangeId now =>
        simp only [RiskManager.recordHealth, RiskManager.recordExchangeFailure, hthreshold,
          hduration, hthreshold', hduration', ExchangeHealthTracker.recordFailure_failureCounts,
          ExchangeHealthTracker.recordFailure_pauseUntil, hcounts, hpause, and_self]
      | success exchangeId =>
        simp only [RiskManager.recordHealth, RiskManager.recordExchangeSuccess,
          ExchangeHealthTracker.recordSuccess_failureCounts, hcounts, true_and]
        exact hpause
    · rw [Bool.not_eq_true] at hslot
      rw [hslot, cond_false, List.append_nil, RiskManager.recordAll_snoc]
      cases event with
      | failure exchangeId now =>
        change sharesSlot e exchangeId = false at hslot
        simp only [RiskManager.recordHealth, RiskManager.recordExchangeFailure,
          ExchangeHealthTracker.recordFailure_failureCounts,
          ExchangeHealthTracker.recordFailure_pauseUntil, hslot, Bool.false_eq_true, if_false,
          false_and]
        exact ⟨hcounts, hpause⟩
      | success exchangeId =>
        change sharesSlot e exchangeId = false at hslot
        simp only [RiskManager.recordHealth, RiskManager.recordExchangeSuccess,
          ExchangeHealthTracker.recordSuccess_failureCounts, hslot, Bool.false_eq_true, if_false]
        exact ⟨hcounts, hpause⟩

end Counters

/-- An exchange is paused at a time exactly when some failure of its slot called for a pause beyond
it, by being at least the threshold-th in a row; and events of other slots do not change it. -/
theorem isPaused_iff (config : ValidatedRiskConfig) (start : ℤ) (e : UInt16)
    (events : List HealthEvent) (t : ℤ) (hcount : failureCount events < 2 ^ 32) (ht : 0 ≤ t)
    (htmax : t < i64Max) (htimes : TimesUpTo events t) :
    let rm := RiskManager.new config start
    ((rm.recordAll events).exchangeHealth.isPaused t e = true ↔
        PausedBy (sharesSlot e) rm.failureThreshold rm.pauseDurationMs events t) ∧
      (rm.recordAll events).exchangeHealth.isPaused t e =
        (rm.recordAll (events.filter fun event =>
          sharesSlot e event.exchangeId)).exchangeHealth.isPaused t e := by
  intro rm
  refine ⟨?_, ?_⟩
  · rw [← lt_pauseUntil_recordAll_iff config start e hcount ht htmax htimes]
    exact decide_eq_true_iff
  · unfold ExchangeHealthTracker.isPaused
    rw [(recordAll_filter config start e events).2]

/-- Three failures in a row pause exchange 5, whatever happens to exchange 6 in between. -/
def interleavedFailures : List HealthEvent :=
  [.failure 5 1000, .failure 6 1000, .failure 5 2000, .success 6, .failure 5 3000]

theorem isPaused_iff_interleavedFailures :
    PausedBy (sharesSlot 5) (RiskManager.new testRiskConfig 0).failureThreshold
        (RiskManager.new testRiskConfig 0).pauseDurationMs interleavedFailures 20000 ∧
      ((RiskManager.new testRiskConfig 0).recordAll
        (interleavedFailures.filter fun event =>
          sharesSlot 5 event.exchangeId)).exchangeHealth.isPaused 20000 5 = true := by
  have hpaused : ((RiskManager.new testRiskConfig 0).recordAll
      interleavedFailures).exchangeHealth.isPaused 20000 5 = true := by decide +kernel
  have hspec := isPaused_iff testRiskConfig 0 5 interleavedFailures 20000 (by decide) (by decide)
    (by decide) (by unfold TimesUpTo; decide)
  exact ⟨hspec.1.mp hpaused, hspec.2.symm.trans hpaused⟩

/-- Three failures of exchange 256. -/
def failuresOfOther : List HealthEvent := [.failure 256 1000, .failure 256 2000, .failure 256 3000]

/-- Three failures of exchange 256 pause exchange 0, which has no failure. -/
theorem isPaused_of_failures_of_other :
    TimesUpTo failuresOfOther 20000 ∧ failureCount failuresOfOther < 2 ^ 32 ∧
      ((RiskManager.new testRiskConfig 0).recordAll failuresOfOther).exchangeHealth.isPaused
        20000 0 = true ∧
      ¬ PausedBy (fun exchangeId => exchangeId == 0)
        (RiskManager.new testRiskConfig 0).failureThreshold
        (RiskManager.new testRiskConfig 0).pauseDurationMs failuresOfOther 20000 := by
  refine ⟨by unfold TimesUpTo; decide, by decide, by decide +kernel, ?_⟩
  rintro ⟨before, exchangeId, s, after, heq, hmine, -⟩
  have hmem : HealthEvent.failure exchangeId s ∈ failuresOfOther := by simp [heq]
  have hid : exchangeId = 256 := by
    simp only [failuresOfOther, List.mem_cons, HealthEvent.failure.injEq, List.not_mem_nil,
      or_false] at hmem
    rcases hmem with ⟨h, -⟩ | ⟨h, -⟩ | ⟨h, -⟩ <;> exact h
  rw [hid] at hmine
  exact absurd hmine (by decide)

end HftArb
