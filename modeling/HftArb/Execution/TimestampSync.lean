import Mathlib.Data.List.Sort
import HftArb.Foundations.Interleaving

/-!
# Clock offsets of an exchange

`timestamp_sync.rs` estimates the offset between the local clock and the clock of an exchange.
Three samples complete a measurement, whose median replaces the stored offset unless it jumps by
more than `max_drift_ms` or lies beyond `max_drift_fatal_ms`.  Request timestamps are the local
clock plus the stored offset, at least 1 and never below an earlier one.  Times and offsets are
64-bit integers with the wrapping arithmetic of the release build.

A measurement beyond the fatal limit is not stored, so `is_within_bounds`, which looks at the
stored offset, does not see it (`stopsTrading_iff`).  The accesses of concurrent calls to the
offset are apart: the jump is measured from the offset that was loaded, and is the jump of the
stored offset only if no other call stores in between (`clockRun_of_unraced`).
-/

namespace HftArb

open Runs Interleaving

/-! ## 64-bit arithmetic -/

lemma toInt_abs {a : Int64} (h : a ≠ Int64.minValue) : a.abs.toInt = |a.toInt| := by
  have hne : a.toBitVec ≠ BitVec.intMin 64 := fun heq => h (Int64.toBitVec_inj.mp heq)
  rw [Int.abs_eq_natAbs]
  exact BitVec.toInt_abs_eq_natAbs_of_ne_intMin hne

lemma abs_minValue : Int64.minValue.abs = Int64.minValue := by decide

lemma int64_abs_zero : (0 : Int64).abs = 0 := by decide

lemma minValue_le (a : Int64) : Int64.minValue ≤ a := by
  rw [Int64.le_iff_toInt_le, Int64.toInt_minValue]
  exact a.le_toInt

/-- A difference that fits does not wrap. -/
lemma toInt_sub_of_fits {a b : Int64} (h : |a.toInt - b.toInt| < 2 ^ 63) :
    (a - b).toInt = a.toInt - b.toInt := by
  obtain ⟨hlow, hhigh⟩ := abs_lt.mp h
  rw [Int64.toInt_sub]
  apply Int.bmod_eq_of_le
  · norm_num at hlow ⊢
    omega
  · norm_num at hhigh ⊢
    omega

/-! ## The synchronizer -/

/-- The limits of a synchronizer. -/
structure SyncSettings where
  maxDriftFatalMs : Int64
  maxDriftMs : Int64

/-- The stored offset, the samples of the measurement under way and the last timestamp returned. -/
structure TimestampSynchronizer where
  offsetMs : Int64
  sampleBuffer : List Int64
  lastReturnedMs : Int64

/-- `DEFAULT_MAX_DRIFT_MS`. -/
def defaultMaxDriftMs : Int64 := 5000

/-- `DEFAULT_SAMPLES_REQUIRED`. -/
def samplesRequired : ℕ := 3

/-- The limits of `with_defaults`. -/
def SyncSettings.withDefaults : SyncSettings :=
  { maxDriftFatalMs := defaultMaxDriftMs, maxDriftMs := defaultMaxDriftMs }

/-- The median of the collected samples; of an even number, the mean of the middle two. -/
def medianOffset (buf : List Int64) : Int64 :=
  let sorted := buf.insertionSort (· ≤ ·)
  let mid := sorted.length / 2
  if sorted.length % 2 = 0 then
    let a := sorted.getD (mid - 1) 0
    let b := sorted.getD mid 0
    a / 2 + b / 2 + (a % 2 + b % 2) / 2
  else sorted.getD mid 0

/-- Add a sample to the buffer; enough samples give their median and empty the buffer. -/
def collectSample (buf : List Int64) (offset : Int64) : List Int64 × Option Int64 :=
  if (buf ++ [offset]).length < samplesRequired then (buf ++ [offset], none)
  else ([], some (medianOffset (buf ++ [offset])))

namespace TimestampSynchronizer

/-- A synchronizer without samples. -/
def new : TimestampSynchronizer :=
  { offsetMs := 0, sampleBuffer := [], lastReturnedMs := Int64.minValue }

variable (cfg : SyncSettings)

/-- The median passes the jump limit, measured from the current offset, and the fatal limit. -/
def Admits (current median : Int64) : Prop :=
  ¬ cfg.maxDriftMs < (median - current).abs ∧ ¬ cfg.maxDriftFatalMs < median.abs

instance (current median : Int64) : Decidable (Admits cfg current median) :=
  inferInstanceAs (Decidable (_ ∧ _))

/-- The offset after a measurement. -/
def storeMedian (current median : Int64) : Int64 :=
  if Admits cfg current median then median else current

/-- Take in a sample of the offset. -/
def addSample (s : TimestampSynchronizer) (offset : Int64) : TimestampSynchronizer :=
  match collectSample s.sampleBuffer offset with
  | (buf, none) => { s with sampleBuffer := buf }
  | (buf, some median) =>
    { s with sampleBuffer := buf, offsetMs := storeMedian cfg s.offsetMs median }

/-- Take in a server time, read at a local time, by a call that runs alone. -/
def updateOffset (s : TimestampSynchronizer) (serverTimeMs localMs : Int64) :
    TimestampSynchronizer :=
  s.addSample cfg (serverTimeMs - localMs)

/-- The stored offset is within the fatal limit. -/
def isWithinBounds (s : TimestampSynchronizer) : Bool := s.offsetMs.abs ≤ cfg.maxDriftFatalMs

/-! ## The fatal limit over a run -/

/-- The medians of the measurements that a list of offset samples completes. -/
def medians : List Int64 → List Int64
  | a :: b :: c :: rest => medianOffset [a, b, c] :: medians rest
  | _ => []

/-- The offsets that a list of server times with the local times measures. -/
def offsets (times : List (Int64 × Int64)) : List Int64 := times.map fun t => t.1 - t.2

/-- The synchronizer after a list of server times with the local times. -/
def afterUpdates (times : List (Int64 × Int64)) : TimestampSynchronizer :=
  times.foldl (fun s t => s.updateOffset cfg t.1 t.2) new

/-- A measurement beyond the fatal limit. -/
def Fatal (median : Int64) : Prop := cfg.maxDriftFatalMs.toInt < |median.toInt|

/-- From a measurement beyond the fatal limit until one within it, trading is refused. -/
def StopsTrading (times : List (Int64 × Int64)) : Prop :=
  ∀ before after, times = before ++ after →
    ∀ first median later, medians (offsets before) = first ++ median :: later →
      Fatal cfg median → (∀ m ∈ later, Fatal cfg m) →
        (afterUpdates cfg before).isWithinBounds cfg = false

/-- Three samples are one measurement. -/
lemma addSample_three {s : TimestampSynchronizer} (h : s.sampleBuffer = []) (a b c : Int64) :
    ((s.addSample cfg a).addSample cfg b).addSample cfg c =
      { s with offsetMs := storeMedian cfg s.offsetMs (medianOffset [a, b, c]) } := by
  obtain ⟨offset, buf, last⟩ := s
  subst h
  rfl

/-- The stored offset after samples is the result of their measurements. -/
lemma foldl_addSample_offsetMs (samples : List Int64) {s : TimestampSynchronizer}
    (h : s.sampleBuffer = []) :
    (samples.foldl (addSample cfg) s).offsetMs =
      (medians samples).foldl (storeMedian cfg) s.offsetMs := by
  induction samples using medians.induct generalizing s with
  | case1 a b c rest ih =>
    rw [List.foldl_cons, List.foldl_cons, List.foldl_cons, addSample_three cfg h, medians,
      List.foldl_cons]
    exact ih h
  | case2 samples hfew =>
    obtain ⟨offset, buf, last⟩ := s
    subst h
    cases samples with
    | nil => rfl
    | cons a samples =>
      cases samples with
      | nil => rfl
      | cons b samples =>
        cases samples with
        | nil => rfl
        | cons c rest => exact absurd rfl (hfew a b c rest)

lemma afterUpdates_offsetMs (times : List (Int64 × Int64)) :
    (afterUpdates cfg times).offsetMs = (medians (offsets times)).foldl (storeMedian cfg) 0 := by
  have hfold := foldl_addSample_offsetMs cfg (offsets times) (s := new) rfl
  rw [offsets, List.foldl_map] at hfold
  exact hfold

/-- Without three samples there is no measurement. -/
lemma medians_of_few {samples : List Int64}
    (hfew : ∀ a b c rest, samples = a :: b :: c :: rest → False) : medians samples = [] := by
  rw [medians]
  exact hfew

lemma medians_prefix_append (samples more : List Int64) :
    medians samples <+: medians (samples ++ more) := by
  induction samples using medians.induct with
  | case1 a b c rest ih => exact (List.prefix_cons_inj _).mpr ih
  | case2 samples hfew =>
    rw [medians_of_few hfew]
    exact List.nil_prefix

/-- The first measurements are those of the first samples. -/
lemma medians_take (samples : List Int64) (k : ℕ) :
    medians (samples.take (3 * k)) = (medians samples).take k := by
  induction samples using medians.induct generalizing k with
  | case1 a b c rest ih =>
    cases k with
    | zero => rfl
    | succ k =>
      have htake : (a :: b :: c :: rest).take (3 * (k + 1)) =
          a :: b :: c :: rest.take (3 * k) := rfl
      rw [htake, medians, medians, ih, List.take_succ_cons]
  | case2 samples hfew =>
    rw [medians_of_few hfew, List.take_nil]
    apply medians_of_few
    intro a b c rest heq
    have hsplit := List.take_append_drop (3 * k) samples
    rw [heq] at hsplit
    exact hfew a b c (rest ++ samples.drop (3 * k)) hsplit.symm

/-! ### Limits that are not negative -/

section Nonnegative

variable {cfg} {current : Int64}

/-- The stored offset stays within the fatal limit. -/
lemma foldl_storeMedian_within (h : current.abs ≤ cfg.maxDriftFatalMs) (ms : List Int64) :
    (ms.foldl (storeMedian cfg) current).abs ≤ cfg.maxDriftFatalMs := by
  induction ms generalizing current with
  | nil => exact h
  | cons m ms ih =>
    apply ih
    rw [storeMedian]
    split
    next hadmits => exact Int64.not_lt.mp hadmits.2
    next => exact h

lemma isWithinBounds_afterUpdates (h : 0 ≤ cfg.maxDriftFatalMs) (times : List (Int64 × Int64)) :
    (afterUpdates cfg times).isWithinBounds cfg = true := by
  rw [isWithinBounds, afterUpdates_offsetMs, decide_eq_true_eq]
  exact foldl_storeMedian_within (int64_abs_zero.symm ▸ h) _

end Nonnegative

/-! ### Negative limits -/

lemma storeMedian_zero_minValue : storeMedian cfg 0 Int64.minValue = Int64.minValue := by
  have habs : (Int64.minValue - 0).abs = Int64.minValue := by decide
  rw [storeMedian, if_pos]
  refine ⟨?_, ?_⟩
  · rw [habs]
    exact Int64.not_lt.mpr (minValue_le _)
  · rw [abs_minValue]
    exact Int64.not_lt.mpr (minValue_le _)

section Negative

variable {cfg} (hneg : cfg.maxDriftFatalMs < 0)

include hneg

lemma fatal_of_neg (m : Int64) : Fatal cfg m := by
  have hlt : cfg.maxDriftFatalMs.toInt < 0 := Int64.lt_iff_toInt_lt.mp hneg
  exact hlt.trans_le (abs_nonneg _)

/-- Only the smallest integer, whose absolute value wraps, passes a negative limit. -/
lemma storeMedian_of_neg {current m : Int64} (hm : m ≠ Int64.minValue) :
    storeMedian cfg current m = current := by
  rw [storeMedian, if_neg]
  rintro ⟨-, hfatal⟩
  apply hfatal
  rw [Int64.lt_iff_toInt_lt, toInt_abs hm]
  exact fatal_of_neg hneg m

lemma foldl_storeMedian_minValue (ms : List Int64) :
    ms.foldl (storeMedian cfg) Int64.minValue = Int64.minValue := by
  induction ms with
  | nil => rfl
  | cons m ms ih =>
    have hstep : storeMedian cfg Int64.minValue m = Int64.minValue := by
      by_cases hm : m = Int64.minValue
      · rw [hm, storeMedian, ite_self]
      · exact storeMedian_of_neg hneg hm
    rw [List.foldl_cons, hstep, ih]

/-- Under a negative limit the offset stays zero until the smallest integer is measured. -/
lemma foldl_storeMedian_zero (ms : List Int64) :
    ms.foldl (storeMedian cfg) 0 = if Int64.minValue ∈ ms then Int64.minValue else 0 := by
  induction ms with
  | nil => rfl
  | cons m ms ih =>
    rw [List.foldl_cons]
    by_cases hm : m = Int64.minValue
    · rw [hm, storeMedian_zero_minValue cfg, foldl_storeMedian_minValue hneg,
        if_pos List.mem_cons_self]
    · rw [storeMedian_of_neg hneg hm, ih]
      simp [Ne.symm hm]

lemma isWithinBounds_of_neg (times : List (Int64 × Int64)) :
    (afterUpdates cfg times).isWithinBounds cfg = true ↔
      Int64.minValue ∈ medians (offsets times) := by
  rw [isWithinBounds, afterUpdates_offsetMs, foldl_storeMedian_zero hneg, decide_eq_true_eq]
  by_cases hmem : Int64.minValue ∈ medians (offsets times)
  · rw [if_pos hmem, abs_minValue]
    exact iff_of_true (minValue_le _) hmem
  · rw [if_neg hmem]
    refine iff_of_false ?_ hmem
    rw [int64_abs_zero]
    exact Int64.not_le.mpr hneg

end Negative

/-- **Drift beyond the fatal limit stops trading exactly when there is none.**  With a limit that
is not negative a measurement beyond it must never be made; with a negative limit everything is
beyond it, and trading is refused unless the smallest integer is measured. -/
theorem stopsTrading_iff (times : List (Int64 × Int64)) :
    StopsTrading cfg times ↔
      (∀ m ∈ medians (offsets times), ¬ Fatal cfg m) ∨
        cfg.maxDriftFatalMs < 0 ∧ Int64.minValue ∉ medians (offsets times) := by
  have hsub : ∀ before after, times = before ++ after →
      medians (offsets before) ⊆ medians (offsets times) := by
    rintro before after rfl
    rw [offsets, offsets, List.map_append]
    exact (medians_prefix_append _ _).subset
  constructor
  · intro h
    by_cases hneg : cfg.maxDriftFatalMs < 0
    · refine Or.inr ⟨hneg, fun hmem => ?_⟩
      obtain ⟨first, later, hsplit⟩ := List.append_of_mem hmem
      have hfalse := h times [] (List.append_nil _).symm first _ later hsplit
        (fatal_of_neg hneg _) fun m _ => fatal_of_neg hneg m
      exact absurd ((isWithinBounds_of_neg hneg times).mpr hmem) (by rw [hfalse]; simp)
    · refine Or.inl fun m hm hfatal => ?_
      obtain ⟨first, later, hsplit⟩ := List.append_of_mem hm
      -- the samples up to the measurement
      have hbefore : medians (offsets (times.take (3 * (first.length + 1)))) = first ++ [m] := by
        rw [offsets, List.map_take, ← offsets, medians_take, hsplit, List.take_append]
        simp
      have hfalse := h _ _ (List.take_append_drop _ times).symm first m [] hbefore hfatal (by simp)
      rw [isWithinBounds_afterUpdates (Int64.not_lt.mp hneg)] at hfalse
      exact absurd hfalse (by simp)
  · rintro (hnone | ⟨hneg, hmin⟩) before after heq first m later hsplit hfatal -
    · have hm : m ∈ medians (offsets before) := by rw [hsplit]; simp
      exact absurd hfatal (hnone m (hsub before after heq hm))
    · rw [← Bool.not_eq_true, isWithinBounds_of_neg hneg]
      exact fun hmem => hmin (hsub before after heq hmem)

/-- Three samples four seconds ahead, with a fatal limit of three. -/
theorem fatalDrift_not_stopped :
    ¬ StopsTrading { maxDriftFatalMs := 3000, maxDriftMs := defaultMaxDriftMs }
      [(4000, 0), (4000, 0), (4000, 0)] := by
  intro h
  have hmedians : medians (offsets [(4000, 0), (4000, 0), (4000, 0)]) = [] ++ [4000] := by decide
  have hfatal : Fatal { maxDriftFatalMs := 3000, maxDriftMs := defaultMaxDriftMs } 4000 := by
    rw [Fatal]
    decide
  have hstopped := h _ [] (List.append_nil _).symm [] 4000 [] hmedians hfatal (by simp)
  exact absurd hstopped (by decide)

/-! ## Concurrent calls -/

/-- A call with the local time it reads. -/
inductive Call
  | updateOffset (serverTimeMs localMs : Int64)
  | adjustedTimestampMs (localMs : Int64)

/-- A call under way, at its next access: to the sample buffer, to load and to store the offset for
a median, to load the offset for a timestamp, and to load and exchange the last timestamp. -/
inductive Op
  | sample (offset : Int64)
  | loadCurrent (median : Int64)
  | store (median current : Int64)
  | loadOffset (localMs : Int64)
  | loadLast (floored : Int64)
  | exchangeLast (floored prev : Int64)

/-- What happens in a run: samples complete a batch, and a timestamp is returned. -/
inductive Event
  | completed (batch : List Int64)
  | returned (timestampMs : Int64)

/-- What a call does before its first access. -/
def enter : Call → Option Op × List Event
  | .updateOffset serverTimeMs localMs => (some (.sample (serverTimeMs - localMs)), [])
  | .adjustedTimestampMs localMs => (some (.loadOffset localMs), [])

/-- One access.  The sample buffer is used under its lock; a weak exchange may fail although the
word is as expected. -/
def access (s : TimestampSynchronizer) (spurious : Bool) :
    Op → Outcome TimestampSynchronizer Op Event
  | .sample offset =>
    match collectSample s.sampleBuffer offset with
    | (buf, none) => ⟨{ s with sampleBuffer := buf }, none, []⟩
    | (buf, some median) =>
      ⟨{ s with sampleBuffer := buf }, some (.loadCurrent median),
        [.completed (s.sampleBuffer ++ [offset])]⟩
  | .loadCurrent median =>
    if Admits cfg s.offsetMs median then ⟨s, some (.store median s.offsetMs), []⟩
    else ⟨s, none, []⟩
  | .store median _ => ⟨{ s with offsetMs := median }, none, []⟩
  | .loadOffset localMs => ⟨s, some (.loadLast (max (localMs + s.offsetMs) 1)), []⟩
  | .loadLast floored =>
    if max floored s.lastReturnedMs = s.lastReturnedMs then
      ⟨s, none, [.returned s.lastReturnedMs]⟩
    else ⟨s, some (.exchangeLast floored s.lastReturnedMs), []⟩
  | .exchangeLast floored prev =>
    if s.lastReturnedMs = prev ∧ spurious = false then
      ⟨{ s with lastReturnedMs := max floored prev }, none, [.returned (max floored prev)]⟩
    else ⟨s, some (.loadLast floored), []⟩

/-- The calls on one synchronizer. -/
def syncSystem : System TimestampSynchronizer Call Op Bool Event where
  enter := enter
  access := access cfg

/-- The state after some steps of calls on a new synchronizer. -/
def stateAfter (actions : List (Action Call Bool)) : State TimestampSynchronizer Op :=
  runState (step (syncSystem cfg)) ⟨new, []⟩ actions

/-- The events of some steps of calls on a new synchronizer. -/
def eventsOf (actions : List (Action Call Bool)) : List Event :=
  runTrace (step (syncSystem cfg)) ⟨new, []⟩ actions

/-- The timestamp an event returns. -/
def Event.returned? : Event → Option Int64
  | .returned timestampMs => some timestampMs
  | .completed _ => none

/-- The timestamps returned, in the order of the accesses that decide them. -/
def timestamps (events : List Event) : List Int64 := events.filterMap Event.returned?

/-- A value lies between two samples. -/
def Between (m a b : Int64) : Prop :=
  min a.toInt b.toInt ≤ m.toInt ∧ m.toInt ≤ max a.toInt b.toInt

/-- A value is the middle one of three samples. -/
structure Middle (m a b c : Int64) : Prop where
  sample : m = a ∨ m = b ∨ m = c
  between_ab : Between m a b
  between_ac : Between m a c
  between_bc : Between m b c

/-- The clock of a run is sound. -/
structure ClockRun (actions : List (Action Call Bool)) : Prop where
  positive : ∀ t ∈ timestamps (eventsOf cfg actions), 1 ≤ t.toInt
  monotone : (timestamps (eventsOf cfg actions)).Pairwise fun t t' => t.toInt ≤ t'.toInt
  offset_change : ∀ before a after, actions = before ++ a :: after →
    ∀ old new, old = (stateAfter cfg before).shared.offsetMs →
      new = (stateAfter cfg (before ++ [a])).shared.offsetMs → new ≠ old →
      (∃ x y z, Event.completed [x, y, z] ∈ eventsOf cfg before ∧ Middle new x y z) ∧
        |new.toInt - old.toInt| ≤ cfg.maxDriftMs.toInt
  offset_bound : ∀ before after, actions = before ++ after →
    |(stateAfter cfg before).shared.offsetMs.toInt| ≤ cfg.maxDriftFatalMs.toInt

/-- The difference and the absolute values of the check of a median do not overflow. -/
def Op.Fits (s : TimestampSynchronizer) : Op → Prop
  | .loadCurrent median =>
    median ≠ Int64.minValue ∧ |median.toInt - s.offsetMs.toInt| < 2 ^ 63
  | _ => True

/-- A store finds the offset from which its jump was measured. -/
def Op.Fresh (s : TimestampSynchronizer) : Op → Prop
  | .store _ current => s.offsetMs = current
  | _ => True

instance (s : TimestampSynchronizer) : DecidablePred (Op.Fits s)
  | .loadCurrent median =>
    inferInstanceAs (Decidable (median ≠ Int64.minValue ∧
      |median.toInt - s.offsetMs.toInt| < 2 ^ 63))
  | .sample _ | .store _ _ | .loadOffset _ | .loadLast _ | .exchangeLast _ _ => .isTrue trivial

instance (s : TimestampSynchronizer) : DecidablePred (Op.Fresh s)
  | .store _ current => inferInstanceAs (Decidable (s.offsetMs = current))
  | .sample _ | .loadCurrent _ | .loadOffset _ | .loadLast _ | .exchangeLast _ _ => .isTrue trivial

/-- A call of `update_offset` that makes its accesses alone is the sequential function. -/
lemma updateOffset_alone (s : TimestampSynchronizer) (serverTimeMs localMs : Int64) :
    runState (step (syncSystem cfg)) ⟨s, []⟩ [.enter (.updateOffset serverTimeMs localMs),
      .access 0 false, .access 0 false, .access 0 false] =
        ⟨s.updateOffset cfg serverTimeMs localMs, []⟩ := by
  rw [updateOffset, addSample]
  simp only [runState_cons, runState_nil, step, syncSystem, enter, Option.toList_some,
    List.nil_append, List.getElem?_cons_zero, access]
  generalize hsample : collectSample s.sampleBuffer (serverTimeMs - localMs) = result
  obtain ⟨buf, median⟩ := result
  cases median with
  | none => rfl
  | some median =>
    by_cases hadmits : Admits cfg s.offsetMs median
    · simp [proceed, hadmits, storeMedian]
    · simp [proceed, hadmits, storeMedian]

/-! ### The middle sample -/

/-- The median of three samples, by comparisons. -/
lemma medianOffset_three (a b c : Int64) :
    medianOffset [a, b, c] =
      if b ≤ c then if a ≤ b then b else if a ≤ c then a else c
      else if a ≤ c then c else if a ≤ b then a else b := by
  simp only [medianOffset, List.insertionSort, List.foldr, List.orderedInsert]
  by_cases hbc : b ≤ c
  · by_cases hab : a ≤ b
    · simp [hbc, hab]
    · by_cases hac : a ≤ c
      · simp [hbc, hab, hac]
      · simp [hbc, hab, hac]
  · by_cases hac : a ≤ c
    · simp [hbc, hac]
    · by_cases hab : a ≤ b
      · simp [hbc, hac, hab]
      · simp [hbc, hac, hab]

lemma middle_medianOffset (a b c : Int64) : Middle (medianOffset [a, b, c]) a b c := by
  rw [medianOffset_three]
  simp only [Int64.le_iff_toInt_le]
  constructor
  · split_ifs
    all_goals simp
  · rw [Between]
    split_ifs
    all_goals omega
  · rw [Between]
    split_ifs
    all_goals omega
  · rw [Between]
    split_ifs
    all_goals omega

/-! ### One step -/

/-- A median is the middle of a batch of three that was completed. -/
def FromBatch (events : List Event) (median : Int64) : Prop :=
  ∃ x y z, Event.completed [x, y, z] ∈ events ∧ Middle median x y z

/-- What a call under way has computed so far. -/
def OpSound (events : List Event) : Op → Prop
  | .loadCurrent median => FromBatch events median
  | .store median current =>
    FromBatch events median ∧ |median.toInt - current.toInt| ≤ cfg.maxDriftMs.toInt ∧
      |median.toInt| ≤ cfg.maxDriftFatalMs.toInt
  | .loadLast floored => 1 ≤ floored.toInt
  | .exchangeLast floored _ => 1 ≤ floored.toInt
  | _ => True

/-- The synchronizer after some events. -/
structure SharedSound (s : TimestampSynchronizer) (events : List Event) : Prop where
  buffer : s.sampleBuffer.length < samplesRequired
  offset : |s.offsetMs.toInt| ≤ cfg.maxDriftFatalMs.toInt
  positive : ∀ t ∈ timestamps events, 1 ≤ t.toInt
  monotone : (timestamps events).Pairwise fun t t' => t.toInt ≤ t'.toInt
  last : ∀ t ∈ timestamps events, t.toInt ≤ s.lastReturnedMs.toInt

/-- The synchronizer and the calls under way after some events. -/
structure Sound (s : State TimestampSynchronizer Op) (events : List Event) : Prop where
  shared : SharedSound cfg s.shared events
  ops : ∀ op ∈ s.inFlight, OpSound cfg events op

variable {cfg} {events : List Event}

lemma FromBatch.append {median : Int64} (h : FromBatch events median) (more : List Event) :
    FromBatch (events ++ more) median := by
  obtain ⟨x, y, z, hmem, hmiddle⟩ := h
  exact ⟨x, y, z, List.mem_append_left _ hmem, hmiddle⟩

lemma OpSound.append {op : Op} (h : OpSound cfg events op) (more : List Event) :
    OpSound cfg (events ++ more) op := by
  cases op with
  | loadCurrent median => exact FromBatch.append h more
  | store median current => exact ⟨h.1.append more, h.2⟩
  | sample offset => trivial
  | loadOffset localMs => trivial
  | loadLast floored => exact h
  | exchangeLast floored prev => exact h

/-- A median that passes without overflow is near the current offset and within the fatal limit. -/
lemma Admits.bounds {current median : Int64} (h : Admits cfg current median)
    (hmin : median ≠ Int64.minValue) (hfits : |median.toInt - current.toInt| < 2 ^ 63) :
    |median.toInt - current.toInt| ≤ cfg.maxDriftMs.toInt ∧
      |median.toInt| ≤ cfg.maxDriftFatalMs.toInt := by
  obtain ⟨hjump, hfatal⟩ := h
  have hsub := toInt_sub_of_fits hfits
  have hne : median - current ≠ Int64.minValue := by
    intro heq
    rw [heq, Int64.toInt_minValue] at hsub
    rw [← hsub] at hfits
    norm_num at hfits
  rw [Int64.not_lt, Int64.le_iff_toInt_le, toInt_abs hne, hsub] at hjump
  rw [Int64.not_lt, Int64.le_iff_toInt_le, toInt_abs hmin] at hfatal
  exact ⟨hjump, hfatal⟩

@[simp] lemma timestamps_append (events more : List Event) :
    timestamps (events ++ more) = timestamps events ++ timestamps more :=
  List.filterMap_append

variable {s : TimestampSynchronizer}

/-- Returning a timestamp that is not below the last one. -/
lemma SharedSound.returned (h : SharedSound cfg s events) {t : Int64} (hpos : 1 ≤ t.toInt)
    (hlast : s.lastReturnedMs.toInt ≤ t.toInt) :
    SharedSound cfg { s with lastReturnedMs := t } (events ++ [.returned t]) := by
  have hts : timestamps (events ++ [.returned t]) = timestamps events ++ [t] :=
    timestamps_append _ _
  refine ⟨h.buffer, h.offset, ?_, ?_, ?_⟩
  · rw [hts]
    exact List.forall_mem_append.mpr ⟨h.positive, by simpa using hpos⟩
  · rw [hts, List.pairwise_append]
    refine ⟨h.monotone, List.pairwise_singleton _ _, ?_⟩
    intro t' ht' u hu
    rw [List.mem_singleton] at hu
    rw [hu]
    exact (h.last t' ht').trans hlast
  · rw [hts]
    refine List.forall_mem_append.mpr ⟨fun t' ht' => (h.last t' ht').trans hlast, ?_⟩
    simp

lemma toInt_max (a b : Int64) : (max a b).toInt = max a.toInt b.toInt := by
  have hmax : max a b = if a ≤ b then b else a := rfl
  rw [hmax]
  split
  next hle => exact (max_eq_right (Int64.le_iff_toInt_le.mp hle)).symm
  next hlt =>
    rw [Int64.le_iff_toInt_le] at hlt
    exact (max_eq_left (by omega)).symm

/-- Completing a batch returns no timestamp. -/
lemma SharedSound.completed (h : SharedSound cfg s events) (batch : List Int64) :
    SharedSound cfg { s with sampleBuffer := [] } (events ++ [.completed batch]) := by
  have hts : timestamps (events ++ [.completed batch]) = timestamps events := by
    rw [timestamps_append]
    exact List.append_nil _
  refine ⟨Nat.succ_pos 2, h.offset, ?_, ?_, ?_⟩
  · rw [hts]
    exact h.positive
  · rw [hts]
    exact h.monotone
  · rw [hts]
    exact h.last

/-- A sample is kept, or completes a batch of three whose median goes on. -/
lemma SharedSound.sample (h : SharedSound cfg s events) (offset : Int64) (spurious : Bool) :
    SharedSound cfg (access cfg s spurious (.sample offset)).shared
        (events ++ (access cfg s spurious (.sample offset)).events) ∧
      ∀ o ∈ (access cfg s spurious (.sample offset)).remaining,
        OpSound cfg (events ++ (access cfg s spurious (.sample offset)).events) o := by
  rw [TimestampSynchronizer.access, collectSample]
  by_cases hfew : (s.sampleBuffer ++ [offset]).length < samplesRequired
  · rw [if_pos hfew, List.append_nil]
    exact ⟨⟨hfew, h.offset, h.positive, h.monotone, h.last⟩, nofun⟩
  · rw [if_neg hfew]
    have hbatch : (s.sampleBuffer ++ [offset]).length = 3 := by
      have hbuffer := h.buffer
      rw [List.length_append, List.length_singleton] at hfew ⊢
      rw [samplesRequired] at hfew hbuffer
      omega
    obtain ⟨x, y, z, hxyz⟩ := List.length_eq_three.mp hbatch
    dsimp only
    rw [hxyz]
    refine ⟨h.completed [x, y, z], ?_⟩
    rintro o ⟨⟩
    exact ⟨x, y, z, by simp, middle_medianOffset x y z⟩

/-- What an access keeps and what remains of its call. -/
lemma SharedSound.access (h : SharedSound cfg s events) {op : Op} (hop : OpSound cfg events op)
    (hfits : op.Fits s) (spurious : Bool) :
    SharedSound cfg (access cfg s spurious op).shared
        (events ++ (access cfg s spurious op).events) ∧
      ∀ o ∈ (access cfg s spurious op).remaining,
        OpSound cfg (events ++ (access cfg s spurious op).events) o := by
  cases op with
  | sample offset => exact h.sample offset spurious
  | loadCurrent median =>
    rw [TimestampSynchronizer.access]
    split
    next hadmits =>
      rw [List.append_nil]
      refine ⟨h, ?_⟩
      rintro o ⟨⟩
      exact ⟨hop, hadmits.bounds hfits.1 hfits.2⟩
    next =>
      rw [List.append_nil]
      exact ⟨h, nofun⟩
  | store median current =>
    rw [TimestampSynchronizer.access, List.append_nil]
    exact ⟨⟨h.buffer, hop.2.2, h.positive, h.monotone, h.last⟩, nofun⟩
  | loadOffset localMs =>
    rw [TimestampSynchronizer.access, List.append_nil]
    refine ⟨h, ?_⟩
    rintro o ⟨⟩
    have hone : (1 : Int64).toInt = 1 := rfl
    rw [OpSound, toInt_max, hone]
    exact le_max_right _ _
  | loadLast floored =>
    rw [OpSound] at hop
    rw [TimestampSynchronizer.access]
    split
    next hmax =>
      have hle : floored.toInt ≤ s.lastReturnedMs.toInt := by
        rw [← hmax, toInt_max]
        exact le_max_left _ _
      exact ⟨h.returned (hop.trans hle) le_rfl, nofun⟩
    next =>
      rw [List.append_nil]
      refine ⟨h, ?_⟩
      rintro o ⟨⟩
      exact hop
  | exchangeLast floored prev =>
    rw [OpSound] at hop
    rw [TimestampSynchronizer.access]
    split
    next hsame =>
      refine ⟨h.returned ?_ ?_, nofun⟩
      · rw [toInt_max]
        exact hop.trans (le_max_left _ _)
      · rw [hsame.1, toInt_max]
        exact le_max_right _ _
    next =>
      rw [List.append_nil]
      refine ⟨h, ?_⟩
      rintro o ⟨⟩
      exact hop

/-- Only a store changes the offset. -/
lemma access_offsetMs (s : TimestampSynchronizer) (spurious : Bool) (op : Op) :
    (access cfg s spurious op).shared.offsetMs = s.offsetMs ∨
      ∃ median current, op = .store median current ∧
        (access cfg s spurious op).shared.offsetMs = median := by
  cases op with
  | store median current => exact Or.inr ⟨median, current, rfl, rfl⟩
  | sample offset =>
    left
    rw [access]
    split
    · rfl
    · rfl
  | loadCurrent median =>
    left
    rw [access]
    split
    · rfl
    · rfl
  | loadOffset localMs => exact Or.inl rfl
  | loadLast floored =>
    left
    rw [access]
    split
    · rfl
    · rfl
  | exchangeLast floored prev =>
    left
    rw [access]
    split
    · rfl
    · rfl

/-! ### Whole runs -/

section Steps

variable {st : State TimestampSynchronizer Op} {a : Action Call Bool}

lemma Sound.step (h : Sound cfg st events) (hfits : Meets Op.Fits st a) :
    Sound cfg (Interleaving.step (syncSystem cfg) st a).1
      (events ++ (Interleaving.step (syncSystem cfg) st a).2) := by
  rcases step_cases (syncSystem cfg) st a with ⟨call, rfl, hstate, hevents⟩ | ⟨-, hidle⟩ |
    ⟨position, choice, op, others, rfl, hop, hbefore, hshared, hafter, hevents⟩
  · rw [hstate, hevents]
    cases call with
    | updateOffset serverTimeMs localMs =>
      refine ⟨by simpa [syncSystem, enter] using h.shared, ?_⟩
      simp only [syncSystem, enter, List.append_nil]
      exact List.forall_mem_append.mpr ⟨h.ops, by simp [OpSound]⟩
    | adjustedTimestampMs localMs =>
      refine ⟨by simpa [syncSystem, enter] using h.shared, ?_⟩
      simp only [syncSystem, enter, List.append_nil]
      exact List.forall_mem_append.mpr ⟨h.ops, by simp [OpSound]⟩
  · rw [hidle, List.append_nil]
    exact h
  · have hmem : op ∈ st.inFlight := List.mem_of_getElem? hop
    have haccess := h.shared.access (h.ops op hmem) (hfits op hop) choice
    rw [hevents]
    refine ⟨by rw [hshared]; exact haccess.1, ?_⟩
    exact forall_inFlight_access hbefore hafter h.ops (fun o _ ho => ho.append _) haccess.2

/-- A step that changes the offset stores the middle of a completed batch, near the old offset. -/
lemma Sound.offset_change (h : Sound cfg st events) (hfresh : Meets Op.Fresh st a)
    (hchange : (Interleaving.step (syncSystem cfg) st a).1.shared.offsetMs ≠ st.shared.offsetMs) :
    FromBatch events (Interleaving.step (syncSystem cfg) st a).1.shared.offsetMs ∧
      |(Interleaving.step (syncSystem cfg) st a).1.shared.offsetMs.toInt -
        st.shared.offsetMs.toInt| ≤ cfg.maxDriftMs.toInt := by
  rcases step_cases (syncSystem cfg) st a with ⟨call, rfl, hstate, -⟩ | ⟨-, hidle⟩ |
    ⟨position, choice, op, others, rfl, hop, -, hshared, -, -⟩
  · rw [hstate] at hchange
    exact absurd rfl hchange
  · rw [hidle] at hchange
    exact absurd rfl hchange
  · rw [hshared] at hchange ⊢
    rcases access_offsetMs st.shared choice op with hsame | ⟨median, current, rfl, hmedian⟩
    · exact absurd hsame hchange
    · obtain ⟨hbatch, hjump, -⟩ := h.ops _ (List.mem_of_getElem? hop)
      have hcurrent : st.shared.offsetMs = current := hfresh _ hop
      have hnew : ((syncSystem cfg).access st.shared choice (.store median current)).shared.offsetMs
          = median := hmedian
      rw [hnew, hcurrent]
      exact ⟨hbatch, hjump⟩

end Steps

lemma sound_stateAfter (hfatal : 0 ≤ cfg.maxDriftFatalMs.toInt) {actions : List (Action Call Bool)}
    (hfits : ∀ before a after, actions = before ++ a :: after →
      Meets Op.Fits (stateAfter cfg before) a) :
    Sound cfg (stateAfter cfg actions) (eventsOf cfg actions) := by
  have hnew : Sound cfg ⟨new, []⟩ [] :=
    ⟨⟨Nat.succ_pos 2, hfatal, by simp [timestamps], List.Pairwise.nil, by simp [timestamps]⟩,
      by simp⟩
  exact run_induction (C := fun st _ a => Meets Op.Fits st a)
    (fun st events a hst ha => hst.step ha) hnew hfits

/-- **Request clocks never run backwards, and the offset moves in small steps when no store is
raced.**  In every run of concurrent calls without overflow, with a fatal limit that is not
negative, in which every store finds the offset its jump was measured from. -/
theorem clockRun_of_unraced (cfg : SyncSettings) (actions : List (Action Call Bool))
    (hfatal : 0 ≤ cfg.maxDriftFatalMs.toInt)
    (hfits : ∀ before a after, actions = before ++ a :: after →
      Meets Op.Fits (stateAfter cfg before) a)
    (hfresh : ∀ before a after, actions = before ++ a :: after →
      Meets Op.Fresh (stateAfter cfg before) a) :
    ClockRun cfg actions := by
  have hsound : ∀ before after, actions = before ++ after →
      Sound cfg (stateAfter cfg before) (eventsOf cfg before) := by
    rintro before after rfl
    apply sound_stateAfter hfatal
    rintro first a rest rfl
    exact hfits first a (rest ++ after) (by simp)
  have hall := hsound actions [] (List.append_nil _).symm
  refine ⟨hall.shared.positive, hall.shared.monotone, ?_, ?_⟩
  · rintro before a after rfl old new rfl rfl hchange
    have hnext : stateAfter cfg (before ++ [a]) =
        (step (syncSystem cfg) (stateAfter cfg before) a).1 := by
      rw [stateAfter, runState_append]
      rfl
    rw [hnext] at hchange ⊢
    exact (hsound before (a :: after) rfl).offset_change (hfresh before a after rfl) hchange
  · intro before after heq
    exact (hsound before after heq).shared.offset

/-- Three samples, the last one an outlier, and two requests, the second after the local clock was
set back. -/
def outlierRun : List (Action Call Bool) :=
  [.enter (.updateOffset 1040 1000), .access 0 false, .enter (.updateOffset 2050 2000),
    .access 0 false, .enter (.updateOffset 12000 3000), .access 0 false, .access 0 false,
    .access 0 false, .enter (.adjustedTimestampMs 4000), .access 0 false, .access 0 false,
    .access 0 true, .access 0 false, .access 0 false, .enter (.adjustedTimestampMs 3500),
    .access 0 false, .access 0 false]

theorem clockRun_of_unraced_outlier :
    ClockRun .withDefaults outlierRun ∧ (stateAfter .withDefaults outlierRun).shared.offsetMs = 50 ∧
      timestamps (eventsOf .withDefaults outlierRun) = [4050, 4050] := by
  refine ⟨clockRun_of_unraced _ _ (by decide) ?_ ?_, by decide, by decide⟩
  · exact forall_split_iff.mpr (by decide)
  · exact forall_split_iff.mpr (by decide)

/-- Two batches of samples complete, both calls load the offset 0, and both store. -/
def racedRun : List (Action Call Bool) :=
  [.enter (.updateOffset 5000 0), .access 0 false, .enter (.updateOffset 5000 0), .access 0 false,
    .enter (.updateOffset 5000 0), .access 0 false, .access 0 false,
    .enter (.updateOffset (-5000) 0), .access 1 false, .enter (.updateOffset (-5000) 0),
    .access 1 false, .enter (.updateOffset (-5000) 0), .access 1 false, .access 1 false,
    .access 0 false, .access 0 false]

/-- The second store moves the offset by ten seconds, with a jump limit of five. -/
theorem racedRun_not_clockRun :
    (∀ i : Fin racedRun.length,
      Meets Op.Fits (stateAfter .withDefaults (racedRun.take i)) (racedRun.get i)) ∧
      ¬ ClockRun .withDefaults racedRun := by
  refine ⟨by decide, fun h => ?_⟩
  have hchange := h.offset_change (racedRun.take 15) (.access 0 false) [] rfl 5000 (-5000)
    (by decide) (by decide) (by decide)
  exact absurd hchange.2 (by decide)

end TimestampSynchronizer

end HftArb
