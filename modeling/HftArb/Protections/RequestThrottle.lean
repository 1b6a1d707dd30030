import HftArb.Foundations.Interleaving
import HftArb.Foundations.Saturating

/-!
# The throttle of an exchange client

Every request to an exchange passes `throttle`, which lets one request through per interval.  A call
reads the clock, loads the instant of the last request, and tries to put its own reading there if
the interval is over; if another call was faster, or the interval is not over, it starts again.
Zero stands for no request so far.

The admitted readings keep their distance in every interleaving (`throttle_spacing`), up to the end
of the range of the clock: the end of the interval is computed with a saturating addition, so the
largest reading is always admitted.
-/

namespace HftArb

open Runs Interleaving Saturating

/-- The interval between two requests in microseconds, and the instant of the last one. -/
structure RateLimiter where
  minIntervalUs : UInt64
  lastCall : UInt64

namespace RateLimiter

/-- A limiter for a number of requests a second. -/
def new (requestsPerSecond : UInt64) : RateLimiter :=
  ⟨1000000 / max requestsPerSecond 1, 0⟩

/-- A call of `throttle` under way: before it reads the clock, with its reading before it loads the
last instant, or with both before it exchanges them. -/
inductive Throttle
  | clock
  | load (nowUs : UInt64)
  | exchange (nowUs last : UInt64)

/-- The request may pass now, as far as the call knows. -/
def IsDue (minIntervalUs nowUs last : UInt64) : Prop :=
  last = 0 ∨ satAdd last minIntervalUs ≤ nowUs

instance (minIntervalUs nowUs last : UInt64) : Decidable (IsDue minIntervalUs nowUs last) :=
  inferInstanceAs (Decidable (_ ∨ _))

/-- A step of a call; the choice is the reading of the clock, and an admitted request is an event.
A call that has to wait sleeps and starts again. -/
def access (limiter : RateLimiter) (reading : UInt64) :
    Throttle → Outcome RateLimiter Throttle UInt64
  | .clock => ⟨limiter, some (.load reading), []⟩
  | .load nowUs =>
    ⟨limiter,
      some (if IsDue limiter.minIntervalUs nowUs limiter.lastCall
        then .exchange nowUs limiter.lastCall else .clock), []⟩
  | .exchange nowUs last =>
    if limiter.lastCall = last then ⟨{ limiter with lastCall := nowUs }, none, [nowUs]⟩
    else ⟨limiter, some .clock, []⟩

/-- The tasks that call `throttle`. -/
def system : System RateLimiter Unit Throttle UInt64 UInt64 where
  enter _ := (some .clock, [])
  access := access

/-- A limiter without calls under way. -/
def start (requestsPerSecond : UInt64) : State RateLimiter Throttle := ⟨new requestsPerSecond, []⟩

/-! ## The distance of admitted requests -/

/-- A reading comes at least an interval after another, or is the last one of the clock. -/
def Follows (minIntervalUs prev next : UInt64) : Prop :=
  min (prev.toNat + minIntervalUs.toNat) (2 ^ 64 - 1) ≤ next.toNat

lemma satAdd_le_iff {minIntervalUs prev next : UInt64} :
    satAdd prev minIntervalUs ≤ next ↔ Follows minIntervalUs prev next := by
  rw [UInt64.le_iff_toNat_le, satAdd_toNat]
  rfl

/-- What a call under way knows: its reading is positive, and it is due after the instant that it
has loaded. -/
def Throttle.Sound (minIntervalUs : UInt64) : Throttle → Prop
  | .clock => True
  | .load nowUs => nowUs ≠ 0
  | .exchange nowUs last => nowUs ≠ 0 ∧ IsDue minIntervalUs nowUs last

/-- The last instant is that of the last admitted request, and zero if there is none; the admitted
readings keep their distance. -/
structure SpacingInv (minIntervalUs : UInt64) (s : State RateLimiter Throttle)
    (admitted : List UInt64) : Prop where
  interval : s.shared.minIntervalUs = minIntervalUs
  lastCall : s.shared.lastCall = admitted.getLast?.getD 0
  positive : ∀ reading ∈ admitted, reading ≠ 0
  spaced : admitted.IsChain (Follows minIntervalUs)
  sound : ∀ call ∈ s.inFlight, call.Sound minIntervalUs

variable {minIntervalUs : UInt64} {s : State RateLimiter Throttle} {admitted : List UInt64}

/-- An exchange that succeeds admits a reading that follows on the last one. -/
lemma SpacingInv.follows (h : SpacingInv minIntervalUs s admitted) {nowUs : UInt64}
    (hdue : IsDue minIntervalUs nowUs s.shared.lastCall) :
    ∀ prev ∈ admitted.getLast?, Follows minIntervalUs prev nowUs := by
  intro prev hprev
  have hlast : s.shared.lastCall = prev := by
    rw [h.lastCall, Option.mem_def.mp hprev, Option.getD_some]
  rw [hlast] at hdue
  rcases hdue with hzero | hle
  · exact absurd hzero (h.positive prev (List.mem_of_getLast? hprev))
  · exact satAdd_le_iff.mp hle

/-- A step of a call. -/
lemma SpacingInv.of_access (h : SpacingInv minIntervalUs s admitted)
    {s' : State RateLimiter Throttle} {reading : UInt64} (hreading : reading ≠ 0) {call : Throttle}
    {others : List Throttle} (hbefore : s.inFlight.Perm (call :: others))
    (hshared : s'.shared = (access s.shared reading call).shared)
    (hafter : s'.inFlight.Perm ((access s.shared reading call).remaining.toList ++ others)) :
    SpacingInv minIntervalUs s' (admitted ++ (access s.shared reading call).events) := by
  have hcall : call.Sound minIntervalUs := h.sound call (hbefore.mem_iff.mpr List.mem_cons_self)
  have hsound : (∀ op ∈ (access s.shared reading call).remaining, op.Sound minIntervalUs) →
      ∀ op ∈ s'.inFlight, op.Sound minIntervalUs :=
    forall_inFlight_access hbefore hafter h.sound fun _ _ hop => hop
  cases call with
  | clock =>
    rw [show (access s.shared reading .clock).events = [] from rfl, List.append_nil]
    refine ⟨hshared ▸ h.interval, hshared ▸ h.lastCall, h.positive, h.spaced, hsound ?_⟩
    intro op hop
    cases hop
    exact hreading
  | load nowUs =>
    rw [show (access s.shared reading (.load nowUs)).events = [] from rfl, List.append_nil]
    refine ⟨hshared ▸ h.interval, hshared ▸ h.lastCall, h.positive, h.spaced, hsound ?_⟩
    intro op hop
    obtain rfl := Option.some.inj hop
    rw [h.interval]
    split_ifs with hdue
    · exact ⟨hcall, hdue⟩
    · trivial
  | exchange nowUs last =>
    unfold access at hshared hsound ⊢
    dsimp only at hshared hsound ⊢
    split_ifs at hshared hsound ⊢ with heq
    · -- The last instant is still the loaded one.
      have hdue : IsDue minIntervalUs nowUs s.shared.lastCall := heq ▸ hcall.2
      refine ⟨hshared ▸ h.interval, ?_, ?_, ?_, hsound ?_⟩
      · rw [hshared, List.getLast?_append_of_ne_nil _ (List.cons_ne_nil _ _)]
        rfl
      · intro r hr
        rcases List.mem_append.mp hr with hr | hr
        · exact h.positive r hr
        · rw [List.mem_singleton.mp hr]
          exact hcall.1
      · refine h.spaced.append (List.isChain_singleton nowUs) fun prev hprev next hnext => ?_
        obtain rfl := Option.some.inj hnext
        exact h.follows hdue prev hprev
      · intro op hop
        cases hop
    · rw [List.append_nil]
      refine ⟨hshared ▸ h.interval, hshared ▸ h.lastCall, h.positive, h.spaced, hsound ?_⟩
      intro op hop
      obtain rfl := Option.some.inj hop
      trivial

/-- The reading of a step, if it makes one, is positive. -/
def ReadsPositive : Interleaving.Action Unit UInt64 → Prop
  | .enter _ => True
  | .access _ reading => reading ≠ 0

/-- One step keeps the distance. -/
lemma SpacingInv.step (h : SpacingInv minIntervalUs s admitted)
    {a : Interleaving.Action Unit UInt64} (ha : ReadsPositive a) :
    SpacingInv minIntervalUs (step system s a).1 (admitted ++ (step system s a).2) := by
  rcases step_cases system s a with
    ⟨call, rfl, hstate, hevents⟩ | ⟨-, hnothing⟩ |
    ⟨position, reading, call, others, rfl, -, hbefore, hshared, hafter, hevents⟩
  · rw [hstate, hevents, show (system.enter call).2 = [] from rfl, List.append_nil]
    refine ⟨h.interval, h.lastCall, h.positive, h.spaced, fun op hop => ?_⟩
    rcases List.mem_append.mp hop with hop | hop
    · exact h.sound op hop
    · rw [List.mem_singleton.mp hop]
      trivial
  · rw [hnothing, List.append_nil]
    exact h
  · rw [hevents]
    exact h.of_access ha hbefore hshared hafter

/-- In every interleaving of calls and for every clock with positive readings, each admitted reading
is at least the interval after the one before it, or the last one that the clock can have. -/
theorem throttle_spacing (requestsPerSecond : UInt64)
    (actions : List (Interleaving.Action Unit UInt64)) (hclock : ∀ a ∈ actions, ReadsPositive a)
    (before after : List UInt64) (prev next : UInt64)
    (hadmitted : runTrace (step system) (start requestsPerSecond) actions =
      before ++ prev :: next :: after) :
    Follows (new requestsPerSecond).minIntervalUs prev next := by
  have hstart : SpacingInv (new requestsPerSecond).minIntervalUs (start requestsPerSecond) [] :=
    ⟨rfl, rfl, by simp, List.isChain_nil, by simp [start]⟩
  have hrun : SpacingInv (new requestsPerSecond).minIntervalUs
      (runState (step system) (start requestsPerSecond) actions)
      ([] ++ runTrace (step system) (start requestsPerSecond) actions) := by
    refine run_induction (I := SpacingInv (new requestsPerSecond).minIntervalUs)
      (C := fun _ _ a => ReadsPositive a) (fun s admitted a hinv ha => hinv.step ha) hstart ?_
    intro pre a post hsplit
    exact hclock a (hsplit ▸ List.mem_append_right pre List.mem_cons_self)
  rw [List.nil_append, hadmitted] at hrun
  exact (List.isChain_append_cons_cons.mp hrun.spaced).2.1

/-- Two calls in a row, with their readings. -/
def twoCalls (first second : UInt64) : List (Interleaving.Action Unit UInt64) :=
  [.enter (), .access 0 first, .access 0 first, .access 0 first,
    .enter (), .access 0 second, .access 0 second, .access 0 second]

/-- With ten requests a second, a request at 5 and one 100000 microseconds later. -/
theorem throttle_spacing_twoCalls :
    runTrace (step system) (start 10) (twoCalls 5 100005) = [5, 100005] ∧
      Follows (new 10).minIntervalUs 5 100005 := by
  have hadmitted : runTrace (step system) (start 10) (twoCalls 5 100005) = [5, 100005] := by
    decide +kernel
  refine ⟨hadmitted, throttle_spacing 10 (twoCalls 5 100005) ?_ [] [] 5 100005 hadmitted⟩
  intro a ha
  simp only [twoCalls, List.mem_cons, List.not_mem_nil, or_false] at ha
  rcases ha with rfl | rfl | rfl | rfl | rfl | rfl | rfl | rfl
  all_goals simp [ReadsPositive]

/-- With 100000 requests a second, the last reading of the clock is admitted 5 microseconds after
the one before it. -/
theorem throttle_last_reading_not_spaced :
    (∀ a ∈ twoCalls (maxWord - 5) maxWord, ReadsPositive a) ∧
      (new 100000).minIntervalUs = 10 ∧
      runTrace (step system) (start 100000) (twoCalls (maxWord - 5) maxWord) =
        [maxWord - 5, maxWord] ∧
      ¬ (maxWord - 5).toNat + 10 ≤ maxWord.toNat := by
  refine ⟨?_, by decide, by decide +kernel, by decide⟩
  intro a ha
  simp only [twoCalls, List.mem_cons, List.not_mem_nil, or_false] at ha
  rcases ha with rfl | rfl | rfl | rfl | rfl | rfl | rfl | rfl
  all_goals simp [ReadsPositive, maxWord]

end RateLimiter

end HftArb
