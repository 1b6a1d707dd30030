import HftArb.Foundations.Interleaving
import HftArb.Protections.RiskManager

/-!
# Races for the exposure

Pre-trade checks and releases run at the same time and meet at one word, the total exposure.  A
check reserves its size, and a release gives a size back, with a load and a weak
compare-and-exchange that are repeated up to a hundred times.  The other layers of a check read
fields that neither of the two changes.

The cap of layer 7 holds in every interleaving.  The total is the sum of the reservations less that
of the releases as long as no reservation is granted with a sum that does not fit a word
(`exposure_books_iff`), which needs a cap equal to the largest word.
-/

namespace HftArb

open Runs Saturating Interleaving

namespace ExposureRaces

/-- What a pre-trade check is asked, with the clock readings of its layers. -/
structure TradeRequest where
  clk : GateClock
  expectedProfitBps : UInt64
  sizeFp : UInt64
  exchangeId : UInt16

/-- A call of one of the two functions. -/
inductive Call
  | preTradeCheck (request : TradeRequest)
  | releaseExposure (sizeFp : UInt64)

/-- A call under way, at its next access.  An exchange comes after a load whose sum is within the
cap. -/
inductive Op (maxExpFp : UInt64)
  | reserveLoad (request : TradeRequest) (attempt : ℕ)
  | reserveExchange (request : TradeRequest) (attempt : ℕ) (current : UInt64)
      (h : ¬ maxExpFp < satAdd current request.sizeFp)
  | releaseLoad (sizeFp : UInt64) (attempt : ℕ)
  | releaseExchange (sizeFp : UInt64) (attempt : ℕ) (current : UInt64)

/-- What happens in a run: an amount is reserved, the release of an amount is asked for and takes
place, a loop runs out of attempts, and a check answers. -/
inductive Event
  | reserved (sizeFp : UInt64)
  | releasing (sizeFp : UInt64)
  | released (sizeFp : UInt64)
  | exhausted
  | answered (verdict : Except TradeRejection Unit)
  deriving DecidableEq

/-- `MAX_CAS_ITERATIONS`. -/
def maxCasIterations : ℕ := 100

section Model

variable (rm : RiskManager) (capitalFp : UInt64)

/-- The answer of a check once it has its reservation. -/
def verdictAfterReserve (request : TradeRequest) : Except TradeRejection Unit :=
  match rm.layersAfterReserve request.clk request.sizeFp capitalFp request.exchangeId with
  | some rejection => .error rejection
  | none => .ok ()

/-- After a failed exchange the loop starts again, unless it has used up its attempts. -/
def retry {maxExpFp : UInt64} (total : UInt64) (attempt : ℕ) (again : ℕ → Op maxExpFp)
    (atEnd : List Event) : Outcome UInt64 (Op maxExpFp) Event :=
  if attempt + 1 < maxCasIterations then ⟨total, some (again (attempt + 1)), []⟩
  else ⟨total, none, .exhausted :: atEnd⟩

/-- What a call does before its first access to the exposure. -/
def enter : Call → Option (Op (rm.maxExposureFp capitalFp)) × List Event
  | .preTradeCheck request =>
    match rm.layersBeforeReserve request.clk request.expectedProfitBps capitalFp with
    | some rejection => (none, [.answered (.error rejection)])
    | none => (some (.reserveLoad request 0), [])
  | .releaseExposure sizeFp => (some (.releaseLoad sizeFp 0), [.releasing sizeFp])

/-- One access to the exposure.  A weak exchange may fail although the word is as expected. -/
def access (total : UInt64) (spurious : Bool) :
    Op (rm.maxExposureFp capitalFp) → Outcome UInt64 (Op (rm.maxExposureFp capitalFp)) Event
  | .reserveLoad request attempt =>
    if h : rm.maxExposureFp capitalFp < satAdd total request.sizeFp then
      ⟨total, none, [.answered (.error .exposureLimitBreached)]⟩
    else ⟨total, some (.reserveExchange request attempt total h), []⟩
  | .reserveExchange request attempt current _ =>
    if total = current ∧ spurious = false then
      ⟨satAdd current request.sizeFp, none,
        [.reserved request.sizeFp, .answered (verdictAfterReserve rm capitalFp request)]⟩
    else
      retry total attempt (.reserveLoad request) [.answered (.error .exposureLimitBreached)]
  | .releaseLoad sizeFp attempt => ⟨total, some (.releaseExchange sizeFp attempt total), []⟩
  | .releaseExchange sizeFp attempt current =>
    if total = current ∧ spurious = false then
      ⟨satSub current sizeFp, none, [.released sizeFp]⟩
    else retry total attempt (.releaseLoad sizeFp) []

/-- The calls on the exposure of a manager, for a capital. -/
def exposureSystem :
    System UInt64 Call (Op (rm.maxExposureFp capitalFp)) Bool Event where
  enter := enter rm capitalFp
  access := access rm capitalFp

/-- Nothing is reserved and no call is under way. -/
def idle (maxExpFp : UInt64) : State UInt64 (Op maxExpFp) := ⟨0, []⟩

/-- The state after some steps from the start. -/
def stateAfter (actions : List (Action Call Bool)) :
    State UInt64 (Op (rm.maxExposureFp capitalFp)) :=
  runState (step (exposureSystem rm capitalFp)) (idle _) actions

/-- The events of some steps from the start. -/
def eventsOf (actions : List (Action Call Bool)) : List Event :=
  runTrace (step (exposureSystem rm capitalFp)) (idle _) actions

end Model

/-! ## The books -/

/-- The amount that an event reserves. -/
def Event.reservedFp : Event → ℕ
  | .reserved sizeFp => sizeFp.toNat
  | _ => 0

/-- The amount that an event asks to release. -/
def Event.releasingFp : Event → ℕ
  | .releasing sizeFp => sizeFp.toNat
  | _ => 0

/-- The amount that an event releases. -/
def Event.releasedFp : Event → ℕ
  | .released sizeFp => sizeFp.toNat
  | _ => 0

/-- The sum of the reservations. -/
def reservedSum (events : List Event) : ℕ := (events.map Event.reservedFp).sum

/-- The sum of the amounts whose release was asked for. -/
def releasingSum (events : List Event) : ℕ := (events.map Event.releasingFp).sum

/-- The sum of the releases. -/
def releasedSum (events : List Event) : ℕ := (events.map Event.releasedFp).sum

/-- The amount that a call under way is going to release. -/
def Op.releaseFp {maxExpFp : UInt64} : Op maxExpFp → ℕ
  | .releaseLoad sizeFp _ => sizeFp.toNat
  | .releaseExchange sizeFp _ _ => sizeFp.toNat
  | _ => 0

lemma reservedSum_append (events events' : List Event) :
    reservedSum (events ++ events') = reservedSum events + reservedSum events' := by
  simp [reservedSum]

lemma releasingSum_append (events events' : List Event) :
    releasingSum (events ++ events') = releasingSum events + releasingSum events' := by
  simp [releasingSum]

lemma releasedSum_append (events events' : List Event) :
    releasedSum (events ++ events') = releasedSum events + releasedSum events' := by
  simp [releasedSum]

section Steps

variable (rm : RiskManager) (capitalFp : UInt64)

/-- What an access does: it runs out of attempts, or leaves the exposure and the release that is
asked for, or reserves, or releases. -/
lemma access_cases (total : UInt64) (spurious : Bool) (op : Op (rm.maxExposureFp capitalFp)) :
    let outcome := (exposureSystem rm capitalFp).access total spurious op
    (outcome.shared = total ∧ reservedSum outcome.events = 0 ∧
        (Event.exhausted ∈ outcome.events ∨
          (outcome.remaining.map Op.releaseFp).getD 0 = op.releaseFp ∧
            releasingSum outcome.events = 0 ∧ releasedSum outcome.events = 0)) ∨
      (∃ sizeFp verdict, outcome.shared = satAdd total sizeFp ∧
        satAdd total sizeFp ≤ rm.maxExposureFp capitalFp ∧ outcome.remaining = none ∧
        op.releaseFp = 0 ∧ outcome.events = [.reserved sizeFp, .answered verdict]) ∨
      ∃ sizeFp, outcome.shared = satSub total sizeFp ∧ outcome.remaining = none ∧
        op.releaseFp = sizeFp.toNat ∧ outcome.events = [.released sizeFp] := by
  have hretry : ∀ (attempt : ℕ) (again : ℕ → Op (rm.maxExposureFp capitalFp))
      (atEnd : List Event), (again (attempt + 1)).releaseFp = op.releaseFp →
      reservedSum atEnd = 0 →
      let outcome := retry total attempt again atEnd
      outcome.shared = total ∧ reservedSum outcome.events = 0 ∧
        (Event.exhausted ∈ outcome.events ∨
          (outcome.remaining.map Op.releaseFp).getD 0 = op.releaseFp ∧
            releasingSum outcome.events = 0 ∧ releasedSum outcome.events = 0) := by
    intro attempt again atEnd hagain hend
    simp only [retry]
    split_ifs
    · exact ⟨rfl, rfl, Or.inr ⟨hagain, rfl, rfl⟩⟩
    · refine ⟨rfl, ?_, Or.inl List.mem_cons_self⟩
      rw [reservedSum, List.map_cons, List.sum_cons]
      exact (Nat.zero_add _).trans hend
  cases op with
  | reserveLoad request attempt =>
    simp only [exposureSystem, access]
    split_ifs with h
    · exact Or.inl ⟨rfl, rfl, Or.inr ⟨rfl, rfl, rfl⟩⟩
    · exact Or.inl ⟨rfl, rfl, Or.inr ⟨rfl, rfl, rfl⟩⟩
  | reserveExchange request attempt current hcap =>
    simp only [exposureSystem, access]
    split_ifs with h
    · obtain ⟨rfl, -⟩ := h
      exact Or.inr (Or.inl ⟨_, _, rfl, UInt64.not_lt.mp hcap, rfl, rfl, rfl⟩)
    · exact Or.inl (hretry attempt _ _ rfl rfl)
  | releaseLoad sizeFp attempt =>
    exact Or.inl ⟨rfl, rfl, Or.inr ⟨rfl, rfl, rfl⟩⟩
  | releaseExchange sizeFp attempt current =>
    simp only [exposureSystem, access]
    split_ifs with h
    · obtain ⟨rfl, -⟩ := h
      exact Or.inr (Or.inr ⟨sizeFp, rfl, rfl, rfl, rfl⟩)
    · exact Or.inl (hretry attempt _ _ rfl rfl)

/-- What a call does first: it asks for the release that it is going to make. -/
lemma enter_spec (call : Call) :
    let first := (exposureSystem rm capitalFp).enter call
    releasingSum first.2 = (first.1.toList.map Op.releaseFp).sum ∧ reservedSum first.2 = 0 ∧
      releasedSum first.2 = 0 := by
  cases call with
  | preTradeCheck request =>
    simp only [exposureSystem, enter]
    split <;> exact ⟨rfl, rfl, rfl⟩
  | releaseExposure sizeFp => exact ⟨rfl, rfl, rfl⟩

/-- The total is the reservations less the releases, and what is asked for has been released or is
going to be. -/
structure Books {maxExpFp : UInt64} (s : State UInt64 (Op maxExpFp)) (events : List Event) :
    Prop where
  total : s.shared.toNat + releasedSum events = reservedSum events
  asked : releasingSum events = releasedSum events + (s.inFlight.map Op.releaseFp).sum

/-- A reservation in the step fits a word. -/
def FitsWord (s : State UInt64 (Op (rm.maxExposureFp capitalFp))) (a : Action Call Bool) : Prop :=
  ∀ sizeFp, Event.reserved sizeFp ∈ (step (exposureSystem rm capitalFp) s a).2 →
    s.shared.toNat + sizeFp.toNat < 2 ^ 64

variable {rm capitalFp}

/-- The exposure stays within the cap. -/
lemma shared_step_le {s : State UInt64 (Op (rm.maxExposureFp capitalFp))}
    (hs : s.shared ≤ rm.maxExposureFp capitalFp) (a : Action Call Bool) :
    (step (exposureSystem rm capitalFp) s a).1.shared ≤ rm.maxExposureFp capitalFp := by
  rcases step_cases (exposureSystem rm capitalFp) s a with
    ⟨call, -, hstate, -⟩ | ⟨-, hstep⟩ | ⟨position, choice, op, others, -, -, -, hshared, -, -⟩
  · rw [hstate]
    exact hs
  · rw [hstep]
    exact hs
  · rw [hshared]
    rcases access_cases rm capitalFp s.shared choice op with
      ⟨hsame, -⟩ | ⟨sizeFp, verdict, hnew, hcap, -⟩ | ⟨sizeFp, hnew, -⟩
    · exact hsame.trans_le hs
    · exact hnew.trans_le hcap
    · refine hnew.trans_le (UInt64.le_trans ?_ hs)
      rw [UInt64.le_iff_toNat_le, satSub_toNat]
      exact Nat.sub_le _ _

/-- A step keeps the books when nothing more is asked to be released than was reserved, no loop runs
out of attempts, and a reservation fits a word. -/
lemma Books.step {s : State UInt64 (Op (rm.maxExposureFp capitalFp))} {events : List Event}
    (h : Books s events) (hasked : releasingSum events ≤ reservedSum events) {a : Action Call Bool}
    (hexhausted : Event.exhausted ∉ (step (exposureSystem rm capitalFp) s a).2)
    (hfits : FitsWord rm capitalFp s a) :
    Books (Interleaving.step (exposureSystem rm capitalFp) s a).1
      (events ++ (Interleaving.step (exposureSystem rm capitalFp) s a).2) := by
  obtain ⟨htotal, hpending⟩ := h
  unfold FitsWord at hfits
  rcases step_cases (exposureSystem rm capitalFp) s a with ⟨call, -, hstate, hevents⟩ |
    ⟨-, hstep⟩ | ⟨position, choice, op, others, -, -, hbefore, hshared, hafter, hevents⟩
  · obtain ⟨hasking, hreserved, hreleased⟩ := enter_spec rm capitalFp call
    rw [hstate, hevents]
    constructor
    · change s.shared.toNat + _ = _
      rw [reservedSum_append, releasedSum_append]
      omega
    · rw [releasingSum_append, releasedSum_append, List.map_append, List.sum_append]
      omega
  · rw [hstep, List.append_nil]
    exact ⟨htotal, hpending⟩
  · have hsum := sum_inFlight_access Op.releaseFp hbefore hafter
    have hop : op.releaseFp ≤ (s.inFlight.map Op.releaseFp).sum :=
      List.single_le_sum (fun _ _ => Nat.zero_le _) _
        (List.mem_map_of_mem (hbefore.mem_iff.mpr List.mem_cons_self))
    rw [hevents] at hexhausted hfits ⊢
    rcases access_cases rm capitalFp s.shared choice op with
      ⟨hsame, hreserved, hrest⟩ | ⟨sizeFp, verdict, hnew, -, hnone, hzero, hreserved⟩ |
      ⟨sizeFp, hnew, hnone, hsize, hreleased⟩
    · obtain ⟨hremaining, hreleasing, hreleased⟩ := hrest.resolve_left hexhausted
      constructor
      · rw [reservedSum_append, releasedSum_append, hshared, hsame]
        omega
      · rw [releasingSum_append, releasedSum_append]
        omega
    · -- A reservation that fits a word adds its size.
      have hword := hfits sizeFp (by rw [hreserved]; exact List.mem_cons_self)
      have hadd := satAdd_toNat s.shared sizeFp
      rw [hnone, Option.map_none, Option.getD_none] at hsum
      constructor
      · rw [reservedSum_append, releasedSum_append, hshared, hnew, hreserved]
        change _ + (_ + 0) = _ + (sizeFp.toNat + 0)
        omega
      · rw [releasingSum_append, releasedSum_append, hreserved]
        change _ + 0 = _ + 0 + _
        omega
    · -- What is released has been asked for, so that it is in the total.
      have hsub := satSub_toNat s.shared sizeFp
      rw [hnone, Option.map_none, Option.getD_none] at hsum
      constructor
      · rw [reservedSum_append, releasedSum_append, hshared, hnew, hreleased]
        change _ + (_ + (sizeFp.toNat + 0)) = _ + 0
        omega
      · rw [releasingSum_append, releasedSum_append, hreleased]
        change _ + 0 = _ + (sizeFp.toNat + 0) + _
        omega

/-- A reservation is part of the sum. -/
lemma le_reservedSum {sizeFp : UInt64} {events : List Event} (h : Event.reserved sizeFp ∈ events) :
    sizeFp.toNat ≤ reservedSum events :=
  List.single_le_sum (fun _ _ => Nat.zero_le _) _ (List.mem_map_of_mem h)

/-- A step that reserves a positive amount adds it to the total, up to the largest word and within
the cap. -/
lemma step_of_reserved {s : State UInt64 (Op (rm.maxExposureFp capitalFp))} {a : Action Call Bool}
    {sizeFp : UInt64} (hpos : 0 < sizeFp.toNat)
    (hmem : Event.reserved sizeFp ∈ (step (exposureSystem rm capitalFp) s a).2) :
    satAdd s.shared sizeFp ≤ rm.maxExposureFp capitalFp ∧
      (step (exposureSystem rm capitalFp) s a).1.shared = satAdd s.shared sizeFp ∧
      ∃ verdict, (step (exposureSystem rm capitalFp) s a).2 =
        [.reserved sizeFp, .answered verdict] := by
  have hsize := le_reservedSum hmem
  rcases step_cases (exposureSystem rm capitalFp) s a with ⟨call, -, -, hevents⟩ |
    ⟨-, hstep⟩ | ⟨position, choice, op, others, -, -, -, hshared, -, hevents⟩
  · rw [hevents, (enter_spec rm capitalFp call).2.1] at hsize
    omega
  · rw [hstep] at hmem
    simp at hmem
  · rw [hevents] at hmem hsize
    rcases access_cases rm capitalFp s.shared choice op with
      ⟨-, hreserved, -⟩ | ⟨size, verdict, hnew, hcap, -, -, hreserved⟩ | ⟨size, -, -, -, hreleased⟩
    · omega
    · obtain rfl : sizeFp = size := by simpa [hreserved] using hmem
      exact ⟨hcap, hshared.trans hnew, verdict, hevents.trans hreserved⟩
    · rw [hreleased] at hmem
      simp at hmem

/-- After a reservation that does not fit a word the total is not what it should be. -/
lemma total_ne_of_not_fitsWord {s : State UInt64 (Op (rm.maxExposureFp capitalFp))}
    {events : List Event} (htotal : s.shared.toNat + releasedSum events = reservedSum events)
    {a : Action Call Bool} (hfits : ¬ FitsWord rm capitalFp s a) :
    (step (exposureSystem rm capitalFp) s a).1.shared.toNat +
        releasedSum (events ++ (step (exposureSystem rm capitalFp) s a).2) ≠
      reservedSum (events ++ (step (exposureSystem rm capitalFp) s a).2) := by
  unfold FitsWord at hfits
  push Not at hfits
  obtain ⟨sizeFp, hmem, hlarge⟩ := hfits
  have hword := s.shared.toNat_lt
  obtain ⟨-, hnew, verdict, hevents⟩ := step_of_reserved (by omega) hmem
  have hadd := satAdd_toNat s.shared sizeFp
  rw [reservedSum_append, releasedSum_append, hnew, hevents]
  change _ + (_ + 0) ≠ _ + (sizeFp.toNat + 0)
  omega

end Steps

/-! ## Runs -/

section Runs

variable (rm : RiskManager) (capitalFp : UInt64) (actions : List (Action Call Bool))

/-- At every point of the run the total is at most the share of the capital, and it is the sum of
the reservations less that of the releases. -/
def ExposureAccounted : Prop :=
  ∀ before, before <+: actions →
    (stateAfter rm capitalFp before).shared.toNat ≤
        rm.maxTotalExposureBps.toNat * capitalFp.toNat / 10000 ∧
      ((stateAfter rm capitalFp before).shared.toNat : ℤ) =
        reservedSum (eventsOf rm capitalFp before) - releasedSum (eventsOf rm capitalFp before)

/-- At every point of the run no more has been asked to be released than was reserved. -/
def ReleasesCovered : Prop :=
  ∀ before, before <+: actions →
    releasingSum (eventsOf rm capitalFp before) ≤ reservedSum (eventsOf rm capitalFp before)

/-- Every reservation of the run fits a word, with the total before it. -/
def ReservationsFit : Prop :=
  ∀ before a after, actions = before ++ a :: after →
    FitsWord rm capitalFp (stateAfter rm capitalFp before) a

variable {rm capitalFp actions}

lemma stateAfter_snoc (before : List (Action Call Bool)) (a : Action Call Bool) :
    stateAfter rm capitalFp (before ++ [a]) =
      (step (exposureSystem rm capitalFp) (stateAfter rm capitalFp before) a).1 := by
  unfold stateAfter
  rw [runState_append]
  rfl

lemma eventsOf_snoc (before : List (Action Call Bool)) (a : Action Call Bool) :
    eventsOf rm capitalFp (before ++ [a]) = eventsOf rm capitalFp before ++
      (step (exposureSystem rm capitalFp) (stateAfter rm capitalFp before) a).2 := by
  unfold eventsOf
  rw [runTrace_append, runTrace_cons, runTrace_nil, List.append_nil]
  rfl

/-- The events of a point of a run are events of the run. -/
lemma mem_eventsOf {before after : List (Action Call Bool)} {a : Action Call Bool} {e : Event}
    (he : e ∈ (step (exposureSystem rm capitalFp) (stateAfter rm capitalFp before) a).2) :
    e ∈ eventsOf rm capitalFp (before ++ a :: after) :=
  mem_runTrace_iff.mpr ⟨before, a, after, rfl, he⟩

/-- The books are kept in a run whose releases are covered, whose loops find an attempt that
succeeds, and whose reservations fit a word. -/
lemma books_stateAfter (hcovered : ReleasesCovered rm capitalFp actions)
    (hexhausted : Event.exhausted ∉ eventsOf rm capitalFp actions)
    (hfit : ReservationsFit rm capitalFp actions) :
    Books (stateAfter rm capitalFp actions) (eventsOf rm capitalFp actions) := by
  have hstart : Books (idle (rm.maxExposureFp capitalFp)) [] := ⟨rfl, rfl⟩
  refine run_induction (I := Books)
    (C := fun s events a => releasingSum events ≤ reservedSum events ∧
      Event.exhausted ∉ (step (exposureSystem rm capitalFp) s a).2 ∧ FitsWord rm capitalFp s a)
    (fun s events a hs ha => hs.step ha.1 ha.2.1 ha.2.2) hstart ?_
  rintro before a after rfl
  exact ⟨hcovered before (List.prefix_append _ _), mt mem_eventsOf hexhausted,
    hfit before a after rfl⟩

/-- The exposure is within the cap at every point. -/
lemma stateAfter_le (rm : RiskManager) (capitalFp : UInt64) (actions : List (Action Call Bool)) :
    (stateAfter rm capitalFp actions).shared ≤ rm.maxExposureFp capitalFp := by
  unfold stateAfter
  have hstep : ∀ (s : State UInt64 (Op (rm.maxExposureFp capitalFp))) (a : Action Call Bool),
      s.shared ≤ rm.maxExposureFp capitalFp → True →
      (step (exposureSystem rm capitalFp) s a).1.shared ≤ rm.maxExposureFp capitalFp :=
    fun _ a hs _ => shared_step_le hs a
  exact runState_induction hstep UInt64.zero_le fun _ _ => trivial

/-- A share of at most all of the capital, without the cut to a word. -/
lemma maxExposureFp_toNat (hbps : rm.maxTotalExposureBps.toNat ≤ 10000) :
    (rm.maxExposureFp capitalFp).toNat =
      rm.maxTotalExposureBps.toNat * capitalFp.toNat / 10000 := by
  unfold RiskManager.maxExposureFp bpsOfCapitalFp
  split_ifs with hzero
  · simp [hzero]
  · have hle : rm.maxTotalExposureBps.toNat * capitalFp.toNat / bpsScale ≤ capitalFp.toNat := by
      refine Nat.div_le_of_le_mul ?_
      exact Nat.mul_le_mul_right _ hbps
    exact UInt64.toNat_ofNat_of_lt' (hle.trans_lt capitalFp.toNat_lt)

/-- A share of at most one is at most ten thousand basis points. -/
lemma pctToBps_le {pct : Decimal} (hpct : pct ≤ 1) : (pctToBps pct).toNat ≤ 10000 := by
  unfold pctToBps
  split_ifs with hneg
  · simp
  · have hnonneg : 0 ≤ pct * bpsScale := mul_nonneg (not_lt.mp hneg) (by norm_num [bpsScale])
    have hle : pct * bpsScale ≤ 10000 := by
      norm_num [bpsScale]
      linarith
    have hfloor : ⌊pct * bpsScale⌋.toNat ≤ 10000 := by
      rw [Int.floor_toNat]
      exact Nat.floor_le_of_le hle
    unfold Decimal.toU64
    rw [if_neg (not_lt.mpr hnonneg), if_neg (by omega), Option.getD_some,
      UInt64.toNat_ofNat_of_lt' (hfloor.trans_lt (by norm_num))]
    exact hfloor

/-- Unless the cap is the largest word, every reservation fits a word. -/
lemma reservationsFit_of_ne (hbps : rm.maxTotalExposureBps.toNat ≤ 10000)
    (hne : ¬ (rm.maxTotalExposureBps = 10000 ∧ capitalFp = maxWord)) :
    ReservationsFit rm capitalFp actions := by
  have hcap : (rm.maxExposureFp capitalFp).toNat < 2 ^ 64 - 1 := by
    rw [maxExposureFp_toNat hbps, Nat.div_lt_iff_lt_mul (by norm_num)]
    have hword := capitalFp.toNat_lt
    rcases not_and_or.mp hne with hne | hne
    · have hlt : rm.maxTotalExposureBps.toNat < 10000 :=
        lt_of_le_of_ne hbps fun heq => hne (UInt64.toNat_inj.mp heq)
      calc rm.maxTotalExposureBps.toNat * capitalFp.toNat
          ≤ 9999 * (2 ^ 64 - 1) := Nat.mul_le_mul (by omega) (by omega)
        _ < (2 ^ 64 - 1) * 10000 := by norm_num
    · have hlt : capitalFp.toNat < 2 ^ 64 - 1 := by
        refine lt_of_le_of_ne (by omega) fun heq => hne ?_
        exact UInt64.toNat_inj.mp (heq.trans maxWord_toNat.symm)
      calc rm.maxTotalExposureBps.toNat * capitalFp.toNat
          ≤ 10000 * (2 ^ 64 - 2) := Nat.mul_le_mul hbps (by omega)
        _ < (2 ^ 64 - 1) * 10000 := by norm_num
  rintro before a after - sizeFp hmem
  by_contra hlarge
  have hword := (stateAfter rm capitalFp before).shared.toNat_lt
  obtain ⟨hgranted, -⟩ := step_of_reserved (by omega) hmem
  rw [UInt64.le_iff_toNat_le, satAdd_toNat] at hgranted
  omega

/-- In a run whose releases are covered and whose loops do not run out of attempts, the cap holds
and the total is the reservations less the releases exactly when every reservation fits a word; and
this is so unless the cap is the largest word. -/
theorem exposure_books_iff (pct : Decimal) (hpct : pct ≤ 1) (rm : RiskManager)
    (hrm : rm.maxTotalExposureBps = pctToBps pct) (capitalFp : UInt64)
    (actions : List (Action Call Bool)) (hcovered : ReleasesCovered rm capitalFp actions)
    (hexhausted : Event.exhausted ∉ eventsOf rm capitalFp actions) :
    (ExposureAccounted rm capitalFp actions ↔ ReservationsFit rm capitalFp actions) ∧
      (¬ (rm.maxTotalExposureBps = 10000 ∧ capitalFp = maxWord) →
        ReservationsFit rm capitalFp actions) := by
  have hbps : rm.maxTotalExposureBps.toNat ≤ 10000 := by
    rw [hrm]
    exact pctToBps_le hpct
  refine ⟨⟨?_, ?_⟩, reservationsFit_of_ne hbps⟩
  · rintro h before a after rfl
    have hbefore := (h before (List.prefix_append _ _)).2
    have hafter := (h (before ++ [a]) (by simp)).2
    rw [stateAfter_snoc, eventsOf_snoc] at hafter
    have htotal : (stateAfter rm capitalFp before).shared.toNat +
        releasedSum (eventsOf rm capitalFp before) =
          reservedSum (eventsOf rm capitalFp before) := by omega
    by_contra hfits
    exact total_ne_of_not_fitsWord htotal hfits (by omega)
  · intro hfit before hprefix
    obtain ⟨rest, rfl⟩ := hprefix
    constructor
    · rw [← maxExposureFp_toNat hbps]
      exact UInt64.le_iff_toNat_le.mp (stateAfter_le rm capitalFp before)
    · have hbooks : Books (stateAfter rm capitalFp before) (eventsOf rm capitalFp before) := by
        apply books_stateAfter
        · exact fun pre hpre => hcovered pre (hpre.trans (List.prefix_append _ _))
        · intro hmem
          refine hexhausted ?_
          unfold eventsOf at hmem ⊢
          rw [runTrace_append]
          exact List.mem_append_left _ hmem
        · rintro pre a post rfl
          exact hfit pre a (post ++ rest) (by simp)
      have htotal := hbooks.total
      omega

end Runs

/-- A manager with the limits of the tests, the whole capital as cap, and no open trade. -/
def testManager : RiskManager := RiskManager.new testRiskConfig 0

/-- A check of a trade of the given size, which passes the layers before the reservation. -/
def testRequest (sizeFp : UInt64) : TradeRequest where
  clk := ⟨0, 0, 0⟩
  expectedProfitBps := 15
  sizeFp := sizeFp
  exchangeId := 0

/-- Two checks race for a capital of one dollar, and one of them reserves again after a release. -/
def racingChecks : List (Action Call Bool) :=
  [.enter (.preTradeCheck (testRequest 600000)), .enter (.preTradeCheck (testRequest 300000)),
    .access 0 false, .access 1 false, .access 0 false, .access 0 false, .access 0 false,
    .access 0 false, .enter (.releaseExposure 600000), .access 0 false, .access 0 true,
    .access 0 false, .access 0 false]

/-- The first check reserves, the exchange of the second fails and its second attempt succeeds, and
the release gives the first size back after an exchange that fails for no reason. -/
theorem exposure_books_iff_racingChecks :
    (stateAfter testManager 1000000 racingChecks).shared = 300000 ∧
      ExposureAccounted testManager 1000000 racingChecks := by
  have hpct : testRiskConfig.maxTotalExposurePct ≤ 1 := by decide +kernel
  have hcovered : ReleasesCovered testManager 1000000 racingChecks := by
    intro before hbefore
    have hall : ∀ pre ∈ racingChecks.inits, releasingSum (eventsOf testManager 1000000 pre) ≤
        reservedSum (eventsOf testManager 1000000 pre) := by decide +kernel
    exact hall before ((List.mem_inits _ _).mpr hbefore)
  have hspec := exposure_books_iff _ hpct testManager rfl 1000000 racingChecks hcovered
    (by decide +kernel)
  exact ⟨by decide +kernel, hspec.1.mpr (hspec.2 (by decide +kernel))⟩

/-- Two checks one after the other that together go beyond the largest word. -/
def saturatingChecks : List (Action Call Bool) :=
  [.enter (.preTradeCheck (testRequest maxWord)), .access 0 false, .access 0 false,
    .enter (.preTradeCheck (testRequest 1000000)), .access 0 false, .access 0 false]

/-- With the largest word as capital and all of it as cap, a check reserves one dollar on top of the
largest word: the total does not grow. -/
theorem saturatingChecks_not_accounted :
    testRiskConfig.maxTotalExposurePct ≤ 1 ∧
      ReleasesCovered testManager maxWord saturatingChecks ∧
      Event.exhausted ∉ eventsOf testManager maxWord saturatingChecks ∧
      ¬ ExposureAccounted testManager maxWord saturatingChecks := by
  refine ⟨by decide +kernel, ?_, by decide +kernel, ?_⟩
  · intro before hbefore
    have hall : ∀ pre ∈ saturatingChecks.inits, releasingSum (eventsOf testManager maxWord pre) ≤
        reservedSum (eventsOf testManager maxWord pre) := by decide +kernel
    exact hall before ((List.mem_inits _ _).mpr hbefore)
  · intro h
    exact absurd (h saturatingChecks (List.prefix_refl _)).2 (by decide +kernel)

/-! ## A check that runs alone -/

/-- A check whose accesses nobody interrupts answers as the sequential gate does and leaves the
exposure that it leaves. -/
theorem preTradeCheck_alone (rm : RiskManager) (capitalFp : UInt64) (request : TradeRequest) :
    let alone := [.enter (.preTradeCheck request), .access 0 false, .access 0 false]
    let start : State UInt64 (Op (rm.maxExposureFp capitalFp)) := ⟨rm.totalExposure, []⟩
    let gate := rm.preTradeCheck request.clk request.expectedProfitBps request.sizeFp capitalFp
      request.exchangeId
    (runState (step (exposureSystem rm capitalFp)) start alone).shared = gate.2.totalExposure ∧
      (runTrace (step (exposureSystem rm capitalFp)) start alone).getLast? =
        some (.answered gate.1) := by
  intro alone start gate
  cases hbefore : rm.layersBeforeReserve request.clk request.expectedProfitBps capitalFp with
  | some rejection =>
    simp [alone, start, gate, step, exposureSystem, enter, RiskManager.preTradeCheck, hbefore]
  | none =>
    by_cases hcap : rm.maxExposureFp capitalFp < satAdd rm.totalExposure request.sizeFp
    · simp [alone, start, gate, step, exposureSystem, enter, access, proceed,
        RiskManager.preTradeCheck, RiskManager.tryReserveExposure, hbefore, hcap]
    · have hafter : ∀ total, RiskManager.layersAfterReserve { rm with totalExposure := total }
          request.clk request.sizeFp capitalFp request.exchangeId =
          rm.layersAfterReserve request.clk request.sizeFp capitalFp request.exchangeId :=
        fun _ => rfl
      cases hverdict : rm.layersAfterReserve request.clk request.sizeFp capitalFp
          request.exchangeId <;>
        simp [alone, start, gate, step, exposureSystem, enter, access, proceed,
          verdictAfterReserve, RiskManager.preTradeCheck, RiskManager.tryReserveExposure, hbefore,
          hcap, hafter, hverdict]

end ExposureRaces

end HftArb
