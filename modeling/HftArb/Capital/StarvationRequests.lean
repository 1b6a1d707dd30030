import HftArb.Capital.Rebalancer
import HftArb.Capital.StarvationDetector

/-!
# Requests for starved exchanges

Every 500 ticks the signal loop checks the balances of all exchanges, one after the other.  The
callback of the detector looks for the exchange with the largest balance and puts a request for a
transfer into the bounded channel of the rebalancer, which also takes requests of the settlements
and which the rebalancer empties in its own time.  A full channel drops a request.

Nothing in the program clears a starved exchange, so that the first low balance of an exchange is
also the last one that is acted upon, whatever became of its request (`first_low_balance_only`).
What is accepted reaches the rebalancer in order, and a request that finds no source asks for
nothing and is refused there (`requests_conserved`).
-/

namespace HftArb

namespace StarvationRequests

open Runs Interleaving StarvationDetector

/-- `check_balance`, uninterrupted: the detector after it, whether the callback is called, and the
result. -/
def checkBalance (minThreshold : Decimal) (d : Detector) (exchangeId tokenId : ℕ)
    (currentBalance : Decimal) : Detector × Bool × Option StarvationEvent :=
  if currentBalance ≤ minThreshold then
    let event : StarvationEvent := ⟨exchangeId, tokenId, currentBalance, minThreshold⟩
    (⟨insert exchangeId d.starvedExchanges, some event⟩,
      decide (exchangeId ∉ d.starvedExchanges), some event)
  else (d, false, none)

/-- The exchange with the largest positive balance among the first ones but the starved one, and its
balance: `best_src` and `best_bal`. -/
def bestSource (starvedExchangeId : ℕ) (balances : ℕ → Decimal) (numExch : ℕ) :
    UInt16 × Decimal :=
  (List.range numExch).foldl (fun best eid =>
    if eid = starvedExchangeId then best
    else if best.2 < balances eid then (UInt16.ofNat eid, balances eid) else best) (0, 0)

/-- `transfer_amount`. -/
def transferAmount (bestBal : Decimal) : Decimal :=
  if 500 < bestBal then 500 else bestBal * 80 / 100

/-- What the parts of the program that send requests share, and where the checks of the signal loop
stand. -/
structure Pipeline where
  detector : Detector
  next : ℕ
  queue : List RebalanceRequest

/-- What happens next: the signal loop checks an exchange, with the balance that it reads and those
that the callback reads; a settlement sends a request; the rebalancer takes one. -/
inductive Action
  | check (currentBalance : Decimal) (balances : ℕ → Decimal)
  | settle (req : RebalanceRequest)
  | receive

/-- What becomes of a balance and of a request. -/
inductive Event
  | checked (exchangeId : ℕ) (low : Bool)
  | requested (exchangeId : ℕ) (balances : ℕ → Decimal) (req : RebalanceRequest)
  | accepted (req : RebalanceRequest)
  | dropped (req : RebalanceRequest)
  | received (req : RebalanceRequest)

section Model

variable (minThreshold : Decimal) (numExch : ℕ) (usdtTokenId : Option UInt16)

/-- The request of the callback. -/
def callbackRequest (starvedExchangeId : ℕ) (balances : ℕ → Decimal) : RebalanceRequest where
  fromExchangeId := (bestSource starvedExchangeId balances numExch).1
  toExchangeId := UInt16.ofNat starvedExchangeId
  tokenId := usdtTokenId.getD 0
  amount := transferAmount (bestSource starvedExchangeId balances numExch).2
  tokenSymbol := "USDT"

/-- The capacity of `create_rebalance_channel`. -/
def channelCapacity : ℕ := 10

/-- `try_send`. -/
def trySend (queue : List RebalanceRequest) (req : RebalanceRequest) :
    List RebalanceRequest × List Event :=
  if queue.length < channelCapacity then (queue ++ [req], [.accepted req])
  else (queue, [.dropped req])

/-- The exchange that is checked after another one. -/
def nextExchange (exchangeId : ℕ) : ℕ := if exchangeId + 1 < numExch then exchangeId + 1 else 0

/-- One step. -/
def step (p : Pipeline) : Action → Pipeline × List Event
  | .check currentBalance balances =>
    if numExch = 0 then (p, [])
    else
      let done := checkBalance minThreshold p.detector p.next 0 currentBalance
      if done.2.1 then
        let req := callbackRequest numExch usdtTokenId p.next balances
        let sent := trySend p.queue req
        (⟨done.1, nextExchange numExch p.next, sent.1⟩,
          [.requested p.next balances req] ++ sent.2 ++ [.checked p.next done.2.2.isSome])
      else (⟨done.1, nextExchange numExch p.next, p.queue⟩, [.checked p.next done.2.2.isSome])
  | .settle req =>
    let sent := trySend p.queue req
    ({ p with queue := sent.1 }, sent.2)
  | .receive =>
    match p.queue with
    | [] => (p, [])
    | req :: queue => ({ p with queue := queue }, [.received req])

/-- The program when the signal loop starts. -/
def start : Pipeline := ⟨⟨∅, none⟩, 0, []⟩

variable {minThreshold numExch usdtTokenId}

/-! ## The check and the callback -/

/-- A check that is not interrupted leaves the detector of `checkBalance`, and calls the callback as
this one says. -/
lemma checkBalance_alone (d : Detector) (exchangeId tokenId : ℕ) (currentBalance : Decimal) :
    let alone : List (Interleaving.Action Call Unit) :=
      [.enter (.checkBalance exchangeId tokenId currentBalance), .access 0 (), .access 0 (),
        .access 0 ()]
    let done := checkBalance minThreshold d exchangeId tokenId currentBalance
    runState (Interleaving.step (detectorSystem minThreshold)) ⟨d, []⟩ alone = ⟨done.1, []⟩ ∧
      (runTrace (Interleaving.step (detectorSystem minThreshold)) ⟨d, []⟩ alone).countP
        (StarvationDetector.Event.isCalled exchangeId) = if done.2.1 then 1 else 0 := by
  dsimp only
  by_cases hlow : currentBalance ≤ minThreshold
  · by_cases hmem : exchangeId ∈ d.starvedExchanges <;>
      simp [checkBalance, Interleaving.step, detectorSystem, enter, access, proceed, hlow, hmem,
        StarvationDetector.Event.isCalled]
  · simp [checkBalance, Interleaving.step, detectorSystem, enter, hlow,
      StarvationDetector.Event.isCalled]

/-- What the search for a source finds: nothing, when no other exchange has a positive balance, or
the first of the others with the largest balance. -/
lemma bestSource_spec (starvedExchangeId : ℕ) (balances : ℕ → Decimal) (numExch : ℕ) :
    (bestSource starvedExchangeId balances numExch = (0, 0) ∧
        ∀ eid < numExch, eid ≠ starvedExchangeId → balances eid ≤ 0) ∨
      ∃ eid < numExch, eid ≠ starvedExchangeId ∧ 0 < balances eid ∧
        bestSource starvedExchangeId balances numExch = (UInt16.ofNat eid, balances eid) ∧
        ∀ other < numExch, other ≠ starvedExchangeId → balances other ≤ balances eid := by
  induction numExch with
  | zero => exact Or.inl ⟨rfl, fun eid h => absurd h (Nat.not_lt_zero eid)⟩
  | succ n ih =>
    have hstep : bestSource starvedExchangeId balances (n + 1) =
        if n = starvedExchangeId then bestSource starvedExchangeId balances n
        else if (bestSource starvedExchangeId balances n).2 < balances n then
          (UInt16.ofNat n, balances n) else bestSource starvedExchangeId balances n := by
      rw [bestSource, List.range_succ, List.foldl_append]
      rfl
    have hothers : ∀ {bound : Decimal}, (n ≠ starvedExchangeId → balances n ≤ bound) →
        (∀ eid < n, eid ≠ starvedExchangeId → balances eid ≤ bound) →
        ∀ eid < n + 1, eid ≠ starvedExchangeId → balances eid ≤ bound := by
      intro bound hlast hbefore eid heid hne
      rcases Nat.lt_succ_iff_lt_or_eq.mp heid with hlt | rfl
      · exact hbefore eid hlt hne
      · exact hlast hne
    rw [hstep]
    by_cases hn : n = starvedExchangeId
    · rw [if_pos hn]
      rcases ih with ⟨heq, hall⟩ | ⟨eid, hlt, hne, hpos, heq, hall⟩
      · exact Or.inl ⟨heq, hothers (absurd hn) hall⟩
      · exact Or.inr ⟨eid, by omega, hne, hpos, heq, hothers (absurd hn) hall⟩
    · rw [if_neg hn]
      rcases ih with ⟨heq, hall⟩ | ⟨eid, hlt, hne, hpos, heq, hall⟩
      · rw [heq]
        dsimp only
        split_ifs with hlarger
        · exact Or.inr ⟨n, n.lt_succ_self, hn, hlarger, rfl, hothers (fun _ => le_rfl)
            fun other hother hne => (hall other hother hne).trans hlarger.le⟩
        · exact Or.inl ⟨rfl, hothers (fun _ => not_lt.mp hlarger) hall⟩
      · rw [heq]
        dsimp only
        split_ifs with hlarger
        · exact Or.inr ⟨n, n.lt_succ_self, hn, hpos.trans hlarger, rfl, hothers (fun _ => le_rfl)
            fun other hother hne => (hall other hother hne).trans hlarger.le⟩
        · exact Or.inr ⟨eid, by omega, hne, hpos, rfl, hothers (fun _ => not_lt.mp hlarger) hall⟩

/-- A request for an exchange asks for at most 500.  It asks for nothing when no other exchange has
a positive balance, and otherwise for less than the largest balance, from an exchange that has
it. -/
structure Sourced (numExch exchangeId : ℕ) (balances : ℕ → Decimal) (req : RebalanceRequest) :
    Prop where
  destination : req.toExchangeId = UInt16.ofNat exchangeId
  amount_le : req.amount ≤ 500
  source : req.amount = 0 ∧ req.fromExchangeId = 0 ∧
      (∀ eid < numExch, eid ≠ exchangeId → balances eid ≤ 0) ∨
    ∃ eid < numExch, eid ≠ exchangeId ∧ req.fromExchangeId = UInt16.ofNat eid ∧ 0 < req.amount ∧
      req.amount < balances eid ∧
      ∀ other < numExch, other ≠ exchangeId → balances other ≤ balances eid

lemma sourced_callbackRequest (exchangeId : ℕ) (balances : ℕ → Decimal) :
    Sourced numExch exchangeId balances
      (callbackRequest numExch usdtTokenId exchangeId balances) := by
  have hamount : (callbackRequest numExch usdtTokenId exchangeId balances).amount =
      transferAmount (bestSource exchangeId balances numExch).2 := rfl
  have hfrom : (callbackRequest numExch usdtTokenId exchangeId balances).fromExchangeId =
      (bestSource exchangeId balances numExch).1 := rfl
  refine ⟨rfl, ?_, ?_⟩
  · rw [hamount, transferAmount]
    split_ifs <;> linarith
  · rw [hamount, hfrom]
    rcases bestSource_spec exchangeId balances numExch with ⟨heq, hall⟩ |
      ⟨eid, hlt, hne, hpos, heq, hall⟩
    · rw [heq]
      exact Or.inl ⟨by norm_num [transferAmount], rfl, hall⟩
    · rw [heq]
      refine Or.inr ⟨eid, hlt, hne, rfl, ?_, ?_, hall⟩
      · rw [transferAmount]
        split_ifs <;> linarith
      · rw [transferAmount]
        split_ifs <;> linarith

/-! ## Runs -/

/-- A request for an exchange. -/
def Event.isRequestFor (exchangeId : ℕ) : Event → Bool
  | .requested other _ _ => decide (other = exchangeId)
  | _ => false

/-- A low balance of an exchange. -/
def Event.isLow (exchangeId : ℕ) : Event → Bool
  | .checked other low => decide (other = exchangeId) && low
  | _ => false

/-- A request that the channel takes. -/
def Event.accepted? : Event → Option RebalanceRequest
  | .accepted req => some req
  | _ => none

/-- A request that the rebalancer takes. -/
def Event.received? : Event → Option RebalanceRequest
  | .received req => some req
  | _ => none

/-- What an event shows of the events before it: a request is made as `Sourced` says, and one is
dropped when the channel is full. -/
def Shown (numExch : ℕ) (history : List Event) : Event → Prop
  | .requested exchangeId balances req => Sourced numExch exchangeId balances req
  | .dropped _ => (history.filterMap Event.accepted?).length =
      (history.filterMap Event.received?).length + channelCapacity
  | _ => True

/-- The channel and the events so far. -/
structure Conserved (numExch : ℕ) (p : Pipeline) (tr : List Event) : Prop where
  accepted : tr.filterMap Event.accepted? = tr.filterMap Event.received? ++ p.queue
  capacity : p.queue.length ≤ channelCapacity
  shown : Guarded (Shown numExch) tr

/-- The detector and the events so far. -/
structure Counted (p : Pipeline) (tr : List Event) : Prop where
  starved : ∀ exchangeId, exchangeId ∈ p.detector.starvedExchanges ↔
    0 < tr.countP (Event.isLow exchangeId)
  requests : ∀ exchangeId, tr.countP (Event.isRequestFor exchangeId) =
    if exchangeId ∈ p.detector.starvedExchanges then 1 else 0

variable {p : Pipeline} {tr : List Event}

/-- What an event keeps that is neither taken by the channel nor by the rebalancer. -/
lemma Conserved.inert (h : Conserved numExch p tr) {e : Event} (haccepted : e.accepted? = none)
    (hreceived : e.received? = none) (hshown : Shown numExch tr e) (detector : Detector)
    (next : ℕ) : Conserved numExch ⟨detector, next, p.queue⟩ (tr ++ [e]) where
  accepted := by simpa [List.filterMap_append, haccepted, hreceived] using h.accepted
  capacity := h.capacity
  shown := guarded_append_singleton.mpr ⟨h.shown, hshown⟩

/-- What a sent request keeps. -/
lemma Conserved.send (h : Conserved numExch p tr) (req : RebalanceRequest) (detector : Detector)
    (next : ℕ) :
    Conserved numExch ⟨detector, next, (trySend p.queue req).1⟩
      (tr ++ (trySend p.queue req).2) := by
  unfold trySend
  split_ifs with hroom
  · refine ⟨?_, ?_, guarded_append_singleton.mpr ⟨h.shown, trivial⟩⟩
    · simp [List.filterMap_append, Event.accepted?, Event.received?, h.accepted]
    · rw [List.length_append, List.length_singleton]
      exact hroom
  · refine h.inert rfl rfl ?_ detector next
    have hfull : p.queue.length = channelCapacity := le_antisymm h.capacity (not_lt.mp hroom)
    rw [Shown, h.accepted, List.length_append, hfull]

/-- What one step keeps of the channel. -/
lemma Conserved.step (h : Conserved numExch p tr) (a : Action) :
    Conserved numExch (step minThreshold numExch usdtTokenId p a).1
      (tr ++ (step minThreshold numExch usdtTokenId p a).2) := by
  cases a with
  | check currentBalance balances =>
    simp only [StarvationRequests.step]
    split_ifs with hnone hcalls
    · simpa using h
    · have hrequested := h.inert (e := .requested p.next balances
        (callbackRequest numExch usdtTokenId p.next balances)) rfl rfl
        (sourced_callbackRequest ..) p.detector p.next
      have hsent := hrequested.send (callbackRequest numExch usdtTokenId p.next balances)
        p.detector p.next
      have hchecked := hsent.inert (e := .checked p.next
        (checkBalance minThreshold p.detector p.next 0 currentBalance).2.2.isSome) rfl rfl trivial
        (checkBalance minThreshold p.detector p.next 0 currentBalance).1
        (nextExchange numExch p.next)
      simpa using hchecked
    · exact h.inert (e := .checked ..) rfl rfl trivial ..
  | settle req => exact h.send req p.detector p.next
  | receive =>
    simp only [StarvationRequests.step]
    cases hqueue : p.queue with
    | nil => simpa using h
    | cons req queue =>
      refine ⟨?_, ?_, guarded_append_singleton.mpr ⟨h.shown, trivial⟩⟩
      · simp [List.filterMap_append, Event.accepted?, Event.received?, h.accepted, hqueue]
      · have hcapacity := h.capacity
        rw [hqueue, List.length_cons] at hcapacity
        exact (Nat.le_succ _).trans hcapacity

/-- What a check does: nothing without exchanges; or it finds a balance that is high enough, or a
low one of an exchange that is starved already, or one of an exchange that becomes starved now. -/
lemma step_check_cases (minThreshold : Decimal) (p : Pipeline) (currentBalance : Decimal)
    (balances : ℕ → Decimal) :
    let after := step minThreshold numExch usdtTokenId p (.check currentBalance balances)
    let req := callbackRequest numExch usdtTokenId p.next balances
    after = (p, []) ∨
      after.1.detector.starvedExchanges = p.detector.starvedExchanges ∧
        after.2 = [.checked p.next false] ∨
      p.next ∈ p.detector.starvedExchanges ∧
        after.1.detector.starvedExchanges = p.detector.starvedExchanges ∧
        after.2 = [.checked p.next true] ∨
      p.next ∉ p.detector.starvedExchanges ∧
        after.1.detector.starvedExchanges = insert p.next p.detector.starvedExchanges ∧
        after.2 = [.requested p.next balances req] ++ (trySend p.queue req).2 ++
          [.checked p.next true] := by
  dsimp only [step, checkBalance]
  by_cases hnone : numExch = 0
  · exact Or.inl (if_pos hnone)
  rw [if_neg hnone]
  by_cases hlow : currentBalance ≤ minThreshold
  · rw [if_pos hlow]
    by_cases hmem : p.next ∈ p.detector.starvedExchanges
    · exact Or.inr (Or.inr (Or.inl ⟨hmem, by simp [hmem], by simp [hmem]⟩))
    · exact Or.inr (Or.inr (Or.inr ⟨hmem, by simp [hmem], by simp [hmem]⟩))
  · rw [if_neg hlow]
    exact Or.inr (Or.inl ⟨rfl, rfl⟩)

/-- Sending is neither a low balance nor the making of a request. -/
lemma countP_trySend (queue : List RebalanceRequest) (req : RebalanceRequest) (exchangeId : ℕ) :
    (trySend queue req).2.countP (Event.isLow exchangeId) = 0 ∧
      (trySend queue req).2.countP (Event.isRequestFor exchangeId) = 0 := by
  unfold trySend
  split_ifs <;> exact ⟨rfl, rfl⟩

/-- What a check adds to the low balances of an exchange. -/
lemma countP_isLow_checked (exchangeId other : ℕ) :
    [Event.checked other true].countP (Event.isLow exchangeId) =
      if exchangeId = other then 1 else 0 := by
  by_cases hid : exchangeId = other
  · simp [Event.isLow, hid]
  · simp [Event.isLow, hid, Ne.symm hid]

/-- What one step keeps of the detector. -/
lemma Counted.step (h : Counted p tr) (a : Action) :
    Counted (step minThreshold numExch usdtTokenId p a).1
      (tr ++ (step minThreshold numExch usdtTokenId p a).2) := by
  cases a with
  | check currentBalance balances =>
    rcases step_check_cases minThreshold p currentBalance balances with
      heq | ⟨hstarved, hevents⟩ | ⟨hmem, hstarved, hevents⟩ | ⟨hmem, hstarved, hevents⟩
    · rw [heq]
      simpa using h
    · rw [hevents]
      refine ⟨fun exchangeId => ?_, fun exchangeId => ?_⟩
      · rw [hstarved, List.countP_append, h.starved]
        simp [Event.isLow]
      · rw [hstarved, List.countP_append, h.requests]
        rfl
    · rw [hevents]
      refine ⟨fun exchangeId => ?_, fun exchangeId => ?_⟩
      · rw [hstarved, List.countP_append, countP_isLow_checked, h.starved]
        split_ifs with hid
        · subst hid
          exact iff_of_true ((h.starved _).mp hmem) (Nat.succ_pos _)
        · rfl
      · rw [hstarved, List.countP_append, h.requests]
        rfl
    · have hsent := countP_trySend p.queue (callbackRequest numExch usdtTokenId p.next balances)
      rw [hevents]
      refine ⟨fun exchangeId => ?_, fun exchangeId => ?_⟩
      · have hcount : ([Event.requested p.next balances
            (callbackRequest numExch usdtTokenId p.next balances)]).countP
              (Event.isLow exchangeId) = 0 := rfl
        rw [hstarved, Finset.mem_insert, h.starved, List.countP_append, List.countP_append,
          List.countP_append, hcount, (hsent exchangeId).1, countP_isLow_checked]
        split_ifs with hid
        · exact iff_of_true (Or.inl hid) (Nat.succ_pos _)
        · rw [or_iff_right hid]
          rfl
      · have hcount : [Event.checked p.next true].countP (Event.isRequestFor exchangeId) = 0 := rfl
        rw [hstarved, List.countP_append, List.countP_append, List.countP_append, hcount,
          (hsent exchangeId).2, h.requests]
        by_cases hid : exchangeId = p.next
        · subst hid
          rw [if_neg hmem, if_pos (Finset.mem_insert_self ..)]
          simp [Event.isRequestFor]
        · simp [Event.isRequestFor, hid, Ne.symm hid]
  | settle req =>
    obtain ⟨hlow, hrequest⟩ := forall_and.mp fun exchangeId => countP_trySend p.queue req exchangeId
    refine ⟨fun exchangeId => ?_, fun exchangeId => ?_⟩
    · simp only [StarvationRequests.step, List.countP_append, hlow]
      exact h.starved exchangeId
    · simp only [StarvationRequests.step, List.countP_append, hrequest]
      exact h.requests exchangeId
  | receive =>
    simp only [StarvationRequests.step]
    cases hqueue : p.queue with
    | nil => simpa using h
    | cons req queue =>
      refine ⟨fun exchangeId => ?_, fun exchangeId => ?_⟩
      · rw [List.countP_append]
        exact h.starved exchangeId
      · rw [List.countP_append]
        exact h.requests exchangeId

/-- The program never asks again for an exchange: in every run there is one request for each
exchange whose balance has been found too low, however often this was, and none for the others. -/
theorem first_low_balance_only (minThreshold : Decimal) (numExch : ℕ)
    (usdtTokenId : Option UInt16) (actions : List Action) (exchangeId : ℕ) :
    (runTrace (step minThreshold numExch usdtTokenId) start actions).countP
        (Event.isRequestFor exchangeId) =
      min 1 ((runTrace (step minThreshold numExch usdtTokenId) start actions).countP
        (Event.isLow exchangeId)) := by
  have hstart : Counted start [] := ⟨fun _ => by simp [start], fun _ => rfl⟩
  have hrun : Counted (runState (step minThreshold numExch usdtTokenId) start actions)
      ([] ++ runTrace (step minThreshold numExch usdtTokenId) start actions) :=
    run_induction (C := fun _ _ _ => True) (fun _ _ a h _ => h.step a) hstart
      fun _ _ _ _ => trivial
  have hrequests := hrun.requests exchangeId
  have hstarved := hrun.starved exchangeId
  rw [List.nil_append] at hrequests hstarved
  rw [hrequests]
  split_ifs with hmem
  · have hlow := hstarved.mp hmem
    omega
  · have hlow := mt hstarved.mpr hmem
    omega

/-- The rebalancer refuses a request that asks for nothing. -/
lemma exists_aborted (r : AutoCapitalRebalancer) {req : RebalanceRequest} (hreq : req.amount ≤ 0)
    (ans : AutoCapitalRebalancer.RebalanceAnswers) :
    ∃ why, r.handleRequest req ans = (r, .aborted why) := by
  have hpreflight : ∃ why, r.preflight req ans = some why := by
    unfold AutoCapitalRebalancer.preflight
    dsimp only
    split_ifs
    all_goals exact ⟨_, rfl⟩
  obtain ⟨why, hwhy⟩ := hpreflight
  refine ⟨why, ?_⟩
  rw [AutoCapitalRebalancer.handleRequest, AutoCapitalRebalancer.abortReason, hwhy]

/-- In every run what the channel has taken is what the rebalancer has taken and what is in the
channel, in this order; it holds ten requests and drops one only when it is full.  A request for an
exchange comes from one with the largest balance; where there is none it asks for nothing, and then
the rebalancer refuses it. -/
theorem requests_conserved (minThreshold : Decimal) (numExch : ℕ) (usdtTokenId : Option UInt16)
    (actions : List Action) :
    Conserved numExch (runState (step minThreshold numExch usdtTokenId) start actions)
        (runTrace (step minThreshold numExch usdtTokenId) start actions) ∧
      ∀ exchangeId balances req, .requested exchangeId balances req ∈
          runTrace (step minThreshold numExch usdtTokenId) start actions →
        (∀ eid < numExch, eid ≠ exchangeId → balances eid ≤ 0) →
        ∀ (r : AutoCapitalRebalancer) ans, ∃ why, r.handleRequest req ans = (r, .aborted why) := by
  have hstart : Conserved numExch start [] := ⟨rfl, Nat.zero_le _, trivial⟩
  have hrun : Conserved numExch (runState (step minThreshold numExch usdtTokenId) start actions)
      ([] ++ runTrace (step minThreshold numExch usdtTokenId) start actions) :=
    run_induction (C := fun _ _ _ => True) (fun _ _ a h _ => h.step a) hstart
      fun _ _ _ _ => trivial
  refine ⟨hrun, fun exchangeId balances req hmem hnone r ans => exists_aborted r ?_ ans⟩
  obtain ⟨history, later, htrace⟩ := List.append_of_mem hmem
  have hshown := hrun.shown
  rw [List.nil_append, htrace, Guarded, guardedFrom_append] at hshown
  have hsourced : Sourced numExch exchangeId balances req := hshown.2.1
  rcases hsourced.source with ⟨hzero, -⟩ | ⟨eid, hlt, hne, -, hpos, hless, -⟩
  · exact hzero.le
  · exact absurd (hpos.trans hless) (not_lt.mpr (hnone eid hlt hne))

end Model

end StarvationRequests

end HftArb
