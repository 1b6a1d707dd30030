import HftArb.Execution.TrackerRuns
import HftArb.Foundations.Runs

/-!
# The cancellation sweeper

Every few seconds the sweeper takes a snapshot of the tracked orders, asks the exchanges to cancel
those that are old enough, and drops the orders beyond the maximum age of the tracker.  Between its
steps other tasks use the tracker.

A confirmed cancellation leaves the order in the tracker, and the next sweep asks to cancel it
again.  It does not get there when an order that is old enough to be cancelled is old enough to be
dropped: `one_confirmed_cancel_iff` says that this, or the lack of any exchange to ask, is exactly
when no run asks again.
-/

namespace HftArb

open Runs

/-- The exchange and the id of an order. -/
abbrev OrderKey := UInt16 × String

/-- The exchange and the id of a tracked order. -/
def TrackedOrder.key (o : TrackedOrder) : OrderKey := (o.exchangeId, o.orderId)

/-- The exchange and the id of a submission. -/
def OrderSubmission.key (s : OrderSubmission) : OrderKey := (s.exchangeId, s.orderId)

/-- The sweeper's settings: the age from which it cancels, and what it cancels with. -/
structure SweeperConfig where
  cancelAfterSecs : ℕ
  /-- An HTTP client for cancellations is there. -/
  cancelHttpClient : Bool
  /-- The exchanges that have a typed client, if there is a pool. -/
  cancelPool : Option (UInt16 → Bool)

/-- An exchange can be asked to cancel. -/
def SweeperConfig.hasClient (config : SweeperConfig) (exchangeId : UInt16) : Bool :=
  config.cancelHttpClient && config.cancelPool.any fun pool => pool exchangeId

/-- A request to cancel an order, or its confirmation. -/
inductive SweepEvent
  | requested (key : OrderKey)
  | confirmed (key : OrderKey)
  deriving DecidableEq

/-- Ask an exchange to cancel an order: `false` without the means to ask, an error when the exchange
has no client or answers with one. -/
def attemptExchangeCancel (config : SweeperConfig) (exchangeId : UInt16) (orderId : String)
    (answer : Except String Unit) : Except String Bool × List SweepEvent :=
  match config.cancelHttpClient, config.cancelPool with
  | true, some pool =>
    if pool exchangeId then
      match answer with
      | .ok () => (.ok true, [.requested (exchangeId, orderId), .confirmed (exchangeId, orderId)])
      | .error e => (.error e, [.requested (exchangeId, orderId)])
    else
      (.error ("no typed client for exchange " ++ toString exchangeId ++ " — cannot cancel"), [])
  | _, _ => (.ok false, [])

/-- The tracker, and the orders a sweep has not looked at yet, if there is one. -/
structure Sweeper where
  tracker : LiveOrderTracker
  sweep : Option (List TrackedOrder)

/-- A step of the sweeper, with the readings of the clock and the answers of the exchanges, or an
operation of another task. -/
inductive SweeperAction
  | tick (isPaperMode : Bool)
  | visit (now : ℕ) (answer : Except String Unit)
  | finish (now : ℕ)
  | other (op : TrackerOp)

/-- The age of an order in whole seconds. -/
def TrackedOrder.ageSecs (o : TrackedOrder) (now : ℕ) : ℕ := (now - o.submittedAt) / 1000000000

namespace Sweeper

/-- No order is tracked and no sweep under way. -/
def idle (toUppercase : String → String) (maxAgeSecs maxTrackedOrders : ℕ) : Sweeper :=
  ⟨LiveOrderTracker.withMaxOrders toUppercase maxAgeSecs maxTrackedOrders, none⟩

/-- One step.  A sweep begins with a snapshot unless the engine is in paper mode or nothing is
tracked, looks at one order after the other, and ends with the cleanup of the tracker. -/
def step (config : SweeperConfig) (s : Sweeper) : SweeperAction → Sweeper × List SweepEvent
  | .tick isPaperMode =>
    match s.sweep with
    | some _ => (s, [])
    | none =>
      if isPaperMode then (s, [])
      else if s.tracker.orders.length = 0 then (s, [])
      else ({ s with sweep := some s.tracker.getAll }, [])
  | .visit now answer =>
    match s.sweep with
    | some (o :: rest) =>
      if config.cancelAfterSecs ≤ o.ageSecs now then
        ({ s with sweep := some rest },
          (attemptExchangeCancel config o.exchangeId o.orderId answer).2)
      else ({ s with sweep := some rest }, [])
    | _ => (s, [])
  | .finish now =>
    match s.sweep with
    | some [] => (⟨(s.tracker.cleanupStale now).2, none⟩, [])
    | _ => (s, [])
  | .other op => ({ s with tracker := s.tracker.perform op }, [])

end Sweeper

/-- The operation of another task. -/
def SweeperAction.op? : SweeperAction → Option TrackerOp
  | .other op => some op
  | _ => none

/-- The reading of the clock of a step. -/
def SweeperAction.time? : SweeperAction → Option ℕ
  | .tick _ => none
  | .visit now _ => some now
  | .finish now => some now
  | .other op => op.time?

/-- The orders that are tracked along some steps, with their times. -/
def ordersOf (actions : List SweeperAction) : List (OrderSubmission × ℕ) :=
  trackedIn (actions.filterMap SweeperAction.op?)

/-- The readings of the clock along some steps. -/
def timesOf (actions : List SweeperAction) : List ℕ := actions.filterMap SweeperAction.time?

/-- The clock does not go back, and every order is tracked once. -/
structure Orderly (actions : List SweeperAction) : Prop where
  times : (timesOf actions).Pairwise (· ≤ ·)
  once : (ordersOf actions).Pairwise fun a b => a.1.key ≠ b.1.key

/-- No cancellation of an order is requested once one has been confirmed. -/
def OneConfirmedCancel (events : List SweepEvent) : Prop :=
  events.Pairwise fun e e' => ∀ key, e = .confirmed key → e' ≠ .requested key

/-- The events of some steps, from an empty tracker on. -/
def sweepEvents (toUppercase : String → String) (config : SweeperConfig)
    (maxAgeSecs maxTrackedOrders : ℕ) (actions : List SweeperAction) : List SweepEvent :=
  runTrace (Sweeper.step config) (.idle toUppercase maxAgeSecs maxTrackedOrders) actions

/-! ## One step -/

/-- What an attempt to cancel brings about: nothing, a request, or a request and its
confirmation. -/
lemma attemptExchangeCancel_events (config : SweeperConfig) (exchangeId : UInt16)
    (orderId : String) (answer : Except String Unit) :
    let events := (attemptExchangeCancel config exchangeId orderId answer).2
    events = [] ∨ config.hasClient exchangeId = true ∧
      (events = [.requested (exchangeId, orderId)] ∨
        events = [.requested (exchangeId, orderId), .confirmed (exchangeId, orderId)]) := by
  unfold attemptExchangeCancel SweeperConfig.hasClient
  cases config.cancelHttpClient with
  | false => exact Or.inl rfl
  | true =>
    cases config.cancelPool with
    | none => exact Or.inl rfl
    | some pool =>
      by_cases hclient : pool exchangeId = true
      · right
        simp only [hclient, if_true]
        refine ⟨hclient, ?_⟩
        cases answer with
        | ok _ => exact Or.inr rfl
        | error _ => exact Or.inl rfl
      · simp only [hclient]
        exact Or.inl rfl

/-- The entries after an operation: those of before, up to their fills, and the one of a submission
that is tracked. -/
lemma LiveOrderTracker.mem_perform {t : LiveOrderTracker} {op : TrackerOp} {o : TrackedOrder}
    (h : o ∈ (t.perform op).orders) :
    (∃ o' ∈ t.orders, o'.key = o.key ∧ o'.submittedAt = o.submittedAt) ∨
      ∃ a ∈ op.tracked?, a.1.key = o.key ∧ a.2 = o.submittedAt := by
  cases op with
  | track clk s =>
    rcases mem_track_iff.mp h with ⟨ho, -⟩ | rfl
    · exact Or.inl ⟨o, (t.makeRoom_sublist clk.now).mem ho, rfl, rfl⟩
    · exact Or.inr ⟨(s, clk.now), rfl, rfl, rfl⟩
  | remove orderId => exact Or.inl ⟨o, (mem_without_iff.mp h).1, rfl, rfl⟩
  | cleanupStale now => exact Or.inl ⟨o, (List.mem_filter.mp h).1, rfl, rfl⟩
  | pruneOldest =>
    simp only [perform, pruneOldest] at h
    split_ifs at h
    · exact Or.inl ⟨o, h, rfl, rfl⟩
    · exact Or.inl ⟨o, (List.mem_filter.mp h).1, rfl, rfl⟩
  | updateFill orderId filledQty =>
    obtain ⟨o', ho', rfl⟩ := List.mem_map.mp h
    refine Or.inl ⟨o', ho', ?_⟩
    unfold setFill
    split_ifs
    · exact ⟨rfl, rfl⟩
    · exact ⟨rfl, rfl⟩

/-- The entries have different exchanges or ids. -/
lemma LiveOrderTracker.keys_nodup (t : LiveOrderTracker) :
    (t.orders.map TrackedOrder.key).Nodup := by
  have hids := t.orders_nodup
  rw [List.Nodup, List.pairwise_map] at hids ⊢
  exact hids.imp fun hne heq => hne (congrArg Prod.snd heq)

/-- The orders that the sweep under way has not looked at yet. -/
def Sweeper.pending (s : Sweeper) : List TrackedOrder := s.sweep.getD []

/-- What holds along a run: every entry is of an order that was tracked, and an order whose
cancellation is confirmed is not looked at again: it is stale during the sweep, and no longer
tracked after it. -/
structure Settled (maxAgeSecs : ℕ) (actions : List SweeperAction) (s : Sweeper)
    (events : List SweepEvent) : Prop where
  maxAge : s.tracker.maxAgeSecs = maxAgeSecs
  origin : ∀ o, o ∈ s.tracker.orders ∨ o ∈ s.pending →
    ∃ a ∈ ordersOf actions, a.1.key = o.key ∧ a.2 = o.submittedAt
  distinct : (s.pending.map TrackedOrder.key).Nodup
  known : ∀ key, SweepEvent.confirmed key ∈ events → ∃ a ∈ ordersOf actions, a.1.key = key
  asked : ∀ key, SweepEvent.confirmed key ∈ events → ∀ o ∈ s.pending, o.key ≠ key
  stale : ∀ key, SweepEvent.confirmed key ∈ events → ∀ o ∈ s.tracker.orders, o.key = key →
    s.sweep ≠ none ∧ ∃ time ∈ timesOf actions, maxAgeSecs ≤ o.ageSecs time

lemma ordersOf_snoc (actions : List SweeperAction) (a : SweeperAction) :
    ordersOf (actions ++ [a]) = ordersOf actions ++ (a.op?.bind TrackerOp.tracked?).toList := by
  unfold ordersOf
  cases hop : a.op? with
  | none => simp [hop]
  | some op => simp [hop, trackedIn_snoc]

lemma timesOf_snoc (actions : List SweeperAction) (a : SweeperAction) :
    timesOf (actions ++ [a]) = timesOf actions ++ a.time?.toList := by
  unfold timesOf
  cases htime : a.time? <;> simp [htime]

/-- The age of an order does not go down. -/
lemma TrackedOrder.ageSecs_mono (o : TrackedOrder) {time time' : ℕ} (h : time ≤ time') :
    o.ageSecs time ≤ o.ageSecs time' :=
  Nat.div_le_div_right (by omega)

section Steps

variable {config : SweeperConfig} {maxAgeSecs : ℕ} {actions : List SweeperAction} {s : Sweeper}
  {events : List SweepEvent}

/-- A later point of the run knows more orders and more times. -/
lemma Settled.later (h : Settled maxAgeSecs actions s events) (a : SweeperAction) :
    Settled maxAgeSecs (actions ++ [a]) s events := by
  have horders : ∀ b ∈ ordersOf actions, b ∈ ordersOf (actions ++ [a]) := by
    intro b hb
    rw [ordersOf_snoc]
    exact List.mem_append_left _ hb
  have htimes : ∀ time ∈ timesOf actions, time ∈ timesOf (actions ++ [a]) := by
    intro time htime
    rw [timesOf_snoc]
    exact List.mem_append_left _ htime
  refine ⟨h.maxAge, fun o ho => ?_, h.distinct, fun key hkey => ?_, h.asked, ?_⟩
  · obtain ⟨b, hb, hof⟩ := h.origin o ho
    exact ⟨b, horders b hb, hof⟩
  · obtain ⟨b, hb, hof⟩ := h.known key hkey
    exact ⟨b, horders b hb, hof⟩
  · intro key hkey o ho hof
    obtain ⟨hsweep, time, htime, hage⟩ := h.stale key hkey o ho hof
    exact ⟨hsweep, time, htimes time htime, hage⟩

/-- A sweep begins with a snapshot, in which no confirmed order is. -/
lemma Settled.begin (h : Settled maxAgeSecs actions s events) (hsweep : s.sweep = none) :
    Settled maxAgeSecs actions { s with sweep := some s.tracker.getAll } events := by
  have hgone : ∀ key, SweepEvent.confirmed key ∈ events → ∀ o ∈ s.tracker.orders,
      o.key ≠ key :=
    fun key hkey o ho hof => (h.stale key hkey o ho hof).1 hsweep
  refine ⟨h.maxAge, fun o ho => h.origin o (Or.inl ?_), s.tracker.keys_nodup, h.known, hgone, ?_⟩
  · exact ho.elim id id
  · exact fun key hkey o ho hof => absurd hof (hgone key hkey o ho)

/-- The sweep passes an order. -/
lemma Settled.pass {o : TrackedOrder} {rest : List TrackedOrder}
    (h : Settled maxAgeSecs actions s events) (hsweep : s.sweep = some (o :: rest)) :
    Settled maxAgeSecs actions { s with sweep := some rest } events := by
  have hpending : s.pending = o :: rest := by rw [Sweeper.pending, hsweep, Option.getD_some]
  have hdistinct := h.distinct
  rw [hpending, List.map_cons] at hdistinct
  refine ⟨h.maxAge, fun o' ho' => h.origin o' (ho'.imp_right ?_), hdistinct.of_cons, h.known, ?_,
    ?_⟩
  · intro hmem
    rw [hpending]
    exact List.mem_cons_of_mem o hmem
  · intro key hkey o' ho'
    refine h.asked key hkey o' ?_
    rw [hpending]
    exact List.mem_cons_of_mem o ho'
  · intro key hkey o' ho' hof
    exact ⟨Option.some_ne_none rest, (h.stale key hkey o' ho' hof).2⟩

/-- A cancellation is confirmed of an order that has reached the maximum age. -/
lemma Settled.confirm {o : TrackedOrder} {rest : List TrackedOrder}
    (h : Settled maxAgeSecs actions s events) (hsweep : s.sweep = some (o :: rest))
    (honce : (ordersOf actions).Pairwise fun a b => a.1.key ≠ b.1.key) {now : ℕ}
    (hnow : now ∈ timesOf actions) (hage : maxAgeSecs ≤ o.ageSecs now) :
    Settled maxAgeSecs actions { s with sweep := some rest }
      (events ++ [.requested o.key, .confirmed o.key]) := by
  have hpending : s.pending = o :: rest := by rw [Sweeper.pending, hsweep, Option.getD_some]
  have hmem : o ∈ s.pending := by rw [hpending]; exact List.mem_cons_self
  obtain ⟨a, ha, hakey, hatime⟩ := h.origin o (Or.inr hmem)
  have hdistinct := h.distinct
  rw [hpending, List.map_cons, List.nodup_cons] at hdistinct
  have hpass := h.pass hsweep
  have hkeys : ∀ key, SweepEvent.confirmed key ∈ events ++ [.requested o.key, .confirmed o.key] →
      SweepEvent.confirmed key ∈ events ∨ key = o.key := by
    intro key hkey
    simpa using hkey
  refine ⟨hpass.maxAge, hpass.origin, hpass.distinct, ?_, ?_, ?_⟩
  · intro key hkey
    rcases hkeys key hkey with hkey | rfl
    · exact hpass.known key hkey
    · exact ⟨a, ha, hakey⟩
  · intro key hkey o' ho' heq
    rcases hkeys key hkey with hkey | rfl
    · exact hpass.asked key hkey o' ho' heq
    · exact hdistinct.1 (heq ▸ List.mem_map_of_mem ho')
  · intro key hkey o' ho' heq
    rcases hkeys key hkey with hkey | rfl
    · exact hpass.stale key hkey o' ho' heq
    · -- The entry in the tracker is of the same submission, and as old.
      obtain ⟨b, hb, hbkey, hbtime⟩ := h.origin o' (Or.inl ho')
      have hab : b = a := by
        refine List.inj_on_of_nodup_map (List.pairwise_map.mpr honce) hb ha ?_
        rw [hbkey, hakey, heq]
      refine ⟨Option.some_ne_none rest, now, hnow, ?_⟩
      unfold TrackedOrder.ageSecs at hage ⊢
      rw [← hbtime, hab, hatime]
      exact hage

/-- A sweep ends with the cleanup, which drops the confirmed orders. -/
lemma Settled.finish (h : Settled maxAgeSecs actions s events) {now : ℕ}
    (hnow : ∀ time ∈ timesOf actions, time ≤ now) :
    Settled maxAgeSecs actions ⟨(s.tracker.cleanupStale now).2, none⟩ events := by
  have hsub : ∀ o ∈ (s.tracker.cleanupStale now).2.orders,
      o ∈ s.tracker.orders ∧ LiveOrderTracker.isFresh s.tracker.maxAgeSecs now o = true :=
    fun o ho => List.mem_filter.mp ho
  refine ⟨h.maxAge, ?_, List.nodup_nil, h.known, fun _ _ o ho => (nomatch ho), ?_⟩
  · rintro o (ho | ho)
    · exact h.origin o (Or.inl (hsub o ho).1)
    · cases ho
  · intro key hkey o ho hof
    obtain ⟨hmem, hfresh⟩ := hsub o ho
    obtain ⟨-, time, htime, hage⟩ := h.stale key hkey o hmem hof
    have hmono := o.ageSecs_mono (hnow time htime)
    rw [LiveOrderTracker.isFresh, decide_eq_true_eq, h.maxAge] at hfresh
    unfold TrackedOrder.ageSecs at hage hmono
    omega

/-- An operation of another task does not bring a confirmed order back. -/
lemma Settled.other {op : TrackerOp} (h : Settled maxAgeSecs actions s events)
    (honce : (ordersOf (actions ++ [.other op])).Pairwise fun a b => a.1.key ≠ b.1.key) :
    Settled maxAgeSecs (actions ++ [.other op]) { s with tracker := s.tracker.perform op }
      events := by
  have hlater := h.later (.other op)
  rw [ordersOf_snoc] at honce
  have hnew : ∀ a ∈ op.tracked?, a ∈ ordersOf (actions ++ [.other op]) := by
    intro a ha
    rw [ordersOf_snoc]
    exact List.mem_append_right _ (Option.mem_toList.mpr ha)
  refine ⟨(LiveOrderTracker.perform_limits _ op).1.trans h.maxAge, ?_, hlater.distinct,
    hlater.known, hlater.asked, ?_⟩
  · rintro o (ho | ho)
    · rcases LiveOrderTracker.mem_perform ho with ⟨o', ho', hkey, htime⟩ | ⟨a, ha, hof⟩
      · obtain ⟨b, hb, hbkey, hbtime⟩ := hlater.origin o' (Or.inl ho')
        exact ⟨b, hb, hbkey.trans hkey, hbtime.trans htime⟩
      · exact ⟨a, hnew a ha, hof⟩
    · exact hlater.origin o (Or.inr ho)
  · intro key hkey o ho hof
    rcases LiveOrderTracker.mem_perform ho with ⟨o', ho', hsame, htime⟩ | ⟨a, ha, hakey, -⟩
    · obtain ⟨hsweep, time, hmem, hage⟩ := hlater.stale key hkey o' ho' (hsame.trans hof)
      refine ⟨hsweep, time, hmem, ?_⟩
      unfold TrackedOrder.ageSecs at hage ⊢
      rw [← htime]
      exact hage
    · -- A confirmed order has been tracked before, and is not tracked again.
      obtain ⟨b, hb, hbkey⟩ := h.known key hkey
      have hne := (List.pairwise_append.mp honce).2.2 b hb a (Option.mem_toList.mpr ha)
      exact absurd (hbkey.trans (hakey.trans hof).symm) hne

/-- What comes after the events of a run keeps to one confirmed cancellation when it only asks for
orders that are not confirmed. -/
lemma OneConfirmedCancel.append {events' : List SweepEvent} (h : OneConfirmedCancel events)
    (h' : OneConfirmedCancel events')
    (hnew : ∀ key, SweepEvent.confirmed key ∈ events → SweepEvent.requested key ∉ events') :
    OneConfirmedCancel (events ++ events') := by
  refine List.pairwise_append.mpr ⟨h, h', ?_⟩
  rintro e he e' he' key rfl rfl
  exact hnew key he he'

/-- A request alone settles nothing. -/
lemma Settled.request (h : Settled maxAgeSecs actions s events) (key : OrderKey) :
    Settled maxAgeSecs actions s (events ++ [.requested key]) := by
  have hkeys : ∀ key', SweepEvent.confirmed key' ∈ events ++ [.requested key] →
      SweepEvent.confirmed key' ∈ events := by
    intro key' hkey'
    simpa using hkey'
  exact ⟨h.maxAge, h.origin, h.distinct, fun k hk => h.known k (hkeys k hk),
    fun k hk => h.asked k (hkeys k hk), fun k hk => h.stale k (hkeys k hk)⟩

/-- The sweep attempts to cancel an order that is old enough. -/
lemma Settled.visit {o : TrackedOrder} {rest : List TrackedOrder}
    (h : Settled maxAgeSecs actions s events) (hone : OneConfirmedCancel events)
    (hsweep : s.sweep = some (o :: rest))
    (honce : (ordersOf actions).Pairwise fun a b => a.1.key ≠ b.1.key)
    (hconfig : (∀ e, config.hasClient e = false) ∨ maxAgeSecs ≤ config.cancelAfterSecs) {now : ℕ}
    (hold : config.cancelAfterSecs ≤ o.ageSecs now) (hnow : now ∈ timesOf actions)
    (answer : Except String Unit) :
    let asked := (attemptExchangeCancel config o.exchangeId o.orderId answer).2
    Settled maxAgeSecs actions { s with sweep := some rest } (events ++ asked) ∧
      OneConfirmedCancel (events ++ asked) := by
  intro asked
  have hpass := h.pass hsweep
  have hmem : o ∈ s.pending := by
    rw [Sweeper.pending, hsweep]
    exact List.mem_cons_self
  rcases attemptExchangeCancel_events config o.exchangeId o.orderId answer with
    hnone | ⟨hclient, hasked⟩
  · rw [show asked = [] from hnone, List.append_nil]
    exact ⟨hpass, hone⟩
  · have hage : maxAgeSecs ≤ o.ageSecs now := by
      rcases hconfig with hclients | hle
      · rw [hclients o.exchangeId] at hclient
        cases hclient
      · exact hle.trans hold
    have hnew : ∀ key, SweepEvent.confirmed key ∈ events → key ≠ o.key :=
      fun key hkey heq => h.asked key hkey o hmem heq.symm
    rcases hasked with hrequested | hconfirmed
    · rw [show asked = [.requested o.key] from hrequested]
      refine ⟨hpass.request o.key, hone.append (List.pairwise_singleton _ _) ?_⟩
      intro key hkey hreq
      exact hnew key hkey (by simpa using hreq)
    · rw [show asked = [.requested o.key, .confirmed o.key] from hconfirmed]
      refine ⟨h.confirm hsweep honce hnow hage, hone.append ?_ ?_⟩
      · simp [OneConfirmedCancel]
      · intro key hkey hreq
        exact hnew key hkey (by simpa using hreq)

/-- In an orderly run no reading of the clock is later than the last one. -/
lemma Orderly.le_finish {now : ℕ} (h : Orderly (actions ++ [.finish now])) :
    ∀ time ∈ timesOf (actions ++ [.finish now]), time ≤ now := by
  have htimes := h.times
  rw [timesOf_snoc] at htimes ⊢
  intro time htime
  rcases List.mem_append.mp htime with htime | htime
  · exact (List.pairwise_append.mp htimes).2.2 time htime now List.mem_cons_self
  · exact (List.mem_singleton.mp htime).le

/-- A step keeps the run settled, and asks for no order that is confirmed, when no exchange can be
asked or an order that is cancelled has reached the maximum age. -/
lemma Settled.step (h : Settled maxAgeSecs actions s events) (hone : OneConfirmedCancel events)
    (hconfig : (∀ e, config.hasClient e = false) ∨ maxAgeSecs ≤ config.cancelAfterSecs)
    {a : SweeperAction} (horderly : Orderly (actions ++ [a])) :
    Settled maxAgeSecs (actions ++ [a]) (Sweeper.step config s a).1
        (events ++ (Sweeper.step config s a).2) ∧
      OneConfirmedCancel (events ++ (Sweeper.step config s a).2) := by
  have hlater := h.later a
  have hsame : Settled maxAgeSecs (actions ++ [a]) s (events ++ []) ∧
      OneConfirmedCancel (events ++ []) := by
    rw [List.append_nil]
    exact ⟨hlater, hone⟩
  cases a with
  | tick isPaperMode =>
    unfold Sweeper.step
    cases hsweep : s.sweep with
    | some pending => exact hsame
    | none =>
      simp only
      split_ifs
      · exact hsame
      · exact hsame
      · rw [List.append_nil]
        exact ⟨hlater.begin hsweep, hone⟩
  | visit now answer =>
    unfold Sweeper.step
    cases hsweep : s.sweep with
    | none => exact hsame
    | some pending =>
      cases pending with
      | nil => exact hsame
      | cons o rest =>
        simp only
        have hpass := hlater.pass hsweep
        have hnow : now ∈ timesOf (actions ++ [.visit now answer]) := by
          rw [timesOf_snoc]
          exact List.mem_append_right _ List.mem_cons_self
        split_ifs with hold
        · exact hlater.visit hone hsweep horderly.once hconfig hold hnow answer
        · rw [List.append_nil]
          exact ⟨hpass, hone⟩
  | finish now =>
    unfold Sweeper.step
    cases hsweep : s.sweep with
    | none => exact hsame
    | some pending =>
      cases pending with
      | cons o rest => exact hsame
      | nil =>
        rw [List.append_nil]
        exact ⟨hlater.finish horderly.le_finish, hone⟩
  | other op =>
    rw [Sweeper.step, List.append_nil]
    exact ⟨h.other horderly.once, hone⟩

end Steps

/-! ## Runs -/

/-- Orderly runs are so without their last step. -/
lemma Orderly.dropLast {actions : List SweeperAction} {a : SweeperAction}
    (h : Orderly (actions ++ [a])) : Orderly actions := by
  obtain ⟨htimes, honce⟩ := h
  rw [timesOf_snoc] at htimes
  rw [ordersOf_snoc] at honce
  exact ⟨(List.pairwise_append.mp htimes).1, (List.pairwise_append.mp honce).1⟩

/-- Every orderly run is settled when no exchange can be asked, or an order that is cancelled has
reached the maximum age. -/
lemma settled_run (toUppercase : String → String) {config : SweeperConfig} {maxAgeSecs : ℕ}
    (maxTrackedOrders : ℕ)
    (hconfig : (∀ e, config.hasClient e = false) ∨ maxAgeSecs ≤ config.cancelAfterSecs)
    {actions : List SweeperAction} (h : Orderly actions) :
    Settled maxAgeSecs actions
        (runState (Sweeper.step config) (.idle toUppercase maxAgeSecs maxTrackedOrders) actions)
        (sweepEvents toUppercase config maxAgeSecs maxTrackedOrders actions) ∧
      OneConfirmedCancel (sweepEvents toUppercase config maxAgeSecs maxTrackedOrders actions) := by
  unfold sweepEvents
  induction actions using List.reverseRecOn with
  | nil =>
    refine ⟨⟨rfl, ?_, List.nodup_nil, ?_, ?_, ?_⟩, List.Pairwise.nil⟩
    · rintro o (ho | ho) <;> cases ho
    · exact fun key hkey => nomatch hkey
    · exact fun key hkey => nomatch hkey
    · exact fun key hkey => nomatch hkey
  | append_singleton actions a ih =>
    obtain ⟨hsettled, hone⟩ := ih h.dropLast
    rw [runState_append, runTrace_append, runTrace_cons, runTrace_nil, List.append_nil]
    exact hsettled.step hone hconfig h

/-- A run in which an order is cancelled in two sweeps. -/
def twoSweeps (e : UInt16) (cancelAfterSecs : ℕ) : List SweeperAction :=
  let now := cancelAfterSecs * 1000000000
  [.other (.track ⟨0, 0⟩ ⟨"1001", e, "BTCUSDT", true⟩), .tick false, .visit now (.ok ()),
    .finish now, .tick false, .visit now (.ok ())]

lemma orderly_twoSweeps (e : UInt16) (cancelAfterSecs : ℕ) :
    Orderly (twoSweeps e cancelAfterSecs) := by
  have htimes : timesOf (twoSweeps e cancelAfterSecs) =
      [0, cancelAfterSecs * 1000000000, cancelAfterSecs * 1000000000,
        cancelAfterSecs * 1000000000] := rfl
  have horders : ordersOf (twoSweeps e cancelAfterSecs) =
      [(⟨"1001", e, "BTCUSDT", true⟩, 0)] := rfl
  constructor
  · rw [htimes]
    simp
  · rw [horders]
    exact List.pairwise_singleton _ _

/-- The one order of an empty tracker. -/
lemma orders_track_of_empty {t : LiveOrderTracker} (ht : t.orders = []) (clk : TrackClock)
    (s : OrderSubmission) :
    (t.trackSubmission clk s).orders =
      [⟨s.orderId, s.exchangeId, t.toUppercase s.symbol, s.isBuy, clk.now, clk.epochMs, 0⟩] := by
  have hroom : t.makeRoom clk.now = [] :=
    List.sublist_nil.mp (ht ▸ t.makeRoom_sublist clk.now)
  simp [LiveOrderTracker.trackSubmission, LiveOrderTracker.track, hroom, LiveOrderTracker.without]

/-- Two sweeps over one order that is old enough to be cancelled and not to be dropped. -/
lemma runTrace_two_sweeps {config : SweeperConfig} {t : LiveOrderTracker} {o : TrackedOrder}
    (ht : t.orders = [o]) {now : ℕ} (hclient : config.hasClient o.exchangeId = true)
    (hold : config.cancelAfterSecs ≤ o.ageSecs now) (hyoung : o.ageSecs now < t.maxAgeSecs) :
    runTrace (Sweeper.step config) ⟨t, none⟩
        [.tick false, .visit now (.ok ()), .finish now, .tick false, .visit now (.ok ())] =
      [.requested o.key, .confirmed o.key, .requested o.key, .confirmed o.key] := by
  have hasked : (attemptExchangeCancel config o.exchangeId o.orderId (.ok ())).2 =
      [.requested o.key, .confirmed o.key] := by
    obtain ⟨c, http, pool⟩ := config
    obtain ⟨rfl, hpool⟩ : http = true ∧ pool.any (fun pool => pool o.exchangeId) = true := by
      simpa [SweeperConfig.hasClient] using hclient
    obtain ⟨pool, rfl, hexchange⟩ := (Option.any_eq_true _ _).mp hpool
    simp [attemptExchangeCancel, hexchange, TrackedOrder.key]
  have hfresh : LiveOrderTracker.isFresh t.maxAgeSecs now o = true := by
    rw [LiveOrderTracker.isFresh, decide_eq_true_eq]
    exact hyoung
  have hclean : (t.cleanupStale now).2.orders = [o] := by
    simp [LiveOrderTracker.cleanupStale, ht, hfresh]
  simp [Sweeper.step, LiveOrderTracker.getAll, ht, hold, hasked, hclean]

/-- An exchange that confirms is asked again when the order is not dropped after the first sweep. -/
lemma not_oneConfirmedCancel_twoSweeps (toUppercase : String → String) {config : SweeperConfig}
    {e : UInt16} {maxAgeSecs : ℕ} (maxTrackedOrders : ℕ) (hclient : config.hasClient e = true)
    (hlt : config.cancelAfterSecs < maxAgeSecs) :
    ¬ OneConfirmedCancel (sweepEvents toUppercase config maxAgeSecs maxTrackedOrders
      (twoSweeps e config.cancelAfterSecs)) := by
  have htracked := orders_track_of_empty
    (t := LiveOrderTracker.withMaxOrders toUppercase maxAgeSecs maxTrackedOrders) rfl ⟨0, 0⟩
    ⟨"1001", e, "BTCUSDT", true⟩
  have hage : (config.cancelAfterSecs * 1000000000 - 0) / 1000000000 = config.cancelAfterSecs :=
    Nat.mul_div_cancel _ (by norm_num)
  have hevents : sweepEvents toUppercase config maxAgeSecs maxTrackedOrders
      (twoSweeps e config.cancelAfterSecs) =
      [.requested (e, "1001"), .confirmed (e, "1001"), .requested (e, "1001"),
        .confirmed (e, "1001")] :=
    runTrace_two_sweeps htracked hclient hage.ge (hage.trans_lt hlt)
  rw [hevents]
  intro h
  obtain ⟨-, hrest⟩ := List.pairwise_cons.mp h
  exact (List.pairwise_cons.mp hrest).1 _ List.mem_cons_self _ rfl rfl

/-- No run asks to cancel an order again after a confirmed cancellation, whatever the answers, the
times and the other tasks do, exactly when no exchange can be asked at all or orders are old enough
to be dropped once they are old enough to be cancelled. -/
theorem one_confirmed_cancel_iff (toUppercase : String → String) (config : SweeperConfig)
    (maxAgeSecs maxTrackedOrders : ℕ) :
    (∀ actions, Orderly actions →
        OneConfirmedCancel (sweepEvents toUppercase config maxAgeSecs maxTrackedOrders actions)) ↔
      (∀ e, config.hasClient e = false) ∨ maxAgeSecs ≤ config.cancelAfterSecs := by
  constructor
  · intro h
    by_contra hconfig
    push Not at hconfig
    obtain ⟨⟨e, he⟩, hlt⟩ := hconfig
    exact not_oneConfirmedCancel_twoSweeps toUppercase maxTrackedOrders
      (Bool.of_not_eq_false he) hlt (h _ (orderly_twoSweeps e config.cancelAfterSecs))
  · exact fun hconfig actions h => (settled_run toUppercase maxTrackedOrders hconfig h).2

/-- The sweeper as it is started: it cancels after 30 seconds, and exchange 0 has a client. -/
def startedSweeper : SweeperConfig := ⟨30, true, some fun exchangeId => exchangeId == 0⟩

/-- With a maximum age of 300 seconds, an order of exchange 0 is cancelled in two sweeps. -/
theorem cancelled_twice : Orderly (twoSweeps 0 30) ∧
    ¬ OneConfirmedCancel (sweepEvents String.toUpper startedSweeper 300 10000 (twoSweeps 0 30)) :=
  ⟨orderly_twoSweeps 0 30, not_oneConfirmedCancel_twoSweeps String.toUpper 10000 rfl (by decide)⟩

end HftArb
