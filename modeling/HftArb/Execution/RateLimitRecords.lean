import HftArb.Execution.RealPipeline
import HftArb.Foundations.Runs

/-!
# What the breaker remembers of a rate limit

Two functions read the text of a failed submission.  `retry_with_backoff` gives up on an order when
the text looks like a rate limit, and `execute_order_inner` trips the breaker of the exchange, which
then refuses all orders for a while.  The first knows one text more, "Too Many Requests": a client
that reports a rate limit by these words alone ends the order, but the next one goes to the exchange
at once.

`rateLimit_recorded_iff` says which rate limits are recorded.
-/

namespace HftArb

open Runs Saturating

/-! ## Retries -/

section Retries

variable {σ τ ε : Type} {f : ℕ → σ → Except String τ × σ × List ε}

/-- The state before an attempt, when all attempts before it are made. -/
def stateBefore (f : ℕ → σ → Except String τ × σ × List ε) (s : σ) : ℕ → σ
  | 0 => s
  | i + 1 => (f i (stateBefore f s i)).2.1

/-- The attempt ends in an error, which is a rate limit or not. -/
def EndsWith (limited : Bool) (result : Except String τ) : Prop :=
  ∃ err, result = .error err ∧ isRateLimit err = limited

lemma retryLoop_of_limited {s s' : σ} {i : ℕ} {err : String} {events : List ε}
    (h : f i s = (.error err, s', events)) (hlimited : isRateLimit err = true)
    (maxRetries n : ℕ) (lastErr : String) :
    (retryLoop maxRetries f (n + 1) i lastErr s).2.1 = s' := by
  simp only [retryLoop, h, hlimited, if_true]

lemma retryLoop_of_retried {s s' : σ} {i : ℕ} {err : String} {events : List ε}
    (h : f i s = (.error err, s', events)) (hretried : isRateLimit err = false)
    (maxRetries n : ℕ) (lastErr : String) :
    (retryLoop maxRetries f (n + 1) i lastErr s).2.1 =
      (retryLoop maxRetries f n (i + 1) err s').2.1 := by
  simp only [retryLoop, h, hretried, Bool.false_eq_true, if_false]

/-- The loop ends in the state after the first attempt that is a rate limit. -/
lemma retryLoop_state {s : σ} {i : ℕ}
    (hbefore : ∀ k < i, EndsWith false (f k (stateBefore f s k)).1)
    (hstop : EndsWith true (f i (stateBefore f s i)).1) (maxRetries d : ℕ) :
    ∀ (n j : ℕ) (lastErr : String), d < n → j + d = i →
      (retryLoop maxRetries f n j lastErr (stateBefore f s j)).2.1 = stateBefore f s (i + 1) := by
  induction d with
  | zero =>
    rintro n j lastErr hn rfl
    obtain ⟨m, rfl⟩ := Nat.exists_eq_succ_of_ne_zero hn.ne'
    obtain ⟨err, hresult, hlimited⟩ := hstop
    exact retryLoop_of_limited (Prod.ext hresult rfl) hlimited _ _ _
  | succ d ih =>
    intro n j lastErr hn hj
    obtain ⟨m, rfl⟩ := Nat.exists_eq_succ_of_ne_zero (Nat.ne_of_gt (Nat.zero_lt_of_lt hn))
    obtain ⟨err, hresult, hretried⟩ := hbefore j (by omega)
    rw [retryLoop_of_retried (Prod.ext hresult rfl) hretried]
    exact ih m (j + 1) err (by omega) (by omega)

/-- What every attempt keeps, the loop keeps. -/
lemma retryLoop_keeps {I : σ → Prop} (hf : ∀ i s, I s → I (f i s).2.1) (maxRetries n i : ℕ)
    (lastErr : String) {s : σ} (hs : I s) : I (retryLoop maxRetries f n i lastErr s).2.1 := by
  induction n generalizing i lastErr s with
  | zero => exact hs
  | succ n ih =>
    have hnext := hf i s hs
    generalize hout : f i s = out at hnext
    obtain ⟨result, s', events⟩ := out
    cases result with
    | ok r =>
      simp only [retryLoop, hout]
      exact hnext
    | error err =>
      cases hlimited : isRateLimit err with
      | true =>
        rw [retryLoop_of_limited hout hlimited]
        exact hnext
      | false =>
        rw [retryLoop_of_retried hout hlimited]
        exact ih (i + 1) err hnext

/-- Attempts that all fail without a trace leave none. -/
lemma retryLoop_of_refused {s : σ} (hf : ∀ i, ∃ err, f i s = (.error err, s, []))
    (maxRetries n i : ℕ) (lastErr : String) :
    ∃ err, retryLoop maxRetries f n i lastErr s = (.error err, s, []) := by
  induction n generalizing i lastErr with
  | zero => exact ⟨_, rfl⟩
  | succ n ih =>
    obtain ⟨err, hattempt⟩ := hf i
    cases hlimited : isRateLimit err with
    | true =>
      simp only [retryLoop, hattempt, hlimited, if_true]
      exact ⟨_, rfl⟩
    | false =>
      obtain ⟨err', hrest⟩ := ih (i + 1) err
      simp only [retryLoop, hattempt, hlimited, Bool.false_eq_true, if_false, hrest]
      exact ⟨err', rfl⟩

/-- The events of the first attempt are events of the loop. -/
lemma retryLoop_events_ne_nil {s : σ} {i : ℕ} (hfirst : (f i s).2.2 ≠ []) (maxRetries n : ℕ)
    (lastErr : String) : (retryLoop maxRetries f (n + 1) i lastErr s).2.2 ≠ [] := by
  generalize hout : f i s = out at hfirst
  obtain ⟨result, s', events⟩ := out
  cases result with
  | ok r => simpa only [retryLoop, hout] using hfirst
  | error err =>
    simp only [retryLoop, hout]
    split_ifs
    · exact hfirst
    · intro hnil
      exact hfirst (List.append_eq_nil_iff.mp hnil).1

end Retries

namespace RealExecutionPipeline

/-! ## What an attempt does to the breaker -/

/-- The exchanges that the breaker knows, and its cooldown in seconds. -/
def limiterShape (p : RealExecutionPipeline) : Option (ℕ × UInt64) :=
  p.rateLimiter.map fun b => (b.numExchanges, b.cooldownDurationSecs)

/-- What an attempt for one exchange leaves alone: the clients, the shape of the breaker, and the
cooldowns of all other exchanges. -/
structure Keeps (x : UInt16) (p p' : RealExecutionPipeline) : Prop where
  typedPool : p'.typedPool = p.typedPool
  shape : p'.limiterShape = p.limiterShape
  others : ∀ y, y ≠ x → p'.cooldown y = p.cooldown y

lemma Keeps.refl (x : UInt16) (p : RealExecutionPipeline) : Keeps x p p :=
  ⟨rfl, rfl, fun _ _ => rfl⟩

lemma Keeps.trans {x : UInt16} {p p' p'' : RealExecutionPipeline} (h : Keeps x p p')
    (h' : Keeps x p' p'') : Keeps x p p'' :=
  ⟨h'.typedPool.trans h.typedPool, h'.shape.trans h.shape,
    fun y hy => (h'.others y hy).trans (h.others y hy)⟩

/-- A cooldown that is set for one exchange does not show at another. -/
lemma cooldown_update {b : RateLimitCircuitBreaker} {x y : UInt16} (hy : y ≠ x) (u : UInt64) :
    { b with cooldownUntilMs := Function.update b.cooldownUntilMs x.toNat u }.cooldown y =
      b.cooldown y := by
  have hne : y.toNat ≠ x.toNat := fun heq => hy (UInt16.toNat_inj.mp heq)
  simp only [RateLimitCircuitBreaker.cooldown, Function.update_of_ne hne]

lemma keeps_trip (p : RealExecutionPipeline) (now : UInt64) (x : UInt16) :
    Keeps x p (p.trip now x) := by
  unfold trip
  cases hb : p.rateLimiter with
  | none => exact ⟨rfl, by simp [limiterShape, hb], fun y _ => by simp [cooldown, hb]⟩
  | some b =>
    refine ⟨rfl, ?_, fun y hy => ?_⟩
    · simp only [limiterShape, hb, Option.map_some, RateLimitCircuitBreaker.trip]
      split_ifs <;> rfl
    · simp only [cooldown, hb, Option.map_some, RateLimitCircuitBreaker.trip]
      split_ifs
      · rfl
      · exact cooldown_update hy _

lemma keeps_checkLimiter (p : RealExecutionPipeline) (now : UInt64) (x : UInt16) :
    Keeps x p (p.checkLimiter now x).2 := by
  unfold checkLimiter
  cases hb : p.rateLimiter with
  | none => exact Keeps.refl x p
  | some b =>
    have hcheck : (b.check now x).2.numExchanges = b.numExchanges ∧
        (b.check now x).2.cooldownDurationSecs = b.cooldownDurationSecs ∧
        ∀ y, y ≠ x → (b.check now x).2.cooldown y = b.cooldown y := by
      simp only [RateLimitCircuitBreaker.check]
      split_ifs
      · exact ⟨rfl, rfl, fun _ _ => rfl⟩
      · exact ⟨rfl, rfl, fun _ _ => rfl⟩
      · exact ⟨rfl, rfl, fun _ _ => rfl⟩
      · exact ⟨rfl, rfl, fun y hy => cooldown_update hy 0⟩
    generalize hout : b.check now x = out at hcheck
    obtain ⟨result, b'⟩ := out
    obtain ⟨hnum, hsecs, hothers⟩ := hcheck
    dsimp only at hnum hsecs
    have hkeeps : Keeps x p { p with rateLimiter := some b' } := by
      refine ⟨rfl, ?_, fun y hy => ?_⟩
      · simp only [limiterShape, hb, Option.map_some, hnum, hsecs]
      · simp only [cooldown, hb]
        exact hothers y hy
    cases result with
    | error err => simpa only [hout] using hkeeps
    | ok u => simpa only [hout] using hkeeps

lemma keeps_submit (p : RealExecutionPipeline) (intent : OrderIntent) (a : Attempt) :
    Keeps intent.exchangeId p (p.submit intent a).2.1 := by
  unfold submit
  cases a.exchange.answer with
  | error err =>
    dsimp only
    split_ifs
    · exact keeps_trip p a.tripNow intent.exchangeId
    · exact Keeps.refl _ p
  | ok r =>
    dsimp only
    cases r.error.filter isRateLimit with
    | none => exact Keeps.refl _ p
    | some err => exact keeps_trip p a.tripNow intent.exchangeId

lemma keeps_executeOrderInner (p : RealExecutionPipeline) (intent : OrderIntent) (a : Attempt) :
    Keeps intent.exchangeId p (p.executeOrderInner intent a).2.1 := by
  have hcheck := keeps_checkLimiter p a.checkNow intent.exchangeId
  unfold executeOrderInner
  generalize p.checkLimiter a.checkNow intent.exchangeId = out at hcheck
  obtain ⟨result, p'⟩ := out
  cases result with
  | error msg => exact hcheck
  | ok u =>
    dsimp only
    split_ifs
    · exact hcheck.trans (keeps_submit p' intent a)
    · exact hcheck

lemma executeOrder_eq (p : RealExecutionPipeline) (intent : OrderIntent)
    (attempts : ℕ → Attempt) :
    p.executeOrder intent attempts =
      retryLoop 3 (fun i q => executeOrderInner q intent (attempts i)) 3 0 "" p :=
  rfl

lemma keeps_executeOrder (p : RealExecutionPipeline) (intent : OrderIntent)
    (attempts : ℕ → Attempt) :
    Keeps intent.exchangeId p (p.executeOrder intent attempts).2.1 :=
  retryLoop_keeps (I := Keeps intent.exchangeId p)
    (fun i _ hkept => hkept.trans (keeps_executeOrderInner _ intent (attempts i))) 3 3 0 ""
    (Keeps.refl _ p)

/-! ## Later orders -/

/-- An order that was executed: what it asked for, its result and its submissions. -/
structure OrderRecord where
  intent : OrderIntent
  result : Except String OrderResult
  submissions : List Submission

/-- Execute an order after others. -/
def orderStep (p : RealExecutionPipeline) (order : OrderIntent × (ℕ → Attempt)) :
    RealExecutionPipeline × List OrderRecord :=
  ((p.executeOrder order.1 order.2).2.1,
    [⟨order.1, (p.executeOrder order.1 order.2).1, (p.executeOrder order.1 order.2).2.2⟩])

/-- The order fails without reaching the exchange. -/
def OrderRecord.Refused (record : OrderRecord) : Prop :=
  (∃ err, record.result = .error err) ∧ record.submissions = []

/-- Every later order to the exchange is refused as long as the breaker reads a time before the end
of the cooldown, whatever orders to other exchanges come in between. -/
def RefusesUntil (p : RealExecutionPipeline) (x : UInt16) (cooldownUntil : UInt64) : Prop :=
  ∀ later : List (OrderIntent × (ℕ → Attempt)),
    (∀ order ∈ later, order.1.exchangeId = x → ∀ i, (order.2 i).checkNow < cooldownUntil) →
    ∀ record ∈ runTrace orderStep p later, record.intent.exchangeId = x → record.Refused

/-- An order during a cooldown is refused and changes nothing. -/
lemma executeOrder_of_cooldown {p : RealExecutionPipeline} {intent : OrderIntent}
    {attempts : ℕ → Attempt}
    (h : ∀ i, (attempts i).checkNow < p.cooldown intent.exchangeId) :
    ∃ err, p.executeOrder intent attempts = (.error err, p, []) := by
  rw [executeOrder_eq]
  refine retryLoop_of_refused (fun i => ?_) 3 3 0 ""
  have hlt := h i
  have hover : isOver (p.cooldown intent.exchangeId) (attempts i).checkNow = false := by
    have hpos : p.cooldown intent.exchangeId ≠ 0 := by
      intro hzero
      rw [hzero] at hlt
      exact UInt64.not_lt_zero hlt
    simpa [isOver, hpos] using hlt
  refine ⟨cooldownText intent.exchangeId (p.cooldown intent.exchangeId) (attempts i).checkNow, ?_⟩
  simp only [executeOrderInner, checkLimiter_of_not_isOver hover]

/-- A cooldown refuses all later orders until it is over. -/
lemma refusesUntil_cooldown (p : RealExecutionPipeline) (x : UInt16) :
    p.RefusesUntil x (p.cooldown x) := by
  intro later hlater
  suffices hrun : ∀ q : RealExecutionPipeline, q.cooldown x = p.cooldown x →
      ∀ record ∈ runTrace orderStep q later, record.intent.exchangeId = x → record.Refused from
    hrun p rfl
  induction later with
  | nil => simp
  | cons order later ih =>
    obtain ⟨horder, hlater⟩ := List.forall_mem_cons.mp hlater
    intro q hq record hrecord hx
    rw [runTrace_cons] at hrecord
    by_cases hexchange : order.1.exchangeId = x
    · obtain ⟨err, hrefused⟩ : ∃ err, q.executeOrder order.1 order.2 = (.error err, q, []) := by
        refine executeOrder_of_cooldown fun i => ?_
        rw [hexchange, hq]
        exact horder hexchange i
      simp only [orderStep, hrefused] at hrecord
      rcases List.mem_cons.mp hrecord with rfl | hrecord
      · exact ⟨⟨err, rfl⟩, rfl⟩
      · exact ih hlater q hq record hrecord hx
    · rcases List.mem_append.mp hrecord with hrecord | hrecord
      · rw [List.mem_singleton.mp hrecord] at hx
        exact absurd hx hexchange
      · refine ih hlater _ ?_ record hrecord hx
        exact ((keeps_executeOrder q order.1 order.2).others x (Ne.symm hexchange)).trans hq

/-- Without a cooldown the next order reaches the exchange, whatever the time. -/
lemma not_refusesUntil {p : RealExecutionPipeline} {x : UInt16} (hcooldown : p.cooldown x = 0)
    (hclient : p.hasClient x = true) (intent : OrderIntent) (hx : intent.exchangeId = x)
    {cooldownUntil : UInt64} (hpos : cooldownUntil ≠ 0) : ¬ p.RefusesUntil x cooldownUntil := by
  intro hrefuses
  let attempt : Attempt := ⟨0, .refuse (.error ""), 0⟩
  have hrecord := hrefuses [(intent, fun _ => attempt)]
    (by simpa [attempt] using fun _ => UInt64.pos_iff_ne_zero.mpr hpos) _
    (by rw [runTrace_cons]; exact List.mem_append_left _ (List.mem_singleton.mpr rfl)) hx
  have hnone : (p.executeOrder intent fun _ => attempt).2.2 = [] := hrecord.2
  rw [executeOrder_eq] at hnone
  refine retryLoop_events_ne_nil ?_ 3 2 "" hnone
  have hover : isOver (p.cooldown x) 0 = true := by simp [hcooldown, isOver]
  obtain ⟨p', hcheck, hpool, -⟩ := checkLimiter_of_isOver hover
  have hclient' : p'.hasClient x = true := by
    unfold hasClient at hclient ⊢
    rwa [hpool]
  simp only [executeOrderInner, hx, attempt, hcheck, hclient', if_true, submit,
    ExchangeBehaviour.answer]
  exact List.cons_ne_nil _ _

/-! ## Giving up on a rate limit -/

/-- The pipeline before an attempt at an order. -/
def before (p : RealExecutionPipeline) (intent : OrderIntent) (attempts : ℕ → Attempt) :
    ℕ → RealExecutionPipeline :=
  stateBefore (fun i q => executeOrderInner q intent (attempts i)) p

/-- The order is given up in an attempt on an error of the exchange client that is taken for a rate
limit; the attempts before it ended in other errors. -/
structure GivesUp (p : RealExecutionPipeline) (intent : OrderIntent) (attempts : ℕ → Attempt)
    (i : ℕ) : Prop where
  lt : i < 3
  retried : ∀ k < i,
    EndsWith false ((p.before intent attempts k).executeOrderInner intent (attempts k)).1
  limited : EndsWith true ((p.before intent attempts i).executeOrderInner intent (attempts i)).1
  submitted : ((p.before intent attempts i).executeOrderInner intent (attempts i)).2.2 ≠ []

/-- The order ends with the attempt in which it is given up. -/
lemma GivesUp.state {p : RealExecutionPipeline} {intent : OrderIntent} {attempts : ℕ → Attempt}
    {i : ℕ} (h : p.GivesUp intent attempts i) :
    (p.executeOrder intent attempts).2.1 =
      ((p.before intent attempts i).executeOrderInner intent (attempts i)).2.1 := by
  rw [executeOrder_eq]
  exact retryLoop_state h.retried h.limited 3 i 3 0 "" h.lt (Nat.zero_add i)

/-- The text of the answer trips the breaker: every rate limit that an answer reports does, and of
the errors those that name one of the three texts. -/
def Trips (x : UInt16) (answer : Except String ClientResult) : Prop :=
  ∀ err, answer = .error err → tripsBreaker (clientErrorText x err) = true

/-- An attempt that reaches the exchange finds no cooldown there. -/
lemma exists_submit {q : RealExecutionPipeline} {intent : OrderIntent} {a : Attempt}
    (hsubmitted : (q.executeOrderInner intent a).2.2 ≠ []) :
    ∃ q', Keeps intent.exchangeId q q' ∧ q'.cooldown intent.exchangeId = 0 ∧
      q'.hasClient intent.exchangeId = true ∧
      q.executeOrderInner intent a = q'.submit intent a := by
  have hkeeps := keeps_checkLimiter q a.checkNow intent.exchangeId
  unfold executeOrderInner at hsubmitted ⊢
  cases hover : isOver (q.cooldown intent.exchangeId) a.checkNow with
  | false =>
    rw [checkLimiter_of_not_isOver hover] at hsubmitted
    exact absurd rfl hsubmitted
  | true =>
    obtain ⟨q', hcheck, -, hzero⟩ := checkLimiter_of_isOver hover
    rw [hcheck] at hsubmitted hkeeps ⊢
    dsimp only at hsubmitted hkeeps ⊢
    split_ifs at hsubmitted ⊢ with hclient
    · exact ⟨q', hkeeps, hzero, hclient, rfl⟩
    · exact absurd rfl hsubmitted

/-- A submission whose result is a rate limit trips the breaker if the text of the answer does, and
changes nothing else. -/
lemma submit_of_limited {q : RealExecutionPipeline} {intent : OrderIntent} {a : Attempt}
    (hlimited : EndsWith true (q.submit intent a).1) :
    (Trips intent.exchangeId a.exchange.answer →
        (q.submit intent a).2.1 = q.trip a.tripNow intent.exchangeId) ∧
      (¬ Trips intent.exchangeId a.exchange.answer → (q.submit intent a).2.1 = q) := by
  unfold Trips
  obtain ⟨err, hresult, -⟩ := hlimited
  unfold submit at hresult ⊢
  cases hanswer : a.exchange.answer with
  | error err' =>
    rw [hanswer] at hresult
    dsimp only at hresult ⊢
    refine ⟨fun htrips => ?_, fun htrips => ?_⟩
    · rw [if_pos (htrips err' rfl)]
    · rw [if_neg]
      intro htext
      refine htrips fun err'' herr => ?_
      cases herr
      exact htext
  | ok r =>
    rw [hanswer] at hresult
    dsimp only at hresult ⊢
    cases hfilter : r.error.filter isRateLimit with
    | none =>
      rw [hfilter] at hresult
      cases hresult
    | some errMsg =>
      refine ⟨fun _ => rfl, fun htrips => absurd (fun err' herr => ?_) htrips⟩
      cases herr

/-- The cooldown after the breaker is tripped. -/
lemma cooldown_trip {q : RealExecutionPipeline} {b : RateLimitCircuitBreaker}
    (hb : q.rateLimiter = some b) {x : UInt16} (hx : x.toNat < b.numExchanges) (now : UInt64) :
    (q.trip now x).cooldown x = satAdd now (satMul b.cooldownDurationSecs 1000) := by
  simp only [trip, cooldown, hb, Option.map_some, RateLimitCircuitBreaker.trip,
    RateLimitCircuitBreaker.cooldown, if_neg (not_le.mpr hx), Function.update_self]

/-- The rate limit is recorded: there is a breaker, and it refuses the later orders to the exchange
until its cooldown, counted from the given time, has elapsed. -/
def Recorded (p : RealExecutionPipeline) (x : UInt16) (now : UInt64) : Prop :=
  ∃ b, p.rateLimiter = some b ∧
    p.RefusesUntil x (satAdd now (satMul b.cooldownDurationSecs 1000))

/-- The breaker of a pipeline of the same shape. -/
lemma exists_limiter {p p' : RealExecutionPipeline} (hshape : p'.limiterShape = p.limiterShape)
    {b' : RateLimitCircuitBreaker} (hb' : p'.rateLimiter = some b') :
    ∃ b, p.rateLimiter = some b ∧ b'.numExchanges = b.numExchanges ∧
      b'.cooldownDurationSecs = b.cooldownDurationSecs := by
  unfold limiterShape at hshape
  rw [hb', Option.map_some] at hshape
  obtain ⟨b, hb, heq⟩ := Option.map_eq_some_iff.mp hshape.symm
  obtain ⟨hnum, hsecs⟩ := Prod.mk.inj heq
  exact ⟨b, hb, hnum.symm, hsecs.symm⟩

/-- All attempts at an order keep the clients and the shape of the breaker. -/
lemma keeps_before (p : RealExecutionPipeline) (intent : OrderIntent) (attempts : ℕ → Attempt)
    (i : ℕ) : Keeps intent.exchangeId p (p.before intent attempts i) := by
  induction i with
  | zero => exact Keeps.refl _ p
  | succ i ih => exact ih.trans (keeps_executeOrderInner _ intent (attempts i))

/-- When an order is given up on a rate limit that the exchange client reports, the rate limit is
recorded exactly if there is a breaker that knows the exchange and the text of the error trips it;
the text "Too Many Requests" alone does not.  (A cooldown that ends at time zero needs no
record.) -/
theorem rateLimit_recorded_iff (p : RealExecutionPipeline) (intent : OrderIntent)
    (attempts : ℕ → Attempt) (i : ℕ) (hgives : p.GivesUp intent attempts i) :
    (p.executeOrder intent attempts).2.1.Recorded intent.exchangeId (attempts i).tripNow ↔
      ∃ b, p.rateLimiter = some b ∧
        (satAdd (attempts i).tripNow (satMul b.cooldownDurationSecs 1000) = 0 ∨
          intent.exchangeId.toNat < b.numExchanges ∧
            Trips intent.exchangeId (attempts i).exchange.answer) := by
  obtain ⟨q, hkeeps, hzero, hclient, hsubmit⟩ := exists_submit hgives.submitted
  have hlimited := hgives.limited
  rw [hsubmit] at hlimited
  obtain ⟨htrips, hnot⟩ := submit_of_limited hlimited
  have hq := (keeps_before p intent attempts i).trans hkeeps
  have hafter := keeps_submit q intent (attempts i)
  rw [hgives.state, hsubmit]
  constructor
  · rintro ⟨b', hb', hrefuses⟩
    obtain ⟨b, hb, hnum, hsecs⟩ := exists_limiter (hafter.shape.trans hq.shape) hb'
    refine ⟨b, hb, ?_⟩
    by_contra hneither
    obtain ⟨hpos, hunknown⟩ := not_or.mp hneither
    rw [← hsecs] at hpos
    refine not_refusesUntil ?_ ?_ intent rfl hpos hrefuses
    · -- Nothing was recorded, or the breaker does not know the exchange.
      by_cases htext : Trips intent.exchangeId (attempts i).exchange.answer
      · have hout : b'.numExchanges ≤ intent.exchangeId.toNat :=
          not_lt.mp fun hlt => hunknown ⟨hnum ▸ hlt, htext⟩
        simp only [cooldown, hb', RateLimitCircuitBreaker.cooldown, if_pos hout]
      · rw [hnot htext]
        exact hzero
    · unfold hasClient at hclient ⊢
      rwa [hafter.typedPool]
  · rintro ⟨b, hb, hcase⟩
    obtain ⟨b', hb', hnum, hsecs⟩ := exists_limiter (hafter.shape.trans hq.shape).symm hb
    refine ⟨b', hb', ?_⟩
    rw [← hsecs]
    rcases hcase with hend | ⟨hknown, htext⟩
    · -- No time is before the end of this cooldown.
      intro later hlater record hrecord hx
      obtain ⟨before, order, after, rfl, hmem⟩ := mem_runTrace_iff.mp hrecord
      rw [List.mem_singleton.mp hmem] at hx
      have hlt := hlater order (List.mem_append_right before List.mem_cons_self) hx 0
      rw [hend] at hlt
      exact absurd hlt UInt64.not_lt_zero
    · obtain ⟨b₁, hb₁, hnum₁, hsecs₁⟩ := exists_limiter hq.shape.symm hb
      rw [htrips htext, hsecs₁, ← cooldown_trip hb₁ (hnum₁ ▸ hknown)]
      exact refusesUntil_cooldown _ _

/-- A pipeline with a client and a breaker of 60 seconds for the first exchange. -/
def guarded : RealExecutionPipeline := ⟨some fun x => x == 0, some ⟨fun _ => 0, 1, 60⟩⟩

/-- An exchange that refuses an order with an error. -/
def refusing (err : String) (_ : ℕ) : Attempt := ⟨1000, .refuse (.error err), 1000⟩

/-- An order to the first exchange. -/
def sampleIntent : OrderIntent := ⟨0, 3, 1, 100, true, "BTCUSDT"⟩

/-- An error that is taken for a rate limit ends the order in the first attempt. -/
lemma guarded_givesUp {err : String} (herr : isRateLimit (clientErrorText 0 err) = true) :
    guarded.GivesUp sampleIntent (refusing err) 0 :=
  ⟨by decide, by simp, ⟨_, rfl, herr⟩, List.cons_ne_nil _ _⟩

/-- The status 429 is recorded. -/
theorem rateLimit_recorded_429 :
    guarded.GivesUp sampleIntent (refusing "HTTP 429") 0 ∧
      (guarded.executeOrder sampleIntent (refusing "HTTP 429")).2.1.Recorded 0 1000 := by
  have hgives : guarded.GivesUp sampleIntent (refusing "HTTP 429") 0 :=
    guarded_givesUp (by decide +kernel)
  refine ⟨hgives, (rateLimit_recorded_iff _ _ _ _ hgives).mpr ⟨_, rfl, Or.inr ⟨by decide, ?_⟩⟩⟩
  intro err herr
  cases herr
  decide +kernel

/-- The words "Too Many Requests" end the order and are not recorded. -/
theorem tooManyRequests_not_recorded :
    guarded.GivesUp sampleIntent (refusing "Too Many Requests") 0 ∧
      ¬ (guarded.executeOrder sampleIntent (refusing "Too Many Requests")).2.1.Recorded 0 1000 := by
  refine ⟨guarded_givesUp (by decide +kernel), ?_⟩
  rintro ⟨b, hb, hrefuses⟩
  have hsecs : b.cooldownDurationSecs = 60 := by
    have hkept := keeps_executeOrder guarded sampleIntent (refusing "Too Many Requests")
    obtain ⟨b', hb', -, heq⟩ := exists_limiter hkept.shape hb
    obtain rfl := Option.some.inj hb'
    exact heq
  rw [hsecs] at hrefuses
  exact not_refusesUntil (by decide +kernel) (by decide +kernel) sampleIntent rfl (by decide)
    hrefuses

end RealExecutionPipeline

end HftArb
