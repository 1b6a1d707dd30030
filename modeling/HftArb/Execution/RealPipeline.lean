import HftArb.Foundations.Retry
import HftArb.Foundations.Saturating
import HftArb.Execution.Orders

/-!
# The real pipeline and its retries

`RealExecutionPipeline.executeOrder` hands an order to the typed client of its exchange and tries
again, up to three times, after every error that does not look like a rate limit.  The request
carries no client order id, so the exchange cannot tell a repeated request from a new order.

The exchange is a process outside the program: on every submission it accepts the order and
answers, accepts the order and the answer is lost, or refuses it (`ExchangeBehaviour`).
`executeOrder_at_most_once_iff` says for which sequences of behaviours one call makes it accept at
most one order.
-/

namespace HftArb

open Saturating

/-! ## Rate-limit texts -/

/-- `str::contains`. -/
def textContains (text pat : String) : Bool := decide (pat.toList <:+: text.toList)

/-- The texts on which `retry_with_backoff` stops retrying. -/
def isRateLimit (text : String) : Bool :=
  textContains text "429" || textContains text "rate.limit" || textContains text "rate limit"
    || textContains text "Too Many Requests"

/-- The texts on which a failed submission trips the circuit breaker. -/
def tripsBreaker (text : String) : Bool :=
  textContains text "429" || textContains text "rate.limit" || textContains text "rate limit"

/-- The text of an answer that reports a rate limit. -/
def rateLimitedText (exchangeId : UInt16) (err : String) : String :=
  "rate limited (ex=" ++ toString exchangeId ++ "): " ++ err

/-- A text that starts like the report of a rate limit contains one. -/
lemma rateLimitedText_start (x err : String) :
    "rate limit".toList <+: ("rate limited (ex=" ++ x ++ "): " ++ err).toList := by
  have hstart : "rate limit".toList <+: "rate limited (ex=".toList := by decide +kernel
  rw [String.toList_append, String.toList_append, String.toList_append, List.append_assoc,
    List.append_assoc]
  generalize "rate limited (ex=".toList = start at hstart ⊢
  exact hstart.trans (List.prefix_append _ _)

/-- The text of an answer that reports a rate limit stops the retries. -/
lemma isRateLimit_rateLimitedText (exchangeId : UInt16) (err : String) :
    isRateLimit (rateLimitedText exchangeId err) = true := by
  have hcontains : textContains (rateLimitedText exchangeId err) "rate limit" = true :=
    decide_eq_true (rateLimitedText_start (toString exchangeId) err).isInfix
  rw [isRateLimit, hcontains, Bool.or_true, Bool.true_or]

/-- What trips the breaker is not retried. -/
lemma not_tripsBreaker {text : String} (h : isRateLimit text = false) :
    tripsBreaker text = false := by
  unfold isRateLimit at h
  rw [Bool.or_eq_false_iff] at h
  exact h.1

/-! ## The circuit breaker -/

/-- The end of the cooldown of every exchange, zero for none. -/
structure RateLimitCircuitBreaker where
  cooldownUntilMs : ℕ → UInt64
  numExchanges : ℕ
  cooldownDurationSecs : UInt64

namespace RateLimitCircuitBreaker

/-- The text of an exchange in cooldown. -/
def limitedText (exchangeId : UInt16) (remainingSecs : UInt64) : String :=
  "exchange " ++ toString exchangeId ++ " is rate-limited, cooldown remaining: ~"
    ++ toString remainingSecs ++ "s"

/-- Whether an exchange may be used at the time `now`; an expired cooldown is cleared. -/
def check (b : RateLimitCircuitBreaker) (now : UInt64) (exchangeId : UInt16) :
    Except String Unit × RateLimitCircuitBreaker :=
  let idx := exchangeId.toNat
  if b.numExchanges ≤ idx then (.ok (), b)
  else
    let until_ := b.cooldownUntilMs idx
    if until_ = 0 then (.ok (), b)
    else if now < until_ then
      (.error (limitedText exchangeId ((until_ - now) / 1000)), b)
    else (.ok (), { b with cooldownUntilMs := Function.update b.cooldownUntilMs idx 0 })

/-- Start the cooldown of an exchange at the time `now`. -/
def trip (b : RateLimitCircuitBreaker) (now : UInt64) (exchangeId : UInt16) :
    RateLimitCircuitBreaker :=
  if b.numExchanges ≤ exchangeId.toNat then b
  else
    let until_ := satAdd now (satMul b.cooldownDurationSecs 1000)
    { b with cooldownUntilMs := Function.update b.cooldownUntilMs exchangeId.toNat until_ }

end RateLimitCircuitBreaker

/-! ## Requests and the exchange -/

/-- The side of a request. -/
inductive OrderSide where
  | buy
  | sell
  deriving DecidableEq

/-- The type of a request. -/
inductive OrderType where
  | limit
  | market
  deriving DecidableEq

/-- The request a typed client submits. -/
structure OrderRequest where
  symbol : String
  side : OrderSide
  orderType : OrderType
  quantity : Decimal
  price : Option Decimal
  clientOrderId : Option String
  deriving DecidableEq

/-- The answer of a typed client. -/
structure ClientResult where
  success : Bool
  orderId : Option String
  filledQty : Decimal
  avgPrice : Decimal
  error : Option String

/-- What the exchange does with one submission. -/
inductive ExchangeBehaviour where
  /-- It accepts the order and the client gets the answer. -/
  | acceptAnswered (r : ClientResult)
  /-- It accepts the order and the client gets an error that is not a rate limit. -/
  | acceptLost (err : String) (h : isRateLimit err = false)
  /-- It accepts nothing. -/
  | refuse (answer : Except String ClientResult)

/-- Whether the exchange accepts the order. -/
def ExchangeBehaviour.accepts : ExchangeBehaviour → Bool
  | .acceptAnswered _ => true
  | .acceptLost _ _ => true
  | .refuse _ => false

/-- What the client sees. -/
def ExchangeBehaviour.answer : ExchangeBehaviour → Except String ClientResult
  | .acceptAnswered r => .ok r
  | .acceptLost err _ => .error err
  | .refuse answer => answer

/-- The outside of one attempt: the clock at the breaker's check, the exchange, and the clock when
the breaker is tripped. -/
structure Attempt where
  checkNow : UInt64
  exchange : ExchangeBehaviour
  tripNow : UInt64

/-- A request that reached the exchange, and whether it was accepted. -/
structure Submission where
  request : OrderRequest
  accepted : Bool

/-! ## The pipeline -/

/-- The parts of the pipeline that decide on an order: the exchanges with a typed client and the
circuit breaker. -/
structure RealExecutionPipeline where
  typedPool : Option (UInt16 → Bool)
  rateLimiter : Option RateLimitCircuitBreaker

namespace RealExecutionPipeline

/-- The request sent for an order, without a client order id. -/
def orderRequest (intent : OrderIntent) : OrderRequest where
  symbol := intent.symbol
  side := if intent.isBuy then .buy else .sell
  orderType := .limit
  quantity := intent.qty
  price := some intent.price
  clientOrderId := none

/-- The text of a failed submission. -/
def clientErrorText (exchangeId : UInt16) (err : String) : String :=
  "typed client exec error (ex=" ++ toString exchangeId ++ "): " ++ err

/-- The text of an order that no typed client can take. -/
def missingClientText (p : RealExecutionPipeline) (exchangeId : UInt16) : String :=
  match p.typedPool with
  | some _ => "CRITICAL: no typed exchange client for exchange_id " ++ toString exchangeId
      ++ ". The generic Binance-style fallback is DISABLED for safety. "
      ++ "Add a typed client implementation for this exchange before live deployment."
  | none => "CRITICAL: no typed_pool configured for exchange_id " ++ toString exchangeId
      ++ ". The generic Binance-style fallback is DISABLED for safety."

/-- The exchange has a typed client. -/
def hasClient (p : RealExecutionPipeline) (exchangeId : UInt16) : Bool :=
  match p.typedPool with
  | some pool => pool exchangeId
  | none => false

/-- Trip the breaker, if there is one. -/
def trip (p : RealExecutionPipeline) (now : UInt64) (exchangeId : UInt16) :
    RealExecutionPipeline :=
  { p with rateLimiter := p.rateLimiter.map fun b => b.trip now exchangeId }

/-- The text of an attempt that the breaker stops. -/
def breakerText (err : String) : String := "rate-limit circuit breaker: " ++ err

/-- Ask the breaker, if there is one. -/
def checkLimiter (p : RealExecutionPipeline) (now : UInt64) (exchangeId : UInt16) :
    Except String Unit × RealExecutionPipeline :=
  match p.rateLimiter with
  | none => (.ok (), p)
  | some b =>
    match b.check now exchangeId with
    | (.error e, b) =>
      (.error (breakerText e), { p with rateLimiter := some b })
    | (.ok (), b) => (.ok (), { p with rateLimiter := some b })

/-- The result for the answer of a typed client. -/
def mapResult (r : ClientResult) : OrderResult :=
  ⟨r.success, r.orderId, r.filledQty, r.avgPrice, r.error, none⟩

/-- Submit the order to its typed client and read the answer. -/
def submit (p : RealExecutionPipeline) (intent : OrderIntent) (a : Attempt) :
    Except String OrderResult × RealExecutionPipeline × List Submission :=
  let submission : Submission := ⟨orderRequest intent, a.exchange.accepts⟩
  match a.exchange.answer with
  | .error err =>
    let msg := clientErrorText intent.exchangeId err
    (.error msg, if tripsBreaker msg then p.trip a.tripNow intent.exchangeId else p, [submission])
  | .ok r =>
    match r.error.filter isRateLimit with
    | some errMsg =>
      (.error (rateLimitedText intent.exchangeId errMsg),
        p.trip a.tripNow intent.exchangeId, [submission])
    | none => (.ok (mapResult r), p, [submission])

/-- One attempt at an order. -/
def executeOrderInner (p : RealExecutionPipeline) (intent : OrderIntent) (a : Attempt) :
    Except String OrderResult × RealExecutionPipeline × List Submission :=
  match p.checkLimiter a.checkNow intent.exchangeId with
  | (.error msg, p) => (.error msg, p, [])
  | (.ok (), p) =>
    if p.hasClient intent.exchangeId then p.submit intent a
    else (.error (p.missingClientText intent.exchangeId), p, [])

end RealExecutionPipeline

/-- The attempts of `retry_with_backoff` from attempt `i` on, with `n` left. -/
def retryLoop {σ τ ε : Type} (maxRetries : ℕ) (f : ℕ → σ → Except String τ × σ × List ε) :
    ℕ → ℕ → String → σ → Except String τ × σ × List ε
  | 0, _, lastErr, s =>
    (.error ("All " ++ toString maxRetries ++ " attempts failed. Last error: " ++ lastErr), s, [])
  | n + 1, i, _, s =>
    match f i s with
    | (.ok r, s, evs) => (.ok r, s, evs)
    | (.error e, s, evs) =>
      if isRateLimit e then
        (.error ("rate limited (429): " ++ e
          ++ ". Abort retries — exchange needs ~60s cooldown."), s, evs)
      else
        let out := retryLoop maxRetries f n (i + 1) e s
        (out.1, out.2.1, evs ++ out.2.2)

/-- Retry an operation after every error that is not a rate limit; the waits are left out. -/
def retryWithBackoff {σ τ ε : Type} (maxRetries : ℕ) (f : ℕ → σ → Except String τ × σ × List ε)
    (s : σ) : Except String τ × σ × List ε :=
  retryLoop maxRetries f maxRetries 0 "" s

/-- Execute an order, in at most three attempts. -/
def RealExecutionPipeline.executeOrder (p : RealExecutionPipeline) (intent : OrderIntent)
    (attempts : ℕ → Attempt) :
    Except String OrderResult × RealExecutionPipeline × List Submission :=
  retryWithBackoff 3 (fun i p => p.executeOrderInner intent (attempts i)) p

/-! ## What the breaker does -/

/-- A cooldown that does not stop an attempt at the time `now`. -/
def isOver (cooldownUntil now : UInt64) : Bool := cooldownUntil == 0 || decide (cooldownUntil ≤ now)

namespace RateLimitCircuitBreaker

variable {b : RateLimitCircuitBreaker} {now : UInt64} {x : UInt16}

/-- The end of the cooldown of an exchange, zero when the breaker does not know it. -/
def cooldown (b : RateLimitCircuitBreaker) (x : UInt16) : UInt64 :=
  if b.numExchanges ≤ x.toNat then 0 else b.cooldownUntilMs x.toNat

/-- A cooldown that is over is cleared. -/
lemma check_of_isOver (h : isOver (b.cooldown x) now = true) :
    ∃ b', b.check now x = (.ok (), b') ∧ b'.cooldown x = 0 := by
  unfold check cooldown at *
  by_cases hidx : b.numExchanges ≤ x.toNat
  · exact ⟨b, if_pos hidx, if_pos hidx⟩
  rw [if_neg hidx] at h
  by_cases hz : b.cooldownUntilMs x.toNat = 0
  · refine ⟨b, ?_, ?_⟩
    · rw [if_neg hidx, if_pos hz]
    · rw [if_neg hidx, hz]
  · have hle : ¬ now < b.cooldownUntilMs x.toNat := by
      rw [UInt64.not_lt]
      simpa [isOver, hz] using h
    refine ⟨{ b with cooldownUntilMs := Function.update b.cooldownUntilMs x.toNat 0 }, ?_, ?_⟩
    · rw [if_neg hidx, if_neg hz, if_neg hle]
    · simp [hidx]

/-- A cooldown that is not over stops the attempt and stays. -/
lemma check_of_not_isOver (h : isOver (b.cooldown x) now = false) :
    b.check now x = (.error (limitedText x ((b.cooldown x - now) / 1000)), b) := by
  unfold check cooldown at *
  by_cases hidx : b.numExchanges ≤ x.toNat
  · rw [if_pos hidx] at h
    exact absurd h (by simp [isOver])
  simp only [if_neg hidx] at h ⊢
  have hz : ¬ b.cooldownUntilMs x.toNat = 0 := by
    intro hz
    rw [hz] at h
    exact absurd h (by simp [isOver])
  have hlt : now < b.cooldownUntilMs x.toNat := by
    rw [← UInt64.not_le]
    simpa [isOver, hz] using h
  rw [if_neg hz, if_pos hlt]

end RateLimitCircuitBreaker

namespace RealExecutionPipeline

/-- The end of the cooldown of an exchange, zero without a breaker. -/
def cooldown (p : RealExecutionPipeline) (x : UInt16) : UInt64 :=
  match p.rateLimiter with
  | some b => b.cooldown x
  | none => 0

variable {p : RealExecutionPipeline} {now : UInt64} {x : UInt16}

/-- The breaker lets an attempt through when the cooldown is over, and clears it. -/
lemma checkLimiter_of_isOver (h : isOver (p.cooldown x) now = true) :
    ∃ p', p.checkLimiter now x = (.ok (), p') ∧ p'.typedPool = p.typedPool ∧
      p'.cooldown x = 0 := by
  unfold checkLimiter cooldown at *
  cases hb : p.rateLimiter with
  | none => exact ⟨p, rfl, rfl, by rw [hb]⟩
  | some b =>
    rw [hb] at h
    obtain ⟨b', hcheck, hzero⟩ := RateLimitCircuitBreaker.check_of_isOver h
    refine ⟨{ p with rateLimiter := some b' }, ?_, rfl, hzero⟩
    simp only [hcheck]

/-- The text of an attempt made during a cooldown. -/
def cooldownText (x : UInt16) (cooldownUntil now : UInt64) : String :=
  breakerText (RateLimitCircuitBreaker.limitedText x ((cooldownUntil - now) / 1000))

/-- The breaker stops an attempt during a cooldown, and keeps it. -/
lemma checkLimiter_of_not_isOver (h : isOver (p.cooldown x) now = false) :
    p.checkLimiter now x = (.error (cooldownText x (p.cooldown x) now), p) := by
  unfold checkLimiter cooldown at *
  cases hb : p.rateLimiter with
  | none =>
    rw [hb] at h
    exact absurd h (by simp [isOver])
  | some b =>
    rw [hb] at h
    have hcheck := RateLimitCircuitBreaker.check_of_not_isOver h
    have hp : ({ p with rateLimiter := some b } : RealExecutionPipeline) = p := by rw [← hb]
    simp only [hcheck, hp, cooldownText]

/-! ## What one attempt does -/

/-- The attempt reaches the exchange, given the end of the cooldown. -/
def submits (p : RealExecutionPipeline) (x : UInt16) (cooldownUntil : UInt64) (a : Attempt) :
    Bool :=
  isOver cooldownUntil a.checkNow && p.hasClient x

/-- The exchange accepts the order in this attempt. -/
def acceptsIn (p : RealExecutionPipeline) (x : UInt16) (cooldownUntil : UInt64) (a : Attempt) :
    Bool :=
  p.submits x cooldownUntil a && a.exchange.accepts

/-- The text of an attempt that does not reach the exchange. -/
def unsentText (p : RealExecutionPipeline) (x : UInt16) (cooldownUntil : UInt64) (a : Attempt) :
    String :=
  if isOver cooldownUntil a.checkNow then p.missingClientText x
  else cooldownText x cooldownUntil a.checkNow

/-- The attempt ends in an error that is not a rate limit. -/
def retriedAfter (p : RealExecutionPipeline) (x : UInt16) (cooldownUntil : UInt64) (a : Attempt) :
    Bool :=
  if p.submits x cooldownUntil a then
    match a.exchange.answer with
    | .error err => !isRateLimit (clientErrorText x err)
    | .ok _ => false
  else !isRateLimit (p.unsentText x cooldownUntil a)

/-- The end of the cooldown after an attempt that is retried. -/
def cooldownAfter (cooldownUntil : UInt64) (a : Attempt) : UInt64 :=
  if isOver cooldownUntil a.checkNow then 0 else cooldownUntil

/-- The number of accepted submissions. -/
def acceptedCount (subs : List Submission) : ℕ := subs.countP Submission.accepted

variable (p) (intent : OrderIntent) {a : Attempt}

/-- A submission that is answered with an error. -/
lemma submit_of_error {err : String} (h : a.exchange.answer = .error err) :
    ∃ p', p.submit intent a = (.error (clientErrorText intent.exchangeId err), p',
        [⟨orderRequest intent, a.exchange.accepts⟩]) ∧
      (isRateLimit (clientErrorText intent.exchangeId err) = false → p' = p) := by
  refine ⟨if tripsBreaker (clientErrorText intent.exchangeId err) then
    p.trip a.tripNow intent.exchangeId else p, ?_, ?_⟩
  · simp only [submit, h]
  · intro hr
    rw [not_tripsBreaker hr]
    rfl

/-- A submission that is answered is not retried: it ends well or in a rate limit. -/
lemma submit_of_ok {r : ClientResult} (h : a.exchange.answer = .ok r) :
    (∃ res p', p.submit intent a =
        (.ok res, p', [⟨orderRequest intent, a.exchange.accepts⟩])) ∨
    (∃ err p', p.submit intent a =
        (.error err, p', [⟨orderRequest intent, a.exchange.accepts⟩]) ∧
          isRateLimit err = true) := by
  unfold submit
  rw [h]
  cases hf : r.error.filter isRateLimit with
  | none => exact Or.inl ⟨mapResult r, p, by simp only [hf]⟩
  | some errMsg =>
    refine Or.inr ⟨rateLimitedText intent.exchangeId errMsg, p.trip a.tripNow intent.exchangeId,
      ?_, isRateLimit_rateLimitedText _ _⟩
    simp only [hf]

/-- An attempt that ends in an error is retried unless the error is a rate limit. -/
lemma retried_or_ends {result : Except String OrderResult} {err : String}
    (hresult : result = .error err) {retried : Bool} (hretried : retried = !isRateLimit err)
    {P : Prop} (hgoesOn : isRateLimit err = false → P) :
    (∃ err', result = .error err' ∧ isRateLimit err' = false ∧ retried = true ∧ P) ∨
      ((∀ err', result = .error err' → isRateLimit err' = true) ∧ retried = false) := by
  subst hresult
  cases hr : isRateLimit err with
  | false => exact Or.inl ⟨err, rfl, hr, by rw [hretried, hr]; rfl, hgoesOn hr⟩
  | true =>
    refine Or.inr ⟨?_, by rw [hretried, hr]; rfl⟩
    intro err' herr
    cases herr
    exact hr

/-- What an attempt does, given the end of the cooldown before it: it makes the exchange accept one
order or none, and it is retried exactly as `retriedAfter` says, in which case the pipeline goes on
with the same clients and with the cooldown `cooldownAfter`. -/
lemma executeOrderInner_spec (p : RealExecutionPipeline) (intent : OrderIntent) (a : Attempt) :
    acceptedCount (p.executeOrderInner intent a).2.2 =
      (if p.acceptsIn intent.exchangeId (p.cooldown intent.exchangeId) a then 1 else 0) ∧
    ((∃ err, (p.executeOrderInner intent a).1 = .error err ∧ isRateLimit err = false ∧
        p.retriedAfter intent.exchangeId (p.cooldown intent.exchangeId) a = true ∧
        (p.executeOrderInner intent a).2.1.typedPool = p.typedPool ∧
        (p.executeOrderInner intent a).2.1.cooldown intent.exchangeId =
          cooldownAfter (p.cooldown intent.exchangeId) a) ∨
      ((∀ err, (p.executeOrderInner intent a).1 = .error err → isRateLimit err = true) ∧
        p.retriedAfter intent.exchangeId (p.cooldown intent.exchangeId) a = false)) := by
  unfold executeOrderInner acceptsIn retriedAfter submits unsentText cooldownAfter
  cases hover : isOver (p.cooldown intent.exchangeId) a.checkNow with
  | false =>
    rw [checkLimiter_of_not_isOver hover]
    exact ⟨rfl, retried_or_ends rfl rfl fun _ => ⟨rfl, rfl⟩⟩
  | true =>
    obtain ⟨p', hcheck, hpool, hzero⟩ := checkLimiter_of_isOver hover
    have hclient : p'.hasClient intent.exchangeId = p.hasClient intent.exchangeId := by
      unfold hasClient
      rw [hpool]
    rw [hcheck]
    dsimp only
    rw [hclient]
    cases hc : p.hasClient intent.exchangeId with
    | false =>
      have htext : p'.missingClientText intent.exchangeId =
          p.missingClientText intent.exchangeId := by
        unfold missingClientText
        rw [hpool]
      rw [htext]
      exact ⟨rfl, retried_or_ends rfl rfl fun _ => ⟨hpool, hzero⟩⟩
    | true =>
      have hcount : acceptedCount [⟨orderRequest intent, a.exchange.accepts⟩] =
          if a.exchange.accepts then 1 else 0 := by
        cases a.exchange.accepts <;> rfl
      simp only [Bool.and_self, Bool.true_and, if_true]
      cases hans : a.exchange.answer with
      | error err =>
        obtain ⟨p'', hsub, hsame⟩ := submit_of_error p' intent hans
        rw [hsub]
        refine ⟨hcount, retried_or_ends rfl rfl fun hr => ?_⟩
        rw [hsame hr]
        exact ⟨hpool, hzero⟩
      | ok r =>
        rcases submit_of_ok p' intent hans with ⟨res, p'', hsub⟩ | ⟨err, p'', hsub, hr⟩
        · rw [hsub]
          refine ⟨hcount, Or.inr ⟨?_, rfl⟩⟩
          intro err' herr
          cases herr
        · rw [hsub]
          refine ⟨hcount, Or.inr ⟨?_, rfl⟩⟩
          intro err' herr
          cases herr
          exact hr

/-! ## At most one acceptance -/

/-- The end of the cooldown before attempt `i`, when all attempts before it were retried. -/
def cooldownBefore (p : RealExecutionPipeline) (intent : OrderIntent) (attempts : ℕ → Attempt) :
    ℕ → UInt64
  | 0 => p.cooldown intent.exchangeId
  | i + 1 => cooldownAfter (p.cooldownBefore intent attempts i) (attempts i)

/-- Attempt `i`, when it is reached, ends in an error that is not a rate limit. -/
def retried (p : RealExecutionPipeline) (intent : OrderIntent) (attempts : ℕ → Attempt) (i : ℕ) :
    Bool :=
  p.retriedAfter intent.exchangeId (p.cooldownBefore intent attempts i) (attempts i)

/-- The exchange accepts the order in attempt `i`, when it is reached. -/
def accepted (p : RealExecutionPipeline) (intent : OrderIntent) (attempts : ℕ → Attempt) (i : ℕ) :
    Bool :=
  p.acceptsIn intent.exchangeId (p.cooldownBefore intent attempts i) (attempts i)

/-- The loop from attempt `i` on makes the exchange accept as many orders as attempts hit. -/
lemma acceptedCount_retryLoop (p : RealExecutionPipeline) (intent : OrderIntent)
    (attempts : ℕ → Attempt) (maxRetries n i : ℕ) (lastErr : String) (q : RealExecutionPipeline)
    (hpool : q.typedPool = p.typedPool)
    (hcool : q.cooldown intent.exchangeId = p.cooldownBefore intent attempts i) :
    acceptedCount (retryLoop maxRetries (fun i q => q.executeOrderInner intent (attempts i)) n i
      lastErr q).2.2 = Retry.hits (p.retried intent attempts) (p.accepted intent attempts) n i := by
  induction n generalizing i lastErr q with
  | zero => rfl
  | succ n ih =>
    obtain ⟨hcount, hcases⟩ := q.executeOrderInner_spec intent (attempts i)
    have hclient : q.hasClient = p.hasClient := by
      funext x
      unfold hasClient
      rw [hpool]
    have hacc : q.acceptsIn intent.exchangeId (q.cooldown intent.exchangeId) (attempts i) =
        p.accepted intent attempts i := by
      unfold accepted acceptsIn submits
      rw [hclient, hcool]
    have hret : q.retriedAfter intent.exchangeId (q.cooldown intent.exchangeId) (attempts i) =
        p.retried intent attempts i := by
      unfold retried retriedAfter submits unsentText missingClientText
      rw [hclient, hcool, hpool]
    rw [hacc] at hcount
    rw [hret] at hcases
    generalize hout : q.executeOrderInner intent (attempts i) = out at hcount hcases
    obtain ⟨res, q', subs⟩ := out
    simp only at hcount hcases
    simp only [retryLoop, hout, Retry.hits]
    rcases hcases with ⟨err, rfl, hrl, hr, hpool', hcool'⟩ | ⟨hstop, hr⟩
    · have hnext := ih (i + 1) err q' (hpool'.trans hpool) (by rw [hcool', hcool]; rfl)
      simp only [hrl, hr, Bool.false_eq_true, if_false, if_true]
      rw [acceptedCount, List.countP_append]
      exact congrArg₂ (· + ·) hcount hnext
    · rw [hr]
      cases res with
      | ok r => simpa using hcount
      | error err =>
        simp only [hstop err rfl, if_true]
        simpa using hcount

/-- One call makes the exchange accept at most one order exactly when, among its three attempts, no
accepted one is followed by another accepted one with only retried attempts before it: an order
whose acceptance was lost is not accepted again. -/
theorem executeOrder_at_most_once_iff (p : RealExecutionPipeline) (intent : OrderIntent)
    (attempts : ℕ → Attempt) :
    acceptedCount (p.executeOrder intent attempts).2.2 ≤ 1 ↔
      ∀ i j, i < j → j < 3 → (∀ k, k < j → p.retried intent attempts k = true) →
        p.accepted intent attempts i = true → p.accepted intent attempts j = false := by
  have hcount : acceptedCount (p.executeOrder intent attempts).2.2 =
      Retry.hits (p.retried intent attempts) (p.accepted intent attempts) 3 0 :=
    acceptedCount_retryLoop p intent attempts 3 3 0 "" p rfl rfl
  rw [hcount, Retry.hits_le_one_iff]
  constructor
  · intro h i j hij hj hreach
    exact h i j (Nat.zero_le i) hij (by omega) fun k _ hk => hreach k hk
  · intro h i j _ hij hj hreach
    exact h i j hij (by omega) fun k hk => hreach k (Nat.zero_le k) hk

/-- A pipeline with a client for the first exchange and no breaker. -/
def test : RealExecutionPipeline := ⟨some fun x => x == 0, none⟩

/-- The exchange accepts the first submission, whose answer is lost on a broken connection, and
accepts and answers the next one. -/
def lostAnswer (i : ℕ) : Attempt :=
  if i = 0 then ⟨0, .acceptLost "connection reset by peer" (by decide +kernel), 0⟩
  else ⟨0, .acceptAnswered ⟨true, some "42", 1, 100, none⟩, 0⟩

/-- An order whose answer is lost is placed twice. -/
theorem lostAnswer_accepted_twice :
    acceptedCount (test.executeOrder ⟨0, 3, 1, 100, true, "BTCUSDT"⟩ lostAnswer).2.2 = 2 := by
  decide +kernel

end RealExecutionPipeline

end HftArb
