import HftArb.Capital.BalanceAllocator
import HftArb.Execution.Engine
import HftArb.Foundations.Interleaving

/-!
# The capital rebalancer

`rebalancer.rs` answers a starvation signal by withdrawing from an exchange with a surplus and
waiting for the deposit on the starved one.  The local balance table is changed at the very end, by
`apply_balance_realignment`, once the deposit has been confirmed: the source is debited and the
destination credited by two independent atomic operations.

Two things follow.  The debit may be refused, because trades have drained the source in the
meantime, while the credit is made all the same (`realignments_sound`).  And a withdrawal that was
accepted but not confirmed leaves the local balance of the source as it was
(`local_at_most_true_iff`).
-/

namespace HftArb

open Runs Interleaving

/-- `exchange_name_by_id`. -/
def exchangeNameById (id : UInt16) : String :=
  match id.toNat with
  | 0 => "Binance"
  | 1 => "Bybit"
  | 2 => "OKX"
  | 3 => "GateIO"
  | 4 => "KuCoin"
  | 5 => "Bitfinex"
  | 6 => "Bitget"
  | 7 => "BitMEX"
  | 8 => "Coinbase"
  | 9 => "HTX"
  | 10 => "Kraken"
  | 11 => "LBank"
  | 12 => "Bitstamp"
  | 13 => "Deribit"
  | 14 => "Delta"
  | 15 => "MEXC"
  | 16 => "Ibank"
  | _ => "UNKNOWN"

/-- `get_withdrawal_endpoint`. -/
def getWithdrawalEndpoint (exchangeId : UInt16) : Option String :=
  match exchangeId.toNat with
  | 0 => some "https://api.binance.com/sapi/v1/capital/withdraw/apply"
  | 1 => some "https://api.bybit.com/v5/asset/withdraw"
  | 2 => some "https://www.okx.com/api/v5/asset/withdrawal"
  | 3 => some "https://api.gateio.ws/api/v4/withdrawals"
  | 4 => some "https://api.kucoin.com/api/v1/withdrawals/apply"
  | _ => none

/-- The result of a look at the deposit history of the destination; a confirmed amount is
positive, as the parser of the history requires. -/
inductive DepositVerifyResult
  | confirmed (netReceived : Decimal) (h : 0 < netReceived)
  | notFound
  | failed (reason : String)
  | apiError (error : String)

/-- The balance table, the exchanges with a signer, the gas counters and the deposit addresses. -/
structure AutoCapitalRebalancer where
  allocator : LocalCapitalAllocator
  signers : UInt16 → Bool
  gasFeeUsd : UInt64
  totalGasDeducted : UInt64
  depositAddresses : String → Option String

namespace AutoCapitalRebalancer

/-! ## The realignment -/

/-- The gas, in micro-dollars, that a transfer adds to the cumulative counter. -/
def gasFpAdd (r : AutoCapitalRebalancer) (debitAmount : Decimal) : UInt64 :=
  let gasFee := Decimal.ofU64 r.gasFeeUsd / fpScale
  let effectiveGas := if debitAmount < gasFee then debitAmount else gasFee
  (Decimal.toU64 (effectiveGas * fpScale)).getD 0

/-- Count the gas of a transfer. -/
def trackGas (r : AutoCapitalRebalancer) (debitAmount : Decimal) : AutoCapitalRebalancer :=
  { r with totalGasDeducted := r.totalGasDeducted + r.gasFpAdd debitAmount }

/-- Debit the source. -/
def debitSource (r : AutoCapitalRebalancer) (fromExchangeId tokenId : UInt16)
    (debitAmount : Decimal) : AutoCapitalRebalancer :=
  { r with
    allocator := r.allocator.fetchSubBalance fromExchangeId.toNat tokenId.toNat debitAmount }

/-- Credit the destination. -/
def creditDestination (r : AutoCapitalRebalancer) (toExchangeId tokenId : UInt16)
    (creditAmount : Decimal) : AutoCapitalRebalancer :=
  { r with
    allocator := r.allocator.fetchAddBalance toExchangeId.toNat tokenId.toNat creditAmount }

/-- `apply_balance_realignment`, by a call that runs alone. -/
def applyBalanceRealignment (r : AutoCapitalRebalancer)
    (fromExchangeId toExchangeId tokenId : UInt16) (debitAmount creditAmount : Decimal) :
    AutoCapitalRebalancer :=
  ((r.trackGas debitAmount).debitSource fromExchangeId tokenId debitAmount).creditDestination
    toExchangeId tokenId creditAmount

/-- A realignment as the rebalancer makes it: between two exchanges, with a credit of at most the
debit. -/
structure Realignment where
  fromExchangeId : UInt16
  toExchangeId : UInt16
  tokenId : UInt16
  debitAmount : Decimal
  creditAmount : Decimal
  credit_nonneg : 0 ≤ creditAmount
  credit_le : creditAmount ≤ debitAmount
  from_ne_to : fromExchangeId ≠ toExchangeId
  deriving DecidableEq

/-- A call on the balance table: a realignment, or a trade that takes an amount from a slot. -/
inductive Call
  | realign (m : Realignment)
  | trade (exchangeId tokenId : ℕ) (amount : Decimal)

/-- A call under way, at its next access; a credit knows by how much the debit changed the
source. -/
inductive Op
  | gas (m : Realignment)
  | debit (m : Realignment)
  | credit (m : Realignment) (debitChange : ℤ)
  | trade (exchangeId tokenId : ℕ) (amount : Decimal)

/-- A realignment is complete, with the changes it made to the words of its two slots. -/
structure Completed where
  realignment : Realignment
  debitChange : ℤ
  creditChange : ℤ
  deriving DecidableEq

/-- What a call does before its first access. -/
def enter : Call → Option Op × List Completed
  | .realign m => (some (.gas m), [])
  | .trade e t amount => (some (.trade e t amount), [])

/-- The word of a slot, as an integer. -/
def slotFp (r : AutoCapitalRebalancer) (exchangeId tokenId : ℕ) : ℤ :=
  ((r.allocator.storedFp exchangeId tokenId).toNat : ℤ)

/-- One access.  The gas counters are apart from the table. -/
def access (r : AutoCapitalRebalancer) (_ : Unit) :
    Op → Outcome AutoCapitalRebalancer Op Completed
  | .gas m => ⟨r.trackGas m.debitAmount, some (.debit m), []⟩
  | .debit m =>
    let r' := r.debitSource m.fromExchangeId m.tokenId m.debitAmount
    ⟨r', some (.credit m (r'.slotFp m.fromExchangeId.toNat m.tokenId.toNat -
      r.slotFp m.fromExchangeId.toNat m.tokenId.toNat)), []⟩
  | .credit m debitChange =>
    let r' := r.creditDestination m.toExchangeId m.tokenId m.creditAmount
    ⟨r', none, [⟨m, debitChange, r'.slotFp m.toExchangeId.toNat m.tokenId.toNat -
      r.slotFp m.toExchangeId.toNat m.tokenId.toNat⟩]⟩
  | .trade e t amount =>
    ⟨{ r with allocator := r.allocator.fetchSubBalance e t amount }, none, []⟩

/-- The calls on one balance table. -/
def tableSystem : System AutoCapitalRebalancer Call Op Unit Completed where
  enter := enter
  access := access

/-- A realignment that is made alone is the sequential function. -/
lemma applyBalanceRealignment_alone (r : AutoCapitalRebalancer) (m : Realignment) :
    (runState (step tableSystem) ⟨r, []⟩ [.enter (.realign m), .access 0 (), .access 0 (),
      .access 0 ()]) = ⟨r.applyBalanceRealignment m.fromExchangeId m.toExchangeId m.tokenId
        m.debitAmount m.creditAmount, []⟩ :=
  rfl

/-- The realignment created no capital: its changes do not add up to more than nothing, and it
credited its destination only after it had debited the whole amount. -/
structure Completed.Sound (c : Completed) : Prop where
  sum_le : c.debitChange + c.creditChange ≤ 0
  debited : c.creditChange ≠ 0 → c.debitChange = -(microUnits c.realignment.debitAmount : ℤ)

/-- The source covers the debit, or there is nothing to credit. -/
def Realignment.Covered (m : Realignment) (a : LocalCapitalAllocator) : Prop :=
  microUnits m.debitAmount ≤ (a.storedFp m.fromExchangeId.toNat m.tokenId.toNat).toNat ∨
    microUnits m.creditAmount = 0 ∨ ¬ a.InTable m.toExchangeId.toNat m.tokenId.toNat

instance (m : Realignment) (a : LocalCapitalAllocator) : Decidable (m.Covered a) :=
  inferInstanceAs (Decidable (_ ∨ _ ∨ _))

/-- A debit is covered when it is made. -/
def Op.Covered (r : AutoCapitalRebalancer) : Op → Prop
  | .debit m => m.Covered r.allocator
  | _ => True

instance (r : AutoCapitalRebalancer) : DecidablePred (Op.Covered r)
  | .debit m => inferInstanceAs (Decidable (m.Covered r.allocator))
  | .gas _ | .credit _ _ | .trade _ _ _ => .isTrue trivial

/-! ### One access -/

/-- What a guarded subtraction changes at its own slot. -/
lemma fetchSub_change (a : LocalCapitalAllocator) (e t : ℕ) (amount : Decimal) :
    (((a.fetchSubBalance e t amount).storedFp e t).toNat : ℤ) - (a.storedFp e t).toNat ≤ 0 ∧
      (microUnits amount ≤ (a.storedFp e t).toNat →
        (((a.fetchSubBalance e t amount).storedFp e t).toNat : ℤ) - (a.storedFp e t).toNat =
          -(microUnits amount : ℤ)) := by
  have hfp := decimalToFp_toNat amount
  have hword := (a.storedFp e t).toNat_lt
  rw [LocalCapitalAllocator.storedFp_fetchSubBalance]
  by_cases hle : decimalToFp amount ≤ a.storedFp e t
  · have hle' := UInt64.le_iff_toNat_le.mp hle
    rw [if_pos ⟨⟨rfl, rfl⟩, hle⟩, UInt64.toNat_sub_of_le _ _ hle]
    constructor
    · omega
    · intro hunits
      omega
  · rw [if_neg fun h => hle h.2]
    refine ⟨by omega, fun hunits => absurd ?_ hle⟩
    rw [UInt64.le_iff_toNat_le, hfp]
    omega

/-- What an addition changes at its own slot. -/
lemma fetchAdd_change (a : LocalCapitalAllocator) (e t : ℕ) (amount : Decimal) :
    (((a.fetchAddBalance e t amount).storedFp e t).toNat : ℤ) - (a.storedFp e t).toNat ≤
        microUnits amount ∧
      (microUnits amount = 0 ∨ ¬ a.InTable e t →
        (((a.fetchAddBalance e t amount).storedFp e t).toNat : ℤ) - (a.storedFp e t).toNat =
          0) := by
  have hfp := decimalToFp_toNat amount
  have hword := (a.storedFp e t).toNat_lt
  rw [LocalCapitalAllocator.storedFp_fetchAddBalance]
  by_cases hin : a.InTable e t
  · rw [if_pos ⟨⟨rfl, rfl⟩, hin⟩, UInt64.toNat_add]
    constructor
    · omega
    · rintro (hzero | hout)
      · rw [hzero] at hfp
        omega
      · exact absurd hin hout
  · rw [if_neg fun h => hin h.2]
    exact ⟨by omega, fun _ => by omega⟩

lemma access_inTable (r : AutoCapitalRebalancer) (op : Op) (e t : ℕ) :
    (access r () op).shared.allocator.InTable e t ↔ r.allocator.InTable e t := by
  cases op with
  | gas m => rfl
  | debit m => exact LocalCapitalAllocator.inTable_fetchSubBalance _ _ _ _ _ _
  | credit m debitChange => exact LocalCapitalAllocator.inTable_fetchAddBalance _ _ _ _ _ _
  | trade e' t' amount => exact LocalCapitalAllocator.inTable_fetchSubBalance _ _ _ _ _ _

/-- A credit under way follows a debit of the whole amount, or has nothing to credit. -/
def OpSound (a : LocalCapitalAllocator) : Op → Prop
  | .credit m debitChange => debitChange ≤ 0 ∧
      (debitChange = -(microUnits m.debitAmount : ℤ) ∨ microUnits m.creditAmount = 0 ∨
        ¬ a.InTable m.toExchangeId.toNat m.tokenId.toNat)
  | _ => True

lemma OpSound.congr {a a' : LocalCapitalAllocator} {op : Op} (h : OpSound a op)
    (hin : ∀ e t, a'.InTable e t ↔ a.InTable e t) : OpSound a' op := by
  cases op with
  | credit m debitChange =>
    rw [OpSound, hin]
    exact h
  | gas m => trivial
  | debit m => trivial
  | trade e t amount => trivial

/-- What remains of a call whose debit is covered. -/
lemma opSound_remaining {r : AutoCapitalRebalancer} {op : Op} (hcovered : op.Covered r) :
    ∀ o ∈ (access r () op).remaining, OpSound (access r () op).shared.allocator o := by
  cases op with
  | gas m =>
    rintro o ⟨⟩
    trivial
  | debit m =>
    rintro o ⟨⟩
    obtain ⟨hle, hfull⟩ := fetchSub_change r.allocator m.fromExchangeId.toNat m.tokenId.toNat
      m.debitAmount
    refine ⟨hle, ?_⟩
    rcases hcovered with hunits | hzero | hout
    · exact Or.inl (hfull hunits)
    · exact Or.inr (Or.inl hzero)
    · exact Or.inr (Or.inr fun hin => hout ((access_inTable r (.debit m) _ _).mp hin))
  | credit m debitChange => exact nofun
  | trade e t amount => exact nofun

/-- A credit that follows a sound debit completes a sound realignment. -/
lemma completed_sound {r : AutoCapitalRebalancer} {op : Op} (hop : OpSound r.allocator op) :
    ∀ c ∈ (access r () op).events, c.Sound := by
  cases op with
  | gas m => simp [access]
  | debit m => simp [access]
  | trade e t amount => simp [access]
  | credit m debitChange =>
    intro c hc
    rw [access, List.mem_singleton] at hc
    obtain ⟨hle, hdebit⟩ := hop
    obtain ⟨hunits, hzero⟩ := fetchAdd_change r.allocator m.toExchangeId.toNat m.tokenId.toNat
      m.creditAmount
    have hmono := microUnits_mono m.credit_le
    subst hc
    rcases hdebit with hfull | hnothing
    · refine ⟨?_, fun _ => hfull⟩
      rw [hfull]
      change _ + (_ - _ : ℤ) ≤ 0
      simp only [slotFp, creditDestination]
      omega
    · have hsame := hzero hnothing
      refine ⟨?_, fun hne => absurd hsame hne⟩
      change debitChange + (_ - _ : ℤ) ≤ 0
      simp only [slotFp, creditDestination]
      omega

/-! ### Whole runs -/

/-- The calls under way and the realignments completed so far are sound. -/
structure TableSound (s : State AutoCapitalRebalancer Op) (events : List Completed) : Prop where
  ops : ∀ op ∈ s.inFlight, OpSound s.shared.allocator op
  completed : ∀ c ∈ events, c.Sound

lemma TableSound.step {s : State AutoCapitalRebalancer Op} {events : List Completed}
    (h : TableSound s events) {a : Action Call Unit} (hcovered : Meets Op.Covered s a) :
    TableSound (Interleaving.step tableSystem s a).1
      (events ++ (Interleaving.step tableSystem s a).2) := by
  rcases step_cases tableSystem s a with ⟨call, rfl, hstate, hevents⟩ | ⟨-, hidle⟩ |
    ⟨position, ⟨⟩, op, others, rfl, hop, hbefore, hshared, hafter, hevents⟩
  · rw [hstate, hevents]
    cases call with
    | realign m =>
      refine ⟨?_, by simpa [tableSystem, enter] using h.completed⟩
      exact List.forall_mem_append.mpr ⟨h.ops, by simp [tableSystem, enter, OpSound]⟩
    | trade e t amount =>
      refine ⟨?_, by simpa [tableSystem, enter] using h.completed⟩
      exact List.forall_mem_append.mpr ⟨h.ops, by simp [tableSystem, enter, OpSound]⟩
  · rw [hidle, List.append_nil]
    exact h
  · have hmem : op ∈ s.inFlight := List.mem_of_getElem? hop
    rw [hevents]
    refine ⟨?_, List.forall_mem_append.mpr ⟨h.completed, completed_sound (h.ops op hmem)⟩⟩
    rw [hshared]
    exact forall_inFlight_access hbefore hafter h.ops
      (fun o _ ho => ho.congr (access_inTable s.shared op))
      (opSound_remaining (hcovered op hop))

/-- **Rebalancing creates no capital when every debit is covered.**  In every interleaving of
realignments with trades in which each debit finds its amount in the source slot, or has nothing to
credit, every completed realignment is sound. -/
theorem realignments_sound (r : AutoCapitalRebalancer) (actions : List (Action Call Unit))
    (hcovered : ∀ before a after, actions = before ++ a :: after →
      Meets Op.Covered (runState (step tableSystem) ⟨r, []⟩ before) a) :
    ∀ c ∈ runTrace (step tableSystem) ⟨r, []⟩ actions, c.Sound := by
  have hstart : TableSound ⟨r, []⟩ [] := ⟨by simp, by simp⟩
  have hrun := run_induction (C := fun s _ a => Meets Op.Covered s a)
    (fun s events a hs ha => hs.step ha) hstart hcovered
  exact hrun.completed

/-- Two exchanges with signers and addresses, the first one with 100 units of token 0. -/
def twoExchanges : AutoCapitalRebalancer where
  allocator :=
    { balances := fun i => if i = 0 then 100000000 else 0, totalTokens := 1, totalExchanges := 2,
      symbols := fun _ => some "USDT" }
  signers := fun id => id ≤ 1
  gasFeeUsd := 2000000
  totalGasDeducted := 0
  depositAddresses := fun key =>
    if key = "Binance_arbitrum" ∨ key = "Bybit_arbitrum" then
      some "0x52908400098527886E0F7030069857D2E4169EE7"
    else none

/-- Sixty units leave the first exchange and fifty-nine arrive on the second one. -/
def sixtyUnits : Realignment where
  fromExchangeId := 0
  toExchangeId := 1
  tokenId := 0
  debitAmount := 60
  creditAmount := 59
  credit_nonneg := by norm_num
  credit_le := by norm_num
  from_ne_to := by decide

/-- A trade takes an amount from the first exchange before the debit. -/
def tradeBeforeDebit (amount : Decimal) : List (Action Call Unit) :=
  [.enter (.realign sixtyUnits), .access 0 (), .enter (.trade 0 0 amount), .access 1 (),
    .access 0 (), .access 0 ()]

theorem realignments_sound_smallTrade :
    (runTrace (step tableSystem) ⟨twoExchanges, []⟩ (tradeBeforeDebit 40)).length = 1 ∧
      ∀ c ∈ runTrace (step tableSystem) ⟨twoExchanges, []⟩ (tradeBeforeDebit 40), c.Sound :=
  ⟨rfl, realignments_sound _ _ (forall_split_iff.mpr (by decide +kernel))⟩

/-- A trade of fifty units drains the source; the debit is refused, and the credit is made. -/
theorem tradeBeforeDebit_not_sound :
    ¬ ∀ c ∈ runTrace (step tableSystem) ⟨twoExchanges, []⟩ (tradeBeforeDebit 50), c.Sound := by
  intro h
  have hlast := h ⟨sixtyUnits, 0, 59000000⟩ (by decide +kernel)
  exact absurd hlast.sum_le (by decide)

/-! ## Handling a request -/

/-- Why a request is dropped before a withdrawal is accepted. -/
inductive RebalanceAbort
  | unknownDestination
  | addressNotConfigured
  | noSigner
  | sourceNotLive
  | invalidAmount
  | selfTransfer
  | backpressure
  | insufficientBalance
  | noEndpoint
  | requestNotBuilt
  | emptyPayload
  | withdrawalRejected
  | withdrawalFailed
  deriving DecidableEq

/-- How a request ends. -/
inductive RebalanceOutcome
  | aborted (why : RebalanceAbort)
  | unconfirmed
  | realigned (netReceived : Decimal)
  deriving DecidableEq

/-- What the surroundings answer while a request is handled: the heartbeats (nothing if their lock
is poisoned) and the clock, the length of the queue, the payload or the error of its builder, the
HTTP status or the error of the withdrawal, the results of the looks at the deposit history, and
what reaches the destination although no look has confirmed it. -/
structure RebalanceAnswers where
  lastSeen : Option (List (UInt16 × ℕ))
  nowMs : ℕ
  queued : ℕ
  withdrawalRequest : Except String String
  response : Except String ℕ
  verification : ℕ → DepositVerifyResult
  lateArrival : Decimal
  lateArrival_nonneg : 0 ≤ lateArrival

/-- `is_exchange_live`: a heartbeat within the last 90 seconds. -/
def isExchangeLive (lastSeen : Option (List (UInt16 × ℕ))) (nowMs : ℕ) (exchangeId : UInt16) :
    Bool :=
  match lastSeen with
  | none => true
  | some map =>
    if map.isEmpty then true
    else
      match map.lookup exchangeId with
      | some lastSeenMs => (nowMs - lastSeenMs) / 1000 < 90
      | none => false

/-- The checks before the withdrawal is sent, in order. -/
def preflight (r : AutoCapitalRebalancer) (req : RebalanceRequest) (ans : RebalanceAnswers) :
    Option RebalanceAbort :=
  let exchangeName := exchangeNameById req.toExchangeId
  if exchangeName = "UNKNOWN" then some .unknownDestination
  else if ((r.depositAddresses (exchangeName ++ "_arbitrum")).getD "").isEmpty then
    some .addressNotConfigured
  else if r.signers req.fromExchangeId = false then some .noSigner
  else if isExchangeLive ans.lastSeen ans.nowMs req.fromExchangeId = false then
    some .sourceNotLive
  else if req.amount ≤ 0 then some .invalidAmount
  else if req.fromExchangeId = req.toExchangeId then some .selfTransfer
  else if 3 < ans.queued then some .backpressure
  else if r.allocator.getBalanceAtomic req.fromExchangeId.toNat req.tokenId.toNat < req.amount then
    some .insufficientBalance
  else if getWithdrawalEndpoint req.fromExchangeId = none then some .noEndpoint
  else
    match ans.withdrawalRequest with
    | .error _ => some .requestNotBuilt
    | .ok payload => if payload.isEmpty then some .emptyPayload else none

/-- The answer to the withdrawal request; a status of the 2xx range accepts it. -/
def submission (ans : RebalanceAnswers) : Option RebalanceAbort :=
  match ans.response with
  | .error _ => some .withdrawalFailed
  | .ok status => if 200 ≤ status ∧ status < 300 then none else some .withdrawalRejected

/-- Why no withdrawal is accepted. -/
def abortReason (r : AutoCapitalRebalancer) (req : RebalanceRequest) (ans : RebalanceAnswers) :
    Option RebalanceAbort :=
  match r.preflight req ans with
  | some why => some why
  | none => submission ans

/-- A look at the deposit history of the destination, which is supported for three exchanges. -/
def attemptDepositVerification (r : AutoCapitalRebalancer) (destExchangeId : UInt16)
    (answer : DepositVerifyResult) : DepositVerifyResult :=
  if exchangeNameById destExchangeId = "UNKNOWN" then .apiError "unknown destination exchange"
  else if r.signers destExchangeId = false then .apiError "no signer for destination exchange"
  else if 2 < destExchangeId then
    .apiError ("deposit verification not yet supported for exchange " ++ toString destExchangeId)
  else answer

/-- The retries of the verification, from an attempt on. -/
def retryVerification (look : ℕ → DepositVerifyResult) (attempt : ℕ) : ℕ → Option Decimal
  | 0 => none
  | remaining + 1 =>
    match look attempt with
    | .confirmed netReceived _ => some netReceived
    | .failed _ => none
    | .notFound => retryVerification look (attempt + 1) remaining
    | .apiError _ => retryVerification look (attempt + 1) remaining

/-- The amount that the first look or one of the three retries confirms. -/
def confirmation (r : AutoCapitalRebalancer) (req : RebalanceRequest) (ans : RebalanceAnswers) :
    Option Decimal :=
  let look := fun attempt =>
    r.attemptDepositVerification req.toExchangeId (ans.verification attempt)
  match look 0 with
  | .confirmed netReceived _ => some netReceived
  | .failed _ => none
  | .notFound => retryVerification look 1 3
  | .apiError _ => retryVerification look 1 3

/-- Handle one request. -/
def handleRequest (r : AutoCapitalRebalancer) (req : RebalanceRequest) (ans : RebalanceAnswers) :
    AutoCapitalRebalancer × RebalanceOutcome :=
  match r.abortReason req ans with
  | some why => (r, .aborted why)
  | none =>
    match r.confirmation req ans with
    | some netReceived =>
      (r.applyBalanceRealignment req.fromExchangeId req.toExchangeId req.tokenId req.amount
        netReceived, .realigned netReceived)
    | none => (r, .unconfirmed)

/-! ### Local and true balances -/

/-- The rebalancer and what the exchanges really hold. -/
structure World where
  rebalancer : AutoCapitalRebalancer
  trueBalance : ℕ → ℕ → Decimal

/-- Funds leave the source and others reach the destination of a request. -/
def moveFunds (trueBalance : ℕ → ℕ → Decimal) (req : RebalanceRequest)
    (withdrawn arrived : Decimal) (e t : ℕ) : Decimal :=
  trueBalance e t -
    (if e = req.fromExchangeId.toNat ∧ t = req.tokenId.toNat then withdrawn else 0) +
    (if e = req.toExchangeId.toNat ∧ t = req.tokenId.toNat then arrived else 0)

/-- One request in the world: an accepted withdrawal takes its amount from the source, and what a
look confirmed has reached the destination. -/
def worldStep (w : World) (x : RebalanceRequest × RebalanceAnswers) :
    World × List RebalanceOutcome :=
  let handled := w.rebalancer.handleRequest x.1 x.2
  (⟨handled.1,
    match handled.2 with
    | .aborted _ => w.trueBalance
    | .unconfirmed => moveFunds w.trueBalance x.1 x.1.amount x.2.lateArrival
    | .realigned netReceived => moveFunds w.trueBalance x.1 x.1.amount netReceived⟩, [handled.2])

/-- Every slot's local balance is at most the true one. -/
def AtMostTrue (w : World) : Prop :=
  ∀ e t, w.rebalancer.allocator.InTable e t →
    w.rebalancer.allocator.getBalanceAtomic e t ≤ w.trueBalance e t

/-- What the local debit misses of an accepted withdrawal: the part below a micro-unit when it is
confirmed, and all of it when it is not. -/
def missedDebit (r : AutoCapitalRebalancer) (req : RebalanceRequest) (ans : RebalanceAnswers) :
    Decimal :=
  match r.confirmation req ans with
  | some _ => req.amount - microUnits req.amount / fpScale
  | none => req.amount

/-- If the withdrawal is accepted, the source really holds more than its local balance, by at least
what the debit misses. -/
def WithdrawalCovered (w : World) (x : RebalanceRequest × RebalanceAnswers) : Prop :=
  w.rebalancer.abortReason x.1 x.2 = none →
    w.rebalancer.allocator.getBalanceAtomic x.1.fromExchangeId.toNat x.1.tokenId.toNat +
        w.rebalancer.missedDebit x.1 x.2 ≤
      w.trueBalance x.1.fromExchangeId.toNat x.1.tokenId.toNat

/-! ### Amounts in micro-units -/

lemma getBalanceAtomic_eq (a : LocalCapitalAllocator) (e t : ℕ) :
    a.getBalanceAtomic e t = ((a.storedFp e t).toNat : ℚ) / fpScale := by
  rw [LocalCapitalAllocator.getBalanceAtomic, LocalCapitalAllocator.storedFp]
  cases a.idx e t with
  | some i => rfl
  | none => simp

lemma fpScale_pos : (0 : ℚ) < fpScale := by norm_num [fpScale]

/-- The micro-units of an amount that is not negative are worth at most the amount. -/
lemma microUnits_div_le {d : Decimal} (h : 0 ≤ d) : (microUnits d : ℚ) / fpScale ≤ d := by
  rw [div_le_iff₀ fpScale_pos, microUnits, Int.floor_toNat]
  exact Nat.floor_le (mul_nonneg h fpScale_pos.le)

/-- An amount that a balance covers is covered in micro-units. -/
lemma microUnits_le_of_le {d : Decimal} {n : ℕ} (h : d ≤ (n : ℚ) / fpScale) :
    microUnits d ≤ n := by
  rw [le_div_iff₀ fpScale_pos] at h
  have hfloor : ⌊d * fpScale⌋ ≤ (n : ℤ) := Int.floor_le_iff.mpr (by push_cast; linarith)
  rw [microUnits]
  omega

/-! ### One request -/

/-- A check that passes leaves the ones after it. -/
lemma of_check_eq_none {α : Type*} {c : Prop} [Decidable c] {why : α} {rest : Option α}
    (h : (if c then some why else rest) = none) : ¬ c ∧ rest = none := by
  by_cases hc : c
  · rw [if_pos hc] at h
    exact absurd h (by simp)
  · rw [if_neg hc] at h
    exact ⟨hc, h⟩

section Request

variable {r : AutoCapitalRebalancer} {req : RebalanceRequest} {ans : RebalanceAnswers}

/-- What the checks before an accepted withdrawal establish. -/
lemma of_abortReason_none (h : r.abortReason req ans = none) :
    0 < req.amount ∧ req.fromExchangeId ≠ req.toExchangeId ∧
      req.amount ≤ r.allocator.getBalanceAtomic req.fromExchangeId.toNat req.tokenId.toNat := by
  have hpre : r.preflight req ans = none := by
    rw [abortReason] at h
    split at h
    · exact absurd h (by simp)
    next hpre => exact hpre
  rw [preflight] at hpre
  obtain ⟨-, hpre⟩ := of_check_eq_none hpre
  obtain ⟨-, hpre⟩ := of_check_eq_none hpre
  obtain ⟨-, hpre⟩ := of_check_eq_none hpre
  obtain ⟨-, hpre⟩ := of_check_eq_none hpre
  obtain ⟨hamount, hpre⟩ := of_check_eq_none hpre
  obtain ⟨hself, hpre⟩ := of_check_eq_none hpre
  obtain ⟨-, hpre⟩ := of_check_eq_none hpre
  obtain ⟨hbalance, -⟩ := of_check_eq_none hpre
  exact ⟨not_le.mp hamount, hself, not_lt.mp hbalance⟩

lemma handleRequest_aborted {why : RebalanceAbort} (h : r.abortReason req ans = some why) :
    r.handleRequest req ans = (r, .aborted why) := by
  rw [handleRequest, h]

lemma handleRequest_unconfirmed (h : r.abortReason req ans = none)
    (hnone : r.confirmation req ans = none) : r.handleRequest req ans = (r, .unconfirmed) := by
  rw [handleRequest, h, hnone]

lemma handleRequest_realigned (h : r.abortReason req ans = none) {net : Decimal}
    (hnet : r.confirmation req ans = some net) :
    r.handleRequest req ans =
      (r.applyBalanceRealignment req.fromExchangeId req.toExchangeId req.tokenId req.amount net,
        .realigned net) := by
  rw [handleRequest, h, hnet]

lemma retryVerification_pos {look : ℕ → DepositVerifyResult} {attempt remaining : ℕ}
    {net : Decimal} (h : retryVerification look attempt remaining = some net) : 0 < net := by
  induction remaining generalizing attempt with
  | zero => exact absurd h (by simp [retryVerification])
  | succ remaining ih =>
    rw [retryVerification] at h
    split at h
    next net' hpos _ =>
      obtain rfl := Option.some.inj h
      exact hpos
    next => exact absurd h (by simp)
    next => exact ih h
    next => exact ih h

/-- A confirmed amount is positive. -/
lemma confirmation_pos {net : Decimal} (h : r.confirmation req ans = some net) : 0 < net := by
  rw [confirmation] at h
  split at h
  next net' hpos _ =>
    obtain rfl := Option.some.inj h
    exact hpos
  next => exact absurd h (by simp)
  next => exact retryVerification_pos h
  next => exact retryVerification_pos h

lemma inTable_applyBalanceRealignment (from' to' token : UInt16) (debit credit : Decimal)
    (e t : ℕ) :
    (r.applyBalanceRealignment from' to' token debit credit).allocator.InTable e t ↔
      r.allocator.InTable e t :=
  (LocalCapitalAllocator.inTable_fetchAddBalance _ _ _ _ _ _).trans
    (LocalCapitalAllocator.inTable_fetchSubBalance _ _ _ _ _ _)

/-- A realignment between two exchanges leaves the source with the debit taken off. -/
lemma realigned_source (hne : req.fromExchangeId ≠ req.toExchangeId)
    (hcovers : req.amount ≤
      r.allocator.getBalanceAtomic req.fromExchangeId.toNat req.tokenId.toNat) (net : Decimal) :
    (r.applyBalanceRealignment req.fromExchangeId req.toExchangeId req.tokenId req.amount
        net).allocator.getBalanceAtomic req.fromExchangeId.toNat req.tokenId.toNat =
      r.allocator.getBalanceAtomic req.fromExchangeId.toNat req.tokenId.toNat -
        microUnits req.amount / fpScale := by
  have hne' : req.fromExchangeId.toNat ≠ req.toExchangeId.toNat :=
    fun h => hne (UInt16.toNat_inj.mp h)
  rw [getBalanceAtomic_eq] at hcovers
  have hunits := microUnits_le_of_le hcovers
  have hfp := decimalToFp_toNat req.amount
  have hword := (r.allocator.storedFp req.fromExchangeId.toNat req.tokenId.toNat).toNat_lt
  have hfp' : (decimalToFp req.amount).toNat = microUnits req.amount := by omega
  have hle : decimalToFp req.amount ≤
      r.allocator.storedFp req.fromExchangeId.toNat req.tokenId.toNat := by
    rw [UInt64.le_iff_toNat_le, hfp']
    exact hunits
  rw [getBalanceAtomic_eq, getBalanceAtomic_eq, applyBalanceRealignment, creditDestination,
    debitSource]
  dsimp only
  rw [LocalCapitalAllocator.storedFp_fetchAddBalance, if_neg fun h => hne' h.1.1,
    LocalCapitalAllocator.storedFp_fetchSubBalance]
  have htrack : (r.trackGas req.amount).allocator = r.allocator := rfl
  rw [htrack, if_pos ⟨⟨rfl, rfl⟩, hle⟩, UInt64.toNat_sub_of_le _ _ hle, hfp',
    Nat.cast_sub hunits, sub_div]

/-- A realignment credits a slot other than its source by at most what was received. -/
lemma realigned_other {e t : ℕ} (hother : ¬ (e = req.fromExchangeId.toNat ∧ t = req.tokenId.toNat))
    {net : Decimal} (hnet : 0 ≤ net) :
    (r.applyBalanceRealignment req.fromExchangeId req.toExchangeId req.tokenId req.amount
        net).allocator.getBalanceAtomic e t ≤
      r.allocator.getBalanceAtomic e t +
        if e = req.toExchangeId.toNat ∧ t = req.tokenId.toNat then net else 0 := by
  have hdebit : ((r.trackGas req.amount).debitSource req.fromExchangeId req.tokenId
      req.amount).allocator.storedFp e t = r.allocator.storedFp e t := by
    rw [debitSource]
    dsimp only
    rw [LocalCapitalAllocator.storedFp_fetchSubBalance, if_neg fun h => hother h.1]
    rfl
  rw [getBalanceAtomic_eq, getBalanceAtomic_eq, applyBalanceRealignment, creditDestination]
  dsimp only
  by_cases hto : e = req.toExchangeId.toNat ∧ t = req.tokenId.toNat
  · obtain ⟨rfl, rfl⟩ := hto
    rw [if_pos ⟨rfl, rfl⟩]
    have hchange := (fetchAdd_change ((r.trackGas req.amount).debitSource req.fromExchangeId
      req.tokenId req.amount).allocator req.toExchangeId.toNat req.tokenId.toNat net).1
    rw [hdebit] at hchange
    have hunits := microUnits_div_le hnet
    have hcast : (((((r.trackGas req.amount).debitSource req.fromExchangeId req.tokenId
        req.amount).allocator.fetchAddBalance req.toExchangeId.toNat req.tokenId.toNat
          net).storedFp req.toExchangeId.toNat req.tokenId.toNat).toNat : ℚ) ≤
        (r.allocator.storedFp req.toExchangeId.toNat req.tokenId.toNat).toNat +
          microUnits net := by
      exact_mod_cast (by omega)
    calc _ ≤ ((r.allocator.storedFp req.toExchangeId.toNat req.tokenId.toNat).toNat +
          (microUnits net : ℚ)) / fpScale := div_le_div_of_nonneg_right hcast fpScale_pos.le
      _ = (r.allocator.storedFp req.toExchangeId.toNat req.tokenId.toNat).toNat / fpScale +
          (microUnits net : ℚ) / fpScale := add_div _ _ _
      _ ≤ _ := add_le_add_right hunits _
  · rw [if_neg hto, add_zero, LocalCapitalAllocator.storedFp_fetchAddBalance,
      if_neg fun h => hto h.1, hdebit]

end Request

/-- The slot a withdrawal is covered by is in the table. -/
lemma inTable_of_le {a : LocalCapitalAllocator} {e t : ℕ} {amount : Decimal} (hpos : 0 < amount)
    (hle : amount ≤ a.getBalanceAtomic e t) : a.InTable e t := by
  by_contra hout
  rw [getBalanceAtomic_eq, LocalCapitalAllocator.storedFp_of_not_inTable hout] at hle
  simp at hle
  linarith

/-- After a withdrawal whose local debit is `debited`, only the source decides whether the local
balances are still at most the true ones. -/
lemma atMostTrue_moveFunds_iff {w : World} (h : AtMostTrue w) {r' : AutoCapitalRebalancer}
    {req : RebalanceRequest} {debited arrived : Decimal}
    (hsource : w.rebalancer.allocator.InTable req.fromExchangeId.toNat req.tokenId.toNat)
    (hne : req.fromExchangeId ≠ req.toExchangeId)
    (hin : ∀ e t, r'.allocator.InTable e t ↔ w.rebalancer.allocator.InTable e t)
    (hdebit : r'.allocator.getBalanceAtomic req.fromExchangeId.toNat req.tokenId.toNat =
      w.rebalancer.allocator.getBalanceAtomic req.fromExchangeId.toNat req.tokenId.toNat - debited)
    (hother : ∀ e t, ¬ (e = req.fromExchangeId.toNat ∧ t = req.tokenId.toNat) →
      r'.allocator.getBalanceAtomic e t ≤ w.rebalancer.allocator.getBalanceAtomic e t +
        if e = req.toExchangeId.toNat ∧ t = req.tokenId.toNat then arrived else 0) :
    AtMostTrue ⟨r', moveFunds w.trueBalance req req.amount arrived⟩ ↔
      w.rebalancer.allocator.getBalanceAtomic req.fromExchangeId.toNat req.tokenId.toNat +
          (req.amount - debited) ≤
        w.trueBalance req.fromExchangeId.toNat req.tokenId.toNat := by
  have hne' : req.fromExchangeId.toNat ≠ req.toExchangeId.toNat :=
    fun heq => hne (UInt16.toNat_inj.mp heq)
  have hmoved : moveFunds w.trueBalance req req.amount arrived req.fromExchangeId.toNat
      req.tokenId.toNat =
        w.trueBalance req.fromExchangeId.toNat req.tokenId.toNat - req.amount := by
    rw [moveFunds, if_pos ⟨rfl, rfl⟩, if_neg fun heq => hne' heq.1, add_zero]
  constructor
  · intro hafter
    have hslot := hafter _ _ ((hin _ _).mpr hsource)
    dsimp only at hslot
    rw [hdebit, hmoved] at hslot
    linarith
  · intro hslack e t htable
    dsimp only at htable ⊢
    by_cases hfrom : e = req.fromExchangeId.toNat ∧ t = req.tokenId.toNat
    · rw [hfrom.1, hfrom.2, hdebit, hmoved]
      linarith
    · have hle := hother e t hfrom
      have htrue := h e t ((hin e t).mp htable)
      rw [moveFunds, if_neg hfrom]
      linarith

/-- One request keeps the local balances at most the true ones exactly when its withdrawal is
covered. -/
lemma atMostTrue_step_iff {w : World} (h : AtMostTrue w) (x : RebalanceRequest × RebalanceAnswers) :
    AtMostTrue (worldStep w x).1 ↔ WithdrawalCovered w x := by
  obtain ⟨req, ans⟩ := x
  rw [WithdrawalCovered]
  dsimp only
  cases habort : w.rebalancer.abortReason req ans with
  | some why =>
    have hsame : (worldStep w (req, ans)).1 = w := by
      rw [worldStep, handleRequest_aborted habort]
    rw [hsame]
    exact iff_of_true h fun hnone => absurd hnone (by simp)
  | none =>
    obtain ⟨hpos, hne, hcovers⟩ := of_abortReason_none habort
    have hsource := inTable_of_le hpos hcovers
    rw [missedDebit, forall_prop_of_true rfl]
    cases hconf : w.rebalancer.confirmation req ans with
    | none =>
      have hstep : (worldStep w (req, ans)).1 =
          ⟨w.rebalancer, moveFunds w.trueBalance req req.amount ans.lateArrival⟩ := by
        rw [worldStep, handleRequest_unconfirmed habort hconf]
      rw [hstep, atMostTrue_moveFunds_iff h hsource hne (fun _ _ => Iff.rfl) (sub_zero _).symm,
        sub_zero]
      intro e t _
      refine le_add_of_nonneg_right ?_
      split
      · exact ans.lateArrival_nonneg
      · exact le_rfl
    | some net =>
      have hnet := confirmation_pos hconf
      have hstep : (worldStep w (req, ans)).1 =
          ⟨w.rebalancer.applyBalanceRealignment req.fromExchangeId req.toExchangeId req.tokenId
            req.amount net, moveFunds w.trueBalance req req.amount net⟩ := by
        rw [worldStep, handleRequest_realigned habort hconf]
      rw [hstep]
      exact atMostTrue_moveFunds_iff h hsource hne (inTable_applyBalanceRealignment _ _ _ _ _)
        (realigned_source hne hcovers net) (fun e t hother => realigned_other hother hnet.le)

/-! ### Whole runs -/

/-- **Local balances never overstate an exchange exactly as long as every accepted withdrawal is
covered.**  The source must really hold more than its local balance by what the local debit misses:
the whole amount if no look at the deposit history confirms it, the part below a micro-unit if one
does. -/
theorem local_at_most_true_iff (w : World) (requests : List (RebalanceRequest × RebalanceAnswers))
    (h : AtMostTrue w) :
    (∀ before after, requests = before ++ after → AtMostTrue (runState worldStep w before)) ↔
      ∀ before x after, requests = before ++ x :: after →
        WithdrawalCovered (runState worldStep w before) x := by
  constructor
  · rintro hall before x after rfl
    have hnext := hall (before ++ [x]) after (by simp)
    rw [runState_append] at hnext
    exact (atMostTrue_step_iff (hall before (x :: after) rfl) x).mp hnext
  · rintro hcovered before after rfl
    refine runState_induction_at (C := WithdrawalCovered)
      (fun w x hw hx => (atMostTrue_step_iff hw x).mpr hx) h ?_
    rintro first x rest rfl
    exact hcovered first x (rest ++ after) (by simp)

/-- Sixty units are to move from the first exchange to the second one. -/
def sixtyUnitsRequest : RebalanceRequest :=
  { fromExchangeId := 0, toExchangeId := 1, tokenId := 0, amount := 60, tokenSymbol := "USDT" }

/-- A withdrawal that is accepted, with some results of the looks at the deposit history. -/
def acceptedWith (verification : ℕ → DepositVerifyResult) : RebalanceAnswers where
  lastSeen := some []
  nowMs := 0
  queued := 0
  withdrawalRequest := .ok "coin=USDT"
  response := .ok 200
  verification := verification
  lateArrival := 0
  lateArrival_nonneg := le_rfl

/-- The world of two exchanges in which the local balances are the true ones. -/
def exactWorld : World where
  rebalancer := twoExchanges
  trueBalance := twoExchanges.allocator.getBalanceAtomic

lemma exactWorld_atMostTrue : AtMostTrue exactWorld := fun _ _ _ => le_rfl

/-- The deposit of fifty-nine units is seen at the third look. -/
def confirmedLate (attempt : ℕ) : DepositVerifyResult :=
  if attempt < 2 then .notFound else .confirmed 59 (by norm_num)

theorem local_at_most_true_iff_confirmed :
    AtMostTrue exactWorld ∧
      AtMostTrue (runState worldStep exactWorld
        [(sixtyUnitsRequest, acceptedWith confirmedLate)]) := by
  refine ⟨exactWorld_atMostTrue, (local_at_most_true_iff exactWorld _ exactWorld_atMostTrue).mpr ?_
    _ [] (List.append_nil _).symm⟩
  refine forall_split_cons.mpr ⟨fun _ => ?_, forall_split_nil⟩
  decide +kernel

/-- No look confirms the deposit, and the local balance of the source stays at a hundred units, of
which sixty have left. -/
theorem unconfirmed_overstates :
    AtMostTrue exactWorld ∧
      ¬ AtMostTrue (runState worldStep exactWorld
        [(sixtyUnitsRequest, acceptedWith fun _ => .notFound)]) := by
  refine ⟨exactWorld_atMostTrue, fun h => ?_⟩
  have hsource := h 0 0 (by decide +kernel)
  exact absurd hsource (by decide +kernel)

end AutoCapitalRebalancer

end HftArb
