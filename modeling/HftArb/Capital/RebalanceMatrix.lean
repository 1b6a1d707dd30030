import HftArb.RustDecimal

/-!
# The rebalance matrix

`RebalanceMatrixEngine` says how much to transfer between two exchanges so that each holds half of
the total.  Its answer is computed anew only when the hash of the question differs from that of the
last one computed and some seconds have passed since; otherwise the last answer is given again,
whatever the question.

`computeHedgedRebalanceExecution_origin` says for which question an answer was computed: the latest
one that passed both gates.  Within the interval this may be a question about other exchanges
(`cached_action_for_other_pair`).
-/

namespace HftArb

/-- The stable balances on two exchanges. -/
structure AccountInventory where
  stableBalanceX : RustDecimal
  stableBalanceY : RustDecimal

namespace AccountInventory

variable (inventory : AccountInventory)

/-- The sum of the balances. -/
def totalStable : Decimal := inventory.stableBalanceX.value + inventory.stableBalanceY.value

/-- The share of the first exchange. -/
def ratioX : Decimal :=
  if 0 < inventory.totalStable then inventory.stableBalanceX.value / inventory.totalStable else 0

/-- The share of the second exchange. -/
def ratioY : Decimal :=
  if 0 < inventory.totalStable then 1 - inventory.stableBalanceX.value / inventory.totalStable
  else 0

/-- The balance of the over-weighted side. -/
def overweightBalance : Decimal :=
  if inventory.ratioY < inventory.ratioX then inventory.stableBalanceX.value
  else inventory.stableBalanceY.value

end AccountInventory

/-- A transfer that restores the balance. -/
structure RebalanceAction where
  transferAmount : Decimal
  fromExchange : UInt16
  toExchange : UInt16
  estimatedFee : Decimal
  currentImbalanceRatio : Decimal
  targetRatio : Decimal
  deriving DecidableEq

/-- A division by zero panics. -/
inductive Panic
  | divisionByZero
  deriving DecidableEq

/-- A question to the engine, with the reading of the clock. -/
structure RebalanceCall where
  inventory : AccountInventory
  fromExchangeId : UInt16
  toExchangeId : UInt16
  now : ℤ

/-- The engine: its limits and the last answer it computed. -/
structure RebalanceMatrixEngine where
  executionFee : Decimal
  minTransferAmount : Decimal
  minRebalanceIntervalSecs : ℤ
  lastComputeHash : UInt64
  lastComputeResult : Option RebalanceAction
  lastComputeTime : ℤ

/-! ## The hash of a question -/

/-- FNV-1a over bytes. -/
def fnv1a (bytes : List UInt8) (h : UInt64) : UInt64 :=
  bytes.foldl (fun h b => (h ^^^ b.toUInt64) * 0x100000001b3) h

section Model

-- The byte layout of a stored decimal.
variable (serialize : RustDecimal → List UInt8)

/-- The hash of two balances. -/
def hashBalances (balX balY : RustDecimal) : UInt64 :=
  fnv1a (serialize balY) (fnv1a (serialize balX) 0xcbf29ce484222325)

/-- The hash of a question: balances and exchanges. -/
def hashComputeInput (balX balY : RustDecimal) (fromExchangeId toExchangeId : UInt16) : UInt64 :=
  hashBalances serialize balX balY ^^^ (fromExchangeId.toUInt64 <<< 32) ^^^ toExchangeId.toUInt64

/-- The hash of a call. -/
def RebalanceCall.hash (call : RebalanceCall) : UInt64 :=
  hashComputeInput serialize call.inventory.stableBalanceX call.inventory.stableBalanceY
    call.fromExchangeId call.toExchangeId

/-! ## The answer -/

namespace RebalanceMatrixEngine

/-- A new engine with the given interval. -/
def new (fee minTransfer : Decimal) (minInterval : ℤ) : RebalanceMatrixEngine where
  executionFee := fee
  minTransferAmount := minTransfer
  minRebalanceIntervalSecs := minInterval
  lastComputeHash := 0
  lastComputeResult := none
  lastComputeTime := 0

variable (engine : RebalanceMatrixEngine)

/-- Whether a transfer is worth making, and the action it is. -/
def actionFor (sourceBalance destBalance transferAmount currentImbalance : Decimal)
    (fromId toId : UInt16) : Except Panic (Option RebalanceAction) :=
  if transferAmount ≤ 0 then .ok none
  else if transferAmount < engine.minTransferAmount then .ok none
  else
    let fee := min (transferAmount * engine.executionFee) transferAmount
    let netTransfer := transferAmount - fee
    let newSource := if sourceBalance ≤ transferAmount then 0 else sourceBalance - transferAmount
    let newDest := destBalance + netTransfer
    if newSource < 0 then .ok none
    else if newSource + newDest = 0 then .error .divisionByZero
    else if 5 / 100 < |newSource / (newSource + newDest) - 5 / 10| then .ok none
    else .ok (some
      { transferAmount := transferAmount
        fromExchange := fromId
        toExchange := toId
        estimatedFee := fee
        currentImbalanceRatio := currentImbalance
        targetRatio := 5 / 10 })

/-- The answer to a question, computed anew. -/
def doCompute (inventory : AccountInventory) (fromExchangeId toExchangeId : UInt16) :
    Except Panic (Option RebalanceAction) :=
  let balX := inventory.stableBalanceX.value
  let balY := inventory.stableBalanceY.value
  let overweightX := inventory.ratioY < inventory.ratioX
  let sourceBalance := if overweightX then balX else balY
  let destBalance := if overweightX then balY else balX
  let fromId := if overweightX then fromExchangeId else toExchangeId
  let toId := if overweightX then toExchangeId else fromExchangeId
  let total := inventory.totalStable
  if total ≤ 0 then .ok none
  else
    let oneMinusFee := 1 - engine.executionFee
    if oneMinusFee ≤ 0 then .ok none
    else
      let transferAmount := (⌊(sourceBalance - total / 2) / oneMinusFee⌋ : Decimal)
      engine.actionFor sourceBalance destBalance transferAmount
        (max inventory.ratioX inventory.ratioY) fromId toId

/-- The question differs from the last one computed, by its hash. -/
def PassesHashGate (call : RebalanceCall) : Prop := call.hash serialize ≠ engine.lastComputeHash

/-- The interval since the last computation is over. -/
def PassesTimeGate (call : RebalanceCall) : Prop :=
  ¬ satSubI64 call.now engine.lastComputeTime < engine.minRebalanceIntervalSecs

instance (call : RebalanceCall) : Decidable (engine.PassesHashGate serialize call) :=
  inferInstanceAs (Decidable (_ ≠ _))

instance (call : RebalanceCall) : Decidable (engine.PassesTimeGate call) :=
  inferInstanceAs (Decidable (¬ _))

/-- The answer to a question, and the engine afterwards.  A panic leaves the engine. -/
def computeHedgedRebalanceExecution (call : RebalanceCall) :
    Except Panic (Option RebalanceAction) × RebalanceMatrixEngine :=
  if ¬ engine.PassesHashGate serialize call then (.ok engine.lastComputeResult, engine)
  else if ¬ engine.PassesTimeGate call then (.ok engine.lastComputeResult, engine)
  else
    match engine.doCompute call.inventory call.fromExchangeId call.toExchangeId with
    | .error panic => (.error panic, engine)
    | .ok result =>
      (.ok result,
        { engine with
          lastComputeHash := call.hash serialize
          lastComputeResult := result
          lastComputeTime := call.now })

/-- The engine after some questions. -/
def afterCalls (calls : List RebalanceCall) : RebalanceMatrixEngine :=
  calls.foldl (fun engine call => (engine.computeHedgedRebalanceExecution serialize call).2) engine

/-! ## What is computed -/

/-- An action moves its amount, which is less than the source holds, between the two exchanges. -/
lemma actionFor_spec {engine : RebalanceMatrixEngine}
    {sourceBalance destBalance transferAmount currentImbalance : Decimal} {fromId toId : UInt16}
    {action : RebalanceAction}
    (h : engine.actionFor sourceBalance destBalance transferAmount currentImbalance fromId toId =
      .ok (some action)) :
    action.transferAmount < sourceBalance ∧ action.fromExchange = fromId ∧
      action.toExchange = toId := by
  unfold actionFor at h
  simp only at h
  by_cases hall : sourceBalance ≤ transferAmount
  · -- The source would be empty, and a share of zero is too far from one half.
    have hfar : (5 / 100 : Decimal) < |0 - 5 / 10| := by norm_num
    simp only [hall, if_true, zero_div, hfar] at h
    split_ifs at h <;> cases h
  · split_ifs at h
    any_goals cases h
    exact ⟨not_le.mp hall, rfl, rfl⟩

/-- A computed action is between the two exchanges of the question, and moves less than the
over-weighted side holds. -/
lemma doCompute_spec {engine : RebalanceMatrixEngine} {inventory : AccountInventory}
    {fromExchangeId toExchangeId : UInt16} {action : RebalanceAction}
    (h : engine.doCompute inventory fromExchangeId toExchangeId = .ok (some action)) :
    ({action.fromExchange, action.toExchange} : Finset UInt16) = {fromExchangeId, toExchangeId} ∧
      action.transferAmount < inventory.overweightBalance := by
  unfold doCompute at h
  unfold AccountInventory.overweightBalance
  simp only at h
  split_ifs at h with htotal hfee hx
  any_goals cases h
  · obtain ⟨hless, rfl, rfl⟩ := actionFor_spec h
    rw [if_pos hx]
    exact ⟨rfl, hless⟩
  · obtain ⟨hless, rfl, rfl⟩ := actionFor_spec h
    rw [if_neg hx]
    exact ⟨Finset.pair_comm _ _, hless⟩

/-! ## Which question an answer is for -/

/-- The question is computed anew, to the end. -/
def Recomputes (call : RebalanceCall) : Prop :=
  engine.PassesHashGate serialize call ∧ engine.PassesTimeGate call ∧
    ∃ result, engine.doCompute call.inventory call.fromExchangeId call.toExchangeId = .ok result

variable {serialize engine}

/-- A question that is computed anew. -/
lemma compute_of_recomputes {call : RebalanceCall} (h : engine.Recomputes serialize call) :
    ∃ result, engine.doCompute call.inventory call.fromExchangeId call.toExchangeId = .ok result ∧
      engine.computeHedgedRebalanceExecution serialize call =
        (.ok result,
          { engine with
            lastComputeHash := call.hash serialize
            lastComputeResult := result
            lastComputeTime := call.now }) := by
  obtain ⟨hhash, htime, result, hresult⟩ := h
  refine ⟨result, hresult, ?_⟩
  unfold computeHedgedRebalanceExecution
  rw [if_neg (not_not.mpr hhash), if_neg (not_not.mpr htime), hresult]

/-- A question that is not computed anew leaves the engine, and gets the last answer if it gets
one, because of one of the gates. -/
lemma compute_of_not_recomputes {call : RebalanceCall} (h : ¬ engine.Recomputes serialize call) :
    (engine.computeHedgedRebalanceExecution serialize call).2 = engine ∧
      ∀ result, (engine.computeHedgedRebalanceExecution serialize call).1 = .ok result →
        result = engine.lastComputeResult ∧
          (call.hash serialize = engine.lastComputeHash ∨
            satSubI64 call.now engine.lastComputeTime < engine.minRebalanceIntervalSecs) := by
  unfold computeHedgedRebalanceExecution
  by_cases hhash : engine.PassesHashGate serialize call
  · rw [if_neg (not_not.mpr hhash)]
    by_cases htime : engine.PassesTimeGate call
    · rw [if_neg (not_not.mpr htime)]
      cases hcompute : engine.doCompute call.inventory call.fromExchangeId call.toExchangeId with
      | error panic => exact ⟨rfl, fun result hresult => nomatch hresult⟩
      | ok result => exact absurd ⟨hhash, htime, result, hcompute⟩ h
    · rw [if_pos htime]
      refine ⟨rfl, fun result hresult => ?_⟩
      cases hresult
      exact ⟨rfl, Or.inr (not_not.mp htime)⟩
  · rw [if_pos hhash]
    refine ⟨rfl, fun result hresult => ?_⟩
    cases hresult
    exact ⟨rfl, Or.inl (not_not.mp hhash)⟩

lemma afterCalls_snoc (calls : List RebalanceCall) (call : RebalanceCall) :
    engine.afterCalls serialize (calls ++ [call]) =
      ((engine.afterCalls serialize calls).computeHedgedRebalanceExecution serialize call).2 := by
  simp [afterCalls]

/-- Questions leave the interval. -/
lemma afterCalls_interval (calls : List RebalanceCall) :
    (engine.afterCalls serialize calls).minRebalanceIntervalSecs =
      engine.minRebalanceIntervalSecs := by
  induction calls using List.reverseRecOn with
  | nil => rfl
  | append_singleton calls call ih =>
    rw [afterCalls_snoc, ← ih]
    by_cases h : (engine.afterCalls serialize calls).Recomputes serialize call
    · obtain ⟨result, -, heq⟩ := compute_of_recomputes h
      rw [heq]
    · rw [(compute_of_not_recomputes h).1]

variable (serialize engine)

/-- Of some questions, `origin` is the last one that is computed anew, after `pre`. -/
structure LastRecomputed (calls pre : List RebalanceCall) (origin : RebalanceCall)
    (post : List RebalanceCall) : Prop where
  calls_eq : calls = pre ++ origin :: post
  recomputes : (engine.afterCalls serialize pre).Recomputes serialize origin
  last : ∀ mid call rest, post = mid ++ call :: rest →
    ¬ (engine.afterCalls serialize (pre ++ origin :: mid)).Recomputes serialize call

variable {serialize engine}

/-- One more question that is not computed anew. -/
lemma LastRecomputed.snoc {calls pre post : List RebalanceCall} {origin call : RebalanceCall}
    (h : LastRecomputed serialize engine calls pre origin post)
    (hcall : ¬ (engine.afterCalls serialize calls).Recomputes serialize call) :
    LastRecomputed serialize engine (calls ++ [call]) pre origin (post ++ [call]) := by
  obtain ⟨rfl, hrecomputes, hlast⟩ := h
  refine ⟨by simp, hrecomputes, ?_⟩
  intro mid c rest heq
  rcases List.eq_nil_or_concat rest with rfl | ⟨rest, last, rfl⟩
  · obtain ⟨rfl, hc⟩ := List.append_inj' heq rfl
    obtain rfl : call = c := by simpa using hc
    exact hcall
  · have hsplit : post ++ [call] = (mid ++ c :: rest) ++ [last] := by
      rw [heq]
      simp
    obtain ⟨hpost, -⟩ := List.append_inj' hsplit rfl
    exact hlast mid c rest hpost

/-- A question that is computed anew is the last one. -/
lemma LastRecomputed.self {calls : List RebalanceCall} {call : RebalanceCall}
    (hcall : (engine.afterCalls serialize calls).Recomputes serialize call) :
    LastRecomputed serialize engine (calls ++ [call]) calls call [] :=
  ⟨rfl, hcall, fun mid c rest heq => by simp at heq⟩

/-- What the engine remembers is the last question that was computed anew: its hash, its time and
its answer. -/
lemma lastComputeResult_origin (hengine : engine.lastComputeResult = none)
    (calls : List RebalanceCall) {action : RebalanceAction}
    (h : (engine.afterCalls serialize calls).lastComputeResult = some action) :
    ∃ pre origin post, LastRecomputed serialize engine calls pre origin post ∧
      (engine.afterCalls serialize pre).doCompute origin.inventory origin.fromExchangeId
        origin.toExchangeId = .ok (some action) ∧
      (engine.afterCalls serialize calls).lastComputeHash = origin.hash serialize ∧
      (engine.afterCalls serialize calls).lastComputeTime = origin.now := by
  induction calls using List.reverseRecOn with
  | nil =>
    rw [show engine.afterCalls serialize [] = engine from rfl, hengine] at h
    cases h
  | append_singleton calls call ih =>
    by_cases hcall : (engine.afterCalls serialize calls).Recomputes serialize call
    · obtain ⟨result, hresult, heq⟩ := compute_of_recomputes hcall
      rw [afterCalls_snoc, heq] at h ⊢
      obtain rfl : result = some action := h
      exact ⟨calls, call, [], LastRecomputed.self hcall, hresult, rfl, rfl⟩
    · have hsame := (compute_of_not_recomputes hcall).1
      rw [afterCalls_snoc, hsame] at h ⊢
      obtain ⟨pre, origin, post, hlast, hcompute, hhash, htime⟩ := ih h
      exact ⟨pre, origin, post ++ [call], hlast.snoc hcall, hcompute, hhash, htime⟩

/-- Every action the engine answers with was computed for the latest question that passed both
gates: it is between the exchanges of that question, and moves less than the over-weighted side of
that inventory holds.  That question is the one asked, unless their hashes agree or the one asked
comes within the interval. -/
theorem computeHedgedRebalanceExecution_origin (serialize : RustDecimal → List UInt8)
    (fee minTransfer : Decimal) (minInterval : ℤ) (calls : List RebalanceCall)
    (call : RebalanceCall) (action : RebalanceAction)
    (h : (((new fee minTransfer minInterval).afterCalls serialize
      calls).computeHedgedRebalanceExecution serialize call).1 = .ok (some action)) :
    ∃ pre origin post,
      LastRecomputed serialize (new fee minTransfer minInterval) (calls ++ [call]) pre origin
        post ∧
      ({action.fromExchange, action.toExchange} : Finset UInt16) =
        {origin.fromExchangeId, origin.toExchangeId} ∧
      action.transferAmount ≤ origin.inventory.overweightBalance ∧
      (post = [] ∧ origin = call ∨ call.hash serialize = origin.hash serialize ∨
        satSubI64 call.now origin.now < minInterval) := by
  by_cases hcall :
      ((new fee minTransfer minInterval).afterCalls serialize calls).Recomputes serialize call
  · obtain ⟨result, hresult, heq⟩ := compute_of_recomputes hcall
    rw [heq] at h
    obtain rfl : result = some action := Except.ok.inj h
    obtain ⟨hpair, hless⟩ := doCompute_spec hresult
    exact ⟨calls, call, [], LastRecomputed.self hcall, hpair, hless.le, Or.inl ⟨rfl, rfl⟩⟩
  · obtain ⟨hcached, hgate⟩ := (compute_of_not_recomputes hcall).2 _ h
    obtain ⟨pre, origin, post, hlast, hcompute, hhash, htime⟩ :=
      lastComputeResult_origin rfl calls hcached.symm
    obtain ⟨hpair, hless⟩ := doCompute_spec hcompute
    rw [hhash, htime, afterCalls_interval] at hgate
    exact ⟨pre, origin, post ++ [call], hlast.snoc hcall, hpair, hless.le, Or.inr hgate⟩

end RebalanceMatrixEngine

end Model

/-! ## Two questions within the interval -/

/-- The four bytes of a 32-bit part, the lowest first. -/
def littleEndian (n : ℕ) : List UInt8 :=
  (List.range 4).map fun i => UInt8.ofNat (n / 256 ^ i)

/-- The documented layout of a stored decimal: flags, then the low, middle and high part of the
mantissa. -/
def serializeParts (d : RustDecimal) : List UInt8 :=
  littleEndian ((d.scale : ℕ) * 2 ^ 16 + if d.negative then 2 ^ 31 else 0) ++
    littleEndian ((d.mantissa : ℕ) % 2 ^ 32) ++
    littleEndian ((d.mantissa : ℕ) / 2 ^ 32 % 2 ^ 32) ++
    littleEndian ((d.mantissa : ℕ) / 2 ^ 64)

/-- A whole number of dollars. -/
def dollars (n : ℕ) : RustDecimal := ⟨false, 0, Fin.ofNat (2 ^ 96) n⟩

/-- A question about 9000 dollars on exchange 1 and 1000 dollars on exchange 2. -/
def firstQuestion : RebalanceCall := ⟨⟨dollars 9000, dollars 1000⟩, 1, 2, 1000⟩

/-- A question, a second later, about 900 dollars on exchange 3 and 100 dollars on exchange 4. -/
def secondQuestion : RebalanceCall := ⟨⟨dollars 900, dollars 100⟩, 3, 4, 1001⟩

/-- The engine of the tests: fee 0.2 %, transfers of at least 10 dollars, 5 seconds. -/
def testRebalanceEngine : RebalanceMatrixEngine := .new (2 / 1000) 10 5

/-- The transfer of 4008 dollars from exchange 1 to exchange 2. -/
def firstAction : RebalanceAction where
  transferAmount := 4008
  fromExchange := 1
  toExchange := 2
  estimatedFee := 8016 / 1000
  currentImbalanceRatio := 9 / 10
  targetRatio := 1 / 2

namespace RebalanceMatrixEngine

/-- The second question gets the action of the first, which was computed last. -/
theorem computeHedgedRebalanceExecution_origin_secondQuestion :
    ∃ pre origin post,
      LastRecomputed serializeParts (.new (2 / 1000) 10 5) [firstQuestion, secondQuestion] pre
        origin post ∧
      ({1, 2} : Finset UInt16) = {origin.fromExchangeId, origin.toExchangeId} ∧
      4008 ≤ origin.inventory.overweightBalance ∧
      (post = [] ∧ origin = secondQuestion ∨
        secondQuestion.hash serializeParts = origin.hash serializeParts ∨
        satSubI64 secondQuestion.now origin.now < 5) :=
  computeHedgedRebalanceExecution_origin serializeParts (2 / 1000) 10 5 [firstQuestion]
    secondQuestion firstAction (by decide +kernel)

/-- Within the interval a question about exchanges 3 and 4 is answered with a transfer from exchange
1 to exchange 2, of more than the over-weighted side of the question holds. -/
theorem cached_action_for_other_pair :
    ((testRebalanceEngine.afterCalls serializeParts
        [firstQuestion]).computeHedgedRebalanceExecution serializeParts secondQuestion).1 =
        .ok (some firstAction) ∧
      ({firstAction.fromExchange, firstAction.toExchange} : Finset UInt16) ≠
        {secondQuestion.fromExchangeId, secondQuestion.toExchangeId} ∧
      ¬ firstAction.transferAmount ≤ secondQuestion.inventory.overweightBalance := by
  refine ⟨by decide +kernel, by decide +kernel, by decide +kernel⟩

end RebalanceMatrixEngine

end HftArb
