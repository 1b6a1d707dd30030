import HftArb.Backtest.EquityCurve

/-!
# The divisions of a backtest

A division by zero panics.  Here the functions of a run are written down once more with `div?`,
which gives nothing for such a division, in place of the division of rationals.  All of them but one
have a guard or a constant divisor, so that nothing changes (`run?_eq`); the sample variance divides
by the number of returns less one.  The equity curve of a new engine stays positive, there is a
return for every timestamp, and a run panics exactly when there is a single one
(`backtest_returns_iff`).
-/

namespace HftArb

open Runs Saturating

/-- A division of the source: nothing when it panics. -/
def Decimal.div? (a b : Decimal) : Option Decimal := if b = 0 then none else some (a / b)

lemma Decimal.div?_of_ne_zero {b : Decimal} (hb : b ≠ 0) (a : Decimal) :
    Decimal.div? a b = some (a / b) := if_neg hb

lemma Decimal.div?_zero (a : Decimal) : Decimal.div? a 0 = none := if_pos rfl

namespace Backtest

open Decimal

/-! ## The trades -/

/-- `fee_for_exchange`. -/
def feeForExchange? (config : BacktestConfig) (exchangeId : UInt16) : Option Decimal :=
  match config.buildFeeCache exchangeId with
  | some fee => some fee
  | none => div? (Decimal.ofU64 config.takerFeeBps) 10000

lemma feeForExchange?_eq (config : BacktestConfig) (exchangeId : UInt16) :
    feeForExchange? config exchangeId = some (config.feeForExchange exchangeId) := by
  unfold feeForExchange? BacktestConfig.feeForExchange
  cases config.buildFeeCache exchangeId with
  | some fee => rfl
  | none => exact div?_of_ne_zero (by norm_num) _

namespace Opportunity

variable (config : BacktestConfig) (o : Opportunity)

/-- The spread in basis points of the mid price. -/
def spreadBps? : Option UInt64 := do
  let mid ← div? (o.buyPrice + o.sellPrice) 2
  let spread ← div? (o.sellPrice - o.buyPrice) mid
  return (Decimal.toU64 (spread * 10000)).getD maxWord

/-- The quantity that a share of a balance buys. -/
def qtyFrom? (balance : Decimal) : Option Decimal :=
  if 0 < o.buyPrice then do
    let qty ← div? (balance * config.maxPositionPct) o.buyPrice
    return (⌊qty⌋ : ℤ)
  else some 0

/-- The strategy. -/
def verdict? (balance : Decimal) : Option Verdict :=
  if 0 < o.buyPrice ∧ o.buyPrice < o.sellPrice then do
    let spreadBps ← o.spreadBps?
    if config.minSpreadBps ≤ spreadBps then do
      let qty ← o.qtyFrom? config balance
      if qty ≤ 0 then return .continued
      else do
        let buyFee := o.buyCost qty * (← feeForExchange? config o.buyExchange)
        let sellFee := o.sellProceeds qty * (← feeForExchange? config o.sellExchange)
        let netPnl := o.sellProceeds qty - o.buyCost qty - (buyFee + sellFee)
        if 0 < netPnl ∧ o.buyCost qty ≤ balance ∧ sellFee ≤ o.sellProceeds qty then
          return .executed qty
        else return .passed
    else return .passed
  else return .passed

/-- The mid price of a pair that is compared is positive. -/
lemma spreadBps?_eq (hprices : 0 < o.buyPrice ∧ o.buyPrice < o.sellPrice) :
    o.spreadBps? = some o.spreadBps := by
  have hmid : (o.buyPrice + o.sellPrice) / 2 ≠ 0 := by linarith [hprices.1, hprices.2]
  simp [spreadBps?, spreadBps, div?, hmid]

lemma qtyFrom?_eq (balance : Decimal) :
    o.qtyFrom? config balance = some (o.qtyFrom config balance) := by
  unfold qtyFrom? qtyFrom
  split_ifs with hprice
  · simp [div?, hprice.ne']
  · rfl

lemma verdict?_eq (balance : Decimal) :
    o.verdict? config balance = some (o.verdict config balance) := by
  unfold verdict? verdict
  by_cases hprices : 0 < o.buyPrice ∧ o.buyPrice < o.sellPrice
  · by_cases hspread : config.minSpreadBps ≤ o.spreadBps
    · have hwide : o.Wide config := ⟨hprices.1, hprices.2, hspread⟩
      simp only [if_pos hprices, spreadBps?_eq o hprices, qtyFrom?_eq, feeForExchange?_eq,
        Option.bind_eq_bind, Option.bind_some, Option.pure_def, if_pos hspread, if_pos hwide]
      split_ifs <;> first | rfl | contradiction
    · have hwide : ¬ o.Wide config := fun h => hspread h.2.2
      simp only [if_pos hprices, spreadBps?_eq o hprices, Option.bind_eq_bind, Option.bind_some,
        Option.pure_def, if_neg hspread, if_neg hwide]
  · have hwide : ¬ o.Wide config := fun h => hprices ⟨h.1, h.2.1⟩
    rw [if_neg hprices, if_neg hwide]
    rfl

end Opportunity

section Timestamp

variable (config : BacktestConfig)

/-- Strategy 2, and strategy 1 without its `continue`. -/
def takeIfExecuted? (balances : ExchangeBalances) (o : Opportunity) :
    Option (ExchangeBalances × List Booking) := do
  match ← o.verdict? config (balances.amount o.buyExchange) with
  | .executed qty =>
    let booking : Booking := ⟨⟨o, qty⟩, balances⟩
    return (booking.after config, [booking])
  | _ => return (balances, [])

/-- Both strategies on a pair. -/
def evaluatePair? (balances : ExchangeBalances) (p : PairCheck) :
    Option (ExchangeBalances × List Booking) := do
  match ← p.first.verdict? config (balances.amount p.first.buyExchange) with
  | .continued => return (balances, [])
  | _ =>
    let one ← takeIfExecuted? config balances p.first
    let two ← takeIfExecuted? config one.1 p.second
    return (two.1, one.2 ++ two.2)

lemma takeIfExecuted?_eq (balances : ExchangeBalances) (o : Opportunity) :
    takeIfExecuted? config balances o = some (takeIfExecuted config balances o) := by
  unfold takeIfExecuted? takeIfExecuted
  rw [Opportunity.verdict?_eq]
  cases o.verdict config (balances.amount o.buyExchange) <;> rfl

lemma evaluatePair?_eq (balances : ExchangeBalances) (p : PairCheck) :
    evaluatePair? config balances p = some (evaluatePair config balances p) := by
  unfold evaluatePair? evaluatePair
  simp only [Opportunity.verdict?_eq, takeIfExecuted?_eq]
  cases p.first.verdict config (balances.amount p.first.buyExchange) <;> rfl

/-- The pairs of a timestamp on the working balances. -/
def evaluatePairs? (balances : ExchangeBalances) :
    List PairCheck → Option (ExchangeBalances × List Booking)
  | [] => some (balances, [])
  | p :: checks => do
    let one ← evaluatePair? config balances p
    let rest ← evaluatePairs? one.1 checks
    return (rest.1, one.2 ++ rest.2)

lemma evaluatePairs?_eq (balances : ExchangeBalances) (checks : List PairCheck) :
    evaluatePairs? config balances checks = some
      (runState (evaluatePair config) balances checks,
        runTrace (evaluatePair config) balances checks) := by
  induction checks generalizing balances with
  | nil => rfl
  | cons p checks ih =>
    rw [evaluatePairs?, evaluatePair?_eq, Option.bind_eq_bind, Option.bind_some, ih]
    rfl

variable {bars : List PriceBar} (order : IterationOrder bars)

/-- The trades of one timestamp and their commit. -/
def processTimestamp? (e : BacktestEngine) (ts : ℤ) : Option BacktestEngine := do
  let working ← evaluatePairs? config e.exchangeBalances (checksAt order ts)
  return {
    capital := working.1.total
    trades := e.trades ++ working.2.map fun b => b.toFill.trade config
    exchangeBalances := working.1 }

lemma processTimestamp?_eq (e : BacktestEngine) (ts : ℤ) :
    processTimestamp? config order e ts = some (processTimestamp config order e ts).1 := by
  rw [processTimestamp?, evaluatePairs?_eq]
  rfl

/-- The loop over the timestamps, with the equity curve. -/
def processTimestamps? (e : BacktestEngine) : List ℤ → Option (BacktestEngine × List Decimal)
  | [] => some (e, [e.capital])
  | ts :: rest => do
    let next ← processTimestamp? config order e ts
    let final ← processTimestamps? next rest
    return (final.1, e.capital :: final.2)

lemma processTimestamps?_eq (e : BacktestEngine) (l : List ℤ) :
    processTimestamps? config order e l = some
      (runState (processTimestamp config order) e l, equityCurve config order e l) := by
  induction l generalizing e with
  | nil => rfl
  | cons ts l ih =>
    rw [processTimestamps?, processTimestamp?_eq, Option.bind_eq_bind, Option.bind_some, ih]
    rfl

end Timestamp

/-! ## The statistics -/

/-- `compute_max_drawdown`, with the peak and the largest drawdown so far. -/
def maxDrawdownLoop? (peak maxDd : Decimal) : List Decimal → Option Decimal
  | [] => some maxDd
  | value :: values =>
    let peak := if peak < value then value else peak
    if 0 < peak then do
      let dd ← div? (peak - value) peak
      maxDrawdownLoop? peak (if maxDd < dd then dd else maxDd) values
    else maxDrawdownLoop? peak maxDd values

/-- `compute_max_drawdown`. -/
def computeMaxDrawdown? (equityCurve : List Decimal) : Option Decimal :=
  match equityCurve with
  | [] => some 0
  | peak :: _ => maxDrawdownLoop? peak 0 equityCurve

lemma maxDrawdownLoop?_eq (peak maxDd : Decimal) (curve : List Decimal) :
    maxDrawdownLoop? peak maxDd curve = some (maxDrawdownLoop peak maxDd curve) := by
  induction curve generalizing peak maxDd with
  | nil => rfl
  | cons value curve ih =>
    rw [maxDrawdownLoop?, maxDrawdownLoop]
    by_cases hpeak : 0 < if peak < value then value else peak
    · simp only [hpeak, if_true, true_and, div?_of_ne_zero hpeak.ne', Option.bind_eq_bind,
        Option.bind_some]
      exact ih _ _
    · simp only [hpeak, if_false, false_and]
      exact ih _ _

lemma computeMaxDrawdown?_eq (curve : List Decimal) :
    computeMaxDrawdown? curve = some (computeMaxDrawdown curve) := by
  cases curve with
  | nil => rfl
  | cons value curve => exact maxDrawdownLoop?_eq value 0 (value :: curve)

/-- The iterations of `decimal_sqrt`. -/
def decimalSqrtLoop? (value : Decimal) : ℕ → Decimal → Option Decimal
  | 0, guess => some guess
  | n + 1, guess =>
    if guess = 0 then some guess
    else do
      let quotient ← div? value guess
      let next ← div? (guess + quotient) 2
      decimalSqrtLoop? value n next

/-- `decimal_sqrt`. -/
def decimalSqrt? (value : Decimal) (iterations : ℕ) : Option Decimal :=
  if value ≤ 0 then some 0
  else do
    let guess ← div? value 2
    decimalSqrtLoop? value iterations guess

lemma decimalSqrtLoop?_eq (value : Decimal) (n : ℕ) (guess : Decimal) :
    decimalSqrtLoop? value n guess = some (decimalSqrtLoop value n guess) := by
  induction n generalizing guess with
  | zero => rfl
  | succ n ih =>
    rw [decimalSqrtLoop?, decimalSqrtLoop]
    by_cases hguess : guess = 0
    · rw [if_pos hguess, if_pos hguess]
    · rw [if_neg hguess, if_neg hguess, div?_of_ne_zero hguess, Option.bind_eq_bind,
        Option.bind_some, div?_of_ne_zero two_ne_zero, Option.bind_some, ih]

lemma decimalSqrt?_eq (value : Decimal) (iterations : ℕ) :
    decimalSqrt? value iterations = some (decimalSqrt value iterations) := by
  unfold decimalSqrt? decimalSqrt
  by_cases hvalue : value ≤ 0
  · rw [if_pos hvalue, if_pos hvalue]
  · rw [if_neg hvalue, if_neg hvalue, div?_of_ne_zero two_ne_zero, Option.bind_eq_bind,
      Option.bind_some, decimalSqrtLoop?_eq]

/-- The returns of the steps of an equity curve that start from a positive value. -/
def stepReturns? : List Decimal → Option (List Decimal)
  | prev :: value :: values =>
    if 0 < prev then do
      let ret ← div? (value - prev) prev
      let returns ← stepReturns? (value :: values)
      return ret :: returns
    else stepReturns? (value :: values)
  | _ => some []

lemma stepReturns?_eq (curve : List Decimal) : stepReturns? curve = some (stepReturns curve) := by
  induction curve using stepReturns.induct with
  | case1 prev value values hprev ih =>
    rw [stepReturns?, stepReturns, if_pos hprev, if_pos hprev, div?_of_ne_zero hprev.ne', ih]
    rfl
  | case2 prev value values hprev ih =>
    rw [stepReturns?, stepReturns, if_neg hprev, if_neg hprev, ih]
  | case3 curve hcurve => rw [stepReturns?, stepReturns] <;> exact hcurve

/-- `compute_sharpe_ratio`. -/
def computeSharpeRatio? (equityCurve : List Decimal) (annualSteps : ℕ) : Option Decimal := do
  let returns ← stepReturns? equityCurve
  if equityCurve.length < 2 ∨ returns = [] then return 0
  else do
    let n : Decimal := returns.length
    let mean ← div? returns.sum n
    let variance ← div? (returns.map fun r => (r - mean) * (r - mean)).sum (n - 1)
    let stdDev ← (if 0 ≤ variance then decimalSqrt? variance sqrtIterations else some 0)
    if stdDev = 0 then return 0
    else do
      let rawSharpe ← div? mean stdDev
      let annualFactor ← decimalSqrt? annualSteps sqrtIterations
      return rawSharpe * annualFactor

/-- The only divisor of the statistics that can be zero is that of the variance. -/
lemma computeSharpeRatio?_eq (curve : List Decimal) (annualSteps : ℕ) :
    computeSharpeRatio? curve annualSteps = computeSharpeRatio curve annualSteps := by
  unfold computeSharpeRatio? computeSharpeRatio
  simp only [stepReturns?_eq, Option.bind_eq_bind, Option.bind_some, Option.pure_def]
  by_cases hshort : curve.length < 2 ∨ stepReturns curve = []
  · rw [if_pos hshort, if_pos hshort]
  · have hn : ((stepReturns curve).length : ℚ) ≠ 0 := by
      rw [Nat.cast_ne_zero]
      exact fun h => hshort (Or.inr (List.length_eq_zero_iff.mp h))
    rw [if_neg hshort, if_neg hshort, div?_of_ne_zero hn, Option.bind_some]
    by_cases hsingle : ((stepReturns curve).length : ℚ) - 1 = 0
    · rw [hsingle, if_pos rfl, div?_zero, Option.bind_none]
    · rw [if_neg hsingle, div?_of_ne_zero hsingle, Option.bind_some, decimalSqrt?_eq,
        decimalSqrt?_eq, ← apply_ite some, Option.bind_some]
      generalize (if (0 : ℚ) ≤ _ then decimalSqrt _ _ else 0) = stdDev
      by_cases hdev : stdDev = 0
      · rw [if_pos hdev, if_pos hdev]
      · rw [if_neg hdev, if_neg hdev, div?_of_ne_zero hdev, Option.bind_some, Option.bind_some]

/-- The totals of the trades, and the statistics of the equity curve. -/
def statistics? (trades : List BacktestTrade) (equityCurve : List Decimal) :
    Option BacktestResult := do
  let winning := trades.filter fun t => 0 < t.pnl
  let winRate ← (if 0 < trades.length then div? winning.length trades.length else some 0)
  let maxDrawdown ← computeMaxDrawdown? equityCurve
  let sharpeRatio ← computeSharpeRatio? equityCurve annualMultiplier
  return {
    totalPnl := (trades.map BacktestTrade.pnl).sum
    totalFees := (trades.map BacktestTrade.fees).sum
    totalTrades := UInt64.ofNat trades.length
    winRate := winRate
    maxDrawdown := maxDrawdown
    sharpeRatio := sharpeRatio
    trades := trades }

lemma statistics?_eq (trades : List BacktestTrade) (curve : List Decimal) :
    statistics? trades curve = statistics trades curve := by
  unfold statistics? statistics
  rw [computeMaxDrawdown?_eq, computeSharpeRatio?_eq]
  by_cases htrades : 0 < trades.length
  · have hlength : (trades.length : ℚ) ≠ 0 := Nat.cast_ne_zero.mpr htrades.ne'
    simp only [htrades, if_true, div?_of_ne_zero hlength, Option.bind_eq_bind, Option.bind_some]
  · simp only [htrades, if_false, Option.bind_eq_bind, Option.bind_some]

/-! ## Runs -/

/-- The capital is split evenly over the exchanges of the bars. -/
def splitCapital? (e : BacktestEngine) (bars : List PriceBar) : Option BacktestEngine := do
  let numExchanges := max (seenExchanges bars).length 1
  let perExchangeCapital ← div? e.capital (numExchanges : ℚ)
  return { e with
    exchangeBalances := e.exchangeBalances.setAll (seenExchanges bars) perExchangeCapital }

lemma splitCapital?_eq (e : BacktestEngine) (bars : List PriceBar) :
    splitCapital? e bars = some (splitCapital e bars) := by
  have hnum : ((max (seenExchanges bars).length 1 : ℕ) : ℚ) ≠ 0 := by
    rw [Nat.cast_ne_zero]
    exact (lt_of_lt_of_le zero_lt_one (le_max_right _ _)).ne'
  rw [splitCapital?, div?_of_ne_zero hnum]
  rfl

section Run

variable {bars : List PriceBar} (config : BacktestConfig) (order : IterationOrder bars)

/-- `run`; the smallest spread is divided too, although it is not used. -/
def run? (e : BacktestEngine) : Option (BacktestEngine × BacktestResult) :=
  if bars.isEmpty then some (e, emptyResult)
  else do
    let start ← splitCapital? e bars
    let _minSpread ← div? (Decimal.ofU64 config.minSpreadBps) 10000
    let final ← processTimestamps? config order start (timestamps bars)
    let result ← statistics? final.1.trades final.2
    return ({ final.1 with trades := [] }, result)

/-- On any engine and any bars, no division of a run is by zero but that of the variance. -/
lemma run?_eq (e : BacktestEngine) : run? config order e = run config order e := by
  unfold run? run
  by_cases hempty : bars.isEmpty = true
  · rw [if_pos hempty, if_pos hempty]
  · rw [if_neg hempty, if_neg hempty, splitCapital?_eq, div?_of_ne_zero (by norm_num),
      Option.bind_eq_bind, Option.bind_some, Option.bind_eq_bind, Option.bind_some,
      processTimestamps?_eq, Option.bind_eq_bind, Option.bind_some, statistics?_eq]
    rfl

/-- A positive curve has a return for every step. -/
lemma length_stepReturns {curve : List Decimal} (h : ∀ value ∈ curve, 0 < value) :
    (stepReturns curve).length = curve.length - 1 := by
  induction curve using stepReturns.induct with
  | case1 prev value values hprev ih =>
    rw [stepReturns, if_pos hprev, List.length_cons, ih fun v hv => h v (List.mem_cons_of_mem _ hv)]
    simp
  | case2 prev value values hprev ih => exact absurd (h prev List.mem_cons_self) hprev
  | case3 curve hcurve =>
    rw [stepReturns]
    · rcases curve with _ | ⟨value, _ | ⟨value', curve⟩⟩
      · rfl
      · rfl
      · exact absurd rfl (hcurve value value' curve)
    · exact hcurve

lemma length_equityCurve (e : BacktestEngine) (l : List ℤ) :
    (equityCurve config order e l).length = l.length + 1 := by
  induction l generalizing e with
  | nil => rfl
  | cons ts l ih => rw [equityCurve, List.length_cons, ih, List.length_cons]

/-- A single return leaves no sample variance. -/
lemma computeSharpeRatio_eq_none {curve : List Decimal} (hcurve : 2 ≤ curve.length)
    (h : (stepReturns curve).length = 1) (annualSteps : ℕ) :
    computeSharpeRatio curve annualSteps = none := by
  have hshort : ¬ (curve.length < 2 ∨ stepReturns curve = []) := by
    rintro (hlt | hnil)
    · omega
    · rw [hnil] at h
      cases h
  rw [computeSharpeRatio, if_neg hshort, h]
  simp

/-- The returns of a run of a new engine, one for each timestamp. -/
lemma length_stepReturns_equityCurve (hcapital : 0 < config.initialCapital) (hbars : bars ≠ []) :
    (stepReturns (equityCurve config order (splitCapital (new config) bars)
      (timestamps bars))).length = (timestamps bars).length := by
  have hstart : (splitCapital (new config) bars).capital =
      (splitCapital (new config) bars).exchangeBalances.total :=
    (total_splitCapital_new config hbars).symm
  have hfirst := (equityCurve_nondecreasing config order hstart (timestamps bars)).2
  rw [length_stepReturns fun value hvalue => hcapital.trans_le (hfirst value hvalue),
    length_equityCurve, Nat.add_sub_cancel]

/-- A run of a new engine on bars of a single timestamp panics. -/
lemma run_eq_none (hcapital : 0 < config.initialCapital) (hbars : (timestamps bars).length = 1) :
    run config order (new config) = none := by
  have hne : bars ≠ [] := by
    rintro rfl
    cases hbars
  have hempty : ¬ bars.isEmpty = true := by simpa using hne
  have hreturns := (length_stepReturns_equityCurve config order hcapital hne).trans hbars
  have hlength : 2 ≤ (equityCurve config order (splitCapital (new config) bars)
      (timestamps bars)).length := by
    rw [length_equityCurve, hbars]
  have hstatistics : statistics (engineAt config order (new config) (timestamps bars)).trades
      (equityCurve config order (splitCapital (new config) bars) (timestamps bars)) = none := by
    unfold statistics
    rw [computeSharpeRatio_eq_none hlength hreturns]
    rfl
  simp only [run, if_neg hempty, hstatistics, Option.bind_eq_bind, Option.bind_none]

/-- A backtest with a positive capital divides by zero exactly when the bars have one timestamp
only. -/
theorem backtest_returns_iff (hcapital : 0 < config.initialCapital) :
    (run? config order (new config)).isSome ↔ (timestamps bars).length ≠ 1 := by
  rw [run?_eq]
  constructor
  · intro hsome hsingle
    rw [run_eq_none config order hcapital hsingle] at hsome
    cases hsome
  · intro hmany
    by_cases hbars : bars = []
    · rw [run_of_isEmpty config order _ hbars]
      rfl
    · apply run_isSome
      rwa [length_stepReturns_equityCurve config order hcapital hbars]

/-- Two bars of different timestamps. -/
theorem backtest_returns_on_two_timestamps :
    (run? {} (.listed [testBar 1 1 99 100, testBar 2 1 99 100]) (new {})).isSome :=
  (backtest_returns_iff {} (.listed [testBar 1 1 99 100, testBar 2 1 99 100]) (by norm_num)).mpr
    (by decide)

/-- Two exchanges that quote the same once: the run divides by zero. -/
theorem backtest_divides_by_zero :
    run? {} (.listed [testBar 1 1 99 100, testBar 1 2 99 100]) (new {}) = none := by
  rw [run?_eq]
  exact run_eq_none {} _ (by norm_num) (by decide)

end Run

end Backtest

end HftArb
