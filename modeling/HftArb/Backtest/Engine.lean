import HftArb.Decimal
import HftArb.Foundations.AmountMap
import HftArb.Foundations.Runs

/-!
# The backtesting engine

`backtest.rs` replays price bars.  A run splits the capital over the exchanges of its bars, goes
through the timestamps in order and, at each of them, compares for every symbol all pairs of
exchanges in both directions; a trade is booked on a working copy of the balances, which is
committed when the timestamp is over.  The symbols of a timestamp and the exchanges of a symbol come
out of hash maps, in an order that `IterationOrder` leaves open.

The capital is the sum of the balances, as exact rationals, so that the guard of the source against
an overflow of this sum has no place here.  A run panics when it divides by zero.
-/

namespace HftArb

open Runs Saturating

/-- A price observation for one symbol on one exchange. -/
structure PriceBar where
  timestamp : ℤ
  exchangeId : UInt16
  symbol : String
  bidPrice : Decimal
  askPrice : Decimal

/-- The fee schedule of one exchange. -/
structure ExchangeFeeTier where
  exchangeId : UInt16
  takerFeeBps : UInt64

/-- The configuration of the engine. -/
structure BacktestConfig where
  initialCapital : Decimal := 100000
  maxPositionPct : Decimal := 15 / 100
  takerFeeBps : UInt64 := 10
  exchangeFeeTiers : List ExchangeFeeTier := []
  minSpreadBps : UInt64 := 15

/-- A completed simulated trade. -/
structure BacktestTrade where
  entryTime : ℤ
  exitTime : ℤ
  symbol : String
  buyExchange : UInt16
  sellExchange : UInt16
  entrySpreadBps : UInt64
  qty : Decimal
  pnl : Decimal
  fees : Decimal
  deriving DecidableEq

/-- The balances of the exchanges. -/
abbrev ExchangeBalances := AmountMap UInt16 Decimal

namespace BacktestConfig

variable (config : BacktestConfig)

/-- `build_fee_cache`: a later tier of an exchange replaces an earlier one. -/
def buildFeeCache : UInt16 → Option Decimal :=
  config.exchangeFeeTiers.foldl
    (fun cache tier =>
      Function.update cache tier.exchangeId (some (Decimal.ofU64 tier.takerFeeBps / 10000)))
    fun _ => none

/-- `fee_for_exchange`: the taker fee of an exchange as a fraction. -/
def feeForExchange (exchangeId : UInt16) : Decimal :=
  (config.buildFeeCache exchangeId).getD (Decimal.ofU64 config.takerFeeBps / 10000)

end BacktestConfig

namespace Backtest

/-! ## One direction of a pair -/

/-- Buying a symbol on one exchange and selling it on another at a timestamp. -/
structure Opportunity where
  timestamp : ℤ
  symbol : String
  buyExchange : UInt16
  sellExchange : UInt16
  buyPrice : Decimal
  sellPrice : Decimal

namespace Opportunity

variable (config : BacktestConfig) (o : Opportunity)

/-- The spread in basis points of the mid price; one that is too large counts as the largest. -/
def spreadBps : UInt64 :=
  let mid := (o.buyPrice + o.sellPrice) / 2
  let spread := (o.sellPrice - o.buyPrice) / mid
  (Decimal.toU64 (spread * 10000)).getD maxWord

/-- The spread is wide enough to act on. -/
def Wide : Prop :=
  0 < o.buyPrice ∧ o.buyPrice < o.sellPrice ∧ config.minSpreadBps ≤ o.spreadBps

instance : Decidable (o.Wide config) := inferInstanceAs (Decidable (_ ∧ _ ∧ _))

/-- The quantity that a share of a balance buys, in whole units. -/
def qtyFrom (balance : Decimal) : Decimal :=
  if 0 < o.buyPrice then (⌊balance * config.maxPositionPct / o.buyPrice⌋ : ℤ) else 0

def buyCost (qty : Decimal) : Decimal := qty * o.buyPrice

def sellProceeds (qty : Decimal) : Decimal := qty * o.sellPrice

def buyFee (qty : Decimal) : Decimal := o.buyCost qty * config.feeForExchange o.buyExchange

def sellFee (qty : Decimal) : Decimal := o.sellProceeds qty * config.feeForExchange o.sellExchange

def totalFees (qty : Decimal) : Decimal := o.buyFee config qty + o.sellFee config qty

def netPnl (qty : Decimal) : Decimal :=
  o.sellProceeds qty - o.buyCost qty - o.totalFees config qty

/-- What a strategy does with an opportunity: nothing, the `continue` to the next pair, or a trade
of some quantity. -/
inductive Verdict
  | passed
  | continued
  | executed (qty : Decimal)
  deriving DecidableEq

/-- The strategy, for the balance of the exchange that buys. -/
def verdict (balance : Decimal) : Verdict :=
  if o.Wide config then
    let qty := o.qtyFrom config balance
    if qty ≤ 0 then .continued
    else if 0 < o.netPnl config qty ∧ o.buyCost qty ≤ balance ∧
        o.sellFee config qty ≤ o.sellProceeds qty then .executed qty
    else .passed
  else .passed

end Opportunity

/-- An opportunity that was taken. -/
structure Fill where
  opportunity : Opportunity
  qty : Decimal

namespace Fill

variable (config : BacktestConfig) (f : Fill)

/-- The record of a trade. -/
def trade : BacktestTrade where
  entryTime := f.opportunity.timestamp
  exitTime := f.opportunity.timestamp
  symbol := f.opportunity.symbol
  buyExchange := f.opportunity.buyExchange
  sellExchange := f.opportunity.sellExchange
  entrySpreadBps := f.opportunity.spreadBps
  qty := f.qty
  pnl := f.opportunity.netPnl config f.qty
  fees := f.opportunity.totalFees config f.qty

/-- Book a trade on the working balances. -/
def book (balances : ExchangeBalances) : ExchangeBalances :=
  let newBuyBalance := balances.amount f.opportunity.buyExchange -
    f.opportunity.buyCost f.qty - f.opportunity.buyFee config f.qty
  let newSellBalance := balances.amount f.opportunity.sellExchange +
    f.opportunity.sellProceeds f.qty - f.opportunity.sellFee config f.qty
  (balances.set f.opportunity.buyExchange newBuyBalance).set f.opportunity.sellExchange
    newSellBalance

end Fill

/-- A trade with the working balances just before it. -/
structure Booking extends Fill where
  before : ExchangeBalances

/-- The working balances just after a trade. -/
def Booking.after (config : BacktestConfig) (b : Booking) : ExchangeBalances :=
  b.toFill.book config b.before

/-! ## One timestamp -/

/-- Strategy 2, and strategy 1 without its `continue`. -/
def takeIfExecuted (config : BacktestConfig) (balances : ExchangeBalances) (o : Opportunity) :
    ExchangeBalances × List Booking :=
  match o.verdict config (balances.amount o.buyExchange) with
  | .executed qty =>
    let booking : Booking := ⟨⟨o, qty⟩, balances⟩
    (booking.after config, [booking])
  | _ => (balances, [])

/-- A pair of exchanges: buying on the first of them, and buying on the second. -/
structure PairCheck where
  first : Opportunity
  second : Opportunity

/-- Both strategies on a pair; when the first finds that nothing can be bought the second is left
out. -/
def evaluatePair (config : BacktestConfig) (balances : ExchangeBalances) (p : PairCheck) :
    ExchangeBalances × List Booking :=
  match p.first.verdict config (balances.amount p.first.buyExchange) with
  | .continued => (balances, [])
  | _ =>
    let one := takeIfExecuted config balances p.first
    let two := takeIfExecuted config one.1 p.second
    (two.1, one.2 ++ two.2)

/-- The bars of a timestamp. -/
def snapshotAt (bars : List PriceBar) (ts : ℤ) : List PriceBar :=
  bars.filter fun bar => bar.timestamp = ts

/-- The bars of a symbol at a timestamp. -/
def symbolBars (bars : List PriceBar) (ts : ℤ) (symbol : String) : List PriceBar :=
  (snapshotAt bars ts).filter fun bar => bar.symbol = symbol

/-- The keys of `by_symbol`. -/
def symbolsAt (bars : List PriceBar) (ts : ℤ) : List String :=
  ((snapshotAt bars ts).map PriceBar.symbol).dedup

/-- The keys of `market_map`. -/
def exchangesAt (bars : List PriceBar) (ts : ℤ) (symbol : String) : List UInt16 :=
  ((symbolBars bars ts symbol).map PriceBar.exchangeId).dedup

/-- `market_map`: the bid and the ask of the last bar of each exchange. -/
def marketMap (bars : List PriceBar) (ts : ℤ) (symbol : String) :
    UInt16 → Option (Decimal × Decimal) :=
  (symbolBars bars ts symbol).foldl
    (fun market bar => Function.update market bar.exchangeId (some (bar.bidPrice, bar.askPrice)))
    fun _ => none

/-- The bid of an exchange; the exchanges that are compared have one. -/
def bidAt (bars : List PriceBar) (ts : ℤ) (symbol : String) (exchangeId : UInt16) : Decimal :=
  ((marketMap bars ts symbol exchangeId).map Prod.fst).getD 0

/-- The ask of an exchange. -/
def askAt (bars : List PriceBar) (ts : ℤ) (symbol : String) (exchangeId : UInt16) : Decimal :=
  ((marketMap bars ts symbol exchangeId).map Prod.snd).getD 0

/-- Buying at the ask of one exchange and selling at the bid of another. -/
def opportunityAt (bars : List PriceBar) (ts : ℤ) (symbol : String) (buy sell : UInt16) :
    Opportunity where
  timestamp := ts
  symbol := symbol
  buyExchange := buy
  sellExchange := sell
  buyPrice := askAt bars ts symbol buy
  sellPrice := bidAt bars ts symbol sell

/-- The pairs of a list, each element with those after it. -/
def pairsOf {α : Type*} : List α → List (α × α)
  | [] => []
  | a :: as => as.map (fun b => (a, b)) ++ pairsOf as

/-- The orders in which the hash maps of a run are gone through. -/
structure IterationOrder (bars : List PriceBar) where
  symbols : ℤ → List String
  exchanges : ℤ → String → List UInt16
  symbols_perm : ∀ ts, (symbols ts).Perm (symbolsAt bars ts)
  exchanges_perm : ∀ ts symbol, (exchanges ts symbol).Perm (exchangesAt bars ts symbol)

/-- The order in which the keys come up in the bars. -/
def IterationOrder.listed (bars : List PriceBar) : IterationOrder bars where
  symbols := symbolsAt bars
  exchanges := exchangesAt bars
  symbols_perm := fun _ => List.Perm.refl _
  exchanges_perm := fun _ _ => List.Perm.refl _

section Checks

variable {bars : List PriceBar} (order : IterationOrder bars)

/-- The pairs of a symbol, in the order in which they are compared. -/
def symbolChecks (ts : ℤ) (symbol : String) : List PairCheck :=
  if (symbolBars bars ts symbol).length < 2 then []
  else (pairsOf (order.exchanges ts symbol)).map fun p =>
    ⟨opportunityAt bars ts symbol p.1 p.2, opportunityAt bars ts symbol p.2 p.1⟩

/-- The pairs of a timestamp, in the order in which they are compared. -/
def checksAt (ts : ℤ) : List PairCheck := (order.symbols ts).flatMap (symbolChecks order ts)

end Checks

end Backtest

/-- The engine; the configuration is a parameter of its operations. -/
structure BacktestEngine where
  capital : Decimal
  trades : List BacktestTrade
  exchangeBalances : ExchangeBalances

/-- The aggregated results of a run. -/
structure BacktestResult where
  totalPnl : Decimal
  totalFees : Decimal
  totalTrades : UInt64
  winRate : Decimal
  maxDrawdown : Decimal
  sharpeRatio : Decimal
  trades : List BacktestTrade

namespace Backtest

/-! ## Statistics -/

/-- `compute_max_drawdown`, with the peak and the largest drawdown so far. -/
def maxDrawdownLoop (peak maxDd : Decimal) : List Decimal → Decimal
  | [] => maxDd
  | value :: values =>
    let peak := if peak < value then value else peak
    let dd := (peak - value) / peak
    maxDrawdownLoop peak (if 0 < peak ∧ maxDd < dd then dd else maxDd) values

/-- `compute_max_drawdown`. -/
def computeMaxDrawdown (equityCurve : List Decimal) : Decimal :=
  match equityCurve with
  | [] => 0
  | peak :: _ => maxDrawdownLoop peak 0 equityCurve

/-- The iterations of `decimal_sqrt`, which stop at a guess of zero. -/
def decimalSqrtLoop (value : Decimal) : ℕ → Decimal → Decimal
  | 0, guess => guess
  | n + 1, guess =>
    if guess = 0 then guess else decimalSqrtLoop value n ((guess + value / guess) / 2)

/-- `decimal_sqrt`. -/
def decimalSqrt (value : Decimal) (iterations : ℕ) : Decimal :=
  if value ≤ 0 then 0 else decimalSqrtLoop value iterations (value / 2)

/-- `SQRT_ITERATIONS`. -/
def sqrtIterations : ℕ := 20

/-- `ANNUAL_MULTIPLIER`. -/
def annualMultiplier : ℕ := 86400 / 1 * 365

/-- The returns of the steps of an equity curve that start from a positive value. -/
def stepReturns : List Decimal → List Decimal
  | prev :: value :: values =>
    if 0 < prev then (value - prev) / prev :: stepReturns (value :: values)
    else stepReturns (value :: values)
  | _ => []

/-- `compute_sharpe_ratio`; nothing when it divides by zero, which it does for a single return. -/
def computeSharpeRatio (equityCurve : List Decimal) (annualSteps : ℕ) : Option Decimal :=
  let returns := stepReturns equityCurve
  if equityCurve.length < 2 ∨ returns = [] then some 0
  else
    let n : Decimal := returns.length
    let mean := returns.sum / n
    if n - 1 = 0 then none
    else
      let variance := (returns.map fun r => (r - mean) * (r - mean)).sum / (n - 1)
      let stdDev := if 0 ≤ variance then decimalSqrt variance sqrtIterations else 0
      if stdDev = 0 then some 0
      else some (mean / stdDev * decimalSqrt annualSteps sqrtIterations)

/-- The totals of the trades, and the statistics of the equity curve. -/
def statistics (trades : List BacktestTrade) (equityCurve : List Decimal) :
    Option BacktestResult := do
  let sharpeRatio ← computeSharpeRatio equityCurve annualMultiplier
  let winning := trades.filter fun t => 0 < t.pnl
  return {
    totalPnl := (trades.map BacktestTrade.pnl).sum
    totalFees := (trades.map BacktestTrade.fees).sum
    totalTrades := UInt64.ofNat trades.length
    winRate := if 0 < trades.length then (winning.length : ℚ) / trades.length else 0
    maxDrawdown := computeMaxDrawdown equityCurve
    sharpeRatio := sharpeRatio
    trades := trades }

/-- The result of a run without bars. -/
def emptyResult : BacktestResult where
  totalPnl := 0
  totalFees := 0
  totalTrades := 0
  winRate := 0
  maxDrawdown := 0
  sharpeRatio := 0
  trades := []

/-! ## Runs -/

/-- A new engine. -/
def new (config : BacktestConfig) : BacktestEngine where
  capital := config.initialCapital
  trades := []
  exchangeBalances := AmountMap.empty

/-- The exchanges of the bars, sorted. -/
def seenExchanges (bars : List PriceBar) : List UInt16 :=
  (bars.map PriceBar.exchangeId).dedup.insertionSort (· ≤ ·)

/-- The timestamps of the bars, sorted. -/
def timestamps (bars : List PriceBar) : List ℤ :=
  (bars.map PriceBar.timestamp).dedup.insertionSort (· ≤ ·)

/-- The capital is split evenly over the exchanges of the bars; the balances of other exchanges
stay. -/
def splitCapital (e : BacktestEngine) (bars : List PriceBar) : BacktestEngine :=
  let numExchanges := max (seenExchanges bars).length 1
  let perExchangeCapital := e.capital / (numExchanges : ℚ)
  { e with exchangeBalances := e.exchangeBalances.setAll (seenExchanges bars) perExchangeCapital }

section Run

variable {bars : List PriceBar} (config : BacktestConfig) (order : IterationOrder bars)

/-- The trades of one timestamp on the working balances, and their commit. -/
def processTimestamp (e : BacktestEngine) (ts : ℤ) : BacktestEngine × List Booking :=
  let working := runState (evaluatePair config) e.exchangeBalances (checksAt order ts)
  let bookings := runTrace (evaluatePair config) e.exchangeBalances (checksAt order ts)
  ({ capital := working.total
     trades := e.trades ++ bookings.map fun b => b.toFill.trade config
     exchangeBalances := working }, bookings)

/-- The capital before the given timestamps and after each of them. -/
def equityCurve (e : BacktestEngine) : List ℤ → List Decimal
  | [] => [e.capital]
  | ts :: rest => e.capital :: equityCurve (processTimestamp config order e ts).1 rest

/-- The engine after some timestamps of a run. -/
def engineAt (e : BacktestEngine) (processed : List ℤ) : BacktestEngine :=
  runState (processTimestamp config order) (splitCapital e bars) processed

/-- The trades of a run, in order, with the balances before each. -/
def bookingsOf (e : BacktestEngine) : List Booking :=
  runTrace (processTimestamp config order) (splitCapital e bars) (timestamps bars)

/-- `run`; the trades of the engine are handed over with the result. -/
def run (e : BacktestEngine) : Option (BacktestEngine × BacktestResult) :=
  if bars.isEmpty then some (e, emptyResult)
  else do
    let final := engineAt config order e (timestamps bars)
    let result ← statistics final.trades
      (equityCurve config order (splitCapital e bars) (timestamps bars))
    return ({ final with trades := [] }, result)

end Run

/-! ## What a strategy does -/

section Takes

variable (config : BacktestConfig)

/-- A trade is sized from the balance, profitable, and paid for without its fee. -/
lemma Opportunity.of_verdict_executed {config : BacktestConfig} {o : Opportunity}
    {balance qty : Decimal} (h : o.verdict config balance = .executed qty) :
    qty = o.qtyFrom config balance ∧ 0 < qty ∧ 0 < o.netPnl config qty ∧
      o.buyCost qty ≤ balance ∧ o.sellFee config qty ≤ o.sellProceeds qty := by
  rw [Opportunity.verdict] at h
  split at h
  · dsimp only at h
    split at h
    · cases h
    · split at h
      next hqty hexecuted =>
        obtain rfl := Opportunity.Verdict.executed.inj h
        exact ⟨rfl, not_le.mp hqty, hexecuted⟩
      · cases h
  · cases h

lemma takeIfExecuted_of_executed {config : BacktestConfig} {w : ExchangeBalances} {o : Opportunity}
    {qty : Decimal} (h : o.verdict config (w.amount o.buyExchange) = .executed qty) :
    takeIfExecuted config w o = ((⟨o, qty⟩ : Fill).book config w, [⟨⟨o, qty⟩, w⟩]) := by
  rw [takeIfExecuted, h]
  rfl

lemma takeIfExecuted_of_not_executed {config : BacktestConfig} {w : ExchangeBalances}
    {o : Opportunity} (h : ∀ qty, o.verdict config (w.amount o.buyExchange) ≠ .executed qty) :
    takeIfExecuted config w o = (w, []) := by
  rw [takeIfExecuted]
  split
  next qty hexecuted => exact absurd hexecuted (h qty)
  next => rfl

/-- An opportunity is taken or nothing happens. -/
lemma takeIfExecuted_cases (w : ExchangeBalances) (o : Opportunity) :
    (∃ qty, o.verdict config (w.amount o.buyExchange) = .executed qty ∧
        takeIfExecuted config w o = ((⟨o, qty⟩ : Fill).book config w, [⟨⟨o, qty⟩, w⟩])) ∨
      ((∀ qty, o.verdict config (w.amount o.buyExchange) ≠ .executed qty) ∧
        takeIfExecuted config w o = (w, [])) := by
  by_cases h : ∃ qty, o.verdict config (w.amount o.buyExchange) = .executed qty
  · obtain ⟨qty, h⟩ := h
    exact Or.inl ⟨qty, h, takeIfExecuted_of_executed h⟩
  · push Not at h
    exact Or.inr ⟨h, takeIfExecuted_of_not_executed h⟩

/-- The opportunities of a pair. -/
def PairCheck.directions (p : PairCheck) : List Opportunity := [p.first, p.second]

/-- A pair is left out from its first direction on, or both directions are tried. -/
lemma evaluatePair_cases (w : ExchangeBalances) (p : PairCheck) :
    (p.first.verdict config (w.amount p.first.buyExchange) = .continued ∧
        evaluatePair config w p = (w, [])) ∨
      (p.first.verdict config (w.amount p.first.buyExchange) ≠ .continued ∧
        evaluatePair config w p = (runState (takeIfExecuted config) w p.directions,
          runTrace (takeIfExecuted config) w p.directions)) := by
  rw [evaluatePair]
  split
  next hcontinued => exact Or.inl ⟨hcontinued, rfl⟩
  next hcontinued =>
    refine Or.inr ⟨hcontinued, ?_⟩
    simp [PairCheck.directions]

/-- Going through pairs is taking opportunities from some of their directions, in order. -/
lemma exists_takes (w : ExchangeBalances) (checks : List PairCheck) :
    ∃ os, os.Sublist (checks.flatMap PairCheck.directions) ∧
      runState (evaluatePair config) w checks = runState (takeIfExecuted config) w os ∧
      runTrace (evaluatePair config) w checks = runTrace (takeIfExecuted config) w os := by
  induction checks generalizing w with
  | nil => exact ⟨[], List.Sublist.refl _, rfl, rfl⟩
  | cons p checks ih =>
    obtain ⟨os, hsub, hstate, htrace⟩ := ih (evaluatePair config w p).1
    rw [runState_cons, runTrace_cons, hstate, htrace, List.flatMap_cons]
    rcases evaluatePair_cases config w p with ⟨-, heq⟩ | ⟨-, heq⟩
    · rw [heq]
      exact ⟨os, hsub.trans (List.sublist_append_right _ _), rfl, rfl⟩
    · rw [heq]
      refine ⟨p.directions ++ os, hsub.append_left _, ?_, ?_⟩
      · rw [runState_append]
      · rw [runTrace_append]

end Takes

/-! ## The opportunities of a timestamp -/

section Pairs

variable {α : Type*}

/-- The pairs of a list in both directions. -/
def bothWays (l : List α) : List (α × α) := (pairsOf l).flatMap fun p => [p, p.swap]

lemma bothWays_cons (a : α) (l : List α) :
    bothWays (a :: l) = (l.flatMap fun b => [(a, b), (b, a)]) ++ bothWays l := by
  rw [bothWays, pairsOf, List.flatMap_append, List.flatMap_map]
  rfl

lemma mem_bothWays {l : List α} (hl : l.Nodup) {a b : α} :
    (a, b) ∈ bothWays l ↔ a ∈ l ∧ b ∈ l ∧ a ≠ b := by
  induction l with
  | nil => simp [bothWays, pairsOf]
  | cons c l ih =>
    obtain ⟨hc, hl⟩ := List.nodup_cons.mp hl
    rw [bothWays_cons, List.mem_append, ih hl]
    simp only [List.mem_flatMap, List.mem_cons, Prod.mk.injEq, List.not_mem_nil, or_false]
    constructor
    · rintro (⟨d, hd, ⟨rfl, rfl⟩ | ⟨rfl, rfl⟩⟩ | ⟨ha, hb, hne⟩)
      · exact ⟨Or.inl rfl, Or.inr hd, fun h => hc (h ▸ hd)⟩
      · exact ⟨Or.inr hd, Or.inl rfl, fun h => hc (h ▸ hd)⟩
      · exact ⟨Or.inr ha, Or.inr hb, hne⟩
    · rintro ⟨rfl | ha, rfl | hb, hne⟩
      · exact absurd rfl hne
      · exact Or.inl ⟨b, hb, Or.inl ⟨rfl, rfl⟩⟩
      · exact Or.inl ⟨a, ha, Or.inr ⟨rfl, rfl⟩⟩
      · exact Or.inr ⟨ha, hb, hne⟩

lemma nodup_bothWays {l : List α} (hl : l.Nodup) : (bothWays l).Nodup := by
  induction l with
  | nil => simp [bothWays, pairsOf]
  | cons c l ih =>
    obtain ⟨hc, hl⟩ := List.nodup_cons.mp hl
    rw [bothWays_cons]
    refine List.Nodup.append ?_ (ih hl) ?_
    · rw [List.nodup_flatMap]
      constructor
      · intro d hd
        have hne : c ≠ d := fun h => hc (h ▸ hd)
        simp [hne]
      · refine hl.pairwise_of_forall_ne ?_
        intro d hd d' hd' hne p hp hp'
        simp only [List.mem_cons, List.not_mem_nil, or_false] at hp hp'
        have hcd : c ≠ d := fun h => hc (h ▸ hd)
        have hcd' : c ≠ d' := fun h => hc (h ▸ hd')
        rcases hp with rfl | rfl
        · rcases hp' with h | h
          · exact hne (Prod.mk.inj h).2
          · exact hcd' (Prod.mk.inj h).1
        · rcases hp' with h | h
          · exact hcd (Prod.mk.inj h).1.symm
          · exact hne (Prod.mk.inj h).1
    · rintro ⟨a, b⟩ hnew hold
      obtain ⟨ha, hb, -⟩ := (mem_bothWays hl).mp hold
      simp only [List.mem_flatMap, List.mem_cons, Prod.mk.injEq, List.not_mem_nil, or_false] at hnew
      obtain ⟨d, -, ⟨rfl, -⟩ | ⟨-, rfl⟩⟩ := hnew
      · exact hc ha
      · exact hc hb

end Pairs

section Directions

variable {bars : List PriceBar} (order : IterationOrder bars)

/-- The opportunities of a timestamp, in the order in which they are looked at. -/
def directionsAt (ts : ℤ) : List Opportunity :=
  (checksAt order ts).flatMap PairCheck.directions

lemma nodup_symbols (ts : ℤ) : (order.symbols ts).Nodup :=
  (order.symbols_perm ts).nodup_iff.mpr (List.nodup_dedup _)

lemma nodup_exchanges (ts : ℤ) (symbol : String) : (order.exchanges ts symbol).Nodup :=
  (order.exchanges_perm ts symbol).nodup_iff.mpr (List.nodup_dedup _)

/-- The directions of a symbol; with fewer than two bars there is no pair. -/
lemma symbolChecks_directions (ts : ℤ) (symbol : String) :
    (symbolChecks order ts symbol).flatMap PairCheck.directions =
      (bothWays (order.exchanges ts symbol)).map fun p =>
        opportunityAt bars ts symbol p.1 p.2 := by
  rw [symbolChecks]
  split
  next hfew =>
    have hlength : (order.exchanges ts symbol).length ≤ 1 := by
      rw [(order.exchanges_perm ts symbol).length_eq]
      have hdedup := (List.dedup_sublist ((symbolBars bars ts symbol).map
        PriceBar.exchangeId)).length_le
      rw [List.length_map] at hdedup
      exact hdedup.trans (by omega)
    rcases hlist : order.exchanges ts symbol with _ | ⟨a, _ | ⟨b, l⟩⟩
    · rfl
    · rfl
    · rw [hlist] at hlength
      simp at hlength
  next =>
    rw [bothWays, List.map_flatMap, List.flatMap_map]
    rfl

/-- The opportunities of a timestamp do not depend on the order. -/
lemma mem_directionsAt {ts : ℤ} {o : Opportunity} :
    o ∈ directionsAt order ts ↔ ∃ symbol ∈ symbolsAt bars ts, ∃ a ∈ exchangesAt bars ts symbol,
      ∃ b ∈ exchangesAt bars ts symbol, a ≠ b ∧ o = opportunityAt bars ts symbol a b := by
  rw [directionsAt, checksAt, List.flatMap_assoc]
  simp only [symbolChecks_directions, List.mem_flatMap, (order.symbols_perm ts).mem_iff,
    List.mem_map, Prod.exists, mem_bothWays (nodup_exchanges order ts _),
    (order.exchanges_perm ts _).mem_iff]
  constructor
  · rintro ⟨symbol, hsymbol, a, b, ⟨ha, hb, hne⟩, rfl⟩
    exact ⟨symbol, hsymbol, a, ha, b, hb, hne, rfl⟩
  · rintro ⟨symbol, hsymbol, a, ha, b, hb, hne, rfl⟩
    exact ⟨symbol, hsymbol, a, b, ⟨ha, hb, hne⟩, rfl⟩

/-- No opportunity is looked at twice. -/
lemma nodup_directionsAt (ts : ℤ) : (directionsAt order ts).Nodup := by
  rw [directionsAt, checksAt, List.flatMap_assoc, List.nodup_flatMap]
  constructor
  · intro symbol _
    rw [symbolChecks_directions]
    apply (nodup_bothWays (nodup_exchanges order ts symbol)).map
    rintro ⟨a, b⟩ ⟨a', b'⟩ h
    exact Prod.ext (congrArg Opportunity.buyExchange h) (congrArg Opportunity.sellExchange h)
  · apply (nodup_symbols order ts).imp
    intro symbol symbol' hne o ho ho'
    dsimp only at ho ho'
    rw [symbolChecks_directions] at ho ho'
    obtain ⟨p, -, rfl⟩ := List.mem_map.mp ho
    obtain ⟨p', -, h⟩ := List.mem_map.mp ho'
    exact hne (congrArg Opportunity.symbol h).symm

end Directions

/-! ## Booking trades -/

/-- What a trade adds to the balance of an exchange. -/
def Fill.effect (config : BacktestConfig) (f : Fill) (x : UInt16) : Decimal :=
  if x = f.opportunity.buyExchange then
    -(f.opportunity.buyCost f.qty + f.opportunity.buyFee config f.qty)
  else if x = f.opportunity.sellExchange then
    f.opportunity.sellProceeds f.qty - f.opportunity.sellFee config f.qty
  else 0

/-- An opportunity of a run: the prices are those of the bars, and the two exchanges are different
ones of the bars. -/
structure Opportunity.Quoted (bars : List PriceBar) (o : Opportunity) : Prop where
  ne : o.buyExchange ≠ o.sellExchange
  eq : o = opportunityAt bars o.timestamp o.symbol o.buyExchange o.sellExchange
  buy_mem : o.buyExchange ∈ seenExchanges bars
  sell_mem : o.sellExchange ∈ seenExchanges bars

section Booking

variable (config : BacktestConfig)

lemma Fill.amount_book {f : Fill} (hne : f.opportunity.buyExchange ≠ f.opportunity.sellExchange)
    (w : ExchangeBalances) (x : UInt16) :
    (f.book config w).amount x = w.amount x + f.effect config x := by
  rw [Fill.book, Fill.effect]
  by_cases hsell : x = f.opportunity.sellExchange
  · rw [hsell, AmountMap.amount_set_self, if_neg hne.symm, if_pos rfl]
    ring
  · rw [AmountMap.amount_set_of_ne _ hsell]
    by_cases hbuy : x = f.opportunity.buyExchange
    · rw [hbuy, AmountMap.amount_set_self, if_pos rfl]
      ring
    · rw [AmountMap.amount_set_of_ne _ hbuy, if_neg hbuy, if_neg hsell, add_zero]

/-- A trade adds its profit to the total. -/
lemma Fill.total_book {f : Fill} (hne : f.opportunity.buyExchange ≠ f.opportunity.sellExchange)
    (w : ExchangeBalances) :
    (f.book config w).total = w.total + f.opportunity.netPnl config f.qty := by
  rw [Fill.book, AmountMap.total_set, AmountMap.total_set, AmountMap.amount_set_of_ne _ hne.symm,
    Opportunity.netPnl, Opportunity.totalFees]
  ring

lemma mem_seenExchanges {bars : List PriceBar} {x : UInt16} :
    x ∈ seenExchanges bars ↔ ∃ bar ∈ bars, bar.exchangeId = x := by
  rw [seenExchanges, List.mem_insertionSort, List.mem_dedup, List.mem_map]

lemma mem_seenExchanges_of_mem_exchangesAt {bars : List PriceBar} {ts : ℤ} {symbol : String}
    {x : UInt16} (h : x ∈ exchangesAt bars ts symbol) : x ∈ seenExchanges bars := by
  rw [exchangesAt, List.mem_dedup, List.mem_map] at h
  obtain ⟨bar, hbar, hx⟩ := h
  exact mem_seenExchanges.mpr ⟨bar, List.mem_of_mem_filter (List.mem_of_mem_filter hbar), hx⟩

/-- The opportunities of a timestamp are opportunities of the run. -/
lemma quoted_of_mem_directionsAt {bars : List PriceBar} {order : IterationOrder bars} {ts : ℤ}
    {o : Opportunity} (h : o ∈ directionsAt order ts) : o.Quoted bars ∧ o.timestamp = ts := by
  obtain ⟨symbol, -, a, ha, b, hb, hne, rfl⟩ := (mem_directionsAt order).mp h
  exact ⟨⟨hne, rfl, mem_seenExchanges_of_mem_exchangesAt ha,
    mem_seenExchanges_of_mem_exchangesAt hb⟩, rfl⟩

end Booking

/-! ## Runs of timestamps -/

section Timestamps

variable {bars : List PriceBar} (config : BacktestConfig) (order : IterationOrder bars)

/-- The timestamps of a run take opportunities of the run, one after the other. -/
lemma exists_takes_timestamps (e : BacktestEngine) (l : List ℤ) :
    ∃ os, (∀ o ∈ os, o.Quoted bars) ∧
      (runState (processTimestamp config order) e l).exchangeBalances =
        runState (takeIfExecuted config) e.exchangeBalances os ∧
      runTrace (processTimestamp config order) e l =
        runTrace (takeIfExecuted config) e.exchangeBalances os := by
  induction l generalizing e with
  | nil => exact ⟨[], by simp, rfl, rfl⟩
  | cons ts l ih =>
    obtain ⟨os, hsub, hstate, htrace⟩ := exists_takes config e.exchangeBalances (checksAt order ts)
    obtain ⟨os', hquoted', hstate', htrace'⟩ := ih (processTimestamp config order e ts).1
    have hbalances : (processTimestamp config order e ts).1.exchangeBalances =
        runState (takeIfExecuted config) e.exchangeBalances os := hstate
    have hbookings : (processTimestamp config order e ts).2 =
        runTrace (takeIfExecuted config) e.exchangeBalances os := htrace
    refine ⟨os ++ os', ?_, ?_, ?_⟩
    · intro o ho
      rcases List.mem_append.mp ho with ho | ho
      · exact (quoted_of_mem_directionsAt (hsub.subset ho)).1
      · exact hquoted' o ho
    · rw [runState_cons, hstate', hbalances, runState_append]
    · rw [runTrace_cons, htrace', hbalances, hbookings, runTrace_append]

/-- A trade is one of the opportunities, executed on the balances before it. -/
lemma executed_of_mem_runTrace_takes {w : ExchangeBalances} {os : List Opportunity} {b : Booking}
    (hb : b ∈ runTrace (takeIfExecuted config) w os) :
    b.opportunity ∈ os ∧ b.opportunity.verdict config (b.before.amount b.opportunity.buyExchange) =
      .executed b.qty := by
  obtain ⟨pre, o, post, rfl, htake⟩ := mem_runTrace_iff.mp hb
  rcases takeIfExecuted_cases config (runState (takeIfExecuted config) w pre) o with
    ⟨qty, hverdict, heq⟩ | ⟨-, heq⟩
  · rw [heq, List.mem_singleton] at htake
    rw [htake]
    exact ⟨by simp, hverdict⟩
  · rw [heq] at htake
    exact absurd htake List.not_mem_nil

lemma quoted_of_mem_runTrace_takes {w : ExchangeBalances} {os : List Opportunity}
    (hos : ∀ o ∈ os, o.Quoted bars) {b : Booking}
    (hb : b ∈ runTrace (takeIfExecuted config) w os) : b.opportunity.Quoted bars :=
  hos b.opportunity (executed_of_mem_runTrace_takes config hb).1

lemma trades_timestamps (e : BacktestEngine) (l : List ℤ) :
    (runState (processTimestamp config order) e l).trades =
      e.trades ++ (runTrace (processTimestamp config order) e l).map fun b =>
        b.toFill.trade config := by
  induction l generalizing e with
  | nil => simp
  | cons ts l ih =>
    rw [runState_cons, runTrace_cons, ih, List.map_append, ← List.append_assoc]
    rfl

lemma amount_splitCapital (e : BacktestEngine) (x : UInt16) :
    (splitCapital e bars).exchangeBalances.amount x = if x ∈ seenExchanges bars then
      e.capital / (max (seenExchanges bars).length 1 : ℕ) else e.exchangeBalances.amount x :=
  AmountMap.amount_setAll _ _ _ _

/-! ## Results -/

lemma statistics_spec {trades : List BacktestTrade} {curve : List Decimal}
    {result : BacktestResult} (h : statistics trades curve = some result) :
    result.totalPnl = (trades.map BacktestTrade.pnl).sum ∧ result.trades = trades := by
  simp only [statistics, Option.bind_eq_bind, Option.bind_eq_some_iff, Option.pure_def,
    Option.some.injEq] at h
  obtain ⟨_, -, rfl⟩ := h
  exact ⟨rfl, rfl⟩

lemma run_of_ne_nil {e e' : BacktestEngine} {result : BacktestResult} (hbars : bars ≠ [])
    (hrun : run config order e = some (e', result)) :
    e' = { engineAt config order e (timestamps bars) with trades := [] } ∧
      result.totalPnl =
        ((engineAt config order e (timestamps bars)).trades.map BacktestTrade.pnl).sum ∧
      result.trades = (engineAt config order e (timestamps bars)).trades := by
  have hempty : ¬ bars.isEmpty = true := by simpa using hbars
  simp only [run, if_neg hempty, Option.bind_eq_bind, Option.bind_eq_some_iff, Option.pure_def,
    Option.some.injEq, Prod.mk.injEq] at hrun
  obtain ⟨result', hstatistics, rfl, rfl⟩ := hrun
  exact ⟨rfl, statistics_spec hstatistics⟩

/-- A run without bars changes nothing. -/
lemma run_of_isEmpty (e : BacktestEngine) (hbars : bars = []) :
    run config order e = some (e, emptyResult) := by
  subst hbars
  rfl

lemma computeSharpeRatio_isSome {curve : List Decimal} (h : (stepReturns curve).length ≠ 1)
    (annualSteps : ℕ) : (computeSharpeRatio curve annualSteps).isSome := by
  have hn : ((stepReturns curve).length : ℚ) - 1 ≠ 0 := by
    intro hone
    exact h (by exact_mod_cast sub_eq_zero.mp hone)
  rw [computeSharpeRatio]
  split
  · rfl
  · rw [if_neg hn]
    dsimp only
    rw [apply_ite Option.isSome, Option.isSome_some, Option.isSome_some, ite_self]

/-- A run returns unless exactly one step of its equity curve starts from a positive value. -/
lemma run_isSome {e : BacktestEngine} (h : (stepReturns
      (equityCurve config order (splitCapital e bars) (timestamps bars))).length ≠ 1) :
    (run config order e).isSome := by
  obtain ⟨sharpe, hsharpe⟩ := Option.isSome_iff_exists.mp
    (computeSharpeRatio_isSome h annualMultiplier)
  rw [run]
  split
  · rfl
  · simp [statistics, hsharpe]

/-- A bar of one symbol. -/
def testBar (ts : ℤ) (exchangeId : UInt16) (bid ask : Decimal) : PriceBar :=
  ⟨ts, exchangeId, "BTCUSDT", bid, ask⟩

end Timestamps

end Backtest

end HftArb
