import HftArb.Backtest.Conservation

/-!
# The equity curve of a backtest

A trade is made only when it brings a profit, and a timestamp adds the profits of its trades to the
capital.  The equity curve of a new engine therefore never falls, whatever the bars say, and two of
the reported statistics carry no information: the largest drawdown is zero, and the share of winning
trades is one as soon as there is a trade (`backtest_cannot_lose`).
-/

namespace HftArb

open Runs

namespace Backtest

section Timestamps

variable {bars : List PriceBar} {config : BacktestConfig}

/-- Every trade has a positive profit. -/
lemma netPnl_pos_of_mem {w : ExchangeBalances} {os : List Opportunity} {b : Booking}
    (hb : b ∈ runTrace (takeIfExecuted config) w os) : 0 < b.opportunity.netPnl config b.qty := by
  obtain ⟨-, hverdict⟩ := executed_of_mem_runTrace_takes config hb
  exact (Opportunity.of_verdict_executed hverdict).2.2.1

variable (config) (order : IterationOrder bars)

/-- A timestamp does not lower the sum of the balances, which becomes the capital. -/
lemma total_le_capital_processTimestamp (e : BacktestEngine) (ts : ℤ) :
    e.exchangeBalances.total ≤ (processTimestamp config order e ts).1.capital := by
  obtain ⟨os, hsub, hstate, -⟩ := exists_takes config e.exchangeBalances (checksAt order ts)
  have hquoted : ∀ o ∈ os, o.Quoted bars := fun o ho =>
    (quoted_of_mem_directionsAt (hsub.subset ho)).1
  have hcapital : (processTimestamp config order e ts).1.capital =
      (runState (takeIfExecuted config) e.exchangeBalances os).total :=
    congrArg AmountMap.total hstate
  rw [hcapital, total_takes _ hquoted]
  refine le_add_of_nonneg_right (List.sum_nonneg ?_)
  rw [List.forall_mem_map]
  exact fun b hb => (netPnl_pos_of_mem hb).le

/-- The equity curve starts at the capital and does not fall. -/
lemma equityCurve_nondecreasing {e : BacktestEngine} (h : e.capital = e.exchangeBalances.total)
    (l : List ℤ) : (equityCurve config order e l).Pairwise (· ≤ ·) ∧
      ∀ value ∈ equityCurve config order e l, e.capital ≤ value := by
  induction l generalizing e with
  | nil => simp [equityCurve]
  | cons ts l ih =>
    obtain ⟨hrest, hfirst⟩ := ih (e := (processTimestamp config order e ts).1) rfl
    have hstep := total_le_capital_processTimestamp config order e ts
    rw [← h] at hstep
    rw [equityCurve]
    refine ⟨List.pairwise_cons.mpr ⟨fun value hvalue => ?_, hrest⟩, ?_⟩
    · exact hstep.trans (hfirst value hvalue)
    · rintro value (_ | ⟨_, hvalue⟩)
      · exact le_refl _
      · exact hstep.trans (hfirst value hvalue)

/-- The split of the capital of a new engine leaves nothing over. -/
lemma total_splitCapital_new (hbars : bars ≠ []) :
    (splitCapital (new config) bars).exchangeBalances.total = config.initialCapital := by
  have hleftover : leftover (new config) bars = 0 := Finset.sum_eq_zero fun x _ => rfl
  rw [total_splitCapital _ hbars, hleftover, add_zero]
  rfl

/-- The trades of a new engine have positive profits. -/
lemma pnl_pos_of_mem_trades :
    ∀ t ∈ (engineAt config order (new config) (timestamps bars)).trades, 0 < t.pnl := by
  obtain ⟨os, -, -, htrace⟩ :=
    exists_takes_timestamps config order (splitCapital (new config) bars) (timestamps bars)
  have hold : (splitCapital (new config) bars).trades = [] := rfl
  rw [engineAt, trades_timestamps, hold, List.nil_append, htrace, List.forall_mem_map]
  exact fun b hb => netPnl_pos_of_mem hb

end Timestamps

/-! ## Statistics that carry no information -/

/-- A curve that does not fall has no drawdown. -/
lemma maxDrawdownLoop_of_nondecreasing {peak : Decimal} {curve : List Decimal}
    (hcurve : curve.Pairwise (· ≤ ·)) (hpeak : ∀ value ∈ curve, peak ≤ value) :
    maxDrawdownLoop peak 0 curve = 0 := by
  induction curve generalizing peak with
  | nil => rfl
  | cons value curve ih =>
    obtain ⟨hlater, hcurve⟩ := List.pairwise_cons.mp hcurve
    have hvalue : (if peak < value then value else peak) = value := by
      rcases (hpeak value List.mem_cons_self).lt_or_eq with hlt | rfl
      · exact if_pos hlt
      · exact if_neg (lt_irrefl _)
    rw [maxDrawdownLoop]
    simp only [hvalue, sub_self, zero_div, lt_irrefl, and_false, if_false]
    exact ih hcurve hlater

lemma computeMaxDrawdown_of_nondecreasing {curve : List Decimal}
    (hcurve : curve.Pairwise (· ≤ ·)) : computeMaxDrawdown curve = 0 := by
  cases curve with
  | nil => rfl
  | cons value curve =>
    refine maxDrawdownLoop_of_nondecreasing hcurve ?_
    rintro value' (_ | ⟨_, hvalue'⟩)
    · exact le_refl _
    · exact (List.pairwise_cons.mp hcurve).1 value' hvalue'

/-- The share of the winning trades, as the statistics report it. -/
def winRate (trades : List BacktestTrade) : Decimal :=
  if 0 < trades.length then
    ((trades.filter fun t => 0 < t.pnl).length : ℚ) / trades.length
  else 0

/-- When every trade wins, the share is one, or zero without a trade. -/
lemma winRate_of_pos {trades : List BacktestTrade} (h : ∀ t ∈ trades, 0 < t.pnl) :
    winRate trades = if trades = [] then 0 else 1 := by
  have hall : (trades.filter fun t => 0 < t.pnl) = trades :=
    List.filter_eq_self.mpr fun t ht => decide_eq_true (h t ht)
  unfold winRate
  rw [hall]
  cases trades with
  | nil => rfl
  | cons t trades =>
    have hlength : ((t :: trades).length : ℚ) ≠ 0 := by simp; positivity
    rw [if_pos (by simp), if_neg (List.cons_ne_nil _ _), div_self hlength]

/-- The drawdown and the share of winning trades in the statistics. -/
lemma statistics_fields {trades : List BacktestTrade} {curve : List Decimal}
    {result : BacktestResult} (h : statistics trades curve = some result) :
    result.maxDrawdown = computeMaxDrawdown curve ∧ result.winRate = winRate trades := by
  simp only [statistics, Option.bind_eq_bind, Option.bind_eq_some_iff, Option.pure_def,
    Option.some.injEq] at h
  obtain ⟨_, -, rfl⟩ := h
  exact ⟨rfl, rfl⟩

/-- A backtest on a new engine cannot lose: the equity curve does not fall, so that there is no
drawdown, and every trade wins. -/
theorem backtest_cannot_lose (config : BacktestConfig) {bars : List PriceBar}
    (order : IterationOrder bars) :
    (equityCurve config order (splitCapital (new config) bars) (timestamps bars)).Pairwise
        (· ≤ ·) ∧
    computeMaxDrawdown
      (equityCurve config order (splitCapital (new config) bars) (timestamps bars)) = 0 ∧
    winRate (engineAt config order (new config) (timestamps bars)).trades =
      (if (engineAt config order (new config) (timestamps bars)).trades = [] then 0 else 1) ∧
    ∀ e' result, run config order (new config) = some (e', result) →
      result.maxDrawdown = 0 ∧ result.winRate = if result.trades = [] then 0 else 1 := by
  have hcurve : (equityCurve config order (splitCapital (new config) bars)
      (timestamps bars)).Pairwise (· ≤ ·) := by
    by_cases hbars : bars = []
    · subst hbars
      exact List.pairwise_singleton _ _
    · exact (equityCurve_nondecreasing config order
        (total_splitCapital_new config hbars).symm _).1
  have hdrawdown := computeMaxDrawdown_of_nondecreasing hcurve
  have hwins := winRate_of_pos (pnl_pos_of_mem_trades config order)
  refine ⟨hcurve, hdrawdown, hwins, fun e' result hrun => ?_⟩
  by_cases hbars : bars = []
  · rw [run_of_isEmpty config order _ hbars] at hrun
    obtain ⟨-, rfl⟩ := Prod.mk.inj (Option.some.inj hrun)
    exact ⟨rfl, rfl⟩
  · have htrades := (run_of_ne_nil config order hbars hrun).2.2
    have hempty : bars.isEmpty ≠ true := by simpa using hbars
    simp only [run, if_neg hempty, Option.bind_eq_bind, Option.bind_eq_some_iff, Option.pure_def,
      Option.some.injEq, Prod.mk.injEq] at hrun
    obtain ⟨result', hstatistics, -, rfl⟩ := hrun
    obtain ⟨hmax, hrate⟩ := statistics_fields hstatistics
    rw [htrades]
    exact ⟨hmax.trans hdrawdown, hrate.trans hwins⟩

end Backtest

end HftArb
