import HftArb.Backtest.Engine

/-!
# Conservation of money in a backtest

A trade moves money between two exchanges and adds its profit, so that a run adds the profits of its
trades to the sum of the balances it starts from.  That sum is the capital together with what
exchanges outside the bars still hold from earlier runs, and a balance becomes negative when a trade
spends all of it and the fee comes on top.  `conserved_iff` says that these are the only two ways in
which a sequence of runs, from a capital that is not negative, can create or overdraw money.
-/

namespace HftArb

open Runs

namespace Backtest

/-- What a trade brought in by the prices of the bars: the proceeds minus the cost and the fees. -/
def netProceeds (config : BacktestConfig) (bars : List PriceBar) (t : BacktestTrade) : Decimal :=
  let cost := t.qty * askAt bars t.entryTime t.symbol t.buyExchange
  let proceeds := t.qty * bidAt bars t.entryTime t.symbol t.sellExchange
  let fees := cost * config.feeForExchange t.buyExchange +
    proceeds * config.feeForExchange t.sellExchange
  proceeds - cost - fees

section Statements

variable {bars : List PriceBar} (config : BacktestConfig) (order : IterationOrder bars)
  (e : BacktestEngine)

/-- The balances a run holds: after the split of the capital and after each trade. -/
def balancesHeld : List ExchangeBalances :=
  if bars.isEmpty then [e.exchangeBalances]
  else (splitCapital e bars).exchangeBalances ::
    (bookingsOf config order e).map (Booking.after config)

/-- A run conserves money. -/
structure RunConserved : Prop where
  capital : ∀ e' result, run config order e = some (e', result) →
    e'.capital = e.capital + result.totalPnl
  totalPnl : ∀ e' result, run config order e = some (e', result) →
    result.totalPnl = (result.trades.map (netProceeds config bars)).sum
  nonneg : ∀ balances ∈ balancesHeld config order e, ∀ x, 0 ≤ balances.amount x

/-- The buyer can pay the trade and its fee. -/
def Booking.Covered (b : Booking) : Prop :=
  b.opportunity.buyCost b.qty + b.opportunity.buyFee config b.qty ≤
    b.before.amount b.opportunity.buyExchange

/-- The capital is not negative, exchanges outside the bars hold nothing when the run returns, and
every trade is covered. -/
structure RunCovered : Prop where
  capital : 0 ≤ config.initialCapital
  noLeftover : (run config order e).isSome → ∀ x ∉ seenExchanges bars,
    e.exchangeBalances.amount x = 0
  covered : ∀ b ∈ bookingsOf config order e, b.Covered config

end Statements

/-- A call of `run`, with the order in which its hash maps are gone through. -/
structure RunCall where
  bars : List PriceBar
  order : IterationOrder bars

/-- The engine after some calls, unless a call panics. -/
def engineFrom (config : BacktestConfig) (e : BacktestEngine) (calls : List RunCall) :
    Option BacktestEngine :=
  calls.foldlM (fun e c => (run config c.order e).map Prod.fst) e

/-- The engine after some calls on a new one. -/
def engineAfter (config : BacktestConfig) (calls : List RunCall) : Option BacktestEngine :=
  engineFrom config (new config) calls

/-- Every call of a sequence conserves money. -/
def Conserved (config : BacktestConfig) (calls : List RunCall) : Prop :=
  ∀ before c after, calls = before ++ c :: after → ∀ e, engineAfter config before = some e →
    RunConserved config c.order e

/-! ## The trades of a run -/

section Takes

variable {bars : List PriceBar} {config : BacktestConfig}

/-- Every amount of a map is not negative. -/
def NonNeg (w : ExchangeBalances) : Prop := ∀ x, 0 ≤ w.amount x

/-- A covered trade overdraws no balance. -/
lemma nonneg_book {f : Fill} {w : ExchangeBalances} (hw : NonNeg w)
    (hne : f.opportunity.buyExchange ≠ f.opportunity.sellExchange)
    (hcovered : f.opportunity.buyCost f.qty + f.opportunity.buyFee config f.qty ≤
      w.amount f.opportunity.buyExchange)
    (hsell : f.opportunity.sellFee config f.qty ≤ f.opportunity.sellProceeds f.qty) :
    NonNeg (f.book config w) := by
  intro x
  have hx := hw x
  rw [f.amount_book config hne, Fill.effect]
  split
  next hbuy =>
    rw [hbuy]
    linarith
  · split
    · linarith
    · linarith

/-- Taking opportunities adds their profits to the total. -/
lemma total_takes (w : ExchangeBalances) {os : List Opportunity} (hos : ∀ o ∈ os, o.Quoted bars) :
    (runState (takeIfExecuted config) w os).total = w.total +
      ((runTrace (takeIfExecuted config) w os).map fun b =>
        b.opportunity.netPnl config b.qty).sum := by
  induction os generalizing w with
  | nil => simp
  | cons o os ih =>
    have hrest := fun w => ih w fun o' ho' => hos o' (List.mem_cons_of_mem o ho')
    rw [runState_cons, runTrace_cons, hrest, List.map_append, List.sum_append]
    rcases takeIfExecuted_cases config w o with ⟨qty, -, heq⟩ | ⟨-, heq⟩
    · rw [heq, Fill.total_book config (hos o List.mem_cons_self).ne]
      simp [add_assoc]
    · rw [heq]
      simp

/-- Taking opportunities overdraws no balance exactly when every trade is covered. -/
lemma nonneg_takes_iff {w : ExchangeBalances} (hw : NonNeg w) {os : List Opportunity}
    (hos : ∀ o ∈ os, o.Quoted bars) :
    (∀ b ∈ runTrace (takeIfExecuted config) w os, NonNeg (b.after config)) ↔
      ∀ b ∈ runTrace (takeIfExecuted config) w os, b.Covered config := by
  induction os generalizing w with
  | nil => simp
  | cons o os ih =>
    have hrest : ∀ o' ∈ os, o'.Quoted bars := fun o' ho' => hos o' (List.mem_cons_of_mem o ho')
    have hne := (hos o List.mem_cons_self).ne
    rw [runTrace_cons]
    rcases takeIfExecuted_cases config w o with ⟨qty, hverdict, heq⟩ | ⟨-, heq⟩
    · obtain ⟨-, -, -, -, hsell⟩ := Opportunity.of_verdict_executed hverdict
      simp only [heq, List.cons_append, List.nil_append, List.forall_mem_cons]
      have hfirst : NonNeg ((⟨o, qty⟩ : Fill).book config w) ↔
          (⟨⟨o, qty⟩, w⟩ : Booking).Covered config := by
        constructor
        · intro hbook
          have hbuyer := hbook o.buyExchange
          rw [Fill.amount_book config hne, Fill.effect, if_pos rfl] at hbuyer
          rw [Booking.Covered]
          linarith
        · intro hcovered
          exact nonneg_book hw hne hcovered hsell
      constructor
      · rintro ⟨hbook, hlater⟩
        exact ⟨hfirst.mp hbook, (ih hbook hrest).mp hlater⟩
      · rintro ⟨hcovered, hlater⟩
        have hbook := hfirst.mpr hcovered
        exact ⟨hbook, (ih hbook hrest).mpr hlater⟩
    · rw [heq, List.nil_append]
      exact ih hw hrest

/-- The balances at the end of covered trades are not negative. -/
lemma nonneg_runState_takes {w : ExchangeBalances} (hw : NonNeg w) {os : List Opportunity}
    (hbookings : ∀ b ∈ runTrace (takeIfExecuted config) w os, NonNeg (b.after config)) :
    NonNeg (runState (takeIfExecuted config) w os) := by
  induction os generalizing w with
  | nil => exact hw
  | cons o os ih =>
    rw [runTrace_cons] at hbookings
    rw [runState_cons]
    rcases takeIfExecuted_cases config w o with ⟨qty, -, heq⟩ | ⟨-, heq⟩
    · rw [heq] at hbookings ⊢
      have hbook : NonNeg ((⟨⟨o, qty⟩, w⟩ : Booking).after config) :=
        hbookings _ (List.mem_append_left _ (List.mem_singleton_self _))
      exact ih hbook fun b hb => hbookings b (List.mem_append_right _ hb)
    · rw [heq] at hbookings ⊢
      exact ih hw hbookings

/-- The trade of an opportunity of the run brings in what its record says. -/
lemma netProceeds_trade {f : Fill} (hf : f.opportunity.Quoted bars) :
    netProceeds config bars (f.trade config) = f.opportunity.netPnl config f.qty := by
  have hbuy : f.opportunity.buyPrice = askAt bars f.opportunity.timestamp f.opportunity.symbol
      f.opportunity.buyExchange := congrArg Opportunity.buyPrice hf.eq
  have hsell : f.opportunity.sellPrice = bidAt bars f.opportunity.timestamp f.opportunity.symbol
      f.opportunity.sellExchange := congrArg Opportunity.sellPrice hf.eq
  rw [netProceeds, Fill.trade, Opportunity.netPnl, Opportunity.totalFees, Opportunity.buyFee,
    Opportunity.sellFee, Opportunity.buyCost, Opportunity.sellProceeds, hbuy, hsell]

end Takes

/-! ## One run -/

section Run

variable {bars : List PriceBar} (config : BacktestConfig) (order : IterationOrder bars)

/-- After a timestamp the capital is the sum of the balances. -/
lemma capital_timestamps (e : BacktestEngine) {l : List ℤ} (hl : l ≠ []) :
    (runState (processTimestamp config order) e l).capital =
      (runState (processTimestamp config order) e l).exchangeBalances.total := by
  obtain ⟨ts, l, rfl⟩ := List.exists_cons_of_ne_nil hl
  rw [runState_cons]
  exact runState_induction
    (I := fun s : BacktestEngine => s.capital = s.exchangeBalances.total) (C := fun _ => True)
    (fun _ _ _ _ => rfl) rfl fun _ _ => trivial

/-- The balances outside the bars. -/
def leftover (e : BacktestEngine) (bars : List PriceBar) : Decimal :=
  ∑ x ∈ e.exchangeBalances.keys \ (seenExchanges bars).toFinset, e.exchangeBalances.amount x

lemma nodup_seenExchanges (bars : List PriceBar) : (seenExchanges bars).Nodup :=
  (List.perm_insertionSort _ _).nodup_iff.mpr (List.nodup_dedup _)

lemma seenExchanges_length_pos (hbars : bars ≠ []) : 0 < (seenExchanges bars).length := by
  obtain ⟨bar, hbar⟩ := List.exists_mem_of_ne_nil bars hbars
  exact List.length_pos_of_mem (mem_seenExchanges.mpr ⟨bar, hbar, rfl⟩)

lemma timestamps_ne_nil (hbars : bars ≠ []) : timestamps bars ≠ [] := by
  obtain ⟨bar, hbar⟩ := List.exists_mem_of_ne_nil bars hbars
  apply List.ne_nil_of_mem (a := bar.timestamp)
  rw [timestamps, List.mem_insertionSort, List.mem_dedup]
  exact List.mem_map_of_mem hbar

/-- After the split the exchanges hold the capital and what was left outside the bars. -/
lemma total_splitCapital (e : BacktestEngine) (hbars : bars ≠ []) :
    (splitCapital e bars).exchangeBalances.total = e.capital + leftover e bars := by
  have hpos := seenExchanges_length_pos hbars
  have hne : ((seenExchanges bars).length : ℚ) ≠ 0 := by exact_mod_cast hpos.ne'
  rw [splitCapital, AmountMap.total_setAll _ (nodup_seenExchanges bars), max_eq_left hpos,
    nsmul_eq_mul, mul_div_cancel₀ _ hne, leftover]

/-- A run that returns has added the profits of its trades to the balances after the split. -/
lemma run_spec {e e' : BacktestEngine} {result : BacktestResult} (hbars : bars ≠ [])
    (htrades : e.trades = []) (hrun : run config order e = some (e', result)) :
    e'.capital = e.capital + leftover e bars + result.totalPnl ∧
      result.totalPnl = (result.trades.map (netProceeds config bars)).sum := by
  obtain ⟨rfl, hpnl, hresult⟩ := run_of_ne_nil config order hbars hrun
  obtain ⟨os, hquoted, hstate, htrace⟩ :=
    exists_takes_timestamps config order (splitCapital e bars) (timestamps bars)
  have hall : (engineAt config order e (timestamps bars)).trades =
      (runTrace (takeIfExecuted config) (splitCapital e bars).exchangeBalances os).map fun b =>
        b.toFill.trade config := by
    have hold : (splitCapital e bars).trades = [] := htrades
    rw [engineAt, trades_timestamps, hold, List.nil_append, htrace]
  rw [hall, List.map_map] at hpnl
  constructor
  · have hcapital := capital_timestamps config order (splitCapital e bars) (timestamps_ne_nil hbars)
    rw [hstate, total_takes _ hquoted, total_splitCapital e hbars] at hcapital
    exact hcapital.trans (congrArg _ hpnl.symm)
  · rw [hresult, hall, List.map_map, hpnl]
    congr 1
    apply List.map_congr_left
    intro b hb
    exact (netProceeds_trade (quoted_of_mem_runTrace_takes config hquoted hb)).symm

/-! ## Sequences of runs -/

/-- What holds between the runs of a sequence. -/
structure Between (e : BacktestEngine) : Prop where
  trades : e.trades = []
  nonneg : NonNeg e.exchangeBalances
  capital : 0 ≤ config.initialCapital → 0 ≤ e.capital
  initial : 0 ≤ e.capital → 0 ≤ config.initialCapital

variable {config} {order} {e : BacktestEngine}

lemma nonneg_splitCapital (h : NonNeg e.exchangeBalances) (hcapital : 0 ≤ e.capital) :
    NonNeg (splitCapital e bars).exchangeBalances := by
  intro x
  rw [amount_splitCapital]
  split
  · exact div_nonneg hcapital (Nat.cast_nonneg _)
  · exact h x

/-- No run can be conserved that starts from a negative capital. -/
lemma capital_nonneg_of_split (hbars : bars ≠ [])
    (h : NonNeg (splitCapital e bars).exchangeBalances) : 0 ≤ e.capital := by
  obtain ⟨bar, hbar⟩ := List.exists_mem_of_ne_nil bars hbars
  have hseen : bar.exchangeId ∈ seenExchanges bars := mem_seenExchanges.mpr ⟨bar, hbar, rfl⟩
  have hamount := h bar.exchangeId
  have hpos : (0 : ℚ) < (max (seenExchanges bars).length 1 : ℕ) := by
    exact_mod_cast lt_of_lt_of_le Nat.one_pos (le_max_right _ _)
  rw [amount_splitCapital, if_pos hseen, le_div_iff₀ hpos, zero_mul] at hamount
  exact hamount

/-- Nothing is left over when, and only when, every exchange outside the bars holds nothing. -/
lemma leftover_eq_zero_iff (h : NonNeg e.exchangeBalances) :
    leftover e bars = 0 ↔ ∀ x ∉ seenExchanges bars, e.exchangeBalances.amount x = 0 := by
  rw [leftover, Finset.sum_eq_zero_iff_of_nonneg fun x _ => h x]
  constructor
  · intro hzero x hx
    by_cases hkey : x ∈ e.exchangeBalances.keys
    · exact hzero x (by simp [hkey, hx])
    · exact e.exchangeBalances.amount_of_notMem x hkey
  · intro hzero x hx
    exact hzero x (by simpa using (Finset.mem_sdiff.mp hx).2)

lemma balancesHeld_of_ne_nil (hbars : bars ≠ []) :
    (∀ balances ∈ balancesHeld config order e, ∀ x, 0 ≤ balances.amount x) ↔
      NonNeg (splitCapital e bars).exchangeBalances ∧
        ∀ b ∈ bookingsOf config order e, NonNeg (b.after config) := by
  have hempty : ¬ bars.isEmpty = true := by simpa using hbars
  rw [balancesHeld, if_neg hempty, List.forall_mem_cons, List.forall_mem_map]
  rfl

/-- The trades of a run overdraw no balance exactly when they are covered. -/
lemma bookingsOf_nonneg_iff (h : NonNeg (splitCapital e bars).exchangeBalances) :
    (∀ b ∈ bookingsOf config order e, NonNeg (b.after config)) ↔
      ∀ b ∈ bookingsOf config order e, b.Covered config := by
  obtain ⟨os, hquoted, -, htrace⟩ :=
    exists_takes_timestamps config order (splitCapital e bars) (timestamps bars)
  rw [bookingsOf, htrace]
  exact nonneg_takes_iff h hquoted

/-- Between runs, a run with bars conserves money exactly when it is covered. -/
lemma runConserved_iff (hbetween : Between config e) (hbars : bars ≠ []) :
    RunConserved config order e ↔ RunCovered config order e := by
  constructor
  · intro h
    obtain ⟨hsplit, hafter⟩ := (balancesHeld_of_ne_nil hbars).mp h.nonneg
    refine ⟨hbetween.initial (capital_nonneg_of_split hbars hsplit), ?_,
      (bookingsOf_nonneg_iff hsplit).mp hafter⟩
    intro hreturns
    obtain ⟨⟨e', result⟩, hrun⟩ := Option.isSome_iff_exists.mp hreturns
    have hclaimed := h.capital e' result hrun
    have hactual := (run_spec config order hbars hbetween.trades hrun).1
    apply (leftover_eq_zero_iff hbetween.nonneg).mp
    linarith
  · intro h
    have hsplit : NonNeg (splitCapital e bars).exchangeBalances :=
      nonneg_splitCapital hbetween.nonneg (hbetween.capital h.capital)
    refine ⟨?_, ?_, ?_⟩
    · intro e' result hrun
      have hzero : leftover e bars = 0 :=
        (leftover_eq_zero_iff hbetween.nonneg).mpr (h.noLeftover (by rw [hrun]; rfl))
      rw [(run_spec config order hbars hbetween.trades hrun).1, hzero, add_zero]
    · intro e' result hrun
      exact (run_spec config order hbars hbetween.trades hrun).2
    · exact (balancesHeld_of_ne_nil hbars).mpr
        ⟨hsplit, (bookingsOf_nonneg_iff hsplit).mpr h.covered⟩

lemma runConserved_of_isEmpty (hbetween : Between config e) (hbars : bars = []) :
    RunConserved config order e := by
  have hrun := run_of_isEmpty config order e hbars
  refine ⟨?_, ?_, ?_⟩
  · intro e' result h
    obtain ⟨rfl, rfl⟩ := Prod.mk.inj (Option.some.inj (hrun.symm.trans h))
    simp [emptyResult]
  · intro e' result h
    obtain ⟨-, rfl⟩ := Prod.mk.inj (Option.some.inj (hrun.symm.trans h))
    simp [emptyResult]
  · subst hbars
    intro balances hbalances
    obtain rfl : balances = e.exchangeBalances := by simpa [balancesHeld] using hbalances
    exact hbetween.nonneg

/-- A run that conserves money leaves what holds between runs. -/
lemma Between.of_run (hbetween : Between config e) (h : RunConserved config order e)
    {e' : BacktestEngine} {result : BacktestResult}
    (hrun : run config order e = some (e', result)) : Between config e' := by
  by_cases hbars : bars = []
  · rw [run_of_isEmpty config order e hbars] at hrun
    obtain ⟨rfl, -⟩ := Prod.mk.inj (Option.some.inj hrun)
    exact hbetween
  · obtain ⟨hsplit, hafter⟩ := (balancesHeld_of_ne_nil hbars).mp h.nonneg
    obtain ⟨rfl, -, -⟩ := run_of_ne_nil config order hbars hrun
    obtain ⟨os, -, hstate, htrace⟩ :=
      exists_takes_timestamps config order (splitCapital e bars) (timestamps bars)
    have hfinal : NonNeg (engineAt config order e (timestamps bars)).exchangeBalances := by
      rw [bookingsOf, htrace] at hafter
      rw [engineAt, hstate]
      exact nonneg_runState_takes hsplit hafter
    have hcapital : 0 ≤ (engineAt config order e (timestamps bars)).capital := by
      rw [engineAt, capital_timestamps config order _ (timestamps_ne_nil hbars)]
      exact Finset.sum_nonneg fun x _ => hfinal x
    have hinitial := hbetween.initial (capital_nonneg_of_split hbars hsplit)
    exact ⟨rfl, hfinal, fun _ => hcapital, fun _ => hinitial⟩

end Run

section Sequence

variable {config : BacktestConfig}

/-- A statement about every call of a sequence, call by call. -/
lemma forall_reached_cons {Q : RunCall → BacktestEngine → Prop} {e : BacktestEngine} {a : RunCall}
    {calls : List RunCall} :
    (∀ before c after, a :: calls = before ++ c :: after →
        ∀ s, engineFrom config e before = some s → Q c s) ↔
      Q a e ∧ ∀ e' result, run config a.order e = some (e', result) →
        ∀ before c after, calls = before ++ c :: after →
          ∀ s, engineFrom config e' before = some s → Q c s := by
  rw [forall_split_cons (P := fun before c => ∀ s, engineFrom config e before = some s → Q c s)]
  refine and_congr ?_ ?_
  · simp [engineFrom]
  · constructor
    · intro h e' result hrun before c after hcalls s hs
      apply h before c after hcalls s
      simpa [engineFrom, hrun] using hs
    · intro h before c after hcalls s hs
      simp only [engineFrom, List.foldlM_cons, Option.bind_eq_bind, Option.bind_eq_some_iff,
        Option.map_eq_some_iff] at hs
      obtain ⟨_, ⟨⟨e', result⟩, hrun, rfl⟩, hs⟩ := hs
      exact h e' result hrun before c after hcalls s hs

/-- The calls of a sequence, from an engine between two runs, conserve money exactly when every call
with bars is covered. -/
lemma conserved_from_iff {e : BacktestEngine} (he : Between config e) (calls : List RunCall) :
    (∀ before c after, calls = before ++ c :: after →
        ∀ s, engineFrom config e before = some s → RunConserved config c.order s) ↔
      ∀ before c after, calls = before ++ c :: after →
        ∀ s, engineFrom config e before = some s → c.bars ≠ [] → RunCovered config c.order s := by
  induction calls generalizing e with
  | nil => exact iff_of_true (by simp) (by simp)
  | cons a calls ih =>
    have hcall : RunConserved config a.order e ↔ (a.bars ≠ [] → RunCovered config a.order e) := by
      by_cases hbars : a.bars = []
      · exact iff_of_true (runConserved_of_isEmpty he hbars) fun h => absurd hbars h
      · rw [runConserved_iff he hbars]
        exact ⟨fun h _ => h, fun h => h hbars⟩
    rw [forall_reached_cons (Q := fun c s => RunConserved config c.order s),
      forall_reached_cons (Q := fun c s => c.bars ≠ [] → RunCovered config c.order s), ← hcall]
    refine and_congr_right fun hconserved => ?_
    refine forall_congr' fun e' => forall_congr' fun result => forall_congr' fun hrun => ?_
    exact ih (he.of_run hconserved hrun)

/-- Any sequence of runs on one engine, in any order of its hash maps, conserves money exactly when
the initial capital is not negative, exchanges outside the bars of a run hold nothing, and every
trade is covered with its fee. -/
theorem conserved_iff (config : BacktestConfig) (calls : List RunCall) :
    Conserved config calls ↔ ∀ before c after, calls = before ++ c :: after →
      ∀ e, engineAfter config before = some e → c.bars ≠ [] → RunCovered config c.order e :=
  conserved_from_iff ⟨rfl, fun _ => le_refl _, id, id⟩ calls

end Sequence

/-! ## Money that comes from nowhere, and overdrawn balances -/

/-- Two exchanges with the same prices at two timestamps. -/
def quietBars (a b : UInt16) : List PriceBar :=
  [testBar 1 a 99 100, testBar 1 b 99 100, testBar 2 a 99 100, testBar 2 b 99 100]

/-- Prices that cross at the first of two timestamps. -/
def crossedBars : List PriceBar :=
  [testBar 1 0 99 100, testBar 1 1 110 111, testBar 2 0 99 100, testBar 2 1 99 100]

/-- A run on two exchanges. -/
def quietCall (a b : UInt16) : RunCall := ⟨quietBars a b, .listed _⟩

/-- A run on other exchanges than the run before doubles the capital without a trade, and a trade
with the whole balance leaves the buyer without its fee. -/
theorem capital_doubled_and_fee_overdrawn :
    ¬ Conserved {} [quietCall 0 1, quietCall 2 3] ∧
      ¬ Conserved { maxPositionPct := 1 } [⟨crossedBars, .listed _⟩] := by
  constructor
  · intro h
    have hfirst : (run {} (quietCall 0 1).order (new {})).isSome :=
      run_isSome _ _ (by decide +kernel)
    obtain ⟨⟨e, result⟩, hrun⟩ := Option.isSome_iff_exists.mp hfirst
    obtain ⟨he, -, -⟩ := run_of_ne_nil {} (quietCall 0 1).order (by decide) hrun
    have hreached : engineAfter {} [quietCall 0 1] = some e := by
      simp [engineAfter, engineFrom, hrun]
    have hsecond : (run {} (quietCall 2 3).order e).isSome := by
      apply run_isSome
      rw [he]
      decide +kernel
    obtain ⟨⟨e', result'⟩, hrun'⟩ := Option.isSome_iff_exists.mp hsecond
    obtain ⟨he', hpnl, -⟩ := run_of_ne_nil {} (quietCall 2 3).order (by decide) hrun'
    have hclaimed := (h [quietCall 0 1] (quietCall 2 3) [] rfl e hreached).capital e' result' hrun'
    have hbefore : e.capital = 100000 := by
      rw [he]
      decide +kernel
    have hafter : e'.capital = 200000 := by
      rw [he', he]
      decide +kernel
    have hnothing : result'.totalPnl = 0 := by
      rw [hpnl, he]
      decide +kernel
    rw [hbefore, hafter, hnothing] at hclaimed
    exact absurd hclaimed (by norm_num)
  · intro h
    have hconserved := h [] _ [] rfl _ rfl
    have hoverdrawn : ∃ balances ∈ balancesHeld { maxPositionPct := 1 } (.listed crossedBars)
        (new { maxPositionPct := 1 }), balances.amount 0 < 0 := by
      decide +kernel
    obtain ⟨balances, hmem, hneg⟩ := hoverdrawn
    exact absurd (hconserved.nonneg balances hmem 0) (not_le.mpr hneg)

end Backtest

end HftArb
