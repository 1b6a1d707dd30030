import HftArb.Backtest.Engine

/-!
# The order of evaluation in a backtest

The strategies of a timestamp read the working balances that earlier trades of the same timestamp
have changed, so that the order in which symbols and exchanges come out of the hash maps can decide
which trades are made and of which size.

A direction of a pair is live when it would be taken on the opening balances of the timestamp.  The
result of a run does not depend on the order, and every trade is sized from the opening balances,
exactly when no pair is disturbed (`orderIndependent_iff`): on the opening balances with the live
trades of the pairs looked at before, a pair makes its live trades and no others.
-/

namespace HftArb

open Runs

namespace Backtest

section Statements

variable (config : BacktestConfig)

/-- The trade a direction makes on the given balances, if any. -/
def Opportunity.taken (balances : ExchangeBalances) (o : Opportunity) : Option Fill :=
  match o.verdict config (balances.amount o.buyExchange) with
  | .executed qty => some ⟨o, qty⟩
  | _ => none

/-- The live trades of some pairs: those each direction makes by itself on the opening balances. -/
def liveFills (opening : ExchangeBalances) (checks : List PairCheck) : List Fill :=
  (checks.flatMap PairCheck.directions).filterMap (Opportunity.taken config opening)

/-- Book trades one after the other. -/
def bookAll (balances : ExchangeBalances) (fills : List Fill) : ExchangeBalances :=
  fills.foldl (fun w f => f.book config w) balances

variable (bars : List PriceBar) (e : BacktestEngine)

/-- The trades and the balances at the end of the bars do not depend on the order, nor does what a
run returns, and every trade is sized from the balances at the start of its timestamp. -/
structure OrderIndependent : Prop where
  trades : ∀ order order' : IterationOrder bars,
    (engineAt config order e (timestamps bars)).trades.Perm
      (engineAt config order' e (timestamps bars)).trades
  balances : ∀ order order' : IterationOrder bars,
    (engineAt config order e (timestamps bars)).exchangeBalances =
      (engineAt config order' e (timestamps bars)).exchangeBalances
  results : ∀ (order order' : IterationOrder bars) s s',
    run config order e = some s → run config order' e = some s' →
      s.2.trades.Perm s'.2.trades ∧ s.1.exchangeBalances = s'.1.exchangeBalances
  sized : ∀ (order : IterationOrder bars) before ts after,
    timestamps bars = before ++ ts :: after →
      ∀ b ∈ (processTimestamp config order (engineAt config order e before) ts).2,
        b.qty = b.opportunity.qtyFrom config
          ((engineAt config order e before).exchangeBalances.amount b.opportunity.buyExchange)

/-- The trades of a run do not depend on the order. -/
def TradesAgree : Prop :=
  ∀ order order' : IterationOrder bars, (engineAt config order e (timestamps bars)).trades.Perm
    (engineAt config order' e (timestamps bars)).trades

/-- On the opening balances with the live trades of earlier pairs, a pair makes its live trades. -/
def PairUndisturbed (opening : ExchangeBalances) (earlier : List PairCheck) (p : PairCheck) :
    Prop :=
  (evaluatePair config (bookAll config opening (liveFills config opening earlier)) p).2.map
    Booking.toFill = liveFills config opening [p]

/-- No pair is disturbed, at any timestamp and in any order. -/
def Undisturbed : Prop :=
  ∀ (order : IterationOrder bars) before ts after, timestamps bars = before ++ ts :: after →
    ∀ earlier p later, checksAt order ts = earlier ++ p :: later →
      PairUndisturbed config (engineAt config order e before).exchangeBalances earlier p

end Statements

/-! ## Trades as changes of the balances -/

section Booking

variable {config : BacktestConfig}

lemma bookAll_append (w : ExchangeBalances) (fs gs : List Fill) :
    bookAll config w (fs ++ gs) = bookAll config (bookAll config w fs) gs :=
  List.foldl_append

lemma liveFills_append (opening : ExchangeBalances) (ps qs : List PairCheck) :
    liveFills config opening (ps ++ qs) =
      liveFills config opening ps ++ liveFills config opening qs := by
  rw [liveFills, List.flatMap_append, List.filterMap_append]
  rfl

/-- The working balances are the first ones with the trades booked. -/
lemma runState_takes (w : ExchangeBalances) (os : List Opportunity) :
    runState (takeIfExecuted config) w os =
      bookAll config w ((runTrace (takeIfExecuted config) w os).map Booking.toFill) := by
  induction os generalizing w with
  | nil => rfl
  | cons o os ih =>
    rw [runState_cons, runTrace_cons, ih, List.map_append, bookAll_append]
    rcases takeIfExecuted_cases config w o with ⟨qty, -, heq⟩ | ⟨-, heq⟩
    · rw [heq]
      rfl
    · rw [heq]
      rfl

variable (config) in
lemma runState_pairs (w : ExchangeBalances) (checks : List PairCheck) :
    runState (evaluatePair config) w checks =
      bookAll config w ((runTrace (evaluatePair config) w checks).map Booking.toFill) := by
  obtain ⟨os, -, hstate, htrace⟩ := exists_takes config w checks
  rw [hstate, htrace, runState_takes]

/-- The trades made are made in the order of the opportunities, one for each at most. -/
lemma takes_sublist (w : ExchangeBalances) (os : List Opportunity) :
    ((runTrace (takeIfExecuted config) w os).map fun b => b.opportunity).Sublist os := by
  induction os generalizing w with
  | nil => exact List.Sublist.refl _
  | cons o os ih =>
    rw [runTrace_cons, List.map_append]
    rcases takeIfExecuted_cases config w o with ⟨qty, -, heq⟩ | ⟨-, heq⟩
    · rw [heq]
      exact (ih _).cons_cons o
    · rw [heq]
      exact (ih _).cons o

lemma pairs_sublist (w : ExchangeBalances) (checks : List PairCheck) :
    ((runTrace (evaluatePair config) w checks).map fun b => b.opportunity).Sublist
      (checks.flatMap PairCheck.directions) := by
  obtain ⟨os, hsub, -, htrace⟩ := exists_takes config w checks
  rw [htrace]
  exact (takes_sublist w os).trans hsub

/-- A trade of some pairs is one of their directions. -/
lemma mem_directions_of_mem_fills {w : ExchangeBalances} {checks : List PairCheck} {f : Fill}
    (hf : f ∈ (runTrace (evaluatePair config) w checks).map Booking.toFill) :
    f.opportunity ∈ checks.flatMap PairCheck.directions := by
  obtain ⟨b, hb, rfl⟩ := List.mem_map.mp hf
  exact (pairs_sublist w checks).subset
    (List.mem_map_of_mem (f := fun b : Booking => b.opportunity) hb)

variable {bars : List PriceBar}

lemma keys_bookAll {w : ExchangeBalances} (hkeys : ∀ x ∈ seenExchanges bars, x ∈ w.keys)
    {fs : List Fill} (hfs : ∀ f ∈ fs, f.opportunity.Quoted bars) :
    (bookAll config w fs).keys = w.keys := by
  induction fs generalizing w with
  | nil => rfl
  | cons f fs ih =>
    have hf := hfs f List.mem_cons_self
    have hbook : (f.book config w).keys = w.keys := by
      rw [Fill.book, AmountMap.keys_set, AmountMap.keys_set,
        Finset.insert_eq_self.mpr (hkeys _ hf.buy_mem),
        Finset.insert_eq_self.mpr (hkeys _ hf.sell_mem)]
    have hrest := ih (w := f.book config w) (by rw [hbook]; exact hkeys)
      fun g hg => hfs g (List.mem_cons_of_mem f hg)
    exact hrest.trans hbook

lemma amount_bookAll (w : ExchangeBalances) {fs : List Fill}
    (hfs : ∀ f ∈ fs, f.opportunity.Quoted bars) (x : UInt16) :
    (bookAll config w fs).amount x = w.amount x + (fs.map fun f => f.effect config x).sum := by
  induction fs generalizing w with
  | nil => simp [bookAll]
  | cons f fs ih =>
    have hrest := ih (f.book config w) fun g hg => hfs g (List.mem_cons_of_mem f hg)
    rw [f.amount_book config (hfs f List.mem_cons_self).ne] at hrest
    rw [List.map_cons, List.sum_cons, ← add_assoc]
    exact hrest

/-- The order in which trades are booked does not matter. -/
lemma bookAll_perm {w : ExchangeBalances} (hkeys : ∀ x ∈ seenExchanges bars, x ∈ w.keys)
    {fs gs : List Fill} (hfs : ∀ f ∈ fs, f.opportunity.Quoted bars) (hperm : fs.Perm gs) :
    bookAll config w fs = bookAll config w gs := by
  have hgs : ∀ f ∈ gs, f.opportunity.Quoted bars := fun f hf => hfs f (hperm.mem_iff.mpr hf)
  apply AmountMap.ext
  · rw [keys_bookAll hkeys hfs, keys_bookAll hkeys hgs]
  · intro x
    rw [amount_bookAll w hfs, amount_bookAll w hgs, (hperm.map _).sum_eq]

lemma taken_eq_some {w : ExchangeBalances} {o : Opportunity} {f : Fill} :
    o.taken config w = some f ↔
      f.opportunity = o ∧ o.verdict config (w.amount o.buyExchange) = .executed f.qty := by
  obtain ⟨o', qty⟩ := f
  rw [Opportunity.taken]
  split
  next q hq =>
    rw [hq, Option.some.injEq, Fill.mk.injEq, Opportunity.Verdict.executed.injEq]
    exact and_congr_left' eq_comm
  next hnot =>
    constructor
    · intro h
      cases h
    · rintro ⟨-, h⟩
      exact absurd h (hnot qty)

lemma mem_liveFills {opening : ExchangeBalances} {checks : List PairCheck} {f : Fill} :
    f ∈ liveFills config opening checks ↔
      f.opportunity ∈ checks.flatMap PairCheck.directions ∧
        f.opportunity.verdict config (opening.amount f.opportunity.buyExchange) =
          .executed f.qty := by
  rw [liveFills, List.mem_filterMap]
  constructor
  · rintro ⟨o, ho, htaken⟩
    obtain ⟨rfl, hverdict⟩ := taken_eq_some.mp htaken
    exact ⟨ho, hverdict⟩
  · rintro ⟨ho, hverdict⟩
    exact ⟨f.opportunity, ho, taken_eq_some.mpr ⟨rfl, hverdict⟩⟩

end Booking

/-! ## Undisturbed pairs make their live trades in every order -/

section Enough

variable {bars : List PriceBar} {config : BacktestConfig} {e : BacktestEngine}

/-- When no pair is disturbed the trades of a timestamp are the live ones. -/
lemma trades_of_undisturbed {opening : ExchangeBalances} {checks : List PairCheck}
    (h : ∀ earlier p later, checks = earlier ++ p :: later →
      PairUndisturbed config opening earlier p) :
    (runTrace (evaluatePair config) opening checks).map Booking.toFill =
      liveFills config opening checks := by
  have hrest : ∀ rest earlier, checks = earlier ++ rest →
      (runTrace (evaluatePair config)
        (bookAll config opening (liveFills config opening earlier)) rest).map Booking.toFill =
        liveFills config opening rest := by
    intro rest
    induction rest with
    | nil =>
      intro _ _
      rfl
    | cons p rest ih =>
      intro earlier hchecks
      have hp : PairUndisturbed config opening earlier p := h earlier p rest hchecks
      rw [PairUndisturbed] at hp
      have hstate := runState_pairs config
        (bookAll config opening (liveFills config opening earlier)) [p]
      rw [runState_cons, runState_nil, runTrace_cons, runTrace_nil, List.append_nil, hp,
        ← bookAll_append, ← liveFills_append] at hstate
      have hnext := ih (earlier ++ [p]) (by rw [hchecks, List.append_assoc]; rfl)
      rw [runTrace_cons, List.map_append, hp, hstate, hnext, ← liveFills_append]
      rfl
  exact hrest checks [] rfl

/-- The opportunities of a timestamp are the same in two orders. -/
lemma directionsAt_perm (order order' : IterationOrder bars) (ts : ℤ) :
    (directionsAt order ts).Perm (directionsAt order' ts) := by
  rw [List.perm_ext_iff_of_nodup (nodup_directionsAt order ts) (nodup_directionsAt order' ts)]
  intro o
  rw [mem_directionsAt, mem_directionsAt]

variable (config) in
lemma liveFills_perm (opening : ExchangeBalances) (order order' : IterationOrder bars) (ts : ℤ) :
    (liveFills config opening (checksAt order ts)).Perm
      (liveFills config opening (checksAt order' ts)) :=
  (directionsAt_perm order order' ts).filterMap _

lemma quoted_of_mem_liveFills {opening : ExchangeBalances} {order : IterationOrder bars} {ts : ℤ}
    {f : Fill} (hf : f ∈ liveFills config opening (checksAt order ts)) :
    f.opportunity.Quoted bars :=
  (quoted_of_mem_directionsAt (mem_liveFills.mp hf).1).1

/-- All exchanges of the bars have a balance during a run. -/
lemma mem_keys_engineAt (order : IterationOrder bars) (processed : List ℤ) {x : UInt16}
    (hx : x ∈ seenExchanges bars) :
    x ∈ (engineAt config order e processed).exchangeBalances.keys := by
  obtain ⟨os, hquoted, hstate, -⟩ :=
    exists_takes_timestamps config order (splitCapital e bars) processed
  have hsplit : ∀ y ∈ seenExchanges bars, y ∈ (splitCapital e bars).exchangeBalances.keys := by
    intro y hy
    simp [splitCapital, hy]
  rw [engineAt, hstate, runState_takes, keys_bookAll hsplit]
  · exact hsplit x hx
  · intro f hf
    obtain ⟨b, hb, rfl⟩ := List.mem_map.mp hf
    exact quoted_of_mem_runTrace_takes config hquoted hb

lemma engineAt_append_singleton (order : IterationOrder bars) (processed : List ℤ) (ts : ℤ) :
    engineAt config order e (processed ++ [ts]) =
      (processTimestamp config order (engineAt config order e processed) ts).1 := by
  rw [engineAt, runState_append]
  rfl

/-- A timestamp books its trades. -/
lemma balances_append_singleton (order : IterationOrder bars) (before : List ℤ) (ts : ℤ) :
    (engineAt config order e (before ++ [ts])).exchangeBalances =
      bookAll config (engineAt config order e before).exchangeBalances
        ((processTimestamp config order (engineAt config order e before) ts).2.map
          Booking.toFill) := by
  rw [engineAt_append_singleton]
  exact runState_pairs config _ _

/-- A timestamp records its trades. -/
lemma trades_append_singleton (order : IterationOrder bars) (before : List ℤ) (ts : ℤ) :
    (engineAt config order e (before ++ [ts])).trades = (engineAt config order e before).trades ++
      ((processTimestamp config order (engineAt config order e before) ts).2.map
        Booking.toFill).map (Fill.trade config) := by
  rw [engineAt_append_singleton, List.map_map]
  rfl

/-- The trades of an undisturbed timestamp. -/
lemma processTimestamp_of_undisturbed (h : Undisturbed config bars e) (order : IterationOrder bars)
    {before : List ℤ} {ts : ℤ} {after : List ℤ} (hts : timestamps bars = before ++ ts :: after) :
    (processTimestamp config order (engineAt config order e before) ts).2.map Booking.toFill =
      liveFills config (engineAt config order e before).exchangeBalances (checksAt order ts) :=
  trades_of_undisturbed (h order before ts after hts)

/-- Two orders agree after every timestamp. -/
lemma engineAt_agree (h : Undisturbed config bars e) (order order' : IterationOrder bars)
    (processed : List ℤ) : ∀ after, timestamps bars = processed ++ after →
      (engineAt config order e processed).exchangeBalances =
          (engineAt config order' e processed).exchangeBalances ∧
        (engineAt config order e processed).trades.Perm
          (engineAt config order' e processed).trades := by
  induction processed using List.reverseRecOn with
  | nil =>
    intro _ _
    exact ⟨rfl, List.Perm.refl _⟩
  | append_singleton before ts ih =>
    intro after hts
    rw [List.append_assoc, List.singleton_append] at hts
    obtain ⟨hbalances, htrades⟩ := ih (ts :: after) hts
    have hlive := processTimestamp_of_undisturbed h order hts
    have hlive' := processTimestamp_of_undisturbed h order' hts
    rw [← hbalances] at hlive'
    have hperm := liveFills_perm config
      (engineAt config order e before).exchangeBalances order order' ts
    constructor
    · rw [balances_append_singleton, balances_append_singleton, hlive, hlive', ← hbalances]
      exact bookAll_perm (fun x hx => mem_keys_engineAt order before hx)
        (fun f hf => quoted_of_mem_liveFills hf) hperm
    · rw [trades_append_singleton, trades_append_singleton, hlive, hlive']
      exact htrades.append (hperm.map _)

/-- Undisturbed pairs make the result independent of the order. -/
lemma orderIndependent_of_undisturbed (h : Undisturbed config bars e) :
    OrderIndependent config bars e := by
  have hagree := fun order order' =>
    engineAt_agree h order order' (timestamps bars) [] (by rw [List.append_nil])
  refine ⟨fun order order' => (hagree order order').2, fun order order' => (hagree order order').1,
    ?_, ?_⟩
  · rintro order order' ⟨s, result⟩ ⟨s', result'⟩ hrun hrun'
    by_cases hbars : bars = []
    · rw [run_of_isEmpty config order e hbars] at hrun
      rw [run_of_isEmpty config order' e hbars] at hrun'
      obtain ⟨rfl, rfl⟩ := Prod.mk.inj (Option.some.inj (hrun.symm.trans hrun'))
      exact ⟨List.Perm.refl _, rfl⟩
    · obtain ⟨rfl, -, hresult⟩ := run_of_ne_nil config order hbars hrun
      obtain ⟨rfl, -, hresult'⟩ := run_of_ne_nil config order' hbars hrun'
      rw [hresult, hresult']
      exact ⟨(hagree order order').2, (hagree order order').1⟩
  intro order before ts after hts b hb
  have hlive : b.toFill ∈
      liveFills config (engineAt config order e before).exchangeBalances (checksAt order ts) := by
    rw [← processTimestamp_of_undisturbed h order hts]
    exact List.mem_map_of_mem hb
  exact (Opportunity.of_verdict_executed (mem_liveFills.mp hlive).2).1

end Enough

/-! ## A disturbed pair shows in some order -/

section Needed

variable {bars : List PriceBar} {config : BacktestConfig} {e : BacktestEngine}

lemma cons_cons_erase_perm {α : Type*} [DecidableEq α] {l : List α} {a b : α} (ha : a ∈ l)
    (hb : b ∈ l) (hne : a ≠ b) : (a :: b :: (l.erase a).erase b).Perm l := by
  have hb' : b ∈ l.erase a := (List.mem_erase_of_ne hne.symm).mpr hb
  exact ((List.perm_cons_erase hb').symm.cons a).trans (List.perm_cons_erase ha).symm

/-- The order in which a symbol comes first at a timestamp, and two of its exchanges first there. -/
def IterationOrder.startWith (order : IterationOrder bars) {ts : ℤ} {symbol : String}
    {a b : UInt16} (hsymbol : symbol ∈ symbolsAt bars ts) (ha : a ∈ exchangesAt bars ts symbol)
    (hb : b ∈ exchangesAt bars ts symbol) (hne : a ≠ b) : IterationOrder bars where
  symbols := Function.update order.symbols ts (symbol :: (symbolsAt bars ts).erase symbol)
  exchanges := Function.update order.exchanges ts (Function.update (order.exchanges ts) symbol
    (a :: b :: ((exchangesAt bars ts symbol).erase a).erase b))
  symbols_perm := by
    intro ts'
    by_cases hts : ts' = ts
    · subst hts
      rw [Function.update_self]
      exact (List.perm_cons_erase hsymbol).symm
    · rw [Function.update_of_ne hts]
      exact order.symbols_perm ts'
  exchanges_perm := by
    intro ts' symbol'
    by_cases hts : ts' = ts
    · subst hts
      rw [Function.update_self]
      by_cases hsame : symbol' = symbol
      · subst hsame
        rw [Function.update_self]
        exact cons_cons_erase_perm ha hb hne
      · rw [Function.update_of_ne hsame]
        exact order.exchanges_perm ts' symbol'
    · rw [Function.update_of_ne hts]
      exact order.exchanges_perm ts' symbol'

section StartWith

variable (order : IterationOrder bars) {ts : ℤ} {symbol : String} {a b : UInt16}
  (hsymbol : symbol ∈ symbolsAt bars ts) (ha : a ∈ exchangesAt bars ts symbol)
  (hb : b ∈ exchangesAt bars ts symbol) (hne : a ≠ b)

/-- At other timestamps the order is the given one. -/
lemma checksAt_startWith_of_ne {ts' : ℤ} (hts : ts' ≠ ts) :
    checksAt (order.startWith hsymbol ha hb hne) ts' = checksAt order ts' := by
  have hsymbols : (order.startWith hsymbol ha hb hne).symbols ts' = order.symbols ts' :=
    Function.update_of_ne hts _ _
  have hexchanges : (order.startWith hsymbol ha hb hne).exchanges ts' = order.exchanges ts' :=
    Function.update_of_ne hts _ _
  have hchecks : symbolChecks (order.startWith hsymbol ha hb hne) ts' = symbolChecks order ts' := by
    funext symbol'
    rw [symbolChecks, symbolChecks, hexchanges]
  rw [checksAt, checksAt, hsymbols, hchecks]

/-- At its timestamp the pair comes first. -/
lemma exists_checksAt_startWith :
    ∃ rest, checksAt (order.startWith hsymbol ha hb hne) ts =
      ⟨opportunityAt bars ts symbol a b, opportunityAt bars ts symbol b a⟩ :: rest := by
  have hsymbols : (order.startWith hsymbol ha hb hne).symbols ts =
      symbol :: (symbolsAt bars ts).erase symbol := Function.update_self ts _ _
  have hexchanges : (order.startWith hsymbol ha hb hne).exchanges ts symbol =
      a :: b :: ((exchangesAt bars ts symbol).erase a).erase b := by
    simp [IterationOrder.startWith]
  have hmany : ¬ (symbolBars bars ts symbol).length < 2 := by
    have hdedup := (List.dedup_sublist ((symbolBars bars ts symbol).map
      PriceBar.exchangeId)).length_le
    have hlength := (cons_cons_erase_perm ha hb hne).length_eq
    rw [List.length_map] at hdedup
    rw [List.length_cons, List.length_cons, exchangesAt] at hlength
    omega
  rw [checksAt, hsymbols, List.flatMap_cons, symbolChecks, if_neg hmany, hexchanges]
  exact ⟨_, rfl⟩

end StartWith

/-- The timestamps of a run see the order only through their pairs. -/
lemma engineAt_congr {order order' : IterationOrder bars} {processed : List ℤ}
    (h : ∀ ts ∈ processed, checksAt order ts = checksAt order' ts) :
    engineAt config order e processed = engineAt config order' e processed := by
  induction processed using List.reverseRecOn with
  | nil => rfl
  | append_singleton before ts ih =>
    rw [engineAt_append_singleton, engineAt_append_singleton,
      ih fun ts' hts' => h ts' (List.mem_append_left _ hts'), processTimestamp, processTimestamp,
      h ts (by simp)]

/-- A trade of a timestamp is one of its opportunities. -/
lemma mem_directionsAt_of_mem_processTimestamp {order : IterationOrder bars} {s : BacktestEngine}
    {ts : ℤ} {b : Booking} (hb : b ∈ (processTimestamp config order s ts).2) :
    b.opportunity ∈ directionsAt order ts :=
  mem_directions_of_mem_fills (List.mem_map_of_mem (f := Booking.toFill) hb)

lemma nodup_timestamps (bars : List PriceBar) : (timestamps bars).Nodup :=
  (List.perm_insertionSort _ _).nodup_iff.mpr (List.nodup_dedup _)

/-- The trade that a record of a run stands for. -/
def fillOf (bars : List PriceBar) (t : BacktestTrade) : Fill :=
  ⟨opportunityAt bars t.entryTime t.symbol t.buyExchange t.sellExchange, t.qty⟩

lemma fillOf_trade {f : Fill} (hf : f.opportunity.Quoted bars) :
    fillOf bars (f.trade config) = f := by
  obtain ⟨o, qty⟩ := f
  exact congrArg (fun o => Fill.mk o qty) hf.eq.symm

lemma timestamp_mem_of_mem_runTrace {order : IterationOrder bars} {s : BacktestEngine} {l : List ℤ}
    {b : Booking} (hb : b ∈ runTrace (processTimestamp config order) s l) :
    b.opportunity.timestamp ∈ l := by
  obtain ⟨before, ts, after, rfl, hstep⟩ := mem_runTrace_iff.mp hb
  rw [(quoted_of_mem_directionsAt (mem_directionsAt_of_mem_processTimestamp hstep)).2]
  simp

/-- The trades of a run with the time of one timestamp are those the engine had and those of the
timestamp. -/
lemma filter_trades (order : IterationOrder bars) {before : List ℤ} {ts : ℤ} {after : List ℤ}
    (hts : timestamps bars = before ++ ts :: after) :
    (engineAt config order e (timestamps bars)).trades.filter (fun t => t.entryTime = ts) =
      e.trades.filter (fun t => t.entryTime = ts) ++
        (processTimestamp config order (engineAt config order e before) ts).2.map fun b =>
          b.toFill.trade config := by
  have hnodup := nodup_timestamps bars
  rw [hts, List.nodup_middle, List.nodup_cons, List.mem_append, not_or] at hnodup
  obtain ⟨⟨hbefore, hafter⟩, -⟩ := hnodup
  have hother : ∀ l : List ℤ, ts ∉ l → ∀ s : BacktestEngine,
      ((runTrace (processTimestamp config order) s l).map fun b =>
        b.toFill.trade config).filter (fun t => t.entryTime = ts) = [] := by
    intro l hl s
    rw [List.filter_eq_nil_iff]
    rintro t ht
    obtain ⟨b, hb, rfl⟩ := List.mem_map.mp ht
    have hmem := timestamp_mem_of_mem_runTrace hb
    have htime : ¬ b.opportunity.timestamp = ts := fun h => hl (h ▸ hmem)
    exact ne_of_eq_of_ne (decide_eq_false htime) Bool.false_ne_true
  have hown : ((processTimestamp config order (engineAt config order e before) ts).2.map fun b =>
      b.toFill.trade config).filter (fun t => t.entryTime = ts) =
      (processTimestamp config order (engineAt config order e before) ts).2.map fun b =>
        b.toFill.trade config := by
    rw [List.filter_eq_self]
    rintro t ht
    obtain ⟨b, hb, rfl⟩ := List.mem_map.mp ht
    exact decide_eq_true
      (quoted_of_mem_directionsAt (mem_directionsAt_of_mem_processTimestamp hb)).2
  rw [engineAt, trades_timestamps, hts, runTrace_append, runTrace_cons, List.map_append,
    List.map_append, List.filter_append, List.filter_append, List.filter_append,
    hother before hbefore, hother after hafter, List.nil_append, List.append_nil]
  exact congrArg _ hown

/-- When the trades of a run do not depend on the order, those of a timestamp do not. -/
lemma processTimestamp_perm (h : TradesAgree config bars e)
    (order order' : IterationOrder bars) {before : List ℤ} {ts : ℤ} {after : List ℤ}
    (hts : timestamps bars = before ++ ts :: after) :
    ((processTimestamp config order (engineAt config order e before) ts).2.map Booking.toFill).Perm
      ((processTimestamp config order' (engineAt config order' e before) ts).2.map
        Booking.toFill) := by
  have hfill : ∀ o : IterationOrder bars,
      (processTimestamp config o (engineAt config o e before) ts).2.map Booking.toFill =
        ((processTimestamp config o (engineAt config o e before) ts).2.map fun b =>
          b.toFill.trade config).map (fillOf bars) := by
    intro o
    rw [List.map_map]
    apply List.map_congr_left
    intro b hb
    have hquoted := (quoted_of_mem_directionsAt (mem_directionsAt_of_mem_processTimestamp hb)).1
    exact (fillOf_trade (f := b.toFill) hquoted).symm
  have hperm := (h order order').filter fun t => t.entryTime = ts
  rw [filter_trades order hts, filter_trades order' hts, List.perm_append_left_iff] at hperm
  rw [hfill, hfill]
  exact hperm.map _

/-! ### The trades of a pair -/

/-- The first direction of a pair is taken on the balances as they are. -/
lemma mem_pair_first_iff {w : ExchangeBalances} {p : PairCheck} (hne : p.first ≠ p.second)
    {qty : Decimal} :
    ⟨p.first, qty⟩ ∈ (evaluatePair config w p).2.map Booking.toFill ↔
      p.first.verdict config (w.amount p.first.buyExchange) = .executed qty := by
  have hsecond : ∀ w' : ExchangeBalances, (⟨p.first, qty⟩ : Fill) ∉
      (runTrace (takeIfExecuted config) w' [p.second]).map Booking.toFill := by
    intro w' hmem
    obtain ⟨b, hb, hfill⟩ := List.mem_map.mp hmem
    have hopportunity := (takes_sublist w' [p.second]).subset
      (List.mem_map_of_mem (f := fun b : Booking => b.opportunity) hb)
    rw [List.mem_singleton] at hopportunity
    exact hne ((congrArg Fill.opportunity hfill).symm.trans hopportunity)
  rcases evaluatePair_cases config w p with ⟨hcontinued, heq⟩ | ⟨-, heq⟩
  · rw [heq, hcontinued]
    simp
  · rw [heq, PairCheck.directions, runTrace_cons, List.map_append, List.mem_append,
      or_iff_left (hsecond _)]
    rcases takeIfExecuted_cases config w p.first with ⟨q, hverdict, htake⟩ | ⟨hnot, htake⟩
    · rw [htake, hverdict, List.map_singleton, List.mem_singleton, Fill.mk.injEq,
        Opportunity.Verdict.executed.injEq]
      simp [eq_comm]
    · rw [htake]
      simp [hnot]

variable (config) in
/-- A pair makes at most one trade in each direction, in this order. -/
lemma exists_pair_fills (w : ExchangeBalances) (p : PairCheck) :
    ∃ f g : Option Fill, (∀ x ∈ f, x.opportunity = p.first) ∧ (∀ x ∈ g, x.opportunity = p.second) ∧
      (evaluatePair config w p).2.map Booking.toFill = f.toList ++ g.toList := by
  have htake : ∀ (w : ExchangeBalances) (o : Opportunity), ∃ f : Option Fill,
      (∀ x ∈ f, x.opportunity = o) ∧
        (takeIfExecuted config w o).2.map Booking.toFill = f.toList := by
    intro w o
    rcases takeIfExecuted_cases config w o with ⟨qty, -, heq⟩ | ⟨-, heq⟩
    · exact ⟨some ⟨o, qty⟩, by simp, by rw [heq]; rfl⟩
    · exact ⟨none, by simp, by rw [heq]; rfl⟩
  rcases evaluatePair_cases config w p with ⟨-, heq⟩ | ⟨-, heq⟩
  · exact ⟨none, none, by simp, by simp, by rw [heq]; rfl⟩
  · obtain ⟨f, hf, hfirst⟩ := htake w p.first
    obtain ⟨g, hg, hsecond⟩ := htake (takeIfExecuted config w p.first).1 p.second
    refine ⟨f, g, hf, hg, ?_⟩
    rw [heq, ← hfirst, ← hsecond, ← List.map_append]
    simp [PairCheck.directions]

lemma liveFills_singleton (opening : ExchangeBalances) (p : PairCheck) :
    liveFills config opening [p] =
      (p.first.taken config opening).toList ++ (p.second.taken config opening).toList := by
  cases hfirst : p.first.taken config opening <;> cases hsecond : p.second.taken config opening <;>
    simp [liveFills, PairCheck.directions, hfirst, hsecond]

/-- Trades in two directions are given by which trades they are. -/
lemma toList_append_eq {o o' : Opportunity} (hne : o ≠ o') {f g f' g' : Option Fill}
    (hf : ∀ x ∈ f, x.opportunity = o) (hg : ∀ x ∈ g, x.opportunity = o')
    (hf' : ∀ x ∈ f', x.opportunity = o) (hg' : ∀ x ∈ g', x.opportunity = o')
    (h : ∀ x, x ∈ f.toList ++ g.toList ↔ x ∈ f'.toList ++ g'.toList) :
    f.toList ++ g.toList = f'.toList ++ g'.toList := by
  simp only [List.mem_append, Option.mem_toList] at h
  have hfirst : f = f' := by
    ext x
    constructor
    · intro hx
      exact ((h x).mp (Or.inl hx)).resolve_right fun hx' => hne ((hf x hx).symm.trans (hg' x hx'))
    · intro hx
      exact ((h x).mpr (Or.inl hx)).resolve_right fun hx' => hne ((hf' x hx).symm.trans (hg x hx'))
  have hsecond : g = g' := by
    ext x
    constructor
    · intro hx
      exact ((h x).mp (Or.inr hx)).resolve_left fun hx' => hne ((hf' x hx').symm.trans (hg x hx))
    · intro hx
      exact ((h x).mpr (Or.inr hx)).resolve_left fun hx' => hne ((hf x hx').symm.trans (hg' x hx))
  rw [hfirst, hsecond]

/-- A pair that makes its live trades, and no others, makes them in order. -/
lemma pair_fills_eq {w opening : ExchangeBalances} {p : PairCheck} (hne : p.first ≠ p.second)
    (h : ∀ f, f ∈ (evaluatePair config w p).2.map Booking.toFill ↔
      f ∈ liveFills config opening [p]) :
    (evaluatePair config w p).2.map Booking.toFill = liveFills config opening [p] := by
  obtain ⟨f, g, hf, hg, heq⟩ := exists_pair_fills config w p
  rw [liveFills_singleton, heq] at h ⊢
  exact toList_append_eq hne hf hg (fun x hx => (taken_eq_some.mp hx).1)
    (fun x hx => (taken_eq_some.mp hx).1) h

/-! ### From the trades of a timestamp to its pairs -/

/-- When the result does not depend on the order, the trades of a timestamp are the live ones. -/
lemma mem_processTimestamp_iff (h : TradesAgree config bars e)
    (order : IterationOrder bars) {before : List ℤ} {ts : ℤ} {after : List ℤ}
    (hts : timestamps bars = before ++ ts :: after) {f : Fill}
    (hf : f.opportunity ∈ directionsAt order ts) :
    f ∈ (processTimestamp config order (engineAt config order e before) ts).2.map Booking.toFill ↔
      f.opportunity.verdict config ((engineAt config order e before).exchangeBalances.amount
        f.opportunity.buyExchange) = .executed f.qty := by
  obtain ⟨o, qty⟩ := f
  obtain ⟨symbol, hsymbol, a, ha, b, hb, hab, rfl⟩ := (mem_directionsAt order).mp hf
  obtain ⟨rest, hfirst⟩ := exists_checksAt_startWith order hsymbol ha hb hab
  have hnodup := nodup_timestamps bars
  rw [hts, List.nodup_middle, List.nodup_cons, List.mem_append, not_or] at hnodup
  have hengine : engineAt config (order.startWith hsymbol ha hb hab) e before =
      engineAt config order e before := by
    apply engineAt_congr
    intro ts' hts'
    exact checksAt_startWith_of_ne order hsymbol ha hb hab fun heq => hnodup.1.1 (heq ▸ hts')
  -- the direction comes first in the other order, where it meets the opening balances
  rw [(processTimestamp_perm h order (order.startWith hsymbol ha hb hab) hts).mem_iff, hengine]
  have hdirections := nodup_directionsAt (order.startWith hsymbol ha hb hab) ts
  rw [directionsAt, hfirst, List.flatMap_cons, PairCheck.directions] at hdirections
  have hne : opportunityAt bars ts symbol a b ≠ opportunityAt bars ts symbol b a := by
    intro heq
    exact hab (congrArg Opportunity.buyExchange heq)
  have hrest : ∀ w : ExchangeBalances, (⟨opportunityAt bars ts symbol a b, qty⟩ : Fill) ∉
      (runTrace (evaluatePair config) w rest).map Booking.toFill := by
    intro w hmem
    exact (List.nodup_cons.mp hdirections).1
      (List.mem_cons_of_mem _ (mem_directions_of_mem_fills hmem))
  rw [processTimestamp, hfirst]
  dsimp only
  rw [runTrace_cons, List.map_append, List.mem_append, or_iff_left (hrest _)]
  exact mem_pair_first_iff hne

/-- When no direction comes twice, the trades in the directions of a pair are made by the pair. -/
lemma mem_pair_fills_iff {w : ExchangeBalances} {earlier later : List PairCheck} {p : PairCheck}
    (hnodup : ((earlier ++ p :: later).flatMap PairCheck.directions).Nodup) {f : Fill} :
    f ∈ (evaluatePair config (runState (evaluatePair config) w earlier) p).2.map Booking.toFill ↔
      f.opportunity ∈ p.directions ∧
        f ∈ (runTrace (evaluatePair config) w (earlier ++ p :: later)).map Booking.toFill := by
  rw [List.flatMap_append, List.flatMap_cons] at hnodup
  obtain ⟨-, hnodup', hearlier⟩ := List.nodup_append'.mp hnodup
  obtain ⟨-, -, hlater⟩ := List.nodup_append'.mp hnodup'
  rw [runTrace_append, runTrace_cons, List.map_append, List.map_append, List.mem_append,
    List.mem_append]
  constructor
  · intro hmem
    have hpair : f ∈ (runTrace (evaluatePair config)
        (runState (evaluatePair config) w earlier) [p]).map Booking.toFill := by
      rwa [runTrace_cons, runTrace_nil, List.append_nil]
    have hf := mem_directions_of_mem_fills hpair
    rw [List.flatMap_singleton] at hf
    exact ⟨hf, Or.inr (Or.inl hmem)⟩
  · rintro ⟨hf, hmem | hmem | hmem⟩
    · exact absurd (List.mem_append_left _ hf) (hearlier (mem_directions_of_mem_fills hmem))
    · exact hmem
    · exact absurd (mem_directions_of_mem_fills hmem) (hlater hf)

/-- When the result does not depend on the order, a pair makes its live trades. -/
lemma pair_fills_of_perm (h : TradesAgree config bars e)
    (order : IterationOrder bars) {before : List ℤ} {ts : ℤ} {after : List ℤ}
    (hts : timestamps bars = before ++ ts :: after) {earlier later : List PairCheck} {p : PairCheck}
    (hchecks : checksAt order ts = earlier ++ p :: later) :
    (evaluatePair config (runState (evaluatePair config)
        (engineAt config order e before).exchangeBalances earlier) p).2.map Booking.toFill =
      liveFills config (engineAt config order e before).exchangeBalances [p] := by
  have hnodup := nodup_directionsAt order ts
  rw [directionsAt, hchecks] at hnodup
  have hsubset : ∀ o ∈ p.directions, o ∈ directionsAt order ts := by
    intro o ho
    rw [directionsAt, hchecks]
    exact List.mem_flatMap.mpr ⟨p, by simp, ho⟩
  have htrace : (processTimestamp config order (engineAt config order e before) ts).2 =
      runTrace (evaluatePair config) (engineAt config order e before).exchangeBalances
        (earlier ++ p :: later) := by
    rw [processTimestamp, hchecks]
  have hne : p.first ≠ p.second := by
    intro heq
    simp [PairCheck.directions, heq, List.nodup_append'] at hnodup
  apply pair_fills_eq hne
  intro f
  rw [mem_pair_fills_iff hnodup, mem_liveFills, List.flatMap_singleton, ← htrace]
  refine and_congr_right fun hf => ?_
  exact mem_processTimestamp_iff h order hts (hsubset _ hf)

/-- Pairs that make their live trades leave the opening balances with these trades. -/
lemma runState_of_live {opening : ExchangeBalances} {checks : List PairCheck}
    (h : ∀ earlier p later, checks = earlier ++ p :: later →
      (evaluatePair config (runState (evaluatePair config) opening earlier) p).2.map
        Booking.toFill = liveFills config opening [p])
    (earlier : List PairCheck) : ∀ later, checks = earlier ++ later →
      runState (evaluatePair config) opening earlier =
        bookAll config opening (liveFills config opening earlier) := by
  have htrace : ∀ later, checks = earlier ++ later →
      (runTrace (evaluatePair config) opening earlier).map Booking.toFill =
        liveFills config opening earlier := by
    induction earlier using List.reverseRecOn with
    | nil =>
      intro _ _
      rfl
    | append_singleton earlier p ih =>
      intro later hchecks
      rw [List.append_assoc, List.singleton_append] at hchecks
      rw [runTrace_append, runTrace_cons, runTrace_nil, List.append_nil, List.map_append,
        ih (p :: later) hchecks, h earlier p later hchecks, ← liveFills_append]
  intro later hchecks
  rw [runState_pairs, htrace later hchecks]

/-- A result that does not depend on the order has no disturbed pair. -/
lemma undisturbed_of_orderIndependent (h : OrderIndependent config bars e) :
    Undisturbed config bars e := by
  intro order before ts after hts earlier p later hchecks
  have hlive := fun earlier p later (hsplit : checksAt order ts = earlier ++ p :: later) =>
    pair_fills_of_perm h.trades order hts hsplit
  have hstate := runState_of_live hlive earlier (p :: later) hchecks
  rw [PairUndisturbed, ← hstate]
  exact hlive earlier p later hchecks

end Needed

/-- The listed order with the exchanges of every symbol backwards. -/
def IterationOrder.backwards (bars : List PriceBar) : IterationOrder bars :=
  { IterationOrder.listed bars with
    exchanges := fun ts symbol => (exchangesAt bars ts symbol).reverse
    exchanges_perm := fun ts symbol => List.reverse_perm (exchangesAt bars ts symbol) }

/-- A cheap exchange and two dear ones at the first of two timestamps. -/
def sharedBuyerBars : List PriceBar :=
  [testBar 1 0 99 100, testBar 1 1 110 200, testBar 1 2 120 200, testBar 2 0 99 100,
    testBar 2 1 99 100]

end Backtest

end HftArb
