import HftArb.Feeds.OrderBook

/-!
# Walks through the depth of a book

Three loops walk through the levels of a side from the best price on.  `calculateSlippageBuy` spends
an amount of quote currency on the asks, `calculateSlippageSell` sells a quantity to the bids, and
`getDepthValue` takes levels of either side up to a notional.  They stop on different comparisons.

`Fills levels quantity notional` says what a market order is: the first levels give the quantity for
the notional.  Each of the three loops computes this relation when prices and quantities are
positive, and so the average prices of the two engines agree (`depth_engines_agree`).
-/

namespace HftArb

/-- A side of a book. -/
inductive Side
  | bid
  | ask
  deriving DecidableEq

/-- A level of the depth. -/
structure DepthLevel where
  price : Decimal
  quantity : Decimal
  deriving DecidableEq

/-- The depth of a market: asks ascending and bids descending. -/
structure MarketDepth where
  asks : List DepthLevel
  bids : List DepthLevel

/-- Why a walk through the depth fails. -/
inductive DepthError
  | spendNotPositive
  | emptyAsks
  | zeroAskDepth
  | insufficientAsks (totalDepth unfilled : Decimal)
  | quantityNotPositive
  | emptyBids
  | zeroBidDepth
  | insufficientBids (totalDepth unfilled : Decimal)
  | acquiredZero
  | zeroQuantity
  deriving DecidableEq

/-- The text of an error, given how a decimal is printed with a number of places. -/
def DepthError.message (fmt : ℕ → Decimal → String) : DepthError → String
  | .spendNotPositive => "Spend amount must be positive"
  | .emptyAsks => "Empty ask depth — cannot calculate VWAP"
  | .zeroAskDepth => "Total ask depth is zero — cannot calculate VWAP"
  | .insufficientAsks totalDepth unfilled =>
    "Insufficient ask depth: total available $" ++ fmt 2 totalDepth ++ ", unfilled $" ++
      fmt 2 unfilled
  | .quantityNotPositive => "Asset quantity must be positive"
  | .emptyBids => "Empty bid depth — cannot calculate VWAP"
  | .zeroBidDepth => "Total bid depth is zero — cannot calculate VWAP"
  | .insufficientBids totalDepth unfilled =>
    "Insufficient bid depth: total available " ++ fmt 8 totalDepth ++ " units, unfilled " ++
      fmt 8 unfilled
  | .acquiredZero => "Acquired zero quantity — cannot compute VWAP"
  | .zeroQuantity => "Zero quantity — cannot compute VWAP"

/-! ## What a market order takes -/

/-- The first levels give the quantity for the notional, the last of them perhaps in part. -/
inductive Fills : List DepthLevel → Decimal → Decimal → Prop
  | within {level : DepthLevel} {levels : List DepthLevel} {quantity : Decimal} :
      0 < quantity → quantity ≤ level.quantity →
      Fills (level :: levels) quantity (quantity * level.price)
  | beyond {level : DepthLevel} {levels : List DepthLevel} {quantity notional : Decimal} :
      Fills levels quantity notional →
      Fills (level :: levels) (level.quantity + quantity)
        (level.quantity * level.price + notional)

/-- Every level has a positive price and a positive quantity. -/
def PositiveLevels (levels : List DepthLevel) : Prop :=
  ∀ level ∈ levels, 0 < level.price ∧ 0 < level.quantity

/-- The value of all levels. -/
def totalNotional (levels : List DepthLevel) : Decimal :=
  (levels.map fun level => level.price * level.quantity).sum

/-- Every level has a positive price. -/
def PositivePrices (levels : List DepthLevel) : Prop :=
  ∀ level ∈ levels, 0 < level.price

instance (levels : List DepthLevel) : Decidable (PositivePrices levels) :=
  List.decidableBAll (fun level : DepthLevel => 0 < level.price) levels

lemma PositiveLevels.prices {levels : List DepthLevel} (h : PositiveLevels levels) :
    PositivePrices levels :=
  fun level hlevel => (h level hlevel).1

lemma PositivePrices.tail {level : DepthLevel} {levels : List DepthLevel}
    (h : PositivePrices (level :: levels)) : PositivePrices levels :=
  fun l hl => h l (List.mem_cons_of_mem level hl)

lemma PositiveLevels.tail {level : DepthLevel} {levels : List DepthLevel}
    (h : PositiveLevels (level :: levels)) : PositiveLevels levels :=
  fun l hl => h l (List.mem_cons_of_mem level hl)

/-- What is taken is positive, in quantity and in value. -/
lemma Fills.pos {levels : List DepthLevel} {quantity notional : Decimal}
    (h : Fills levels quantity notional) (hpos : PositiveLevels levels) :
    0 < quantity ∧ 0 < notional := by
  induction h with
  | within hq hle =>
    obtain ⟨hprice, -⟩ := hpos _ List.mem_cons_self
    exact ⟨hq, mul_pos hq hprice⟩
  | beyond _ ih =>
    obtain ⟨hprice, hquantity⟩ := hpos _ List.mem_cons_self
    obtain ⟨hq, hn⟩ := ih hpos.tail
    exact ⟨add_pos hquantity hq, add_pos (mul_pos hquantity hprice) hn⟩

/-! ## The walk that spends an amount -/

/-- The loop over the asks, on the quantity acquired and the spend that is left. -/
def slippageBuyLoop : List DepthLevel → Decimal → Decimal → Decimal × Decimal
  | [], totalAcquired, spendAllocated => (totalAcquired, spendAllocated)
  | level :: levels, totalAcquired, spendAllocated =>
    if level.price ≤ 0 then slippageBuyLoop levels totalAcquired spendAllocated
    else if spendAllocated ≤ level.price * level.quantity then
      (totalAcquired + spendAllocated / level.price, 0)
    else
      slippageBuyLoop levels (totalAcquired + level.quantity)
        (spendAllocated - level.price * level.quantity)

/-- The quantity that an amount buys. -/
def calculateSlippageBuy (depth : MarketDepth) (spendAllocated : Decimal) :
    Except DepthError Decimal :=
  if spendAllocated ≤ 0 then .error .spendNotPositive
  else if depth.asks = [] then .error .emptyAsks
  else
    let totalDepth := (depth.asks.map DepthLevel.quantity).sum
    if totalDepth ≤ 0 then .error .zeroAskDepth
    else
      let walk := slippageBuyLoop depth.asks 0 spendAllocated
      if 0 < walk.2 then .error (.insufficientAsks totalDepth walk.2) else .ok walk.1

/-- The average price at which an amount buys. -/
def calculateVwapBuy (depth : MarketDepth) (spendAmount : Decimal) : Except DepthError Decimal := do
  let totalAcquired ← calculateSlippageBuy depth spendAmount
  if totalAcquired ≤ 0 then .error .acquiredZero else .ok (spendAmount / totalAcquired)

/-- A spend is left exactly when it is above the value of the levels. -/
lemma slippageBuyLoop_unfilled {levels : List DepthLevel} (hpos : PositiveLevels levels)
    (acquired spend : Decimal) (hspend : 0 < spend) :
    0 < (slippageBuyLoop levels acquired spend).2 ↔ totalNotional levels < spend := by
  induction levels generalizing acquired spend with
  | nil => simp [slippageBuyLoop, totalNotional]
  | cons level levels ih =>
    obtain ⟨hprice, -⟩ := hpos _ List.mem_cons_self
    have hrest : 0 ≤ totalNotional levels := by
      refine List.sum_nonneg fun value hvalue => ?_
      obtain ⟨l, hl, rfl⟩ := List.mem_map.mp hvalue
      obtain ⟨hp, hq⟩ := hpos.tail l hl
      exact (mul_pos hp hq).le
    have htotal : totalNotional (level :: levels) =
        level.price * level.quantity + totalNotional levels := by
      simp [totalNotional]
    rw [slippageBuyLoop, if_neg (not_le.mpr hprice), htotal]
    split_ifs with hpart
    · exact iff_of_false (lt_irrefl 0) (by linarith)
    · rw [ih hpos.tail _ _ (by linarith)]
      constructor <;> intro h <;> linarith

/-- When the whole spend is used up, the levels give what was acquired for it. -/
lemma fills_of_slippageBuyLoop {levels : List DepthLevel} (hpos : PositivePrices levels)
    (acquired spend : Decimal) (hspend : 0 < spend)
    (hall : ¬ 0 < (slippageBuyLoop levels acquired spend).2) :
    Fills levels ((slippageBuyLoop levels acquired spend).1 - acquired) spend := by
  induction levels generalizing acquired spend with
  | nil => exact absurd hspend hall
  | cons level levels ih =>
    have hprice := hpos _ List.mem_cons_self
    rw [slippageBuyLoop, if_neg (not_le.mpr hprice)] at hall ⊢
    split_ifs at hall ⊢ with hpart
    · have hquantity : spend / level.price ≤ level.quantity := by
        rw [div_le_iff₀ hprice]
        linarith
      have hfill : Fills (level :: levels) _ _ := Fills.within (div_pos hspend hprice) hquantity
      rw [div_mul_cancel₀ spend hprice.ne'] at hfill
      rwa [add_sub_cancel_left]
    · have hfill : Fills (level :: levels) _ _ :=
        Fills.beyond (ih hpos.tail (acquired + level.quantity) _ (by linarith) hall)
      convert hfill using 1 <;> ring

/-! ## The walk that sells a quantity -/

/-- The loop over the bids, on the amount received and the quantity that is left. -/
def slippageSellLoop : List DepthLevel → Decimal → Decimal → Decimal × Decimal
  | [], totalReceived, assetQuantity => (totalReceived, assetQuantity)
  | level :: levels, totalReceived, assetQuantity =>
    if level.price ≤ 0 then slippageSellLoop levels totalReceived assetQuantity
    else if assetQuantity ≤ level.quantity then (totalReceived + assetQuantity * level.price, 0)
    else
      slippageSellLoop levels (totalReceived + level.quantity * level.price)
        (assetQuantity - level.quantity)

/-- The amount that a quantity brings. -/
def calculateSlippageSell (depth : MarketDepth) (assetQuantity : Decimal) :
    Except DepthError Decimal :=
  if assetQuantity ≤ 0 then .error .quantityNotPositive
  else if depth.bids = [] then .error .emptyBids
  else
    let totalDepth := (depth.bids.map DepthLevel.quantity).sum
    if totalDepth ≤ 0 then .error .zeroBidDepth
    else
      let walk := slippageSellLoop depth.bids 0 assetQuantity
      if 0 < walk.2 then .error (.insufficientBids totalDepth walk.2) else .ok walk.1

/-- The average price at which a quantity is sold. -/
def calculateVwapSell (depth : MarketDepth) (assetQuantity : Decimal) :
    Except DepthError Decimal := do
  let totalReceived ← calculateSlippageSell depth assetQuantity
  if assetQuantity ≤ 0 then .error .zeroQuantity else .ok (totalReceived / assetQuantity)

/-- When the whole quantity is sold, the levels take it for what was received. -/
lemma fills_of_slippageSellLoop {levels : List DepthLevel} (hpos : PositivePrices levels)
    (received quantity : Decimal) (hquantity : 0 < quantity)
    (hall : ¬ 0 < (slippageSellLoop levels received quantity).2) :
    Fills levels quantity ((slippageSellLoop levels received quantity).1 - received) := by
  induction levels generalizing received quantity with
  | nil => exact absurd hquantity hall
  | cons level levels ih =>
    have hprice := hpos _ List.mem_cons_self
    rw [slippageSellLoop, if_neg (not_le.mpr hprice)] at hall ⊢
    split_ifs at hall ⊢ with hpart
    · rw [add_sub_cancel_left]
      exact Fills.within hquantity hpart
    · have hfill : Fills (level :: levels) _ _ :=
        Fills.beyond (ih hpos.tail (received + level.quantity * level.price) _ (by linarith) hall)
      convert hfill using 1 <;> ring

/-! ## The walk up to a notional -/

/-- The loop over the levels of a side, on the value and the quantity taken so far. -/
def depthValueLoop (maxUsd : Decimal) : List (Decimal × Decimal) → Decimal → Decimal →
    Decimal × Decimal
  | [], cumUsd, cumQty => (cumUsd, cumQty)
  | (price, qty) :: levels, cumUsd, cumQty =>
    if price ≤ 0 then depthValueLoop maxUsd levels cumUsd cumQty
    else
      let levelUsd := qty * price
      let remaining := maxUsd - cumUsd
      if remaining ≤ 0 then (cumUsd, cumQty)
      else
        let fillUsd := if levelUsd ≤ remaining then levelUsd else remaining
        depthValueLoop maxUsd levels (cumUsd + fillUsd) (cumQty + fillUsd / price)

/-- The levels of a side, the best price first. -/
def OrderBook.sideLevels (book : OrderBook) : Side → List (Decimal × Decimal)
  | .bid => book.bids.entries.reverse
  | .ask => book.asks.entries

/-- The average price of the levels of a side up to a notional. -/
def getDepthValue (book : OrderBook) (side : Side) (maxUsd : Decimal) : Decimal :=
  if maxUsd ≤ 0 then 0
  else
    let walk := depthValueLoop maxUsd (book.sideLevels side) 0 0
    if 0 < walk.2 then walk.1 / walk.2 else 0

/-- A price with its quantity, as a level of the depth. -/
def DepthLevel.ofEntry (entry : Decimal × Decimal) : DepthLevel := ⟨entry.1, entry.2⟩

/-- The depth of a book: the asks in ascending and the bids in descending order. -/
def OrderBook.depth (book : OrderBook) : MarketDepth where
  asks := book.asks.entries.map DepthLevel.ofEntry
  bids := book.bids.entries.reverse.map DepthLevel.ofEntry

/-- Every price and every quantity of the book is positive. -/
def OrderBook.Positive (book : OrderBook) : Prop :=
  (∀ entry ∈ book.asks.entries, 0 < entry.1 ∧ 0 < entry.2) ∧
    ∀ entry ∈ book.bids.entries, 0 < entry.1 ∧ 0 < entry.2

instance (book : OrderBook) : Decidable book.Positive :=
  inferInstanceAs (Decidable (_ ∧ _))

/-- Once the notional is reached, the walk takes nothing more. -/
lemma depthValueLoop_done (maxUsd cumQty : Decimal) (entries : List (Decimal × Decimal)) :
    depthValueLoop maxUsd entries maxUsd cumQty = (maxUsd, cumQty) := by
  induction entries with
  | nil => rfl
  | cons entry entries ih =>
    simp only [depthValueLoop, sub_self, le_refl, if_true, ih, ite_self]

/-- While something remains, a level gives its value or what remains, whichever is less. -/
lemma depthValueLoop_cons {maxUsd cumUsd price : Decimal} (hprice : 0 < price)
    (hremaining : 0 < maxUsd - cumUsd) (qty cumQty : Decimal)
    (entries : List (Decimal × Decimal)) :
    depthValueLoop maxUsd ((price, qty) :: entries) cumUsd cumQty =
      depthValueLoop maxUsd entries (cumUsd + min (qty * price) (maxUsd - cumUsd))
        (cumQty + min (qty * price) (maxUsd - cumUsd) / price) := by
  simp only [depthValueLoop, if_neg (not_le.mpr hprice), if_neg (not_le.mpr hremaining), min_def]

/-- The walk up to the notional of a market order takes the quantity of the order. -/
lemma depthValueLoop_of_fills {entries : List (Decimal × Decimal)} {quantity notional : Decimal}
    (hfill : Fills (entries.map DepthLevel.ofEntry) quantity notional)
    (hpos : PositiveLevels (entries.map DepthLevel.ofEntry)) (cumUsd cumQty : Decimal) :
    depthValueLoop (cumUsd + notional) entries cumUsd cumQty =
      (cumUsd + notional, cumQty + quantity) := by
  induction entries generalizing quantity notional cumUsd cumQty with
  | nil => cases hfill
  | cons entry entries ih =>
    obtain ⟨price, qty⟩ := entry
    obtain ⟨hprice, hqty⟩ : 0 < price ∧ 0 < qty := hpos ⟨price, qty⟩ List.mem_cons_self
    have hremaining : cumUsd + notional - cumUsd = notional := by ring
    rw [depthValueLoop_cons hprice (by rw [hremaining]; exact (hfill.pos hpos).2), hremaining]
    cases hfill with
    | within hq hle =>
      -- The order ends in this level, perhaps with the whole of it.
      have hvalue : min (qty * price) (quantity * price) = quantity * price :=
        min_eq_right (mul_le_mul_of_nonneg_right hle hprice.le)
      change depthValueLoop _ _ (cumUsd + min (qty * price) (quantity * price))
        (cumQty + min (qty * price) (quantity * price) / price) = _
      rw [hvalue, mul_div_cancel_right₀ quantity hprice.ne']
      exact depthValueLoop_done _ _ _
    | @beyond _ _ q n hrest =>
      have hvalue : min (qty * price) (qty * price + n) = qty * price :=
        min_eq_left (le_add_of_nonneg_right (hrest.pos hpos.tail).2.le)
      change depthValueLoop _ _ (cumUsd + min (qty * price) (qty * price + n))
        (cumQty + min (qty * price) (qty * price + n) / price) = _
      rw [hvalue, mul_div_cancel_right₀ qty hprice.ne']
      have hstep := ih hrest hpos.tail (cumUsd + qty * price) (cumQty + qty)
      rwa [add_assoc, add_assoc] at hstep

/-! ## The two engines -/

/-- What a successful walk over the asks takes. -/
lemma fills_of_calculateSlippageBuy {depth : MarketDepth} (hpos : PositivePrices depth.asks)
    {spend acquired : Decimal} (h : calculateSlippageBuy depth spend = .ok acquired) :
    Fills depth.asks acquired spend := by
  unfold calculateSlippageBuy at h
  simp only at h
  split_ifs at h with hspend _ _ hleft
  cases h
  have hfill := fills_of_slippageBuyLoop hpos 0 spend (not_le.mp hspend) hleft
  rwa [sub_zero] at hfill

/-- What a successful walk over the bids takes. -/
lemma fills_of_calculateSlippageSell {depth : MarketDepth} (hpos : PositivePrices depth.bids)
    {quantity received : Decimal} (h : calculateSlippageSell depth quantity = .ok received) :
    Fills depth.bids quantity received := by
  unfold calculateSlippageSell at h
  simp only at h
  split_ifs at h with hquantity _ _ hleft
  cases h
  have hfill := fills_of_slippageSellLoop hpos 0 quantity (not_le.mp hquantity) hleft
  rwa [sub_zero] at hfill

/-- Spending fails exactly when the asks are worth less than the spend. -/
lemma calculateSlippageBuy_error_iff {depth : MarketDepth} (hpos : PositiveLevels depth.asks)
    {spend : Decimal} (hspend : 0 < spend) :
    (∃ error, calculateSlippageBuy depth spend = .error error) ↔
      totalNotional depth.asks < spend := by
  have hzero : (depth.asks.map DepthLevel.quantity).sum ≤ 0 → depth.asks = [] := by
    intro hsum
    by_contra hne
    obtain ⟨level, hlevel⟩ := List.exists_mem_of_ne_nil _ hne
    have hle : level.quantity ≤ (depth.asks.map DepthLevel.quantity).sum := by
      refine List.single_le_sum ?_ _ (List.mem_map_of_mem hlevel)
      intro quantity hquantity
      obtain ⟨l, hl, rfl⟩ := List.mem_map.mp hquantity
      exact (hpos l hl).2.le
    exact absurd (hle.trans hsum) (not_le.mpr (hpos level hlevel).2)
  rw [← slippageBuyLoop_unfilled hpos 0 spend hspend]
  unfold calculateSlippageBuy
  simp only [if_neg (not_le.mpr hspend)]
  split_ifs with hempty hdepth hleft
  · simp [hempty, slippageBuyLoop, hspend]
  · exact absurd (hzero hdepth) hempty
  · simp [hleft]
  · simp [hleft]

/-- The average price up to the notional of a market order is that of the order. -/
lemma getDepthValue_of_fills {book : OrderBook} {side : Side} {quantity notional : Decimal}
    (hpos : PositiveLevels ((book.sideLevels side).map DepthLevel.ofEntry))
    (hfill : Fills ((book.sideLevels side).map DepthLevel.ofEntry) quantity notional) :
    getDepthValue book side notional = notional / quantity := by
  obtain ⟨hquantity, hnotional⟩ := hfill.pos hpos
  have hwalk := depthValueLoop_of_fills hfill hpos 0 0
  rw [zero_add, zero_add] at hwalk
  simp only [getDepthValue, if_neg (not_le.mpr hnotional), hwalk, if_pos hquantity]

/-- The levels of a positive book are positive. -/
lemma OrderBook.Positive.levels {book : OrderBook} (h : book.Positive) (side : Side) :
    PositiveLevels ((book.sideLevels side).map DepthLevel.ofEntry) := by
  intro level hlevel
  obtain ⟨entry, hentry, rfl⟩ := List.mem_map.mp hlevel
  cases side with
  | bid => exact h.2 entry (List.mem_reverse.mp hentry)
  | ask => exact h.1 entry hentry

/-- The two engines agree on every book with positive prices and quantities.  The average price of a
spend is the depth value at this notional; the average price of a sale is the depth value at its
proceeds; and a spend fails exactly when the asks are worth less. -/
theorem depth_engines_agree (book : OrderBook) (hbook : book.Positive) :
    (∀ s v : Decimal, 0 < s → calculateVwapBuy book.depth s = .ok v →
        getDepthValue book .ask s = v) ∧
      (∀ q r : Decimal, 0 < q → calculateSlippageSell book.depth q = .ok r → 0 < r →
        getDepthValue book .bid r = r / q ∧ calculateVwapSell book.depth q = .ok (r / q)) ∧
      ∀ s : Decimal, 0 < s →
        ((∃ error, calculateSlippageBuy book.depth s = .error error) ↔
          totalNotional book.depth.asks < s) := by
  refine ⟨?_, ?_, ?_⟩
  · intro s v _ hv
    unfold calculateVwapBuy at hv
    cases hbuy : calculateSlippageBuy book.depth s with
    | error error =>
      rw [hbuy] at hv
      cases hv
    | ok acquired =>
      have hfill := fills_of_calculateSlippageBuy (hbook.levels .ask).prices hbuy
      have hacquired := (hfill.pos (hbook.levels .ask)).1
      rw [hbuy] at hv
      change (if acquired ≤ 0 then _ else Except.ok (s / acquired)) = _ at hv
      rw [if_neg (not_le.mpr hacquired)] at hv
      cases hv
      exact getDepthValue_of_fills (hbook.levels .ask) hfill
  · intro q r hq hsell _
    have hfill := fills_of_calculateSlippageSell (hbook.levels .bid).prices hsell
    refine ⟨getDepthValue_of_fills (hbook.levels .bid) hfill, ?_⟩
    unfold calculateVwapSell
    rw [hsell]
    exact if_neg (not_le.mpr hq)
  · intro s hs
    exact calculateSlippageBuy_error_iff (hbook.levels .ask) hs

/-- A book with two levels on each side. -/
def twoLevelBook : OrderBook where
  bids := (OrderedMap.empty.insert 100 1).insert 99 2
  asks := (OrderedMap.empty.insert 101 1).insert 102 2
  lastUpdateId := 1
  lastUpdateNs := 0

/-- On a book with two levels on each side, spending 203 ends inside the second ask, selling 2 ends
inside the second bid, and 305 is all that the asks are worth. -/
theorem depth_engines_agree_twoLevelBook :
    getDepthValue twoLevelBook .ask 203 = 203 / 2 ∧ getDepthValue twoLevelBook .bid 199 = 199 / 2 ∧
      ((∃ error, calculateSlippageBuy twoLevelBook.depth 306 = .error error) ↔
        totalNotional twoLevelBook.depth.asks < 306) := by
  have hpositive : twoLevelBook.Positive := by decide +kernel
  obtain ⟨hbuy, hsell, herror⟩ := depth_engines_agree twoLevelBook hpositive
  exact ⟨hbuy 203 _ (by norm_num) (by decide +kernel),
    (hsell 2 199 (by norm_num) (by decide +kernel) (by norm_num)).1, herror 306 (by norm_num)⟩

end HftArb
