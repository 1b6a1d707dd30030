import HftArb.Feeds.MarketDepth

/-!
# Average prices of a walk

What a market order pays, seen as a function of its size.  The levels of a side are ranked from the
best price outwards, so that a larger order has the worse average; `Fills.average_le` is this fact
for ascending prices, and descending prices are ascending ones with the sign changed.

Three results rest on it or on its ingredients: the depth value of a side is a bounded and monotone
average (`getDepthValue_average`), and buying through the asks what is then sold through the bids
brings no profit (`roundTrip_le`).
-/

namespace HftArb

/-- No level has a negative quantity. -/
def NonnegQuantities (levels : List DepthLevel) : Prop :=
  ∀ level ∈ levels, 0 ≤ level.quantity

instance (levels : List DepthLevel) : Decidable (NonnegQuantities levels) :=
  List.decidableBAll (fun level : DepthLevel => 0 ≤ level.quantity) levels

/-- The quantity of all levels. -/
def totalQuantity (levels : List DepthLevel) : Decimal :=
  (levels.map DepthLevel.quantity).sum

/-- The prices do not fall along the levels. -/
def AscendingPrices (levels : List DepthLevel) : Prop :=
  levels.Pairwise fun l l' => l.price ≤ l'.price

lemma PositiveLevels.nonneg {levels : List DepthLevel} (h : PositiveLevels levels) :
    NonnegQuantities levels :=
  fun level hlevel => (h level hlevel).2.le

lemma NonnegQuantities.tail {level : DepthLevel} {levels : List DepthLevel}
    (h : NonnegQuantities (level :: levels)) : NonnegQuantities levels :=
  fun l hl => h l (List.mem_cons_of_mem level hl)

@[simp] lemma totalNotional_cons (level : DepthLevel) (levels : List DepthLevel) :
    totalNotional (level :: levels) = level.price * level.quantity + totalNotional levels := by
  simp [totalNotional]

@[simp] lemma totalQuantity_cons (level : DepthLevel) (levels : List DepthLevel) :
    totalQuantity (level :: levels) = level.quantity + totalQuantity levels := by
  simp [totalQuantity]

lemma PositiveLevels.totalNotional_nonneg {levels : List DepthLevel} (h : PositiveLevels levels) :
    0 ≤ totalNotional levels := by
  refine List.sum_nonneg fun value hvalue => ?_
  obtain ⟨level, hlevel, rfl⟩ := List.mem_map.mp hvalue
  obtain ⟨hprice, hquantity⟩ := h level hlevel
  exact (mul_pos hprice hquantity).le

/-! ## The sizes and the prices of an order -/

/-- An order takes a positive quantity. -/
lemma Fills.quantity_pos {levels : List DepthLevel} {quantity notional : Decimal}
    (h : Fills levels quantity notional) (hquantities : NonnegQuantities levels) :
    0 < quantity := by
  induction h with
  | within hq _ => exact hq
  | beyond _ ih =>
    exact add_pos_of_nonneg_of_pos (hquantities _ List.mem_cons_self) (ih hquantities.tail)

/-- An order pays at least the lowest price of the levels. -/
lemma Fills.mul_le {levels : List DepthLevel} {price quantity notional : Decimal}
    (h : Fills levels quantity notional) (hquantities : NonnegQuantities levels)
    (hprices : ∀ level ∈ levels, price ≤ level.price) : price * quantity ≤ notional := by
  induction h with
  | within hq _ =>
    rw [mul_comm price]
    exact mul_le_mul_of_nonneg_left (hprices _ List.mem_cons_self) hq.le
  | @beyond level levels q n _ ih =>
    have hfirst := mul_le_mul_of_nonneg_left (hprices _ List.mem_cons_self)
      (hquantities _ List.mem_cons_self)
    have hrest := ih hquantities.tail fun l hl => hprices l (List.mem_cons_of_mem level hl)
    linarith

/-- The larger of two orders pays for the difference at least the lowest price of the levels. -/
lemma Fills.le_marginal {levels : List DepthLevel} {price q n q' n' : Decimal}
    (h : Fills levels q n) (h' : Fills levels q' n') (hquantities : NonnegQuantities levels)
    (hprices : ∀ level ∈ levels, price ≤ level.price) (hle : q ≤ q') :
    price * (q' - q) ≤ n' - n := by
  induction h generalizing q' n' with
  | @within level levels q hq hpart =>
    have hfirst : price ≤ level.price := hprices _ List.mem_cons_self
    cases h' with
    | within hq' hpart' =>
      have hdiff := mul_le_mul_of_nonneg_right hfirst (sub_nonneg.mpr hle)
      linarith
    | @beyond _ _ k m hrest =>
      -- The rest of the first level, and then all of the larger order beyond it.
      have hdiff := mul_le_mul_of_nonneg_right hfirst (sub_nonneg.mpr hpart)
      have hbeyond := hrest.mul_le hquantities.tail fun l hl =>
        hprices l (List.mem_cons_of_mem level hl)
      linarith
  | @beyond level levels k m hfill ih =>
    cases h' with
    | within hq' hpart' =>
      have hpos := hfill.quantity_pos hquantities.tail
      linarith
    | @beyond _ _ k' m' hfill' =>
      have hrest := ih hfill' hquantities.tail
        (fun l hl => hprices l (List.mem_cons_of_mem level hl)) (by linarith)
      linarith

/-- Along ascending prices the larger of two orders has the higher average. -/
lemma Fills.average_le {levels : List DepthLevel} {q n q' n' : Decimal} (h : Fills levels q n)
    (h' : Fills levels q' n') (hquantities : NonnegQuantities levels)
    (hsorted : AscendingPrices levels) (hle : q ≤ q') : n * q' ≤ n' * q := by
  induction h generalizing q' n' with
  | @within level levels q hq hpart =>
    obtain ⟨hprices, -⟩ := List.pairwise_cons.mp hsorted
    cases h' with
    | within hq' hpart' => linarith
    | @beyond _ _ k m hrest =>
      have hbeyond := mul_le_mul_of_nonneg_left (hrest.mul_le hquantities.tail hprices) hq.le
      linarith
  | @beyond level levels k m hfill ih =>
    obtain ⟨hprices, hrest⟩ := List.pairwise_cons.mp hsorted
    cases h' with
    | within hq' hpart' =>
      have hpos := hfill.quantity_pos hquantities.tail
      linarith
    | @beyond _ _ k' m' hfill' =>
      have hk : k ≤ k' := by linarith
      have haverage := ih hfill' hquantities.tail hrest hk
      -- What the larger order takes beyond the smaller costs at least the first price.
      have hmarginal := mul_le_mul_of_nonneg_left
        (hfill.le_marginal hfill' hquantities.tail hprices hk)
        (hquantities level List.mem_cons_self)
      linarith

/-! ## Descending prices -/

/-- The level with the sign of its price changed. -/
def DepthLevel.neg (level : DepthLevel) : DepthLevel := ⟨-level.price, level.quantity⟩

/-- An order at the negative prices. -/
lemma Fills.neg {levels : List DepthLevel} {quantity notional : Decimal}
    (h : Fills levels quantity notional) :
    Fills (levels.map DepthLevel.neg) quantity (-notional) := by
  induction h with
  | @within level levels q hq hpart =>
    rw [← mul_neg]
    exact Fills.within hq hpart
  | @beyond level levels q n _ ih =>
    rw [neg_add, ← mul_neg]
    exact Fills.beyond ih

lemma NonnegQuantities.neg {levels : List DepthLevel} (h : NonnegQuantities levels) :
    NonnegQuantities (levels.map DepthLevel.neg) := by
  intro level hlevel
  obtain ⟨l, hl, rfl⟩ := List.mem_map.mp hlevel
  exact h l hl

/-- The prices do not rise along the levels. -/
def DescendingPrices (levels : List DepthLevel) : Prop :=
  levels.Pairwise fun l l' => l'.price ≤ l.price

lemma DescendingPrices.neg {levels : List DepthLevel} (h : DescendingPrices levels) :
    AscendingPrices (levels.map DepthLevel.neg) :=
  List.pairwise_map.mpr (h.imp fun hle => neg_le_neg hle)

/-- An order receives at most the highest price of the levels. -/
lemma Fills.le_mul {levels : List DepthLevel} {price quantity notional : Decimal}
    (h : Fills levels quantity notional) (hquantities : NonnegQuantities levels)
    (hprices : ∀ level ∈ levels, level.price ≤ price) : notional ≤ price * quantity := by
  have hneg : -price * quantity ≤ -notional := by
    refine h.neg.mul_le hquantities.neg fun level hlevel => ?_
    obtain ⟨l, hl, rfl⟩ := List.mem_map.mp hlevel
    exact neg_le_neg (hprices l hl)
  linarith

/-- Along descending prices the larger of two orders has the lower average. -/
lemma Fills.le_average {levels : List DepthLevel} {q n q' n' : Decimal} (h : Fills levels q n)
    (h' : Fills levels q' n') (hquantities : NonnegQuantities levels)
    (hsorted : DescendingPrices levels) (hle : q ≤ q') : n' * q ≤ n * q' := by
  have hneg := h.neg.average_le h'.neg hquantities.neg hsorted.neg hle
  linarith

/-! ## The size in value and in quantity -/

/-- Positive prices have a positive lower bound. -/
lemma PositivePrices.exists_le {levels : List DepthLevel} (h : PositivePrices levels) :
    ∃ price, 0 < price ∧ ∀ level ∈ levels, price ≤ level.price := by
  induction levels with
  | nil => exact ⟨1, one_pos, by simp⟩
  | cons level levels ih =>
    obtain ⟨price, hpos, hle⟩ := ih h.tail
    refine ⟨min level.price price, lt_min (h level List.mem_cons_self) hpos, ?_⟩
    intro l hl
    rcases List.mem_cons.mp hl with rfl | hl
    · exact min_le_left _ _
    · exact (min_le_right _ _).trans (hle l hl)

/-- Of two orders the one with the smaller value has the smaller quantity. -/
lemma Fills.quantity_le {levels : List DepthLevel} {q n q' n' : Decimal} (h : Fills levels q n)
    (h' : Fills levels q' n') (hpos : PositiveLevels levels) (hle : n ≤ n') : q ≤ q' := by
  by_contra hlt
  rw [not_le] at hlt
  obtain ⟨price, hprice, hprices⟩ := hpos.prices.exists_le
  have hmarginal := h'.le_marginal h hpos.nonneg hprices hlt.le
  have hdiff := mul_pos hprice (sub_pos.mpr hlt)
  linarith

/-- The levels that an order takes whole, and the last level, of which it takes a part. -/
structure Takes (levels full : List DepthLevel) (last : DepthLevel) (part : Decimal) : Prop where
  levels_eq : ∃ rest, levels = full ++ last :: rest
  part_pos : 0 < part
  part_le : part ≤ last.quantity

/-- An order takes levels from the first one on. -/
lemma Fills.takes {levels : List DepthLevel} {quantity notional : Decimal}
    (h : Fills levels quantity notional) :
    ∃ full last part, Takes levels full last part ∧ quantity = totalQuantity full + part ∧
      notional = totalNotional full + last.price * part ∧
      Fills (full ++ [last]) quantity notional := by
  induction h with
  | @within level levels q hq hpart =>
    refine ⟨[], level, q, ⟨⟨levels, rfl⟩, hq, hpart⟩, ?_, ?_, Fills.within hq hpart⟩
    · simp [totalQuantity]
    · simp [totalNotional, mul_comm]
  | @beyond level levels q n _ ih =>
    obtain ⟨full, last, part, ⟨⟨rest, rfl⟩, hpos, hle⟩, rfl, rfl, hfill⟩ := ih
    refine ⟨level :: full, last, part, ⟨⟨rest, rfl⟩, hpos, hle⟩, ?_, ?_, Fills.beyond hfill⟩
    · rw [totalQuantity_cons, add_assoc]
    · rw [totalNotional_cons, add_assoc, mul_comm level.price]

/-! ## The depth value -/

/-- The walk up to a notional takes what a market order of that value takes, or all levels if they
are worth less. -/
lemma exists_fills_depthValueLoop {entries : List (Decimal × Decimal)} (hne : entries ≠ [])
    (hpos : PositiveLevels (entries.map DepthLevel.ofEntry)) {maxUsd cumUsd : Decimal}
    (hremaining : 0 < maxUsd - cumUsd) (cumQty : Decimal) :
    ∃ quantity, Fills (entries.map DepthLevel.ofEntry) quantity
        (min (maxUsd - cumUsd) (totalNotional (entries.map DepthLevel.ofEntry))) ∧
      depthValueLoop maxUsd entries cumUsd cumQty =
        (cumUsd + min (maxUsd - cumUsd) (totalNotional (entries.map DepthLevel.ofEntry)),
          cumQty + quantity) := by
  induction entries generalizing cumUsd cumQty with
  | nil => exact absurd rfl hne
  | cons entry entries ih =>
    obtain ⟨price, qty⟩ := entry
    obtain ⟨hprice, hqty⟩ : 0 < price ∧ 0 < qty := hpos ⟨price, qty⟩ List.mem_cons_self
    have hrest := hpos.tail.totalNotional_nonneg
    rw [depthValueLoop_cons hprice hremaining, List.map_cons, totalNotional_cons]
    change ∃ quantity, Fills _ quantity (min _ (price * qty + _)) ∧
      _ = (cumUsd + min _ (price * qty + _), _)
    rcases le_or_gt (maxUsd - cumUsd) (qty * price) with hpart | hwhole
    · -- The order ends in this level.
      have hle : (maxUsd - cumUsd) / price ≤ qty := (div_le_iff₀ hprice).mpr hpart
      have hfill : Fills (DepthLevel.ofEntry (price, qty) :: entries.map DepthLevel.ofEntry)
          ((maxUsd - cumUsd) / price) ((maxUsd - cumUsd) / price * price) :=
        Fills.within (div_pos hremaining hprice) hle
      rw [div_mul_cancel₀ _ hprice.ne'] at hfill
      rw [min_eq_right hpart, min_eq_left (by linarith : maxUsd - cumUsd ≤ price * qty + _),
        add_sub_cancel]
      exact ⟨_, hfill, depthValueLoop_done _ _ _⟩
    · rw [min_eq_left hwhole.le, mul_div_cancel_right₀ qty hprice.ne']
      rcases eq_or_ne entries [] with rfl | hentries
      · -- This was the last level.
        have hfill : Fills [DepthLevel.ofEntry (price, qty)] qty (qty * price) :=
          Fills.within hqty le_rfl
        have htotal : totalNotional ([].map DepthLevel.ofEntry) = 0 := rfl
        rw [htotal, add_zero, mul_comm price, min_eq_right hwhole.le]
        exact ⟨qty, hfill, rfl⟩
      · obtain ⟨quantity, hfill, hloop⟩ := ih hentries hpos.tail
          (by linarith : 0 < maxUsd - (cumUsd + qty * price)) (cumQty + qty)
        have hmin : qty * price + min (maxUsd - (cumUsd + qty * price))
            (totalNotional (entries.map DepthLevel.ofEntry)) =
            min (maxUsd - cumUsd)
              (price * qty + totalNotional (entries.map DepthLevel.ofEntry)) := by
          rw [← min_add_add_left]
          congr 1 <;> ring
        rw [hloop, ← hmin]
        refine ⟨qty + quantity, Fills.beyond hfill, ?_⟩
        rw [add_assoc, add_assoc]

/-- The depth value of a side with levels. -/
lemma getDepthValue_spec {book : OrderBook} {side : Side} {maxUsd : Decimal}
    (hpos : PositiveLevels ((book.sideLevels side).map DepthLevel.ofEntry))
    (hne : book.sideLevels side ≠ []) (hmax : 0 < maxUsd) :
    ∃ quantity, Fills ((book.sideLevels side).map DepthLevel.ofEntry) quantity
        (min maxUsd (totalNotional ((book.sideLevels side).map DepthLevel.ofEntry))) ∧
      getDepthValue book side maxUsd =
        min maxUsd (totalNotional ((book.sideLevels side).map DepthLevel.ofEntry)) / quantity := by
  obtain ⟨quantity, hfill, hloop⟩ := exists_fills_depthValueLoop hne hpos
    (by linarith : 0 < maxUsd - 0) 0
  rw [sub_zero] at hfill hloop
  refine ⟨quantity, hfill, ?_⟩
  simp only [getDepthValue, if_neg (not_le.mpr hmax), hloop, zero_add,
    if_pos (hfill.quantity_pos hpos.nonneg)]

/-- Asks ascend. -/
lemma ascending_asks (book : OrderBook) :
    AscendingPrices ((book.sideLevels .ask).map DepthLevel.ofEntry) :=
  List.pairwise_map.mpr (book.asks.sorted.imp fun hlt => hlt.le)

/-- Bids descend. -/
lemma descending_bids (book : OrderBook) :
    DescendingPrices ((book.sideLevels .bid).map DepthLevel.ofEntry) :=
  List.pairwise_map.mpr (List.pairwise_reverse.mpr (book.bids.sorted.imp fun hlt => hlt.le))

/-- The levels of an order lie between the first one and the last one it takes. -/
lemma Takes.between {r : DepthLevel → DepthLevel → Prop} {levels full : List DepthLevel}
    {best last : DepthLevel} {part : Decimal} (h : Takes levels full last part)
    (hsorted : levels.Pairwise r) (hbest : levels.head? = some best)
    (hrefl : ∀ level, r level level) :
    ∀ level ∈ full ++ [last], r best level ∧ r level last := by
  obtain ⟨⟨rest, hlevels⟩, -, -⟩ := h
  have hfirst : ∀ level ∈ levels, r best level := by
    intro level hlevel
    obtain ⟨tail, htail⟩ := List.head?_eq_some_iff.mp hbest
    rw [htail] at hlevel hsorted
    rcases List.mem_cons.mp hlevel with rfl | hlevel
    · exact hrefl level
    · exact (List.pairwise_cons.mp hsorted).1 level hlevel
  intro level hlevel
  have hmem : level ∈ levels := by
    rw [hlevels, List.append_cons]
    exact List.mem_append_left rest hlevel
  refine ⟨hfirst level hmem, ?_⟩
  rw [hlevels] at hsorted
  rcases List.mem_append.mp hlevel with hfull | hlast
  · exact (List.pairwise_append.mp hsorted).2.2 level hfull last List.mem_cons_self
  · rw [List.mem_singleton.mp hlast]
    exact hrefl last

/-- The average price of an order lies between the first and the last price it pays. -/
lemma Takes.average_mem {levels full : List DepthLevel} {best last : DepthLevel}
    {part q n : Decimal} (h : Takes levels full last part) (hfill : Fills (full ++ [last]) q n)
    (hquantities : NonnegQuantities levels) (hbest : levels.head? = some best)
    (hsorted : AscendingPrices levels ∨ DescendingPrices levels) :
    n / q ∈ Set.uIcc best.price last.price := by
  have htaken : NonnegQuantities (full ++ [last]) := by
    obtain ⟨⟨rest, rfl⟩, -, -⟩ := h
    intro level hlevel
    refine hquantities level ?_
    rw [List.append_cons]
    exact List.mem_append_left rest hlevel
  have hq := hfill.quantity_pos htaken
  rcases hsorted with hasc | hdesc
  · have hbetween := h.between hasc hbest fun _ => le_rfl
    refine Set.mem_uIcc_of_le ?_ ?_
    · rw [le_div_iff₀ hq]
      exact hfill.mul_le htaken fun level hlevel => (hbetween level hlevel).1
    · rw [div_le_iff₀ hq]
      exact hfill.le_mul htaken fun level hlevel => (hbetween level hlevel).2
  · have hbetween := h.between hdesc hbest fun _ => le_rfl
    refine Set.mem_uIcc_of_ge ?_ ?_
    · rw [le_div_iff₀ hq]
      exact hfill.mul_le htaken fun level hlevel => (hbetween level hlevel).2
    · rw [div_le_iff₀ hq]
      exact hfill.le_mul htaken fun level hlevel => (hbetween level hlevel).1

/-- Orders of two values on the same levels: the walks of two depth values. -/
lemma getDepthValue_le {book : OrderBook} (hbook : book.Positive) {a b : Decimal} (ha : 0 < a)
    (hle : a ≤ b) :
    (book.sideLevels .bid ≠ [] → getDepthValue book .bid b ≤ getDepthValue book .bid a) ∧
      (book.sideLevels .ask ≠ [] → getDepthValue book .ask a ≤ getDepthValue book .ask b) := by
  refine ⟨fun hne => ?_, fun hne => ?_⟩
  · have hpos := hbook.levels .bid
    obtain ⟨q, hfill, hq⟩ := getDepthValue_spec hpos hne ha
    obtain ⟨q', hfill', hq'⟩ := getDepthValue_spec hpos hne (ha.trans_le hle)
    rw [hq, hq', div_le_div_iff₀ (hfill'.quantity_pos hpos.nonneg) (hfill.quantity_pos hpos.nonneg)]
    exact hfill.le_average hfill' hpos.nonneg (descending_bids book)
      (hfill.quantity_le hfill' hpos (min_le_min_right _ hle))
  · have hpos := hbook.levels .ask
    obtain ⟨q, hfill, hq⟩ := getDepthValue_spec hpos hne ha
    obtain ⟨q', hfill', hq'⟩ := getDepthValue_spec hpos hne (ha.trans_le hle)
    rw [hq, hq', div_le_div_iff₀ (hfill.quantity_pos hpos.nonneg) (hfill'.quantity_pos hpos.nonneg)]
    exact hfill.average_le hfill' hpos.nonneg (ascending_asks book)
      (hfill.quantity_le hfill' hpos (min_le_min_right _ hle))

/-- The depth value of a side with levels is the average price of what it takes from the best price
outwards, worth the notional or the whole side.  It lies between the best and the worst price taken,
and a larger notional does not improve it. -/
theorem getDepthValue_average (book : OrderBook) (hbook : book.Positive) (side : Side)
    (best : DepthLevel)
    (hbest : ((book.sideLevels side).map DepthLevel.ofEntry).head? = some best) :
    (∀ maxUsd, 0 < maxUsd → ∃ full last part,
      Takes ((book.sideLevels side).map DepthLevel.ofEntry) full last part ∧
      totalNotional full + last.price * part =
        min maxUsd (totalNotional ((book.sideLevels side).map DepthLevel.ofEntry)) ∧
      getDepthValue book side maxUsd =
        (totalNotional full + last.price * part) / (totalQuantity full + part) ∧
      getDepthValue book side maxUsd ∈ Set.uIcc best.price last.price) ∧
    ∀ a b, 0 < a → a ≤ b →
      (side = .bid → getDepthValue book side b ≤ getDepthValue book side a) ∧
      (side = .ask → getDepthValue book side a ≤ getDepthValue book side b) := by
  have hne : book.sideLevels side ≠ [] := by
    intro hnil
    rw [hnil] at hbest
    cases hbest
  constructor
  · intro maxUsd hmax
    obtain ⟨quantity, hfill, hvalue⟩ := getDepthValue_spec (hbook.levels side) hne hmax
    obtain ⟨full, last, part, htakes, hquantity, hnotional, htaken⟩ := hfill.takes
    have hsorted : AscendingPrices ((book.sideLevels side).map DepthLevel.ofEntry) ∨
        DescendingPrices ((book.sideLevels side).map DepthLevel.ofEntry) := by
      cases side with
      | bid => exact Or.inr (descending_bids book)
      | ask => exact Or.inl (ascending_asks book)
    refine ⟨full, last, part, htakes, hnotional.symm, ?_, ?_⟩
    · rw [hvalue, hnotional, hquantity]
    · rw [hvalue]
      exact htakes.average_mem htaken (hbook.levels side).nonneg hbest hsorted
  · intro a b ha hle
    refine ⟨?_, ?_⟩
    · rintro rfl
      exact (getDepthValue_le hbook ha hle).1 hne
    · rintro rfl
      exact (getDepthValue_le hbook ha hle).2 hne

/-- On a book with two levels on each side, 203 takes the asks at a lower average than 305. -/
theorem getDepthValue_average_twoLevelBook :
    getDepthValue twoLevelBook .ask 203 = 203 / 2 ∧ getDepthValue twoLevelBook .ask 305 = 305 / 3 ∧
      getDepthValue twoLevelBook .ask 203 ≤ getDepthValue twoLevelBook .ask 305 := by
  have hbest : ((twoLevelBook.sideLevels .ask).map DepthLevel.ofEntry).head? = some ⟨101, 1⟩ := by
    decide +kernel
  have hall := (getDepthValue_average twoLevelBook (by decide +kernel) .ask ⟨101, 1⟩ hbest).2
  exact ⟨by decide +kernel, by decide +kernel, (hall 203 305 (by norm_num) (by norm_num)).2 rfl⟩

/-! ## Buying and selling back -/

/-- What a spend buys through the asks sells through the bids for no more than the spend, in
whatever order the levels are listed, as long as no bid is above an ask. -/
theorem roundTrip_le (depth : MarketDepth) (hasks : PositivePrices depth.asks)
    (hbids : PositivePrices depth.bids) (haskQuantities : NonnegQuantities depth.asks)
    (hbidQuantities : NonnegQuantities depth.bids)
    (hspread : ∀ bid ∈ depth.bids, ∀ ask ∈ depth.asks, bid.price ≤ ask.price) (s q r : Decimal)
    (hbuy : calculateSlippageBuy depth s = .ok q) (hsell : calculateSlippageSell depth q = .ok r) :
    r ≤ s := by
  have hbought := fills_of_calculateSlippageBuy hasks hbuy
  have hsold := fills_of_calculateSlippageSell hbids hsell
  have hne : depth.bids.toFinset.Nonempty := by
    rw [List.toFinset_nonempty_iff]
    intro hnil
    rw [hnil] at hsold
    cases hsold
  -- The highest bid is between what the sale brings and what the purchase costs.
  obtain ⟨highest, hmem, hmax⟩ := Finset.exists_max_image depth.bids.toFinset DepthLevel.price hne
  rw [List.mem_toFinset] at hmem
  calc r ≤ highest.price * q :=
        hsold.le_mul hbidQuantities fun bid hbid => hmax bid (List.mem_toFinset.mpr hbid)
    _ ≤ s := hbought.mul_le haskQuantities (hspread highest hmem)

/-- Asks and bids out of order, with a level without quantity. -/
def unorderedDepth : MarketDepth where
  asks := [⟨103, 1⟩, ⟨101, 0⟩, ⟨102, 2⟩]
  bids := [⟨99, 1⟩, ⟨101, 3⟩]

/-- Buying for 205 and selling back. -/
theorem roundTrip_le_unorderedDepth :
    calculateSlippageBuy unorderedDepth 205 = .ok 2 ∧
      calculateSlippageSell unorderedDepth 2 = .ok 200 ∧ (200 : Decimal) ≤ 205 := by
  have hbuy : calculateSlippageBuy unorderedDepth 205 = .ok 2 := by decide +kernel
  have hsell : calculateSlippageSell unorderedDepth 2 = .ok 200 := by decide +kernel
  exact ⟨hbuy, hsell, roundTrip_le unorderedDepth (by decide +kernel) (by decide +kernel)
    (by decide +kernel) (by decide +kernel) (by decide +kernel) 205 2 200 hbuy hsell⟩

end HftArb
