import HftArb.Foundations.Runs
import HftArb.SignalLoop.DiscreteSlippage

/-!
# Updates of the book

`set_asks` and `set_bids` overwrite the book slot by slot.  A slot for which the lists have no
value, or one that does not fit into the fixed-point words, keeps the layer of the old book.  The
estimate sees such a layer when the new layers before it are not empty: `replaces_iff` says that the
update replaces the book, as far as any estimate can tell, exactly when no layer is left in this
way.
-/

namespace HftArb

open PriceLadder

namespace DiscreteSlippage

/-! ## Calls -/

/-- `decimal_to_fp`. -/
def decimalToFp (d : Decimal) : Option UInt64 := Decimal.toU64 (d * fpScale)

/-- `OrderBookLayer::from_decimal`. -/
def OrderBookLayer.fromDecimal (price quantity : Decimal) : Option OrderBookLayer :=
  (decimalToFp price).bind fun priceFp =>
    (decimalToFp quantity).map fun quantityFp => ⟨priceFp, quantityFp⟩

/-- The layer that a call has for a slot. -/
def layerAt (prices quantities : List Decimal) (i : ℕ) : Option OrderBookLayer :=
  prices[i]?.bind fun price => quantities[i]?.bind fun quantity =>
    OrderBookLayer.fromDecimal price quantity

/-- The loop of `set_asks` and `set_bids`: slots with a new layer are overwritten. -/
def setLayers (layer? : ℕ → Option OrderBookLayer) (layers : List OrderBookLayer) :
    List OrderBookLayer :=
  layers.mapIdx fun i layer => (layer? i).getD layer

/-- The empty layer. -/
def emptyLayer : OrderBookLayer := ⟨0, 0⟩

/-- Both sides of a book. -/
structure TwoSidedBook extends FastOrderBook where
  bids : List OrderBookLayer
  length_bids : bids.length = matrixBookDepth

namespace TwoSidedBook

lemma length_setLayers {layers : List OrderBookLayer} (layer? : ℕ → Option OrderBookLayer)
    (h : layers.length = matrixBookDepth) :
    (setLayers layer? layers).length = matrixBookDepth := by
  rw [setLayers, List.length_mapIdx, h]

/-- `FastOrderBook::new`. -/
def new : TwoSidedBook where
  asks := List.replicate matrixBookDepth emptyLayer
  length_asks := List.length_replicate
  bids := List.replicate matrixBookDepth emptyLayer
  length_bids := List.length_replicate

/-- `set_asks`. -/
def setAsks (book : TwoSidedBook) (prices quantities : List Decimal) : TwoSidedBook :=
  { book with
    asks := setLayers (layerAt prices quantities) book.asks
    length_asks := length_setLayers _ book.length_asks }

/-- `set_bids`. -/
def setBids (book : TwoSidedBook) (prices quantities : List Decimal) : TwoSidedBook :=
  { book with
    bids := setLayers (layerAt prices quantities) book.bids
    length_bids := length_setLayers _ book.length_bids }

end TwoSidedBook

/-- A call on the book. -/
inductive BookUpdate
  | setAsks (prices quantities : List Decimal)
  | setBids (prices quantities : List Decimal)

namespace BookUpdate

/-- The book after a call. -/
def apply (book : TwoSidedBook) : BookUpdate → TwoSidedBook
  | setAsks prices quantities => book.setAsks prices quantities
  | setBids prices quantities => book.setBids prices quantities

/-- The book after some calls on a new one. -/
def run (calls : List BookUpdate) : TwoSidedBook := calls.foldl apply TwoSidedBook.new

/-- The layer that a call writes into a slot of the asks. -/
def askLayer (k : ℕ) : BookUpdate → Option OrderBookLayer
  | setAsks prices quantities => layerAt prices quantities k
  | setBids _ _ => none

/-- The layer last written into a slot of the asks. -/
def lastWritten (calls : List BookUpdate) (k : ℕ) : Option OrderBookLayer :=
  calls.reverse.findSome? (askLayer k)

lemma getElem?_asks_apply (book : TwoSidedBook) (call : BookUpdate) (k : ℕ) :
    (apply book call).asks[k]? = book.asks[k]?.map fun layer => (call.askLayer k).getD layer := by
  cases call with
  | setAsks prices quantities => exact List.getElem?_mapIdx
  | setBids prices quantities =>
    have hid : (fun layer : OrderBookLayer => (none : Option OrderBookLayer).getD layer) = id := rfl
    rw [askLayer, hid, Option.map_id]
    rfl

/-- A slot holds the layer last written into it, or is as empty as in a new book. -/
lemma getElem?_asks_run (calls : List BookUpdate) {k : ℕ} (hk : k < matrixBookDepth) :
    (run calls).asks[k]? = some ((lastWritten calls k).getD emptyLayer) := by
  induction calls using List.reverseRecOn with
  | nil => exact List.getElem?_replicate_of_lt hk
  | append_singleton calls call ih =>
    rw [run, List.foldl_append, List.foldl_cons, List.foldl_nil, ← run, getElem?_asks_apply, ih,
      lastWritten, lastWritten, Runs.findSome?_reverse_append_singleton, Option.map_some]
    cases call.askLayer k with
    | none => rfl
    | some layer => rfl

/-- Calls on the bids leave the asks alone. -/
lemma asks_foldl_setBids (book : TwoSidedBook) (later : List (List Decimal × List Decimal)) :
    ((later.map fun l => setBids l.1 l.2).foldl apply book).asks = book.asks := by
  induction later generalizing book with
  | nil => rfl
  | cons l later ih => rw [List.map_cons, List.foldl_cons, ih]; rfl

end BookUpdate

/-! ## Layers that are left -/

/-- A layer of the old book is left where the estimate sees it: its slot gets no new layer, and the
slots before it get layers that are not empty. -/
def LeavesLayer (layer? old : ℕ → Option OrderBookLayer) : Prop :=
  ∃ k < matrixBookDepth, layer? k = none ∧
    (∀ j < k, ∃ layer, layer? j = some layer ∧ ¬ layer.IsEmpty) ∧
    ∃ layer, old k = some layer ∧ ¬ layer.IsEmpty

/-- The same, for the slots of a list. -/
def LeftIn (layer? : ℕ → Option OrderBookLayer) (layers : List OrderBookLayer) : Prop :=
  ∃ k, layer? k = none ∧ (∀ j < k, ∃ layer, layer? j = some layer ∧ ¬ layer.IsEmpty) ∧
    ∃ layer, layers[k]? = some layer ∧ ¬ layer.IsEmpty

lemma leftIn_cons {layer? : ℕ → Option OrderBookLayer} {layer : OrderBookLayer}
    {layers : List OrderBookLayer} :
    LeftIn layer? (layer :: layers) ↔
      (layer? 0 = none ∧ ¬ layer.IsEmpty) ∨
        (∃ new, layer? 0 = some new ∧ ¬ new.IsEmpty) ∧ LeftIn (fun i => layer? (i + 1)) layers := by
  constructor
  · rintro ⟨k, hnone, hbefore, old, hold, hne⟩
    cases k with
    | zero =>
      obtain rfl := Option.some.inj hold
      exact Or.inl ⟨hnone, hne⟩
    | succ k =>
      exact Or.inr ⟨hbefore 0 (Nat.succ_pos k), k, hnone,
        fun j hj => hbefore (j + 1) (Nat.succ_lt_succ hj), old, hold, hne⟩
  · rintro (⟨hnone, hne⟩ | ⟨hfirst, k, hnone, hbefore, old, hold, hne⟩)
    · exact ⟨0, hnone, fun j hj => absurd hj (Nat.not_lt_zero j), layer, rfl, hne⟩
    · refine ⟨k + 1, hnone, fun j hj => ?_, old, hold, hne⟩
      cases j with
      | zero => exact hfirst
      | succ j => exact hbefore j (Nat.lt_of_succ_lt_succ hj)

lemma setLayers_cons (layer? : ℕ → Option OrderBookLayer) (layer : OrderBookLayer)
    (layers : List OrderBookLayer) :
    setLayers layer? (layer :: layers) =
      (layer? 0).getD layer :: setLayers (fun i => layer? (i + 1)) layers :=
  List.mapIdx_cons

lemma emptyLayer_isEmpty : emptyLayer.IsEmpty := Or.inl rfl

/-- Where no layer is left, the ladder is that of the new layers alone. -/
lemma ladderOf_setLayers_of_not_leftIn {layer? : ℕ → Option OrderBookLayer}
    {layers : List OrderBookLayer} (h : ¬ LeftIn layer? layers) :
    ladderOf (setLayers layer? layers) =
      ladderOf (setLayers layer? (List.replicate layers.length emptyLayer)) := by
  induction layers generalizing layer? with
  | nil => rfl
  | cons layer layers ih =>
    rw [leftIn_cons, not_or, not_and, not_not] at h
    rw [List.length_cons, List.replicate_succ, setLayers_cons, setLayers_cons]
    cases hfirst : layer? 0 with
    | none =>
      rw [Option.getD_none, Option.getD_none, ladderOf_of_isEmpty (h.1 hfirst),
        ladderOf_of_isEmpty emptyLayer_isEmpty]
    | some new =>
      rw [Option.getD_some, Option.getD_some]
      by_cases hempty : new.IsEmpty
      · rw [ladderOf_of_isEmpty hempty, ladderOf_of_isEmpty hempty]
      · rw [ladderOf_of_not_isEmpty hempty, ladderOf_of_not_isEmpty hempty,
          ih fun hleft => h.2 ⟨⟨new, hfirst, hempty⟩, hleft⟩]

/-- A layer that is left makes the ladder deeper. -/
lemma depth_lt_of_leftIn {layer? : ℕ → Option OrderBookLayer} {layers : List OrderBookLayer}
    (h : LeftIn layer? layers) :
    depth (ladderOf (setLayers layer? (List.replicate layers.length emptyLayer))) <
      depth (ladderOf (setLayers layer? layers)) := by
  induction layers generalizing layer? with
  | nil =>
    obtain ⟨k, -, -, layer, hlayer, -⟩ := h
    cases hlayer
  | cons layer layers ih =>
    rw [List.length_cons, List.replicate_succ, setLayers_cons, setLayers_cons]
    rcases leftIn_cons.mp h with ⟨hnone, hne⟩ | ⟨⟨new, hnew, hne⟩, hleft⟩
    · rw [hnone, Option.getD_none, Option.getD_none, ladderOf_of_isEmpty emptyLayer_isEmpty,
        ladderOf_of_not_isEmpty hne, depth_nil, depth_cons]
      exact add_pos_of_pos_of_nonneg (layer.quantity_pos hne) (depth_nonneg _)
    · rw [hnew, Option.getD_some, Option.getD_some, ladderOf_of_not_isEmpty hne,
        ladderOf_of_not_isEmpty hne, depth_cons, depth_cons]
      exact add_lt_add_right (ih hleft) _

/-! ## What the estimate sees -/

lemma buyWalk_of_nonpos (layers : List OrderBookLayer) {remaining : Decimal}
    (h : remaining ≤ 0) (totalQty totalCost : Decimal) :
    buyWalk layers remaining totalQty totalCost = (remaining, totalQty, totalCost) := by
  cases layers with
  | nil => rfl
  | cons layer layers => rw [buyWalk, if_pos (Or.inr h)]

lemma buyWalk_fst_snd (layers : List OrderBookLayer) (spend : Decimal) :
    (buyWalk layers spend 0 0).2.1 = bought (ladderOf layers) (max spend 0) := by
  rcases le_total 0 spend with hspend | hspend
  · rw [buyWalk_eq layers hspend, zero_add, max_eq_left hspend]
  · rw [buyWalk_of_nonpos layers hspend, max_eq_right hspend, bought_zero]

lemma truncateLotStep_nonneg (s : SlippageShield) {qty : Decimal} (h : 0 ≤ qty) :
    0 ≤ truncateLotStep s qty := by
  rw [truncateLotStep]
  split_ifs with hlot
  · exact wholeLots_nonneg hlot h
  · exact h

/-- Books with the same ladder have the same estimates. -/
lemma processDiscreteBuySlippage_congr {book book' : FastOrderBook}
    (h : ladderOf book.asks = ladderOf book'.asks) (s : SlippageShield) (spend : Decimal) :
    processDiscreteBuySlippage s book spend = processDiscreteBuySlippage s book' spend := by
  have hbought : 0 ≤ bought (ladderOf book'.asks) (max spend 0) := bought_nonneg (le_max_right _ _)
  have hqty := truncateLotStep_nonneg s hbought
  simp only [processDiscreteBuySlippage, buyWalk_fst_snd, h, costWalk_eq _ hqty]

/-- An amount that buys the whole ladder. -/
lemma bought_eq_depth {ladder : List (Level ℚ)} {spend : Decimal} (hspend : 0 ≤ spend)
    (h : cost ladder (depth ladder) ≤ spend) : bought ladder spend = depth ladder :=
  le_antisymm (bought_le_depth _ _) ((cost_le_iff (depth_nonneg _) le_rfl hspend).mp h)

/-- Books with the same estimates are equally deep. -/
lemma depth_eq_of_processDiscreteBuySlippage {book book' : FastOrderBook}
    (h : ∀ s spend, processDiscreteBuySlippage s book spend =
      processDiscreteBuySlippage s book' spend) :
    depth (ladderOf book.asks) = depth (ladderOf book'.asks) := by
  obtain ⟨spend, hspend⟩ : ∃ spend,
      spend = max (cost (ladderOf book.asks) (depth (ladderOf book.asks)))
        (cost (ladderOf book'.asks) (depth (ladderOf book'.asks))) := ⟨_, rfl⟩
  have hnonneg : 0 ≤ spend := by
    rw [hspend]
    exact (cost_nonneg (depth_nonneg _)).trans (le_max_left _ _)
  -- without a step of lots the quantity is what the amount buys
  have hquantity : ∀ b : FastOrderBook,
      (processDiscreteBuySlippage (shieldOf 0 0) b spend).1 = bought (ladderOf b.asks) spend := by
    intro b
    rw [processDiscreteBuySlippage, buyWalk_fst_snd, max_eq_left hnonneg, truncateLotStep,
      if_neg (by simp [shieldOf])]
  have hsame := congrArg Prod.fst (h (shieldOf 0 0) spend)
  rwa [hquantity, hquantity, bought_eq_depth hnonneg (hspend ▸ le_max_left _ _),
    bought_eq_depth hnonneg (hspend ▸ le_max_right _ _)] at hsame

/-! ## Updates that replace the book -/

/-- What an update leaves of the asks of a run was written last by one of its updates. -/
lemma leftIn_asks_run_iff (layer? : ℕ → Option OrderBookLayer) (updates : List BookUpdate) :
    LeftIn layer? (BookUpdate.run updates).asks ↔
      LeavesLayer layer? (BookUpdate.lastWritten updates) := by
  constructor
  · rintro ⟨k, hnone, hbefore, layer, hlayer, hne⟩
    have hlength := (List.getElem?_eq_some_iff.mp hlayer).1
    have hk : k < matrixBookDepth := by rwa [(BookUpdate.run updates).length_asks] at hlength
    rw [BookUpdate.getElem?_asks_run updates hk, Option.some.injEq] at hlayer
    cases hlast : BookUpdate.lastWritten updates k with
    | none =>
      rw [hlast, Option.getD_none] at hlayer
      exact absurd (hlayer ▸ emptyLayer_isEmpty) hne
    | some last =>
      rw [hlast, Option.getD_some] at hlayer
      exact ⟨k, hk, hnone, hbefore, last, hlast, hlayer ▸ hne⟩
  · rintro ⟨k, hk, hnone, hbefore, layer, hlast, hne⟩
    refine ⟨k, hnone, hbefore, layer, ?_, hne⟩
    rw [BookUpdate.getElem?_asks_run updates hk, hlast, Option.getD_some]

/-- The last update of the asks replaces the book, for every estimate, exactly when it leaves no
layer of the earlier ones where the estimate sees it. -/
theorem replaces_iff (earlier : List BookUpdate) (prices quantities : List Decimal)
    (later : List (List Decimal × List Decimal)) :
    (∀ s spend,
      processDiscreteBuySlippage s
          (BookUpdate.run (earlier ++ .setAsks prices quantities ::
            later.map fun l => .setBids l.1 l.2)).toFastOrderBook spend =
        processDiscreteBuySlippage s
          (TwoSidedBook.new.setAsks prices quantities).toFastOrderBook spend) ↔
      ¬ LeavesLayer (layerAt prices quantities) (BookUpdate.lastWritten earlier) := by
  have hasks : (BookUpdate.run (earlier ++ .setAsks prices quantities ::
      later.map fun l => .setBids l.1 l.2)).asks =
        setLayers (layerAt prices quantities) (BookUpdate.run earlier).asks := by
    rw [BookUpdate.run, List.foldl_append, List.foldl_cons, BookUpdate.asks_foldl_setBids]
    rfl
  have hnew : (TwoSidedBook.new.setAsks prices quantities).asks =
      setLayers (layerAt prices quantities)
        (List.replicate (BookUpdate.run earlier).asks.length emptyLayer) := by
    rw [(BookUpdate.run earlier).length_asks]
    rfl
  rw [← leftIn_asks_run_iff]
  constructor
  · intro hsame hstale
    have hdepth := depth_eq_of_processDiscreteBuySlippage hsame
    rw [hasks, hnew] at hdepth
    exact (depth_lt_of_leftIn hstale).ne hdepth.symm
  · intro hfree
    refine processDiscreteBuySlippage_congr ?_
    rw [hasks, hnew]
    exact ladderOf_setLayers_of_not_leftIn hfree

/-- An update with one level leaves the three others of the old book. -/
theorem levels_left_behind :
    processDiscreteBuySlippage (shieldOf (2 / 1000) (1 / 1000))
        (BookUpdate.run [.setAsks [100, 101, 102, 103] [1, 1, 1, 1],
          .setAsks [200] [1]]).toFastOrderBook 301 ≠
      processDiscreteBuySlippage (shieldOf (2 / 1000) (1 / 1000))
        (TwoSidedBook.new.setAsks [200] [1]).toFastOrderBook 301 := by
  decide +kernel

end DiscreteSlippage

end HftArb
