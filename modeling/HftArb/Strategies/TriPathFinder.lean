import HftArb.Decimal
import Mathlib.Analysis.SpecialFunctions.Log.Basic
import Mathlib.Data.EReal.Operations
import Mathlib.Data.List.Destutter
import Mathlib.Data.List.Rotate

/-!
# The Bellman–Ford search for triangles

`TriPathFinder` is a graph of currencies with an edge for each direction of a trading pair.  The
search relaxes the edges over logarithmic weights for a number of rounds, follows the predecessors
of every node for three steps, and keeps the cycles whose exact profit is large enough.

The weights are a type of their own, with the few operations that the search uses.  For the claims
about the search they are extended reals, with exact logarithms.

Every distance starts at infinity, also that of the node the search should start from.  No edge
improves an infinite distance to another (`relaxRound_top`), so no predecessor is ever set and the
search returns nothing (`findProfitablePaths_eq_nil`).
-/

namespace HftArb

/-- A directed edge: trade into the currency of another node. -/
structure GraphEdge (W : Type) where
  toNode : ℕ
  logRate : W
  logFeeFactor : W
  pairSymbol : String
  decimalRate : Decimal
  decimalFeeFactor : Decimal

/-- A triangle to trade, with its profit. -/
structure TriangularPath where
  currencies : List String
  pairs : List String
  netProfitFactor : Decimal
  netProfitPct : Decimal

/-- The rounds of the search by default, `DEFAULT_BELLMAN_ITERATIONS`. -/
def defaultBellmanIterations : ℕ := 3

/-- The graph of trading pairs. -/
structure TriPathFinder (W : Type) where
  currencyToIdx : String → Option ℕ
  idxToCurrency : List String
  /-- The edges that leave each node. -/
  edges : List (List (GraphEdge W))
  minProfitFactor : Decimal
  maxIterations : ℕ

/-- Distances and predecessors during the search; `-1` in the program is no predecessor. -/
structure Relaxation (W : Type) where
  bestProfit : ℕ → W
  predecessor : ℕ → Option ℕ
  updated : Bool

namespace TriPathFinder

variable {W : Type}

/-! ## Building the graph -/

/-- A finder without pairs.  Of currencies with the same name the last one counts. -/
def withMaxIterations (currencies : List String) (minProfitPct : Decimal) (maxIterations : ℕ) :
    TriPathFinder W where
  currencyToIdx := currencies.zipIdx.foldl
    (fun index currency => Function.update index currency.1 (some currency.2)) fun _ => none
  idxToCurrency := currencies
  edges := List.replicate currencies.length []
  minProfitFactor := 1 + minProfitPct / 100
  maxIterations := maxIterations

/-- A finder without pairs and with the default number of rounds. -/
def new (currencies : List String) (minProfitPct : Decimal) : TriPathFinder W :=
  withMaxIterations currencies minProfitPct defaultBellmanIterations

/-- The edges that leave a node. -/
def edgesFrom (f : TriPathFinder W) (node : ℕ) : List (GraphEdge W) := (f.edges[node]?).getD []

/-- Add an edge that leaves a node. -/
def pushEdge (f : TriPathFinder W) (node : ℕ) (edge : GraphEdge W) : TriPathFinder W :=
  { f with edges := f.edges.modify node (· ++ [edge]) }

/-- Add both directions of a trading pair.  A pair with an unknown currency is skipped. -/
def addPair [Neg W] (ln : Decimal → W) (f : TriPathFinder W)
    (pairSymbol baseCurrency quoteCurrency : String) (price fee : Decimal) : TriPathFinder W :=
  match f.currencyToIdx baseCurrency, f.currencyToIdx quoteCurrency with
  | some baseIdx, some quoteIdx =>
    let invPrice := if 0 < price then 1 / price else 0
    (f.pushEdge baseIdx
      ⟨quoteIdx, -ln (price * (1 - fee)), ln (1 - fee), pairSymbol, price, 1 - fee⟩).pushEdge
        quoteIdx
      ⟨baseIdx, -ln (1 / price * (1 - fee)), ln (1 - fee), pairSymbol, invPrice, 1 - fee⟩
  | _, _ => f

/-! ## The search -/

section Search

variable [Add W] [LT W] [DecidableLT W]

/-- Relax an edge that leaves `u`. -/
def relaxEdge (u : ℕ) (r : Relaxation W) (edge : GraphEdge W) : Relaxation W :=
  if r.bestProfit u + edge.logRate < r.bestProfit edge.toNode then
    { bestProfit := Function.update r.bestProfit edge.toNode (r.bestProfit u + edge.logRate)
      predecessor := Function.update r.predecessor edge.toNode (some u)
      updated := true }
  else r

/-- Relax all edges, node by node. -/
def relaxRound (f : TriPathFinder W) (r : Relaxation W) : Relaxation W :=
  (List.range f.idxToCurrency.length).foldl
    (fun r u => (f.edgesFrom u).foldl (relaxEdge u) r) { r with updated := false }

end Search

/-- The predecessor of a node, unless it has none or is its own. -/
def stepBack (f : TriPathFinder W) (predecessor : ℕ → Option ℕ) (current : ℕ) : Option ℕ :=
  match predecessor current with
  | some pred => if pred = current ∨ f.idxToCurrency.length ≤ pred then none else some pred
  | none => none

/-- The cycle of three nodes in the predecessors of a node. -/
def extractTriangularPath (f : TriPathFinder W) (start : ℕ) (predecessor : ℕ → Option ℕ) :
    Option (List ℕ) := do
  let first ← f.stepBack predecessor start
  let second ← f.stepBack predecessor first
  let third ← f.stepBack predecessor second
  if third = start ∧ start ≠ first ∧ first ≠ second ∧ start ≠ second then
    some [start, first, second]
  else none

/-- The edge with the best rate; the last one of several. -/
def bestEdge (edges : List (GraphEdge W)) : Option (GraphEdge W) :=
  edges.foldl (fun best edge =>
    match best with
    | none => some edge
    | some e => if edge.decimalRate < e.decimalRate then some e else some edge) none

/-- The best edge from a node to another. -/
def edgeBetween (f : TriPathFinder W) (u v : ℕ) : Option (GraphEdge W) :=
  bestEdge ((f.edgesFrom u).filter fun edge => decide (edge.toNode = v))

/-- The profit of trading through three nodes and back. -/
def computePathProfit (f : TriPathFinder W) : List ℕ → Option TriangularPath
  | [a, b, c] => do
    let first ← f.edgeBetween a b
    let second ← f.edgeBetween b c
    let third ← f.edgeBetween c a
    let profitFactor := 1 * (first.decimalRate * first.decimalFeeFactor) *
      (second.decimalRate * second.decimalFeeFactor) * (third.decimalRate * third.decimalFeeFactor)
    some
      { currencies := [a, b, c].map fun i => (f.idxToCurrency[i]?).getD ""
        pairs := [first.pairSymbol, second.pairSymbol, third.pairSymbol]
        netProfitFactor := profitFactor
        netProfitPct := (profitFactor - 1) * 100 }
  | _ => none

/-- The triangle found from a node, if its profit is large enough. -/
def pathFrom (f : TriPathFinder W) (predecessor : ℕ → Option ℕ) (start : ℕ) :
    Option TriangularPath := do
  let path ← f.extractTriangularPath start predecessor
  let profit ← f.computePathProfit path
  if f.minProfitFactor ≤ profit.netProfitFactor then some profit else none

section Search

variable [Add W] [LT W] [DecidableLT W]

/-- One round of the search: relax, and look for triangles in the last round. -/
def searchRound (f : TriPathFinder W) (s : Relaxation W × List TriangularPath) (iteration : ℕ) :
    Relaxation W × List TriangularPath :=
  let r := f.relaxRound s.1
  (r, if iteration + 1 = f.maxIterations ∧ r.updated = true then
      s.2 ++ (List.range f.idxToCurrency.length).filterMap (f.pathFrom r.predecessor)
    else s.2)

/-- The profitable triangles, the best first. -/
def findProfitablePaths [Top W] (f : TriPathFinder W) : List TriangularPath :=
  if f.idxToCurrency.length < 3 then []
  else
    let start : Relaxation W := ⟨fun _ => ⊤, fun _ => none, false⟩
    let found := ((List.range f.maxIterations).foldl f.searchRound (start, [])).2
    (found.mergeSort fun a b => decide (b.netProfitFactor ≤ a.netProfitFactor)).destutter
      fun a b => a.pairs ≠ b.pairs

/-! ## Nothing is relaxed -/

/-- No edge improves an infinite distance from another. -/
def NoShortcut [Top W] (f : TriPathFinder W) : Prop :=
  ∀ node, ∀ edge ∈ f.edgesFrom node, ¬ (⊤ : W) + edge.logRate < ⊤

/-- An edge between infinite distances is not relaxed. -/
lemma relaxEdge_top [Top W] {r : Relaxation W} (hr : r.bestProfit = fun _ => ⊤) (u : ℕ)
    {edge : GraphEdge W} (hedge : ¬ (⊤ : W) + edge.logRate < ⊤) : relaxEdge u r edge = r := by
  rw [relaxEdge, hr, if_neg hedge]

/-- With all distances infinite no edge of a node is relaxed. -/
lemma foldl_relaxEdge_top [Top W] {r : Relaxation W} (hr : r.bestProfit = fun _ => ⊤) (u : ℕ)
    {edges : List (GraphEdge W)} (hedges : ∀ edge ∈ edges, ¬ (⊤ : W) + edge.logRate < ⊤) :
    edges.foldl (relaxEdge u) r = r := by
  refine List.foldlRecOn (motive := (· = r)) edges _ rfl ?_
  rintro _ rfl edge hedge
  exact relaxEdge_top hr u (hedges edge hedge)

/-- With all distances infinite a round changes nothing. -/
lemma relaxRound_top [Top W] {f : TriPathFinder W} (hf : f.NoShortcut) {r : Relaxation W}
    (hr : r.bestProfit = fun _ => ⊤) : f.relaxRound r = { r with updated := false } := by
  have hstart : ({ r with updated := false } : Relaxation W).bestProfit = fun _ => ⊤ := hr
  refine List.foldlRecOn (motive := (· = { r with updated := false })) _ _ rfl ?_
  rintro _ rfl u -
  exact foldl_relaxEdge_top hstart u (hf u)

/-- The search finds no triangle. -/
theorem findProfitablePaths_eq_nil [Top W] {f : TriPathFinder W} (hf : f.NoShortcut) :
    f.findProfitablePaths = [] := by
  have hrounds : ∀ rounds : List ℕ,
      ((rounds.foldl f.searchRound (⟨fun _ => ⊤, fun _ => none, false⟩, [])).1.bestProfit =
        fun _ => ⊤) ∧
      (rounds.foldl f.searchRound (⟨fun _ => ⊤, fun _ => none, false⟩, [])).2 = [] := by
    intro rounds
    refine List.foldlRecOn (motive := fun s : Relaxation W × List TriangularPath =>
      (s.1.bestProfit = fun _ => ⊤) ∧ s.2 = []) rounds _ ⟨rfl, rfl⟩ ?_
    rintro s ⟨hr, hs⟩ iteration -
    rw [searchRound, relaxRound_top hf hr]
    exact ⟨hr, by rw [if_neg (by simp), hs]⟩
  unfold findProfitablePaths
  split_ifs
  · rfl
  · dsimp only
    rw [(hrounds _).2, List.mergeSort_nil]
    rfl

end Search

/-! ## Cycles of the graph -/

/-- An edge named by the node it leaves and its place there. -/
def edgeAt (f : TriPathFinder W) (ref : ℕ × ℕ) : Option (GraphEdge W) := (f.edgesFrom ref.1)[ref.2]?

/-- The rate of an edge after the fee. -/
def edgeFactor (f : TriPathFinder W) (ref : ℕ × ℕ) : Decimal :=
  ((f.edgeAt ref).map fun edge => edge.decimalRate * edge.decimalFeeFactor).getD 1

/-- The product of the rates along some edges. -/
def factor (f : TriPathFinder W) (refs : List (ℕ × ℕ)) : Decimal := (refs.map f.edgeFactor).prod

/-- An edge enters the node that another one leaves. -/
def Follows (f : TriPathFinder W) (ref ref' : ℕ × ℕ) : Prop :=
  (f.edgeAt ref).map GraphEdge.toNode = some ref'.1

instance (f : TriPathFinder W) (ref ref' : ℕ × ℕ) : Decidable (f.Follows ref ref') :=
  inferInstanceAs (Decidable (_ = _))

/-- Edges that follow each other through different nodes, and back to the first one. -/
structure IsEdgeCycle (f : TriPathFinder W) (refs : List (ℕ × ℕ)) : Prop where
  nonempty : refs ≠ []
  nodup : (refs.map Prod.fst).Nodup
  step : ∀ p ∈ refs.zip (refs.rotate 1), f.Follows p.1 p.2

/-- The only profitable cycle, over three nodes and beyond the threshold. -/
structure SoleTriangle (f : TriPathFinder W) (refs : List (ℕ × ℕ)) : Prop where
  cycle : f.IsEdgeCycle refs
  length : refs.length = 3
  profitable : 1 < f.factor refs
  threshold : f.minProfitFactor < f.factor refs
  sole : ∀ refs', f.IsEdgeCycle refs' → 1 < f.factor refs' → refs' ~r refs

/-- A path lists the pairs of three edges that follow each other, and their product. -/
def ListsTriangle (f : TriPathFinder W) (path : TriangularPath) : Prop :=
  ∃ refs, f.IsEdgeCycle refs ∧ refs.length = 3 ∧
    refs.map (fun ref => (f.edgeAt ref).map GraphEdge.pairSymbol) = path.pairs.map some ∧
    path.netProfitFactor = f.factor refs

section Listed

variable {f : TriPathFinder W}

/-- The edges of a cycle are edges of the graph. -/
lemma IsEdgeCycle.exists_edgeAt {refs : List (ℕ × ℕ)} (h : f.IsEdgeCycle refs) {ref : ℕ × ℕ}
    (href : ref ∈ refs) : ∃ edge, f.edgeAt ref = some edge := by
  have hfst : (refs.zip (refs.rotate 1)).map Prod.fst = refs :=
    List.map_fst_zip (by rw [List.length_rotate])
  rw [← hfst] at href
  obtain ⟨p, hp, rfl⟩ := List.mem_map.mp href
  obtain ⟨edge, hedge, -⟩ := Option.map_eq_some_iff.mp (h.step p hp)
  exact ⟨edge, hedge⟩

/-- The best edge is one of the edges. -/
lemma mem_of_bestEdge {edges : List (GraphEdge W)} {edge : GraphEdge W}
    (h : bestEdge edges = some edge) : edge ∈ edges := by
  have hfold : ∀ (edges : List (GraphEdge W)) (best : Option (GraphEdge W)),
      edges.foldl (fun best edge =>
        match best with
        | none => some edge
        | some e => if edge.decimalRate < e.decimalRate then some e else some edge) best =
          some edge → edge ∈ edges ∨ best = some edge := by
    intro edges
    induction edges with
    | nil => exact fun _ h => Or.inr h
    | cons head rest ih =>
      intro best h
      rcases ih _ h with hmem | hhead
      · exact Or.inl (List.mem_cons_of_mem _ hmem)
      · cases best with
        | none => exact Or.inl (Option.some.inj hhead ▸ List.mem_cons_self)
        | some e =>
          dsimp only at hhead
          split_ifs at hhead
          · exact Or.inr hhead
          · exact Or.inl (Option.some.inj hhead ▸ List.mem_cons_self)
  exact (hfold edges none h).resolve_right (by simp)

/-- An edge between two nodes is an edge of the first one into the second. -/
lemma exists_edgeAt {u v : ℕ} {edge : GraphEdge W} (h : f.edgeBetween u v = some edge) :
    ∃ i, f.edgeAt (u, i) = some edge ∧ edge.toNode = v := by
  obtain ⟨hmem, hto⟩ := List.mem_filter.mp (mem_of_bestEdge h)
  obtain ⟨i, hi⟩ := List.mem_iff_getElem?.mp hmem
  exact ⟨i, hi, of_decide_eq_true hto⟩

/-- The profit computed for three different nodes is that of three edges in a row. -/
lemma listsTriangle_of_computePathProfit {a b c : ℕ} {profit : TriangularPath} (hab : a ≠ b)
    (hbc : b ≠ c) (hac : a ≠ c) (h : f.computePathProfit [a, b, c] = some profit) :
    f.ListsTriangle profit := by
  obtain ⟨first, hfirst, h⟩ := Option.bind_eq_some_iff.mp h
  obtain ⟨second, hsecond, h⟩ := Option.bind_eq_some_iff.mp h
  obtain ⟨third, hthird, h⟩ := Option.bind_eq_some_iff.mp h
  obtain ⟨i, hi, hib⟩ := exists_edgeAt hfirst
  obtain ⟨j, hj, hjc⟩ := exists_edgeAt hsecond
  obtain ⟨k, hk, hka⟩ := exists_edgeAt hthird
  rw [← Option.some.inj h]
  refine ⟨[(a, i), (b, j), (c, k)], ⟨by simp, by simp [hab, hac, hbc], ?_⟩, rfl, ?_, ?_⟩
  · intro p hp
    simp only [List.rotate_cons_succ, List.rotate_zero, List.cons_append, List.nil_append,
      List.zip_cons_cons, List.zip_nil_right, List.mem_cons, List.not_mem_nil, or_false] at hp
    rcases hp with rfl | rfl | rfl
    · rw [Follows, hi, Option.map_some, hib]
    · rw [Follows, hj, Option.map_some, hjc]
    · rw [Follows, hk, Option.map_some, hka]
  · simp [hi, hj, hk]
  · simp only [factor, edgeFactor, List.map_cons, List.map_nil, List.prod_cons, List.prod_nil, hi,
      hj, hk, Option.map_some, Option.getD_some]
    ring

/-- What is found from a node lists a triangle, whatever the predecessors are. -/
lemma listsTriangle_of_pathFrom {predecessor : ℕ → Option ℕ} {start : ℕ}
    {profit : TriangularPath} (h : f.pathFrom predecessor start = some profit) :
    f.ListsTriangle profit := by
  obtain ⟨path, hpath, h⟩ := Option.bind_eq_some_iff.mp h
  obtain ⟨found, hfound, h⟩ := Option.bind_eq_some_iff.mp h
  obtain ⟨first, -, hpath⟩ := Option.bind_eq_some_iff.mp hpath
  obtain ⟨second, -, hpath⟩ := Option.bind_eq_some_iff.mp hpath
  obtain ⟨third, -, hpath⟩ := Option.bind_eq_some_iff.mp hpath
  split_ifs at h hpath with hmin hcycle
  rw [← Option.some.inj hpath] at hfound
  rw [← Option.some.inj h]
  exact listsTriangle_of_computePathProfit hcycle.2.1 hcycle.2.2.1 hcycle.2.2.2 hfound

/-- Every path that is returned lists three edges in a row and their product, with any weights. -/
lemma listsTriangle_of_mem [Add W] [LT W] [DecidableLT W] [Top W] {path : TriangularPath}
    (h : path ∈ f.findProfitablePaths) : f.ListsTriangle path := by
  have hrounds : ∀ (rounds : List ℕ) (s : Relaxation W × List TriangularPath),
      (∀ p ∈ s.2, f.ListsTriangle p) →
        ∀ p ∈ (rounds.foldl f.searchRound s).2, f.ListsTriangle p := by
    intro rounds s hs
    refine List.foldlRecOn (motive := fun s : Relaxation W × List TriangularPath =>
      ∀ p ∈ s.2, f.ListsTriangle p) rounds _ hs ?_
    intro s hs iteration _ p hp
    unfold searchRound at hp
    dsimp only at hp
    split_ifs at hp
    · rcases List.mem_append.mp hp with hold | hnew
      · exact hs p hold
      · obtain ⟨start, -, hstart⟩ := List.mem_filterMap.mp hnew
        exact listsTriangle_of_pathFrom hstart
    · exact hs p hp
  unfold findProfitablePaths at h
  split_ifs at h
  · exact absurd h List.not_mem_nil
  · have hsorted := (List.destutter_sublist _ _).subset h
    exact hrounds _ _ (by simp) path (List.mem_mergeSort.mp hsorted)

end Listed

/-- The only profitable triangle is found, and whatever is found is a triangle. -/
def FindsTriangle [Add W] [LT W] [DecidableLT W] [Top W] (f : TriPathFinder W) : Prop :=
  (∃ refs, f.SoleTriangle refs) →
    f.findProfitablePaths ≠ [] ∧ ∀ path ∈ f.findProfitablePaths, f.ListsTriangle path

/-! ## Exact logarithms -/

/-- The logarithm of a decimal. -/
noncomputable def lnExact (x : Decimal) : EReal := (Real.log (x : ℝ) : ℝ)

/-- A trading pair as it is added. -/
structure PairListing where
  pairSymbol : String
  baseCurrency : String
  quoteCurrency : String
  price : Decimal
  fee : Decimal
  price_pos : 0 < price
  fee_nonneg : 0 ≤ fee
  fee_lt_one : fee < 1

/-- The finder after some pairs have been added. -/
noncomputable def ofListings (currencies : List String) (minProfitPct : Decimal)
    (listings : List PairListing) : TriPathFinder EReal :=
  listings.foldl
    (fun f l => f.addPair lnExact l.pairSymbol l.baseCurrency l.quoteCurrency l.price l.fee)
    (new currencies minProfitPct)

/-- The edges of a node after an edge was added. -/
lemma mem_edgesFrom_pushEdge {f : TriPathFinder W} {node node' : ℕ} {edge edge' : GraphEdge W}
    (h : edge' ∈ (f.pushEdge node edge).edgesFrom node') :
    edge' ∈ f.edgesFrom node' ∨ edge' = edge := by
  unfold edgesFrom pushEdge at h
  dsimp only at h
  rw [List.getElem?_modify] at h
  unfold edgesFrom
  cases hnode : f.edges[node']? with
  | none => simp [hnode] at h
  | some edges =>
    rw [hnode] at h
    split_ifs at h with heq
    · simpa using h
    · exact Or.inl (by simpa using h)

/-- An edge with a real weight does not shorten an infinite distance. -/
lemma NoShortcut.pushEdge {f : TriPathFinder EReal} (hf : f.NoShortcut) (node : ℕ)
    {edge : GraphEdge EReal} {w : ℝ} (hedge : edge.logRate = w) :
    (f.pushEdge node edge).NoShortcut := by
  intro node' edge' hmem
  rcases mem_edgesFrom_pushEdge hmem with hold | rfl
  · exact hf node' edge' hold
  · rw [hedge, EReal.top_add_coe]
    exact lt_irrefl _

/-- The edges of a pair have real weights. -/
lemma NoShortcut.addPair {f : TriPathFinder EReal} (hf : f.NoShortcut)
    (pairSymbol baseCurrency quoteCurrency : String) (price fee : Decimal) :
    (f.addPair lnExact pairSymbol baseCurrency quoteCurrency price fee).NoShortcut := by
  unfold TriPathFinder.addPair
  split
  · exact (hf.pushEdge _ (EReal.coe_neg _).symm).pushEdge _ (EReal.coe_neg _).symm
  · exact hf

/-- In a finder built from pairs no edge shortens an infinite distance. -/
lemma noShortcut_ofListings (currencies : List String) (minProfitPct : Decimal)
    (listings : List PairListing) : (ofListings currencies minProfitPct listings).NoShortcut := by
  refine List.foldlRecOn (motive := NoShortcut) listings _ ?_ fun f hf l _ =>
    NoShortcut.addPair hf _ _ _ _ _
  intro node edge hmem
  have hnone : (new currencies minProfitPct : TriPathFinder EReal).edgesFrom node = [] := by
    simp only [edgesFrom, new, withMaxIterations, List.getElem?_replicate]
    split_ifs <;> rfl
  rw [hnone] at hmem
  exact absurd hmem List.not_mem_nil

/-- No finder with a sole profitable triangle finds it. -/
theorem triangle_never_found (currencies : List String) (minProfitPct : Decimal)
    (listings : List PairListing)
    (hsole : ∃ refs, (ofListings currencies minProfitPct listings).SoleTriangle refs) :
    ¬ (ofListings currencies minProfitPct listings).FindsTriangle := by
  intro hfinds
  exact (hfinds hsole).1
    (findProfitablePaths_eq_nil (noShortcut_ofListings currencies minProfitPct listings))

/-! ## A skewed triangle -/

/-- A pair at a fee of ten basis points. -/
def listing (pairSymbol baseCurrency quoteCurrency : String) (price : Decimal) (h : 0 < price) :
    PairListing where
  pairSymbol := pairSymbol
  baseCurrency := baseCurrency
  quoteCurrency := quoteCurrency
  price := price
  fee := 1 / 1000
  price_pos := h
  fee_nonneg := by norm_num
  fee_lt_one := by norm_num

/-- Three currencies of which the third is dear in the first: a dollar buys a unit of the second,
that one buys a unit of the third, and it sells for eleven tenths. -/
noncomputable def skewedFinder : TriPathFinder EReal :=
  ofListings ["USDT", "BTC", "ETH"] (1 / 100)
    [listing "BTCUSDT" "BTC" "USDT" 1 (by norm_num), listing "ETHBTC" "ETH" "BTC" 1 (by norm_num),
      listing "ETHUSDT" "ETH" "USDT" (11 / 10) (by norm_num)]

/-- The edges of the skewed triangle. -/
def skewedRefs : List (ℕ × ℕ) := [(0, 0), (0, 1), (1, 0), (1, 1), (2, 0), (2, 1)]

/-- Two edges leave each of the three currencies. -/
lemma mem_skewedRefs {ref : ℕ × ℕ} {edge : GraphEdge EReal}
    (h : skewedFinder.edgeAt ref = some edge) : ref ∈ skewedRefs := by
  obtain ⟨node, i⟩ := ref
  have hlengths : skewedFinder.edges.map List.length = [2, 2, 2] := by decide +kernel
  have hi : i < (skewedFinder.edgesFrom node).length := (List.getElem?_eq_some_iff.mp h).1
  have hnode : (skewedFinder.edgesFrom node).length = ([2, 2, 2][node]?).getD 0 := by
    rw [← hlengths, List.getElem?_map, edgesFrom]
    cases skewedFinder.edges[node]? with
    | none => rfl
    | some edges => rfl
  rw [hnode] at hi
  have hlt : node < 3 := by
    by_contra hge
    rw [List.getElem?_eq_none (by simpa using hge)] at hi
    exact absurd hi (Nat.not_lt_zero i)
  interval_cases node
  · have : i < 2 := hi
    interval_cases i <;> decide
  · have : i < 2 := hi
    interval_cases i <;> decide
  · have : i < 2 := hi
    interval_cases i <;> decide

/-- The only profitable cycle is the one through the three currencies. -/
lemma soleTriangle_skewedFinder : skewedFinder.SoleTriangle [(0, 0), (1, 1), (2, 1)] where
  cycle := ⟨by simp, by decide, by decide +kernel⟩
  length := rfl
  profitable := by decide +kernel
  threshold := by decide +kernel
  sole := by
    intro refs hcycle hprofit
    have hmem : ∀ ref ∈ refs, ref ∈ skewedRefs := by
      intro ref href
      obtain ⟨edge, hedge⟩ := hcycle.exists_edgeAt href
      exact mem_skewedRefs hedge
    have hone : ∀ a ∈ skewedRefs, ¬ skewedFinder.Follows a a := by decide +kernel
    have htwo : ∀ a ∈ skewedRefs, ∀ b ∈ skewedRefs, skewedFinder.Follows a b →
        skewedFinder.Follows b a → ¬ 1 < skewedFinder.factor [a, b] := by decide +kernel
    have hthree : ∀ a ∈ skewedRefs, ∀ b ∈ skewedRefs, skewedFinder.Follows a b →
        ∀ c ∈ skewedRefs, skewedFinder.Follows b c → skewedFinder.Follows c a →
          [a.1, b.1, c.1].Nodup → 1 < skewedFinder.factor [a, b, c] →
            [a, b, c] ~r [(0, 0), (1, 1), (2, 1)] := by decide +kernel
    have hlen : refs.length ≤ 3 := by
      have hsub : refs.map Prod.fst ⊆ List.range 3 := by
        intro node hnode
        obtain ⟨ref, href, rfl⟩ := List.mem_map.mp hnode
        have hnodes : ∀ ref ∈ skewedRefs, ref.1 ∈ List.range 3 := by decide
        exact hnodes ref (hmem ref href)
      have hle := (hcycle.nodup.subperm hsub).length_le
      rwa [List.length_map, List.length_range] at hle
    -- the length of a cycle is the number of its nodes
    rcases refs with _ | ⟨a, _ | ⟨b, _ | ⟨c, _ | ⟨d, rest⟩⟩⟩⟩
    · exact absurd rfl hcycle.nonempty
    · exact absurd (hcycle.step (a, a) (by simp)) (hone a (hmem a (by simp)))
    · exact absurd hprofit (htwo a (hmem a (by simp)) b (hmem b (by simp))
        (hcycle.step (a, b) (by simp)) (hcycle.step (b, a) (by simp)))
    · exact hthree a (hmem a (by simp)) b (hmem b (by simp)) (hcycle.step (a, b) (by simp))
        c (hmem c (by simp)) (hcycle.step (b, c) (by simp)) (hcycle.step (c, a) (by simp))
        hcycle.nodup hprofit
    · simp only [List.length_cons] at hlen
      omega

/-- The skewed triangle is not found. -/
theorem triangle_never_found_skewed : ¬ skewedFinder.FindsTriangle :=
  triangle_never_found _ _ _ ⟨_, soleTriangle_skewedFinder⟩

/-- A profitable triangle need not be found. -/
theorem not_forall_findsTriangle :
    ¬ ∀ (currencies : List String) (minProfitPct : Decimal) (listings : List PairListing),
      3 ≤ currencies.length → (ofListings currencies minProfitPct listings).FindsTriangle := by
  intro h
  have hfinds : skewedFinder.FindsTriangle := h _ _ _ (by decide)
  exact (hfinds ⟨_, soleTriangle_skewedFinder⟩).1
    (findProfitablePaths_eq_nil (noShortcut_ofListings _ _ _))

end TriPathFinder

end HftArb
