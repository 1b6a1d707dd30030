import HftArb.Foundations.AssocMap
import HftArb.Foundations.MissingCounts
import HftArb.Foundations.Runs
import HftArb.Strategies.ArenaUpdates

/-!
# The coin finder

A scan cycle asks every exchange for its pairs.  A pair that passes the filters gets the token id of
its base symbol, a new one if the symbol is not registered, and the exchange is recorded as listing
the token.  The arena's tables are then built and the tokens that have been missing for too many
cycles are pruned: `pruneStaleTokens` removes a token that no exchange has listed, and zeroes the
prices of a token on an exchange that does not list it.

The filter, the conversion to upper case and the order of the hash maps are parameters.  A cycle
answers with a `CycleReport` of what it saw and did.
-/

namespace HftArb

open AssocMap MissingCounts

/-! ## Data -/

/-- A pair as an exchange lists it.  The parsers of the answers put the base in upper case. -/
structure RawPair (toUppercase : String → String) where
  base : String
  quote : String
  rawSymbol : String
  statusOk : Bool
  base_upper : toUppercase base = base

/-- The pairs of one exchange. -/
structure ExchangeScanResult (toUppercase : String → String) where
  exchangeId : UInt16
  pairs : List (RawPair toUppercase)

/-- A custom mapping of a pair to exchanges.  Its symbol was put in upper case when it was added, so
that every first part of it is in upper case. -/
structure CustomMapping (toUppercase : String → String) where
  symbol : String
  exchangeIds : List UInt16
  upper : ∀ n, toUppercase (String.ofList (symbol.toList.take n)) =
    String.ofList (symbol.toList.take n)

/-- What the scanner reads of its configuration. -/
structure CoinFinderConfig where
  quoteAnchors : List String
  allowedCategories : UInt16
  crossArbRemovalCycles : UInt32
  triArbRemovalCycles : UInt32

/-- The scanner with the registries, the arena and the counters it writes.  A counter that is
missing from its map is zero. -/
structure CoinFinder where
  /-- The keys of `exchange_rest_urls`. -/
  exchangeIds : List UInt16
  config : CoinFinderConfig
  arena : MarketArena
  /-- The allocator's symbols by token id. -/
  tokenRegistry : UInt16 → Option String
  /-- The allocator's token ids by symbol. -/
  symbolToId : String → Option UInt16
  nextTokenId : UInt16
  globalSymbolMap : String → Option UInt16
  tokenCategories : UInt16 → Option UInt16
  tokenMissingCounts : UInt16 → UInt32
  tokenExchangeMissingCounts : UInt16 × UInt16 → UInt32
  exchangeIds_nodup : exchangeIds.Nodup

/-- An accepted pair of an exchange. -/
structure PairEntry where
  tokenId : UInt16
  base : String
  quote : String
  rawSymbol : String
  deriving DecidableEq

namespace MarketArena

/-- Add a token to the active list. -/
def registerActiveToken (a : MarketArena) (tokenId : UInt16) : MarketArena :=
  if tokenId ∈ a.activeTokens then a else { a with activeTokens := a.activeTokens ++ [tokenId] }

/-- Take a token from the active list. -/
def unregisterActiveToken (a : MarketArena) (tokenId : UInt16) : MarketArena :=
  { a with activeTokens := a.activeTokens.filter fun t => t ≠ tokenId }

end MarketArena

namespace CoinFinder

/-! ## Registration -/

/-- `MAX_DISCOVERED_TOKENS`. -/
def maxDiscoveredTokens : UInt16 := 2990

/-- Ids below this one are pre-registered and never pruned. -/
def firstDiscovered : UInt16 := 100

/-- A scanner as the constructor makes it, over an arena and the allocator's registry. -/
def new (exchangeIds : List UInt16) (hnodup : exchangeIds.Nodup) (config : CoinFinderConfig)
    (arena : MarketArena) (tokenRegistry : UInt16 → Option String)
    (symbolToId : String → Option UInt16) (startTokenId : UInt16) : CoinFinder where
  exchangeIds := exchangeIds
  config := config
  arena := arena
  tokenRegistry := tokenRegistry
  symbolToId := symbolToId
  nextTokenId := startTokenId
  globalSymbolMap := fun _ => none
  tokenCategories := fun _ => none
  tokenMissingCounts := fun _ => 0
  tokenExchangeMissingCounts := fun _ => 0
  exchangeIds_nodup := hnodup

/-- Allocate a token id, unless the safety cap is reached. -/
def allocTokenId (f : CoinFinder) : Option (UInt16 × CoinFinder) :=
  if maxDiscoveredTokens ≤ f.nextTokenId then none
  else some (f.nextTokenId, { f with nextTokenId := f.nextTokenId + 1 })

section Model

variable (toUppercase : String → String)

/-- The token id of a symbol, with whether it is new; nothing when no id is left. -/
def getOrCreateTokenId (f : CoinFinder) (symbol : String) (categoryMask : UInt16) :
    Option (UInt16 × Bool) × CoinFinder :=
  match f.globalSymbolMap symbol with
  | some id =>
    (some (id, false),
      { f with
        tokenCategories := Function.update f.tokenCategories id
          ((f.tokenCategories id).map (· ||| categoryMask)) })
  | none =>
    match f.allocTokenId with
    | none => (none, f)
    | some (id, f) =>
      (some (id, true),
        { f with
          globalSymbolMap := Function.update f.globalSymbolMap (toUppercase symbol) (some id)
          tokenCategories := Function.update f.tokenCategories id (some categoryMask)
          symbolToId := Function.update f.symbolToId (toUppercase symbol) (some id)
          tokenRegistry := Function.update f.tokenRegistry id (some (toUppercase symbol))
          arena := f.arena.registerActiveToken id })

/-! ## Scanning -/

/-- What a cycle has gathered: the accepted pairs of each exchange, the exchanges of each token, and
the ids it created. -/
structure Scan where
  finder : CoinFinder
  exchangePairs : List (UInt16 × List PairEntry)
  tokenExchangePresence : List (UInt16 × List UInt16)
  created : List (UInt16 × String)

variable (passesFilter : String → String → Bool × UInt16)

/-- The category of a pair that passes the filter and the category allowlist. -/
def accepts (config : CoinFinderConfig) (base quote : String) : Option UInt16 :=
  if (passesFilter base quote).1 then
    if config.allowedCategories ≠ 0 ∧
        (passesFilter base quote).2 &&& config.allowedCategories = 0 then none
    else some (passesFilter base quote).2
  else none

/-- Register the symbol of an accepted pair. -/
def Scan.register (scan : Scan) (base : String) (category : UInt16) : Option UInt16 × Scan :=
  let answer := getOrCreateTokenId toUppercase scan.finder base category
  match answer.1 with
  | none => (none, { scan with finder := answer.2 })
  | some (id, isNew) =>
    (some id,
      { scan with
        finder := answer.2
        created := if isNew then scan.created ++ [(id, base)] else scan.created })

/-- One pair of an exchange, after the pairs accepted before it. -/
def scanPair (exchId : UInt16) (acc : Scan × List PairEntry) (pair : RawPair toUppercase) :
    Scan × List PairEntry :=
  if pair.statusOk then
    match accepts passesFilter acc.1.finder.config pair.base pair.quote with
    | none => acc
    | some category =>
      let scan := (acc.1.register toUppercase pair.base category).2
      match (acc.1.register toUppercase pair.base category).1 with
      | none => (scan, acc.2)
      | some tokenId =>
        ({ scan with
          tokenExchangePresence := record scan.tokenExchangePresence tokenId exchId },
          acc.2 ++ [⟨tokenId, pair.base, pair.quote, pair.rawSymbol⟩])
  else acc

/-- The pairs of one exchange. -/
def scanResult (scan : Scan) (result : ExchangeScanResult toUppercase) : Scan :=
  let filtered :=
    result.pairs.foldl (scanPair toUppercase passesFilter result.exchangeId) (scan, [])
  { filtered.1 with
    exchangePairs := upsert result.exchangeId (fun _ => filtered.2) filtered.1.exchangePairs }

/-- The base and the quote of a custom symbol: the first anchor that ends it and leaves a base. -/
def splitCustom (quoteAnchors : List String) (symbol : String) : Option (String × String) :=
  quoteAnchors.findSome? fun anchor =>
    if anchor.toList.isSuffixOf symbol.toList ∧ anchor.toList.length < symbol.toList.length then
      some
        (String.ofList (symbol.toList.take (symbol.toList.length - anchor.toList.length)), anchor)
    else none

/-- Put a token on an exchange that does not list it yet. -/
def mapToken (entry : PairEntry) (scan : Scan) (targetExch : UInt16) : Scan :=
  if entry.tokenId ∈ ((scan.exchangePairs.lookup targetExch).getD []).map PairEntry.tokenId then
    scan
  else
    { scan with
      tokenExchangePresence := record scan.tokenExchangePresence entry.tokenId targetExch
      exchangePairs :=
        upsert targetExch (fun pairs => pairs.getD [] ++ [entry]) scan.exchangePairs }

/-- Apply one custom mapping. -/
def applyMapping (scan : Scan) (mapping : CustomMapping toUppercase) : Scan :=
  match splitCustom scan.finder.config.quoteAnchors mapping.symbol with
  | none => scan
  | some (base, quote) =>
    match accepts passesFilter scan.finder.config base quote with
    | none => scan
    | some category =>
      let registered := (scan.register toUppercase base category).2
      match (scan.register toUppercase base category).1 with
      | none => registered
      | some tokenId =>
        mapping.exchangeIds.foldl (mapToken ⟨tokenId, base, quote, mapping.symbol⟩) registered

/-- The pairs of each exchange with both tokens registered, for the triangular loops. -/
def triPairMap (scan : Scan) : List (UInt16 × List (UInt16 × UInt16)) :=
  scan.exchangePairs.map fun listed =>
    (listed.1, listed.2.filterMap fun p =>
      (scan.finder.symbolToId (toUppercase p.quote)).map fun quoteId => (p.tokenId, quoteId))

/-! ## Pruning -/

/-- The regrouping of the presence map for the triangular pruner, which takes its keys for
exchanges and its elements for tokens. -/
def exchTokenSeen (tokenExchangePresence : List (UInt16 × List UInt16)) :
    List (UInt16 × List UInt16) :=
  tokenExchangePresence.foldl
    (fun seen entry => entry.2.foldl (fun seen tokenId => record seen entry.1 tokenId) seen) []

/-- Remove a token from the arena and the registries. -/
def removeToken (f : CoinFinder) (tokenId : UInt16) : CoinFinder :=
  let symbol := (f.tokenRegistry tokenId).getD ("id:" ++ toString tokenId)
  { f with
    arena := (f.arena.invalidateToken tokenId.toNat).unregisterActiveToken tokenId
    tokenMissingCounts := Function.update f.tokenMissingCounts tokenId 0
    tokenExchangeMissingCounts := fun pair =>
      if pair.1 = tokenId then 0 else f.tokenExchangeMissingCounts pair
    globalSymbolMap := Function.update f.globalSymbolMap symbol none
    tokenCategories := Function.update f.tokenCategories tokenId none }

/-- Zero the prices of a token on an exchange, unless the token was removed or the pair has no slot
in the arena. -/
def zeroPair (removed : List UInt16) (acc : CoinFinder × List (UInt16 × UInt16))
    (pair : UInt16 × UInt16) : CoinFinder × List (UInt16 × UInt16) :=
  if pair.1 ∈ removed then acc
  else if acc.1.arena.totalExchanges ≤ pair.2.toNat ∨ acc.1.arena.totalTokens ≤ pair.1.toNat then
    acc
  else
    ({ acc.1 with
      arena := acc.1.arena.store (acc.1.arena.getIndex pair.2.toNat pair.1.toNat) 0 0
      tokenExchangeMissingCounts := Function.update acc.1.tokenExchangeMissingCounts pair
        acc.1.config.triArbRemovalCycles },
      acc.2 ++ [pair])

/-- The discovered tokens on the active list. -/
def discovered (f : CoinFinder) : List UInt16 :=
  f.arena.activeTokens.filter fun tokenId => firstDiscovered ≤ tokenId

/-- The absences from all exchanges, with the tokens to be removed. -/
def crossSweep (f : CoinFinder) (tokenExchangePresence : List (UInt16 × List UInt16)) :
    (UInt16 → UInt32) × List UInt16 :=
  if 0 < f.config.crossArbRemovalCycles then
    sweep (fun tokenId => (tokenExchangePresence.lookup tokenId).isSome)
      f.config.crossArbRemovalCycles f.tokenMissingCounts f.discovered
  else (f.tokenMissingCounts, [])

/-- The absences from single exchanges, with the pairs to be zeroed. -/
def triSweep (f : CoinFinder) (tokenExchangePresence : List (UInt16 × List UInt16)) :
    (UInt16 × UInt16 → UInt32) × List (UInt16 × UInt16) :=
  if 0 < f.config.triArbRemovalCycles then
    sweep (fun pair => pair.1 ∈ groupOf (exchTokenSeen tokenExchangePresence) pair.2)
      f.config.triArbRemovalCycles f.tokenExchangeMissingCounts (f.discovered ×ˢ f.exchangeIds)
  else (f.tokenExchangeMissingCounts, [])

/-- What a pruning did: the tokens it removed and the pairs it zeroed. -/
structure Pruned where
  removed : List UInt16
  zeroed : List (UInt16 × UInt16)

/-- Prune the tokens that have been missing for too many cycles. -/
def pruneStaleTokens (f : CoinFinder) (tokenExchangePresence : List (UInt16 × List UInt16)) :
    Pruned × CoinFinder :=
  if f.config.crossArbRemovalCycles = 0 ∧ f.config.triArbRemovalCycles = 0 then (⟨[], []⟩, f)
  else
    let cross := f.crossSweep tokenExchangePresence
    let tri := f.triSweep tokenExchangePresence
    let counted := { f with tokenMissingCounts := cross.1, tokenExchangeMissingCounts := tri.1 }
    let zeroed := tri.2.foldl (zeroPair cross.2) (cross.2.foldl removeToken counted, [])
    (⟨cross.2, zeroed.2⟩,
      if cross.2 ≠ [] ∨ zeroed.2 ≠ [] then
        { zeroed.1 with arena := zeroed.1.arena.buildCrossExchangeTargets }
      else zeroed.1)

/-! ## A cycle -/

/-- What a cycle finds: the prices the feeds have left in the arena, the answers of the exchanges
and the custom mappings in the order of their map. -/
structure CycleInput where
  bidPrices : ℕ → UInt64
  askPrices : ℕ → UInt64
  results : List (ExchangeScanResult toUppercase)
  customMappings : List (CustomMapping toUppercase)
  /-- Each exchange is asked once. -/
  results_nodup : (results.map ExchangeScanResult.exchangeId).Nodup

/-- What a cycle saw and did. -/
structure CycleReport where
  /-- The active list when the pruning starts. -/
  active : List UInt16
  exchangePairs : List (UInt16 × List PairEntry)
  tokenExchangePresence : List (UInt16 × List UInt16)
  created : List (UInt16 × String)
  removed : List UInt16
  zeroed : List (UInt16 × UInt16)

/-- The answers and the mappings of a cycle gathered. -/
def gather (f : CoinFinder) (input : CycleInput toUppercase) : Scan :=
  let arena := { f.arena with bidPrices := input.bidPrices, askPrices := input.askPrices }
  let scanned := input.results.foldl (scanResult toUppercase passesFilter)
    ⟨{ f with arena := arena }, [], [], []⟩
  input.customMappings.foldl (applyMapping toUppercase passesFilter) scanned

/-- Build the arena's tables from what was gathered: the targets from the presence map, then the
targets from the prices, then the loops. -/
def buildTables (scan : Scan) : CoinFinder :=
  { scan.finder with
    arena := ((scan.finder.arena.buildCrossExchangeTargetsFromPresence
        scan.tokenExchangePresence).buildCrossExchangeTargets).buildTriangularLoops
      (triPairMap toUppercase scan) }

/-- One scan cycle. -/
def scanCycle (f : CoinFinder) (input : CycleInput toUppercase) :
    CoinFinder × List CycleReport :=
  let scan := gather toUppercase passesFilter f input
  let built := buildTables toUppercase scan
  let pruned := built.pruneStaleTokens scan.tokenExchangePresence
  (pruned.2,
    [⟨built.arena.activeTokens, scan.exchangePairs, scan.tokenExchangePresence, scan.created,
      pruned.1.removed, pruned.1.zeroed⟩])

end Model

/-! ## Registering symbols -/

/-- Every id of the symbol map is on the active list under its symbol, and ids are handed out in
ascending order. -/
structure Registered (start : UInt16) (f : CoinFinder) : Prop where
  start_le : start ≤ f.nextTokenId
  nodup : f.arena.activeTokens.Nodup
  bounds : ∀ t ∈ f.arena.activeTokens, start ≤ t ∧ t < f.nextTokenId
  named : ∀ t ∈ f.arena.activeTokens,
    ∃ sym, f.tokenRegistry t = some sym ∧ f.globalSymbolMap sym = some t
  mapped : ∀ sym t, f.globalSymbolMap sym = some t →
    t ∈ f.arena.activeTokens ∧ f.tokenRegistry t = some sym

/-- What registering symbols leaves of the scanner, and what it only adds to. -/
structure Grown (f g : CoinFinder) : Prop where
  config : g.config = f.config
  exchangeIds : g.exchangeIds = f.exchangeIds
  missing : g.tokenMissingCounts = f.tokenMissingCounts
  exchangeMissing : g.tokenExchangeMissingCounts = f.tokenExchangeMissingCounts
  sizes : g.arena.totalTokens = f.arena.totalTokens ∧
    g.arena.totalExchanges = f.arena.totalExchanges
  prices : g.arena.bidPrices = f.arena.bidPrices ∧ g.arena.askPrices = f.arena.askPrices
  next_le : f.nextTokenId ≤ g.nextTokenId
  active : ∀ t ∈ f.arena.activeTokens, t ∈ g.arena.activeTokens
  fresh : ∀ t ∈ g.arena.activeTokens, t ∈ f.arena.activeTokens ∨ f.nextTokenId ≤ t
  mapped : ∀ sym t, f.globalSymbolMap sym = some t → g.globalSymbolMap sym = some t
  names : ∀ t < f.nextTokenId, g.tokenRegistry t = f.tokenRegistry t

lemma Grown.refl (f : CoinFinder) : Grown f f :=
  ⟨rfl, rfl, rfl, rfl, ⟨rfl, rfl⟩, ⟨rfl, rfl⟩, UInt16.le_refl _, fun _ h => h, fun _ h => Or.inl h,
    fun _ _ h => h, fun _ _ => rfl⟩

lemma Grown.trans {f g h : CoinFinder} (hfg : Grown f g) (hgh : Grown g h) : Grown f h where
  config := hgh.config.trans hfg.config
  exchangeIds := hgh.exchangeIds.trans hfg.exchangeIds
  missing := hgh.missing.trans hfg.missing
  exchangeMissing := hgh.exchangeMissing.trans hfg.exchangeMissing
  sizes := ⟨hgh.sizes.1.trans hfg.sizes.1, hgh.sizes.2.trans hfg.sizes.2⟩
  prices := ⟨hgh.prices.1.trans hfg.prices.1, hgh.prices.2.trans hfg.prices.2⟩
  next_le := UInt16.le_trans hfg.next_le hgh.next_le
  active := fun t ht => hgh.active t (hfg.active t ht)
  fresh := by
    intro t ht
    rcases hgh.fresh t ht with ht | hle
    · exact hfg.fresh t ht
    · exact Or.inr (UInt16.le_trans hfg.next_le hle)
  mapped := fun sym t h => hgh.mapped sym t (hfg.mapped sym t h)
  names := by
    intro t ht
    exact (hgh.names t (UInt16.lt_of_lt_of_le ht hfg.next_le)).trans (hfg.names t ht)

variable {toUppercase : String → String} {start : UInt16} {f : CoinFinder}

/-- The scanner after it has given the next id to a symbol. -/
def withNewToken (f : CoinFinder) (symbol : String) (cats : UInt16 → Option UInt16)
    (ids : String → Option UInt16) : CoinFinder :=
  { f with
    nextTokenId := f.nextTokenId + 1
    globalSymbolMap := Function.update f.globalSymbolMap symbol (some f.nextTokenId)
    tokenCategories := cats
    symbolToId := ids
    tokenRegistry := Function.update f.tokenRegistry f.nextTokenId (some symbol)
    arena := f.arena.registerActiveToken f.nextTokenId }

/-- What a request for the id of a symbol in upper case can answer: the id of the symbol, nothing
when the ids have run out, or a new id. -/
lemma getOrCreateTokenId_cases (f : CoinFinder) {symbol : String}
    (hupper : toUppercase symbol = symbol) (category : UInt16) :
    (∃ id cats, f.globalSymbolMap symbol = some id ∧
        getOrCreateTokenId toUppercase f symbol category =
          (some (id, false), { f with tokenCategories := cats })) ∨
      (f.globalSymbolMap symbol = none ∧ maxDiscoveredTokens ≤ f.nextTokenId ∧
        getOrCreateTokenId toUppercase f symbol category = (none, f)) ∨
      (f.globalSymbolMap symbol = none ∧ f.nextTokenId < maxDiscoveredTokens ∧
        ∃ cats ids, getOrCreateTokenId toUppercase f symbol category =
          (some (f.nextTokenId, true), f.withNewToken symbol cats ids)) := by
  cases hmap : f.globalSymbolMap symbol with
  | some id =>
    refine Or.inl ⟨id, Function.update f.tokenCategories id
      ((f.tokenCategories id).map (· ||| category)), rfl, ?_⟩
    simp only [getOrCreateTokenId, hmap]
  | none =>
    by_cases hcap : maxDiscoveredTokens ≤ f.nextTokenId
    · refine Or.inr (Or.inl ⟨rfl, hcap, ?_⟩)
      simp only [getOrCreateTokenId, hmap, allocTokenId, hcap, if_true]
    · refine Or.inr (Or.inr ⟨rfl, UInt16.not_le.mp hcap,
        Function.update f.tokenCategories f.nextTokenId (some category),
        Function.update f.symbolToId symbol (some f.nextTokenId), ?_⟩)
      simp only [getOrCreateTokenId, hmap, allocTokenId, hcap, if_false, hupper, withNewToken]

/-- The next id is below the ones after it. -/
lemma nextTokenId_lt_succ (h : f.nextTokenId < maxDiscoveredTokens) :
    f.nextTokenId < f.nextTokenId + 1 := by
  rw [UInt16.lt_iff_toNat_lt] at h ⊢
  have hcap : maxDiscoveredTokens.toNat = 2990 := rfl
  rw [UInt16.toNat_add, UInt16.toNat_one, Nat.mod_eq_of_lt (by omega)]
  omega

/-- The active list of a registered scanner after a new id. -/
lemma Registered.activeTokens_withNewToken (hf : Registered start f) (symbol : String)
    (cats : UInt16 → Option UInt16) (ids : String → Option UInt16) :
    f.nextTokenId ∉ f.arena.activeTokens ∧
      (f.withNewToken symbol cats ids).arena.activeTokens =
        f.arena.activeTokens ++ [f.nextTokenId] := by
  have hnew : f.nextTokenId ∉ f.arena.activeTokens :=
    fun hmem => UInt16.lt_irrefl _ (hf.bounds _ hmem).2
  exact ⟨hnew, by simp only [withNewToken, MarketArena.registerActiveToken, hnew, if_false]⟩

/-- A new id keeps the registry in order. -/
lemma Registered.withNewToken (hf : Registered start f) {symbol : String}
    (hmap : f.globalSymbolMap symbol = none) (hcap : f.nextTokenId < maxDiscoveredTokens)
    (cats : UInt16 → Option UInt16) (ids : String → Option UInt16) :
    Registered start (f.withNewToken symbol cats ids) := by
  obtain ⟨hnew, hactive⟩ := hf.activeTokens_withNewToken symbol cats ids
  have hlt := nextTokenId_lt_succ hcap
  have hmem : ∀ t, t ∈ (f.withNewToken symbol cats ids).arena.activeTokens ↔
      t ∈ f.arena.activeTokens ∨ t = f.nextTokenId := by
    intro t
    rw [hactive]
    simp
  constructor
  · exact UInt16.le_trans hf.start_le (UInt16.le_of_lt hlt)
  · rw [hactive]
    exact List.nodup_append.mpr ⟨hf.nodup, List.nodup_singleton _, by
      rintro t ht t' ht' rfl
      exact hnew (List.mem_singleton.mp ht' ▸ ht)⟩
  · intro t ht
    rcases (hmem t).mp ht with ht | rfl
    · exact ⟨(hf.bounds t ht).1, UInt16.lt_trans (hf.bounds t ht).2 hlt⟩
    · exact ⟨hf.start_le, hlt⟩
  · intro t ht
    rcases (hmem t).mp ht with ht | rfl
    · obtain ⟨sym, hname, hsym⟩ := hf.named t ht
      have hne : sym ≠ symbol := by
        rintro rfl
        simp [hmap] at hsym
      have hne' : t ≠ f.nextTokenId := fun heq => hnew (heq ▸ ht)
      refine ⟨sym, ?_, ?_⟩
      · simpa only [CoinFinder.withNewToken, Function.update_of_ne hne'] using hname
      · simpa only [CoinFinder.withNewToken, Function.update_of_ne hne] using hsym
    · exact ⟨symbol, Function.update_self .., Function.update_self ..⟩
  · intro sym t hsym
    rw [hmem]
    simp only [CoinFinder.withNewToken] at hsym ⊢
    by_cases heq : sym = symbol
    · subst heq
      rw [Function.update_self, Option.some_inj] at hsym
      subst hsym
      exact ⟨Or.inr rfl, Function.update_self ..⟩
    · rw [Function.update_of_ne heq] at hsym
      obtain ⟨ht, hname⟩ := hf.mapped sym t hsym
      have hne' : t ≠ f.nextTokenId := fun heq => hnew (heq ▸ ht)
      exact ⟨Or.inl ht, by rw [Function.update_of_ne hne', hname]⟩

/-- A new id only adds to the scanner. -/
lemma Registered.grown_withNewToken (hf : Registered start f) {symbol : String}
    (hmap : f.globalSymbolMap symbol = none) (hcap : f.nextTokenId < maxDiscoveredTokens)
    (cats : UInt16 → Option UInt16) (ids : String → Option UInt16) :
    Grown f (f.withNewToken symbol cats ids) := by
  obtain ⟨hnew, hactive⟩ := hf.activeTokens_withNewToken symbol cats ids
  have harena : (f.withNewToken symbol cats ids).arena =
      { f.arena with activeTokens := f.arena.activeTokens ++ [f.nextTokenId] } := by
    simp only [CoinFinder.withNewToken, MarketArena.registerActiveToken, hnew, if_false]
  refine ⟨rfl, rfl, rfl, rfl, ?_, ?_, UInt16.le_of_lt (nextTokenId_lt_succ hcap), ?_, ?_, ?_, ?_⟩
  · rw [harena]
    exact ⟨rfl, rfl⟩
  · rw [harena]
    exact ⟨rfl, rfl⟩
  · intro t ht
    rw [hactive]
    exact List.mem_append_left _ ht
  · intro t ht
    rw [hactive, List.mem_append, List.mem_singleton] at ht
    rcases ht with ht | rfl
    · exact Or.inl ht
    · exact Or.inr (UInt16.le_refl _)
  · intro sym t hsym
    have hne : sym ≠ symbol := by
      rintro rfl
      simp [hmap] at hsym
    simpa only [CoinFinder.withNewToken, Function.update_of_ne hne] using hsym
  · intro t ht
    have hne : t ≠ f.nextTokenId := by
      rintro rfl
      exact UInt16.lt_irrefl _ ht
    simp only [CoinFinder.withNewToken, Function.update_of_ne hne]

/-! ## What a cycle gathers -/

/-- The tokens accepted on an exchange. -/
def acceptedOn (exchangePairs : List (UInt16 × List PairEntry)) (exchId : UInt16) : List UInt16 :=
  ((exchangePairs.lookup exchId).getD []).map PairEntry.tokenId

/-- The state of a scan that the scanner `f` has begun: the registry is in order, the ids created
are new and ascending, and every token with an exchange is active. -/
structure Gathering (start : UInt16) (f : CoinFinder) (scan : Scan) : Prop where
  registered : Registered start scan.finder
  grown : Grown f scan.finder
  ascending : (scan.created.map Prod.fst).Pairwise (· < ·)
  created : ∀ c ∈ scan.created, f.nextTokenId ≤ c.1 ∧ c.1 < scan.finder.nextTokenId ∧
    scan.finder.tokenRegistry c.1 = some c.2
  origin : ∀ sym id, scan.finder.globalSymbolMap sym = some id →
    f.globalSymbolMap sym = some id ∨ (id, sym) ∈ scan.created
  mapped : ∀ c ∈ scan.created, scan.finder.globalSymbolMap c.2 = some c.1
  active : ∀ t exchId, exchId ∈ groupOf scan.tokenExchangePresence t →
    t ∈ scan.finder.arena.activeTokens
  keys : ∀ t, (scan.tokenExchangePresence.lookup t).isSome = true ↔
    ∃ exchId, exchId ∈ groupOf scan.tokenExchangePresence t
  keys_nodup : (scan.tokenExchangePresence.map Prod.fst).Nodup

/-- A scan goes on when only categories change. -/
lemma Gathering.withCategories {scan : Scan} (h : Gathering start f scan)
    (cats : UInt16 → Option UInt16) :
    Gathering start f { scan with finder := { scan.finder with tokenCategories := cats } } where
  registered := ⟨h.registered.start_le, h.registered.nodup, h.registered.bounds,
    h.registered.named, h.registered.mapped⟩
  grown := ⟨h.grown.config, h.grown.exchangeIds, h.grown.missing, h.grown.exchangeMissing,
    h.grown.sizes, h.grown.prices, h.grown.next_le, h.grown.active, h.grown.fresh, h.grown.mapped,
    h.grown.names⟩
  ascending := h.ascending
  created := h.created
  origin := h.origin
  mapped := h.mapped
  active := h.active
  keys := h.keys
  keys_nodup := h.keys_nodup

/-- The scan after it has given a new id to a symbol. -/
def Scan.withNewToken (scan : Scan) (base : String) (cats : UInt16 → Option UInt16)
    (ids : String → Option UInt16) : Scan :=
  { scan with
    finder := scan.finder.withNewToken base cats ids
    created := scan.created ++ [(scan.finder.nextTokenId, base)] }

/-- A scan goes on when a symbol gets a new id. -/
lemma Gathering.withNewToken {scan : Scan} (h : Gathering start f scan) {base : String}
    (hmap : scan.finder.globalSymbolMap base = none)
    (hcap : scan.finder.nextTokenId < maxDiscoveredTokens) (cats : UInt16 → Option UInt16)
    (ids : String → Option UInt16) :
    Gathering start f (scan.withNewToken base cats ids) := by
  have hgrown := h.registered.grown_withNewToken hmap hcap cats ids
  have hlt := nextTokenId_lt_succ hcap
  refine ⟨h.registered.withNewToken hmap hcap cats ids, h.grown.trans hgrown, ?_, ?_, ?_, ?_, ?_,
    h.keys, h.keys_nodup⟩
  · rw [Scan.withNewToken, List.map_append, List.pairwise_append]
    refine ⟨h.ascending, List.pairwise_singleton _ _, ?_⟩
    intro id hid id' hid'
    obtain ⟨c, hc, rfl⟩ := List.mem_map.mp hid
    obtain rfl := List.mem_singleton.mp hid'
    exact (h.created c hc).2.1
  · intro c hc
    rcases List.mem_append.mp hc with hc | hc
    · obtain ⟨hle, hltc, hname⟩ := h.created c hc
      exact ⟨hle, UInt16.lt_trans hltc hlt, (hgrown.names c.1 hltc).trans hname⟩
    · obtain rfl := List.mem_singleton.mp hc
      exact ⟨h.grown.next_le, hlt, Function.update_self ..⟩
  · intro sym id hid
    simp only [Scan.withNewToken, CoinFinder.withNewToken] at hid ⊢
    rw [List.mem_append, List.mem_singleton]
    by_cases heq : sym = base
    · subst heq
      rw [Function.update_self, Option.some_inj] at hid
      exact Or.inr (Or.inr (by rw [hid]))
    · rw [Function.update_of_ne heq] at hid
      exact (h.origin sym id hid).imp_right Or.inl
  · intro c hc
    rcases List.mem_append.mp hc with hc | hc
    · exact hgrown.mapped _ _ (h.mapped c hc)
    · obtain rfl := List.mem_singleton.mp hc
      exact Function.update_self ..
  · intro t exchId hmem
    exact hgrown.active t (h.active t exchId hmem)

/-- What registering the symbol of a pair can do to a scan. -/
lemma Scan.register_cases (scan : Scan) {base : String} (hupper : toUppercase base = base)
    (category : UInt16) :
    (∃ id cats, scan.finder.globalSymbolMap base = some id ∧
        scan.register toUppercase base category =
          (some id, { scan with finder := { scan.finder with tokenCategories := cats } })) ∨
      (maxDiscoveredTokens ≤ scan.finder.nextTokenId ∧
        scan.register toUppercase base category = (none, scan)) ∨
      (scan.finder.globalSymbolMap base = none ∧ scan.finder.nextTokenId < maxDiscoveredTokens ∧
        ∃ cats ids, scan.register toUppercase base category =
          (some scan.finder.nextTokenId, scan.withNewToken base cats ids)) := by
  rcases getOrCreateTokenId_cases scan.finder hupper category with
    ⟨id, cats, hmap, hanswer⟩ | ⟨-, hcap, hanswer⟩ | ⟨hmap, hcap, cats, ids, hanswer⟩
  · refine Or.inl ⟨id, cats, hmap, ?_⟩
    simp only [Scan.register, hanswer]
    rfl
  · refine Or.inr (Or.inl ⟨hcap, ?_⟩)
    simp only [Scan.register, hanswer]
  · refine Or.inr (Or.inr ⟨hmap, hcap, cats, ids, ?_⟩)
    simp only [Scan.register, hanswer, if_true, Scan.withNewToken]

/-- Registering the symbol of a pair: the scan goes on, and the symbol's id is active. -/
lemma Gathering.register {scan : Scan} (h : Gathering start f scan) {base : String}
    (hupper : toUppercase base = base) (category : UInt16) :
    Gathering start f (scan.register toUppercase base category).2 ∧
      ((scan.register toUppercase base category).2.exchangePairs = scan.exchangePairs ∧
        (scan.register toUppercase base category).2.tokenExchangePresence =
          scan.tokenExchangePresence) ∧
      ∀ id, (scan.register toUppercase base category).1 = some id →
        id ∈ (scan.register toUppercase base category).2.finder.arena.activeTokens := by
  rcases scan.register_cases hupper category with
    ⟨id, cats, hmap, hreg⟩ | ⟨hcap, hreg⟩ | ⟨hmap, hcap, cats, ids, hreg⟩
  · rw [hreg]
    refine ⟨h.withCategories cats, ⟨rfl, rfl⟩, ?_⟩
    intro id' hid
    obtain rfl := Option.some.inj hid
    exact (h.registered.mapped base _ hmap).1
  · rw [hreg]
    exact ⟨h, ⟨rfl, rfl⟩, fun id hid => absurd hid (by simp)⟩
  · rw [hreg]
    refine ⟨h.withNewToken hmap hcap cats ids, ⟨rfl, rfl⟩, ?_⟩
    intro id hid
    obtain rfl := Option.some.inj hid
    have hactive := (h.registered.activeTokens_withNewToken base cats ids).2
    simp only [Scan.withNewToken, hactive, List.mem_append, List.mem_singleton, or_true]

/-- Recording an exchange for an active token. -/
lemma Gathering.record {scan : Scan} (h : Gathering start f scan) {tokenId : UInt16}
    (hactive : tokenId ∈ scan.finder.arena.activeTokens) (exchId : UInt16)
    (exchangePairs : List (UInt16 × List PairEntry)) :
    Gathering start f
      { scan with
        exchangePairs := exchangePairs
        tokenExchangePresence := record scan.tokenExchangePresence tokenId exchId } := by
  refine ⟨h.registered, h.grown, h.ascending, h.created, h.origin, h.mapped, ?_, ?_, ?_⟩
  · intro t exchId' hmem
    rcases mem_groupOf_record.mp hmem with ⟨rfl, -⟩ | hmem
    · exact hactive
    · exact h.active t exchId' hmem
  · intro t
    simp only [mem_groupOf_record]
    rw [AssocMap.record, lookup_upsert]
    by_cases ht : t = tokenId
    · subst ht
      rw [if_pos rfl]
      exact iff_of_true rfl ⟨exchId, Or.inl ⟨rfl, rfl⟩⟩
    · rw [if_neg ht, h.keys t]
      simp [ht]
  · exact nodup_keys_upsert h.keys_nodup

/-- An exchange is recorded for a token exactly when it has an accepted pair of the token, where the
pending pairs are those of one exchange that are not stored yet. -/
def Matches (scan : Scan) (exchId : UInt16) (pending : List PairEntry) : Prop :=
  ∀ t e, e ∈ groupOf scan.tokenExchangePresence t ↔
    t ∈ acceptedOn scan.exchangePairs e ∨ e = exchId ∧ t ∈ pending.map PairEntry.tokenId

section Folds

variable (passesFilter : String → String → Bool × UInt16)

/-- One pair of an exchange. -/
lemma Gathering.scanPair {exchId : UInt16} {acc : Scan × List PairEntry}
    (h : Gathering start f acc.1) (hmatch : Matches acc.1 exchId acc.2)
    (pair : RawPair toUppercase) :
    Gathering start f (scanPair toUppercase passesFilter exchId acc pair).1 ∧
      Matches (scanPair toUppercase passesFilter exchId acc pair).1 exchId
        (scanPair toUppercase passesFilter exchId acc pair).2 ∧
      (scanPair toUppercase passesFilter exchId acc pair).1.exchangePairs =
        acc.1.exchangePairs := by
  unfold CoinFinder.scanPair
  rw [h.grown.config]
  by_cases hok : pair.statusOk = true
  · rw [if_pos hok]
    cases haccepts : accepts passesFilter f.config pair.base pair.quote with
    | none => exact ⟨h, hmatch, rfl⟩
    | some category =>
      obtain ⟨hscan, ⟨hpairs, hpresence⟩, hactive⟩ := h.register pair.base_upper category
      dsimp only
      cases hid : (acc.1.register toUppercase pair.base category).1 with
      | none =>
        refine ⟨hscan, ?_, hpairs⟩
        intro t e
        rw [hpresence, hpairs]
        exact hmatch t e
      | some tokenId =>
        refine ⟨hscan.record (hactive tokenId hid) exchId _, ?_, hpairs⟩
        intro t e
        dsimp only
        rw [mem_groupOf_record, hpresence, hpairs, hmatch t e, List.map_append, List.mem_append]
        simp only [List.map_cons, List.map_nil, List.mem_singleton]
        tauto
  · rw [if_neg hok]
    exact ⟨h, hmatch, rfl⟩

/-- The pairs of an exchange. -/
lemma Gathering.foldl_scanPair {exchId : UInt16} (pairs : List (RawPair toUppercase))
    {acc : Scan × List PairEntry} (h : Gathering start f acc.1)
    (hmatch : Matches acc.1 exchId acc.2) :
    Gathering start f (pairs.foldl (CoinFinder.scanPair toUppercase passesFilter exchId) acc).1 ∧
      Matches (pairs.foldl (CoinFinder.scanPair toUppercase passesFilter exchId) acc).1 exchId
        (pairs.foldl (CoinFinder.scanPair toUppercase passesFilter exchId) acc).2 ∧
      (pairs.foldl (CoinFinder.scanPair toUppercase passesFilter exchId) acc).1.exchangePairs =
        acc.1.exchangePairs := by
  induction pairs generalizing acc with
  | nil => exact ⟨h, hmatch, rfl⟩
  | cons pair pairs ih =>
    obtain ⟨hstep, hmatch', hpairs⟩ := h.scanPair passesFilter hmatch pair
    obtain ⟨hrest, hmatch'', hpairs'⟩ := ih hstep hmatch'
    exact ⟨hrest, hmatch'', hpairs'.trans hpairs⟩

/-- Storing the accepted pairs of an exchange changes only its own list. -/
lemma lookup_scanResult (scan : Scan) (result : ExchangeScanResult toUppercase)
    (hpairs : (result.pairs.foldl (CoinFinder.scanPair toUppercase passesFilter result.exchangeId)
      (scan, [])).1.exchangePairs = scan.exchangePairs) (e : UInt16) :
    (scanResult toUppercase passesFilter scan result).exchangePairs.lookup e =
      if e = result.exchangeId then
        some (result.pairs.foldl (CoinFinder.scanPair toUppercase passesFilter result.exchangeId)
          (scan, [])).2
      else scan.exchangePairs.lookup e := by
  rw [scanResult, lookup_upsert, hpairs]

/-- The answer of an exchange that was not stored before. -/
lemma Gathering.scanResult {scan : Scan} (h : Gathering start f scan)
    (hmatch : Matches scan 0 []) (result : ExchangeScanResult toUppercase)
    (hnew : scan.exchangePairs.lookup result.exchangeId = none) :
    Gathering start f (scanResult toUppercase passesFilter scan result) ∧
      Matches (scanResult toUppercase passesFilter scan result) 0 [] ∧
      ∀ e, e ≠ result.exchangeId →
        (scanResult toUppercase passesFilter scan result).exchangePairs.lookup e =
          scan.exchangePairs.lookup e := by
  have hstart : Matches (scan, ([] : List PairEntry)).1 result.exchangeId [] := by
    intro t e
    rw [hmatch t e]
    simp
  obtain ⟨hscan, hmatch', hpairs⟩ :=
    Gathering.foldl_scanPair passesFilter result.pairs
      (show Gathering start f (scan, ([] : List PairEntry)).1 from h) hstart
  have hlookup := lookup_scanResult passesFilter scan result hpairs
  refine ⟨⟨hscan.registered, hscan.grown, hscan.ascending, hscan.created, hscan.origin,
    hscan.mapped, hscan.active, hscan.keys, hscan.keys_nodup⟩, ?_, ?_⟩
  · intro t e
    rw [acceptedOn, hlookup e]
    change e ∈ groupOf (result.pairs.foldl _ (scan, [])).1.tokenExchangePresence t ↔ _
    rw [hmatch' t e, acceptedOn, hpairs]
    by_cases he : e = result.exchangeId
    · subst he
      simp [hnew]
    · simp [he]
  · intro e he
    rw [hlookup e, if_neg he]

/-- The answers of exchanges that are all different and not stored before. -/
lemma Gathering.foldl_scanResult (results : List (ExchangeScanResult toUppercase))
    {scan : Scan} (h : Gathering start f scan) (hmatch : Matches scan 0 [])
    (hnodup : (results.map ExchangeScanResult.exchangeId).Nodup)
    (hnew : ∀ result ∈ results, scan.exchangePairs.lookup result.exchangeId = none) :
    Gathering start f (results.foldl (CoinFinder.scanResult toUppercase passesFilter) scan) ∧
      Matches (results.foldl (CoinFinder.scanResult toUppercase passesFilter) scan) 0 [] := by
  induction results generalizing scan with
  | nil => exact ⟨h, hmatch⟩
  | cons result results ih =>
    rw [List.map_cons, List.nodup_cons] at hnodup
    obtain ⟨hstep, hmatch', hlookup⟩ :=
      h.scanResult passesFilter hmatch result (hnew result (by simp))
    have hnew' : ∀ r ∈ results, (CoinFinder.scanResult toUppercase passesFilter scan
        result).exchangePairs.lookup r.exchangeId = none := by
      intro r hr
      have hne : r.exchangeId ≠ result.exchangeId :=
        fun heq => hnodup.1 (List.mem_map.mpr ⟨r, hr, heq⟩)
      rw [hlookup _ hne]
      exact hnew r (by simp [hr])
    exact ih hstep hmatch' hnodup.2 hnew'

/-- Putting a token on an exchange by a custom mapping. -/
lemma Gathering.mapToken {scan : Scan} (h : Gathering start f scan) (hmatch : Matches scan 0 [])
    {entry : PairEntry} (hactive : entry.tokenId ∈ scan.finder.arena.activeTokens)
    (targetExch : UInt16) :
    Gathering start f (mapToken entry scan targetExch) ∧
      Matches (mapToken entry scan targetExch) 0 [] ∧
      (mapToken entry scan targetExch).finder = scan.finder := by
  unfold CoinFinder.mapToken
  split
  · exact ⟨h, hmatch, rfl⟩
  · refine ⟨h.record hactive targetExch _, ?_, rfl⟩
    intro t e
    dsimp only
    rw [mem_groupOf_record, hmatch t e, acceptedOn, acceptedOn, lookup_upsert]
    by_cases he : e = targetExch
    · subst he
      rw [if_pos rfl, Option.getD_some, List.map_append, List.mem_append]
      simp only [List.map_cons, List.map_nil, List.mem_singleton, List.not_mem_nil, and_false,
        or_false, and_true]
      tauto
    · simp [he]

/-- Putting a token on several exchanges by a custom mapping. -/
lemma Gathering.foldl_mapToken (exchIds : List UInt16) {scan : Scan} (h : Gathering start f scan)
    (hmatch : Matches scan 0 []) {entry : PairEntry}
    (hactive : entry.tokenId ∈ scan.finder.arena.activeTokens) :
    Gathering start f (exchIds.foldl (CoinFinder.mapToken entry) scan) ∧
      Matches (exchIds.foldl (CoinFinder.mapToken entry) scan) 0 [] := by
  induction exchIds generalizing scan with
  | nil => exact ⟨h, hmatch⟩
  | cons e exchIds ih =>
    obtain ⟨hstep, hmatch', hfinder⟩ := h.mapToken hmatch hactive e
    exact ih hstep hmatch' (by rwa [hfinder])

/-- The base of a custom symbol is in upper case. -/
lemma upper_of_splitCustom {mapping : CustomMapping toUppercase} {anchors : List String}
    {base quote : String} (h : splitCustom anchors mapping.symbol = some (base, quote)) :
    toUppercase base = base := by
  obtain ⟨anchor, -, hanchor⟩ := List.exists_of_findSome?_eq_some h
  rw [Option.ite_none_right_eq_some, Option.some_inj, Prod.mk.injEq] at hanchor
  rw [← hanchor.2.1]
  exact mapping.upper _

/-- A custom mapping. -/
lemma Gathering.applyMapping {scan : Scan} (h : Gathering start f scan)
    (hmatch : Matches scan 0 []) (mapping : CustomMapping toUppercase) :
    Gathering start f (applyMapping toUppercase passesFilter scan mapping) ∧
      Matches (applyMapping toUppercase passesFilter scan mapping) 0 [] := by
  unfold CoinFinder.applyMapping
  cases hsplit : splitCustom scan.finder.config.quoteAnchors mapping.symbol with
  | none => exact ⟨h, hmatch⟩
  | some bq =>
    obtain ⟨base, quote⟩ := bq
    dsimp only
    cases accepts passesFilter scan.finder.config base quote with
    | none => exact ⟨h, hmatch⟩
    | some category =>
      obtain ⟨hscan, ⟨hpairs, hpresence⟩, hactive⟩ :=
        h.register (upper_of_splitCustom hsplit) category
      have hmatch' : Matches (scan.register toUppercase base category).2 0 [] := by
        intro t e
        rw [hpresence, hpairs]
        exact hmatch t e
      dsimp only
      cases hid : (scan.register toUppercase base category).1 with
      | none => exact ⟨hscan, hmatch'⟩
      | some tokenId =>
        exact hscan.foldl_mapToken mapping.exchangeIds hmatch'
          (show (PairEntry.mk tokenId base quote mapping.symbol).tokenId ∈ _ from
            hactive tokenId hid)

/-- All custom mappings. -/
lemma Gathering.foldl_applyMapping (mappings : List (CustomMapping toUppercase)) {scan : Scan}
    (h : Gathering start f scan) (hmatch : Matches scan 0 []) :
    Gathering start f (mappings.foldl (CoinFinder.applyMapping toUppercase passesFilter) scan) ∧
      Matches (mappings.foldl (CoinFinder.applyMapping toUppercase passesFilter) scan) 0 [] := by
  induction mappings generalizing scan with
  | nil => exact ⟨h, hmatch⟩
  | cons mapping mappings ih =>
    obtain ⟨hstep, hmatch'⟩ := h.applyMapping passesFilter hmatch mapping
    exact ih hstep hmatch'

/-- The scanner with the prices a cycle finds. -/
def withPrices (f : CoinFinder) (input : CycleInput toUppercase) : CoinFinder :=
  { f with arena := { f.arena with bidPrices := input.bidPrices, askPrices := input.askPrices } }

/-- What a cycle gathers: the scan is in order, and every recorded exchange has an accepted pair of
the token and conversely. -/
lemma gather_spec (hf : Registered start f) (input : CycleInput toUppercase) :
    Gathering start (f.withPrices input) (gather toUppercase passesFilter f input) ∧
      Matches (gather toUppercase passesFilter f input) 0 [] := by
  have hbegin : Gathering start (f.withPrices input) ⟨f.withPrices input, [], [], []⟩ := by
    refine ⟨⟨hf.start_le, hf.nodup, hf.bounds, hf.named, hf.mapped⟩, Grown.refl _,
      List.Pairwise.nil, fun c hc => absurd hc List.not_mem_nil, fun _ _ h => Or.inl h,
      fun c hc => absurd hc List.not_mem_nil, ?_, ?_, List.nodup_nil⟩
    · intro t exchId hmem
      exact absurd hmem List.not_mem_nil
    · intro t
      exact iff_of_false (by simp) fun ⟨_, hmem⟩ => absurd hmem List.not_mem_nil
  have hempty : Matches ⟨f.withPrices input, [], [], []⟩ 0 [] := by
    intro t e
    simp [groupOf, acceptedOn]
  obtain ⟨hscan, hmatch⟩ := hbegin.foldl_scanResult passesFilter input.results hempty
    input.results_nodup fun _ _ => rfl
  exact hscan.foldl_applyMapping passesFilter input.customMappings hmatch

end Folds

end CoinFinder

end HftArb
