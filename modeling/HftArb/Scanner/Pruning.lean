import HftArb.Scanner.GatheredPairs

/-!
# Pruning stale tokens

The cross-exchange pruner removes a token after a number of consecutive cycles without a listing.
`leaveOnTime` follows it over whole runs: the count of a token is the length of its current absence,
a removed token leaves the active list, the arena and the symbol map, and no id is given out twice.
A symbol that is listed again gets a new id exactly when the counter is below the safety cap at the
moment the symbol is scanned.
-/

namespace HftArb

open AssocMap FirstCome MissingCounts Runs

namespace MarketArena

/-- A single store zeroes its slot and leaves every other one. -/
lemma bid_ask_store_zero (a : MarketArena) (exchId exchId' : ℕ) {tokenId tokenId' : ℕ}
    (ht : tokenId < a.totalTokens) (ht' : tokenId' < a.totalTokens) :
    let b := a.store (a.getIndex exchId' tokenId') 0 0
    (b.bid exchId tokenId, b.ask exchId tokenId) =
      if exchId = exchId' ∧ tokenId = tokenId' then (0, 0)
      else (a.bid exchId tokenId, a.ask exchId tokenId) := by
  dsimp only [store, bid, ask]
  have hidx : (a.store (a.getIndex exchId' tokenId') 0 0).getIndex exchId tokenId =
      a.getIndex exchId tokenId := rfl
  rw [store] at hidx
  rw [hidx]
  by_cases h : exchId = exchId' ∧ tokenId = tokenId'
  · obtain ⟨rfl, rfl⟩ := h
    simp
  · have hne : a.getIndex exchId tokenId ≠ a.getIndex exchId' tokenId' :=
      fun heq => h ((a.getIndex_inj ht ht').mp heq)
    rw [if_neg h, Function.update_of_ne hne, Function.update_of_ne hne]

/-- Invalidating a token zeroes its slots and leaves every other one. -/
lemma bid_ask_invalidateToken (a : MarketArena) (tokenId' : ℕ) {exchId tokenId : ℕ}
    (he : exchId < a.totalExchanges) (ht : tokenId < a.totalTokens) :
    ((a.invalidateToken tokenId').bid exchId tokenId,
        (a.invalidateToken tokenId').ask exchId tokenId) =
      if tokenId = tokenId' then (0, 0) else (a.bid exchId tokenId, a.ask exchId tokenId) := by
  by_cases h : tokenId = tokenId'
  · subst h
    obtain ⟨hbid, hask⟩ := zeroSlot_invalidateToken he ht
    rw [if_pos rfl, hbid, hask]
  · rw [if_neg h]
    unfold invalidateToken
    split
    · rfl
    · next hrange =>
      have hnot : a.getIndex exchId tokenId ∉
          (List.range a.totalExchanges).map fun exchId => a.getIndex exchId tokenId' := by
        intro hmem
        obtain ⟨e, -, heq⟩ := List.mem_map.mp hmem
        exact h ((a.getIndex_inj (not_le.mp hrange) ht).mp heq).2.symm
      rw [zeroSlots_eq]
      simp only [bid, ask, Prod.mk.injEq]
      exact ⟨if_neg hnot, if_neg hnot⟩

end MarketArena

namespace CoinFinder

/-! ## Removing and zeroing -/

/-- The symbol under which a token is removed from the symbol map. -/
def symbolOf (f : CoinFinder) (tokenId : UInt16) : String :=
  (f.tokenRegistry tokenId).getD ("id:" ++ toString tokenId)

/-- The pair of a token and an exchange has a slot in the arena. -/
def InArena (f : CoinFinder) (pair : UInt16 × UInt16) : Prop :=
  pair.2.toNat < f.arena.totalExchanges ∧ pair.1.toNat < f.arena.totalTokens

instance (f : CoinFinder) (pair : UInt16 × UInt16) : Decidable (f.InArena pair) :=
  inferInstanceAs (Decidable (_ ∧ _))

/-- The two prices of a pair. -/
def pricesOf (f : CoinFinder) (pair : UInt16 × UInt16) : UInt64 × UInt64 :=
  (f.arena.bid pair.2.toNat pair.1.toNat, f.arena.ask pair.2.toNat pair.1.toNat)

/-- What pruning never touches. -/
structure SameRegistry (f g : CoinFinder) : Prop where
  config : g.config = f.config
  exchangeIds : g.exchangeIds = f.exchangeIds
  next : g.nextTokenId = f.nextTokenId
  names : g.tokenRegistry = f.tokenRegistry
  totalTokens : g.arena.totalTokens = f.arena.totalTokens
  totalExchanges : g.arena.totalExchanges = f.arena.totalExchanges

lemma SameRegistry.trans {f g h : CoinFinder} (hfg : SameRegistry f g) (hgh : SameRegistry g h) :
    SameRegistry f h :=
  ⟨hgh.config.trans hfg.config, hgh.exchangeIds.trans hfg.exchangeIds, hgh.next.trans hfg.next,
    hgh.names.trans hfg.names, hgh.totalTokens.trans hfg.totalTokens,
    hgh.totalExchanges.trans hfg.totalExchanges⟩

lemma SameRegistry.inArena_iff {f g : CoinFinder} (h : SameRegistry f g)
    (pair : UInt16 × UInt16) : g.InArena pair ↔ f.InArena pair := by
  rw [InArena, InArena, h.totalExchanges, h.totalTokens]

/-- The scanner `g` is `f` without the tokens. -/
structure Without (f : CoinFinder) (tokens : List UInt16) (g : CoinFinder) : Prop where
  same : SameRegistry f g
  active : g.arena.activeTokens = f.arena.activeTokens.filter fun t => t ∉ tokens
  missing : ∀ t, g.tokenMissingCounts t = if t ∈ tokens then 0 else f.tokenMissingCounts t
  exchangeMissing : ∀ pair, g.tokenExchangeMissingCounts pair =
    if pair.1 ∈ tokens then 0 else f.tokenExchangeMissingCounts pair
  symbols : ∀ sym, g.globalSymbolMap sym =
    if sym ∈ tokens.map f.symbolOf then none else f.globalSymbolMap sym
  prices : ∀ pair, f.InArena pair →
    g.pricesOf pair = if pair.1 ∈ tokens then (0, 0) else f.pricesOf pair

/-- Removing one token. -/
lemma without_removeToken (f : CoinFinder) (tokenId : UInt16) :
    Without f [tokenId] (f.removeToken tokenId) := by
  have htables := f.arena.sameTables_invalidateToken tokenId.toNat
  refine ⟨⟨rfl, rfl, rfl, rfl, htables.totalTokens, htables.totalExchanges⟩, ?_, ?_, ?_, ?_, ?_⟩
  · have hactive : (f.arena.invalidateToken tokenId.toNat).activeTokens = f.arena.activeTokens := by
      unfold MarketArena.invalidateToken
      split
      · rfl
      · rw [MarketArena.zeroSlots_eq]
    simp [removeToken, MarketArena.unregisterActiveToken, hactive]
  · intro t
    simp only [removeToken, Function.update_apply, List.mem_singleton]
  · intro pair
    simp only [removeToken, List.mem_singleton]
  · intro sym
    simp only [removeToken, Function.update_apply, List.map_cons, List.map_nil, List.mem_singleton]
    rfl
  · intro pair hpair
    have hprices := f.arena.bid_ask_invalidateToken tokenId.toNat hpair.1 hpair.2
    simp only [UInt16.toNat_inj] at hprices
    simp only [List.mem_singleton, pricesOf, removeToken]
    exact hprices

/-- Removing some tokens and then some more. -/
lemma Without.trans {f g h : CoinFinder} {tokens tokens' : List UInt16} (hfg : Without f tokens g)
    (hgh : Without g tokens' h) : Without f (tokens ++ tokens') h := by
  have hsymbolOf : g.symbolOf = f.symbolOf := by
    funext t
    rw [symbolOf, symbolOf, hfg.same.names]
  refine ⟨hfg.same.trans hgh.same, ?_, ?_, ?_, ?_, ?_⟩
  · rw [hgh.active, hfg.active, List.filter_filter]
    apply List.filter_congr
    intro t _
    rw [← Bool.decide_and, decide_eq_decide, List.mem_append, not_or, and_comm]
  · intro t
    rw [hgh.missing, hfg.missing]
    by_cases ht : t ∈ tokens <;> simp [ht]
  · intro pair
    rw [hgh.exchangeMissing, hfg.exchangeMissing]
    by_cases ht : pair.1 ∈ tokens <;> simp [ht]
  · intro sym
    rw [hgh.symbols, hfg.symbols, hsymbolOf, List.map_append]
    by_cases hsym : sym ∈ tokens.map f.symbolOf <;> simp only [List.mem_append, hsym] <;> simp
  · intro pair hpair
    rw [hgh.prices pair ((hfg.same.inArena_iff pair).mpr hpair), hfg.prices pair hpair]
    by_cases ht : pair.1 ∈ tokens <;> simp [ht]

/-- Removing the tokens of a list one after the other. -/
lemma without_foldl_removeToken (tokens : List UInt16) (f : CoinFinder) :
    Without f tokens (tokens.foldl removeToken f) := by
  induction tokens generalizing f with
  | nil =>
    refine ⟨⟨rfl, rfl, rfl, rfl, rfl, rfl⟩, ?_, ?_, ?_, ?_, ?_⟩ <;> simp
  | cons tokenId tokens ih => exact (without_removeToken f tokenId).trans (ih _)

/-- The pairs that the triangular pruner zeroes out of a list. -/
def zeroable (f : CoinFinder) (removed : List UInt16) (pairs : List (UInt16 × UInt16)) :
    List (UInt16 × UInt16) :=
  pairs.filter fun pair => pair.1 ∉ removed ∧ f.InArena pair

/-- The scanner `g` is `f` with the prices of some pairs zeroed. -/
structure Zeroed (f : CoinFinder) (pairs : List (UInt16 × UInt16)) (g : CoinFinder) : Prop where
  same : SameRegistry f g
  active : g.arena.activeTokens = f.arena.activeTokens
  missing : g.tokenMissingCounts = f.tokenMissingCounts
  symbols : g.globalSymbolMap = f.globalSymbolMap
  exchangeMissing : ∀ pair, g.tokenExchangeMissingCounts pair =
    if pair ∈ pairs then f.config.triArbRemovalCycles else f.tokenExchangeMissingCounts pair
  prices : ∀ pair, f.InArena pair →
    g.pricesOf pair = if pair ∈ pairs then (0, 0) else f.pricesOf pair

/-- Zeroing some pairs and then some more. -/
lemma Zeroed.trans {f g h : CoinFinder} {pairs pairs' : List (UInt16 × UInt16)}
    (hfg : Zeroed f pairs g) (hgh : Zeroed g pairs' h) : Zeroed f (pairs ++ pairs') h := by
  refine ⟨hfg.same.trans hgh.same, hgh.active.trans hfg.active, hgh.missing.trans hfg.missing,
    hgh.symbols.trans hfg.symbols, ?_, ?_⟩
  · intro pair
    rw [hgh.exchangeMissing, hfg.exchangeMissing, hfg.same.config]
    by_cases hmem : pair ∈ pairs <;> simp [hmem]
  · intro pair hpair
    rw [hgh.prices pair ((hfg.same.inArena_iff pair).mpr hpair), hfg.prices pair hpair]
    by_cases hmem : pair ∈ pairs <;> simp [hmem]

section ZeroPair

variable {removed : List UInt16} {acc : CoinFinder × List (UInt16 × UInt16)}
variable {pair : UInt16 × UInt16}

/-- A pair of a token that stays and that has a slot in the arena is zeroed. -/
lemma zeroPair_of_inArena (h : pair.1 ∉ removed ∧ acc.1.InArena pair) :
    zeroPair removed acc pair =
      ({ acc.1 with
        arena := acc.1.arena.store (acc.1.arena.getIndex pair.2.toNat pair.1.toNat) 0 0
        tokenExchangeMissingCounts := Function.update acc.1.tokenExchangeMissingCounts pair
          acc.1.config.triArbRemovalCycles },
        acc.2 ++ [pair]) := by
  have hbounds : ¬ (acc.1.arena.totalExchanges ≤ pair.2.toNat ∨
      acc.1.arena.totalTokens ≤ pair.1.toNat) := by
    rw [not_or, not_le, not_le]
    exact h.2
  rw [zeroPair, if_neg h.1, if_neg hbounds]

/-- Any other pair is skipped. -/
lemma zeroPair_of_not (h : ¬ (pair.1 ∉ removed ∧ acc.1.InArena pair)) :
    zeroPair removed acc pair = acc := by
  by_cases hmem : pair.1 ∈ removed
  · rw [zeroPair, if_pos hmem]
  · have hbounds : acc.1.arena.totalExchanges ≤ pair.2.toNat ∨
        acc.1.arena.totalTokens ≤ pair.1.toNat := by
      by_contra hslot
      rw [not_or, not_le, not_le] at hslot
      exact h ⟨hmem, hslot⟩
    rw [zeroPair, if_neg hmem, if_pos hbounds]

/-- Zeroing one pair. -/
lemma zeroed_zeroPair (h : pair.1 ∉ removed ∧ acc.1.InArena pair) :
    Zeroed acc.1 [pair] (zeroPair removed acc pair).1 := by
  rw [zeroPair_of_inArena h]
  refine ⟨⟨rfl, rfl, rfl, rfl, rfl, rfl⟩, rfl, rfl, rfl, ?_, ?_⟩
  · intro pair'
    simp only [Function.update_apply, List.mem_singleton]
  · intro pair' hpair'
    have hprices := acc.1.arena.bid_ask_store_zero pair'.2.toNat pair.2.toNat hpair'.2 h.2.2
    simp only [UInt16.toNat_inj, and_comm, ← Prod.ext_iff] at hprices
    simp only [List.mem_singleton, pricesOf]
    exact hprices

end ZeroPair

/-- Zeroing the pairs of a list one after the other. -/
lemma zeroed_foldl_zeroPair (removed : List UInt16) (pairs : List (UInt16 × UInt16))
    (acc : CoinFinder × List (UInt16 × UInt16)) :
    Zeroed acc.1 (acc.1.zeroable removed pairs) (pairs.foldl (zeroPair removed) acc).1 ∧
      (pairs.foldl (zeroPair removed) acc).2 = acc.2 ++ acc.1.zeroable removed pairs := by
  induction pairs generalizing acc with
  | nil =>
    refine ⟨⟨⟨rfl, rfl, rfl, rfl, rfl, rfl⟩, rfl, rfl, rfl, ?_, ?_⟩, ?_⟩ <;> simp [zeroable]
  | cons pair pairs ih =>
    rw [List.foldl_cons]
    by_cases hzero : pair.1 ∉ removed ∧ acc.1.InArena pair
    · have hlist : acc.1.zeroable removed (pair :: pairs) =
          [pair] ++ acc.1.zeroable removed pairs := by
        simp [zeroable, hzero]
      have hone := zeroed_zeroPair hzero
      have hzeroable : (zeroPair removed acc pair).1.zeroable removed pairs =
          acc.1.zeroable removed pairs := by
        simp only [zeroable, hone.same.inArena_iff]
      obtain ⟨hrest, hzeroed⟩ := ih (zeroPair removed acc pair)
      rw [hzeroable] at hrest hzeroed
      rw [hlist]
      refine ⟨hone.trans hrest, ?_⟩
      rw [hzeroed, zeroPair_of_inArena hzero, List.append_assoc]
    · have hlist : acc.1.zeroable removed (pair :: pairs) = acc.1.zeroable removed pairs := by
        simp [zeroable, hzero]
      rw [zeroPair_of_not hzero, hlist]
      exact ih acc

/-- What a pruning does, in one statement. -/
structure PruneSpec (f : CoinFinder) (presence : List (UInt16 × List UInt16)) (pruned : Pruned)
    (g : CoinFinder) : Prop where
  same : SameRegistry f g
  removed : pruned.removed = (f.crossSweep presence).2
  zeroed : pruned.zeroed = f.zeroable pruned.removed (f.triSweep presence).2
  active : g.arena.activeTokens = f.arena.activeTokens.filter fun t => t ∉ pruned.removed
  missing : ∀ t, g.tokenMissingCounts t =
    if t ∈ pruned.removed then 0 else (f.crossSweep presence).1 t
  exchangeMissing : ∀ pair, g.tokenExchangeMissingCounts pair =
    if pair.1 ∈ pruned.removed then 0
    else if pair ∈ pruned.zeroed then f.config.triArbRemovalCycles
    else (f.triSweep presence).1 pair
  symbols : ∀ sym, g.globalSymbolMap sym =
    if sym ∈ pruned.removed.map f.symbolOf then none else f.globalSymbolMap sym
  prices : ∀ pair, f.InArena pair → g.pricesOf pair =
    if pair.1 ∈ pruned.removed ∨ pair ∈ pruned.zeroed then (0, 0) else f.pricesOf pair

/-- The zeroed pairs are of tokens that stay. -/
lemma mem_zeroable {f : CoinFinder} {removed : List UInt16} {pairs : List (UInt16 × UInt16)}
    {pair : UInt16 × UInt16} :
    pair ∈ f.zeroable removed pairs ↔ pair ∈ pairs ∧ pair.1 ∉ removed ∧ f.InArena pair := by
  rw [zeroable, List.mem_filter, decide_eq_true_iff]

/-- The specification of the pruning, when one of the two pruners is on. -/
lemma pruneStaleTokens_spec (f : CoinFinder) (presence : List (UInt16 × List UInt16))
    (hon : ¬ (f.config.crossArbRemovalCycles = 0 ∧ f.config.triArbRemovalCycles = 0)) :
    PruneSpec f presence (f.pruneStaleTokens presence).1 (f.pruneStaleTokens presence).2 := by
  rw [pruneStaleTokens, if_neg hon]
  dsimp only
  have hwithout := without_foldl_removeToken (f.crossSweep presence).2
    { f with
      tokenMissingCounts := (f.crossSweep presence).1
      tokenExchangeMissingCounts := (f.triSweep presence).1 }
  generalize (f.crossSweep presence).2.foldl removeToken
    { f with
      tokenMissingCounts := (f.crossSweep presence).1
      tokenExchangeMissingCounts := (f.triSweep presence).1 } = without at hwithout ⊢
  obtain ⟨hzeroed, hpairs⟩ := zeroed_foldl_zeroPair (f.crossSweep presence).2
    (f.triSweep presence).2 (without, [])
  generalize (f.triSweep presence).2.foldl (zeroPair (f.crossSweep presence).2) (without, []) =
    zeroed at hzeroed hpairs ⊢
  have hsame : SameRegistry f without := ⟨hwithout.same.config, hwithout.same.exchangeIds,
    hwithout.same.next, hwithout.same.names, hwithout.same.totalTokens,
    hwithout.same.totalExchanges⟩
  have hzeroable : without.zeroable (f.crossSweep presence).2 (f.triSweep presence).2 =
      f.zeroable (f.crossSweep presence).2 (f.triSweep presence).2 := by
    simp only [zeroable, hsame.inArena_iff]
  rw [List.nil_append, hzeroable] at hpairs
  rw [hzeroable] at hzeroed
  have hspec : PruneSpec f presence ⟨(f.crossSweep presence).2, zeroed.2⟩ zeroed.1 := by
    refine ⟨hsame.trans hzeroed.same, rfl, hpairs, ?_, ?_, ?_, ?_, ?_⟩
    · rw [hzeroed.active, hwithout.active]
    · intro t
      rw [hzeroed.missing, hwithout.missing]
    · intro pair
      rw [hzeroed.exchangeMissing, hwithout.exchangeMissing, hsame.config, hpairs]
      by_cases hmem : pair.1 ∈ (f.crossSweep presence).2
      · have hnot : pair ∉ f.zeroable (f.crossSweep presence).2 (f.triSweep presence).2 :=
          fun h => (mem_zeroable.mp h).2.1 hmem
        rw [if_neg hnot, if_pos hmem, if_pos hmem]
      · rw [if_neg hmem, if_neg hmem]
    · intro sym
      rw [hzeroed.symbols, hwithout.symbols]
      rfl
    · intro pair hpair
      rw [hzeroed.prices pair ((hsame.inArena_iff pair).mpr hpair), hwithout.prices pair hpair,
        hpairs]
      by_cases hmem : pair.1 ∈ (f.crossSweep presence).2 <;> simp [hmem]
      rfl
  split
  · exact ⟨⟨hspec.same.config, hspec.same.exchangeIds, hspec.same.next, hspec.same.names,
      hspec.same.totalTokens, hspec.same.totalExchanges⟩, hspec.removed, hspec.zeroed,
      hspec.active, hspec.missing, hspec.exchangeMissing, hspec.symbols, hspec.prices⟩
  · exact hspec

/-! ## One cycle -/

/-- The exchange has an accepted pair of the token. -/
def CycleReport.Lists (rep : CycleReport) (exchId tokenId : UInt16) : Prop :=
  tokenId ∈ acceptedOn rep.exchangePairs exchId

instance (rep : CycleReport) (exchId tokenId : UInt16) : Decidable (rep.Lists exchId tokenId) :=
  inferInstanceAs (Decidable (_ ∈ _))

/-- Some exchange has an accepted pair of the token. -/
def CycleReport.Listed (rep : CycleReport) (tokenId : UInt16) : Prop :=
  ∃ listed ∈ rep.exchangePairs, tokenId ∈ acceptedOn rep.exchangePairs listed.1

instance (rep : CycleReport) (tokenId : UInt16) : Decidable (rep.Listed tokenId) :=
  inferInstanceAs (Decidable (∃ _ ∈ _, _))

variable {toUppercase : String → String} {passesFilter : String → String → Bool × UInt16}
variable {start : UInt16} {f : CoinFinder}

/-- The report of a cycle. -/
def reportOf (toUppercase : String → String) (passesFilter : String → String → Bool × UInt16)
    (f : CoinFinder) (input : CycleInput toUppercase) : CycleReport :=
  let scan := gather toUppercase passesFilter f input
  let pruned := ((buildTables toUppercase scan).pruneStaleTokens scan.tokenExchangePresence).1
  ⟨scan.finder.arena.activeTokens, scan.exchangePairs, scan.tokenExchangePresence, scan.created,
    pruned.removed, pruned.zeroed⟩

lemma scanCycle_snd (f : CoinFinder) (input : CycleInput toUppercase) :
    (scanCycle toUppercase passesFilter f input).2 =
      [reportOf toUppercase passesFilter f input] := rfl

/-- A token is listed by some exchange exactly when its presence is recorded. -/
lemma listed_iff {rep : CycleReport} {tokenId : UInt16} :
    rep.Listed tokenId ↔ ∃ exchId, rep.Lists exchId tokenId := by
  constructor
  · rintro ⟨listed, -, hmem⟩
    exact ⟨listed.1, hmem⟩
  · rintro ⟨exchId, hmem⟩
    cases hlookup : rep.exchangePairs.lookup exchId with
    | none =>
      rw [CycleReport.Lists, acceptedOn, hlookup] at hmem
      exact absurd hmem List.not_mem_nil
    | some pairs =>
      obtain ⟨before, after, hsplit, -⟩ := List.lookup_eq_some_iff.mp hlookup
      exact ⟨(exchId, pairs), by simp [hsplit], hmem⟩

/-- What one cycle of a registered scanner does. -/
structure CycleSpec (start : UInt16) (f : CoinFinder) (input : CycleInput toUppercase)
    (rep : CycleReport) (scanned g : CoinFinder) : Prop where
  grown : Grown (f.withPrices input) scanned
  registered : Registered start scanned
  active : rep.active = scanned.arena.activeTokens
  ascending : (rep.created.map Prod.fst).Pairwise (· < ·)
  created : ∀ c ∈ rep.created, f.nextTokenId ≤ c.1 ∧ c.1 < scanned.nextTokenId ∧
    scanned.tokenRegistry c.1 = some c.2
  lists_iff : ∀ exchId t, rep.Lists exchId t ↔ exchId ∈ groupOf rep.tokenExchangePresence t
  listed_iff : ∀ t, rep.Listed t ↔ (rep.tokenExchangePresence.lookup t).isSome = true
  keys_nodup : (rep.tokenExchangePresence.map Prod.fst).Nodup
  prune : PruneSpec scanned rep.tokenExchangePresence ⟨rep.removed, rep.zeroed⟩ g

/-- Building the tables registers nothing. -/
lemma grown_buildTables {scan : Scan} (h : Grown f scan.finder) :
    Grown f (buildTables toUppercase scan) :=
  ⟨h.config, h.exchangeIds, h.missing, h.exchangeMissing, h.sizes, h.prices, h.next_le, h.active,
    h.fresh, h.mapped, h.names⟩

lemma registered_buildTables {scan : Scan} (h : Registered start scan.finder) :
    Registered start (buildTables toUppercase scan) :=
  ⟨h.start_le, h.nodup, h.bounds, h.named, h.mapped⟩

/-- The specification of a cycle, when one of the two pruners is on. -/
lemma scanCycle_spec (passesFilter : String → String → Bool × UInt16) (hf : Registered start f)
    (hon : ¬ (f.config.crossArbRemovalCycles = 0 ∧ f.config.triArbRemovalCycles = 0))
    (input : CycleInput toUppercase) :
    CycleSpec start f input (reportOf toUppercase passesFilter f input)
      (buildTables toUppercase (gather toUppercase passesFilter f input))
      (scanCycle toUppercase passesFilter f input).1 := by
  obtain ⟨hscan, hmatch⟩ := gather_spec passesFilter hf input
  have hlists : ∀ exchId t, (reportOf toUppercase passesFilter f input).Lists exchId t ↔
      exchId ∈ groupOf (reportOf toUppercase passesFilter f input).tokenExchangePresence t := by
    intro exchId t
    refine ((hmatch t exchId).trans ?_).symm
    exact or_iff_left fun h => absurd h.2 List.not_mem_nil
  refine ⟨grown_buildTables hscan.grown, registered_buildTables hscan.registered, rfl,
    hscan.ascending, hscan.created, hlists, ?_, hscan.keys_nodup, ?_⟩
  · intro t
    rw [CoinFinder.listed_iff]
    simp only [hlists]
    exact (hscan.keys t).symm
  · apply pruneStaleTokens_spec
    rwa [(grown_buildTables hscan.grown).config]

section Cycle

variable {input : CycleInput toUppercase} {rep : CycleReport} {scanned g : CoinFinder}

/-- The discovered tokens of a cycle. -/
lemma CycleSpec.mem_discovered (h : CycleSpec start f input rep scanned g) {t : UInt16} :
    t ∈ scanned.discovered ↔ t ∈ rep.active ∧ firstDiscovered ≤ t := by
  rw [discovered, List.mem_filter, decide_eq_true_iff, h.active]

lemma CycleSpec.nodup_discovered (h : CycleSpec start f input rep scanned g) :
    scanned.discovered.Nodup :=
  h.registered.nodup.filter _

lemma CycleSpec.config_eq (h : CycleSpec start f input rep scanned g) :
    scanned.config = f.config := h.grown.config

/-- The tokens a cycle removes, with the cross-exchange pruner on: the discovered ones that are not
listed and whose count reaches the threshold. -/
lemma CycleSpec.mem_removed (h : CycleSpec start f input rep scanned g)
    (hcross : 0 < f.config.crossArbRemovalCycles) {t : UInt16} :
    t ∈ rep.removed ↔ t ∈ rep.active ∧ firstDiscovered ≤ t ∧ ¬ rep.Listed t ∧
      f.config.crossArbRemovalCycles ≤ f.tokenMissingCounts t + 1 := by
  have hremoved : rep.removed = (scanned.crossSweep rep.tokenExchangePresence).2 := h.prune.removed
  have hmissing : scanned.tokenMissingCounts = f.tokenMissingCounts := h.grown.missing
  rw [hremoved, crossSweep, h.config_eq, if_pos hcross, mem_sweep h.nodup_discovered,
    h.mem_discovered, h.listed_iff, hmissing, Bool.not_eq_true]
  tauto

/-- Only active tokens are removed. -/
lemma CycleSpec.active_of_removed (h : CycleSpec start f input rep scanned g) {t : UInt16}
    (ht : t ∈ rep.removed) : t ∈ rep.active := by
  by_cases hcross : 0 < f.config.crossArbRemovalCycles
  · exact ((h.mem_removed hcross).mp ht).1
  · have hremoved : rep.removed = (scanned.crossSweep rep.tokenExchangePresence).2 :=
      h.prune.removed
    rw [hremoved, crossSweep, h.config_eq, if_neg hcross] at ht
    exact absurd ht List.not_mem_nil

/-- The active list after a cycle. -/
lemma CycleSpec.mem_active_after (h : CycleSpec start f input rep scanned g) {t : UInt16} :
    t ∈ g.arena.activeTokens ↔ t ∈ rep.active ∧ t ∉ rep.removed := by
  rw [h.prune.active, List.mem_filter, decide_eq_true_iff, h.active]

/-- The symbol under which an active token is removed is the one that maps to it. -/
lemma CycleSpec.mem_symbols_iff (h : CycleSpec start f input rep scanned g) {sym : String}
    {t : UInt16} (hmap : scanned.globalSymbolMap sym = some t) :
    sym ∈ rep.removed.map scanned.symbolOf ↔ t ∈ rep.removed := by
  have hsymbolOf : ∀ {t : UInt16} {sym : String}, scanned.tokenRegistry t = some sym →
      scanned.symbolOf t = sym := by
    intro t sym hname
    rw [symbolOf, hname, Option.getD_some]
  rw [List.mem_map]
  constructor
  · rintro ⟨t', ht', rfl⟩
    have hactive : t' ∈ scanned.arena.activeTokens := h.active ▸ h.active_of_removed ht'
    obtain ⟨sym', hname, hmap'⟩ := h.registered.named t' hactive
    rw [hsymbolOf hname] at hmap
    obtain rfl := Option.some.inj (hmap'.symm.trans hmap)
    exact ht'
  · intro ht
    exact ⟨t, ht, hsymbolOf (h.registered.mapped sym t hmap).2⟩

/-- A cycle keeps the registry in order. -/
lemma CycleSpec.registered_after (h : CycleSpec start f input rep scanned g) :
    Registered start g := by
  have hmem := fun t => h.mem_active_after (t := t)
  have hscanned : ∀ t, t ∈ rep.active → t ∈ scanned.arena.activeTokens := fun t ht => h.active ▸ ht
  refine ⟨?_, ?_, ?_, ?_, ?_⟩
  · rw [h.prune.same.next]
    exact h.registered.start_le
  · rw [h.prune.active]
    exact h.registered.nodup.filter _
  · intro t ht
    rw [h.prune.same.next]
    exact h.registered.bounds t (hscanned t ((hmem t).mp ht).1)
  · intro t ht
    obtain ⟨hactive, hstays⟩ := (hmem t).mp ht
    obtain ⟨sym, hname, hmap⟩ := h.registered.named t (hscanned t hactive)
    refine ⟨sym, by rw [h.prune.same.names, hname], ?_⟩
    rw [h.prune.symbols, if_neg ((h.mem_symbols_iff hmap).not.mpr hstays), hmap]
  · intro sym t hsym
    rw [h.prune.symbols] at hsym
    split at hsym
    · exact absurd hsym (by simp)
    · next hkept =>
      obtain ⟨hactive, hname⟩ := h.registered.mapped sym t hsym
      have hstays : t ∉ rep.removed := (h.mem_symbols_iff hsym).not.mp hkept
      exact ⟨(hmem t).mpr ⟨h.active ▸ hactive, hstays⟩, by rw [h.prune.same.names, hname]⟩

/-- The cross count after a cycle. -/
lemma CycleSpec.missing_after (h : CycleSpec start f input rep scanned g)
    (hcross : 0 < f.config.crossArbRemovalCycles) (t : UInt16) :
    g.tokenMissingCounts t =
      if t ∈ rep.removed then 0
      else if t ∈ rep.active ∧ firstDiscovered ≤ t then
        if rep.Listed t then 0 else f.tokenMissingCounts t + 1
      else f.tokenMissingCounts t := by
  have hmissing : scanned.tokenMissingCounts = f.tokenMissingCounts := h.grown.missing
  rw [h.prune.missing, crossSweep, h.config_eq, if_pos hcross, sweep_count h.nodup_discovered,
    hmissing]
  simp only [h.mem_discovered, h.listed_iff]

/-- A removed token has no prices. -/
lemma CycleSpec.zeroSlot_of_removed (h : CycleSpec start f input rep scanned g) {t : UInt16}
    (ht : t ∈ rep.removed) {exchId : ℕ} (he : exchId < g.arena.totalExchanges)
    (ht' : t.toNat < g.arena.totalTokens) : g.arena.ZeroSlot exchId t.toNat := by
  have hword : exchId < 2 ^ 16 := by
    have hbound := g.arena.totalExchanges_le
    omega
  have hexch : (UInt16.ofNat exchId).toNat = exchId := UInt16.toNat_ofNat_of_lt hword
  have hslot : scanned.InArena (t, UInt16.ofNat exchId) := by
    rw [InArena, hexch, ← h.prune.same.totalExchanges, ← h.prune.same.totalTokens]
    exact ⟨he, ht'⟩
  have hprices := h.prune.prices _ hslot
  rw [if_pos (Or.inl ht), pricesOf, hexch, Prod.mk.injEq] at hprices
  exact hprices

/-- The symbol of a removed token is free. -/
lemma CycleSpec.unmapped_of_removed (h : CycleSpec start f input rep scanned g) {t : UInt16}
    (ht : t ∈ rep.removed) :
    ∃ sym, g.tokenRegistry t = some sym ∧ g.globalSymbolMap sym = none := by
  have hactive : t ∈ scanned.arena.activeTokens := h.active ▸ h.active_of_removed ht
  obtain ⟨sym, hname, hmap⟩ := h.registered.named t hactive
  refine ⟨sym, by rw [h.prune.same.names, hname], ?_⟩
  rw [h.prune.symbols, if_pos ((h.mem_symbols_iff hmap).mpr ht)]

end Cycle

/-! ## Runs -/

/-- A scanner as it is created: no symbol is mapped, no token is active, nothing is counted, and the
first id is past the tokens registered by hand. -/
structure IsNew (start : UInt16) (f : CoinFinder) : Prop where
  next : f.nextTokenId = start
  active : f.arena.activeTokens = []
  map : ∀ sym, f.globalSymbolMap sym = none
  missing : ∀ t, f.tokenMissingCounts t = 0
  exchangeMissing : ∀ pair, f.tokenExchangeMissingCounts pair = 0
  names : ∀ t, start ≤ t → f.tokenRegistry t = none

/-- The constructor makes a new scanner when the arena has no active token yet and the start id is
past the tokens registered by hand. -/
lemma isNew_new {exchangeIds : List UInt16} (hnodup : exchangeIds.Nodup) (config : CoinFinderConfig)
    {arena : MarketArena} (harena : arena.activeTokens = []) {names : UInt16 → Option String}
    (ids : String → Option UInt16) (hnames : ∀ t, start ≤ t → names t = none) :
    IsNew start (new exchangeIds hnodup config arena names ids start) :=
  ⟨rfl, harena, fun _ => rfl, fun _ => rfl, fun _ => rfl, hnames⟩

/-- What the reports of a run have to do with the scanner it has reached. -/
structure Reached (start : UInt16) (f₀ f : CoinFinder) (history : List CycleReport) : Prop where
  registered : Registered start f
  config : f.config = f₀.config
  exchangeIds : f.exchangeIds = f₀.exchangeIds
  sizes : f.arena.totalTokens = f₀.arena.totalTokens ∧
    f.arena.totalExchanges = f₀.arena.totalExchanges
  recent : ∀ rep ∈ history, ∀ t ∈ rep.active, t < f.nextTokenId
  gone : ∀ rep ∈ history, ∀ t ∈ rep.removed, t < f.nextTokenId ∧ t ∉ f.arena.activeTokens
  idle : ∀ t, t ∉ f.arena.activeTokens → f.tokenMissingCounts t = 0
  created : ∀ c ∈ history.flatMap CycleReport.created, start ≤ c.1 ∧ c.1 < f.nextTokenId ∧
    f.tokenRegistry c.1 = some c.2
  ascending : ((history.flatMap CycleReport.created).map Prod.fst).Pairwise (· < ·)

/-- A new scanner. -/
lemma IsNew.reached (hf : IsNew start f) : Reached start f f [] := by
  refine ⟨⟨?_, ?_, ?_, ?_, ?_⟩, rfl, rfl, ⟨rfl, rfl⟩, ?_, ?_, fun t _ => hf.missing t, ?_, ?_⟩
  · rw [hf.next]
    exact UInt16.le_refl _
  · rw [hf.active]
    exact List.nodup_nil
  · simp [hf.active]
  · simp [hf.active]
  · simp [hf.map]
  · simp
  · simp
  · simp
  · simp

/-- Every cycle, with the cross-exchange pruner on. -/
lemma Reached.cycle {f₀ : CoinFinder} {history : List CycleReport}
    (h : Reached start f₀ f history) (hcross : 0 < f.config.crossArbRemovalCycles)
    {input : CycleInput toUppercase} {rep : CycleReport} {scanned g : CoinFinder}
    (hcycle : CycleSpec start f input rep scanned g) :
    Reached start f₀ g (history ++ [rep]) := by
  have hnext : f.nextTokenId ≤ g.nextTokenId := by
    rw [hcycle.prune.same.next]
    exact hcycle.grown.next_le
  have hnames : ∀ t < f.nextTokenId, g.tokenRegistry t = f.tokenRegistry t := by
    intro t ht
    rw [hcycle.prune.same.names]
    exact hcycle.grown.names t ht
  refine ⟨hcycle.registered_after, ?_, ?_, ?_, ?_, ?_, ?_, ?_, ?_⟩
  · rw [hcycle.prune.same.config, hcycle.config_eq, h.config]
  · rw [hcycle.prune.same.exchangeIds]
    exact hcycle.grown.exchangeIds.trans h.exchangeIds
  · rw [hcycle.prune.same.totalTokens, hcycle.prune.same.totalExchanges]
    exact ⟨hcycle.grown.sizes.1.trans h.sizes.1, hcycle.grown.sizes.2.trans h.sizes.2⟩
  · intro r hr t ht
    rcases List.mem_append.mp hr with hr | hr
    · exact UInt16.lt_of_lt_of_le (h.recent r hr t ht) hnext
    · obtain rfl := List.mem_singleton.mp hr
      rw [hcycle.prune.same.next]
      exact (hcycle.registered.bounds t (hcycle.active ▸ ht)).2
  · intro r hr t ht
    rcases List.mem_append.mp hr with hr | hr
    · obtain ⟨hlt, hgone⟩ := h.gone r hr t ht
      refine ⟨UInt16.lt_of_lt_of_le hlt hnext, fun hactive => ?_⟩
      have hactive' := hcycle.active ▸ (hcycle.mem_active_after.mp hactive).1
      rcases hcycle.grown.fresh t hactive' with hold | hle
      · exact hgone hold
      · exact UInt16.not_lt.mpr hle hlt
    · obtain rfl := List.mem_singleton.mp hr
      rw [hcycle.prune.same.next]
      exact ⟨(hcycle.registered.bounds t (hcycle.active ▸ hcycle.active_of_removed ht)).2,
        fun hactive => (hcycle.mem_active_after.mp hactive).2 ht⟩
  · intro t ht
    rw [hcycle.mem_active_after, not_and_not_right] at ht
    rw [hcycle.missing_after hcross]
    by_cases hremoved : t ∈ rep.removed
    · rw [if_pos hremoved]
    · have hinactive : t ∉ rep.active := fun hactive => hremoved (ht hactive)
      have hinactive' : t ∉ f.arena.activeTokens := fun hactive =>
        hinactive (hcycle.active ▸ hcycle.grown.active t hactive)
      rw [if_neg hremoved, if_neg fun h => hinactive h.1, h.idle t hinactive']
  · intro c hc
    rw [List.flatMap_append, List.mem_append, List.flatMap_singleton] at hc
    rcases hc with hc | hc
    · obtain ⟨hstart, hlt, hname⟩ := h.created c hc
      exact ⟨hstart, UInt16.lt_of_lt_of_le hlt hnext, (hnames c.1 hlt).trans hname⟩
    · obtain ⟨hle, hlt, hname⟩ := hcycle.created c hc
      refine ⟨UInt16.le_trans h.registered.start_le hle, ?_, ?_⟩
      · rw [hcycle.prune.same.next]
        exact hlt
      · rw [hcycle.prune.same.names, hname]
  · rw [List.flatMap_append, List.flatMap_singleton, List.map_append, List.pairwise_append]
    refine ⟨h.ascending, hcycle.ascending, ?_⟩
    intro id hid id' hid'
    obtain ⟨c, hc, rfl⟩ := List.mem_map.mp hid
    obtain ⟨c', hc', rfl⟩ := List.mem_map.mp hid'
    exact UInt16.lt_of_lt_of_le (h.created c hc).2.1 (hcycle.created c' hc').1

/-- The next cycle of a run, with the cross-exchange pruner on from the start. -/
lemma Reached.next_cycle {f₀ : CoinFinder} {history : List CycleReport}
    (h : Reached start f₀ f history) (hcross : 0 < f₀.config.crossArbRemovalCycles)
    (passesFilter : String → String → Bool × UInt16) (input : CycleInput toUppercase) :
    0 < f.config.crossArbRemovalCycles ∧
      CycleSpec start f input (reportOf toUppercase passesFilter f input)
        (buildTables toUppercase (gather toUppercase passesFilter f input))
        (scanCycle toUppercase passesFilter f input).1 := by
  have hcross' : 0 < f.config.crossArbRemovalCycles := h.config ▸ hcross
  exact ⟨hcross', scanCycle_spec passesFilter h.registered
    (fun hoff => by simp [hoff.1] at hcross') input⟩

/-! ## Tokens leave on time -/

/-- The token was active in the cycle and no exchange listed it. -/
def unlisted (t : UInt16) (rep : CycleReport) : Bool := decide (t ∈ rep.active ∧ ¬ rep.Listed t)

/-- The cross count of every discovered token is the length of its absence, below the threshold. -/
def CrossCounted (f : CoinFinder) (history : List CycleReport) : Prop :=
  ∀ t ∈ f.arena.activeTokens, firstDiscovered ≤ t →
    (f.tokenMissingCounts t).toNat = (streak (unlisted t) history).length ∧
      (f.tokenMissingCounts t).toNat < f.config.crossArbRemovalCycles.toNat

/-- A token that was never active has no absence. -/
lemma streak_eq_nil {p : CycleReport → Bool} {history : List CycleReport} {t : UInt16}
    (hp : ∀ rep, p rep = true → t ∈ rep.active) (h : ∀ rep ∈ history, t ∉ rep.active) :
    streak p history = [] := by
  rw [List.eq_nil_iff_forall_not_mem]
  intro rep hrep
  obtain ⟨hmem, hprop⟩ := mem_streak hrep
  exact h rep hmem (hp rep hprop)

section Counting

variable {f₀ : CoinFinder} {history : List CycleReport} {input : CycleInput toUppercase}
variable {rep : CycleReport} {scanned g : CoinFinder}

/-- A token that is new in a cycle was never active before. -/
lemma Reached.not_active_before (h : Reached start f₀ f history)
    (hcycle : CycleSpec start f input rep scanned g) {t : UInt16} (ht : t ∈ rep.active)
    (hnew : t ∉ f.arena.activeTokens) : ∀ r ∈ history, t ∉ r.active := by
  intro r hr hmem
  have hlt := h.recent r hr t hmem
  rcases hcycle.grown.fresh t (hcycle.active ▸ ht) with hold | hle
  · exact hnew hold
  · exact UInt16.not_lt.mpr hle hlt

/-- A token that is active in a cycle was never removed before. -/
lemma Reached.not_removed_before (h : Reached start f₀ f history)
    (hcycle : CycleSpec start f input rep scanned g) {t : UInt16} (ht : t ∈ rep.active) :
    ∀ r ∈ history, t ∉ r.removed := by
  intro r hr hmem
  obtain ⟨hlt, hgone⟩ := h.gone r hr t hmem
  rcases hcycle.grown.fresh t (hcycle.active ▸ ht) with hold | hle
  · exact hgone hold
  · exact UInt16.not_lt.mpr hle hlt

/-- When the pruning of a cycle starts, the count of every discovered token is the length of its
absence in the cycles before. -/
lemma Reached.count_eq (h : Reached start f₀ f history)
    (hcross : 0 < f.config.crossArbRemovalCycles) (hcount : CrossCounted f history)
    (hcycle : CycleSpec start f input rep scanned g) {t : UInt16} (ht : t ∈ rep.active)
    (hdisc : firstDiscovered ≤ t) :
    (f.tokenMissingCounts t).toNat = (streak (unlisted t) history).length ∧
      (f.tokenMissingCounts t).toNat < f.config.crossArbRemovalCycles.toNat := by
  by_cases hold : t ∈ f.arena.activeTokens
  · exact hcount t hold hdisc
  · have hnever := h.not_active_before hcycle ht hold
    have hnil : streak (unlisted t) history = [] :=
      streak_eq_nil (fun r hr => (of_decide_eq_true hr).1) hnever
    rw [h.idle t hold, hnil]
    exact ⟨rfl, UInt32.lt_iff_toNat_lt.mp hcross⟩

/-- Adding one to a count below the threshold does not wrap. -/
lemma toNat_succ_of_lt {count threshold : UInt32} (h : count.toNat < threshold.toNat) :
    (count + 1).toNat = count.toNat + 1 := by
  have hlt := threshold.toNat_lt
  rw [UInt32.toNat_add, UInt32.toNat_one]
  exact Nat.mod_eq_of_lt (by omega)

/-- A cycle removes the discovered tokens whose absence reaches the threshold with it. -/
lemma Reached.mem_removed_iff (h : Reached start f₀ f history)
    (hcross : 0 < f.config.crossArbRemovalCycles) (hcount : CrossCounted f history)
    (hcycle : CycleSpec start f input rep scanned g) (t : UInt16) :
    t ∈ rep.removed ↔ t ∈ rep.active ∧ firstDiscovered ≤ t ∧
      (streak (unlisted t) (history ++ [rep])).length = f.config.crossArbRemovalCycles.toNat := by
  have hpos := UInt32.lt_iff_toNat_lt.mp hcross
  rw [UInt32.toNat_zero] at hpos
  rw [hcycle.mem_removed hcross, streak_append_singleton]
  refine and_congr_right fun ht => and_congr_right fun hdisc => ?_
  obtain ⟨heq, hlt⟩ := h.count_eq hcross hcount hcycle ht hdisc
  by_cases hlisted : rep.Listed t
  · have hpresent : unlisted t rep = false := decide_eq_false fun hu => hu.2 hlisted
    rw [hpresent]
    exact iff_of_false (fun hr => hr.1 hlisted) (by simp; omega)
  · have habsent : unlisted t rep = true := decide_eq_true ⟨ht, hlisted⟩
    rw [habsent, if_pos rfl, List.length_cons, ← heq, UInt32.le_iff_toNat_le,
      toNat_succ_of_lt hlt]
    constructor
    · rintro ⟨-, hle⟩
      omega
    · intro hlen
      exact ⟨hlisted, hlen.ge⟩

/-- The counts after a cycle. -/
lemma Reached.crossCounted_after (h : Reached start f₀ f history)
    (hcross : 0 < f.config.crossArbRemovalCycles) (hcount : CrossCounted f history)
    (hcycle : CycleSpec start f input rep scanned g) : CrossCounted g (history ++ [rep]) := by
  intro t ht hdisc
  obtain ⟨hactive, hstays⟩ := hcycle.mem_active_after.mp ht
  obtain ⟨heq, hlt⟩ := h.count_eq hcross hcount hcycle hactive hdisc
  have hconfig : g.config = f.config := hcycle.prune.same.config.trans hcycle.config_eq
  rw [hconfig, hcycle.missing_after hcross, if_neg hstays, if_pos ⟨hactive, hdisc⟩,
    streak_append_singleton]
  by_cases hlisted : rep.Listed t
  · have hpresent : unlisted t rep = false := decide_eq_false fun hu => hu.2 hlisted
    rw [if_pos hlisted, hpresent]
    exact ⟨rfl, UInt32.lt_iff_toNat_lt.mp hcross⟩
  · have habsent : unlisted t rep = true := decide_eq_true ⟨hactive, hlisted⟩
    have hnot : ¬ f.config.crossArbRemovalCycles ≤ f.tokenMissingCounts t + 1 := fun hle =>
      hstays ((hcycle.mem_removed hcross).mpr ⟨hactive, hdisc, hlisted, hle⟩)
    rw [UInt32.not_le, UInt32.lt_iff_toNat_lt] at hnot
    rw [if_neg hlisted, habsent, if_pos rfl, List.length_cons, ← heq]
    exact ⟨toNat_succ_of_lt hlt, hnot⟩

end Counting

/-- The counter when a symbol is requested first, below the safety cap: every symbol without an id
that is requested before it has raised the counter. -/
def counterAt (f : CoinFinder) (requests : List String) (sym : String) : ℕ :=
  f.nextTokenId.toNat + (newcomers f.HasId (requests.takeWhile (· ≠ sym))).card

/-- A requested symbol that is not registered gets an id when the counter is below the safety cap
then. -/
lemma created_iff (passesFilter : String → String → Bool × UInt16) {f : CoinFinder}
    (hf : Registered start f) (input : CycleInput toUppercase) {sym : String}
    (hsym : sym ∈ requests passesFilter f.config input) (hmap : f.globalSymbolMap sym = none) :
    (∃ id, (id, sym) ∈ (gather toUppercase passesFilter f input).created) ↔
      f.counterAt (requests passesFilter f.config input) sym < maxDiscoveredTokens.toNat := by
  obtain ⟨hgather, -⟩ := gather_spec passesFilter hf input
  have hnumbered := (gathered_gather passesFilter hf.ordered input).numbered
  have hcreated : (∃ id, (id, sym) ∈ (gather toUppercase passesFilter f input).created) ↔
      (gather toUppercase passesFilter f input).finder.HasId sym := by
    constructor
    · rintro ⟨id, hid⟩
      exact Option.ne_none_iff_exists'.mpr ⟨id, hgather.mapped _ hid⟩
    · intro hid
      obtain ⟨id, hid⟩ := Option.ne_none_iff_exists'.mp hid
      rcases hgather.origin sym id hid with hold | hnew
      · exact absurd (hmap.symm.trans hold) (by simp)
      · exact ⟨id, hnew⟩
  have hunknown : ¬ f.HasId sym := not_not_intro hmap
  rw [hcreated, hnumbered.hasId, Admitted, or_iff_right hunknown, and_iff_right hsym, room,
    counterAt]
  omega

/-- A cycle of a run lets tokens leave on time: it removes exactly the discovered tokens that no
exchange has listed in this and the cycles just before, as many as the threshold says.  A removed
token is not active, has no prices, and its symbol is free.  A symbol that is not registered and is
requested gets a new id exactly when the counter is below the safety cap then, and no id is ever
given out twice or to a symbol when it was registered by hand. -/
structure LeaveOnTime (passesFilter : String → String → Bool × UInt16) (f₀ f g : CoinFinder)
    (history : List CycleReport) (input : CycleInput toUppercase) (rep : CycleReport) : Prop where
  removed_iff : ∀ t, t ∈ rep.removed ↔ t ∈ rep.active ∧ firstDiscovered ≤ t ∧
    (streak (unlisted t) (history ++ [rep])).length = f₀.config.crossArbRemovalCycles.toNat
  inactive : ∀ t ∈ rep.removed, t ∉ g.arena.activeTokens
  zero : ∀ t ∈ rep.removed, ∀ exchId < g.arena.totalExchanges, t.toNat < g.arena.totalTokens →
    g.arena.ZeroSlot exchId t.toNat
  unmapped : ∀ t ∈ rep.removed, ∃ sym, g.tokenRegistry t = some sym ∧ g.globalSymbolMap sym = none
  named : ∀ c ∈ (history ++ [rep]).flatMap CycleReport.created, g.tokenRegistry c.1 = some c.2
  relisted : ∀ sym ∈ requests passesFilter f₀.config input, f.globalSymbolMap sym = none →
    ((∃ id, (id, sym) ∈ rep.created) ↔
      f.counterAt (requests passesFilter f₀.config input) sym < maxDiscoveredTokens.toNat)
  unique : (((history ++ [rep]).flatMap CycleReport.created).map Prod.fst).Nodup
  unregistered : ∀ c ∈ rep.created, f₀.tokenRegistry c.1 = none

/-- The states of a run. -/
lemma reached_runState (passesFilter : String → String → Bool × UInt16) {f₀ : CoinFinder}
    (hnew : IsNew start f₀) (hcross : 0 < f₀.config.crossArbRemovalCycles)
    (inputs : List (CycleInput toUppercase)) :
    Reached start f₀ (runState (scanCycle toUppercase passesFilter) f₀ inputs)
        (runTrace (scanCycle toUppercase passesFilter) f₀ inputs) ∧
      CrossCounted (runState (scanCycle toUppercase passesFilter) f₀ inputs)
        (runTrace (scanCycle toUppercase passesFilter) f₀ inputs) := by
  have hinit : CrossCounted f₀ [] := by
    intro t ht
    simp [hnew.active] at ht
  have hstep : ∀ (f : CoinFinder) (history : List CycleReport) (input : CycleInput toUppercase),
      Reached start f₀ f history ∧ CrossCounted f history → True →
      Reached start f₀ (scanCycle toUppercase passesFilter f input).1
          (history ++ (scanCycle toUppercase passesFilter f input).2) ∧
        CrossCounted (scanCycle toUppercase passesFilter f input).1
          (history ++ (scanCycle toUppercase passesFilter f input).2) := by
    rintro f history input ⟨hreached, hcount⟩ -
    obtain ⟨hcross', hcycle⟩ := hreached.next_cycle hcross passesFilter input
    rw [scanCycle_snd]
    exact ⟨hreached.cycle hcross' hcycle, hreached.crossCounted_after hcross' hcount hcycle⟩
  exact run_induction (C := fun _ _ _ => True) hstep ⟨hnew.reached, hinit⟩
    fun _ _ _ _ => trivial

/-- Every cycle of every run of a new scanner, with the cross-exchange pruner on, lets tokens leave
on time. -/
theorem leaveOnTime (passesFilter : String → String → Bool × UInt16) {f₀ : CoinFinder}
    (hnew : IsNew start f₀) (hcross : 0 < f₀.config.crossArbRemovalCycles)
    (inputs : List (CycleInput toUppercase)) (input : CycleInput toUppercase) :
    LeaveOnTime passesFilter f₀ (runState (scanCycle toUppercase passesFilter) f₀ inputs)
      (runState (scanCycle toUppercase passesFilter) f₀ (inputs ++ [input]))
      (runTrace (scanCycle toUppercase passesFilter) f₀ inputs) input
      (reportOf toUppercase passesFilter
        (runState (scanCycle toUppercase passesFilter) f₀ inputs) input) := by
  obtain ⟨hreached, hcount⟩ := reached_runState passesFilter hnew hcross inputs
  rw [runState_append, runState_cons, runState_nil]
  generalize runState (scanCycle toUppercase passesFilter) f₀ inputs = f at hreached hcount ⊢
  generalize runTrace (scanCycle toUppercase passesFilter) f₀ inputs = history at hreached hcount ⊢
  obtain ⟨hcross', hcycle⟩ := hreached.next_cycle hcross passesFilter input
  have hafter := hreached.cycle hcross' hcycle
  refine ⟨?_, ?_, ?_, ?_, ?_, ?_, ?_, ?_⟩
  · intro t
    rw [← hreached.config]
    exact hreached.mem_removed_iff hcross' hcount hcycle t
  · intro t ht hactive
    exact (hcycle.mem_active_after.mp hactive).2 ht
  · intro t ht exchId he ht'
    exact hcycle.zeroSlot_of_removed ht he ht'
  · intro t ht
    exact hcycle.unmapped_of_removed ht
  · intro c hc
    exact (hafter.created c hc).2.2
  · intro sym hsym hmap
    rw [← hreached.config] at hsym ⊢
    exact created_iff passesFilter hreached.registered input hsym hmap
  · refine hafter.ascending.imp ?_
    rintro id id' hlt rfl
    exact UInt16.lt_irrefl _ hlt
  · intro c hc
    exact hnew.names c.1 (UInt16.le_trans hreached.registered.start_le (hcycle.created c hc).1)

/-! ### Samples -/

/-- A scanner of the exchange zero, over an empty registry. -/
def soloFinder (startTokenId : UInt16) (cross tri : UInt32) : CoinFinder :=
  new [0] (List.nodup_singleton 0) ⟨["USDT"], 0, cross, tri⟩
    (MarketArena.new 1 3000 (Nat.succ_le_succ (Nat.zero_le 63))) (fun _ => none) (fun _ => none)
    startTokenId

lemma isNew_soloFinder (startTokenId : UInt16) (cross tri : UInt32) :
    IsNew startTokenId (soloFinder startTokenId cross tri) :=
  isNew_new _ _ rfl _ fun _ _ => rfl

/-- The filter takes every pair for an altcoin. -/
def altcoins (_ _ : String) : Bool × UInt16 := (true, 2)

/-- The exchange zero lists nothing. -/
def soloNothing : CycleInput (fun s => s) :=
  ⟨fun _ => 100, fun _ => 101, [⟨0, []⟩], [], List.nodup_singleton 0⟩

/-- The exchange zero lists one coin. -/
def soloListing : CycleInput (fun s => s) :=
  ⟨fun _ => 100, fun _ => 101, [⟨0, [⟨"SOL", "USDT", "SOLUSDT", true, rfl⟩]⟩], [],
    List.nodup_singleton 0⟩

/-- With a threshold of one the coin is removed as soon as it is not listed, and comes back under
the next id. -/
theorem leaveOnTime_solo :
    LeaveOnTime altcoins (soloFinder 100 1 0)
      (runState (scanCycle (fun s => s) altcoins) (soloFinder 100 1 0) [soloListing])
      (runState (scanCycle (fun s => s) altcoins) (soloFinder 100 1 0)
        ([soloListing] ++ [soloNothing]))
      (runTrace (scanCycle (fun s => s) altcoins) (soloFinder 100 1 0) [soloListing]) soloNothing
      (reportOf (fun s => s) altcoins
        (runState (scanCycle (fun s => s) altcoins) (soloFinder 100 1 0) [soloListing])
        soloNothing) ∧
    (runTrace (scanCycle (fun s => s) altcoins) (soloFinder 100 1 0)
      [soloListing, soloNothing, soloListing]).map CycleReport.removed = [[], [100], []] ∧
    (runTrace (scanCycle (fun s => s) altcoins) (soloFinder 100 1 0)
      [soloListing, soloNothing, soloListing]).map CycleReport.created =
        [[(100, "SOL")], [], [(101, "SOL")]] :=
  ⟨leaveOnTime altcoins (isNew_soloFinder 100 1 0) (by decide) [soloListing] soloNothing,
    by decide +kernel, by decide +kernel⟩

/-- The coin that took the last id before the safety cap is removed and, when it is listed again,
gets none. -/
theorem relisted_without_id :
    IsNew 2989 (soloFinder 2989 1 0) ∧
    (runTrace (scanCycle (fun s => s) altcoins) (soloFinder 2989 1 0)
      [soloListing, soloNothing, soloListing]).map CycleReport.removed = [[], [2989], []] ∧
    (runTrace (scanCycle (fun s => s) altcoins) (soloFinder 2989 1 0)
      [soloListing, soloNothing, soloListing]).map CycleReport.created =
        [[(2989, "SOL")], [], []] ∧
    (runState (scanCycle (fun s => s) altcoins) (soloFinder 2989 1 0)
      [soloListing, soloNothing, soloListing]).globalSymbolMap "SOL" = none :=
  ⟨isNew_soloFinder 2989 1 0, by decide +kernel, by decide +kernel, by decide +kernel⟩

end CoinFinder

end HftArb
