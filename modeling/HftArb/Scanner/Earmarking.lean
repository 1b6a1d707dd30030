import HftArb.Scanner.Pruning

/-!
# Earmarking coins for cross-exchange arbitrage

A cycle compiles the targets twice: from the listings it has gathered, and then again from the
prices in the arena.  Only the second tables stay, so that a coin on two exchanges is earmarked
exactly when it has both prices on every exchange that lists it: `earmarked_iff`.
-/

namespace HftArb

open AssocMap Runs

namespace MarketArena

/-- The prices and the sizes of an arena. -/
def slots (a : MarketArena) : (ℕ → UInt64) × (ℕ → UInt64) × ℕ × ℕ :=
  (a.bidPrices, a.askPrices, a.totalTokens, a.totalExchanges)

@[simp] lemma slots_registerActiveToken (a : MarketArena) (tokenId : UInt16) :
    (a.registerActiveToken tokenId).slots = a.slots := by
  unfold registerActiveToken
  split <;> rfl

/-- The exchanges with two prices for a token are determined by the prices and the sizes. -/
lemma carriers_congr {a b : MarketArena} (h : b.slots = a.slots) (tokenId : ℕ) :
    b.carriers tokenId = a.carriers tokenId := by
  simp only [slots, Prod.mk.injEq] at h
  obtain ⟨hbid, hask, htokens, hexchanges⟩ := h
  unfold carriers bid ask getIndex
  rw [hbid, hask, htokens, hexchanges]

end MarketArena

namespace CoinFinder

section Gather

variable {toUppercase : String → String} (passesFilter : String → String → Bool × UInt16)

lemma slots_getOrCreateTokenId (f : CoinFinder) (symbol : String) (category : UInt16) :
    (getOrCreateTokenId toUppercase f symbol category).2.arena.slots = f.arena.slots := by
  unfold getOrCreateTokenId allocTokenId
  split
  · rfl
  · split
    · rfl
    · next heq =>
      split at heq
      · cases heq
      · cases heq
        exact MarketArena.slots_registerActiveToken _ _

lemma slots_register (scan : Scan) (base : String) (category : UInt16) :
    (scan.register toUppercase base category).2.finder.arena.slots = scan.finder.arena.slots := by
  unfold Scan.register
  dsimp only
  split <;> exact slots_getOrCreateTokenId ..

lemma slots_scanPair (exchId : UInt16) (acc : Scan × List PairEntry)
    (pair : RawPair toUppercase) :
    (scanPair toUppercase passesFilter exchId acc pair).1.finder.arena.slots =
      acc.1.finder.arena.slots := by
  unfold scanPair
  dsimp only
  split
  · split
    · rfl
    · split <;> exact slots_register ..
  · rfl

lemma slots_scanResult (scan : Scan) (result : ExchangeScanResult toUppercase) :
    (scanResult toUppercase passesFilter scan result).finder.arena.slots =
      scan.finder.arena.slots :=
  foldl_leaves (fun acc => acc.1.finder.arena.slots)
    (slots_scanPair passesFilter result.exchangeId) result.pairs (scan, [])

lemma slots_mapToken (entry : PairEntry) (scan : Scan) (targetExch : UInt16) :
    (mapToken entry scan targetExch).finder.arena.slots = scan.finder.arena.slots := by
  unfold mapToken
  split <;> rfl

lemma slots_applyMapping (scan : Scan) (mapping : CustomMapping toUppercase) :
    (applyMapping toUppercase passesFilter scan mapping).finder.arena.slots =
      scan.finder.arena.slots := by
  unfold applyMapping
  split
  · rfl
  · split
    · rfl
    · dsimp only
      split
      · exact slots_register ..
      · exact (foldl_leaves (fun scan : Scan => scan.finder.arena.slots) (slots_mapToken _) _
          _).trans (slots_register ..)

/-- Gathering the answers leaves the prices that the cycle found. -/
lemma slots_gather (f : CoinFinder) (input : CycleInput toUppercase) :
    (gather toUppercase passesFilter f input).finder.arena.slots =
      (f.withPrices input).arena.slots :=
  calc (gather toUppercase passesFilter f input).finder.arena.slots
      = (input.results.foldl (scanResult toUppercase passesFilter)
          ⟨f.withPrices input, [], [], []⟩).finder.arena.slots :=
        foldl_leaves (fun scan : Scan => scan.finder.arena.slots)
          (slots_applyMapping passesFilter) _ _
    _ = (f.withPrices input).arena.slots :=
        foldl_leaves (fun scan : Scan => scan.finder.arena.slots)
          (slots_scanResult passesFilter) _ _

end Gather

/-! ## A cycle that prunes nothing -/

/-- When no pair is zeroed, the scanner stays as it is. -/
lemma foldl_zeroPair_of_eq_nil {removed : List UInt16} {pairs : List (UInt16 × UInt16)}
    {acc : CoinFinder × List (UInt16 × UInt16)} (h : acc.1.zeroable removed pairs = []) :
    (pairs.foldl (zeroPair removed) acc).1 = acc.1 := by
  induction pairs with
  | nil => rfl
  | cons pair pairs ih =>
    rw [zeroable, List.filter_eq_nil_iff] at h
    have hskip : ¬ (pair.1 ∉ removed ∧ acc.1.InArena pair) := by
      intro hzero
      exact h pair List.mem_cons_self (decide_eq_true hzero)
    rw [List.foldl_cons, zeroPair_of_not hskip]
    apply ih
    rw [zeroable, List.filter_eq_nil_iff]
    exact fun pair' hmem => h pair' (List.mem_cons_of_mem _ hmem)

/-- A pruning that removes and zeroes nothing leaves the arena. -/
lemma arena_pruneStaleTokens {f : CoinFinder} {presence : List (UInt16 × List UInt16)}
    (hremoved : (f.pruneStaleTokens presence).1.removed = [])
    (hzeroed : (f.pruneStaleTokens presence).1.zeroed = []) :
    (f.pruneStaleTokens presence).2.arena = f.arena := by
  by_cases hoff : f.config.crossArbRemovalCycles = 0 ∧ f.config.triArbRemovalCycles = 0
  · rw [pruneStaleTokens, if_pos hoff]
  · rw [pruneStaleTokens, if_neg hoff] at hremoved hzeroed ⊢
    dsimp only at hremoved hzeroed ⊢
    rw [hremoved] at hzeroed ⊢
    rw [hzeroed, if_neg (by simp)]
    rw [(zeroed_foldl_zeroPair _ _ _).2, List.nil_append] at hzeroed
    rw [foldl_zeroPair_of_eq_nil hzeroed]
    rfl

section Cycle

variable {toUppercase : String → String} (passesFilter : String → String → Bool × UInt16)

/-- The targets after a cycle that prunes nothing are those compiled from the prices it found. -/
lemma targetsOf_scanCycle (f : CoinFinder) (input : CycleInput toUppercase)
    (hremoved : (reportOf toUppercase passesFilter f input).removed = [])
    (hzeroed : (reportOf toUppercase passesFilter f input).zeroed = []) {tokenId : ℕ}
    (ht : tokenId < f.arena.totalTokens) :
    (scanCycle toUppercase passesFilter f input).1.arena.targetsOf tokenId =
      let target := MarketArena.TargetEntry.target
        ⟨tokenId, UInt16.ofNat tokenId, (f.withPrices input).arena.carriers tokenId⟩
      if 2 ≤ target.sharedCount then [target] else [] := by
  have harena : (scanCycle toUppercase passesFilter f input).1.arena =
      (buildTables toUppercase (gather toUppercase passesFilter f input)).arena :=
    arena_pruneStaleTokens hremoved hzeroed
  have hslots := slots_gather passesFilter f input
  -- the tables compiled from the presence map are overwritten
  let a := (gather toUppercase passesFilter f input).finder.arena
  let b := a.buildCrossExchangeTargetsFromPresence
    (gather toUppercase passesFilter f input).tokenExchangePresence
  have hb : b.slots = (f.withPrices input).arena.slots := hslots
  have hcarriers := MarketArena.carriers_congr hb tokenId
  have htokens : b.totalTokens = f.arena.totalTokens := congrArg (fun s => s.2.2.1) hb
  have htargets : (scanCycle toUppercase passesFilter f input).1.arena.targetsOf tokenId =
      b.buildCrossExchangeTargets.targetsOf tokenId := by
    rw [harena]
    rfl
  rw [htargets, MarketArena.targetsOf_buildCrossExchangeTargets b (htokens ▸ ht), hcarriers]

/-- The token is among the targets with a mask that has the bit of every exchange that lists it. -/
def Earmarked (g : CoinFinder) (rep : CycleReport) (tokenId : UInt16) : Prop :=
  ∃ target ∈ g.arena.targetsOf tokenId.toNat, target.tokenId = tokenId ∧
    ∀ exchId, rep.Lists exchId tokenId → target.exchangeMask.toNat.testBit exchId.toNat = true

/-- The arena had both prices of the token on the exchange when the cycle began. -/
def Priced (f : CoinFinder) (input : CycleInput toUppercase) (exchId tokenId : UInt16) : Prop :=
  0 < input.bidPrices (f.arena.getIndex exchId.toNat tokenId.toNat) ∧
    0 < input.askPrices (f.arena.getIndex exchId.toNat tokenId.toNat)

/-- After a cycle that prunes nothing, a token on at least two exchanges, with ids below the sizes
of the arena, is earmarked exactly when it has both prices on every exchange that lists it. -/
theorem earmarked_iff (f : CoinFinder) (input : CycleInput toUppercase)
    (hremoved : (reportOf toUppercase passesFilter f input).removed = [])
    (hzeroed : (reportOf toUppercase passesFilter f input).zeroed = []) {tokenId : UInt16}
    (ht : tokenId.toNat < f.arena.totalTokens)
    (hexch : ∀ exchId, (reportOf toUppercase passesFilter f input).Lists exchId tokenId →
      exchId.toNat < f.arena.totalExchanges)
    (htwo : ∃ e e', e ≠ e' ∧ (reportOf toUppercase passesFilter f input).Lists e tokenId ∧
      (reportOf toUppercase passesFilter f input).Lists e' tokenId) :
    Earmarked (scanCycle toUppercase passesFilter f input).1
        (reportOf toUppercase passesFilter f input) tokenId ↔
      ∀ exchId, (reportOf toUppercase passesFilter f input).Lists exchId tokenId →
        Priced f input exchId tokenId := by
  have htargets := targetsOf_scanCycle passesFilter f input hremoved hzeroed ht
  generalize reportOf toUppercase passesFilter f input = rep at hexch htwo ⊢
  have hid : UInt16.ofNat tokenId.toNat = tokenId := UInt16.ofNat_toNat
  have hcarrier : ∀ exchId : UInt16, rep.Lists exchId tokenId →
      (exchId.toNat ∈ (f.withPrices input).arena.carriers tokenId.toNat ↔
        Priced f input exchId tokenId) := by
    intro exchId hlists
    exact MarketArena.mem_carriers.trans (and_iff_right (hexch exchId hlists))
  dsimp only at htargets
  constructor
  · rintro ⟨target, hmem, -, hmask⟩ exchId hlists
    rw [htargets] at hmem
    split at hmem
    · obtain rfl := List.mem_singleton.mp hmem
      have hbit := hmask exchId hlists
      rw [MarketArena.TargetEntry.target, MarketArena.testBit_exchangeMask, decide_eq_true_iff]
        at hbit
      exact (hcarrier exchId hlists).mp hbit.1
    · exact absurd hmem List.not_mem_nil
  · intro hpriced
    obtain ⟨e, e', hne, he, he'⟩ := htwo
    have hcount : 2 ≤ (MarketArena.TargetEntry.target ⟨tokenId.toNat, UInt16.ofNat tokenId.toNat,
        (f.withPrices input).arena.carriers tokenId.toNat⟩).sharedCount := by
      have hsub : [e.toNat, e'.toNat] ⊆ (f.withPrices input).arena.carriers tokenId.toNat := by
        intro k hk
        rcases List.mem_cons.mp hk with rfl | hk
        · exact (hcarrier e he).mpr (hpriced e he)
        · obtain rfl := List.mem_singleton.mp hk
          exact (hcarrier e' he').mpr (hpriced e' he')
      have hnodup : [e.toNat, e'.toNat].Nodup := by
        simpa [UInt16.toNat_inj] using hne
      have hlength := (List.subperm_of_subset hnodup hsub).length_le
      rw [UInt8.le_iff_toNat_le, MarketArena.TargetEntry.target, MarketArena.exchangeMask_count]
      simp only [List.length_cons, List.length_nil] at hlength
      exact le_min hlength (by decide)
    rw [if_pos hcount] at htargets
    refine ⟨_, htargets ▸ List.mem_singleton_self _, hid, ?_⟩
    intro exchId hlists
    rw [MarketArena.TargetEntry.target, MarketArena.testBit_exchangeMask, decide_eq_true_iff]
    exact ⟨(hcarrier exchId hlists).mpr (hpriced exchId hlists),
      (hexch exchId hlists).trans_le f.arena.totalExchanges_le⟩

end Cycle

/-! ### Samples -/

lemma nodup_zero_one : ([0, 1] : List UInt16).Nodup := by decide

/-- A scanner of the exchanges zero and one. -/
def duoFinder : CoinFinder :=
  new [0, 1] nodup_zero_one ⟨["USDT"], 0, 3, 3⟩
    (MarketArena.new 2 200 (Nat.succ_le_succ (Nat.succ_le_succ (Nat.zero_le 62))))
    (fun _ => none) (fun _ => none) 100

/-- Both exchanges list one coin, whose prices are all the same. -/
def duoListing (price : UInt64) : CycleInput (fun s => s) :=
  ⟨fun _ => price, fun _ => price,
    [⟨0, [⟨"SOL", "USDT", "SOLUSDT", true, rfl⟩]⟩, ⟨1, [⟨"SOL", "USDT", "SOL-USDT", true, rfl⟩]⟩],
    [], nodup_zero_one⟩

/-- A listing is of an exchange that has answered. -/
lemma CycleReport.Lists.mem_exchanges {rep : CycleReport} {exchId tokenId : UInt16}
    (h : rep.Lists exchId tokenId) : exchId ∈ rep.exchangePairs.map Prod.fst := by
  cases hlookup : rep.exchangePairs.lookup exchId with
  | none =>
    rw [CycleReport.Lists, acceptedOn, hlookup] at h
    exact absurd h List.not_mem_nil
  | some pairs =>
    obtain ⟨before, after, hsplit, -⟩ := List.lookup_eq_some_iff.mp hlookup
    simp [hsplit]

/-- The coin with prices is earmarked. -/
theorem earmarked_duo :
    Earmarked (scanCycle (fun s => s) altcoins duoFinder (duoListing 100)).1
      (reportOf (fun s => s) altcoins duoFinder (duoListing 100)) 100 := by
  have hprice : (0 : UInt64) < 100 := by decide
  refine (earmarked_iff altcoins duoFinder (duoListing 100) (by decide +kernel)
    (by decide +kernel) (by decide) ?_ ⟨0, 1, by decide +kernel⟩).mpr fun _ _ => ⟨hprice, hprice⟩
  intro exchId hlists
  have hmem := hlists.mem_exchanges
  have hkeys : (reportOf (fun s => s) altcoins duoFinder (duoListing 100)).exchangePairs.map
      Prod.fst = [0, 1] := by decide +kernel
  rw [hkeys] at hmem
  rcases List.mem_cons.mp hmem with rfl | hmem
  · decide
  · obtain rfl := List.mem_singleton.mp hmem
    decide

/-- The coin that has no prices yet is on two exchanges and not earmarked. -/
theorem not_earmarked_unpriced :
    (reportOf (fun s => s) altcoins duoFinder (duoListing 0)).removed = [] ∧
    (reportOf (fun s => s) altcoins duoFinder (duoListing 0)).zeroed = [] ∧
    (reportOf (fun s => s) altcoins duoFinder (duoListing 0)).Lists 0 100 ∧
    (reportOf (fun s => s) altcoins duoFinder (duoListing 0)).Lists 1 100 ∧
    ¬ Earmarked (scanCycle (fun s => s) altcoins duoFinder (duoListing 0)).1
      (reportOf (fun s => s) altcoins duoFinder (duoListing 0)) 100 := by
  have htargets : (scanCycle (fun s => s) altcoins duoFinder (duoListing 0)).1.arena.targetsOf
      (100 : UInt16).toNat = [] := by decide +kernel
  refine ⟨by decide +kernel, by decide +kernel, by decide +kernel, by decide +kernel, ?_⟩
  rintro ⟨target, hmem, -⟩
  rw [htargets] at hmem
  exact absurd hmem List.not_mem_nil

end CoinFinder

end HftArb
