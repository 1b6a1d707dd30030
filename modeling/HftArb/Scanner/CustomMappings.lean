import HftArb.Foundations.Runs
import HftArb.Scanner.GatheredPairs
import HftArb.Scanner.Pruning

/-!
# Custom mappings

A custom mapping puts a pair on exchanges that may not list it.  `mappings_take_effect_iff` says
when all mappings of a cycle take effect: on each of its exchanges a mapping is listed anyway, or it
is the only pair of its base there, and its base has a token id.
-/

namespace HftArb

open AssocMap FirstCome Runs

namespace CoinFinder

variable {toUppercase : String → String} {f : CoinFinder}

section Definitions

variable (passesFilter : String → String → Bool × UInt16)

/-- Every custom symbol that ends in an anchor, with a base that passes the filters, has its pair in
the lists of its exchanges, and they are among the exchanges of its token. -/
def TakeEffect (f : CoinFinder) (input : CycleInput toUppercase) : Prop :=
  ∀ mapping ∈ input.customMappings, ∀ quote ∈ f.config.quoteAnchors, ∀ base, base ≠ "" →
    mapping.symbol = base ++ quote → accepts passesFilter f.config base quote ≠ none →
      ∀ exchId ∈ mapping.exchangeIds,
        let scan := gather toUppercase passesFilter f input
        ∃ id raw, scan.finder.globalSymbolMap base = some id ∧
          ⟨id, base, quote, raw⟩ ∈ pairsOn scan exchId ∧
            exchId ∈ groupOf scan.tokenExchangePresence id

/-- For every mapping to an exchange there is an id for the base, and the exchange lists the pair
itself, or it lists no pair of the base and no other pair of the base is mapped to it. -/
def Unhindered (f : CoinFinder) (input : CycleInput toUppercase) : Prop :=
  ∀ q ∈ placements passesFilter f.config input.customMappings,
    Admitted f.HasId f.room (requests passesFilter f.config input) q.base ∧
      (q ∈ listings passesFilter f.config input.results ∨
        (∀ q' ∈ listings passesFilter f.config input.results,
          ¬ (q'.exchId = q.exchId ∧ q'.base = q.base)) ∧
        ∀ q' ∈ placements passesFilter f.config input.customMappings,
          q'.exchId = q.exchId → q'.base = q.base → q'.quote = q.quote)

instance (f : CoinFinder) (input : CycleInput toUppercase) :
    Decidable (Unhindered passesFilter f input) :=
  inferInstanceAs (Decidable (∀ q ∈ placements passesFilter f.config input.customMappings, _ ∧ _))

end Definitions

/-- No anchor is a suffix of another one. -/
def SuffixFree (anchors : List String) : Prop :=
  ∀ a ∈ anchors, ∀ b ∈ anchors, a.toList <:+ b.toList → a = b

instance (anchors : List String) : Decidable (SuffixFree anchors) :=
  inferInstanceAs (Decidable (∀ a ∈ anchors, ∀ b ∈ anchors, _ → _))

/-- What it takes for an anchor to be split off. -/
lemma splitOff_iff {anchor symbol base quote : String} :
    (if anchor.toList.isSuffixOf symbol.toList ∧
        anchor.toList.length < symbol.toList.length then
      some (String.ofList (symbol.toList.take (symbol.toList.length - anchor.toList.length)),
        anchor)
    else none) = some (base, quote) ↔ anchor = quote ∧ base ≠ "" ∧ symbol = base ++ quote := by
  rw [Option.ite_none_right_eq_some, List.isSuffixOf_iff_suffix, Option.some_inj, Prod.mk.injEq]
  constructor
  · rintro ⟨⟨⟨rest, hrest⟩, hlength⟩, hbase, rfl⟩
    rw [← hrest, List.length_append] at hlength
    have htake : symbol.toList.take (symbol.toList.length - anchor.toList.length) = rest := by
      rw [← hrest, List.length_append, Nat.add_sub_cancel, List.take_left]
    rw [htake] at hbase
    subst hbase
    refine ⟨rfl, fun hempty => ?_, ?_⟩
    · have hnil : rest = [] := by
        rw [← String.toList_ofList (l := rest), hempty]
        rfl
      rw [hnil] at hlength
      simp at hlength
    · rw [← String.toList_inj, String.toList_append, String.toList_ofList, hrest]
  · rintro ⟨rfl, hbase, rfl⟩
    have hne : base.toList ≠ [] := fun hnil => hbase (String.toList_inj.mp hnil)
    have hlength := List.length_pos_iff.mpr hne
    rw [String.toList_append, List.length_append, Nat.add_sub_cancel, List.take_left]
    exact ⟨⟨List.suffix_append _ _, by omega⟩, String.ofList_toList, rfl⟩

/-- With anchors of which none is a suffix of another, a symbol is split in one way only. -/
lemma splitCustom_eq_some_iff {anchors : List String} (h : SuffixFree anchors)
    {symbol base quote : String} :
    splitCustom anchors symbol = some (base, quote) ↔
      quote ∈ anchors ∧ base ≠ "" ∧ symbol = base ++ quote := by
  constructor
  · intro hsplit
    obtain ⟨anchor, hanchor, hoff⟩ := List.exists_of_findSome?_eq_some hsplit
    obtain ⟨rfl, hbase, hsymbol⟩ := splitOff_iff.mp hoff
    exact ⟨hanchor, hbase, hsymbol⟩
  · rintro ⟨hquote, hbase, hsymbol⟩
    cases hsplit : splitCustom anchors symbol with
    | none =>
      have hnone := List.findSome?_eq_none_iff.mp hsplit quote hquote
      rw [splitOff_iff.mpr ⟨rfl, hbase, hsymbol⟩] at hnone
      cases hnone
    | some pair =>
      obtain ⟨base', quote'⟩ := pair
      obtain ⟨anchor, hanchor, hoff⟩ := List.exists_of_findSome?_eq_some hsplit
      obtain ⟨rfl, -, hsymbol'⟩ := splitOff_iff.mp hoff
      have hlists : base'.toList ++ anchor.toList = base.toList ++ quote.toList := by
        rw [← String.toList_append, ← String.toList_append, ← hsymbol', hsymbol]
      have hsuffix : quote.toList <:+ base'.toList ++ anchor.toList :=
        hlists ▸ List.suffix_append _ _
      -- of two suffixes of one symbol, one is a suffix of the other
      have heq : anchor = quote := by
        rcases List.suffix_or_suffix_of_suffix (List.suffix_append _ _) hsuffix with hab | hba
        · exact h anchor hanchor quote hquote hab
        · exact (h quote hquote anchor hanchor hba).symm
      subst heq
      rw [String.toList_inj.mp (List.append_cancel_right hlists)]

section Effects

variable (passesFilter : String → String → Bool × UInt16)

/-- The placements that mappings ask for. -/
lemma mem_placements {config : CoinFinderConfig} {mappings : List (CustomMapping toUppercase)}
    {q : Placement} :
    q ∈ placements passesFilter config mappings ↔ ∃ mapping ∈ mappings,
      (splitCustom config.quoteAnchors mapping.symbol = some (q.base, q.quote) ∧
        accepts passesFilter config q.base q.quote ≠ none) ∧ q.exchId ∈ mapping.exchangeIds := by
  rw [placements, List.mem_flatMap]
  refine exists_congr fun mapping => and_congr_right fun _ => ?_
  have hpair : customPair passesFilter config mapping = some (q.base, q.quote) ↔
      splitCustom config.quoteAnchors mapping.symbol = some (q.base, q.quote) ∧
        accepts passesFilter config q.base q.quote ≠ none := by
    rw [customPair, Option.filter_eq_some_iff, Option.isSome_iff_ne_none]
  rw [← hpair, placementsOf]
  cases customPair passesFilter config mapping with
  | none => simp
  | some pair =>
    obtain ⟨base, quote⟩ := pair
    simp only [Option.elim_some, List.mem_map, Option.some_inj, Prod.mk.injEq]
    constructor
    · rintro ⟨exchId, hexch, rfl⟩
      exact ⟨⟨rfl, rfl⟩, hexch⟩
    · rintro ⟨⟨rfl, rfl⟩, hexch⟩
      exact ⟨q.exchId, hexch, rfl⟩

/-- The mappings take effect exactly when nothing is in their way. -/
lemma takeEffect_iff (hf : Ordered f) (hanchors : SuffixFree f.config.quoteAnchors)
    (input : CycleInput toUppercase) :
    TakeEffect passesFilter f input ↔ Unhindered passesFilter f input := by
  have hall := gathered_gather passesFilter hf input
  dsimp only at hall
  generalize hscan : gather toUppercase passesFilter f input = scan at hall
  have heffect : TakeEffect passesFilter f input ↔
      ∀ q ∈ placements passesFilter f.config input.customMappings,
        ∃ id raw, scan.finder.globalSymbolMap q.base = some id ∧
          ⟨id, q.base, q.quote, raw⟩ ∈ pairsOn scan q.exchId ∧
            q.exchId ∈ groupOf scan.tokenExchangePresence id := by
    simp only [TakeEffect, hscan, mem_placements, splitCustom_eq_some_iff hanchors]
    constructor
    · rintro h q ⟨mapping, hmapping, ⟨⟨hquote, hbase, hsymbol⟩, haccepts⟩, hexch⟩
      exact h mapping hmapping q.quote hquote q.base hbase hsymbol haccepts q.exchId hexch
    · intro h mapping hmapping quote hquote base hbase hsymbol haccepts exchId hexch
      exact h ⟨exchId, base, quote⟩
        ⟨mapping, hmapping, ⟨⟨hquote, hbase, hsymbol⟩, haccepts⟩, hexch⟩
  rw [heffect]
  constructor
  · intro h q hq
    obtain ⟨id, raw, hid, hpair, -⟩ := h q hq
    refine ⟨(hall.numbered.hasId q.base).mp (Option.ne_none_iff_exists'.mpr ⟨id, hid⟩), ?_⟩
    refine (hall.origin q.exchId _ hpair).imp_right fun horigin => ?_
    have hunlisted := horigin.1
    constructor
    · rintro q' hq' ⟨hexch, hbase⟩
      refine hunlisted q'.quote ?_
      rw [← hexch, ← hbase]
      exact hq'
    · intro q' hq' hexch hbase
      obtain ⟨id', raw', -, hpair', -⟩ := h q' hq'
      rw [hexch] at hpair'
      exact (hall.unique q.exchId _ hpair _ hpair' hbase.symm hunlisted).symm
  · intro h q hq
    obtain ⟨hadmitted, hway⟩ := h q hq
    have hid := (hall.numbered.hasId q.base).mpr hadmitted
    have hfound : ∃ p ∈ pairsOn scan q.exchId, p.base = q.base ∧ p.quote = q.quote := by
      rcases hway with hlisted | ⟨hunlisted, halone⟩
      · exact hall.has_listed q hlisted hid
      · obtain ⟨p, hp, hbase⟩ := hall.has_mapped q hq hid
        rcases hall.origin q.exchId p hp with hlisted | ⟨-, hmapped⟩
        · exact absurd ⟨rfl, hbase⟩ (hunlisted _ hlisted)
        · exact ⟨p, hp, hbase, halone _ hmapped rfl hbase⟩
    obtain ⟨⟨id, base, quote, raw⟩, hp, hbase, hquote⟩ := hfound
    dsimp only at hbase hquote
    subst hbase hquote
    exact ⟨id, raw, hall.named _ _ hp, hp, hall.present _ _ hp⟩

/-- A cycle keeps the ids in order, and the configuration. -/
lemma Ordered.scanCycle (hf : Ordered f) (input : CycleInput toUppercase) :
    Ordered (scanCycle toUppercase passesFilter f input).1 ∧
      (CoinFinder.scanCycle toUppercase passesFilter f input).1.config = f.config := by
  have hnumbered := (gathered_gather passesFilter hf input).numbered
  have hbuilt : Ordered (buildTables toUppercase (gather toUppercase passesFilter f input)) :=
    ⟨hnumbered.ordered.lt_next, hnumbered.ordered.inj⟩
  rw [CoinFinder.scanCycle]
  dsimp only
  generalize hg : buildTables toUppercase (gather toUppercase passesFilter f input) = g at hbuilt
  have hconfig : g.config = f.config := by
    rw [← hg]
    exact hnumbered.config
  by_cases hoff : g.config.crossArbRemovalCycles = 0 ∧ g.config.triArbRemovalCycles = 0
  · rw [pruneStaleTokens, if_pos hoff]
    exact ⟨hbuilt, hconfig⟩
  · have hprune := pruneStaleTokens_spec g
      (gather toUppercase passesFilter f input).tokenExchangePresence hoff
    refine ⟨?_, hprune.same.config.trans hconfig⟩
    have hsymbols : ∀ sym t, (g.pruneStaleTokens
        (gather toUppercase passesFilter f input).tokenExchangePresence).2.globalSymbolMap sym =
          some t → g.globalSymbolMap sym = some t := by
      intro sym t hsym
      rw [hprune.symbols] at hsym
      exact (Option.ite_none_left_eq_some.mp hsym).2
    constructor
    · intro sym t hsym
      rw [hprune.same.next]
      exact hbuilt.lt_next sym t (hsymbols sym t hsym)
    · exact fun sym sym' t hsym hsym' =>
        hbuilt.inj sym sym' t (hsymbols sym t hsym) (hsymbols sym' t hsym')

/-- In every run, all mappings of a cycle take effect exactly when nothing is in their way. -/
theorem mappings_take_effect_iff {exchangeIds : List UInt16} (hnodup : exchangeIds.Nodup)
    (config : CoinFinderConfig) (arena : MarketArena) (names : UInt16 → Option String)
    (ids : String → Option UInt16) (start : UInt16) (hanchors : SuffixFree config.quoteAnchors)
    (before : List (CycleInput toUppercase)) (input : CycleInput toUppercase) :
    let f := runState (CoinFinder.scanCycle toUppercase passesFilter)
      (new exchangeIds hnodup config arena names ids start) before
    TakeEffect passesFilter f input ↔ Unhindered passesFilter f input := by
  have hnew : Ordered (new exchangeIds hnodup config arena names ids start) :=
    ⟨fun _ _ hsym => absurd hsym.symm (Option.some_ne_none _),
      fun _ _ _ hsym _ => absurd hsym.symm (Option.some_ne_none _)⟩
  have hrun : Ordered (runState (CoinFinder.scanCycle toUppercase passesFilter)
      (new exchangeIds hnodup config arena names ids start) before) ∧
        (runState (CoinFinder.scanCycle toUppercase passesFilter)
          (new exchangeIds hnodup config arena names ids start) before).config = config := by
    refine runState_induction (I := fun g => Ordered g ∧ g.config = config) (C := fun _ => True)
      (fun g a hg _ => ?_) ⟨hnew, rfl⟩ fun _ _ => trivial
    obtain ⟨hordered, hconfig⟩ := hg.1.scanCycle passesFilter a
    exact ⟨hordered, hconfig.trans hg.2⟩
  exact takeEffect_iff passesFilter hrun.1 (by rw [hrun.2]; exact hanchors) input

/-! ### Samples -/

lemma nodup_listed : ([0] : List UInt16).Nodup := List.nodup_singleton 0

lemma two_le_maxExchanges : 2 ≤ 64 := by decide

lemma upper_abcusdt (n : ℕ) : String.ofList ("ABCUSDT".toList.take n) =
    String.ofList ("ABCUSDT".toList.take n) := rfl

/-- A scanner of the exchange zero, for two quote anchors. -/
def twoAnchorFinder : CoinFinder :=
  new [0] nodup_listed ⟨["USDT", "USDC"], 0, 3, 3⟩ (MarketArena.new 2 200 two_le_maxExchanges)
    (fun _ => none) (fun _ => none) 100

/-- The exchange zero lists a coin in one quote, and the other one is mapped to an exchange. -/
def otherQuote (exchId : UInt16) : CycleInput (fun s => s) :=
  ⟨fun _ => 100, fun _ => 101, [⟨0, [⟨"ABC", "USDC", "ABCUSDC", true, rfl⟩]⟩],
    [⟨"ABCUSDT", [exchId], upper_abcusdt⟩], nodup_listed⟩

/-- The mapping takes effect on an exchange that does not list the coin. -/
theorem mappings_take_effect_elsewhere :
    TakeEffect altcoins (runState (scanCycle (fun s => s) altcoins) twoAnchorFinder [])
      (otherQuote 1) :=
  (mappings_take_effect_iff altcoins nodup_listed _ _ _ _ _ (by decide +kernel) []
    (otherQuote 1)).mpr (by decide +kernel)

/-- It is skipped on the exchange that lists the coin in another quote. -/
theorem mapping_skipped :
    (pairsOn (gather (fun s => s) altcoins twoAnchorFinder (otherQuote 0)) 0).map PairEntry.quote =
        ["USDC"] ∧
      ¬ TakeEffect altcoins twoAnchorFinder (otherQuote 0) := by
  have hpairs : pairsOn (gather (fun s => s) altcoins twoAnchorFinder (otherQuote 0)) 0 =
      [⟨100, "ABC", "USDC", "ABCUSDC"⟩] := by decide +kernel
  refine ⟨by rw [hpairs]; rfl, fun h => ?_⟩
  obtain ⟨id, raw, -, hmem, -⟩ := h ⟨"ABCUSDT", [0], upper_abcusdt⟩ (by simp [otherQuote]) "USDT"
    (by decide +kernel) "ABC" (by decide) (by decide +kernel) (by decide +kernel) 0 (by simp)
  rw [hpairs, List.mem_singleton, PairEntry.mk.injEq] at hmem
  exact absurd hmem.2.2.1 (by decide)

end Effects

end CoinFinder

end HftArb
