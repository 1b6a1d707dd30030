import HftArb.Scanner.Pruning

/-!
# Zeroing a token on one exchange

The triangular pruner is to zero the prices of a token on an exchange once, when the token's absence
there has lasted for a number of cycles.  It reads the presence map the wrong way round: for the
token `t` on the exchange `e` it looks for a token numbered `e` on an exchange numbered `t`.  And it
adds to a count that has reached the threshold already, so that it zeroes again in every cycle.

`mem_zeroed_iff` says over whole runs when it does zero: when the absence read the wrong way round
has lasted long enough.  `zeroedOnTime_iff` compares this with the absence of the token.
-/

namespace HftArb

open AssocMap MissingCounts Runs

namespace CoinFinder

variable {toUppercase : String → String} {start : UInt16} {f : CoinFinder}

/-- The regrouping of the presence map leaves it as it is. -/
lemma mem_groupOf_exchTokenSeen {presence : List (UInt16 × List UInt16)}
    (h : (presence.map Prod.fst).Nodup) {key c : UInt16} :
    c ∈ groupOf (exchTokenSeen presence) key ↔ c ∈ groupOf presence key := by
  rw [exchTokenSeen, mem_groupOf_foldl_entries]
  constructor
  · rintro (⟨cs, hmem, hc⟩ | hc)
    · rw [groupOf, (mem_iff_lookup h).mp hmem, Option.getD_some]
      exact hc
    · exact absurd hc List.not_mem_nil
  · intro hc
    cases hlookup : presence.lookup key with
    | none =>
      rw [groupOf, hlookup] at hc
      exact absurd hc List.not_mem_nil
    | some cs =>
      rw [groupOf, hlookup, Option.getD_some] at hc
      exact Or.inl ⟨cs, (mem_iff_lookup h).mpr hlookup, hc⟩

section Cycle

variable {input : CycleInput toUppercase} {rep : CycleReport} {scanned g : CoinFinder}

/-- The pairs that the triangular pruner counts. -/
def CycleReport.Counts (rep : CycleReport) (f : CoinFinder) (pair : UInt16 × UInt16) : Prop :=
  pair.1 ∈ rep.active ∧ firstDiscovered ≤ pair.1 ∧ pair.2 ∈ f.exchangeIds

instance (rep : CycleReport) (f : CoinFinder) (pair : UInt16 × UInt16) :
    Decidable (rep.Counts f pair) :=
  inferInstanceAs (Decidable (_ ∧ _))

lemma CycleSpec.mem_pairs (h : CycleSpec start f input rep scanned g) {pair : UInt16 × UInt16} :
    pair ∈ scanned.discovered ×ˢ scanned.exchangeIds ↔ rep.Counts f pair := by
  have hexch : scanned.exchangeIds = f.exchangeIds := h.grown.exchangeIds
  rw [← Prod.mk.eta (p := pair), List.mem_product, h.mem_discovered, hexch, and_assoc]
  rfl

lemma CycleSpec.nodup_pairs (h : CycleSpec start f input rep scanned g) :
    (scanned.discovered ×ˢ scanned.exchangeIds).Nodup :=
  h.nodup_discovered.product scanned.exchangeIds_nodup

/-- What the triangular pruner takes for the presence of a pair. -/
lemma CycleSpec.seen_iff (h : CycleSpec start f input rep scanned g) (pair : UInt16 × UInt16) :
    pair.1 ∈ groupOf (exchTokenSeen rep.tokenExchangePresence) pair.2 ↔
      rep.Lists pair.1 pair.2 := by
  rw [mem_groupOf_exchTokenSeen h.keys_nodup, h.lists_iff]

/-- The pairs a cycle zeroes. -/
lemma CycleSpec.mem_zeroed (h : CycleSpec start f input rep scanned g)
    (htri : 0 < f.config.triArbRemovalCycles) {pair : UInt16 × UInt16} :
    pair ∈ rep.zeroed ↔ (rep.Counts f pair ∧ ¬ rep.Lists pair.1 pair.2 ∧
      f.config.triArbRemovalCycles ≤ f.tokenExchangeMissingCounts pair + 1) ∧
      pair.1 ∉ rep.removed ∧ scanned.InArena pair := by
  have hzeroed : rep.zeroed =
      scanned.zeroable rep.removed (scanned.triSweep rep.tokenExchangePresence).2 := h.prune.zeroed
  have hmissing : scanned.tokenExchangeMissingCounts = f.tokenExchangeMissingCounts :=
    h.grown.exchangeMissing
  rw [hzeroed, mem_zeroable, triSweep, h.config_eq, if_pos htri, mem_sweep h.nodup_pairs,
    h.mem_pairs, decide_eq_false_iff_not, h.seen_iff, hmissing]

/-- The count of a pair after a cycle. -/
lemma CycleSpec.exchangeMissing_after (h : CycleSpec start f input rep scanned g)
    (htri : 0 < f.config.triArbRemovalCycles) (pair : UInt16 × UInt16) :
    g.tokenExchangeMissingCounts pair =
      if pair.1 ∈ rep.removed then 0
      else if pair ∈ rep.zeroed then f.config.triArbRemovalCycles
      else if rep.Counts f pair then
        if rep.Lists pair.1 pair.2 then 0 else f.tokenExchangeMissingCounts pair + 1
      else f.tokenExchangeMissingCounts pair := by
  have hmissing : scanned.tokenExchangeMissingCounts = f.tokenExchangeMissingCounts :=
    h.grown.exchangeMissing
  rw [h.prune.exchangeMissing, triSweep, h.config_eq, if_pos htri, sweep_count h.nodup_pairs,
    hmissing]
  simp only [h.mem_pairs, decide_eq_true_eq, h.seen_iff]

/-- The prices of a pair after a cycle. -/
lemma CycleSpec.prices_after (h : CycleSpec start f input rep scanned g)
    {pair : UInt16 × UInt16} (hpair : f.InArena pair) :
    g.pricesOf pair = if pair.1 ∈ rep.removed ∨ pair ∈ rep.zeroed then (0, 0)
      else (f.withPrices input).pricesOf pair := by
  have hslot : scanned.InArena pair := by
    rw [InArena, h.grown.sizes.1, h.grown.sizes.2]
    exact hpair
  have hprices : scanned.pricesOf pair = (f.withPrices input).pricesOf pair := by
    simp only [pricesOf, MarketArena.bid, MarketArena.ask, MarketArena.getIndex, h.grown.sizes.1,
      h.grown.prices.1, h.grown.prices.2]
  rw [h.prune.prices pair hslot, hprices]

end Cycle

/-! ## The counts over a run -/

/-- The token is active in the cycle and the exchange does not list it. -/
def absentOn (tokenId exchId : UInt16) (rep : CycleReport) : Bool :=
  decide (tokenId ∈ rep.active ∧ ¬ rep.Lists exchId tokenId)

/-- The token is active in the cycle and no exchange with the token's number lists a token with the
exchange's number. -/
def absentSwapped (tokenId exchId : UInt16) (rep : CycleReport) : Bool :=
  decide (tokenId ∈ rep.active ∧ ¬ rep.Lists tokenId exchId)

/-- The count of a pair after so many cycles of absence.  It stops at the threshold, unless that is
the largest word: then it wraps around. -/
def pairCount (threshold cycles : ℕ) : ℕ :=
  if threshold + 1 < 2 ^ 32 then min cycles threshold else cycles % 2 ^ 32

/-- The count of a pair reaches the threshold, or is there already. -/
def Fires (threshold cycles : ℕ) : Prop :=
  if threshold + 1 < 2 ^ 32 then threshold ≤ cycles else cycles % 2 ^ 32 = threshold

instance (threshold cycles : ℕ) : Decidable (Fires threshold cycles) :=
  inferInstanceAs (Decidable (ite _ _ _))

lemma not_fires_zero {threshold : ℕ} (h : 0 < threshold) : ¬ Fires threshold 0 := by
  unfold Fires
  split <;> omega

/-- One more cycle of absence. -/
lemma pairCount_succ {count threshold : UInt32} {cycles : ℕ}
    (h : count.toNat = pairCount threshold.toNat cycles) :
    (threshold ≤ count + 1 ↔ Fires threshold.toNat (cycles + 1)) ∧
      (if threshold ≤ count + 1 then threshold else count + 1).toNat =
        pairCount threshold.toNat (cycles + 1) := by
  have hlt := threshold.toNat_lt
  have hsucc : (count + 1).toNat = (count.toNat + 1) % 2 ^ 32 := by
    rw [UInt32.toNat_add, UInt32.toNat_one]
  have hfires : threshold ≤ count + 1 ↔ Fires threshold.toNat (cycles + 1) := by
    rw [UInt32.le_iff_toNat_le, hsucc, h, Fires, pairCount]
    split <;> omega
  refine ⟨hfires, ?_⟩
  rw [apply_ite UInt32.toNat, hsucc]
  simp only [hfires, h]
  unfold Fires pairCount
  split
  · split <;> omega
  · split <;> omega

/-- The count of every discovered token on every scanned exchange with a slot in the arena. -/
structure PairCounted (f : CoinFinder) (history : List CycleReport) : Prop where
  idle : ∀ pair, pair.1 ∉ f.arena.activeTokens → f.tokenExchangeMissingCounts pair = 0
  count : ∀ pair, pair.1 ∈ f.arena.activeTokens → firstDiscovered ≤ pair.1 →
    pair.2 ∈ f.exchangeIds → f.InArena pair → (f.tokenExchangeMissingCounts pair).toNat =
      pairCount f.config.triArbRemovalCycles.toNat
        (streak (absentSwapped pair.1 pair.2) history).length

section Counting

variable {f₀ : CoinFinder} {history : List CycleReport} {input : CycleInput toUppercase}
variable {rep : CycleReport} {scanned g : CoinFinder}

/-- When the pruning of a cycle starts, the count of every pair is that of its absence in the cycles
before. -/
lemma Reached.pair_count_eq (h : Reached start f₀ f history) (hcount : PairCounted f history)
    (hcycle : CycleSpec start f input rep scanned g) {pair : UInt16 × UInt16}
    (hpair : rep.Counts f pair) (hslot : f.InArena pair) :
    (f.tokenExchangeMissingCounts pair).toNat =
      pairCount f.config.triArbRemovalCycles.toNat
        (streak (absentSwapped pair.1 pair.2) history).length := by
  by_cases hold : pair.1 ∈ f.arena.activeTokens
  · exact hcount.count pair hold hpair.2.1 hpair.2.2 hslot
  · have hnever := h.not_active_before hcycle hpair.1 hold
    have hnil : streak (absentSwapped pair.1 pair.2) history = [] :=
      streak_eq_nil (fun r hr => (of_decide_eq_true hr).1) hnever
    rw [hcount.idle pair hold, hnil, pairCount]
    split <;> simp

/-- A cycle that does not remove the token zeroes a pair exactly when its absence, read the wrong
way round, has lasted long enough. -/
lemma Reached.mem_zeroed_iff (h : Reached start f₀ f history)
    (htri : 0 < f.config.triArbRemovalCycles) (hcount : PairCounted f history)
    (hcycle : CycleSpec start f input rep scanned g) {pair : UInt16 × UInt16}
    (hdisc : firstDiscovered ≤ pair.1) (hexch : pair.2 ∈ f.exchangeIds) (hslot : f.InArena pair)
    (hstays : pair.1 ∉ rep.removed) :
    pair ∈ rep.zeroed ↔ Fires f.config.triArbRemovalCycles.toNat
      (streak (absentSwapped pair.1 pair.2) (history ++ [rep])).length := by
  have hpos : 0 < f.config.triArbRemovalCycles.toNat := UInt32.lt_iff_toNat_lt.mp htri
  have hslot' : scanned.InArena pair := by
    rw [InArena, hcycle.grown.sizes.1, hcycle.grown.sizes.2]
    exact hslot
  rw [hcycle.mem_zeroed htri, streak_append_singleton]
  cases habsent : absentSwapped pair.1 pair.2 rep with
  | false =>
    refine iff_of_false ?_ (not_fires_zero hpos)
    rintro ⟨⟨hpair, hlists, -⟩, -⟩
    exact of_decide_eq_false habsent ⟨hpair.1, hlists⟩
  | true =>
    obtain ⟨hactive, hlists⟩ := of_decide_eq_true habsent
    have hpair : rep.Counts f pair := ⟨hactive, hdisc, hexch⟩
    have hfires := (pairCount_succ (h.pair_count_eq hcount hcycle hpair hslot)).1
    rw [if_pos rfl, List.length_cons, ← hfires]
    exact ⟨fun hz => hz.1.2.2, fun hle => ⟨⟨hpair, hlists, hle⟩, hstays, hslot'⟩⟩

/-- The counts of the pairs after a cycle. -/
lemma Reached.pairCounted_after (h : Reached start f₀ f history)
    (htri : 0 < f.config.triArbRemovalCycles) (hcount : PairCounted f history)
    (hcycle : CycleSpec start f input rep scanned g) : PairCounted g (history ++ [rep]) := by
  have hconfig : g.config = f.config := hcycle.prune.same.config.trans hcycle.config_eq
  constructor
  · intro pair hpair
    rw [hcycle.mem_active_after, not_and_not_right] at hpair
    rw [hcycle.exchangeMissing_after htri]
    by_cases hremoved : pair.1 ∈ rep.removed
    · rw [if_pos hremoved]
    · have hinactive : pair.1 ∉ rep.active := fun hactive => hremoved (hpair hactive)
      have hinactive' : pair.1 ∉ f.arena.activeTokens := fun hactive =>
        hinactive (hcycle.active ▸ hcycle.grown.active pair.1 hactive)
      have hcounts : ¬ rep.Counts f pair := fun hc => hinactive hc.1
      have hzeroed : pair ∉ rep.zeroed := fun hz => hcounts ((hcycle.mem_zeroed htri).mp hz).1.1
      rw [if_neg hremoved, if_neg hzeroed, if_neg hcounts, hcount.idle pair hinactive']
  · intro pair hactive hdisc hexch hslot
    obtain ⟨hactive, hstays⟩ := hcycle.mem_active_after.mp hactive
    have hexch' : pair.2 ∈ f.exchangeIds := by
      rw [hcycle.prune.same.exchangeIds, hcycle.grown.exchangeIds] at hexch
      exact hexch
    have hslot' : f.InArena pair := by
      rw [hcycle.prune.same.inArena_iff, InArena, hcycle.grown.sizes.1, hcycle.grown.sizes.2]
        at hslot
      exact hslot
    have hpair : rep.Counts f pair := ⟨hactive, hdisc, hexch'⟩
    have hsucc := pairCount_succ (h.pair_count_eq hcount hcycle hpair hslot')
    have hzeroed := h.mem_zeroed_iff htri hcount hcycle hdisc hexch' hslot' hstays
    rw [hconfig, hcycle.exchangeMissing_after htri, if_neg hstays, if_pos hpair]
    rw [streak_append_singleton] at hzeroed ⊢
    by_cases hlists : rep.Lists pair.1 pair.2
    · have hpresent : absentSwapped pair.1 pair.2 rep = false :=
        decide_eq_false fun ha => ha.2 hlists
      have hspared : pair ∉ rep.zeroed := fun hz => ((hcycle.mem_zeroed htri).mp hz).1.2.1 hlists
      rw [if_neg hspared, if_pos hlists, hpresent, pairCount]
      simp
    · have habsent : absentSwapped pair.1 pair.2 rep = true :=
        decide_eq_true ⟨hactive, hlists⟩
      rw [habsent, if_pos rfl, List.length_cons] at hzeroed ⊢
      rw [if_neg hlists, ← hsucc.2]
      simp only [hzeroed, hsucc.1]

end Counting

/-- What a report of a run says about a pair: a token that is active in the cycle was not removed
before, and the pair is zeroed exactly when its absence, read the wrong way round, has lasted long
enough, unless the token is removed. -/
def PairReported (threshold : ℕ) (tokenId exchId : UInt16) (history : List CycleReport)
    (rep : CycleReport) : Prop :=
  (tokenId ∈ rep.active → ∀ r ∈ history, tokenId ∉ r.removed) ∧
    ((tokenId, exchId) ∈ rep.zeroed ↔ tokenId ∉ rep.removed ∧
      Fires threshold (streak (absentSwapped tokenId exchId) (history ++ [rep])).length)

/-- The states of a run and what its reports say about a pair. -/
lemma pairCounted_runState (passesFilter : String → String → Bool × UInt16) {f₀ : CoinFinder}
    (hnew : IsNew start f₀) (hcross : 0 < f₀.config.crossArbRemovalCycles)
    (htri : 0 < f₀.config.triArbRemovalCycles) {tokenId exchId : UInt16}
    (hdisc : firstDiscovered ≤ tokenId) (hexch : exchId ∈ f₀.exchangeIds)
    (hslot : f₀.InArena (tokenId, exchId)) (inputs : List (CycleInput toUppercase)) :
    Reached start f₀ (runState (scanCycle toUppercase passesFilter) f₀ inputs)
        (runTrace (scanCycle toUppercase passesFilter) f₀ inputs) ∧
      PairCounted (runState (scanCycle toUppercase passesFilter) f₀ inputs)
        (runTrace (scanCycle toUppercase passesFilter) f₀ inputs) ∧
      Guarded (PairReported f₀.config.triArbRemovalCycles.toNat tokenId exchId)
        (runTrace (scanCycle toUppercase passesFilter) f₀ inputs) := by
  have hinit : PairCounted f₀ [] :=
    ⟨fun pair _ => hnew.exchangeMissing pair, fun pair hactive => by simp [hnew.active] at hactive⟩
  have hstep : ∀ (f : CoinFinder) (history : List CycleReport) (input : CycleInput toUppercase),
      (Reached start f₀ f history ∧ PairCounted f history ∧
        Guarded (PairReported f₀.config.triArbRemovalCycles.toNat tokenId exchId) history) → True →
      Reached start f₀ (scanCycle toUppercase passesFilter f input).1
          (history ++ (scanCycle toUppercase passesFilter f input).2) ∧
        PairCounted (scanCycle toUppercase passesFilter f input).1
          (history ++ (scanCycle toUppercase passesFilter f input).2) ∧
        Guarded (PairReported f₀.config.triArbRemovalCycles.toNat tokenId exchId)
          (history ++ (scanCycle toUppercase passesFilter f input).2) := by
    rintro f history input ⟨hreached, hcount, hguarded⟩ -
    obtain ⟨hcross', hcycle⟩ := hreached.next_cycle hcross passesFilter input
    have htri' : 0 < f.config.triArbRemovalCycles := hreached.config ▸ htri
    have hslot' : f.InArena (tokenId, exchId) := by
      rw [InArena, hreached.sizes.1, hreached.sizes.2]
      exact hslot
    have hzeroed := hreached.mem_zeroed_iff htri' hcount hcycle hdisc
      (hreached.exchangeIds ▸ hexch) hslot'
    rw [hreached.config] at hzeroed
    rw [scanCycle_snd]
    refine ⟨hreached.cycle hcross' hcycle, hreached.pairCounted_after htri' hcount hcycle,
      guarded_append_singleton.mpr ⟨hguarded, hreached.not_removed_before hcycle, ?_⟩⟩
    constructor
    · intro hz
      have hstays := ((hcycle.mem_zeroed htri').mp hz).2.1
      exact ⟨hstays, (hzeroed hstays).mp hz⟩
    · rintro ⟨hstays, hfires⟩
      exact (hzeroed hstays).mpr hfires
  exact run_induction (C := fun _ _ _ => True) hstep ⟨hnew.reached, hinit, trivial⟩
    fun _ _ _ _ => trivial

/-! ## Zeroed on time -/

/-- The cycle zeroes the pair exactly when that is due: the token has been absent from the exchange
for as many cycles as the threshold says, and has not been zeroed there since its last appearance.
A token that the exchange lists is not zeroed there. -/
def ZeroedOnTime (threshold : ℕ) (tokenId exchId : UInt16) (history : List CycleReport)
    (rep : CycleReport) : Prop :=
  ((tokenId, exchId) ∈ rep.zeroed ↔
      Due (absentOn tokenId exchId) (fun r => (tokenId, exchId) ∈ r.zeroed) threshold history rep) ∧
    (rep.Lists exchId tokenId → (tokenId, exchId) ∉ rep.zeroed)

instance (threshold : ℕ) (tokenId exchId : UInt16) (history : List CycleReport)
    (rep : CycleReport) : Decidable (ZeroedOnTime threshold tokenId exchId history rep) :=
  inferInstanceAs (Decidable (_ ∧ _))

/-- The absence read the wrong way round has reached the threshold exactly in the cycle in which the
absence of the token from the exchange does. -/
def ReadRight (threshold : ℕ) (tokenId exchId : UInt16) (history : List CycleReport)
    (rep : CycleReport) : Prop :=
  Fires threshold (streak (absentSwapped tokenId exchId) (history ++ [rep])).length ↔
    (streak (absentOn tokenId exchId) (history ++ [rep])).length = threshold

instance (threshold : ℕ) (tokenId exchId : UInt16) (history : List CycleReport)
    (rep : CycleReport) : Decidable (ReadRight threshold tokenId exchId history rep) :=
  inferInstanceAs (Decidable (_ ↔ _))

/-- The absence of a token that stays through the cycle. -/
def absentStaying (tokenId exchId : UInt16) (rep : CycleReport) : Bool :=
  decide (tokenId ∉ rep.removed) && absentOn tokenId exchId rep

section Staying

variable {threshold : ℕ} {tokenId exchId : UInt16} {history : List CycleReport} {rep : CycleReport}

/-- The absence of a token that was not removed. -/
lemma streak_absentStaying_of_forall (hkept : ∀ r ∈ history, tokenId ∉ r.removed) :
    streak (absentStaying tokenId exchId) history = streak (absentOn tokenId exchId) history := by
  apply streak_congr
  intro r hr
  simp [absentStaying, hkept r hr]

/-- Up to a cycle that does not remove the token, it has stayed in every cycle of its absence. -/
lemma streak_absentStaying (hbefore : tokenId ∈ rep.active → ∀ r ∈ history, tokenId ∉ r.removed)
    (hstays : tokenId ∉ rep.removed) :
    streak (absentStaying tokenId exchId) (history ++ [rep]) =
      streak (absentOn tokenId exchId) (history ++ [rep]) := by
  have hrep : absentStaying tokenId exchId rep = absentOn tokenId exchId rep := by
    simp [absentStaying, hstays]
  rw [streak_append_singleton, streak_append_singleton, hrep]
  cases habsent : absentOn tokenId exchId rep with
  | false => rfl
  | true =>
    rw [streak_absentStaying_of_forall (hbefore (of_decide_eq_true habsent).1)]

/-- Being zeroed on time, when the token is not removed, in terms of the absences of tokens that
stay. -/
lemma PairReported.zeroedOnTime_iff_due (h : PairReported threshold tokenId exchId history rep)
    (hpos : 0 < threshold) :
    (tokenId ∉ rep.removed → ZeroedOnTime threshold tokenId exchId history rep) ↔
      ((tokenId, exchId) ∈ rep.zeroed ↔ Due (absentStaying tokenId exchId)
        (fun r => (tokenId, exchId) ∈ r.zeroed) threshold history rep) := by
  by_cases hremoved : tokenId ∈ rep.removed
  · have hspared : (tokenId, exchId) ∉ rep.zeroed := fun hz => (h.2.mp hz).1 hremoved
    have hnot : ¬ Due (absentStaying tokenId exchId) (fun r => (tokenId, exchId) ∈ r.zeroed)
        threshold history rep := by
      rintro ⟨hlength, -⟩
      rw [streak_append_singleton] at hlength
      simp [absentStaying, hremoved, hpos.ne'] at hlength
    exact iff_of_true (fun hstays => absurd hremoved hstays) (iff_of_false hspared hnot)
  · rw [forall_prop_of_true hremoved, ZeroedOnTime, Due, Due, streak_absentStaying h.1 hremoved]
    cases habsent : absentOn tokenId exchId rep with
    | false =>
      -- the streak has ended, so that nothing is due
      have hnil : streak (absentOn tokenId exchId) (history ++ [rep]) = [] := by
        rw [streak_append_singleton, habsent]
        rfl
      have hnot : ¬ threshold ≤ ([] : List CycleReport).length := not_le.mpr hpos
      simp only [hnil, hnot, false_and, iff_false]
      exact and_iff_left_of_imp fun hspared _ => hspared
    | true =>
      obtain ⟨hactive, hlists⟩ := of_decide_eq_true habsent
      rw [streak_absentStaying_of_forall (h.1 hactive)]
      exact and_iff_left fun hlists' => absurd hlists' hlists

/-- Reading the absence right, when the token is not removed, in terms of the absences of tokens
that stay. -/
lemma PairReported.readRight_iff (h : PairReported threshold tokenId exchId history rep)
    (hpos : 0 < threshold) :
    (tokenId ∉ rep.removed → ReadRight threshold tokenId exchId history rep) ↔
      ((tokenId, exchId) ∈ rep.zeroed ↔
        (streak (absentStaying tokenId exchId) (history ++ [rep])).length = threshold) := by
  by_cases hremoved : tokenId ∈ rep.removed
  · have hspared : (tokenId, exchId) ∉ rep.zeroed := fun hz => (h.2.mp hz).1 hremoved
    have hnot : (streak (absentStaying tokenId exchId) (history ++ [rep])).length ≠ threshold := by
      rw [streak_append_singleton]
      simp [absentStaying, hremoved, hpos.ne]
    exact iff_of_true (fun hstays => absurd hremoved hstays) (iff_of_false hspared hnot)
  · rw [forall_prop_of_true hremoved, streak_absentStaying h.1 hremoved, h.2,
      and_iff_right hremoved]
    rfl

end Staying

/-- A pair with a slot in the arena has its prices zeroed by a cycle when the cycle reports the pair
or removes the token, and keeps them otherwise.  In a run a discovered token is zeroed on time on a
scanned exchange in every cycle that does not remove it exactly when its absence is read right in
all these cycles. -/
theorem zeroedOnTime_iff (passesFilter : String → String → Bool × UInt16) {f₀ : CoinFinder}
    (hnew : IsNew start f₀) (hcross : 0 < f₀.config.crossArbRemovalCycles)
    (htri : 0 < f₀.config.triArbRemovalCycles) {tokenId exchId : UInt16}
    (hdisc : firstDiscovered ≤ tokenId) (hexch : exchId ∈ f₀.exchangeIds)
    (hslot : f₀.InArena (tokenId, exchId)) (inputs : List (CycleInput toUppercase)) :
    (∀ before input after, inputs = before ++ input :: after →
      let f := runState (scanCycle toUppercase passesFilter) f₀ before
      let rep := reportOf toUppercase passesFilter f input
      (scanCycle toUppercase passesFilter f input).1.pricesOf (tokenId, exchId) =
        if tokenId ∈ rep.removed ∨ (tokenId, exchId) ∈ rep.zeroed then (0, 0)
        else (f.withPrices input).pricesOf (tokenId, exchId)) ∧
    (Guarded (fun history rep => tokenId ∉ rep.removed →
          ZeroedOnTime f₀.config.triArbRemovalCycles.toNat tokenId exchId history rep)
        (runTrace (scanCycle toUppercase passesFilter) f₀ inputs) ↔
      Guarded (fun history rep => tokenId ∉ rep.removed →
          ReadRight f₀.config.triArbRemovalCycles.toNat tokenId exchId history rep)
        (runTrace (scanCycle toUppercase passesFilter) f₀ inputs)) := by
  have hpos : 0 < f₀.config.triArbRemovalCycles.toNat := UInt32.lt_iff_toNat_lt.mp htri
  constructor
  · rintro before input after -
    obtain ⟨hreached, -, -⟩ :=
      pairCounted_runState passesFilter hnew hcross htri hdisc hexch hslot before
    apply (hreached.next_cycle hcross passesFilter input).2.prices_after
    rw [InArena, hreached.sizes.1, hreached.sizes.2]
    exact hslot
  · obtain ⟨-, -, hreported⟩ :=
      pairCounted_runState passesFilter hnew hcross htri hdisc hexch hslot inputs
    have htime := guarded_congr
      (guarded_mono (fun history rep h => PairReported.zeroedOnTime_iff_due h hpos) hreported)
    have hright := guarded_congr
      (guarded_mono (fun history rep h => PairReported.readRight_iff h hpos) hreported)
    rw [htime, hright, guarded_due_iff hpos]

lemma nodup_zero : ([0] : List UInt16).Nodup := List.nodup_singleton 0

/-- A cycle in which a custom mapping puts one coin on an exchange that is not scanned. -/
def mappedElsewhere : CycleInput (fun s => s) :=
  ⟨fun _ => 100, fun _ => 101, [⟨0, []⟩], [⟨"SOLUSDT", [5], fun _ => rfl⟩],
    nodup_zero⟩

/-- A coin that is never on the exchange is zeroed there on time, in the second cycle. -/
theorem zeroedOnTime_elsewhere :
    Guarded (fun history rep => 100 ∉ rep.removed → ZeroedOnTime 2 100 0 history rep)
      (runTrace (scanCycle (fun s => s) altcoins) (soloFinder 100 5 2)
        [mappedElsewhere, mappedElsewhere]) ∧
    (runTrace (scanCycle (fun s => s) altcoins) (soloFinder 100 5 2)
      [mappedElsewhere, mappedElsewhere]).map CycleReport.zeroed = [[], [(100, 0)]] :=
  ⟨(zeroedOnTime_iff altcoins (isNew_soloFinder 100 5 2) (by decide) (by decide) (by decide)
      (by decide) (by decide) [mappedElsewhere, mappedElsewhere]).2.mpr (by decide +kernel),
    by decide +kernel⟩

/-- A coin that the exchange lists in every cycle is zeroed there in every cycle from the second
on. -/
theorem listed_and_zeroed :
    IsNew 100 (soloFinder 100 5 2) ∧
    (runTrace (scanCycle (fun s => s) altcoins) (soloFinder 100 5 2)
      [soloListing, soloListing, soloListing]).map CycleReport.zeroed =
        [[], [(100, 0)], [(100, 0)]] ∧
    (∀ rep ∈ runTrace (scanCycle (fun s => s) altcoins) (soloFinder 100 5 2)
      [soloListing, soloListing, soloListing], rep.Lists 0 100 ∧ 100 ∉ rep.removed) ∧
    ¬ Guarded (fun history rep => 100 ∉ rep.removed → ZeroedOnTime 2 100 0 history rep)
      (runTrace (scanCycle (fun s => s) altcoins) (soloFinder 100 5 2)
        [soloListing, soloListing, soloListing]) :=
  ⟨isNew_soloFinder 100 5 2, by decide +kernel, by decide +kernel, by decide +kernel⟩

end CoinFinder

end HftArb
