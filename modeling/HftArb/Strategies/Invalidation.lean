import HftArb.Foundations.Runs
import HftArb.Strategies.ArenaUpdates

/-!
# Signals after an invalidation

Once an exchange or a token has been invalidated its prices are zero until the next update, and a
signal rests on prices that are not zero.  So no signal should name it.

The price matrix is flat, and the evaluation of a loop only checks that its slots are in the matrix.
A loop with a token id beyond the number of tokens therefore reads the row of the next exchange, and
an invalidation of the token is dropped as out of range.  A token id beyond 16 bits, in turn, is
reported under a smaller one.  `invalidated_silent` says that nothing else goes wrong: a run that
compiles neither such loops nor such tokens keeps silent about what has been invalidated.
-/

namespace HftArb

namespace MarketArena

/-! ## Runs of writers -/

/-- A call of a writer of the arena. -/
inductive ArenaCall where
  | updatePrice (exchId tokenId : ℕ) (bid ask : UInt64)
  | invalidateExchange (exchId : ℕ)
  | invalidateToken (tokenId : ℕ)
  | buildCrossExchangeTargets
  | buildCrossExchangeTargetsFromPresence (presence : List (UInt16 × List UInt16))
  | buildTriangularLoops (exchangePairs : List (UInt16 × List (UInt16 × UInt16)))

/-- The arena after a call. -/
def apply (a : MarketArena) : ArenaCall → MarketArena
  | .updatePrice exchId tokenId bid ask => a.updatePrice exchId tokenId bid ask
  | .invalidateExchange exchId => a.invalidateExchange exchId
  | .invalidateToken tokenId => a.invalidateToken tokenId
  | .buildCrossExchangeTargets => a.buildCrossExchangeTargets
  | .buildCrossExchangeTargetsFromPresence presence =>
    a.buildCrossExchangeTargetsFromPresence presence
  | .buildTriangularLoops exchangePairs => a.buildTriangularLoops exchangePairs

/-- The arena after some calls. -/
def applyAll (a : MarketArena) (calls : List ArenaCall) : MarketArena := calls.foldl apply a

/-- A call does not change the dimensions of the matrix. -/
lemma dimensions_apply (a : MarketArena) (c : ArenaCall) :
    (a.apply c).totalTokens = a.totalTokens ∧ (a.apply c).totalExchanges = a.totalExchanges := by
  cases c with
  | updatePrice exchId tokenId bid ask =>
    have h := sameTables_updatePrice a exchId tokenId bid ask
    exact ⟨h.totalTokens, h.totalExchanges⟩
  | invalidateExchange exchId =>
    have h := sameTables_invalidateExchange a exchId
    exact ⟨h.totalTokens, h.totalExchanges⟩
  | invalidateToken tokenId =>
    have h := sameTables_invalidateToken a tokenId
    exact ⟨h.totalTokens, h.totalExchanges⟩
  | buildCrossExchangeTargets => exact ⟨rfl, rfl⟩
  | buildCrossExchangeTargetsFromPresence presence => exact ⟨rfl, rfl⟩
  | buildTriangularLoops exchangePairs => exact ⟨rfl, rfl⟩

/-! ## Slots without prices -/

/-- A slot stays without prices unless it is updated. -/
lemma ZeroSlot.apply {a : MarketArena} {exchId tokenId : ℕ} (ht : tokenId < a.totalTokens)
    (h : a.ZeroSlot exchId tokenId) {c : ArenaCall}
    (hc : ∀ bid ask, c ≠ .updatePrice exchId tokenId bid ask) :
    (a.apply c).ZeroSlot exchId tokenId := by
  cases c with
  | updatePrice exchId' tokenId' bid ask =>
    change (a.updatePrice exchId' tokenId' bid ask).ZeroSlot exchId tokenId
    unfold updatePrice
    split_ifs with hrange
    · exact h
    · have hne : a.getIndex exchId tokenId ≠ a.getIndex exchId' tokenId' := by
        rw [Ne, getIndex_inj a ht (by omega)]
        rintro ⟨rfl, rfl⟩
        exact hc bid ask rfl
      have hbid := (Function.update_of_ne hne bid a.bidPrices).trans h.1
      have hask := (Function.update_of_ne hne ask a.askPrices).trans h.2
      exact ⟨hbid, hask⟩
  | invalidateExchange exchId' =>
    change (a.invalidateExchange exchId').ZeroSlot exchId tokenId
    unfold invalidateExchange
    split_ifs
    · exact h
    · exact zeroSlot_zeroSlots (Or.inr h)
  | invalidateToken tokenId' =>
    change (a.invalidateToken tokenId').ZeroSlot exchId tokenId
    unfold invalidateToken
    split_ifs
    · exact h
    · exact zeroSlot_zeroSlots (Or.inr h)
  | buildCrossExchangeTargets => exact h
  | buildCrossExchangeTargetsFromPresence presence => exact h
  | buildTriangularLoops exchangePairs => exact h

/-- A slot stays without prices over calls that do not update it. -/
lemma ZeroSlot.applyAll {a : MarketArena} {exchId tokenId : ℕ} (ht : tokenId < a.totalTokens)
    (h : a.ZeroSlot exchId tokenId) {calls : List ArenaCall}
    (hcalls : ∀ bid ask, ArenaCall.updatePrice exchId tokenId bid ask ∉ calls) :
    (a.applyAll calls).ZeroSlot exchId tokenId := by
  induction calls generalizing a with
  | nil => exact h
  | cons c calls ih =>
    have hc : ∀ bid ask, c ≠ .updatePrice exchId tokenId bid ask := by
      rintro bid ask rfl
      exact hcalls bid ask (by simp)
    refine ih (by rw [(dimensions_apply a c).1]; exact ht) (h.apply ht hc) ?_
    intro bid ask hmem
    exact hcalls bid ask (by simp [hmem])

/-! ## Tidy tables -/

end MarketArena

/-- The tokens of a loop. -/
def TriangularLoop.tokens (tri : TriangularLoop) : List UInt16 :=
  [tri.tokenA, tri.tokenB, tri.tokenC]

/-- The signal names an exchange. -/
def ArbitrageSignal.NamesExchange (exchId : ℕ) : ArbitrageSignal → Prop
  | .crossExchange buyExchange sellExchange _ _ =>
    buyExchange.toNat = exchId ∨ sellExchange.toNat = exchId
  | .triangular exchangeId _ _ _ _ => exchangeId.toNat = exchId

/-- The signal is for a token or contains it. -/
def ArbitrageSignal.NamesToken (tokenId : ℕ) : ArbitrageSignal → Prop
  | .crossExchange _ _ token _ => token.toNat = tokenId
  | .triangular _ tokenA tokenB tokenC _ =>
    tokenA.toNat = tokenId ∨ tokenB.toNat = tokenId ∨ tokenC.toNat = tokenId

namespace MarketArena

/-- A loop of an exchange whose slots are in the matrix has only tokens of the arena. -/
def InTokens (a : MarketArena) (exchangeId : UInt16) (tri : TriangularLoop) : Prop :=
  (∀ token ∈ tri.tokens, a.getIndex exchangeId.toNat token.toNat < a.size) →
    ∀ token ∈ tri.tokens, token.toNat < a.totalTokens

/-- Tables that report every token under its own id and read every token in its own row. -/
structure Tidy (a : MarketArena) : Prop where
  length : a.crossIndex.length = a.totalTokens
  targets : ∀ tokenId, ∀ target ∈ a.targetsOf tokenId, target.tokenId.toNat = tokenId
  loops : ∀ exchangeId loops, a.triLoops exchangeId = some loops → ∀ tri ∈ loops,
    a.InTokens exchangeId tri

/-- What a call must be like for the tables to stay tidy: targets are only compiled for tokens that
fit 16 bits, and loops with slots in the matrix only for tokens of the arena. -/
def Sound (a : MarketArena) : ArenaCall → Prop
  | .buildCrossExchangeTargets =>
    ∀ tokenId < a.totalTokens, 2 ≤ (a.carriers tokenId).length → tokenId < 2 ^ 16
  | .buildTriangularLoops exchangePairs =>
    ∀ exchangeId pairs, exchangePairs.lookup exchangeId = some pairs → ∀ tri ∈ findLoops pairs,
      a.InTokens exchangeId tri
  | _ => True

/-- Tables are as tidy as the tables they equal. -/
lemma Tidy.of_sameTables {a a' : MarketArena} (h : a.Tidy) (hsame : SameTables a a') : a'.Tidy := by
  have htargets : ∀ tokenId, a'.targetsOf tokenId = a.targetsOf tokenId := by
    intro tokenId
    unfold targetsOf
    rw [hsame.crossTargets, hsame.crossIndex]
  refine ⟨?_, ?_, ?_⟩
  · rw [hsame.crossIndex, hsame.totalTokens]
    exact h.length
  · intro tokenId target htarget
    exact h.targets tokenId target (htargets tokenId ▸ htarget)
  · intro exchangeId loops hloops tri htri
    have htidy := h.loops exchangeId loops (hsame.triLoops ▸ hloops) tri htri
    unfold InTokens getIndex size at htidy ⊢
    rw [hsame.totalTokens, hsame.totalExchanges]
    exact htidy

/-- Compiling targets keeps the tables tidy when every entry is compiled under its own id. -/
lemma Tidy.compileTargets {a : MarketArena} (h : a.Tidy) {entries : List TargetEntry}
    (hentries : ∀ e ∈ entries, e.slot < a.totalTokens → 2 ≤ e.target.sharedCount →
      e.tokenId.toNat = e.slot) : (a.compileTargets entries).Tidy := by
  refine ⟨length_crossIndex_compileTargets a entries, ?_, h.loops⟩
  intro tokenId target htarget
  by_cases ht : tokenId < a.totalTokens
  · rw [targetsOf_compileTargets a entries ht] at htarget
    obtain ⟨e, he, rfl⟩ := List.mem_map.mp htarget
    obtain ⟨hmem, hslot⟩ := List.mem_filter.mp he
    obtain ⟨rfl, hcount⟩ := of_decide_eq_true hslot
    exact hentries e hmem ht hcount
  · have hlength := length_crossIndex_compileTargets a entries
    rw [targetsOf_eq_nil (by omega)] at htarget
    simp at htarget

/-- A target shared by two exchanges comes from two exchanges. -/
lemma two_le_length_of_sharedCount {e : TargetEntry} (h : 2 ≤ e.target.sharedCount) :
    2 ≤ e.exchanges.length := by
  have hcount : 2 ≤ (exchangeMask e.exchanges).2.toNat := UInt8.le_iff_toNat_le.mp h
  rw [exchangeMask_count] at hcount
  omega

/-- A sound call keeps the tables tidy. -/
lemma Tidy.apply {a : MarketArena} (h : a.Tidy) {c : ArenaCall} (hc : a.Sound c) :
    (a.apply c).Tidy := by
  cases c with
  | updatePrice exchId tokenId bid ask =>
    exact h.of_sameTables (sameTables_updatePrice a exchId tokenId bid ask)
  | invalidateExchange exchId => exact h.of_sameTables (sameTables_invalidateExchange a exchId)
  | invalidateToken tokenId => exact h.of_sameTables (sameTables_invalidateToken a tokenId)
  | buildCrossExchangeTargets =>
    apply h.compileTargets
    intro e he hslot hcount
    obtain ⟨tokenId, -, rfl⟩ := List.mem_map.mp he
    exact UInt16.toNat_ofNat_of_lt' (hc tokenId hslot (two_le_length_of_sharedCount hcount))
  | buildCrossExchangeTargetsFromPresence presence =>
    apply h.compileTargets
    intro e he _ _
    obtain ⟨found, -, rfl⟩ := List.mem_map.mp he
    rfl
  | buildTriangularLoops exchangePairs =>
    refine ⟨h.length, h.targets, ?_⟩
    intro exchangeId loops hloops tri htri
    obtain ⟨pairs, hpairs, rfl⟩ := triLoops_buildTriangularLoops hloops
    exact hc exchangeId pairs hpairs tri htri

/-- Every call of the run is sound. -/
def AllSound (a : MarketArena) (calls : List ArenaCall) : Prop :=
  ∀ before c after, calls = before ++ c :: after → (a.applyAll before).Sound c

/-- A run of sound calls keeps the tables tidy. -/
lemma Tidy.applyAll {a : MarketArena} (h : a.Tidy) {calls : List ArenaCall}
    (hcalls : a.AllSound calls) : (a.applyAll calls).Tidy := by
  induction calls generalizing a with
  | nil => exact h
  | cons c calls ih =>
    obtain ⟨hc, hrest⟩ := Runs.forall_split_cons.mp hcalls
    exact ih (h.apply hc) hrest

/-! ## Silence -/

/-- A token with targets is a token of the arena. -/
lemma Tidy.token_lt {a : MarketArena} (h : a.Tidy) {tokenId : ℕ} {target : CrossExchangeTarget}
    (htarget : target ∈ a.targetsOf tokenId) : tokenId < a.totalTokens := by
  by_contra hge
  have hlength := h.length
  rw [targetsOf_eq_nil (by omega)] at htarget
  simp at htarget

/-- The slots of a reported loop are in the row of its exchange. -/
lemma Tidy.tri_slots {a : MarketArena} (h : a.Tidy) {updatedExch updatedToken : ℕ}
    {minTriProfitBps : UInt64} {signal : ArbitrageSignal}
    (hsignal : signal ∈ a.triSignals updatedExch updatedToken minTriProfitBps) :
    ∃ tri : TriangularLoop, ∃ net, updatedExch < a.totalExchanges ∧ updatedExch < 64 ∧
      signal = .triangular (UInt16.ofNat updatedExch) tri.tokenA tri.tokenB tri.tokenC net ∧
      ∀ token ∈ tri.tokens, token.toNat < a.totalTokens ∧
        ¬ a.ZeroSlot updatedExch token.toNat := by
  obtain ⟨loops, hloops, tri, htri, hreport⟩ := mem_triSignals hsignal
  obtain ⟨hexch, ⟨net, rfl⟩, hslots⟩ := triLoopSignal_spec hreport
  have htokens := h.loops _ loops hloops tri htri
  unfold InTokens at htokens
  rw [toNat_ofNat_exchange hexch] at htokens
  have hlt := htokens fun token htoken => (hslots token htoken).1
  have hfirst : tri.tokenA ∈ tri.tokens := by simp [TriangularLoop.tokens]
  refine ⟨tri, net, ?_, hexch, rfl, ?_⟩
  · exact (getIndex_lt_size_iff a (hlt _ hfirst)).mp (hslots _ hfirst).1
  · intro token htoken
    exact ⟨hlt token htoken, fun hzero => (hslots token htoken).2.1 hzero.1⟩

/-- No signal names an exchange without prices. -/
lemma Tidy.not_namesExchange {a : MarketArena} (h : a.Tidy) {exchId : ℕ}
    (hzero : exchId < a.totalExchanges → ∀ tokenId < a.totalTokens, a.ZeroSlot exchId tokenId)
    {updatedExch updatedToken : ℕ} {minSpreadBps minTriProfitBps : UInt64}
    {signal : ArbitrageSignal}
    (hsignal : signal ∈ a.evaluateTick updatedExch updatedToken minSpreadBps minTriProfitBps) :
    ¬ signal.NamesExchange exchId := by
  rcases List.mem_append.mp hsignal with hcross | htri
  · obtain ⟨target, htarget, buy, sell, net, rfl, hbuy, hsell, hidxbuy, hidxsell, hask, hbid⟩ :=
      mem_crossSignals hcross
    have ht := h.token_lt htarget
    rintro (hname | hname)
    · rw [toNat_ofNat_exchange hbuy] at hname
      subst hname
      exact hask (hzero ((getIndex_lt_size_iff a ht).mp hidxbuy) updatedToken ht).2
    · rw [toNat_ofNat_exchange hsell] at hname
      subst hname
      exact hbid (hzero ((getIndex_lt_size_iff a ht).mp hidxsell) updatedToken ht).1
  · obtain ⟨tri, net, hrange, hexch, rfl, hslots⟩ := h.tri_slots htri
    intro hname
    change (UInt16.ofNat updatedExch).toNat = exchId at hname
    rw [toNat_ofNat_exchange hexch] at hname
    subst hname
    obtain ⟨ht, hprice⟩ := hslots tri.tokenA (by simp [TriangularLoop.tokens])
    exact hprice (hzero hrange _ ht)

/-- No signal names a token without prices. -/
lemma Tidy.not_namesToken {a : MarketArena} (h : a.Tidy) {tokenId : ℕ}
    (hzero : tokenId < a.totalTokens → ∀ exchId < a.totalExchanges, a.ZeroSlot exchId tokenId)
    {updatedExch updatedToken : ℕ} {minSpreadBps minTriProfitBps : UInt64}
    {signal : ArbitrageSignal}
    (hsignal : signal ∈ a.evaluateTick updatedExch updatedToken minSpreadBps minTriProfitBps) :
    ¬ signal.NamesToken tokenId := by
  rcases List.mem_append.mp hsignal with hcross | htri
  · obtain ⟨target, htarget, buy, sell, net, rfl, hbuy, hsell, hidxbuy, -, hask, -⟩ :=
      mem_crossSignals hcross
    have ht := h.token_lt htarget
    intro hname
    obtain rfl : updatedToken = tokenId := (h.targets updatedToken target htarget).symm.trans hname
    exact hask (hzero ht buy ((getIndex_lt_size_iff a ht).mp hidxbuy)).2
  · obtain ⟨tri, net, hrange, hexch, rfl, hslots⟩ := h.tri_slots htri
    have htoken : ∀ token ∈ tri.tokens, token.toNat ≠ tokenId := by
      rintro token hmem rfl
      obtain ⟨ht, hprice⟩ := hslots token hmem
      exact hprice (hzero ht updatedExch hrange)
    rintro (hname | hname | hname)
    · exact htoken tri.tokenA (by simp [TriangularLoop.tokens]) hname
    · exact htoken tri.tokenB (by simp [TriangularLoop.tokens]) hname
    · exact htoken tri.tokenC (by simp [TriangularLoop.tokens]) hname

/-- An arena whose tables have not been compiled yet. -/
structure Uncompiled (a : MarketArena) : Prop where
  crossIndex : a.crossIndex = List.replicate a.totalTokens []
  triLoops : ∀ exchangeId, a.triLoops exchangeId = none

/-- Empty tables are tidy. -/
lemma Uncompiled.tidy {a : MarketArena} (h : a.Uncompiled) : a.Tidy := by
  refine ⟨by rw [h.crossIndex, List.length_replicate], ?_, ?_⟩
  · intro tokenId target htarget
    unfold targetsOf CrossTables.targetsOf at htarget
    rw [h.crossIndex, List.getElem?_replicate] at htarget
    split_ifs at htarget
    · simp at htarget
    · simp at htarget
  · intro exchangeId loops hloops
    rw [h.triLoops exchangeId] at hloops
    cases hloops

/-- A run in two pieces. -/
lemma applyAll_append (a : MarketArena) (calls calls' : List ArenaCall) :
    a.applyAll (calls ++ calls') = (a.applyAll calls).applyAll calls' :=
  List.foldl_append

/-- Calls do not change the dimensions of the matrix. -/
lemma dimensions_applyAll (a : MarketArena) (calls : List ArenaCall) :
    (a.applyAll calls).totalTokens = a.totalTokens ∧
      (a.applyAll calls).totalExchanges = a.totalExchanges := by
  induction calls generalizing a with
  | nil => exact ⟨rfl, rfl⟩
  | cons c calls ih =>
    obtain ⟨ht, he⟩ := dimensions_apply a c
    obtain ⟨ht', he'⟩ := ih (a.apply c)
    exact ⟨ht'.trans ht, he'.trans he⟩

/-- In the state the evaluation of no slot and no thresholds reports a signal with the property. -/
def Silent (a : MarketArena) (P : ArbitrageSignal → Prop) : Prop :=
  ∀ updatedExch updatedToken minSpreadBps minTriProfitBps,
    ∀ signal ∈ a.evaluateTick updatedExch updatedToken minSpreadBps minTriProfitBps, ¬ P signal

/-- From an invalidation of an exchange to its next update no signal names the exchange, and from an
invalidation of a token to its next update no signal names the token. -/
structure InvalidatedSilent (a : MarketArena) (calls : List ArenaCall) : Prop where
  exchange : ∀ before exchId mid after,
    calls = before ++ .invalidateExchange exchId :: (mid ++ after) →
    (∀ tokenId bid ask, ArenaCall.updatePrice exchId tokenId bid ask ∉ mid) →
    (a.applyAll (before ++ .invalidateExchange exchId :: mid)).Silent
      (ArbitrageSignal.NamesExchange exchId)
  token : ∀ before tokenId mid after,
    calls = before ++ .invalidateToken tokenId :: (mid ++ after) →
    (∀ exchId bid ask, ArenaCall.updatePrice exchId tokenId bid ask ∉ mid) →
    (a.applyAll (before ++ .invalidateToken tokenId :: mid)).Silent
      (ArbitrageSignal.NamesToken tokenId)

/-- The calls up to a point of a sound run are sound. -/
lemma AllSound.of_append {a : MarketArena} {calls calls' : List ArenaCall}
    (h : a.AllSound (calls ++ calls')) : a.AllSound calls := by
  intro before c after heq
  exact h before c (after ++ calls') (by rw [heq]; simp)

/-- A run from an arena without tables that compiles targets only for tokens of 16 bits, and loops
with slots in the matrix only for tokens of the arena, keeps silent about every exchange and every
token from its invalidation to its next update. -/
theorem invalidated_silent (a : MarketArena) (ha : a.Uncompiled) (calls : List ArenaCall)
    (hcalls : a.AllSound calls) : a.InvalidatedSilent calls := by
  have htidy : ∀ pre post, calls = pre ++ post → (a.applyAll pre).Tidy := by
    rintro pre post rfl
    exact ha.tidy.applyAll hcalls.of_append
  constructor
  · intro before exchId mid after heq hmid updatedExch updatedToken minSpread minProfit signal
      hsignal
    refine (htidy _ after (by rw [heq]; simp)).not_namesExchange ?_ hsignal
    intro he tokenId ht
    rw [applyAll_append] at he ht ⊢
    have hdim := dimensions_applyAll (a.applyAll before) (.invalidateExchange exchId :: mid)
    rw [hdim.2] at he
    rw [hdim.1] at ht
    have hstart := zeroSlot_invalidateExchange he ht
    have hkeep :
        tokenId < ((a.applyAll before).apply (.invalidateExchange exchId)).totalTokens := by
      rw [(dimensions_apply _ _).1]
      exact ht
    exact ZeroSlot.applyAll hkeep hstart (hmid tokenId)
  · intro before tokenId mid after heq hmid updatedExch updatedToken minSpread minProfit signal
      hsignal
    refine (htidy _ after (by rw [heq]; simp)).not_namesToken ?_ hsignal
    intro ht exchId he
    rw [applyAll_append] at he ht ⊢
    have hdim := dimensions_applyAll (a.applyAll before) (.invalidateToken tokenId :: mid)
    rw [hdim.2] at he
    rw [hdim.1] at ht
    have hstart := zeroSlot_invalidateToken he ht
    have hkeep : tokenId < ((a.applyAll before).apply (.invalidateToken tokenId)).totalTokens := by
      rw [(dimensions_apply _ _).1]
      exact ht
    exact ZeroSlot.applyAll hkeep hstart (hmid exchId)

/-- A loop over the tokens of the arena, and an invalidation of its exchange. -/
theorem invalidated_silent_loop :
    (new 2 3 (by decide)).Uncompiled ∧
      (new 2 3 (by decide)).InvalidatedSilent
        [.updatePrice 0 0 10100 10000, .buildCrossExchangeTargets,
          .buildTriangularLoops [(0, [(0, 1), (1, 2), (2, 0)])], .invalidateExchange 0] := by
  have hnew : (new 2 3 (by decide)).Uncompiled := ⟨rfl, fun _ => rfl⟩
  refine ⟨hnew, invalidated_silent _ hnew _ ?_⟩
  refine Runs.forall_split_cons.mpr ⟨trivial, Runs.forall_split_cons.mpr ⟨?_,
    Runs.forall_split_cons.mpr ⟨?_, Runs.forall_split_cons.mpr ⟨trivial, Runs.forall_split_nil⟩⟩⟩⟩
  · intro tokenId ht _
    exact lt_trans ht (by decide)
  · intro exchangeId pairs hpairs tri htri _ token htoken
    have hloops : findLoops [(0, 1), (1, 2), (2, 0)] = [⟨0, 1, 2⟩] := by decide
    rw [List.lookup_cons, List.lookup_nil] at hpairs
    split at hpairs
    · cases hpairs
      rw [hloops, List.mem_singleton] at htri
      subst htri
      have hcases : token = 0 ∨ token = 1 ∨ token = 2 := by
        simpa [TriangularLoop.tokens] using htoken
      rcases hcases with rfl | rfl | rfl <;> decide
    · cases hpairs

/-- A loop over token ids of the next row is reported after its exchange has been invalidated. -/
theorem loop_beyond_tokens_reported :
    ¬ (new 2 3 (by decide)).InvalidatedSilent
      [.updatePrice 1 0 10100 10000, .updatePrice 1 1 10100 10000, .updatePrice 1 2 10100 10000,
        .buildTriangularLoops [(0, [(3, 4), (4, 5), (5, 3)])], .invalidateExchange 0] := by
  intro h
  have hsilent := h.exchange
    [.updatePrice 1 0 10100 10000, .updatePrice 1 1 10100 10000, .updatePrice 1 2 10100 10000,
      .buildTriangularLoops [(0, [(3, 4), (4, 5), (5, 3)])]] 0 [] [] rfl (by simp)
  exact hsilent 0 3 50 50 (.triangular 0 3 4 5 273) (by decide) rfl

end MarketArena

end HftArb
