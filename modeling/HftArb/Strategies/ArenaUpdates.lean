import HftArb.Strategies.MarketArena

/-!
# Writing to the market arena

The writers of the price matrix (`updatePrice`, `invalidateExchange`, `invalidateToken`) and of the
tables compiled from it (the two builders of the cross-exchange targets and the builder of the
triangular loops).

The writers of prices are read through one equation each, which says what is in every slot
afterwards.  The two builders of targets differ in where they find the exchanges of a token; both
compile a list of entries, and `targetsOf_compile` says which targets a token is left with.
-/

namespace HftArb

namespace MarketArena

/-! ## Prices -/

/-- An arena without prices and tables, with the fee schedule of the constructor. -/
def new (totalExchanges totalTokens : ℕ) (h : totalExchanges ≤ 64) : MarketArena where
  bidPrices := fun _ => 0
  askPrices := fun _ => 0
  totalTokens := totalTokens
  totalExchanges := totalExchanges
  crossTargets := []
  crossIndex := List.replicate totalTokens []
  triLoops := fun _ => none
  activeTokens := []
  enabledCross := true
  enabledTri := true
  feeSchedule := ⟨List.replicate totalExchanges defaultTakerFeeBps,
    List.replicate totalExchanges defaultTakerFeeBps⟩
  feeAwareEnabled := true
  crossExchangeMask := Saturating.maxWord
  triExchangeMask := Saturating.maxWord
  crossLocked := false
  triLocked := false
  feesLocked := false
  totalExchanges_le := h

/-- Store the two prices of a slot. -/
def store (a : MarketArena) (idx : ℕ) (bid ask : UInt64) : MarketArena :=
  { a with
    bidPrices := Function.update a.bidPrices idx bid
    askPrices := Function.update a.askPrices idx ask }

/-- Store the prices of a token on an exchange.  An update out of range is dropped. -/
def updatePrice (a : MarketArena) (exchId tokenId : ℕ) (bid ask : UInt64) : MarketArena :=
  if a.totalExchanges ≤ exchId ∨ a.totalTokens ≤ tokenId then a
  else a.store (a.getIndex exchId tokenId) bid ask

/-- Zero the prices of some slots, one after the other. -/
def zeroSlots (a : MarketArena) (slots : List ℕ) : MarketArena :=
  slots.foldl (fun a idx => a.store idx 0 0) a

/-- Zero the prices of an exchange. -/
def invalidateExchange (a : MarketArena) (exchId : ℕ) : MarketArena :=
  if a.totalExchanges ≤ exchId then a
  else a.zeroSlots ((List.range a.totalTokens).map fun offset => exchId * a.totalTokens + offset)

/-- Zero the prices of a token on every exchange. -/
def invalidateToken (a : MarketArena) (tokenId : ℕ) : MarketArena :=
  if a.totalTokens ≤ tokenId then a
  else a.zeroSlots ((List.range a.totalExchanges).map fun exchId => a.getIndex exchId tokenId)

/-- What zeroing slots leaves. -/
lemma zeroSlots_eq (a : MarketArena) (slots : List ℕ) :
    a.zeroSlots slots =
      { a with
        bidPrices := fun idx => if idx ∈ slots then 0 else a.bidPrices idx
        askPrices := fun idx => if idx ∈ slots then 0 else a.askPrices idx } := by
  induction slots generalizing a with
  | nil => simp [zeroSlots]
  | cons slot slots ih =>
    have hprices : ∀ prices : ℕ → UInt64,
        (fun idx => if idx ∈ slots then 0 else Function.update prices slot 0 idx) =
          fun idx => if idx ∈ slot :: slots then 0 else prices idx := by
      intro prices
      funext idx
      by_cases hmem : idx ∈ slots
      · simp [hmem]
      · by_cases heq : idx = slot
        · simp [heq]
        · simp [hmem, heq]
    rw [zeroSlots, List.foldl_cons]
    refine (ih (a.store slot 0 0)).trans ?_
    simp only [store, hprices]

/-- What a writer of prices leaves as it is. -/
structure SameTables (a a' : MarketArena) : Prop where
  totalTokens : a'.totalTokens = a.totalTokens
  totalExchanges : a'.totalExchanges = a.totalExchanges
  crossTargets : a'.crossTargets = a.crossTargets
  crossIndex : a'.crossIndex = a.crossIndex
  triLoops : a'.triLoops = a.triLoops

lemma sameTables_zeroSlots (a : MarketArena) (slots : List ℕ) :
    SameTables a (a.zeroSlots slots) := by
  rw [zeroSlots_eq]
  exact ⟨rfl, rfl, rfl, rfl, rfl⟩

lemma sameTables_updatePrice (a : MarketArena) (exchId tokenId : ℕ) (bid ask : UInt64) :
    SameTables a (a.updatePrice exchId tokenId bid ask) := by
  unfold updatePrice
  split_ifs
  · exact ⟨rfl, rfl, rfl, rfl, rfl⟩
  · exact ⟨rfl, rfl, rfl, rfl, rfl⟩

lemma sameTables_invalidateExchange (a : MarketArena) (exchId : ℕ) :
    SameTables a (a.invalidateExchange exchId) := by
  unfold invalidateExchange
  split_ifs
  · exact ⟨rfl, rfl, rfl, rfl, rfl⟩
  · exact sameTables_zeroSlots a _

lemma sameTables_invalidateToken (a : MarketArena) (tokenId : ℕ) :
    SameTables a (a.invalidateToken tokenId) := by
  unfold invalidateToken
  split_ifs
  · exact ⟨rfl, rfl, rfl, rfl, rfl⟩
  · exact sameTables_zeroSlots a _

/-- Slots of different pairs in range are different. -/
lemma getIndex_inj (a : MarketArena) {exchId exchId' tokenId tokenId' : ℕ}
    (ht : tokenId < a.totalTokens) (ht' : tokenId' < a.totalTokens) :
    a.getIndex exchId tokenId = a.getIndex exchId' tokenId' ↔
      exchId = exchId' ∧ tokenId = tokenId' := by
  unfold getIndex
  constructor
  · intro h
    have hpos : 0 < a.totalTokens := by omega
    have hdiv := congrArg (· / a.totalTokens) h
    have hmod := congrArg (· % a.totalTokens) h
    simp only [Nat.mul_comm _ a.totalTokens, Nat.mul_add_div hpos, Nat.div_eq_of_lt ht,
      Nat.div_eq_of_lt ht', Nat.add_zero] at hdiv
    simp only [Nat.mul_comm _ a.totalTokens, Nat.mul_add_mod, Nat.mod_eq_of_lt ht,
      Nat.mod_eq_of_lt ht'] at hmod
    exact ⟨hdiv, hmod⟩
  · rintro ⟨rfl, rfl⟩
    rfl

/-- A slot of a token in range is in the matrix exactly when its exchange is. -/
lemma getIndex_lt_size_iff (a : MarketArena) {exchId tokenId : ℕ} (ht : tokenId < a.totalTokens) :
    a.getIndex exchId tokenId < a.size ↔ exchId < a.totalExchanges := by
  unfold getIndex size
  constructor
  · intro h
    by_contra hge
    have hle := Nat.mul_le_mul_right a.totalTokens (not_lt.mp hge)
    omega
  · intro h
    calc exchId * a.totalTokens + tokenId < exchId * a.totalTokens + a.totalTokens := by omega
      _ = (exchId + 1) * a.totalTokens := by ring
      _ ≤ a.totalExchanges * a.totalTokens := Nat.mul_le_mul_right _ h

/-- A slot has no prices. -/
def ZeroSlot (a : MarketArena) (exchId tokenId : ℕ) : Prop :=
  a.bid exchId tokenId = 0 ∧ a.ask exchId tokenId = 0

/-- Zeroing slots zeroes those slots and leaves zeroes. -/
lemma zeroSlot_zeroSlots {a : MarketArena} {slots : List ℕ} {exchId tokenId : ℕ}
    (h : a.getIndex exchId tokenId ∈ slots ∨ a.ZeroSlot exchId tokenId) :
    (a.zeroSlots slots).ZeroSlot exchId tokenId := by
  rw [zeroSlots_eq]
  unfold ZeroSlot bid ask
  change (if a.getIndex exchId tokenId ∈ slots then 0 else a.bid exchId tokenId) = 0 ∧
    (if a.getIndex exchId tokenId ∈ slots then 0 else a.ask exchId tokenId) = 0
  by_cases hmem : a.getIndex exchId tokenId ∈ slots
  · rw [if_pos hmem, if_pos hmem]
    exact ⟨rfl, rfl⟩
  · rw [if_neg hmem, if_neg hmem]
    exact h.resolve_left hmem

/-- An invalidated exchange has no prices. -/
lemma zeroSlot_invalidateExchange {a : MarketArena} {exchId tokenId : ℕ}
    (he : exchId < a.totalExchanges) (ht : tokenId < a.totalTokens) :
    (a.invalidateExchange exchId).ZeroSlot exchId tokenId := by
  unfold invalidateExchange
  rw [if_neg (by omega)]
  apply zeroSlot_zeroSlots
  exact Or.inl (List.mem_map.mpr ⟨tokenId, List.mem_range.mpr ht, rfl⟩)

/-- An invalidated token has no prices. -/
lemma zeroSlot_invalidateToken {a : MarketArena} {exchId tokenId : ℕ}
    (he : exchId < a.totalExchanges) (ht : tokenId < a.totalTokens) :
    (a.invalidateToken tokenId).ZeroSlot exchId tokenId := by
  unfold invalidateToken
  rw [if_neg (by omega)]
  apply zeroSlot_zeroSlots
  exact Or.inl (List.mem_map.mpr ⟨exchId, List.mem_range.mpr he, rfl⟩)

/-! ## Cross-exchange targets -/

/-- `u8::saturating_add(1)`. -/
def countSucc (count : UInt8) : UInt8 := if count = 255 then count else count + 1

/-- Count an exchange, and set its bit when it has one. -/
def addExchange (acc : UInt64 × UInt8) (exchId : ℕ) : UInt64 × UInt8 :=
  (if exchId < 64 then acc.1 ||| 1 <<< UInt64.ofNat exchId else acc.1, countSucc acc.2)

/-- The mask and the number of some exchanges. -/
def exchangeMask (exchanges : List ℕ) : UInt64 × UInt8 := exchanges.foldl addExchange (0, 0)

/-- A token to be compiled, with the exchanges that carry it. -/
structure TargetEntry where
  slot : ℕ
  tokenId : UInt16
  exchanges : List ℕ

/-- The target of an entry. -/
def TargetEntry.target (e : TargetEntry) : CrossExchangeTarget :=
  ⟨e.tokenId, (exchangeMask e.exchanges).1, (exchangeMask e.exchanges).2⟩

/-- The tables while they are being compiled. -/
structure CrossTables where
  targets : List CrossExchangeTarget
  index : List (List ℕ)

/-- Compile one entry: a token shared by at least two exchanges becomes a target. -/
def CrossTables.push (tables : CrossTables) (e : TargetEntry) : CrossTables :=
  if 2 ≤ e.target.sharedCount then
    ⟨tables.targets ++ [e.target], tables.index.modify e.slot (· ++ [tables.targets.length])⟩
  else tables

/-- Compile the tables of an arena, which has one bucket for each token. -/
def compileTargets (a : MarketArena) (entries : List TargetEntry) : MarketArena :=
  let tables := entries.foldl CrossTables.push ⟨[], List.replicate a.totalTokens []⟩
  { a with crossTargets := tables.targets, crossIndex := tables.index }

/-- A 16-bit id below 64 stands for itself. -/
lemma toNat_ofNat_exchange {exchId : ℕ} (h : exchId < 64) : (UInt16.ofNat exchId).toNat = exchId :=
  UInt16.toNat_ofNat_of_lt' (by change exchId < 2 ^ 16; omega)

/-- The exchanges with two prices for a token. -/
def carriers (a : MarketArena) (tokenId : ℕ) : List ℕ :=
  (List.range a.totalExchanges).filter fun exchId =>
    decide (0 < a.bid exchId tokenId) && decide (0 < a.ask exchId tokenId)

/-- An exchange carries a token when both of its prices are set. -/
lemma mem_carriers {a : MarketArena} {exchId tokenId : ℕ} :
    exchId ∈ a.carriers tokenId ↔
      exchId < a.totalExchanges ∧ 0 < a.bid exchId tokenId ∧ 0 < a.ask exchId tokenId := by
  rw [carriers, List.mem_filter, List.mem_range, Bool.and_eq_true, decide_eq_true_iff,
    decide_eq_true_iff]

lemma nodup_carriers (a : MarketArena) (tokenId : ℕ) : (a.carriers tokenId).Nodup :=
  List.nodup_range.filter _

/-- Compile the targets from the prices. -/
def buildCrossExchangeTargets (a : MarketArena) : MarketArena :=
  a.compileTargets ((List.range a.totalTokens).map fun tokenId =>
    ⟨tokenId, UInt16.ofNat tokenId, a.carriers tokenId⟩)

/-- Compile the targets from the sets of exchanges in which tokens were found, in the order in which
the map is walked. -/
def buildCrossExchangeTargetsFromPresence (a : MarketArena)
    (tokenExchangePresence : List (UInt16 × List UInt16)) : MarketArena :=
  a.compileTargets (((tokenExchangePresence.filter fun found => decide (2 ≤ found.2.length)).filter
      fun found => decide (found.1.toNat < a.totalTokens)).map fun found =>
    ⟨found.1.toNat, found.1,
      (found.2.map UInt16.toNat).filter fun exchId => decide (exchId < a.totalExchanges)⟩)

/-- The targets in the bucket of a token. -/
def CrossTables.targetsOf (tables : CrossTables) (tokenId : ℕ) : List CrossExchangeTarget :=
  ((tables.index[tokenId]?).getD []).filterMap fun targetIdx => tables.targets[targetIdx]?

/-- The targets of a token. -/
def targetsOf (a : MarketArena) (tokenId : ℕ) : List CrossExchangeTarget :=
  CrossTables.targetsOf ⟨a.crossTargets, a.crossIndex⟩ tokenId

/-- Tables whose index has a bucket for each token and points to targets. -/
structure CrossTables.Valid (tables : CrossTables) (totalTokens : ℕ) : Prop where
  length : tables.index.length = totalTokens
  lt : ∀ bucket ∈ tables.index, ∀ targetIdx ∈ bucket, targetIdx < tables.targets.length

/-- Compiling an entry keeps the tables valid. -/
lemma CrossTables.Valid.push {tables : CrossTables} {totalTokens : ℕ}
    (h : tables.Valid totalTokens) (e : TargetEntry) : (tables.push e).Valid totalTokens := by
  unfold CrossTables.push
  split_ifs with hcount
  · refine ⟨by simpa using h.length, ?_⟩
    intro bucket hbucket targetIdx hidx
    simp only [List.length_append, List.length_singleton]
    obtain ⟨slot, hslot, rfl⟩ := List.mem_iff_getElem.mp hbucket
    rw [List.getElem_modify] at hidx
    have hlt : slot < tables.index.length := by simpa using hslot
    have hold := h.lt _ (List.getElem_mem hlt) targetIdx
    split_ifs at hidx
    · rcases List.mem_append.mp hidx with hidx | hidx
      · have := hold hidx
        omega
      · have := List.mem_singleton.mp hidx
        omega
    · have := hold hidx
      omega
  · exact h

/-- Empty tables are valid. -/
lemma CrossTables.valid_empty (totalTokens : ℕ) :
    CrossTables.Valid ⟨[], List.replicate totalTokens []⟩ totalTokens := by
  refine ⟨by simp, ?_⟩
  intro bucket hbucket
  rw [List.eq_of_mem_replicate hbucket]
  simp

/-- Compiling entries keeps the tables valid. -/
lemma CrossTables.Valid.foldl_push {tables : CrossTables} {totalTokens : ℕ}
    (h : tables.Valid totalTokens) (entries : List TargetEntry) :
    (entries.foldl CrossTables.push tables).Valid totalTokens := by
  induction entries generalizing tables with
  | nil => exact h
  | cons e entries ih => exact ih (h.push e)

/-- The compiled index has a bucket for each token. -/
lemma length_crossIndex_compileTargets (a : MarketArena) (entries : List TargetEntry) :
    (a.compileTargets entries).crossIndex.length = a.totalTokens :=
  ((CrossTables.valid_empty a.totalTokens).foldl_push entries).length

/-- What an entry adds to the targets of a token. -/
lemma CrossTables.targetsOf_push {tables : CrossTables} {totalTokens : ℕ}
    (h : tables.Valid totalTokens) (e : TargetEntry) {tokenId : ℕ} (ht : tokenId < totalTokens) :
    (tables.push e).targetsOf tokenId = tables.targetsOf tokenId ++
      if e.slot = tokenId ∧ 2 ≤ e.target.sharedCount then [e.target] else [] := by
  unfold CrossTables.push
  by_cases hcount : 2 ≤ e.target.sharedCount
  · have hlt : tokenId < tables.index.length := by rw [h.length]; exact ht
    have hold : tables.index[tokenId].filterMap
        (fun targetIdx => (tables.targets ++ [e.target])[targetIdx]?) =
        tables.index[tokenId].filterMap fun targetIdx => tables.targets[targetIdx]? := by
      apply List.filterMap_congr
      intro targetIdx hidx
      exact List.getElem?_append_left (h.lt _ (List.getElem_mem hlt) targetIdx hidx)
    rw [if_pos hcount]
    unfold CrossTables.targetsOf
    rw [List.getElem?_eq_getElem hlt, List.getElem?_eq_getElem (by simpa using hlt),
      List.getElem_modify]
    by_cases hslot : e.slot = tokenId
    · rw [if_pos hslot, if_pos ⟨hslot, hcount⟩, Option.getD_some, Option.getD_some,
        List.filterMap_append, hold]
      simp
    · rw [if_neg hslot, if_neg (fun hand => hslot hand.1), Option.getD_some, List.append_nil]
      exact hold
  · rw [if_neg hcount, if_neg (fun hand => hcount hand.2), List.append_nil]

/-- The targets a token is left with. -/
lemma targetsOf_compileTargets (a : MarketArena) (entries : List TargetEntry) {tokenId : ℕ}
    (ht : tokenId < a.totalTokens) :
    (a.compileTargets entries).targetsOf tokenId =
      (entries.filter fun e => decide (e.slot = tokenId ∧ 2 ≤ e.target.sharedCount)).map
        TargetEntry.target := by
  have hfold : ∀ (entries : List TargetEntry) (tables : CrossTables),
      tables.Valid a.totalTokens → (entries.foldl CrossTables.push tables).targetsOf tokenId =
        tables.targetsOf tokenId ++
          (entries.filter fun e => decide (e.slot = tokenId ∧ 2 ≤ e.target.sharedCount)).map
            TargetEntry.target := by
    intro entries
    induction entries with
    | nil => simp
    | cons e entries ih =>
      intro tables htables
      rw [List.foldl_cons, ih _ (htables.push e), CrossTables.targetsOf_push htables e ht,
        List.append_assoc]
      congr 1
      by_cases hentry : e.slot = tokenId ∧ 2 ≤ e.target.sharedCount
      · rw [if_pos hentry, List.filter_cons_of_pos (by simpa using hentry)]
        rfl
      · rw [if_neg hentry, List.filter_cons_of_neg (by simpa using hentry)]
        rfl
  have hempty : CrossTables.targetsOf ⟨[], List.replicate a.totalTokens []⟩ tokenId = [] := by
    simp [CrossTables.targetsOf]
  rw [targetsOf, compileTargets, hfold entries _ (CrossTables.valid_empty a.totalTokens), hempty,
    List.nil_append]

/-- A token out of range has no targets. -/
lemma targetsOf_eq_nil {a : MarketArena} {tokenId : ℕ} (h : a.crossIndex.length ≤ tokenId) :
    a.targetsOf tokenId = [] := by
  simp [targetsOf, CrossTables.targetsOf, List.getElem?_eq_none h]

/-- The targets compiled from the prices: a token carried by at least two exchanges has one, any
other token none. -/
lemma targetsOf_buildCrossExchangeTargets (a : MarketArena) {tokenId : ℕ}
    (ht : tokenId < a.totalTokens) :
    a.buildCrossExchangeTargets.targetsOf tokenId =
      let target := TargetEntry.target ⟨tokenId, UInt16.ofNat tokenId, a.carriers tokenId⟩
      if 2 ≤ target.sharedCount then [target] else [] := by
  rw [buildCrossExchangeTargets, targetsOf_compileTargets a _ ht, List.filter_map, List.map_map]
  dsimp only
  split_ifs with hcount
  · have honly : (List.range a.totalTokens).filter
        ((fun e : TargetEntry => decide (e.slot = tokenId ∧ 2 ≤ e.target.sharedCount)) ∘
          fun tokenId => ⟨tokenId, UInt16.ofNat tokenId, a.carriers tokenId⟩) =
        (List.range a.totalTokens).filter (· = tokenId) := by
      apply List.filter_congr
      intro tokenId' _
      by_cases heq : tokenId' = tokenId
      · subst heq
        simpa using hcount
      · simp [heq]
    have hone : (List.range a.totalTokens).count tokenId = 1 :=
      List.count_eq_one_of_mem List.nodup_range (List.mem_range.mpr ht)
    rw [honly, List.filter_eq, hone]
    rfl
  · have hnone : (List.range a.totalTokens).filter
        ((fun e : TargetEntry => decide (e.slot = tokenId ∧ 2 ≤ e.target.sharedCount)) ∘
          fun tokenId => ⟨tokenId, UInt16.ofNat tokenId, a.carriers tokenId⟩) = [] := by
      rw [List.filter_eq_nil_iff]
      intro tokenId' _ h
      obtain ⟨rfl, hcount'⟩ := of_decide_eq_true h
      exact hcount hcount'
    rw [hnone]
    rfl

/-- The bit of an exchange. -/
lemma testBit_one_shiftLeft {exchId : ℕ} (h : exchId < 64) (i : ℕ) :
    ((1 : UInt64) <<< UInt64.ofNat exchId).toNat.testBit i = decide (i = exchId) := by
  have hpow : 2 ^ exchId < 2 ^ 64 := Nat.pow_lt_pow_right (by norm_num) h
  have hword : (UInt64.ofNat exchId).toNat = exchId := UInt64.toNat_ofNat_of_lt' (by
    change exchId < 2 ^ 64
    omega)
  have hbit : ((1 : UInt64) <<< UInt64.ofNat exchId).toNat = 2 ^ exchId := by
    rw [UInt64.toNat_shiftLeft, hword, Nat.mod_eq_of_lt h, UInt64.toNat_one, Nat.one_shiftLeft,
      Nat.mod_eq_of_lt hpow]
  rw [hbit, Nat.testBit_two_pow]
  simp [eq_comm]

/-- The mask of some exchanges. -/
lemma testBit_exchangeMask (exchanges : List ℕ) (i : ℕ) :
    (exchangeMask exchanges).1.toNat.testBit i = decide (i ∈ exchanges ∧ i < 64) := by
  have hfold : ∀ acc : UInt64 × UInt8, (exchanges.foldl addExchange acc).1.toNat.testBit i =
      (acc.1.toNat.testBit i || decide (i ∈ exchanges ∧ i < 64)) := by
    induction exchanges with
    | nil => simp
    | cons exchId exchanges ih =>
      intro acc
      rw [List.foldl_cons, ih, addExchange]
      by_cases hlt : exchId < 64
      · rw [if_pos hlt, UInt64.toNat_or, Nat.testBit_or, testBit_one_shiftLeft hlt]
        by_cases heq : i = exchId
        · simp [heq, hlt]
        · simp [heq]
      · rw [if_neg hlt]
        have hne : i < 64 → i ≠ exchId := by omega
        by_cases hi : i < 64
        · simp [hi, hne hi]
        · simp [hi]
  rw [exchangeMask, hfold]
  simp

/-- The number of exchanges of a mask. -/
lemma exchangeMask_count (exchanges : List ℕ) :
    (exchangeMask exchanges).2.toNat = min exchanges.length 255 := by
  have hsucc : ∀ count : UInt8, (countSucc count).toNat = min (count.toNat + 1) 255 := by
    intro count
    have hlt : count.toNat < 256 := count.toNat_lt
    unfold countSucc
    split_ifs with hfull
    · rw [hfull]
      rfl
    · have hne : count.toNat ≠ 255 := fun heq => hfull (UInt8.toNat_inj.mp heq)
      rw [UInt8.toNat_add]
      simp only [UInt8.toNat_one]
      omega
  have hfold : ∀ acc : UInt64 × UInt8, (exchanges.foldl addExchange acc).2.toNat =
      min (acc.2.toNat + exchanges.length) 255 := by
    induction exchanges with
    | nil =>
      intro acc
      have hlt := acc.2.toNat_lt
      simp only [List.foldl_nil, List.length_nil]
      omega
    | cons exchId exchanges ih =>
      intro acc
      rw [List.foldl_cons, ih, List.length_cons]
      have hcount := hsucc acc.2
      simp only [addExchange]
      omega
  rw [exchangeMask, hfold]
  simp

/-! ## Triangular loops -/

/-- The tokens quoted against a base token. -/
def neighbours (pairs : List (UInt16 × UInt16)) (base : UInt16) : List UInt16 :=
  pairs.filterMap fun pair => if pair.1 = base then some pair.2 else none

/-- The directed cycles of three tokens, each with its smallest token first. -/
def findLoops (pairs : List (UInt16 × UInt16)) : List TriangularLoop :=
  (pairs.map Prod.fst).dedup.flatMap fun a =>
    (neighbours pairs a).flatMap fun b =>
      if b = a then []
      else
        (neighbours pairs b).flatMap fun c =>
          if c = a ∨ c = b then []
          else if (c, a) ∈ pairs ∧ a < b ∧ a < c then [⟨a, b, c⟩]
          else []

/-- Compile the loops of every exchange from its trading pairs. -/
def buildTriangularLoops (a : MarketArena)
    (exchangePairs : List (UInt16 × List (UInt16 × UInt16))) : MarketArena :=
  { a with
    triLoops := fun exchangeId =>
      match exchangePairs.lookup exchangeId with
      | none => none
      | some pairs => if findLoops pairs = [] then none else some (findLoops pairs) }

/-- The loops of an exchange are those found over its pairs. -/
lemma triLoops_buildTriangularLoops {a : MarketArena}
    {exchangePairs : List (UInt16 × List (UInt16 × UInt16))} {exchangeId : UInt16}
    {loops : List TriangularLoop}
    (h : (a.buildTriangularLoops exchangePairs).triLoops exchangeId = some loops) :
    ∃ pairs, exchangePairs.lookup exchangeId = some pairs ∧ loops = findLoops pairs := by
  unfold buildTriangularLoops at h
  dsimp only at h
  cases hpairs : exchangePairs.lookup exchangeId with
  | none => simp [hpairs] at h
  | some pairs =>
    rw [hpairs] at h
    dsimp only at h
    split_ifs at h
    exact ⟨pairs, rfl, (Option.some.inj h).symm⟩

/-! ## What a signal rests on -/

/-- The exchanges of a mask. -/
lemma mem_maskBits {mask : UInt64} {i : ℕ} :
    i ∈ maskBits mask ↔ mask.toNat.testBit i = true := by
  unfold maskBits
  rw [List.mem_filter, List.mem_range]
  refine and_iff_right_of_imp fun h => ?_
  by_contra hge
  have hpow : 2 ^ 64 ≤ 2 ^ i := Nat.pow_le_pow_right (by norm_num) (not_lt.mp hge)
  rw [Nat.testBit_lt_two_pow (mask.toNat_lt.trans_le hpow)] at h
  exact absurd h Bool.false_ne_true

/-- A mask has exchanges below 64 only. -/
lemma lt_of_mem_maskBits {mask : UInt64} {i : ℕ} (h : i ∈ maskBits mask) : i < 64 := by
  unfold maskBits at h
  exact List.mem_range.mp (List.mem_filter.mp h).1

/-- The walk visits the exchanges of a mask in ascending order. -/
lemma pairwise_maskBits (mask : UInt64) : (maskBits mask).Pairwise (· < ·) :=
  List.Pairwise.filter _ List.pairwise_lt_range

/-- The pairs of an ascending list. -/
lemma mem_orderedPairs {l : List ℕ} (hl : l.Pairwise (· < ·)) {i j : ℕ} :
    (i, j) ∈ orderedPairs l ↔ i ∈ l ∧ j ∈ l ∧ i < j := by
  induction l with
  | nil => simp [orderedPairs]
  | cons x l ih =>
    obtain ⟨hx, hl⟩ := List.pairwise_cons.mp hl
    rw [orderedPairs, List.mem_append, ih hl]
    constructor
    · rintro (h | ⟨hi, hj, hlt⟩)
      · obtain ⟨y, hy, heq⟩ := List.mem_map.mp h
        obtain ⟨rfl, rfl⟩ := Prod.mk.inj heq
        exact ⟨by simp, by simp [hy], hx y hy⟩
      · exact ⟨by simp [hi], by simp [hj], hlt⟩
    · rintro ⟨hi, hj, hlt⟩
      rcases List.mem_cons.mp hi with rfl | hi'
      · rcases List.mem_cons.mp hj with rfl | hj'
        · exact absurd hlt (lt_irrefl _)
        · exact Or.inl (List.mem_map.mpr ⟨j, hj', rfl⟩)
      · rcases List.mem_cons.mp hj with rfl | hj'
        · exact absurd (hx i hi') (by omega)
        · exact Or.inr ⟨hi', hj', hlt⟩

/-- The cross-exchange part of the evaluation, target by target. -/
lemma crossSignals_eq (a : MarketArena) (tokenId : ℕ) (minSpreadBps : UInt64) :
    a.crossSignals tokenId minSpreadBps =
      if a.enabledCross = true ∧ a.crossLocked = false then
        (a.targetsOf tokenId).flatMap fun target =>
          (orderedPairs (maskBits target.exchangeMask)).flatMap fun ij =>
            a.crossPair tokenId target.tokenId minSpreadBps ij.1 ij.2
      else [] := by
  unfold crossSignals targetsOf CrossTables.targetsOf
  split_ifs
  · rw [List.filterMap_eq_flatMap_toList, List.flatMap_assoc]
    congr 1
    funext targetIdx
    cases htarget : a.crossTargets[targetIdx]? with
    | none => rfl
    | some target => rw [Option.toList_some, List.flatMap_cons, List.flatMap_nil, List.append_nil]
  · rfl

/-- A direction that is reported has an ask to buy at and a higher bid to sell at. -/
lemma mem_crossDirection {a : MarketArena} {buy sell : ℕ} {askBuy bidSell minSpreadBps : UInt64}
    {token : UInt16} {signals : List ArbitrageSignal} {signal : ArbitrageSignal}
    (h : a.crossDirection buy sell askBuy bidSell token minSpreadBps = some signals)
    (hmem : signal ∈ signals) :
    (∃ net, signal = .crossExchange (UInt16.ofNat buy) (UInt16.ofNat sell) token net) ∧
      askBuy ≠ 0 ∧ bidSell ≠ 0 := by
  unfold crossDirection at h
  by_cases hprices : askBuy < bidSell ∧ 0 < askBuy
  · rw [if_pos hprices] at h
    dsimp only at h
    split_ifs at h
    split at h
    · cases h
    · split_ifs at h
      · cases h
        have hask : askBuy ≠ 0 := by
          rintro rfl
          exact absurd hprices.2 (by decide)
        have hbid : bidSell ≠ 0 := by
          rintro rfl
          exact UInt64.not_lt_zero hprices.1
        exact ⟨⟨_, List.mem_singleton.mp hmem⟩, hask, hbid⟩
      · cases h
        simp at hmem
  · rw [if_neg hprices] at h
    cases h
    simp at hmem

/-- A signal of the cross-exchange part rests on a target of the token and on two prices. -/
lemma mem_crossSignals {a : MarketArena} {tokenId : ℕ} {minSpreadBps : UInt64}
    {signal : ArbitrageSignal} (h : signal ∈ a.crossSignals tokenId minSpreadBps) :
    ∃ target ∈ a.targetsOf tokenId, ∃ buy sell net,
      signal = .crossExchange (UInt16.ofNat buy) (UInt16.ofNat sell) target.tokenId net ∧
      buy < 64 ∧ sell < 64 ∧ a.getIndex buy tokenId < a.size ∧ a.getIndex sell tokenId < a.size ∧
      a.ask buy tokenId ≠ 0 ∧ a.bid sell tokenId ≠ 0 := by
  rw [crossSignals_eq] at h
  split_ifs at h
  · obtain ⟨target, htarget, h⟩ := List.mem_flatMap.mp h
    obtain ⟨⟨i, j⟩, hpair, h⟩ := List.mem_flatMap.mp h
    obtain ⟨hi, hj, -⟩ := (mem_orderedPairs (pairwise_maskBits _)).mp hpair
    have hi64 := lt_of_mem_maskBits hi
    have hj64 := lt_of_mem_maskBits hj
    dsimp only at h
    unfold crossPair at h
    split_ifs at h with hidx hsentinel
    · simp at h
    · simp at h
    · have hidxi : a.getIndex i tokenId < a.size := by omega
      have hidxj : a.getIndex j tokenId < a.size := by omega
      split at h
      · simp at h
      · rename_i first hfirst
        rcases List.mem_append.mp h with h | h
        · obtain ⟨⟨net, hsignal⟩, hask, hbid⟩ := mem_crossDirection hfirst h
          exact ⟨target, htarget, i, j, net, hsignal, hi64, hj64, hidxi, hidxj, hask, hbid⟩
        · cases hsecond : a.crossDirection j i (a.ask j tokenId) (a.bid i tokenId) target.tokenId
              minSpreadBps with
          | none => simp [hsecond] at h
          | some second =>
            rw [hsecond, Option.getD_some] at h
            obtain ⟨⟨net, hsignal⟩, hask, hbid⟩ := mem_crossDirection hsecond h
            exact ⟨target, htarget, j, i, net, hsignal, hj64, hi64, hidxj, hidxi, hask, hbid⟩
  · simp at h

/-- A loop that is reported has prices in all its slots. -/
lemma triLoopSignal_spec {a : MarketArena} {updatedExch updatedToken : ℕ}
    {minTriProfitBps : UInt64} {tri : TriangularLoop} {signal : ArbitrageSignal}
    (h : a.triLoopSignal updatedExch updatedToken minTriProfitBps tri = some signal) :
    updatedExch < 64 ∧
      (∃ net,
        signal = .triangular (UInt16.ofNat updatedExch) tri.tokenA tri.tokenB tri.tokenC net) ∧
      ∀ token ∈ [tri.tokenA, tri.tokenB, tri.tokenC],
        a.getIndex updatedExch token.toNat < a.size ∧ a.bid updatedExch token.toNat ≠ 0 ∧
          a.ask updatedExch token.toNat ≠ 0 := by
  unfold triLoopSignal at h
  simp only at h
  split_ifs at h with htoken hslots hzero hsentinel
  obtain ⟨step3, -, h⟩ := Option.bind_eq_some_iff.mp h
  split_ifs at h with hprofit
  obtain ⟨net, -, h⟩ := Option.bind_eq_some_iff.mp h
  split_ifs at h with hemit
  refine ⟨hemit.2.1, ⟨net, (Option.some.inj h).symm⟩, ?_⟩
  intro token htri
  have hslot : token.toNat ∈ [tri.tokenA, tri.tokenB, tri.tokenC].map UInt16.toNat :=
    List.mem_map_of_mem htri
  simp only [List.any_eq_true, not_exists, not_and, decide_eq_true_eq, not_le, beq_iff_eq]
    at hslots hzero
  have hprice : ∀ price ∈ [a.bid updatedExch token.toNat, a.ask updatedExch token.toNat],
      price ≠ 0 := by
    intro price hmem
    exact hzero price (List.mem_flatMap.mpr ⟨token.toNat, hslot, hmem⟩)
  exact ⟨hslots token.toNat hslot, hprice _ (by simp), hprice _ (by simp)⟩

/-- A signal of the triangular part comes from a loop of the updated exchange. -/
lemma mem_triSignals {a : MarketArena} {updatedExch updatedToken : ℕ} {minTriProfitBps : UInt64}
    {signal : ArbitrageSignal}
    (h : signal ∈ a.triSignals updatedExch updatedToken minTriProfitBps) :
    ∃ loops, a.triLoops (UInt16.ofNat updatedExch) = some loops ∧ ∃ tri ∈ loops,
      a.triLoopSignal updatedExch updatedToken minTriProfitBps tri = some signal := by
  unfold triSignals at h
  split_ifs at h
  · obtain ⟨tri, htri, hsignal⟩ := List.mem_filterMap.mp h
    cases hloops : a.triLoops (UInt16.ofNat updatedExch) with
    | none => simp [hloops] at htri
    | some loops => exact ⟨loops, rfl, tri, by simpa [hloops] using htri, hsignal⟩
  · simp at h

end MarketArena

end HftArb
