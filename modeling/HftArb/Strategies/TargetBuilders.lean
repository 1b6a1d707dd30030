import HftArb.Foundations.PositionIndex
import HftArb.Strategies.Invalidation

/-!
# The two builders of the cross-exchange targets

One builder scans the price matrix, the other walks a map from tokens to the exchanges that were
found to carry them.  Both compile a list of entries (`compileTargets`), so two facts are enough.
The tables compiled from well-formed entries are exact: the count of a target is the number of bits
of its mask, and the index lists the positions of each token (`tablesExact_compileTargets`).  And a
target does not depend on the order in which its exchanges were met (`target_eq_of_mem_iff`).

`target_builders_agree` puts them together, for one pair of builds and for every run of writers.
-/

namespace HftArb

open PositionIndex

namespace MarketArena

/-! ## Well-formed entries -/

/-- An entry of a token in its own slot, with each of its exchanges once and a bit for each. -/
structure TargetEntry.WellFormed (e : TargetEntry) : Prop where
  slot : e.slot = e.tokenId.toNat
  nodup : e.exchanges.Nodup
  lt : ∀ exchId ∈ e.exchanges, exchId < 64

/-- The exchanges of an entry are the bits of its mask. -/
lemma TargetEntry.WellFormed.perm_maskBits {e : TargetEntry} (h : e.WellFormed) :
    (maskBits e.target.exchangeMask).Perm e.exchanges := by
  rw [List.perm_ext_iff_of_nodup (pairwise_maskBits _).nodup h.nodup]
  intro exchId
  rw [mem_maskBits, TargetEntry.target, testBit_exchangeMask, decide_eq_true_iff]
  exact and_iff_left_of_imp (h.lt exchId)

/-- A mask has at most 64 bits. -/
lemma length_maskBits_le (mask : UInt64) : (maskBits mask).length ≤ 64 :=
  (List.length_filter_le _ _).trans_eq List.length_range

/-- The count of an entry is the number of its exchanges. -/
lemma TargetEntry.WellFormed.sharedCount {e : TargetEntry} (h : e.WellFormed) :
    e.target.sharedCount.toNat = e.exchanges.length := by
  have hlen := h.perm_maskBits.length_eq
  have hle := length_maskBits_le e.target.exchangeMask
  rw [TargetEntry.target, exchangeMask_count]
  omega

/-- The target of a token depends only on which exchanges carry it. -/
lemma target_eq_of_mem_iff {e e' : TargetEntry} (h : e.WellFormed) (h' : e'.WellFormed)
    (htoken : e.tokenId = e'.tokenId)
    (hmem : ∀ exchId, exchId ∈ e.exchanges ↔ exchId ∈ e'.exchanges) :
    e.target = e'.target := by
  have hperm : e.exchanges.Perm e'.exchanges :=
    (List.perm_ext_iff_of_nodup h.nodup h'.nodup).mpr hmem
  have hmask : e.target.exchangeMask = e'.target.exchangeMask := by
    rw [← UInt64.toNat_inj]
    refine Nat.eq_of_testBit_eq fun i => ?_
    simp only [TargetEntry.target, testBit_exchangeMask, hmem]
  have hcount : e.target.sharedCount = e'.target.sharedCount := by
    rw [← UInt8.toNat_inj, h.sharedCount, h'.sharedCount, hperm.length_eq]
  exact (CrossExchangeTarget.mk.injEq ..).mpr ⟨htoken, hmask, hcount⟩

/-! ## Exact tables -/

/-- The slot of the token of a target. -/
def targetSlot (target : CrossExchangeTarget) : ℕ := target.tokenId.toNat

/-- The tables say what they should: a target counts the bits of its mask, and the index lists, for
each token, the positions of its targets, all of them in the table. -/
structure TablesExact (a : MarketArena) : Prop where
  count : ∀ target ∈ a.crossTargets,
    target.sharedCount.toNat = (maskBits target.exchangeMask).length
  index : a.crossIndex = (List.range a.totalTokens).map (positions targetSlot a.crossTargets)
  inBounds : ∀ bucket ∈ a.crossIndex, ∀ targetIdx ∈ bucket, targetIdx < a.crossTargets.length

/-- An index that lists the positions of each token. -/
def CrossTables.Indexed (tables : CrossTables) (totalTokens : ℕ) : Prop :=
  tables.index = (List.range totalTokens).map (positions targetSlot tables.targets)

/-- Compiling an entry keeps the index exact. -/
lemma CrossTables.Indexed.push {tables : CrossTables} {totalTokens : ℕ}
    (h : tables.Indexed totalTokens) {e : TargetEntry} (he : e.slot = e.tokenId.toNat) :
    (tables.push e).Indexed totalTokens := by
  unfold CrossTables.push
  split_ifs with hcount
  · unfold CrossTables.Indexed at h ⊢
    dsimp only
    rw [h]
    refine List.ext_getElem (by simp) fun i hi _ => ?_
    rw [List.getElem_modify, List.getElem_map, List.getElem_map, List.getElem_range,
      positions_append_singleton]
    have hslot : targetSlot e.target = e.slot := he.symm
    rw [hslot]
    split_ifs with heq
    · rfl
    · rw [List.append_nil]
  · exact h

/-- Compiling entries keeps the index exact. -/
lemma CrossTables.Indexed.foldl_push {tables : CrossTables} {totalTokens : ℕ}
    (h : tables.Indexed totalTokens) {entries : List TargetEntry}
    (hentries : ∀ e ∈ entries, e.slot = e.tokenId.toNat) :
    (entries.foldl CrossTables.push tables).Indexed totalTokens := by
  induction entries generalizing tables with
  | nil => exact h
  | cons e entries ih =>
    exact ih (h.push (hentries e List.mem_cons_self))
      fun e' he' => hentries e' (List.mem_cons_of_mem _ he')

/-- The targets compiled from entries: those shared by at least two exchanges, in order. -/
lemma crossTargets_compileTargets (a : MarketArena) (entries : List TargetEntry) :
    (a.compileTargets entries).crossTargets =
      (entries.map TargetEntry.target).filter fun target => decide (2 ≤ target.sharedCount) := by
  have hfold : ∀ (entries : List TargetEntry) (tables : CrossTables),
      (entries.foldl CrossTables.push tables).targets = tables.targets ++
        (entries.map TargetEntry.target).filter fun target => decide (2 ≤ target.sharedCount) := by
    intro entries
    induction entries with
    | nil => simp
    | cons e entries ih =>
      intro tables
      rw [List.foldl_cons, ih, List.map_cons, CrossTables.push]
      split_ifs with hcount
      · rw [List.filter_cons_of_pos (by simpa using hcount)]
        simp
      · rw [List.filter_cons_of_neg (by simpa using hcount)]
  exact hfold entries _

/-- Tables compiled from well-formed entries are exact. -/
lemma tablesExact_compileTargets (a : MarketArena) {entries : List TargetEntry}
    (hentries : ∀ e ∈ entries, e.WellFormed) : (a.compileTargets entries).TablesExact := by
  have hindex : (a.compileTargets entries).crossIndex = (List.range a.totalTokens).map
      (positions targetSlot (a.compileTargets entries).crossTargets) := by
    refine CrossTables.Indexed.foldl_push ?_ fun e he => (hentries e he).slot
    refine List.ext_getElem (by simp) fun i hi _ => ?_
    simp
  refine ⟨?_, hindex, ?_⟩
  · intro target htarget
    rw [crossTargets_compileTargets, List.mem_filter] at htarget
    obtain ⟨e, he, rfl⟩ := List.mem_map.mp htarget.1
    rw [(hentries e he).sharedCount, (hentries e he).perm_maskBits.length_eq]
  · intro bucket hbucket targetIdx hidx
    rw [hindex] at hbucket
    obtain ⟨tokenId, -, rfl⟩ := List.mem_map.mp hbucket
    exact lt_of_mem_positions hidx

/-! ## The entries of the two builders -/

/-- The entry of a token whose prices are scanned. -/
def scannedEntry (a : MarketArena) (tokenId : ℕ) : TargetEntry :=
  ⟨tokenId, UInt16.ofNat tokenId, a.carriers tokenId⟩

/-- The entry of a token that was found on some exchanges. -/
def foundEntry (a : MarketArena) (found : UInt16 × List UInt16) : TargetEntry :=
  ⟨found.1.toNat, found.1,
    (found.2.map UInt16.toNat).filter fun exchId => decide (exchId < a.totalExchanges)⟩

/-- A scanned token below the range of its id gives a well-formed entry. -/
lemma wellFormed_scannedEntry (a : MarketArena) {tokenId : ℕ} (h : tokenId < 65536) :
    (a.scannedEntry tokenId).WellFormed where
  slot := (UInt16.toNat_ofNat_of_lt' h).symm
  nodup := a.nodup_carriers tokenId
  lt := by
    intro exchId hmem
    exact (mem_carriers.mp hmem).1.trans_le a.totalExchanges_le

/-- A set of exchanges gives a well-formed entry. -/
lemma wellFormed_foundEntry (a : MarketArena) {found : UInt16 × List UInt16}
    (h : found.2.Nodup) : (a.foundEntry found).WellFormed where
  slot := rfl
  nodup := (h.map fun _ _ => UInt16.toNat_inj.mp).filter _
  lt := by
    intro exchId hmem
    have hlt : exchId < a.totalExchanges := of_decide_eq_true (List.mem_filter.mp hmem).2
    exact hlt.trans_le a.totalExchanges_le

/-- The scan keeps the tables exact. -/
lemma tablesExact_buildCrossExchangeTargets {a : MarketArena} (h : a.totalTokens ≤ 65536) :
    a.buildCrossExchangeTargets.TablesExact := by
  refine tablesExact_compileTargets a fun e he => ?_
  obtain ⟨tokenId, htoken, rfl⟩ := List.mem_map.mp he
  exact wellFormed_scannedEntry a ((List.mem_range.mp htoken).trans_le h)

/-- The walk over a map of sets keeps the tables exact. -/
lemma tablesExact_buildCrossExchangeTargetsFromPresence (a : MarketArena)
    {presence : List (UInt16 × List UInt16)} (h : ∀ found ∈ presence, found.2.Nodup) :
    (a.buildCrossExchangeTargetsFromPresence presence).TablesExact := by
  refine tablesExact_compileTargets a fun e he => ?_
  obtain ⟨found, hfound, rfl⟩ := List.mem_map.mp he
  exact wellFormed_foundEntry a (h found (List.mem_filter.mp (List.mem_filter.mp hfound).1).1)

/-! ## Runs -/

/-- A map from tokens to sets of exchanges, in the order in which its iterators walk it. -/
structure IsPresenceMap (presence : List (UInt16 × List UInt16)) : Prop where
  keys : (presence.map Prod.fst).Nodup
  sets : ∀ found ∈ presence, found.2.Nodup

/-- A call that hands a builder a map of sets, if it hands one over. -/
def ArenaCall.HandsMap : ArenaCall → Prop
  | .buildCrossExchangeTargetsFromPresence presence => IsPresenceMap presence
  | _ => True

/-- A writer that leaves the tables alone leaves them exact. -/
lemma TablesExact.sameTables {a a' : MarketArena} (h : a.TablesExact) (hsame : SameTables a a') :
    a'.TablesExact where
  count := by
    rw [hsame.crossTargets]
    exact h.count
  index := by
    rw [hsame.crossIndex, hsame.crossTargets, hsame.totalTokens]
    exact h.index
  inBounds := by
    rw [hsame.crossIndex, hsame.crossTargets]
    exact h.inBounds

/-- A call keeps the tables exact. -/
lemma TablesExact.apply {a : MarketArena} (h : a.TablesExact) (hT : a.totalTokens ≤ 65536)
    {c : ArenaCall} (hc : c.HandsMap) : (a.apply c).TablesExact := by
  cases c with
  | updatePrice exchId tokenId bid ask =>
    exact h.sameTables (sameTables_updatePrice a exchId tokenId bid ask)
  | invalidateExchange exchId => exact h.sameTables (sameTables_invalidateExchange a exchId)
  | invalidateToken tokenId => exact h.sameTables (sameTables_invalidateToken a tokenId)
  | buildCrossExchangeTargets => exact tablesExact_buildCrossExchangeTargets hT
  | buildCrossExchangeTargetsFromPresence presence =>
    exact tablesExact_buildCrossExchangeTargetsFromPresence a hc.sets
  | buildTriangularLoops exchangePairs => exact ⟨h.count, h.index, h.inBounds⟩

/-- Calls keep the tables exact. -/
lemma TablesExact.applyAll {a : MarketArena} (h : a.TablesExact) (hT : a.totalTokens ≤ 65536)
    {calls : List ArenaCall} (hcalls : ∀ c ∈ calls, c.HandsMap) :
    (a.applyAll calls).TablesExact := by
  induction calls generalizing a with
  | nil => exact h
  | cons c calls ih =>
    refine ih (h.apply hT (hcalls c List.mem_cons_self)) ?_ fun c' hc' =>
      hcalls c' (List.mem_cons_of_mem _ hc')
    rw [(dimensions_apply a c).1]
    exact hT

/-- The tables of the constructor are exact. -/
lemma tablesExact_new (totalExchanges totalTokens : ℕ) (h : totalExchanges ≤ 64) :
    (new totalExchanges totalTokens h).TablesExact where
  count := by simp [new]
  index := by
    refine List.ext_getElem (by simp [new]) fun i hi _ => ?_
    simp [new]
  inBounds := (CrossTables.valid_empty totalTokens).lt

/-! ## Agreement -/

/-- The map from each token to the exchanges on which it has both prices. -/
structure Presents (a : MarketArena) (presence : List (UInt16 × List UInt16)) : Prop
    extends IsPresenceMap presence where
  mem_iff : ∀ token exch, (∃ exchanges, (token, exchanges) ∈ presence ∧ exch ∈ exchanges) ↔
    token.toNat < a.totalTokens ∧ exch.toNat ∈ a.carriers token.toNat

/-- The map has at most one set of exchanges for a token. -/
lemma IsPresenceMap.eq_of_mem {presence : List (UInt16 × List UInt16)} (h : IsPresenceMap presence)
    {token : UInt16} {exchanges exchanges' : List UInt16} (hmem : (token, exchanges) ∈ presence)
    (hmem' : (token, exchanges') ∈ presence) : exchanges = exchanges' :=
  congrArg Prod.snd (List.inj_on_of_nodup_map h.keys hmem hmem' rfl)

/-- The exchanges found for a token are those that carry it. -/
lemma Presents.mem_foundEntry_iff {a : MarketArena} {presence : List (UInt16 × List UInt16)}
    (h : a.Presents presence) {found : UInt16 × List UInt16} (hfound : found ∈ presence)
    (hT : found.1.toNat < a.totalTokens) (exchId : ℕ) :
    exchId ∈ (a.foundEntry found).exchanges ↔ exchId ∈ a.carriers found.1.toNat := by
  obtain ⟨token, exchanges⟩ := found
  rw [foundEntry, List.mem_filter, List.mem_map, decide_eq_true_iff]
  constructor
  · rintro ⟨⟨exch, hexch, rfl⟩, -⟩
    exact ((h.mem_iff token exch).mp ⟨exchanges, hfound, hexch⟩).2
  · intro hcarrier
    have hlt : exchId < a.totalExchanges := (mem_carriers.mp hcarrier).1
    have hword := toNat_ofNat_exchange (hlt.trans_le a.totalExchanges_le)
    obtain ⟨exchanges', hmem, hexch⟩ := (h.mem_iff token (UInt16.ofNat exchId)).mpr
      ⟨hT, by rwa [hword]⟩
    rw [h.eq_of_mem hmem hfound] at hexch
    exact ⟨⟨_, hexch, hword⟩, hlt⟩

/-- A token in the map compiles to the same target from its set as from its prices. -/
lemma Presents.target_foundEntry {a : MarketArena} {presence : List (UInt16 × List UInt16)}
    (h : a.Presents presence) {found : UInt16 × List UInt16} (hfound : found ∈ presence)
    (hT : found.1.toNat < a.totalTokens) :
    (a.foundEntry found).target = (a.scannedEntry found.1.toNat).target :=
  target_eq_of_mem_iff (wellFormed_foundEntry a (h.sets found hfound))
    (wellFormed_scannedEntry a found.1.toNat_lt) UInt16.ofNat_toNat.symm
    (h.mem_foundEntry_iff hfound hT)

/-- A token shared by two exchanges has a set of at least two exchanges in the map. -/
lemma Presents.exists_found {a : MarketArena} {presence : List (UInt16 × List UInt16)}
    (h : a.Presents presence) {tokenId : ℕ} (hT : tokenId < a.totalTokens) (hlt : tokenId < 65536)
    (hshared : 2 ≤ (a.scannedEntry tokenId).target.sharedCount) :
    ∃ found ∈ presence, found.1.toNat = tokenId ∧ 2 ≤ found.2.length := by
  have hword : (UInt16.ofNat tokenId).toNat = tokenId := UInt16.toNat_ofNat_of_lt' hlt
  have hcarriers : 2 ≤ (a.carriers tokenId).length :=
    (UInt8.le_iff_toNat_le.mp hshared).trans_eq (wellFormed_scannedEntry a hlt).sharedCount
  obtain ⟨exchId, hexch⟩ := List.exists_mem_of_length_pos (Nat.zero_lt_two.trans_le hcarriers)
  have hexchWord := toNat_ofNat_exchange
    ((mem_carriers.mp hexch).1.trans_le a.totalExchanges_le)
  obtain ⟨exchanges, hmem, -⟩ := (h.mem_iff (UInt16.ofNat tokenId) (UInt16.ofNat exchId)).mpr (by
    rw [hword, hexchWord]
    exact ⟨hT, hexch⟩)
  refine ⟨_, hmem, hword, ?_⟩
  have hperm : (a.foundEntry (UInt16.ofNat tokenId, exchanges)).exchanges.Perm
      (a.carriers tokenId) := by
    refine (List.perm_ext_iff_of_nodup (wellFormed_foundEntry a (h.sets _ hmem)).nodup
      (wellFormed_scannedEntry a hlt).nodup).mpr fun x => ?_
    have hiff := h.mem_foundEntry_iff hmem (by rw [hword]; exact hT) x
    rwa [hword] at hiff
  calc 2 ≤ (a.carriers tokenId).length := hcarriers
    _ = (a.foundEntry (UInt16.ofNat tokenId, exchanges)).exchanges.length := hperm.length_eq.symm
    _ ≤ (exchanges.map UInt16.toNat).length := List.length_filter_le _ _
    _ = exchanges.length := List.length_map _

/-- Both builders compile the same targets. -/
lemma Presents.perm {a : MarketArena} {presence : List (UInt16 × List UInt16)}
    (h : a.Presents presence) (hT : a.totalTokens ≤ 65536) :
    (a.buildCrossExchangeTargetsFromPresence presence).crossTargets.Perm
      a.buildCrossExchangeTargets.crossTargets := by
  have hscan : a.buildCrossExchangeTargets.crossTargets =
      (((List.range a.totalTokens).map a.scannedEntry).map TargetEntry.target).filter
        fun target => decide (2 ≤ target.sharedCount) := crossTargets_compileTargets a _
  have hfound : (a.buildCrossExchangeTargetsFromPresence presence).crossTargets =
      ((((presence.filter fun found => decide (2 ≤ found.2.length)).filter
        fun found => decide (found.1.toNat < a.totalTokens)).map a.foundEntry).map
          TargetEntry.target).filter fun target => decide (2 ≤ target.sharedCount) :=
    crossTargets_compileTargets a _
  have hnodupScan : (((List.range a.totalTokens).map a.scannedEntry).map
      TargetEntry.target).Nodup := by
    refine List.Nodup.of_map CrossExchangeTarget.tokenId ?_
    rw [List.map_map, List.map_map]
    refine List.Nodup.map_on ?_ List.nodup_range
    intro t ht t' ht' heq
    rw [List.mem_range] at ht ht'
    have hword : (UInt16.ofNat t).toNat = (UInt16.ofNat t').toNat := congrArg UInt16.toNat heq
    rwa [UInt16.toNat_ofNat_of_lt' (ht.trans_le hT), UInt16.toNat_ofNat_of_lt' (ht'.trans_le hT)]
      at hword
  have hnodupFound : ((((presence.filter fun found => decide (2 ≤ found.2.length)).filter
      fun found => decide (found.1.toNat < a.totalTokens)).map a.foundEntry).map
        TargetEntry.target).Nodup := by
    refine List.Nodup.of_map CrossExchangeTarget.tokenId ?_
    rw [List.map_map, List.map_map]
    exact h.keys.sublist ((List.filter_sublist.trans List.filter_sublist).map _)
  rw [hscan, hfound]
  refine (List.perm_ext_iff_of_nodup (hnodupFound.filter _) (hnodupScan.filter _)).mpr
    fun target => ?_
  simp only [List.mem_filter, List.mem_map, List.mem_range, decide_eq_true_iff]
  constructor
  · rintro ⟨⟨_, ⟨found, ⟨⟨hmem, -⟩, hlt⟩, rfl⟩, rfl⟩, hshared⟩
    rw [h.target_foundEntry hmem hlt] at hshared ⊢
    exact ⟨⟨_, ⟨found.1.toNat, hlt, rfl⟩, rfl⟩, hshared⟩
  · rintro ⟨⟨_, ⟨tokenId, hlt, rfl⟩, rfl⟩, hshared⟩
    obtain ⟨found, hmem, htoken, hlen⟩ := h.exists_found hlt (hlt.trans_le hT) hshared
    subst htoken
    rw [← h.target_foundEntry hmem hlt] at hshared ⊢
    exact ⟨⟨_, ⟨found, ⟨⟨hmem, hlen⟩, hlt⟩, rfl⟩, rfl⟩, hshared⟩

/-- The two builders agree on what the prices say, and after any run of writers with either of them
the targets count the bits of their masks and the index lists the positions of each token. -/
theorem target_builders_agree (a : MarketArena) (hT : a.totalTokens ≤ 65536) :
    (∀ presence, a.Presents presence →
      (a.buildCrossExchangeTargetsFromPresence presence).crossTargets.Perm
        a.buildCrossExchangeTargets.crossTargets) ∧
    (a.buildCrossExchangeTargets.TablesExact ∧ ∀ presence, IsPresenceMap presence →
      (a.buildCrossExchangeTargetsFromPresence presence).TablesExact) ∧
    ∀ calls : List ArenaCall, (∀ c ∈ calls, c.HandsMap) →
      (a.TablesExact → (a.applyAll calls).TablesExact) ∧
        ((new a.totalExchanges a.totalTokens a.totalExchanges_le).applyAll calls).TablesExact :=
  ⟨fun _ h => h.perm hT,
    ⟨tablesExact_buildCrossExchangeTargets hT,
      fun _ h => tablesExact_buildCrossExchangeTargetsFromPresence a h.sets⟩,
    fun _ hcalls => ⟨fun h => h.applyAll hT hcalls,
      (tablesExact_new _ _ _).applyAll hT hcalls⟩⟩

lemma two_le_exchanges : 2 ≤ 64 := by decide

/-- A token with prices on two exchanges. -/
def sharedToken : MarketArena :=
  ((new 2 1 two_le_exchanges).updatePrice 0 0 2000000000 2000000000).updatePrice 1 0 2020000000
    2020000000

/-- A token on two exchanges compiles to one target, from its prices as from a map that lists the
exchanges in the other order. -/
theorem target_builders_agree_sharedToken :
    (sharedToken.buildCrossExchangeTargetsFromPresence [(0, [1, 0])]).crossTargets.Perm
        sharedToken.buildCrossExchangeTargets.crossTargets ∧
      (sharedToken.applyAll [.buildCrossExchangeTargets,
        .buildCrossExchangeTargetsFromPresence [(0, [1, 0])]]).TablesExact := by
  have hmap : IsPresenceMap [(0, [1, 0])] := ⟨by decide, by decide⟩
  have hT : sharedToken.totalTokens ≤ 65536 := by decide
  have hcarriers : sharedToken.carriers 0 = [0, 1] := by decide
  have hstart : sharedToken.TablesExact :=
    ((tablesExact_new 2 1 _).sameTables (sameTables_updatePrice ..)).sameTables
      (sameTables_updatePrice ..)
  obtain ⟨hperm, -, hruns⟩ := target_builders_agree sharedToken hT
  refine ⟨hperm _ ⟨hmap, ?_⟩, (hruns _ ?_).1 hstart⟩
  · intro token exch
    constructor
    · rintro ⟨exchanges, hmem, hexch⟩
      obtain ⟨rfl, rfl⟩ := Prod.mk.inj (List.mem_singleton.mp hmem)
      refine ⟨by decide, ?_⟩
      rw [show (0 : UInt16).toNat = 0 from rfl, hcarriers]
      revert hexch
      simp only [List.mem_cons, List.not_mem_nil, or_false]
      rintro (rfl | rfl)
      · decide
      · decide
    · rintro ⟨htoken, hexch⟩
      have hzero : token.toNat = 0 := Nat.lt_one_iff.mp htoken
      rw [hzero, hcarriers] at hexch
      refine ⟨[1, 0], List.mem_singleton.mpr (Prod.ext (UInt16.toNat_inj.mp hzero) rfl), ?_⟩
      simp only [List.mem_cons, List.not_mem_nil, or_false, ← UInt16.toNat_inj] at hexch ⊢
      exact hexch.symm
  · simp only [List.mem_cons, List.not_mem_nil, or_false]
    rintro c (rfl | rfl)
    · trivial
    · exact hmap

end MarketArena

end HftArb
