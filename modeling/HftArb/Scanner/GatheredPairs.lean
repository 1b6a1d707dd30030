import HftArb.Foundations.FirstCome
import HftArb.Scanner.CoinFinder

/-!
# What a scan cycle gathers

A cycle requests an id for the base of every pair that it accepts, from the answers of the exchanges
first and then from the custom mappings.  `Numbered` says which bases have an id afterwards: those
that `FirstCome.Admitted` lets in before the ids run out.

`Gathered` describes the lists of pairs.  An answer is stored as it is; a mapping is added to the
list of an exchange unless there is a pair of the same token already, which may have another quote.
So the pairs of an exchange are those that it lists, and at most one mapped pair for each base that
it does not list.
-/

namespace HftArb

open AssocMap FirstCome

namespace CoinFinder

/-! ## Token ids in order -/

/-- Symbols have different ids, all of them given out. -/
structure Ordered (f : CoinFinder) : Prop where
  lt_next : ∀ sym t, f.globalSymbolMap sym = some t → t < f.nextTokenId
  inj : ∀ sym sym' t, f.globalSymbolMap sym = some t → f.globalSymbolMap sym' = some t → sym = sym'

/-- When the ids of the symbols are active under them, symbols have different ids. -/
lemma Registered.ordered {start : UInt16} {f : CoinFinder} (hf : Registered start f) :
    Ordered f where
  lt_next sym t h := (hf.bounds t (hf.mapped sym t h).1).2
  inj sym sym' t h h' :=
    Option.some.inj ((hf.mapped sym t h).2.symm.trans (hf.mapped sym' t h').2)

/-- The number of ids that are left. -/
def room (f : CoinFinder) : ℕ := maxDiscoveredTokens.toNat - f.nextTokenId.toNat

/-- The symbol has an id. -/
def HasId (f : CoinFinder) (sym : String) : Prop := f.globalSymbolMap sym ≠ none

instance (f : CoinFinder) : DecidablePred f.HasId := fun sym =>
  inferInstanceAs (Decidable (f.globalSymbolMap sym ≠ none))

/-- The scanner `g` is `f` after requests for the ids of some bases, one after the other. -/
structure Numbered (f : CoinFinder) (bases : List String) (g : CoinFinder) : Prop where
  hasId : ∀ sym, g.HasId sym ↔ Admitted f.HasId f.room bases sym
  next : g.nextTokenId.toNat = f.nextTokenId.toNat + min f.room (newcomers f.HasId bases).card
  ordered : Ordered g
  config : g.config = f.config

variable {toUppercase : String → String} {f : CoinFinder}

lemma Numbered.refl (hf : Ordered f) : Numbered f [] f := by
  refine ⟨fun sym => ?_, by simp [newcomers], hf, rfl⟩
  simp [Admitted]

/-- The ids have run out exactly when there are more newcomers than places. -/
lemma Numbered.maxDiscoveredTokens_le_iff {bases : List String} {g : CoinFinder}
    (h : Numbered f bases g) :
    maxDiscoveredTokens ≤ g.nextTokenId ↔ f.room ≤ (newcomers f.HasId bases).card := by
  rw [UInt16.le_iff_toNat_le, h.next, room]
  omega

/-- A symbol keeps its answer once it has been requested. -/
lemma Numbered.hasId_iff_of_mem {bases more : List String} {g g' : CoinFinder}
    (h : Numbered f bases g) (h' : Numbered f (bases ++ more) g') {sym : String}
    (hsym : sym ∈ bases) : g'.HasId sym ↔ g.HasId sym := by
  rw [h'.hasId, h.hasId, admitted_append_of_mem hsym]

/-- A new id keeps the ids in order. -/
lemma Ordered.withNewToken (hf : Ordered f) (hcap : f.nextTokenId < maxDiscoveredTokens)
    (symbol : String) (cats : UInt16 → Option UInt16) (ids : String → Option UInt16) :
    Ordered (f.withNewToken symbol cats ids) := by
  have hlt := nextTokenId_lt_succ hcap
  have hold : ∀ sym, sym ≠ symbol →
      (f.withNewToken symbol cats ids).globalSymbolMap sym = f.globalSymbolMap sym :=
    fun sym hne => Function.update_of_ne hne _ _
  have hnew : (f.withNewToken symbol cats ids).globalSymbolMap symbol = some f.nextTokenId :=
    Function.update_self ..
  have hfresh : ∀ sym, f.globalSymbolMap sym ≠ some f.nextTokenId :=
    fun sym hsym => UInt16.lt_irrefl _ (hf.lt_next sym _ hsym)
  constructor
  · intro sym t hsym
    by_cases hne : sym = symbol
    · subst hne
      rw [hnew, Option.some_inj] at hsym
      exact hsym ▸ hlt
    · rw [hold sym hne] at hsym
      exact UInt16.lt_trans (hf.lt_next sym t hsym) hlt
  · intro sym sym' t hsym hsym'
    by_cases hne : sym = symbol
    · by_cases hne' : sym' = symbol
      · rw [hne, hne']
      · rw [hne, hnew] at hsym
        rw [hold sym' hne', ← hsym] at hsym'
        exact absurd hsym' (hfresh sym')
    · rw [hold sym hne] at hsym
      by_cases hne' : sym' = symbol
      · rw [hne', hnew] at hsym'
        rw [← hsym'] at hsym
        exact absurd hsym (hfresh sym)
      · rw [hold sym' hne'] at hsym'
        exact hf.inj sym sym' t hsym hsym'

/-- What a request for the id of a base answers, and what it does to a scan. -/
structure Registers (f : CoinFinder) (bases : List String) (base : String) (scan : Scan)
    (answer : Option UInt16 × Scan) : Prop where
  numbered : Numbered f (bases ++ [base]) answer.2.finder
  answer_eq : answer.1 = answer.2.finder.globalSymbolMap base
  mapped : ∀ sym t, scan.finder.globalSymbolMap sym = some t →
    answer.2.finder.globalSymbolMap sym = some t
  pairs : answer.2.exchangePairs = scan.exchangePairs
  presence : answer.2.tokenExchangePresence = scan.tokenExchangePresence

section Register

variable {bases : List String} {scan : Scan} (h : Numbered f bases scan.finder) {base : String}
  {cats : UInt16 → Option UInt16}

include h

/-- A base with an id is not new. -/
lemma Numbered.register_known {id : UInt16}
    (hmap : scan.finder.globalSymbolMap base = some id) :
    Registers f bases base scan
      (some id, { scan with finder := { scan.finder with tokenCategories := cats } }) := by
  have hknown : Admitted f.HasId f.room bases base :=
    (h.hasId base).mp (Option.ne_none_iff_exists'.mpr ⟨id, hmap⟩)
  refine ⟨⟨fun sym => ?_, ?_, ⟨h.ordered.lt_next, h.ordered.inj⟩, h.config⟩, hmap.symm,
    fun _ _ hsym => hsym, rfl, rfl⟩
  · rw [admitted_append_singleton]
    refine (h.hasId sym).trans (or_iff_left_of_imp ?_).symm
    rintro ⟨rfl, -⟩
    exact hknown
  · rw [card_newcomers_append_singleton, if_pos (hknown.imp_right And.left)]
    exact h.next

/-- When the ids have run out nothing changes. -/
lemma Numbered.register_full (hmap : scan.finder.globalSymbolMap base = none)
    (hcap : maxDiscoveredTokens ≤ scan.finder.nextTokenId) :
    Registers f bases base scan (none, scan) := by
  have hfull := h.maxDiscoveredTokens_le_iff.mp hcap
  refine ⟨⟨fun sym => ?_, ?_, h.ordered, h.config⟩, hmap.symm, fun _ _ hsym => hsym, rfl, rfl⟩
  · rw [admitted_append_singleton, or_iff_left fun hroom => not_lt.mpr hfull hroom.2]
    exact h.hasId sym
  · rw [h.next, card_newcomers_append_singleton]
    split_ifs <;> omega

/-- A new base gets the next id. -/
lemma Numbered.register_new {ids : String → Option UInt16}
    (hmap : scan.finder.globalSymbolMap base = none)
    (hcap : scan.finder.nextTokenId < maxDiscoveredTokens) :
    Registers f bases base scan
      (some scan.finder.nextTokenId, scan.withNewToken base cats ids) := by
  have hroom : (newcomers f.HasId bases).card < f.room :=
    not_le.mp fun hfull => UInt16.not_le.mpr hcap (h.maxDiscoveredTokens_le_iff.mpr hfull)
  have hunknown : ¬ Admitted f.HasId f.room bases base := by
    rw [← h.hasId]
    exact not_not_intro hmap
  have hnew : ¬ (f.HasId base ∨ base ∈ bases) := by
    rintro (hknown | hmem)
    · exact hunknown (Or.inl hknown)
    · refine hunknown (Or.inr ⟨hmem, (Finset.card_le_card (newcomers_mono ?_)).trans_lt hroom⟩)
      exact (List.takeWhile_sublist _).subset
  have hself : (scan.withNewToken base cats ids).finder.globalSymbolMap base =
      some scan.finder.nextTokenId := Function.update_self ..
  have hother : ∀ sym, sym ≠ base →
      (scan.withNewToken base cats ids).finder.globalSymbolMap sym =
        scan.finder.globalSymbolMap sym := fun sym hne => Function.update_of_ne hne _ _
  refine ⟨⟨fun sym => ?_, ?_, h.ordered.withNewToken hcap base cats ids, h.config⟩, hself.symm,
    fun sym t hsym => ?_, rfl, rfl⟩
  · rw [admitted_append_singleton, ← h.hasId, HasId, HasId]
    by_cases hne : sym = base
    · subst hne
      exact iff_of_true (by rw [hself]; simp) (Or.inr ⟨rfl, hroom⟩)
    · rw [hother sym hne, or_iff_left fun hbase => hne hbase.1]
  · have hnext : (scan.finder.nextTokenId + 1).toNat = scan.finder.nextTokenId.toNat + 1 := by
      rw [UInt16.lt_iff_toNat_lt] at hcap
      have hmax : maxDiscoveredTokens.toNat = 2990 := rfl
      rw [UInt16.toNat_add, UInt16.toNat_one, Nat.mod_eq_of_lt (by omega)]
    refine hnext.trans ?_
    rw [h.next, card_newcomers_append_singleton, if_neg hnew]
    omega
  · have hne : sym ≠ base := by
      rintro rfl
      rw [hmap] at hsym
      cases hsym
    rw [hother sym hne]
    exact hsym

/-- A request for the id of a base. -/
lemma Numbered.register (hupper : toUppercase base = base) (category : UInt16) :
    Registers f bases base scan (scan.register toUppercase base category) := by
  rcases getOrCreateTokenId_cases scan.finder hupper category with
    ⟨id, cats, hmap, hanswer⟩ | ⟨hmap, hcap, hanswer⟩ | ⟨hmap, hcap, cats, ids, hanswer⟩
  · have hreg : scan.register toUppercase base category =
        (some id, { scan with finder := { scan.finder with tokenCategories := cats } }) := by
      simp only [Scan.register, hanswer]
      rfl
    rw [hreg]
    exact h.register_known hmap
  · have hreg : scan.register toUppercase base category = (none, scan) := by
      simp only [Scan.register, hanswer]
    rw [hreg]
    exact h.register_full hmap hcap
  · have hreg : scan.register toUppercase base category =
        (some scan.finder.nextTokenId, scan.withNewToken base cats ids) := by
      simp only [Scan.register, hanswer, if_true, Scan.withNewToken]
    rw [hreg]
    exact h.register_new hmap hcap

end Register

/-! ## Listed and mapped pairs -/

/-- A pair on an exchange. -/
structure Placement where
  exchId : UInt16
  base : String
  quote : String
  deriving DecidableEq

/-- What a scan has gathered, by exchanges and tokens: it has listed some pairs and applied some
mappings, in the order of the bases they asked ids for.

The pairs of an exchange are those that it lists, and those that were mapped to it while it listed
no pair of their base; there is only one of these for a base. -/
structure Gathered (f : CoinFinder) (bases : List String) (listed mapped : List Placement)
    (g : CoinFinder) (pairs : UInt16 → List PairEntry) (presence : UInt16 → List UInt16) :
    Prop where
  numbered : Numbered f bases g
  requested : ∀ p, p ∈ listed ∨ p ∈ mapped → p.base ∈ bases
  named : ∀ e, ∀ p ∈ pairs e, g.globalSymbolMap p.base = some p.tokenId
  present : ∀ e, ∀ p ∈ pairs e, e ∈ presence p.tokenId
  has_listed : ∀ q ∈ listed, g.HasId q.base →
    ∃ p ∈ pairs q.exchId, p.base = q.base ∧ p.quote = q.quote
  has_mapped : ∀ q ∈ mapped, g.HasId q.base → ∃ p ∈ pairs q.exchId, p.base = q.base
  origin : ∀ e, ∀ p ∈ pairs e, Placement.mk e p.base p.quote ∈ listed ∨
    (∀ quote, Placement.mk e p.base quote ∉ listed) ∧ Placement.mk e p.base p.quote ∈ mapped
  unique : ∀ e, ∀ p ∈ pairs e, ∀ p' ∈ pairs e, p.base = p'.base →
    (∀ quote, Placement.mk e p.base quote ∉ listed) → p.quote = p'.quote

section Steps

variable {bases : List String} {listed mapped : List Placement} {g g' : CoinFinder}
  {pairs : UInt16 → List PairEntry} {presence presence' : UInt16 → List UInt16}

/-- The pairs of the exchanges after one pair was added. -/
lemma mem_addPair {e e' : UInt16} {p p' : PairEntry} :
    p' ∈ Function.update pairs e (pairs e ++ [p]) e' ↔ p' ∈ pairs e' ∨ e' = e ∧ p' = p := by
  by_cases he : e' = e
  · subst he
    simp
  · simp [he]

section Requests

variable (h : Gathered f bases listed mapped g pairs presence) {q : Placement}
  (hbase : q.base ∈ bases)

include h hbase

lemma Gathered.requested_list :
    ∀ p, p ∈ listed ++ [q] ∨ p ∈ mapped → p.base ∈ bases := by
  rintro p (hp | hp)
  · rcases List.mem_append.mp hp with hp | hp
    · exact h.requested p (Or.inl hp)
    · rw [List.mem_singleton.mp hp]
      exact hbase
  · exact h.requested p (Or.inr hp)

lemma Gathered.requested_map :
    ∀ p, p ∈ listed ∨ p ∈ mapped ++ [q] → p.base ∈ bases := by
  rintro p (hp | hp)
  · exact h.requested p (Or.inl hp)
  · rcases List.mem_append.mp hp with hp | hp
    · exact h.requested p (Or.inr hp)
    · rw [List.mem_singleton.mp hp]
      exact hbase

end Requests

section Added

variable (h : Gathered f bases listed mapped g pairs presence) {e : UInt16} {p : PairEntry}

include h

/-- An added pair is known under its id. -/
lemma Gathered.named_addPair (hid : g.globalSymbolMap p.base = some p.tokenId) :
    ∀ e', ∀ p' ∈ Function.update pairs e (pairs e ++ [p]) e',
      g.globalSymbolMap p'.base = some p'.tokenId := by
  intro e' p' hp'
  rcases mem_addPair.mp hp' with hp' | ⟨-, rfl⟩
  · exact h.named e' p' hp'
  · exact hid

/-- The exchange of an added pair is recorded for its token. -/
lemma Gathered.present_addPair
    (hpresence : ∀ t e', e' ∈ presence' t ↔ t = p.tokenId ∧ e' = e ∨ e' ∈ presence t) :
    ∀ e', ∀ p' ∈ Function.update pairs e (pairs e ++ [p]) e', e' ∈ presence' p'.tokenId := by
  intro e' p' hp'
  rw [hpresence]
  rcases mem_addPair.mp hp' with hp' | ⟨rfl, rfl⟩
  · exact Or.inr (h.present e' p' hp')
  · exact Or.inl ⟨rfl, rfl⟩

end Added

/-- A request for an id changes nothing else. -/
lemma Gathered.register (h : Gathered f bases listed mapped g pairs presence) {base : String}
    (hnumbered : Numbered f (bases ++ [base]) g')
    (hmap : ∀ sym t, g.globalSymbolMap sym = some t → g'.globalSymbolMap sym = some t) :
    Gathered f (bases ++ [base]) listed mapped g' pairs presence where
  numbered := hnumbered
  requested := fun p hp => List.mem_append_left _ (h.requested p hp)
  named := fun e p hp => hmap _ _ (h.named e p hp)
  present := h.present
  has_listed := fun q hq hid =>
    h.has_listed q hq ((h.numbered.hasId_iff_of_mem hnumbered (h.requested q (Or.inl hq))).mp hid)
  has_mapped := fun q hq hid =>
    h.has_mapped q hq ((h.numbered.hasId_iff_of_mem hnumbered (h.requested q (Or.inr hq))).mp hid)
  origin := h.origin
  unique := h.unique

/-- A pair without an id is left out. -/
lemma Gathered.skip (h : Gathered f bases listed [] g pairs presence) {q : Placement}
    (hbase : q.base ∈ bases) (hid : ¬ g.HasId q.base) :
    Gathered f bases (listed ++ [q]) [] g pairs presence where
  numbered := h.numbered
  requested := h.requested_list hbase
  named := h.named
  present := h.present
  has_listed := by
    intro q' hq' hid'
    rcases List.mem_append.mp hq' with hq' | hq'
    · exact h.has_listed q' hq' hid'
    · rw [List.mem_singleton.mp hq'] at hid'
      exact absurd hid' hid
  has_mapped := h.has_mapped
  origin := by
    intro e p hp
    rcases h.origin e p hp with hlisted | ⟨-, hmapped⟩
    · exact Or.inl (List.mem_append_left _ hlisted)
    · cases hmapped
  unique := fun e p hp p' hp' hbase hnot =>
    h.unique e p hp p' hp' hbase fun quote hq => hnot quote (List.mem_append_left _ hq)

/-- A listed pair is added to the pairs of its exchange. -/
lemma Gathered.list (h : Gathered f bases listed [] g pairs presence) {e : UInt16}
    {p : PairEntry} (hbase : p.base ∈ bases) (hid : g.globalSymbolMap p.base = some p.tokenId)
    (hpresence : ∀ t e', e' ∈ presence' t ↔ t = p.tokenId ∧ e' = e ∨ e' ∈ presence t) :
    Gathered f bases (listed ++ [⟨e, p.base, p.quote⟩]) [] g
      (Function.update pairs e (pairs e ++ [p])) presence' := by
  have horigin : ∀ e' p', p' ∈ Function.update pairs e (pairs e ++ [p]) e' →
      Placement.mk e' p'.base p'.quote ∈ listed ++ [⟨e, p.base, p.quote⟩] := by
    intro e' p' hp'
    rcases mem_addPair.mp hp' with hp' | ⟨rfl, rfl⟩
    · rcases h.origin e' p' hp' with hlisted | ⟨-, hmapped⟩
      · exact List.mem_append_left _ hlisted
      · cases hmapped
    · simp
  refine ⟨h.numbered, h.requested_list hbase, h.named_addPair hid, h.present_addPair hpresence, ?_,
    nofun, fun e' p' hp' => Or.inl (horigin e' p' hp'), ?_⟩
  · intro q hq hidq
    rcases List.mem_append.mp hq with hq | hq
    · obtain ⟨p', hp', heq⟩ := h.has_listed q hq hidq
      exact ⟨p', mem_addPair.mpr (Or.inl hp'), heq⟩
    · rw [List.mem_singleton.mp hq]
      exact ⟨p, mem_addPair.mpr (Or.inr ⟨rfl, rfl⟩), rfl, rfl⟩
  · intro e' p' hp' p'' _ _ hnot
    exact absurd (horigin e' p' hp') (hnot _)

/-- A mapping has no effect on an exchange that has a pair of the token, or when it has no id. -/
lemma Gathered.mapSkip (h : Gathered f bases listed mapped g pairs presence) {q : Placement}
    (hbase : q.base ∈ bases)
    (hthere : g.HasId q.base → ∃ p ∈ pairs q.exchId, p.base = q.base) :
    Gathered f bases listed (mapped ++ [q]) g pairs presence where
  numbered := h.numbered
  requested := h.requested_map hbase
  named := h.named
  present := h.present
  has_listed := h.has_listed
  has_mapped := by
    intro q' hq' hid
    rcases List.mem_append.mp hq' with hq' | hq'
    · exact h.has_mapped q' hq' hid
    · rw [List.mem_singleton.mp hq'] at hid ⊢
      exact hthere hid
  origin := fun e p hp => (h.origin e p hp).imp_right fun hmapped =>
    ⟨hmapped.1, List.mem_append_left _ hmapped.2⟩
  unique := h.unique

/-- A mapping adds its pair to an exchange without a pair of the token. -/
lemma Gathered.map (h : Gathered f bases listed mapped g pairs presence) {e : UInt16}
    {p : PairEntry} (hbase : p.base ∈ bases) (hid : g.globalSymbolMap p.base = some p.tokenId)
    (hnone : p.tokenId ∉ (pairs e).map PairEntry.tokenId)
    (hpresence : ∀ t e', e' ∈ presence' t ↔ t = p.tokenId ∧ e' = e ∨ e' ∈ presence t) :
    Gathered f bases listed (mapped ++ [⟨e, p.base, p.quote⟩]) g
      (Function.update pairs e (pairs e ++ [p])) presence' := by
  have hnoBase : ∀ p' ∈ pairs e, p'.base ≠ p.base := by
    intro p' hp' heq
    have htoken : p'.tokenId = p.tokenId := by
      rw [← Option.some_inj, ← h.named e p' hp', heq, hid]
    exact hnone (List.mem_map.mpr ⟨p', hp', htoken⟩)
  have hunlisted : ∀ quote, Placement.mk e p.base quote ∉ listed := by
    intro quote hq
    obtain ⟨p', hp', hbase', -⟩ := h.has_listed _ hq (Option.ne_none_iff_exists'.mpr ⟨_, hid⟩)
    exact hnoBase p' hp' hbase'
  refine ⟨h.numbered, h.requested_map hbase, h.named_addPair hid, h.present_addPair hpresence, ?_,
    ?_, ?_, ?_⟩
  · intro q hq hidq
    obtain ⟨p', hp', heq⟩ := h.has_listed q hq hidq
    exact ⟨p', mem_addPair.mpr (Or.inl hp'), heq⟩
  · intro q hq hidq
    rcases List.mem_append.mp hq with hq | hq
    · obtain ⟨p', hp', heq⟩ := h.has_mapped q hq hidq
      exact ⟨p', mem_addPair.mpr (Or.inl hp'), heq⟩
    · rw [List.mem_singleton.mp hq]
      exact ⟨p, mem_addPair.mpr (Or.inr ⟨rfl, rfl⟩), rfl⟩
  · intro e' p' hp'
    rcases mem_addPair.mp hp' with hp' | ⟨rfl, rfl⟩
    · exact (h.origin e' p' hp').imp_right fun hmapped =>
        ⟨hmapped.1, List.mem_append_left _ hmapped.2⟩
    · exact Or.inr ⟨hunlisted, by simp⟩
  · intro e' p' hp' p'' hp'' heq hnot
    rcases mem_addPair.mp hp' with hold | ⟨rfl, rfl⟩
    · rcases mem_addPair.mp hp'' with hold' | ⟨rfl, rfl⟩
      · exact h.unique e' p' hold p'' hold' heq hnot
      · exact absurd heq (hnoBase p' hold)
    · rcases mem_addPair.mp hp'' with hold' | ⟨-, rfl⟩
      · exact absurd heq.symm (hnoBase p'' hold')
      · rfl

end Steps

/-! ## What a cycle gathers -/

/-- The pairs that a scan has stored for an exchange. -/
def pairsOn (scan : Scan) (exchId : UInt16) : List PairEntry :=
  (scan.exchangePairs.lookup exchId).getD []

/-- The pairs of one exchange are stored anew. -/
lemma pairsOn_of_lookup {scan scan' : Scan} {exchId : UInt16} {stored : List PairEntry}
    (h : ∀ e, scan'.exchangePairs.lookup e =
      if e = exchId then some stored else scan.exchangePairs.lookup e) :
    pairsOn scan' = Function.update (pairsOn scan) exchId stored := by
  funext e
  rw [pairsOn, h]
  by_cases he : e = exchId
  · subst he
    rw [if_pos rfl, Function.update_self, Option.getD_some]
  · rw [if_neg he, Function.update_of_ne he, pairsOn]

section Folds

variable (passesFilter : String → String → Bool × UInt16)

/-- The listing of a pair that is open and passes the filters. -/
def listingOf (config : CoinFinderConfig) (exchId : UInt16) (pair : RawPair toUppercase) :
    List Placement :=
  if pair.statusOk = true ∧ accepts passesFilter config pair.base pair.quote ≠ none then
    [⟨exchId, pair.base, pair.quote⟩]
  else []

/-- The listings of some exchanges. -/
def listings (config : CoinFinderConfig) (results : List (ExchangeScanResult toUppercase)) :
    List Placement :=
  results.flatMap fun result =>
    result.pairs.flatMap (listingOf passesFilter config result.exchangeId)

/-- The base and the quote of a custom symbol that passes the filters. -/
def customPair (config : CoinFinderConfig) (mapping : CustomMapping toUppercase) :
    Option (String × String) :=
  (splitCustom config.quoteAnchors mapping.symbol).filter fun pair =>
    (accepts passesFilter config pair.1 pair.2).isSome

/-- The bases of some mappings. -/
def mappedBases (config : CoinFinderConfig) (mappings : List (CustomMapping toUppercase)) :
    List String :=
  mappings.filterMap fun mapping => (customPair passesFilter config mapping).map Prod.fst

/-- The placements that a mapping asks for. -/
def placementsOf (config : CoinFinderConfig) (mapping : CustomMapping toUppercase) :
    List Placement :=
  (customPair passesFilter config mapping).elim [] fun pair =>
    mapping.exchangeIds.map fun exchId => ⟨exchId, pair.1, pair.2⟩

/-- The placements that some mappings ask for. -/
def placements (config : CoinFinderConfig) (mappings : List (CustomMapping toUppercase)) :
    List Placement :=
  mappings.flatMap (placementsOf passesFilter config)

/-- One pair of an exchange, whose accepted pairs are not stored yet. -/
lemma Gathered.scanPair {listed : List Placement} {exchId : UInt16} {acc : Scan × List PairEntry}
    (h : Gathered f (listed.map Placement.base) listed [] acc.1.finder
      (Function.update (pairsOn acc.1) exchId acc.2) (groupOf acc.1.tokenExchangePresence))
    (pair : RawPair toUppercase) :
    Gathered f ((listed ++ listingOf passesFilter f.config exchId pair).map Placement.base)
        (listed ++ listingOf passesFilter f.config exchId pair) []
        (CoinFinder.scanPair toUppercase passesFilter exchId acc pair).1.finder
        (Function.update (pairsOn acc.1) exchId
          (CoinFinder.scanPair toUppercase passesFilter exchId acc pair).2)
        (groupOf
          (CoinFinder.scanPair toUppercase passesFilter exchId acc pair).1.tokenExchangePresence) ∧
      (CoinFinder.scanPair toUppercase passesFilter exchId acc pair).1.exchangePairs =
        acc.1.exchangePairs := by
  unfold CoinFinder.scanPair
  rw [h.numbered.config, listingOf]
  by_cases hok : pair.statusOk = true
  · rw [if_pos hok]
    cases haccepts : accepts passesFilter f.config pair.base pair.quote with
    | none =>
      rw [if_neg (by simp), List.append_nil]
      exact ⟨h, rfl⟩
    | some category =>
      obtain ⟨hnumbered, hanswer, hmapped, hpairs, hpresence⟩ :=
        h.numbered.register pair.base_upper category
      have hregister := h.register hnumbered hmapped
      have hbase : pair.base ∈ listed.map Placement.base ++ [pair.base] := by simp
      rw [if_pos ⟨hok, by simp⟩, List.map_append]
      dsimp only
      cases hid : (acc.1.register toUppercase pair.base category).1 with
      | none =>
        rw [hid] at hanswer
        dsimp only
        rw [hpresence]
        refine ⟨hregister.skip hbase fun hknown => hknown hanswer.symm, hpairs⟩
      | some tokenId =>
        rw [hid] at hanswer
        have hrecord : ∀ t e', e' ∈ groupOf (record acc.1.tokenExchangePresence tokenId exchId) t ↔
            t = tokenId ∧ e' = exchId ∨ e' ∈ groupOf acc.1.tokenExchangePresence t :=
          fun t e' => mem_groupOf_record
        have hlist := hregister.list (p := ⟨tokenId, pair.base, pair.quote, pair.rawSymbol⟩) hbase
          hanswer.symm hrecord
        rw [Function.update_self, Function.update_idem] at hlist
        dsimp only
        rw [hpresence]
        exact ⟨hlist, hpairs⟩
  · rw [if_neg hok, if_neg fun hall => hok hall.1, List.append_nil]
    exact ⟨h, rfl⟩

/-- The pairs of an exchange. -/
lemma Gathered.foldl_scanPair {exchId : UInt16} (pairs : List (RawPair toUppercase))
    {listed : List Placement} {acc : Scan × List PairEntry}
    (h : Gathered f (listed.map Placement.base) listed [] acc.1.finder
      (Function.update (pairsOn acc.1) exchId acc.2) (groupOf acc.1.tokenExchangePresence)) :
    let after := pairs.foldl (CoinFinder.scanPair toUppercase passesFilter exchId) acc
    let listed' := listed ++ pairs.flatMap (listingOf passesFilter f.config exchId)
    Gathered f (listed'.map Placement.base) listed' [] after.1.finder
        (Function.update (pairsOn acc.1) exchId after.2) (groupOf after.1.tokenExchangePresence) ∧
      after.1.exchangePairs = acc.1.exchangePairs := by
  induction pairs generalizing acc listed with
  | nil =>
    rw [List.flatMap_nil, List.append_nil]
    exact ⟨h, rfl⟩
  | cons pair pairs ih =>
    obtain ⟨hpair, hstored⟩ := h.scanPair passesFilter pair
    have hsame : pairsOn (CoinFinder.scanPair toUppercase passesFilter exchId acc pair).1 =
        pairsOn acc.1 := funext fun e => by rw [pairsOn, hstored, pairsOn]
    rw [← hsame] at hpair
    obtain ⟨hall, hstored'⟩ := ih hpair
    rw [List.flatMap_cons, ← List.append_assoc]
    rw [hsame] at hall
    exact ⟨hall, hstored'.trans hstored⟩

/-- The answer of an exchange that was not stored before. -/
lemma Gathered.scanResult {listed : List Placement} {scan : Scan}
    (h : Gathered f (listed.map Placement.base) listed [] scan.finder (pairsOn scan)
      (groupOf scan.tokenExchangePresence)) (result : ExchangeScanResult toUppercase)
    (hnew : scan.exchangePairs.lookup result.exchangeId = none) :
    let after := CoinFinder.scanResult toUppercase passesFilter scan result
    let listed' :=
      listed ++ result.pairs.flatMap (listingOf passesFilter f.config result.exchangeId)
    Gathered f (listed'.map Placement.base) listed' [] after.finder (pairsOn after)
        (groupOf after.tokenExchangePresence) ∧
      ∀ e ≠ result.exchangeId, after.exchangePairs.lookup e = scan.exchangePairs.lookup e := by
  have hbegin : Function.update (pairsOn scan) result.exchangeId [] = pairsOn scan :=
    Function.update_eq_self_iff.mpr (by rw [pairsOn, hnew]; rfl)
  have hstart : Gathered f (listed.map Placement.base) listed []
      (scan, ([] : List PairEntry)).1.finder (Function.update (pairsOn scan) result.exchangeId [])
      (groupOf scan.tokenExchangePresence) := by
    rw [hbegin]
    exact h
  obtain ⟨hall, hstored⟩ := Gathered.foldl_scanPair passesFilter result.pairs hstart
  have hlookup := lookup_scanResult passesFilter scan result hstored
  have hpairs : pairsOn (CoinFinder.scanResult toUppercase passesFilter scan result) =
      Function.update (pairsOn scan) result.exchangeId
        (result.pairs.foldl (CoinFinder.scanPair toUppercase passesFilter result.exchangeId)
          (scan, [])).2 := pairsOn_of_lookup hlookup
  refine ⟨?_, fun e he => ?_⟩
  · rw [hpairs]
    exact hall
  · rw [hlookup, if_neg he]

/-- The answers of different exchanges. -/
lemma Gathered.foldl_scanResult (results : List (ExchangeScanResult toUppercase))
    {listed : List Placement} {scan : Scan}
    (h : Gathered f (listed.map Placement.base) listed [] scan.finder (pairsOn scan)
      (groupOf scan.tokenExchangePresence))
    (hnodup : (results.map ExchangeScanResult.exchangeId).Nodup)
    (hnew : ∀ result ∈ results, scan.exchangePairs.lookup result.exchangeId = none) :
    let after := results.foldl (CoinFinder.scanResult toUppercase passesFilter) scan
    let listed' := listed ++ listings passesFilter f.config results
    Gathered f (listed'.map Placement.base) listed' [] after.finder (pairsOn after)
      (groupOf after.tokenExchangePresence) := by
  induction results generalizing scan listed with
  | nil =>
    rw [listings, List.flatMap_nil, List.append_nil]
    exact h
  | cons result results ih =>
    rw [List.map_cons, List.nodup_cons] at hnodup
    obtain ⟨hresult, hother⟩ := h.scanResult passesFilter result (hnew result List.mem_cons_self)
    rw [listings, List.flatMap_cons, ← List.append_assoc]
    refine ih hresult hnodup.2 fun r hr => ?_
    have hne : r.exchangeId ≠ result.exchangeId :=
      fun heq => hnodup.1 (List.mem_map.mpr ⟨r, hr, heq⟩)
    rw [hother _ hne]
    exact hnew r (List.mem_cons_of_mem _ hr)

section Mapping

variable {bases : List String} {listed mapped : List Placement} {scan : Scan}

/-- A token is put on an exchange. -/
lemma Gathered.mapToken
    (h : Gathered f bases listed mapped scan.finder (pairsOn scan)
      (groupOf scan.tokenExchangePresence)) {entry : PairEntry} (hbase : entry.base ∈ bases)
    (hid : scan.finder.globalSymbolMap entry.base = some entry.tokenId) (exchId : UInt16) :
    let after := CoinFinder.mapToken entry scan exchId
    Gathered f bases listed (mapped ++ [⟨exchId, entry.base, entry.quote⟩]) after.finder
        (pairsOn after) (groupOf after.tokenExchangePresence) ∧
      after.finder = scan.finder := by
  unfold CoinFinder.mapToken
  split_ifs with hthere
  · refine ⟨h.mapSkip hbase fun _ => ?_, rfl⟩
    obtain ⟨p, hp, htoken⟩ := List.mem_map.mp hthere
    have hpid := h.named exchId p hp
    rw [htoken] at hpid
    exact ⟨p, hp, h.numbered.ordered.inj _ _ _ hpid hid⟩
  · have hpairs : ∀ scan', scan'.exchangePairs =
        upsert exchId (fun pairs => pairs.getD [] ++ [entry]) scan.exchangePairs →
          pairsOn scan' =
            Function.update (pairsOn scan) exchId (pairsOn scan exchId ++ [entry]) :=
      fun scan' heq => pairsOn_of_lookup fun e => by rw [heq, lookup_upsert, pairsOn]
    refine ⟨?_, rfl⟩
    dsimp only
    rw [hpairs _ rfl]
    exact h.map hbase hid hthere fun t e' => mem_groupOf_record

/-- A token is put on several exchanges. -/
lemma Gathered.foldl_mapToken (exchIds : List UInt16) (entry : PairEntry)
    (h : Gathered f bases listed mapped scan.finder (pairsOn scan)
      (groupOf scan.tokenExchangePresence)) (hbase : entry.base ∈ bases)
    (hid : scan.finder.globalSymbolMap entry.base = some entry.tokenId) :
    let after := exchIds.foldl (CoinFinder.mapToken entry) scan
    Gathered f bases listed
      (mapped ++ exchIds.map fun exchId => ⟨exchId, entry.base, entry.quote⟩) after.finder
      (pairsOn after) (groupOf after.tokenExchangePresence) := by
  induction exchIds generalizing scan mapped with
  | nil =>
    rw [List.map_nil, List.append_nil]
    exact h
  | cons exchId exchIds ih =>
    obtain ⟨hstep, hfinder⟩ := h.mapToken hbase hid exchId
    rw [List.map_cons, List.append_cons]
    exact ih hstep (by rwa [hfinder])

/-- Without an id nothing is put anywhere. -/
lemma Gathered.mapNone (exchIds : List UInt16)
    (h : Gathered f bases listed mapped scan.finder (pairsOn scan)
      (groupOf scan.tokenExchangePresence)) {base quote : String} (hbase : base ∈ bases)
    (hid : ¬ scan.finder.HasId base) :
    Gathered f bases listed (mapped ++ exchIds.map fun exchId => ⟨exchId, base, quote⟩)
      scan.finder (pairsOn scan) (groupOf scan.tokenExchangePresence) := by
  induction exchIds generalizing mapped with
  | nil =>
    rw [List.map_nil, List.append_nil]
    exact h
  | cons exchId exchIds ih =>
    rw [List.map_cons, List.append_cons]
    exact ih (h.mapSkip hbase fun hknown => absurd hknown hid)

/-- A custom mapping. -/
lemma Gathered.applyMapping
    (h : Gathered f bases listed mapped scan.finder (pairsOn scan)
      (groupOf scan.tokenExchangePresence)) (mapping : CustomMapping toUppercase) :
    let after := CoinFinder.applyMapping toUppercase passesFilter scan mapping
    Gathered f (bases ++ mappedBases passesFilter f.config [mapping]) listed
      (mapped ++ placementsOf passesFilter f.config mapping) after.finder (pairsOn after)
      (groupOf after.tokenExchangePresence) := by
  have hskip : customPair passesFilter f.config mapping = none →
      bases ++ mappedBases passesFilter f.config [mapping] = bases ∧
        mapped ++ placementsOf passesFilter f.config mapping = mapped := by
    intro hnone
    simp [mappedBases, placementsOf, hnone]
  unfold CoinFinder.applyMapping
  rw [h.numbered.config]
  cases hsplit : splitCustom f.config.quoteAnchors mapping.symbol with
  | none =>
    obtain ⟨hbases, hmapped⟩ := hskip (by rw [customPair, hsplit]; rfl)
    rw [hbases, hmapped]
    exact h
  | some pair =>
    obtain ⟨base, quote⟩ := pair
    dsimp only
    cases haccepts : accepts passesFilter f.config base quote with
    | none =>
      obtain ⟨hbases, hmapped⟩ := hskip (by simp [customPair, hsplit, haccepts])
      rw [hbases, hmapped]
      exact h
    | some category =>
      have hpair : customPair passesFilter f.config mapping = some (base, quote) := by
        simp [customPair, hsplit, haccepts]
      have hbases : mappedBases passesFilter f.config [mapping] = [base] := by
        simp [mappedBases, hpair]
      have hplacements : placementsOf passesFilter f.config mapping =
          mapping.exchangeIds.map fun exchId => ⟨exchId, base, quote⟩ := by
        rw [placementsOf, hpair]
        rfl
      obtain ⟨hnumbered, hanswer, hmonotone, hpairs, hpresence⟩ :=
        h.numbered.register (upper_of_splitCustom hsplit) category
      have hsame : pairsOn (scan.register toUppercase base category).2 = pairsOn scan :=
        funext fun e => by rw [pairsOn, hpairs, pairsOn]
      have hregister := h.register hnumbered hmonotone
      rw [← hsame, ← hpresence] at hregister
      have hbase : base ∈ bases ++ [base] := by simp
      rw [hbases, hplacements]
      dsimp only
      cases hid : (scan.register toUppercase base category).1 with
      | none =>
        rw [hid] at hanswer
        exact hregister.mapNone mapping.exchangeIds hbase fun hknown => hknown hanswer.symm
      | some tokenId =>
        rw [hid] at hanswer
        exact hregister.foldl_mapToken mapping.exchangeIds ⟨tokenId, base, quote, mapping.symbol⟩
          hbase hanswer.symm

/-- All custom mappings. -/
lemma Gathered.foldl_applyMapping (mappings : List (CustomMapping toUppercase))
    (h : Gathered f bases listed mapped scan.finder (pairsOn scan)
      (groupOf scan.tokenExchangePresence)) :
    let after := mappings.foldl (CoinFinder.applyMapping toUppercase passesFilter) scan
    Gathered f (bases ++ mappedBases passesFilter f.config mappings) listed
      (mapped ++ placements passesFilter f.config mappings) after.finder (pairsOn after)
      (groupOf after.tokenExchangePresence) := by
  induction mappings generalizing scan bases mapped with
  | nil => simpa [mappedBases, placements] using h
  | cons mapping mappings ih =>
    have hcons : mappedBases passesFilter f.config (mapping :: mappings) =
        mappedBases passesFilter f.config [mapping] ++
          mappedBases passesFilter f.config mappings := by
      rw [← List.singleton_append, mappedBases, List.filterMap_append]
      rfl
    rw [hcons, ← List.append_assoc, placements, List.flatMap_cons, ← List.append_assoc]
    exact ih (h.applyMapping passesFilter mapping)

end Mapping

/-- The bases for which a cycle requests ids, in order. -/
def requests (config : CoinFinderConfig) (input : CycleInput toUppercase) : List String :=
  (listings passesFilter config input.results).map Placement.base ++
    mappedBases passesFilter config input.customMappings

/-- What a cycle has gathered from the answers and the mappings. -/
lemma gathered_gather (hf : Ordered f) (input : CycleInput toUppercase) :
    let scan := gather toUppercase passesFilter f input
    Gathered f (requests passesFilter f.config input)
      (listings passesFilter f.config input.results)
      (placements passesFilter f.config input.customMappings) scan.finder (pairsOn scan)
      (groupOf scan.tokenExchangePresence) := by
  have hbegin : Gathered f (([] : List Placement).map Placement.base) [] []
      (Scan.mk (f.withPrices input) [] [] []).finder
      (pairsOn ⟨f.withPrices input, [], [], []⟩)
      (groupOf (Scan.mk (f.withPrices input) [] [] []).tokenExchangePresence) := by
    obtain ⟨hid, hnext, hordered, hconfig⟩ := Numbered.refl hf
    exact ⟨⟨hid, hnext, ⟨hordered.lt_next, hordered.inj⟩, hconfig⟩, nofun, nofun, nofun, nofun,
      nofun, nofun, nofun⟩
  have hnew : ∀ result ∈ input.results,
      (Scan.mk (f.withPrices input) [] [] []).exchangePairs.lookup result.exchangeId = none :=
    fun _ _ => rfl
  have hscanned := Gathered.foldl_scanResult passesFilter input.results hbegin input.results_nodup
    hnew
  exact Gathered.foldl_applyMapping passesFilter input.customMappings hscanned

end Folds

end CoinFinder

end HftArb
