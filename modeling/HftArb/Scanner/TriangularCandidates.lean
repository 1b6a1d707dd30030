import HftArb.Foundations.Triangles
import HftArb.Strategies.ArenaUpdates

/-!
# Triangular candidates of the asset inventory

The inventory counts and lists the triangles of an exchange's pairs, taken without direction: any
three tokens with a listed pair between each two of them.  The arena compiles its loops from the
same pairs taken with direction, from the base to the quote.

`reportedTriangles_spec` compares the three: the estimate is the number of triangles, the list has
each of them once, and the arena stores a loop over those that are a directed cycle.  The order of
the hash maps is a parameter, `Adjacency`.
-/

namespace HftArb

open Triangles

/-- Token ids in their numeric order. -/
local instance linearOrderUInt16 : LinearOrder UInt16 where
  le := (· ≤ ·)
  lt := (· < ·)
  le_refl := UInt16.le_refl
  le_trans := fun _ _ _ => UInt16.le_trans
  lt_iff_le_not_ge := by
    intro a b
    rw [UInt16.lt_iff_toNat_lt, UInt16.le_iff_toNat_le, UInt16.le_iff_toNat_le]
    omega
  le_antisymm := fun _ _ => UInt16.le_antisymm
  le_total := UInt16.le_total
  toDecidableLE := inferInstance
  toDecidableLT := inferInstance
  toDecidableEq := instDecidableEqUInt16

/-- A pair of the two tokens is listed, in one direction or the other. -/
def Linked (pairs : List (UInt16 × UInt16)) (a b : UInt16) : Prop :=
  (a, b) ∈ pairs ∨ (b, a) ∈ pairs

/-- A pair from the first token to the second is listed. -/
def Directed (pairs : List (UInt16 × UInt16)) (a b : UInt16) : Prop := (a, b) ∈ pairs

/-- The map from a token to the tokens it is paired with, in the order of its iterators. -/
structure Adjacency (pairs : List (UInt16 × UInt16)) where
  nodes : List UInt16
  neighbors : UInt16 → List UInt16
  nodup_nodes : nodes.Nodup
  mem_nodes : ∀ a, a ∈ nodes ↔ ∃ b, Linked pairs a b
  nodup_neighbors : ∀ a, (neighbors a).Nodup
  mem_neighbors : ∀ a b, b ∈ neighbors a ↔ Linked pairs a b

namespace Adjacency

variable {pairs : List (UInt16 × UInt16)} (adj : Adjacency pairs)

/-- The steps of the three nested loops: a token, a neighbor of it and a neighbor of that one. -/
def walks : List (UInt16 × UInt16 × UInt16) :=
  adj.nodes.flatMap fun a => (adj.neighbors a).flatMap fun b =>
    (adj.neighbors b).map fun c => (a, b, c)

/-- The number of triangular loops: closed walks over three tokens, each loop met six times. -/
def estimateTriangularLoops : ℕ :=
  if pairs.length < 3 then 0
  else
    (adj.walks.filter fun t =>
      t.2.1 ≠ t.1 ∧ t.2.2 ≠ t.1 ∧ t.2.2 ≠ t.2.1 ∧ t.1 ∈ adj.neighbors t.2.2).length / 6

/-- Add a loop that was not seen before; the search ends with fifty of them. -/
def pushLoop (result : List (UInt16 × UInt16 × UInt16)) (key : UInt16 × UInt16 × UInt16) :
    List (UInt16 × UInt16 × UInt16) :=
  if 50 ≤ result.length then result
  else if key ∈ result then result
  else result ++ [key]

/-- The triangular loops, each with its tokens in ascending order. -/
def findTriangularLoops : List (UInt16 × UInt16 × UInt16) :=
  if pairs.length < 3 then []
  else
    (adj.walks.filter fun t =>
      t.1 < t.2.1 ∧ t.2.1 < t.2.2 ∧ t.1 ∈ adj.neighbors t.2.2).foldl pushLoop []

/-- The map with its keys in the order of the pairs. -/
def build (pairs : List (UInt16 × UInt16)) : Adjacency pairs where
  nodes := (pairs.flatMap fun p => [p.1, p.2]).dedup
  neighbors := fun a =>
    (pairs.flatMap fun p =>
      (if p.1 = a then [p.2] else []) ++ (if p.2 = a then [p.1] else [])).dedup
  nodup_nodes := List.nodup_dedup _
  mem_nodes := by
    intro a
    simp only [List.mem_dedup, List.mem_flatMap, List.mem_cons, List.not_mem_nil, or_false,
      Linked, exists_or]
    constructor
    · rintro ⟨⟨x, y⟩, hp, rfl | rfl⟩
      · exact Or.inl ⟨y, hp⟩
      · exact Or.inr ⟨x, hp⟩
    · rintro (⟨b, hp⟩ | ⟨b, hp⟩)
      · exact ⟨(a, b), hp, Or.inl rfl⟩
      · exact ⟨(b, a), hp, Or.inr rfl⟩
  nodup_neighbors := fun _ => List.nodup_dedup _
  mem_neighbors := by
    intro a b
    rw [List.mem_dedup, List.mem_flatMap]
    constructor
    · rintro ⟨⟨x, y⟩, hp, hmem⟩
      rw [List.mem_append, List.mem_ite_nil_right, List.mem_ite_nil_right, List.mem_singleton,
        List.mem_singleton] at hmem
      rcases hmem with ⟨rfl, rfl⟩ | ⟨rfl, rfl⟩
      · exact Or.inl hp
      · exact Or.inr hp
    · rintro (hp | hp)
      · exact ⟨(a, b), hp, by simp⟩
      · exact ⟨(b, a), hp, by simp⟩

end Adjacency

/-! ## Walks and triangles -/

variable {pairs : List (UInt16 × UInt16)}

lemma linked_symm (a b : UInt16) (h : Linked pairs a b) : Linked pairs b a := h.symm

namespace Adjacency

variable (adj : Adjacency pairs)

/-- The walks follow two linked steps. -/
lemma mem_walks {t : UInt16 × UInt16 × UInt16} :
    t ∈ adj.walks ↔ Linked pairs t.1 t.2.1 ∧ Linked pairs t.2.1 t.2.2 := by
  obtain ⟨a, b, c⟩ := t
  simp only [walks, List.mem_flatMap, List.mem_map, Prod.mk.injEq]
  constructor
  · rintro ⟨a, -, b, hb, c, hc, rfl, rfl, rfl⟩
    exact ⟨(adj.mem_neighbors _ _).mp hb, (adj.mem_neighbors _ _).mp hc⟩
  · rintro ⟨hab, hbc⟩
    exact ⟨a, (adj.mem_nodes a).mpr ⟨b, hab⟩, b, (adj.mem_neighbors _ _).mpr hab, c,
      (adj.mem_neighbors _ _).mpr hbc, rfl, rfl, rfl⟩

/-- No walk is made twice. -/
lemma nodup_walks : adj.walks.Nodup := by
  have hinner : ∀ a, ((adj.neighbors a).flatMap fun b =>
      (adj.neighbors b).map fun c => (a, b, c)).Nodup := by
    intro a
    rw [List.nodup_flatMap]
    constructor
    · intro b _
      refine (adj.nodup_neighbors b).map ?_
      intro c c' h
      simpa using h
    · refine (adj.nodup_neighbors a).imp ?_
      intro b b' hne t ht ht'
      obtain ⟨c, -, rfl⟩ := List.mem_map.mp ht
      obtain ⟨c', -, heq⟩ := List.mem_map.mp ht'
      exact hne (Prod.mk.inj (Prod.mk.inj heq).2).1.symm
  rw [walks, List.nodup_flatMap]
  refine ⟨fun a _ => hinner a, adj.nodup_nodes.imp ?_⟩
  intro a a' hne t ht ht'
  obtain ⟨b, -, hb⟩ := List.mem_flatMap.mp ht
  obtain ⟨b', -, hb'⟩ := List.mem_flatMap.mp ht'
  obtain ⟨c, -, rfl⟩ := List.mem_map.mp hb
  obtain ⟨c', -, heq⟩ := List.mem_map.mp hb'
  exact hne (Prod.mk.inj heq).1.symm

/-- Three linked tokens need three pairs. -/
lemma three_le_length {t : UInt16 × UInt16 × UInt16} (h : IsCycle (Linked pairs) t) :
    3 ≤ pairs.length := by
  obtain ⟨a, b, c⟩ := t
  obtain ⟨hab, hac, hbc, h₁, h₂, h₃⟩ := h
  have hedge : ∀ {x y}, Linked pairs x y →
      s(x, y) ∈ (pairs.map fun p => s(p.1, p.2)).toFinset := by
    intro x y hxy
    rw [List.mem_toFinset, List.mem_map]
    rcases hxy with hxy | hxy
    · exact ⟨(x, y), hxy, rfl⟩
    · exact ⟨(y, x), hxy, Sym2.eq_swap⟩
  have hsub : ({s(a, b), s(b, c), s(c, a)} : Finset (Sym2 UInt16)) ⊆
      (pairs.map fun p => s(p.1, p.2)).toFinset := by
    intro e he
    simp only [Finset.mem_insert, Finset.mem_singleton] at he
    rcases he with rfl | rfl | rfl
    · exact hedge h₁
    · exact hedge h₂
    · exact hedge h₃
  have hcard : ({s(a, b), s(b, c), s(c, a)} : Finset (Sym2 UInt16)).card = 3 := by
    rw [Finset.card_eq_three]
    refine ⟨_, _, _, ?_, ?_, ?_, rfl⟩ <;> simp [hab, hab.symm, hac, hac.symm, hbc]
  calc 3 = ({s(a, b), s(b, c), s(c, a)} : Finset (Sym2 UInt16)).card := hcard.symm
    _ ≤ (pairs.map fun p => s(p.1, p.2)).toFinset.card := Finset.card_le_card hsub
    _ ≤ (pairs.map fun p => s(p.1, p.2)).length := List.toFinset_card_le _
    _ = pairs.length := List.length_map _

/-- The closed walks over distinct tokens are the cycles. -/
lemma mem_closed_iff {t : UInt16 × UInt16 × UInt16} :
    t ∈ (adj.walks.filter fun t =>
        t.2.1 ≠ t.1 ∧ t.2.2 ≠ t.1 ∧ t.2.2 ≠ t.2.1 ∧ t.1 ∈ adj.neighbors t.2.2) ↔
      IsCycle (Linked pairs) t := by
  rw [List.mem_filter, decide_eq_true_iff, adj.mem_walks, adj.mem_neighbors]
  constructor
  · rintro ⟨⟨h₁, h₂⟩, hba, hca, hcb, h₃⟩
    exact ⟨hba.symm, hca.symm, hcb.symm, h₁, h₂, h₃⟩
  · rintro ⟨hab, hac, hbc, h₁, h₂, h₃⟩
    exact ⟨⟨h₁, h₂⟩, hab.symm, hac.symm, hbc.symm, h₃⟩

/-- The estimate is the number of triangles. -/
lemma estimateTriangularLoops_eq :
    adj.estimateTriangularLoops = {s | IsTriangle (Linked pairs) s}.ncard := by
  unfold estimateTriangularLoops
  by_cases hlen : pairs.length < 3
  · have hnone : {s | IsTriangle (Linked pairs) s} = ∅ := by
      rw [Set.eq_empty_iff_forall_notMem]
      intro s hs
      obtain ⟨t, ht, -⟩ := (isTriangle_iff linked_symm).mp hs
      exact absurd (three_le_length ht) (not_le.mpr hlen)
    rw [if_pos hlen, hnone, Set.ncard_empty]
  · have hmem : ∀ t, t ∈ (adj.walks.filter fun t =>
        t.2.1 ≠ t.1 ∧ t.2.2 ≠ t.1 ∧ t.2.2 ≠ t.2.1 ∧ t.1 ∈ adj.neighbors t.2.2).toFinset ↔
          IsCycle (Linked pairs) t := by
      intro t
      rw [List.mem_toFinset, adj.mem_closed_iff]
    rw [if_neg hlen, ← List.toFinset_card_of_nodup (adj.nodup_walks.filter _),
      card_orderedTriples linked_symm hmem, Nat.mul_div_cancel_left _ (by norm_num)]

/-- Without repetitions and up to fifty loops the search keeps every loop. -/
lemma foldl_pushLoop {keys : List (UInt16 × UInt16 × UInt16)} :
    ∀ {result : List (UInt16 × UInt16 × UInt16)}, (result ++ keys).Nodup →
      (result ++ keys).length ≤ 50 → keys.foldl pushLoop result = result ++ keys := by
  induction keys with
  | nil => simp
  | cons key keys ih =>
    intro result hnodup hlen
    have hshort : ¬ 50 ≤ result.length := by
      simp only [List.length_append, List.length_cons] at hlen
      omega
    have hnew : key ∉ result := by
      intro hmem
      exact List.disjoint_of_nodup_append hnodup hmem (by simp)
    have hsplit : result ++ key :: keys = (result ++ [key]) ++ keys := by simp
    rw [List.foldl_cons, pushLoop, if_neg hshort, if_neg hnew, hsplit]
    exact ih (hsplit ▸ hnodup) (hsplit ▸ hlen)

/-- The ascending closed walks are the ascending cycles. -/
lemma mem_ascending_iff {t : UInt16 × UInt16 × UInt16} :
    t ∈ (adj.walks.filter fun t =>
        t.1 < t.2.1 ∧ t.2.1 < t.2.2 ∧ t.1 ∈ adj.neighbors t.2.2) ↔
      Ascending t ∧ IsCycle (Linked pairs) t := by
  rw [List.mem_filter, decide_eq_true_iff, adj.mem_walks, adj.mem_neighbors]
  constructor
  · rintro ⟨⟨h₁, h₂⟩, hab, hbc, h₃⟩
    exact ⟨⟨hab, hbc⟩, hab.ne, (hab.trans hbc).ne, hbc.ne, h₁, h₂, h₃⟩
  · rintro ⟨⟨hab, hbc⟩, -, -, -, h₁, h₂, h₃⟩
    exact ⟨⟨h₁, h₂⟩, hab, hbc, h₃⟩

/-- With at most fifty triangles the search lists the ascending cycles, each once. -/
lemma findTriangularLoops_spec (h : {s | IsTriangle (Linked pairs) s}.ncard ≤ 50) :
    adj.findTriangularLoops.Nodup ∧
      ∀ t, t ∈ adj.findTriangularLoops ↔ Ascending t ∧ IsCycle (Linked pairs) t := by
  unfold findTriangularLoops
  by_cases hlen : pairs.length < 3
  · rw [if_pos hlen]
    refine ⟨List.nodup_nil, fun t => ?_⟩
    refine iff_of_false (List.not_mem_nil) ?_
    rintro ⟨-, ht⟩
    exact absurd (three_le_length ht) (not_le.mpr hlen)
  · rw [if_neg hlen]
    set keys := adj.walks.filter fun t =>
      t.1 < t.2.1 ∧ t.2.1 < t.2.2 ∧ t.1 ∈ adj.neighbors t.2.2 with hkeys
    have hnodup : keys.Nodup := adj.nodup_walks.filter _
    have hmem : ∀ t, t ∈ keys ↔ Ascending t ∧ IsCycle (Linked pairs) t :=
      fun t => adj.mem_ascending_iff
    -- the keys are as many as the triangles, so the search does not stop early
    have hverts : {s | IsTriangle (Linked pairs) s} = ↑(keys.toFinset.image vertices) := by
      ext s
      rw [Set.mem_ofPred_eq, isTriangle_iff_ascending linked_symm]
      simp only [Finset.coe_image, Set.mem_image, Finset.mem_coe, List.mem_toFinset, hmem,
        and_assoc]
    have hinj : Set.InjOn vertices (keys.toFinset : Set (UInt16 × UInt16 × UInt16)) := by
      intro t ht u hu heq
      rw [Finset.mem_coe, List.mem_toFinset, hmem] at ht hu
      exact ht.1.eq_of_vertices hu.1 heq
    have hlength : keys.length ≤ 50 := by
      rwa [hverts, Set.ncard_coe_finset, Finset.card_image_of_injOn hinj,
        List.toFinset_card_of_nodup hnodup] at h
    rw [foldl_pushLoop (by simpa using hnodup) (by simpa using hlength), List.nil_append]
    exact ⟨hnodup, hmem⟩

end Adjacency

/-! ## The loops of the arena -/

/-- The tokens of a loop. -/
def TriangularLoop.tokenSet (l : TriangularLoop) : Finset UInt16 :=
  vertices (l.tokenA, l.tokenB, l.tokenC)

open MarketArena in
/-- The loops found are the directed cycles with their smallest token first. -/
lemma mem_findLoops_iff {l : TriangularLoop} :
    l ∈ findLoops pairs ↔
      IsCycle (Directed pairs) (l.tokenA, l.tokenB, l.tokenC) ∧
        l.tokenA < l.tokenB ∧ l.tokenA < l.tokenC := by
  have hneighbours : ∀ a b, b ∈ neighbours pairs a ↔ Directed pairs a b := by
    intro a b
    simp only [neighbours, List.mem_filterMap, Option.ite_none_right_eq_some, Option.some.injEq,
      Prod.exists, Directed]
    constructor
    · rintro ⟨x, y, hp, rfl, rfl⟩
      exact hp
    · intro hp
      exact ⟨a, b, hp, rfl, rfl⟩
  obtain ⟨a, b, c⟩ := l
  simp only [findLoops, List.mem_flatMap, List.mem_dedup, List.mem_map, hneighbours,
    List.mem_ite_nil_left, List.mem_ite_nil_right, List.mem_singleton, TriangularLoop.mk.injEq]
  constructor
  · rintro ⟨a, -, b, hab, hba, c, hbc, hne, ⟨hca, hlt₁, hlt₂⟩, rfl, rfl, rfl⟩
    rw [not_or] at hne
    exact ⟨⟨Ne.symm hba, Ne.symm hne.1, Ne.symm hne.2, hab, hbc, hca⟩, hlt₁, hlt₂⟩
  · rintro ⟨⟨hab, hac, hbc, h₁, h₂, h₃⟩, hlt₁, hlt₂⟩
    exact ⟨a, ⟨(a, b), h₁, rfl⟩, b, h₁, hab.symm, c, h₂, by simp [hac.symm, hbc.symm],
      ⟨h₃, hlt₁, hlt₂⟩, rfl, rfl, rfl⟩

/-- A cycle can be turned until its smallest element comes first. -/
lemma exists_first_min {r : UInt16 → UInt16 → Prop} {t : UInt16 × UInt16 × UInt16}
    (h : IsCycle r t) :
    ∃ u : UInt16 × UInt16 × UInt16, IsCycle r u ∧ u.1 < u.2.1 ∧ u.1 < u.2.2 ∧
      vertices u = vertices t := by
  obtain ⟨a, b, c⟩ := t
  obtain ⟨hab, hac, hbc, h₁, h₂, h₃⟩ := h
  have harrange : ∀ u : UInt16 × UInt16 × UInt16, u = (a, b, c) ∨ u = (b, c, a) ∨ u = (c, a, b) →
      vertices u = vertices (a, b, c) := by
    intro u hu
    rw [show vertices (a, b, c) = {a, b, c} from rfl, vertices_eq_iff hab hac hbc]
    rcases hu with rfl | rfl | rfl <;> simp
  rcases lt_or_gt_of_ne hab with hlt | hgt
  · rcases lt_or_gt_of_ne hac with hlt' | hgt'
    · exact ⟨(a, b, c), ⟨hab, hac, hbc, h₁, h₂, h₃⟩, hlt, hlt', rfl⟩
    · exact ⟨(c, a, b), ⟨hac.symm, hbc.symm, hab, h₃, h₁, h₂⟩, hgt', hgt'.trans hlt,
        harrange _ (by simp)⟩
  · rcases lt_or_gt_of_ne hbc with hlt' | hgt'
    · exact ⟨(b, c, a), ⟨hbc, hab.symm, hac.symm, h₂, h₃, h₁⟩, hlt', hgt, harrange _ (by simp)⟩
    · exact ⟨(c, a, b), ⟨hac.symm, hbc.symm, hab, h₃, h₁, h₂⟩, hgt'.trans hgt, hgt',
        harrange _ (by simp)⟩

/-- The arena stores a loop over three tokens exactly when they form a directed cycle. -/
lemma stored_iff {arena : MarketArena} {exchangePairs : List (UInt16 × List (UInt16 × UInt16))}
    {exchangeId : UInt16} (hpairs : exchangePairs.lookup exchangeId = some pairs)
    {s : Finset UInt16} :
    (∃ loops, (arena.buildTriangularLoops exchangePairs).triLoops exchangeId = some loops ∧
        ∃ l ∈ loops, l.tokenSet = s) ↔
      ∃ t, IsCycle (Directed pairs) t ∧ vertices t = s := by
  constructor
  · rintro ⟨loops, hloops, l, hl, rfl⟩
    obtain ⟨pairs', hpairs', rfl⟩ := MarketArena.triLoops_buildTriangularLoops hloops
    obtain rfl := Option.some.inj (hpairs.symm.trans hpairs')
    exact ⟨_, (mem_findLoops_iff.mp hl).1, rfl⟩
  · rintro ⟨t, ht, rfl⟩
    obtain ⟨⟨a, b, c⟩, hcycle, hab, hac, hverts⟩ := exists_first_min ht
    have hmem : (⟨a, b, c⟩ : TriangularLoop) ∈ MarketArena.findLoops pairs :=
      mem_findLoops_iff.mpr ⟨hcycle, hab, hac⟩
    refine ⟨MarketArena.findLoops pairs, ?_, ⟨a, b, c⟩, hmem, hverts⟩
    simp only [MarketArena.buildTriangularLoops, hpairs]
    exact if_neg (List.ne_nil_of_mem hmem)

/-- For the pairs of an exchange with at most fifty triangles the estimate is their number, the
search lists each of them once with its tokens in ascending order, and the arena stores a loop over
exactly those of them that are a directed cycle. -/
theorem reportedTriangles_spec {pairs : List (UInt16 × UInt16)} (estimated listed : Adjacency pairs)
    (hfew : {s | IsTriangle (Linked pairs) s}.ncard ≤ 50) (arena : MarketArena)
    {exchangePairs : List (UInt16 × List (UInt16 × UInt16))} {exchangeId : UInt16}
    (hpairs : exchangePairs.lookup exchangeId = some pairs) :
    estimated.estimateTriangularLoops = {s | IsTriangle (Linked pairs) s}.ncard ∧
      (listed.findTriangularLoops.map vertices).Nodup ∧
      (∀ t ∈ listed.findTriangularLoops, t.1 < t.2.1 ∧ t.2.1 < t.2.2) ∧
      (∀ s, s ∈ listed.findTriangularLoops.map vertices ↔ IsTriangle (Linked pairs) s) ∧
      ∀ s, (∃ loops, (arena.buildTriangularLoops exchangePairs).triLoops exchangeId = some loops ∧
          ∃ l ∈ loops, l.tokenSet = s) ↔
        IsTriangle (Linked pairs) s ∧ ∃ t, IsCycle (Directed pairs) t ∧ vertices t = s := by
  obtain ⟨hnodup, hmem⟩ := listed.findTriangularLoops_spec hfew
  refine ⟨estimated.estimateTriangularLoops_eq, ?_, fun t ht => ((hmem t).mp ht).1, ?_, ?_⟩
  · rw [List.nodup_map_iff_inj_on hnodup]
    intro t ht u hu heq
    exact ((hmem t).mp ht).1.eq_of_vertices ((hmem u).mp hu).1 heq
  · intro s
    simp only [List.mem_map, hmem, isTriangle_iff_ascending linked_symm, and_assoc]
  · intro s
    rw [stored_iff hpairs]
    refine (and_iff_right_of_imp ?_).symm
    rintro ⟨t, ⟨hab, hac, hbc, h₁, h₂, h₃⟩, rfl⟩
    exact (isTriangle_iff linked_symm).mpr
      ⟨t, ⟨hab, hac, hbc, Or.inl h₁, Or.inl h₂, Or.inl h₃⟩, rfl⟩

/-- Three tokens traded in a circle. -/
def circlePairs : List (UInt16 × UInt16) := [(0, 10), (10, 11), (11, 0)]

/-- The circle is reported and stored. -/
theorem reportedTriangles_spec_circle :
    {s | IsTriangle (Linked circlePairs) s}.ncard = 1 ∧
      ∃ loops, ((MarketArena.new 1 12 (by decide)).buildTriangularLoops
          [(0, circlePairs)]).triLoops 0 = some loops ∧ ∃ l ∈ loops, l.tokenSet = {0, 10, 11} := by
  have hcycle : IsCycle (Directed circlePairs) (0, 10, 11) := by
    simp [IsCycle, Directed, circlePairs]
  have hone : {s | IsTriangle (Linked circlePairs) s}.ncard = 1 := by
    rw [← (Adjacency.build circlePairs).estimateTriangularLoops_eq]
    decide
  have hlookup : [((0 : UInt16), circlePairs)].lookup 0 = some circlePairs := rfl
  obtain ⟨-, -, -, -, hstored⟩ := reportedTriangles_spec (Adjacency.build circlePairs)
    (Adjacency.build circlePairs) (by rw [hone]; decide) (MarketArena.new 1 12 (by decide)) hlookup
  refine ⟨hone, (hstored _).mpr ⟨?_, (0, 10, 11), hcycle, rfl⟩⟩
  refine (isTriangle_iff linked_symm).mpr ⟨(0, 10, 11), ?_, rfl⟩
  simp [IsCycle, Linked, circlePairs]

/-- Two tokens quoted in a third and one of them in the other, as exchanges list them. -/
def listedPairs : List (UInt16 × UInt16) := [(10, 0), (11, 0), (10, 11)]

/-- The triangle of the listed pairs is reported, and the arena stores no loop. -/
theorem listedPairs_not_stored :
    {s | IsTriangle (Linked listedPairs) s}.ncard = 1 ∧
      IsTriangle (Linked listedPairs) {10, 11, 0} ∧
      ((MarketArena.new 1 12 (by decide)).buildTriangularLoops [(0, listedPairs)]).triLoops 0 =
        none := by
  refine ⟨?_, ?_, ?_⟩
  · rw [← (Adjacency.build listedPairs).estimateTriangularLoops_eq]
    decide
  · refine (isTriangle_iff linked_symm).mpr ⟨(10, 11, 0), ?_, rfl⟩
    simp [IsCycle, Linked, listedPairs]
  · decide

end HftArb
