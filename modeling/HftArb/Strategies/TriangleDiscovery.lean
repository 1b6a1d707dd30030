import HftArb.Scanner.TriangularCandidates

/-!
# How often a triangular loop is stored

The pairs of an exchange are a directed multigraph: a pair can be listed more than once.  The
search walks the listed pairs, so a cycle is met once for each way to choose its first and its
second pair among the listed ones (`count_findLoops`); only the closing pair is looked up in a set.

`triangle_discovery_exact_iff` says when every cycle is stored exactly once.
-/

namespace HftArb

open Triangles

/-- When only the chunk of one element can contain `y`, the copies of that element decide how often
`y` occurs. -/
lemma count_flatMap_of_fiber {α β : Type*} [DecidableEq α] [DecidableEq β] {l : List α}
    {f : α → List β} {x₀ : α} {y : β} (h : ∀ x, x ≠ x₀ → y ∉ f x) :
    (l.flatMap f).count y = l.count x₀ * (f x₀).count y := by
  induction l with
  | nil => simp
  | cons x l ih =>
    rw [List.flatMap_cons, List.count_append, ih]
    by_cases heq : x = x₀
    · rw [heq, List.count_cons_self]
      ring
    · rw [List.count_cons_of_ne heq, List.count_eq_zero_of_not_mem (h x heq), Nat.zero_add]

namespace MarketArena

variable {pairs : List (UInt16 × UInt16)}

/-- A token is a neighbour as often as the pair is listed. -/
lemma count_neighbours (a b : UInt16) : (neighbours pairs a).count b = pairs.count (a, b) := by
  rw [neighbours, List.count_filterMap, List.count]
  refine List.countP_congr ?_
  rintro ⟨x, y⟩ -
  by_cases hx : x = a
  · simp [hx]
  · simp [hx]

/-- What the search stores at the end of two steps. -/
def loopsAt (pairs : List (UInt16 × UInt16)) (a b c : UInt16) : List TriangularLoop :=
  if c = a ∨ c = b then []
  else if pairs.contains (c, a) ∧ a < b ∧ a < c then [⟨a, b, c⟩]
  else []

/-- What the search stores after one step. -/
def loopsFrom (pairs : List (UInt16 × UInt16)) (a b : UInt16) : List TriangularLoop :=
  if b = a then [] else (neighbours pairs b).flatMap (loopsAt pairs a b)

lemma findLoops_eq : findLoops pairs =
    (pairs.map Prod.fst).dedup.flatMap fun a =>
      (neighbours pairs a).flatMap (loopsFrom pairs a) := by
  delta findLoops loopsFrom loopsAt
  simp only [List.contains_iff_mem]

/-- Two steps store the loop of their tokens. -/
lemma eq_of_mem_loopsAt {a b c : UInt16} {l : TriangularLoop} (h : l ∈ loopsAt pairs a b c) :
    l = ⟨a, b, c⟩ := by
  unfold loopsAt at h
  split_ifs at h
  · exact absurd h List.not_mem_nil
  · exact List.mem_singleton.mp h
  · exact absurd h List.not_mem_nil

/-- One step stores loops through its tokens. -/
lemma tokens_of_mem_loopsFrom {a b : UInt16} {l : TriangularLoop} (h : l ∈ loopsFrom pairs a b) :
    l.tokenA = a ∧ l.tokenB = b := by
  unfold loopsFrom at h
  split_ifs at h
  · exact absurd h List.not_mem_nil
  · obtain ⟨c, -, hc⟩ := List.mem_flatMap.mp h
    rw [eq_of_mem_loopsAt hc]
    exact ⟨rfl, rfl⟩

/-- A directed cycle of listed pairs that starts with its smallest token. -/
def CanonicalCycle (pairs : List (UInt16 × UInt16)) (l : TriangularLoop) : Prop :=
  IsCycle (Directed pairs) (l.tokenA, l.tokenB, l.tokenC) ∧
    l.tokenA < l.tokenB ∧ l.tokenA < l.tokenC

/-- A cycle is stored once for each listed first pair and each listed second pair. -/
lemma count_findLoops {l : TriangularLoop} (h : CanonicalCycle pairs l) :
    (findLoops pairs).count l =
      pairs.count (l.tokenA, l.tokenB) * pairs.count (l.tokenB, l.tokenC) := by
  obtain ⟨a, b, c⟩ := l
  obtain ⟨⟨hab, hac, hbc, h₁, h₂, h₃⟩, hlt₁, hlt₂⟩ := h
  dsimp only at hab hac hbc h₁ h₂ h₃ hlt₁ hlt₂ ⊢
  have hkey : ((pairs.map Prod.fst).dedup).count a = 1 :=
    List.count_eq_one_of_mem (List.nodup_dedup _)
      (List.mem_dedup.mpr (List.mem_map.mpr ⟨(a, b), h₁, rfl⟩))
  have hfirst : ∀ x, x ≠ a → ⟨a, b, c⟩ ∉ (neighbours pairs x).flatMap (loopsFrom pairs x) := by
    intro x hx hmem
    obtain ⟨y, -, hy⟩ := List.mem_flatMap.mp hmem
    exact hx (tokens_of_mem_loopsFrom hy).1.symm
  have hsecond : ∀ y, y ≠ b → ⟨a, b, c⟩ ∉ loopsFrom pairs a y := by
    intro y hy hmem
    exact hy (tokens_of_mem_loopsFrom hmem).2.symm
  have hthird : ∀ z, z ≠ c → ⟨a, b, c⟩ ∉ loopsAt pairs a b z := by
    intro z hz hmem
    exact hz (TriangularLoop.mk.inj (eq_of_mem_loopsAt hmem)).2.2.symm
  have hclosed : loopsAt pairs a b c = [⟨a, b, c⟩] := by
    rw [loopsAt, if_neg (by simp [hac.symm, hbc.symm]),
      if_pos ⟨List.contains_iff_mem.mpr h₃, hlt₁, hlt₂⟩]
  have hfrom : (loopsFrom pairs a b).count ⟨a, b, c⟩ = pairs.count (b, c) := by
    rw [loopsFrom, if_neg hab.symm, count_flatMap_of_fiber hthird, count_neighbours, hclosed,
      List.count_singleton_self, mul_one]
  rw [findLoops_eq, count_flatMap_of_fiber hfirst, hkey, one_mul, count_flatMap_of_fiber hsecond,
    count_neighbours, hfrom]

/-- The rotation of a cycle that starts with its smallest token. -/
def canonicalRotation (a b c : UInt16) : TriangularLoop :=
  if a < b ∧ a < c then ⟨a, b, c⟩
  else if b < c ∧ b < a then ⟨b, c, a⟩
  else ⟨c, a, b⟩

/-- A cycle that starts with its smallest token is its own rotation. -/
lemma CanonicalCycle.canonicalRotation {l : TriangularLoop} (h : CanonicalCycle pairs l) :
    canonicalRotation l.tokenA l.tokenB l.tokenC = l := by
  rw [MarketArena.canonicalRotation, if_pos h.2]

/-- The rotation of a cycle is a cycle that starts with its smallest token. -/
lemma canonicalCycle_canonicalRotation {a b c : UInt16} (h : IsCycle (Directed pairs) (a, b, c)) :
    CanonicalCycle pairs (canonicalRotation a b c) := by
  obtain ⟨hab, hac, hbc, h₁, h₂, h₃⟩ := h
  dsimp only at hab hac hbc h₁ h₂ h₃
  unfold canonicalRotation
  split_ifs with ha hb
  · exact ⟨⟨hab, hac, hbc, h₁, h₂, h₃⟩, ha⟩
  · exact ⟨⟨hbc, hab.symm, hac.symm, h₂, h₃, h₁⟩, hb⟩
  · refine ⟨⟨hac.symm, hbc.symm, hab, h₃, h₁, h₂⟩, ?_⟩
    simp only [UInt16.lt_iff_toNat_lt, ne_eq, ← UInt16.toNat_inj] at *
    omega

/-- The loops of an exchange are its directed cycles: each is stored once, in the rotation that
starts with its smallest token, nothing else is stored, and without cycles there is no entry. -/
structure DiscoveryExact (pairs : List (UInt16 × UInt16)) (stored : Option (List TriangularLoop)) :
    Prop where
  once : ∀ a b c, IsCycle (Directed pairs) (a, b, c) →
    (stored.getD []).count (canonicalRotation a b c) = 1
  only : ∀ l ∈ stored.getD [], ∃ a b c, IsCycle (Directed pairs) (a, b, c) ∧
    l = canonicalRotation a b c
  none : (∀ a b c, ¬ IsCycle (Directed pairs) (a, b, c)) → stored = none

/-- The pairs that make a cycle, but for the one that closes it, are listed once. -/
def OpenStepsOnce (pairs : List (UInt16 × UInt16)) : Prop :=
  ∀ l, CanonicalCycle pairs l →
    pairs.count (l.tokenA, l.tokenB) = 1 ∧ pairs.count (l.tokenB, l.tokenC) = 1

/-- The entry of an exchange after the loops are compiled. -/
lemma triLoops_eq (a : MarketArena) (exchangePairs : List (UInt16 × List (UInt16 × UInt16)))
    (exchangeId : UInt16) :
    (a.buildTriangularLoops exchangePairs).triLoops exchangeId =
      if findLoops ((exchangePairs.lookup exchangeId).getD []) = [] then none
      else some (findLoops ((exchangePairs.lookup exchangeId).getD [])) := by
  unfold buildTriangularLoops
  dsimp only
  cases exchangePairs.lookup exchangeId with
  | none => rfl
  | some pairs => rfl

/-- The loops of an exchange after the loops are compiled. -/
lemma getD_triLoops (a : MarketArena) (exchangePairs : List (UInt16 × List (UInt16 × UInt16)))
    (exchangeId : UInt16) :
    ((a.buildTriangularLoops exchangePairs).triLoops exchangeId).getD [] =
      findLoops ((exchangePairs.lookup exchangeId).getD []) := by
  rw [triLoops_eq]
  split_ifs with hnil
  · exact hnil.symm
  · rfl

/-- The loops compiled for an exchange are exact if and only if its list of pairs repeats no open
step of a cycle. -/
theorem triangle_discovery_exact_iff (a : MarketArena)
    (exchangePairs : List (UInt16 × List (UInt16 × UInt16))) (exchangeId : UInt16) :
    DiscoveryExact ((exchangePairs.lookup exchangeId).getD [])
        ((a.buildTriangularLoops exchangePairs).triLoops exchangeId) ↔
      OpenStepsOnce ((exchangePairs.lookup exchangeId).getD []) := by
  constructor
  · intro h l hl
    have honce := h.once _ _ _ hl.1
    rw [hl.canonicalRotation, getD_triLoops, count_findLoops hl] at honce
    exact mul_eq_one.mp honce
  · intro h
    refine ⟨?_, ?_, ?_⟩
    · intro x y z hcycle
      have hcanonical := canonicalCycle_canonicalRotation hcycle
      obtain ⟨hfirst, hsecond⟩ := h _ hcanonical
      rw [getD_triLoops, count_findLoops hcanonical, hfirst, hsecond]
    · intro l hl
      rw [getD_triLoops, mem_findLoops_iff] at hl
      exact ⟨_, _, _, hl.1, (CanonicalCycle.canonicalRotation hl).symm⟩
    · intro hnone
      rw [triLoops_eq, if_pos]
      rw [List.eq_nil_iff_forall_not_mem]
      intro l hl
      exact hnone _ _ _ (mem_findLoops_iff.mp hl).1

/-- A pair listed twice stores its cycle twice. -/
theorem repeated_pair_stores_twice :
    ¬ ∀ (a : MarketArena) (exchangePairs : List (UInt16 × List (UInt16 × UInt16))) exchangeId,
      DiscoveryExact ((exchangePairs.lookup exchangeId).getD [])
        ((a.buildTriangularLoops exchangePairs).triLoops exchangeId) := by
  intro h
  have hexact := h (new 1 4 (by decide)) [(0, [(1, 2), (1, 2), (2, 3), (3, 1)])] 0
  have hcycle : IsCycle (Directed [(1, 2), (1, 2), (2, 3), (3, 1)]) (1, 2, 3) := by
    unfold IsCycle Directed
    decide
  have honce := hexact.once 1 2 3 hcycle
  exact absurd honce (by decide)

end MarketArena

end HftArb
