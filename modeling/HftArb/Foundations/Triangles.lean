import Mathlib.Data.Finset.Sort
import Mathlib.Data.Set.Card
import Mathlib.Tactic

/-!
# Triangles of a symmetric relation

A triangle of a relation is a set of three elements any two of which are related.  It can be met as
an ordered triple in six ways: `card_orderedTriples` counts the triples of a finite set by the
triangles under them, and `isTriangle_iff_ascending` names a triangle by its ascending triple.
-/

namespace Triangles

variable {α : Type*}

/-- A set of three elements any two of which are related. -/
def IsTriangle (r : α → α → Prop) (s : Finset α) : Prop :=
  s.card = 3 ∧ ∀ x ∈ s, ∀ y ∈ s, x ≠ y → r x y

/-- The elements of a triple. -/
def vertices [DecidableEq α] (t : α × α × α) : Finset α := {t.1, t.2.1, t.2.2}

/-- A triple of distinct elements, each related to the next and the last to the first. -/
def IsCycle (r : α → α → Prop) (t : α × α × α) : Prop :=
  t.1 ≠ t.2.1 ∧ t.1 ≠ t.2.2 ∧ t.2.1 ≠ t.2.2 ∧ r t.1 t.2.1 ∧ r t.2.1 t.2.2 ∧ r t.2.2 t.1

variable [DecidableEq α] {r : α → α → Prop}

/-- The elements of a triple without repetitions are three. -/
lemma card_vertices {t : α × α × α} (h : IsCycle r t) : (vertices t).card = 3 :=
  Finset.card_eq_three.mpr ⟨t.1, t.2.1, t.2.2, h.1, h.2.1, h.2.2.1, rfl⟩

/-- The triangles of a symmetric relation are the sets of its cycles. -/
lemma isTriangle_iff (hr : ∀ x y, r x y → r y x) {s : Finset α} :
    IsTriangle r s ↔ ∃ t, IsCycle r t ∧ vertices t = s := by
  constructor
  · rintro ⟨hcard, hall⟩
    obtain ⟨a, b, c, hab, hac, hbc, rfl⟩ := Finset.card_eq_three.mp hcard
    refine ⟨(a, b, c), ⟨hab, hac, hbc, ?_, ?_, ?_⟩, rfl⟩
    · exact hall a (by simp) b (by simp) hab
    · exact hall b (by simp) c (by simp) hbc
    · exact hall c (by simp) a (by simp) hac.symm
  · rintro ⟨t, ht, rfl⟩
    refine ⟨card_vertices ht, ?_⟩
    obtain ⟨a, b, c⟩ := t
    obtain ⟨-, -, -, hab, hbc, hca⟩ := ht
    intro x hx y hy hxy
    simp only [vertices, Finset.mem_insert, Finset.mem_singleton] at hx hy
    rcases hx with rfl | rfl | rfl <;> rcases hy with rfl | rfl | rfl
    · exact absurd rfl hxy
    · exact hab
    · exact hr _ _ hca
    · exact hr _ _ hab
    · exact absurd rfl hxy
    · exact hbc
    · exact hca
    · exact hr _ _ hbc
    · exact absurd rfl hxy

/-- A triple over a triangle is a cycle. -/
lemma IsTriangle.isCycle {t : α × α × α} (h : IsTriangle r (vertices t)) : IsCycle r t := by
  obtain ⟨a, b, c⟩ := t
  obtain ⟨hcard, hall⟩ := h
  simp only [vertices] at hcard hall
  have hab : a ≠ b := by
    rintro rfl
    have hle := Finset.card_le_two (a := a) (b := c)
    simp only [Finset.mem_insert, Finset.mem_singleton, true_or, Finset.insert_eq_of_mem] at hcard
    omega
  have hac : a ≠ c := by
    rintro rfl
    have hle := Finset.card_le_two (a := b) (b := a)
    rw [Finset.insert_eq_of_mem (by simp)] at hcard
    omega
  have hbc : b ≠ c := by
    rintro rfl
    have hle := Finset.card_le_two (a := a) (b := b)
    rw [Finset.pair_eq_singleton] at hcard
    omega
  refine ⟨hab, hac, hbc, ?_, ?_, ?_⟩
  · exact hall a (by simp) b (by simp) hab
  · exact hall b (by simp) c (by simp) hbc
  · exact hall c (by simp) a (by simp) hac.symm

/-- The triples over three distinct elements are their six arrangements. -/
lemma vertices_eq_iff {x y z : α} (hxy : x ≠ y) (hxz : x ≠ z) (hyz : y ≠ z) {t : α × α × α} :
    vertices t = {x, y, z} ↔
      t ∈ ({(x, y, z), (x, z, y), (y, x, z), (y, z, x), (z, x, y), (z, y, x)} :
        Finset (α × α × α)) := by
  obtain ⟨a, b, c⟩ := t
  constructor
  · intro h
    have hx : x ∈ vertices (a, b, c) := by simp [h]
    have hy : y ∈ vertices (a, b, c) := by simp [h]
    have hz : z ∈ vertices (a, b, c) := by simp [h]
    simp only [vertices, Finset.mem_insert, Finset.mem_singleton] at hx hy hz
    simp only [Finset.mem_insert, Finset.mem_singleton, Prod.mk.injEq]
    rcases hx with rfl | rfl | rfl <;> rcases hy with rfl | rfl | rfl <;>
      rcases hz with rfl | rfl | rfl <;> simp_all
  · intro h
    simp only [Finset.mem_insert, Finset.mem_singleton, Prod.mk.injEq] at h
    ext e
    rcases h with ⟨rfl, rfl, rfl⟩ | ⟨rfl, rfl, rfl⟩ | ⟨rfl, rfl, rfl⟩ | ⟨rfl, rfl, rfl⟩ |
      ⟨rfl, rfl, rfl⟩ | ⟨rfl, rfl, rfl⟩ <;>
      simp only [vertices, Finset.mem_insert, Finset.mem_singleton] <;> tauto

/-- A triangle lies under exactly six of the ordered triples. -/
lemma card_orderedTriples (hr : ∀ x y, r x y → r y x) {ts : Finset (α × α × α)}
    (hts : ∀ t, t ∈ ts ↔ IsCycle r t) : ts.card = 6 * {s | IsTriangle r s}.ncard := by
  have himage : {s | IsTriangle r s} = ↑(ts.image vertices) := by
    ext s
    simp [isTriangle_iff hr, hts]
  have hfibre : ∀ s ∈ ts.image vertices, (ts.filter fun t => vertices t = s).card = 6 := by
    intro s hs
    obtain ⟨⟨x, y, z⟩, ht, rfl⟩ := Finset.mem_image.mp hs
    have htri := (isTriangle_iff hr).mpr ⟨(x, y, z), (hts _).mp ht, rfl⟩
    obtain ⟨hxy, hxz, hyz, -⟩ := (hts _).mp ht
    have hsix : (ts.filter fun t => vertices t = vertices (x, y, z)) =
        {(x, y, z), (x, z, y), (y, x, z), (y, z, x), (z, x, y), (z, y, x)} := by
      ext t
      rw [Finset.mem_filter, show vertices (x, y, z) = {x, y, z} from rfl,
        vertices_eq_iff hxy hxz hyz]
      refine and_iff_right_of_imp fun h => (hts t).mpr ?_
      rw [← vertices_eq_iff hxy hxz hyz] at h
      exact IsTriangle.isCycle (h ▸ htri)
    rw [hsix]
    simp [hxy, hxz, hyz, hxy.symm, hxz.symm, hyz.symm]
  rw [himage, Set.ncard_coe_finset, Finset.card_eq_sum_card_image vertices ts,
    Finset.sum_congr rfl hfibre, Finset.sum_const, smul_eq_mul, mul_comm]

section Ascending

variable {α : Type*} [LinearOrder α] {r : α → α → Prop}

/-- The triple is ascending. -/
def Ascending (t : α × α × α) : Prop := t.1 < t.2.1 ∧ t.2.1 < t.2.2

/-- Three elements can be put in ascending order. -/
lemma exists_ascending {s : Finset α} (h : s.card = 3) : ∃ t, Ascending t ∧ vertices t = s := by
  let f := s.orderEmbOfFin h
  have himage : Finset.univ.image f = s := Finset.image_orderEmbOfFin_univ s h
  have hlt : ∀ i j : Fin 3, i < j → f i < f j := fun i j hij => f.strictMono hij
  refine ⟨(f 0, f 1, f 2), ⟨hlt 0 1 (by decide), hlt 1 2 (by decide)⟩, ?_⟩
  rw [← himage]
  have huniv : (Finset.univ : Finset (Fin 3)) = {0, 1, 2} := rfl
  rw [huniv, Finset.image_insert, Finset.image_insert, Finset.image_singleton]
  rfl

/-- An ascending triple is given by its elements. -/
lemma Ascending.eq_of_vertices {t u : α × α × α} (ht : Ascending t) (hu : Ascending u)
    (h : vertices t = vertices u) : t = u := by
  obtain ⟨x, y, z⟩ := u
  obtain ⟨hxy, hyz⟩ := hu
  have hxz := hxy.trans hyz
  have hmem := (vertices_eq_iff hxy.ne hxz.ne hyz.ne).mp h
  simp only [Finset.mem_insert, Finset.mem_singleton] at hmem
  -- every other arrangement has a descent
  rcases hmem with rfl | rfl | rfl | rfl | rfl | rfl
  · rfl
  · exact absurd ht.2 hyz.not_gt
  · exact absurd ht.1 hxy.not_gt
  · exact absurd ht.2 hxz.not_gt
  · exact absurd ht.1 hxz.not_gt
  · exact absurd ht.1 hyz.not_gt

/-- The triangles of a symmetric relation are the sets of its ascending cycles. -/
lemma isTriangle_iff_ascending (hr : ∀ x y, r x y → r y x) {s : Finset α} :
    IsTriangle r s ↔ ∃ t, Ascending t ∧ IsCycle r t ∧ vertices t = s := by
  constructor
  · intro h
    obtain ⟨t, hasc, rfl⟩ := exists_ascending h.1
    exact ⟨t, hasc, h.isCycle, rfl⟩
  · rintro ⟨t, -, hcycle, rfl⟩
    exact (isTriangle_iff hr).mpr ⟨t, hcycle, rfl⟩

end Ascending

end Triangles
