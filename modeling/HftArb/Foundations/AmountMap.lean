import Mathlib.Algebra.BigOperators.Group.Finset.Basic
import Mathlib.Tactic

/-!
# Maps of amounts

A finite map from keys to amounts that is read with the default zero and whose amounts are added up.
A key outside the map has the amount zero, by a field of the map, so that `amount` is the lookup
with its default and `total` may be taken over any finite set that contains the keys
(`total_eq_sum`).
-/

/-- A finite map from keys to amounts; a key that is not in the map has the amount zero. -/
structure AmountMap (α M : Type*) [Zero M] where
  keys : Finset α
  amount : α → M
  amount_of_notMem : ∀ a ∉ keys, amount a = 0

namespace AmountMap

variable {α M : Type*}

/-- Two maps with the same keys and the same amounts are equal. -/
@[ext] lemma ext [Zero M] {m m' : AmountMap α M} (hkeys : m.keys = m'.keys)
    (hamount : ∀ a, m.amount a = m'.amount a) : m = m' := by
  obtain ⟨keys, amount, hm⟩ := m
  obtain ⟨keys', amount', hm'⟩ := m'
  obtain rfl : keys = keys' := hkeys
  obtain rfl : amount = amount' := funext hamount
  rfl

/-- The map without keys. -/
def empty [Zero M] : AmountMap α M := ⟨∅, fun _ => 0, fun _ _ => rfl⟩

/-- The sum of the amounts. -/
def total [AddCommMonoid M] (m : AmountMap α M) : M := ∑ a ∈ m.keys, m.amount a

lemma total_eq_sum [AddCommMonoid M] (m : AmountMap α M) {s : Finset α} (h : m.keys ⊆ s) :
    m.total = ∑ a ∈ s, m.amount a :=
  Finset.sum_subset h fun a _ ha => m.amount_of_notMem a ha

variable [DecidableEq α]

section Zero

variable [Zero M]

/-- Set the amount of a key. -/
def set (m : AmountMap α M) (a : α) (v : M) : AmountMap α M where
  keys := insert a m.keys
  amount := Function.update m.amount a v
  amount_of_notMem := by
    intro b hb
    rw [Finset.mem_insert, not_or] at hb
    rw [Function.update_of_ne hb.1]
    exact m.amount_of_notMem b hb.2

/-- Set the amounts of several keys to one value. -/
def setAll (m : AmountMap α M) (as : List α) (v : M) : AmountMap α M :=
  as.foldl (fun m a => m.set a v) m

@[simp] lemma keys_set (m : AmountMap α M) (a : α) (v : M) : (m.set a v).keys = insert a m.keys :=
  rfl

@[simp] lemma amount_set_self (m : AmountMap α M) (a : α) (v : M) : (m.set a v).amount a = v := by
  simp [set]

lemma amount_set_of_ne (m : AmountMap α M) {a b : α} (h : b ≠ a) (v : M) :
    (m.set a v).amount b = m.amount b := by
  simp [set, h]

@[simp] lemma keys_setAll (m : AmountMap α M) (as : List α) (v : M) :
    (m.setAll as v).keys = m.keys ∪ as.toFinset := by
  induction as generalizing m with
  | nil => simp [setAll]
  | cons a as ih =>
    have hstep : m.setAll (a :: as) v = (m.set a v).setAll as v := rfl
    rw [hstep, ih, keys_set, List.toFinset_cons, Finset.insert_union, Finset.union_insert]

lemma amount_setAll (m : AmountMap α M) (as : List α) (v : M) (b : α) :
    (m.setAll as v).amount b = if b ∈ as then v else m.amount b := by
  induction as generalizing m with
  | nil => simp [setAll]
  | cons a as ih =>
    have hstep : m.setAll (a :: as) v = (m.set a v).setAll as v := rfl
    rw [hstep, ih]
    by_cases hb : b ∈ as
    · simp [hb]
    · by_cases ha : b = a
      · simp [ha]
      · simp [hb, ha, amount_set_of_ne m ha]

end Zero

/-- Setting the amount of a key changes the total by the difference. -/
lemma total_set [AddCommGroup M] (m : AmountMap α M) (a : α) (v : M) :
    (m.set a v).total = m.total - m.amount a + v := by
  have hrest : ∑ b ∈ m.keys.erase a, (m.set a v).amount b = ∑ b ∈ m.keys.erase a, m.amount b :=
    Finset.sum_congr rfl fun b hb => m.amount_set_of_ne (Finset.ne_of_mem_erase hb) v
  have hset : insert a m.keys = insert a (m.keys.erase a) := by
    ext b
    by_cases hb : b = a
    · simp [hb]
    · simp [hb]
  have hkeys : m.keys ⊆ insert a (m.keys.erase a) := hset ▸ Finset.subset_insert a m.keys
  rw [m.total_eq_sum hkeys, total, keys_set, hset, Finset.sum_insert (Finset.notMem_erase a _),
    Finset.sum_insert (Finset.notMem_erase a _), hrest, amount_set_self]
  abel

/-- The total after several keys are set to one value: that of these keys and what the other keys
hold. -/
lemma total_setAll [AddCommMonoid M] (m : AmountMap α M) {as : List α} (has : as.Nodup) (v : M) :
    (m.setAll as v).total = as.length • v + ∑ a ∈ m.keys \ as.toFinset, m.amount a := by
  have hset : ∑ a ∈ as.toFinset, (m.setAll as v).amount a = as.length • v := by
    rw [Finset.sum_congr rfl fun a ha => by rw [amount_setAll, if_pos (List.mem_toFinset.mp ha)],
      Finset.sum_const, List.toFinset_card_of_nodup has]
  have hrest : ∑ a ∈ m.keys \ as.toFinset, (m.setAll as v).amount a =
      ∑ a ∈ m.keys \ as.toFinset, m.amount a := by
    apply Finset.sum_congr rfl
    intro a ha
    rw [amount_setAll, if_neg]
    simpa using (Finset.mem_sdiff.mp ha).2
  rw [total, keys_setAll, ← Finset.sdiff_union_self_eq_union,
    Finset.sum_union Finset.sdiff_disjoint, hset, hrest, add_comm]

end AmountMap
