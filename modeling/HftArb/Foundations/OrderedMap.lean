import Mathlib.Tactic

/-!
# Ordered maps

Maps from a linearly ordered type of keys, as lists of entries in strictly ascending order of the
keys.  The order is a field of the map, so that the least and the greatest key are the first and the
last one.
-/

/-- A map whose entries are listed in ascending order of their keys. -/
structure OrderedMap (α β : Type*) [LinearOrder α] where
  entries : List (α × β)
  sorted : entries.Pairwise fun p q => p.1 < q.1

namespace OrderedMap

variable {α β : Type*} [LinearOrder α]

/-- The map without entries. -/
def empty : OrderedMap α β := ⟨[], List.Pairwise.nil⟩

/-- The number of entries. -/
def size (m : OrderedMap α β) : ℕ := m.entries.length

/-- The least key. -/
def firstKey? (m : OrderedMap α β) : Option α := m.entries.head?.map Prod.fst

/-- The greatest key. -/
def lastKey? (m : OrderedMap α β) : Option α := m.entries.getLast?.map Prod.fst

/-- Put an entry where its key belongs, in place of an entry with the same key. -/
def insertEntry (key : α) (value : β) : List (α × β) → List (α × β)
  | [] => [(key, value)]
  | p :: ps =>
    if key < p.1 then (key, value) :: p :: ps
    else if key = p.1 then (key, value) :: ps
    else p :: insertEntry key value ps

/-- Every entry after an insertion is the new one or an old one. -/
lemma mem_insertEntry {key : α} {value : β} {q : α × β} {ps : List (α × β)}
    (h : q ∈ insertEntry key value ps) : q = (key, value) ∨ q ∈ ps := by
  induction ps with
  | nil => exact Or.inl (List.mem_singleton.mp h)
  | cons p ps ih =>
    rw [insertEntry] at h
    split_ifs at h
    · exact List.mem_cons.mp h
    · rcases List.mem_cons.mp h with h | h
      · exact Or.inl h
      · exact Or.inr (List.mem_cons_of_mem p h)
    · rcases List.mem_cons.mp h with h | h
      · exact Or.inr (h ▸ List.mem_cons_self)
      · exact (ih h).imp_right (List.mem_cons_of_mem p)

/-- An insertion keeps the order. -/
lemma pairwise_insertEntry (key : α) (value : β) {ps : List (α × β)}
    (h : ps.Pairwise fun p q => p.1 < q.1) :
    (insertEntry key value ps).Pairwise fun p q => p.1 < q.1 := by
  induction ps with
  | nil => exact List.pairwise_singleton _ _
  | cons p ps ih =>
    obtain ⟨hp, hps⟩ := List.pairwise_cons.mp h
    rw [insertEntry]
    split_ifs with hlt heq
    · refine List.pairwise_cons.mpr ⟨?_, h⟩
      intro q hq
      rcases List.mem_cons.mp hq with rfl | hq
      · exact hlt
      · exact hlt.trans (hp q hq)
    · refine List.pairwise_cons.mpr ⟨?_, hps⟩
      intro q hq
      rw [heq]
      exact hp q hq
    · refine List.pairwise_cons.mpr ⟨?_, ih hps⟩
      intro q hq
      rcases mem_insertEntry hq with rfl | hq
      · exact lt_of_le_of_ne (not_lt.mp hlt) (Ne.symm heq)
      · exact hp q hq

/-- Set the value of a key. -/
def insert (m : OrderedMap α β) (key : α) (value : β) : OrderedMap α β :=
  ⟨insertEntry key value m.entries, pairwise_insertEntry key value m.sorted⟩

/-- Remove a key. -/
def erase (m : OrderedMap α β) (key : α) : OrderedMap α β :=
  ⟨m.entries.filter fun p => p.1 ≠ key, m.sorted.filter _⟩

/-- Keep at most the given number of entries, those with the greatest keys. -/
def keepLast (m : OrderedMap α β) (n : ℕ) : OrderedMap α β :=
  ⟨m.entries.drop (m.size - n), m.sorted.drop⟩

/-- Keep at most the given number of entries, those with the least keys. -/
def keepFirst (m : OrderedMap α β) (n : ℕ) : OrderedMap α β :=
  ⟨m.entries.take n, m.sorted.take⟩

lemma size_keepLast_le (m : OrderedMap α β) (n : ℕ) : (m.keepLast n).size ≤ n := by
  simp only [keepLast, size, List.length_drop]
  omega

lemma size_keepFirst_le (m : OrderedMap α β) (n : ℕ) : (m.keepFirst n).size ≤ n := by
  simp only [keepFirst, size, List.length_take]
  omega

lemma mem_of_mem_keepLast {m : OrderedMap α β} {n : ℕ} {p : α × β}
    (h : p ∈ (m.keepLast n).entries) : p ∈ m.entries :=
  List.mem_of_mem_drop h

lemma mem_of_mem_keepFirst {m : OrderedMap α β} {n : ℕ} {p : α × β}
    (h : p ∈ (m.keepFirst n).entries) : p ∈ m.entries :=
  List.mem_of_mem_take h

/-! ## Values -/

/-- The value of a key. -/
def get? (m : OrderedMap α β) (key : α) : Option β :=
  (m.entries.find? fun p => p.1 = key).map Prod.snd

/-- No key is listed twice. -/
lemma nodup_keys (m : OrderedMap α β) : (m.entries.map Prod.fst).Nodup :=
  List.pairwise_map.mpr (m.sorted.imp fun hlt => hlt.ne)

/-- The value of a key is that of its entry. -/
lemma get?_eq_some_iff {m : OrderedMap α β} {key : α} {value : β} :
    m.get? key = some value ↔ (key, value) ∈ m.entries := by
  unfold get?
  constructor
  · intro h
    obtain ⟨p, hp, rfl⟩ := Option.map_eq_some_iff.mp h
    have hkey : p.1 = key := by simpa using List.find?_some hp
    rw [← hkey]
    exact List.mem_of_find?_eq_some hp
  · intro h
    cases hfind : m.entries.find? fun p => p.1 = key with
    | none => simpa using List.find?_eq_none.mp hfind (key, value) h
    | some p =>
      have hkey : p.1 = key := by simpa using List.find?_some hfind
      have hp : p = (key, value) :=
        List.inj_on_of_nodup_map m.nodup_keys (List.mem_of_find?_eq_some hfind) h hkey
      rw [hp]
      rfl

/-- A key has a value exactly when some entry has the key. -/
lemma isSome_get?_iff {m : OrderedMap α β} {key : α} :
    (m.get? key).isSome ↔ key ∈ m.entries.map Prod.fst := by
  simp only [Option.isSome_iff_exists, get?_eq_some_iff, List.mem_map, Prod.exists,
    exists_and_right, exists_eq_right]

@[simp] lemma get?_empty (key : α) : (empty : OrderedMap α β).get? key = none := rfl

/-- The entries after an insertion. -/
lemma mem_insertEntry_iff {key : α} {value : β} {q : α × β} {ps : List (α × β)}
    (h : ps.Pairwise fun p q => p.1 < q.1) :
    q ∈ insertEntry key value ps ↔ q = (key, value) ∨ q.1 ≠ key ∧ q ∈ ps := by
  induction ps with
  | nil => simp [insertEntry]
  | cons p ps ih =>
    obtain ⟨hp, hps⟩ := List.pairwise_cons.mp h
    rw [insertEntry]
    split_ifs with hlt heq
    · -- Every old key is above the new one.
      have hne : ∀ r ∈ p :: ps, r.1 ≠ key := by
        intro r hr
        rcases List.mem_cons.mp hr with rfl | hr
        · exact hlt.ne'
        · exact (hlt.trans (hp r hr)).ne'
      rw [List.mem_cons]
      exact or_congr_right ⟨fun hq => ⟨hne q hq, hq⟩, fun hq => hq.2⟩
    · have hne : ∀ r ∈ ps, r.1 ≠ key := fun r hr => heq ▸ (hp r hr).ne'
      rw [List.mem_cons, List.mem_cons]
      refine or_congr_right ⟨fun hq => ⟨hne q hq, Or.inr hq⟩, ?_⟩
      rintro ⟨hkey, rfl | hq⟩
      · exact absurd heq.symm hkey
      · exact hq
    · rw [List.mem_cons, List.mem_cons, ih hps]
      constructor
      · rintro (rfl | hq | ⟨hkey, hq⟩)
        · exact Or.inr ⟨Ne.symm heq, Or.inl rfl⟩
        · exact Or.inl hq
        · exact Or.inr ⟨hkey, Or.inr hq⟩
      · rintro (hq | ⟨hkey, hq | hq⟩)
        · exact Or.inr (Or.inl hq)
        · exact Or.inl hq
        · exact Or.inr (Or.inr ⟨hkey, hq⟩)

lemma get?_insert (m : OrderedMap α β) (key : α) (value : β) :
    (m.insert key value).get? = Function.update m.get? key (some value) := by
  funext k
  refine Option.ext fun v => ?_
  rw [get?_eq_some_iff, insert, mem_insertEntry_iff m.sorted, Function.update_apply]
  split_ifs with hk
  · simp [hk, eq_comm]
  · simp [hk, get?_eq_some_iff]

lemma get?_erase (m : OrderedMap α β) (key : α) :
    (m.erase key).get? = Function.update m.get? key none := by
  funext k
  refine Option.ext fun v => ?_
  rw [get?_eq_some_iff, erase, List.mem_filter, Function.update_apply]
  split_ifs with hk
  · simp [hk]
  · simp [hk, get?_eq_some_iff]

/-! ## The first keys of an order -/

/-- The part of a partial function on its first keys: those before which there are fewer than the
given number. -/
noncomputable def restrictFirst (before : α → α → Prop) (n : ℕ) (f : α → Option β) (key : α) :
    Option β :=
  if {k | (f k).isSome ∧ before k key}.ncard < n then f key else none

/-- The key comes before all others. -/
def IsFirst (before : α → α → Prop) (f : α → Option β) (key : α) : Prop :=
  (f key).isSome ∧ ∀ k, (f k).isSome → k ≠ key → before key k

/-- In a list in order, the elements with fewer than `n` others before them are the first `n`. -/
lemma mem_take_iff {γ : Type*} {r : γ → γ → Prop} [DecidableRel r]
    (hasymm : ∀ a b, r a b → ¬ r b a) {l : List γ} (hl : l.Pairwise r) (n : ℕ) (a : γ) :
    a ∈ l.take n ↔ a ∈ l ∧ (l.filter fun b => r b a).length < n := by
  induction l generalizing n with
  | nil => simp
  | cons b l ih =>
    obtain ⟨hb, hl⟩ := List.pairwise_cons.mp hl
    cases n with
    | zero => simp
    | succ n =>
      rw [List.take_succ_cons, List.mem_cons, List.mem_cons, ih hl]
      by_cases hab : a = b
      · -- Nothing comes before the head.
        have hnone : (b :: l).filter (fun c => r c a) = [] := by
          refine List.filter_eq_nil_iff.mpr fun c hc => ?_
          rw [decide_eq_true_eq, hab]
          rcases List.mem_cons.mp hc with rfl | hc
          · exact fun h => hasymm _ _ h h
          · exact hasymm _ _ (hb c hc)
        rw [hnone]
        exact iff_of_true (Or.inl hab) ⟨Or.inl hab, Nat.succ_pos n⟩
      · simp only [hab, false_or]
        refine and_congr_right fun ha => ?_
        rw [List.filter_cons_of_pos (by simpa using hb a ha), List.length_cons,
          Nat.add_lt_add_iff_right]

/-- The keys before a key, counted. -/
lemma ncard_before (m : OrderedMap α β) (before : α → α → Prop) [DecidableRel before] (key : α) :
    {k | (m.get? k).isSome ∧ before k key}.ncard =
      (m.entries.filter fun p => before p.1 key).length := by
  have hset : {k | (m.get? k).isSome ∧ before k key} =
      ↑((m.entries.filter fun p => before p.1 key).map Prod.fst).toFinset := by
    ext k
    simp only [Set.mem_ofPred_eq, isSome_get?_iff, List.coe_toFinset, List.mem_map,
      List.mem_filter, decide_eq_true_eq]
    constructor
    · rintro ⟨⟨p, hp, rfl⟩, hbefore⟩
      exact ⟨p, ⟨hp, hbefore⟩, rfl⟩
    · rintro ⟨p, ⟨hp, hbefore⟩, rfl⟩
      exact ⟨⟨p, hp, rfl⟩, hbefore⟩
  have hnodup : ((m.entries.filter fun p => before p.1 key).map Prod.fst).Nodup :=
    List.pairwise_map.mpr ((m.sorted.filter _).imp fun hlt => hlt.ne)
  rw [hset, Set.ncard_coe_finset, List.toFinset_card_of_nodup hnodup, List.length_map]

/-- A map whose entries are the first ones in some order. -/
lemma get?_eq_restrictFirst {m m' : OrderedMap α β} {before : α → α → Prop} [DecidableRel before]
    {n : ℕ} (h : ∀ p, p ∈ m'.entries ↔
      p ∈ m.entries ∧ (m.entries.filter fun q => before q.1 p.1).length < n) :
    m'.get? = restrictFirst before n m.get? := by
  funext key
  refine Option.ext fun value => ?_
  rw [get?_eq_some_iff, h, restrictFirst, ncard_before]
  split_ifs with hlt
  · rw [get?_eq_some_iff]
    exact and_iff_left hlt
  · exact iff_of_false (fun hmem => hlt hmem.2) (by simp)

lemma get?_keepFirst (m : OrderedMap α β) (n : ℕ) :
    (m.keepFirst n).get? = restrictFirst (· < ·) n m.get? :=
  get?_eq_restrictFirst fun p =>
    mem_take_iff (r := fun q p : α × β => q.1 < p.1) (fun _ _ h => h.asymm) m.sorted n p

lemma get?_keepLast (m : OrderedMap α β) (n : ℕ) :
    (m.keepLast n).get? = restrictFirst (· > ·) n m.get? := by
  refine get?_eq_restrictFirst fun p => ?_
  have htake := mem_take_iff (r := fun q p : α × β => q.1 > p.1) (fun _ _ h => h.asymm)
    (List.pairwise_reverse.mpr m.sorted) n p
  rw [List.take_reverse, List.mem_reverse, List.mem_reverse, List.filter_reverse,
    List.length_reverse] at htake
  exact htake

/-- The first key of the entries, listed in an order, is the first key in that order. -/
lemma head?_eq_some_iff {m : OrderedMap α β} {before : α → α → Prop}
    (hasymm : ∀ a b, before a b → ¬ before b a) {l : List (α × β)}
    (hl : l.Pairwise fun p q => before p.1 q.1) (hmem : ∀ p, p ∈ l ↔ p ∈ m.entries) {key : α} :
    l.head?.map Prod.fst = some key ↔ IsFirst before m.get? key := by
  have hkeys : ∀ k, (m.get? k).isSome ↔ k ∈ l.map Prod.fst := by
    intro k
    simp only [isSome_get?_iff, List.mem_map, hmem]
  simp only [IsFirst, hkeys]
  cases l with
  | nil => simp
  | cons p l =>
    obtain ⟨hp, -⟩ := List.pairwise_cons.mp hl
    have hself : p.1 ∈ (p :: l).map Prod.fst := List.mem_map_of_mem List.mem_cons_self
    have hfirst : ∀ k ∈ (p :: l).map Prod.fst, k ≠ p.1 → before p.1 k := by
      intro k hk hne
      rcases List.mem_cons.mp hk with rfl | hk
      · exact absurd rfl hne
      · obtain ⟨q, hq, rfl⟩ := List.mem_map.mp hk
        exact hp q hq
    rw [List.head?_cons, Option.map_some, Option.some.injEq]
    constructor
    · rintro rfl
      exact ⟨hself, hfirst⟩
    · rintro ⟨hkey, hall⟩
      by_contra hne
      exact hasymm _ _ (hall p.1 hself hne) (hfirst key hkey (Ne.symm hne))

/-- The least key comes first in ascending order. -/
lemma firstKey?_eq_some_iff {m : OrderedMap α β} {key : α} :
    m.firstKey? = some key ↔ IsFirst (· < ·) m.get? key :=
  head?_eq_some_iff (fun _ _ h => h.asymm) m.sorted fun _ => Iff.rfl

/-- The greatest key comes first in descending order. -/
lemma lastKey?_eq_some_iff {m : OrderedMap α β} {key : α} :
    m.lastKey? = some key ↔ IsFirst (· > ·) m.get? key := by
  rw [lastKey?, List.getLast?_eq_head?_reverse]
  exact head?_eq_some_iff (fun _ _ h => h.asymm) (List.pairwise_reverse.mpr m.sorted)
    fun _ => List.mem_reverse

end OrderedMap
