import Mathlib.Algebra.BigOperators.Group.Finset.Basic
import Mathlib.Data.List.Basic
import Mathlib.Tactic

/-!
# Maps as lists of entries

A map that is built entry by entry and then walked is a list of entries with distinct keys.
`upsert` changes the entry of a key or adds one at the end, and `remove` takes it out;
`lookup_upsert` and `lookup_remove` say what is found afterwards, and the keys stay distinct.
-/

namespace AssocMap

variable {α β : Type*} [DecidableEq α]

/-- Replace the entry of a key by what is made of it, or add what is made of none. -/
def upsert (key : α) (f : Option β → β) : List (α × β) → List (α × β)
  | [] => [(key, f none)]
  | (k, b) :: m => if k = key then (k, f (some b)) :: m else (k, b) :: upsert key f m

lemma lookup_cons_of_eq {k key : α} (h : k = key) (b : β) (m : List (α × β)) :
    ((k, b) :: m).lookup key = some b := by
  subst h
  rw [List.lookup_cons_self]

lemma lookup_cons_of_ne {k key : α} (h : k ≠ key) (b : β) (m : List (α × β)) :
    ((k, b) :: m).lookup key = m.lookup key := by
  have hbeq : (key == k) = false := beq_eq_false_iff_ne.mpr (Ne.symm h)
  rw [List.lookup_cons, hbeq]

/-- What is found after an entry has changed. -/
lemma lookup_upsert (key key' : α) (f : Option β → β) (m : List (α × β)) :
    (upsert key f m).lookup key' =
      if key' = key then some (f (m.lookup key)) else m.lookup key' := by
  induction m with
  | nil =>
    by_cases h : key' = key
    · rw [if_pos h, upsert, lookup_cons_of_eq h.symm, List.lookup_nil]
    · rw [if_neg h, upsert, lookup_cons_of_ne (Ne.symm h)]
  | cons entry m ih =>
    obtain ⟨k, b⟩ := entry
    rw [upsert]
    by_cases hk : k = key
    · rw [if_pos hk]
      by_cases h : key' = key
      · rw [if_pos h, lookup_cons_of_eq (hk.trans h.symm), lookup_cons_of_eq hk]
      · have hne : k ≠ key' := fun heq => h (heq.symm.trans hk)
        rw [if_neg h, lookup_cons_of_ne hne, lookup_cons_of_ne hne]
    · rw [if_neg hk, lookup_cons_of_ne hk]
      by_cases hk' : k = key'
      · have hne : key' ≠ key := fun heq => hk (hk'.trans heq)
        rw [if_neg hne, lookup_cons_of_eq hk', lookup_cons_of_eq hk']
      · rw [lookup_cons_of_ne hk', lookup_cons_of_ne hk', ih]

/-- A new entry comes at the end. -/
lemma upsert_of_notMem {key : α} (f : Option β → β) {m : List (α × β)}
    (h : key ∉ m.map Prod.fst) : upsert key f m = m ++ [(key, f none)] := by
  induction m with
  | nil => rfl
  | cons entry m ih =>
    obtain ⟨k, b⟩ := entry
    rw [List.map_cons, List.mem_cons, not_or] at h
    rw [upsert, if_neg (Ne.symm h.1), ih h.2, List.cons_append]

/-- The keys after an entry has changed. -/
lemma mem_keys_upsert {key key' : α} {f : Option β → β} {m : List (α × β)} :
    key' ∈ (upsert key f m).map Prod.fst ↔ key' = key ∨ key' ∈ m.map Prod.fst := by
  induction m with
  | nil => simp [upsert]
  | cons entry m ih =>
    obtain ⟨k, b⟩ := entry
    rw [upsert]
    by_cases hk : k = key
    · subst hk
      simp
    · rw [if_neg hk, List.map_cons, List.map_cons, List.mem_cons, List.mem_cons, ih]
      tauto

/-- The keys stay distinct. -/
lemma nodup_keys_upsert {key : α} {f : Option β → β} {m : List (α × β)}
    (h : (m.map Prod.fst).Nodup) : ((upsert key f m).map Prod.fst).Nodup := by
  induction m with
  | nil => simp [upsert]
  | cons entry m ih =>
    obtain ⟨k, b⟩ := entry
    rw [List.map_cons, List.nodup_cons] at h
    rw [upsert]
    by_cases hk : k = key
    · rw [if_pos hk, List.map_cons, List.nodup_cons]
      exact h
    · rw [if_neg hk, List.map_cons, List.nodup_cons, mem_keys_upsert]
      exact ⟨fun hmem => hmem.elim hk h.1, ih h.2⟩

/-- With distinct keys an entry of the list is the one that is found. -/
lemma mem_iff_lookup {m : List (α × β)} (h : (m.map Prod.fst).Nodup) {key : α} {b : β} :
    (key, b) ∈ m ↔ m.lookup key = some b := by
  induction m with
  | nil => simp
  | cons entry m ih =>
    obtain ⟨k, c⟩ := entry
    rw [List.map_cons, List.nodup_cons] at h
    rw [List.mem_cons, Prod.mk.injEq]
    by_cases hk : k = key
    · subst hk
      have hnone : (k, b) ∉ m := fun hmem => h.1 (List.mem_map.mpr ⟨(k, b), hmem, rfl⟩)
      rw [List.lookup_cons_self, Option.some_inj]
      exact ⟨fun hmem => hmem.elim (fun heq => heq.2.symm) fun hmem => absurd hmem hnone,
        fun heq => Or.inl ⟨rfl, heq.symm⟩⟩
    · rw [lookup_cons_of_ne hk, ← ih h.2]
      exact or_iff_right fun heq => hk heq.1.symm

/-! ## Entries taken out -/

/-- Take out the entry of a key. -/
def remove (key : α) (m : List (α × β)) : List (α × β) := m.filter fun entry => entry.1 ≠ key

lemma lookup_remove (key key' : α) (m : List (α × β)) :
    (remove key m).lookup key' = if key' = key then none else m.lookup key' := by
  induction m with
  | nil => simp [remove]
  | cons entry m ih =>
    obtain ⟨k, b⟩ := entry
    rw [remove, List.filter_cons, ← remove]
    by_cases hk : k = key
    · rw [if_neg (by simpa using hk), ih]
      by_cases h : key' = key
      · rw [if_pos h, if_pos h]
      · have hne : k ≠ key' := fun heq => h (heq.symm.trans hk)
        rw [if_neg h, if_neg h, lookup_cons_of_ne hne]
    · rw [if_pos (by simpa using hk)]
      by_cases hk' : k = key'
      · have hne : key' ≠ key := fun heq => hk (hk'.trans heq)
        rw [if_neg hne, lookup_cons_of_eq hk', lookup_cons_of_eq hk']
      · rw [lookup_cons_of_ne hk', lookup_cons_of_ne hk', ih]

lemma nodup_keys_remove {key : α} {m : List (α × β)} (h : (m.map Prod.fst).Nodup) :
    ((remove key m).map Prod.fst).Nodup :=
  h.sublist (List.filter_sublist.map _)

/-- With distinct keys there is at most one entry of a key. -/
lemma filter_key_eq {m : List (α × β)} (h : (m.map Prod.fst).Nodup) (key : α) :
    (m.filter fun entry => entry.1 = key).map Prod.snd = (m.lookup key).toList := by
  induction m with
  | nil => rfl
  | cons entry m ih =>
    obtain ⟨k, b⟩ := entry
    rw [List.map_cons, List.nodup_cons] at h
    rw [List.filter_cons]
    by_cases hk : k = key
    · subst hk
      have hnone : m.filter (fun entry => decide (entry.1 = k)) = [] := by
        refine List.filter_eq_nil_iff.mpr fun entry hmem hkey => h.1 ?_
        exact List.mem_map.mpr ⟨entry, hmem, of_decide_eq_true hkey⟩
      rw [if_pos (by simp), hnone, List.lookup_cons_self]
      rfl
    · rw [if_neg (by simpa using hk), lookup_cons_of_ne hk, ih h.2]

/-- With distinct keys the entries add up to what is found over any keys that contain theirs. -/
lemma sum_map_eq_sum_lookup {M : Type*} [AddCommMonoid M] {m : List (α × β)}
    (h : (m.map Prod.fst).Nodup) {keys : Finset α} (hkeys : ∀ entry ∈ m, entry.1 ∈ keys)
    (f : β → M) :
    (m.map fun entry => f entry.2).sum = ∑ key ∈ keys, ((m.lookup key).map f).getD 0 := by
  have hsubset : (m.map Prod.fst).toFinset ⊆ keys := by
    intro key hkey
    obtain ⟨entry, hentry, rfl⟩ := List.mem_map.mp (List.mem_toFinset.mp hkey)
    exact hkeys entry hentry
  have houtside : ∀ key ∈ keys, key ∉ (m.map Prod.fst).toFinset →
      ((m.lookup key).map f).getD 0 = 0 := by
    intro key _ hkey
    cases hfound : m.lookup key with
    | none => rfl
    | some b =>
      refine absurd (List.mem_toFinset.mpr ?_) hkey
      exact List.mem_map.mpr ⟨(key, b), (mem_iff_lookup h).mpr hfound, rfl⟩
  rw [← Finset.sum_subset hsubset houtside, List.sum_toFinset _ h, List.map_map]
  refine congrArg List.sum (List.map_congr_left fun entry hentry => ?_)
  rw [Function.comp_apply, (mem_iff_lookup h).mp (show (entry.1, entry.2) ∈ m from hentry),
    Option.map_some, Option.getD_some]

/-! ## Maps of sets -/

variable {γ : Type*} [DecidableEq γ]

/-- Add an element to the set of a key. -/
def record (m : List (α × List γ)) (key : α) (c : γ) : List (α × List γ) :=
  upsert key (fun set => List.insert c (set.getD [])) m

/-- The set of a key, empty when it has none. -/
def groupOf (m : List (α × List γ)) (key : α) : List γ := (m.lookup key).getD []

/-- The sets after an element was added to one of them. -/
lemma mem_groupOf_record {m : List (α × List γ)} {key key' : α} {c c' : γ} :
    c' ∈ groupOf (record m key c) key' ↔ key' = key ∧ c' = c ∨ c' ∈ groupOf m key' := by
  rw [groupOf, record, lookup_upsert]
  by_cases h : key' = key
  · subst h
    rw [if_pos rfl, Option.getD_some, List.mem_insert_iff]
    simp [groupOf]
  · simp [h, groupOf]

/-- The sets after several elements were added to one of them. -/
lemma mem_groupOf_foldl_record {m : List (α × List γ)} {key key' : α} {cs : List γ} {c' : γ} :
    c' ∈ groupOf (cs.foldl (fun m c => record m key c) m) key' ↔
      key' = key ∧ c' ∈ cs ∨ c' ∈ groupOf m key' := by
  induction cs generalizing m with
  | nil => simp
  | cons c cs ih =>
    rw [List.foldl_cons, ih, mem_groupOf_record, List.mem_cons]
    tauto

/-- The sets after all entries of a map were added one element at a time. -/
lemma mem_groupOf_foldl_entries {entries m : List (α × List γ)} {key : α} {c : γ} :
    c ∈ groupOf (entries.foldl
        (fun m entry => entry.2.foldl (fun m c => record m entry.1 c) m) m) key ↔
      (∃ cs, (key, cs) ∈ entries ∧ c ∈ cs) ∨ c ∈ groupOf m key := by
  induction entries generalizing m with
  | nil => simp
  | cons entry entries ih =>
    rw [List.foldl_cons, ih, mem_groupOf_foldl_record]
    obtain ⟨k, cs⟩ := entry
    simp only [List.mem_cons, Prod.mk.injEq]
    constructor
    · rintro (⟨cs', hmem, hc⟩ | ⟨rfl, hc⟩ | hc)
      · exact Or.inl ⟨cs', Or.inr hmem, hc⟩
      · exact Or.inl ⟨cs, Or.inl ⟨rfl, rfl⟩, hc⟩
      · exact Or.inr hc
    · rintro (⟨cs', ⟨rfl, rfl⟩ | hmem, hc⟩ | hc)
      · exact Or.inr (Or.inl ⟨rfl, hc⟩)
      · exact Or.inl ⟨cs', hmem, hc⟩
      · exact Or.inr (Or.inr hc)

end AssocMap
