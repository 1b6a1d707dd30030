import HftArb.Foundations.Runs
import Mathlib.Data.List.Nodup
import Mathlib.Data.List.TakeWhile
import Mathlib.Tactic

/-!
# Counting absences

A sweep over distinct keys resets the count of a key that was seen, adds one to the count of a key
that was not, and collects the keys whose count has reached a threshold.  Sweep after sweep the
count of a key is the length of its current absence: the latest cycles of the history in which it
was missing, given by `streak`.  `guarded_due_iff` says when an action falls on the cycle in which
the absence reaches a length, and on no other cycle of it.
-/

namespace MissingCounts

open Runs

variable {κ ρ : Type*} [DecidableEq κ]

/-- Count one key. -/
def visit (seen : κ → Bool) (threshold : UInt32) (acc : (κ → UInt32) × List κ) (key : κ) :
    (κ → UInt32) × List κ :=
  if seen key then (Function.update acc.1 key 0, acc.2)
  else
    (Function.update acc.1 key (acc.1 key + 1),
      if threshold ≤ acc.1 key + 1 then acc.2 ++ [key] else acc.2)

/-- Count the keys in turn; the keys that are due come second. -/
def sweep (seen : κ → Bool) (threshold : UInt32) (counts : κ → UInt32) (keys : List κ) :
    (κ → UInt32) × List κ :=
  keys.foldl (visit seen threshold) (counts, [])

/-- What a sweep over distinct keys leaves and collects. -/
lemma foldl_visit {seen : κ → Bool} {threshold : UInt32} {keys : List κ} (hkeys : keys.Nodup)
    (acc : (κ → UInt32) × List κ) (key : κ) :
    ((keys.foldl (visit seen threshold) acc).1 key =
        if key ∈ keys then (if seen key then 0 else acc.1 key + 1) else acc.1 key) ∧
      (key ∈ (keys.foldl (visit seen threshold) acc).2 ↔
        key ∈ acc.2 ∨ key ∈ keys ∧ seen key = false ∧ threshold ≤ acc.1 key + 1) := by
  induction keys generalizing acc with
  | nil => simp
  | cons k keys ih =>
    obtain ⟨hk, hkeys⟩ := List.nodup_cons.mp hkeys
    obtain ⟨hcount, hdue⟩ := ih hkeys (visit seen threshold acc k)
    rw [List.foldl_cons, hcount, hdue]
    by_cases heq : key = k
    · subst heq
      -- the key is counted here and not again
      simp only [hk, if_false, List.mem_cons, true_or, if_true, visit]
      cases hseen : seen key with
      | true => simp
      | false =>
        by_cases hle : threshold ≤ acc.1 key + 1
        · simp [hle]
        · simp [hle]
    · have hcount' : (visit seen threshold acc k).1 key = acc.1 key := by
        unfold visit
        split <;> exact Function.update_of_ne heq _ _
      have hdue' : key ∈ (visit seen threshold acc k).2 ↔ key ∈ acc.2 := by
        unfold visit
        split
        · rfl
        · split
          · simp [heq]
          · rfl
      rw [hcount', hdue']
      simp [heq]

/-- The count of a key after a sweep. -/
lemma sweep_count {seen : κ → Bool} {threshold : UInt32} {counts : κ → UInt32} {keys : List κ}
    (hkeys : keys.Nodup) (key : κ) :
    (sweep seen threshold counts keys).1 key =
      if key ∈ keys then (if seen key then 0 else counts key + 1) else counts key :=
  (foldl_visit hkeys (counts, []) key).1

/-- The keys a sweep collects. -/
lemma mem_sweep {seen : κ → Bool} {threshold : UInt32} {counts : κ → UInt32} {keys : List κ}
    (hkeys : keys.Nodup) {key : κ} :
    key ∈ (sweep seen threshold counts keys).2 ↔
      key ∈ keys ∧ seen key = false ∧ threshold ≤ counts key + 1 := by
  rw [sweep, (foldl_visit hkeys (counts, []) key).2]
  simp

/-! ## The current absence -/

/-- The latest cycles of a history that have the property, the last one first. -/
def streak (p : ρ → Bool) (history : List ρ) : List ρ := history.reverse.takeWhile p

@[simp] lemma streak_nil (p : ρ → Bool) : streak p ([] : List ρ) = [] := rfl

/-- The cycles of a streak are of the history and have the property. -/
lemma mem_streak {p : ρ → Bool} {history : List ρ} {r : ρ} (h : r ∈ streak p history) :
    r ∈ history ∧ p r = true :=
  ⟨List.mem_reverse.mp ((List.takeWhile_sublist p).subset h), List.mem_takeWhile_imp h⟩

/-- One more cycle goes on with the streak or ends it. -/
lemma streak_append_singleton (p : ρ → Bool) (history : List ρ) (r : ρ) :
    streak p (history ++ [r]) = if p r then r :: streak p history else [] := by
  rw [streak, List.reverse_append, List.reverse_singleton, List.singleton_append,
    List.takeWhile_cons]
  rfl

lemma streak_congr {p q : ρ → Bool} {history : List ρ} (h : ∀ r ∈ history, p r = q r) :
    streak p history = streak q history := by
  induction history using List.reverseRecOn with
  | nil => rfl
  | append_singleton history r ih =>
    rw [streak_append_singleton, streak_append_singleton, h r (by simp),
      ih fun r' hr' => h r' (by simp [hr'])]

/-- An action is due when the absence has lasted long enough and the action has not fallen on one of
the cycles of the absence before. -/
def Due (p : ρ → Bool) (z : ρ → Prop) (length : ℕ) (history : List ρ) (r : ρ) : Prop :=
  length ≤ (streak p (history ++ [r])).length ∧ ∀ r' ∈ streak p history, ¬ z r'

instance (p : ρ → Bool) (z : ρ → Prop) [DecidablePred z] (length : ℕ) (history : List ρ) (r : ρ) :
    Decidable (Due p z length history r) :=
  inferInstanceAs (Decidable (_ ∧ _))

/-- The action fell on no cycle of an absence exactly when the absence is still short, if it falls
on the cycles in which an absence reaches the length. -/
lemma forall_streak_iff {p : ρ → Bool} {z : ρ → Prop} {length : ℕ} (hlength : 0 < length)
    {history : List ρ}
    (h : Guarded (fun history r => z r ↔ (streak p (history ++ [r])).length = length) history) :
    (∀ r ∈ streak p history, ¬ z r) ↔ (streak p history).length < length := by
  induction history using List.reverseRecOn with
  | nil => simpa using hlength
  | append_singleton history r ih =>
    obtain ⟨hhistory, hr⟩ := guarded_append_singleton.mp h
    rw [streak_append_singleton] at hr ⊢
    cases hp : p r with
    | false => simpa using hlength
    | true =>
      simp only [hp, if_true, List.length_cons] at hr
      simp only [if_true, List.forall_mem_cons, ih hhistory, hr, List.length_cons]
      omega

/-- An action falls on the cycles in which it is due exactly when it falls on those in which an
absence reaches the length. -/
lemma guarded_due_iff {p : ρ → Bool} {z : ρ → Prop} {length : ℕ} (hlength : 0 < length)
    (history : List ρ) :
    Guarded (fun history r => z r ↔ Due p z length history r) history ↔
      Guarded (fun history r => z r ↔ (streak p (history ++ [r])).length = length) history := by
  induction history using List.reverseRecOn with
  | nil => exact Iff.rfl
  | append_singleton history r ih =>
    rw [guarded_append_singleton, guarded_append_singleton, ih]
    refine and_congr_right fun hhistory => iff_congr Iff.rfl ?_
    rw [Due, forall_streak_iff hlength hhistory, streak_append_singleton]
    cases p r with
    | false => simp [hlength.ne, hlength.ne']
    | true =>
      simp only [if_true, List.length_cons]
      omega

end MissingCounts
