import Mathlib.Tactic

/-!
# Latches

A latch is a flag that some instants set and some instants clear, off at the start.  At each instant
it may be cleared, then set, then cleared again, so that the order of the two within an instant is
up to the events and not to the model.

`on_iff` says when the flag is on: it was set at some earlier instant and nothing has cleared it
since.  `held_iff` is the same for a flag that stays on for a time.
-/

/-- The events of a latch: the instants at which it is set, and those at which it is cleared before
or after the point where it may be set. -/
structure Latch where
  sets : ℕ → Prop
  clearsBefore : ℕ → Prop
  clearsAfter : ℕ → Prop

namespace Latch

variable (l : Latch)

/-- The latch is on before the instant `n`. -/
def On : ℕ → Prop
  | 0 => False
  | n + 1 => (On n ∧ ¬ l.clearsBefore n ∨ l.sets n) ∧ ¬ l.clearsAfter n

/-- The latch is on at the instant `n`, right before it may be set. -/
def OnBefore (n : ℕ) : Prop := l.On n ∧ ¬ l.clearsBefore n

/-- The latch is on at the instant `n`, right after it may have been set. -/
def OnAfter (n : ℕ) : Prop := l.OnBefore n ∨ l.sets n

/-- The latch is on from the point of the instant `n` where it may be set until the instant
`n + d`. -/
def Held (n d : ℕ) : Prop :=
  l.OnAfter n ∧ l.On (n + 1) ∧
    ∀ k, n < k → k < n + d → l.OnBefore k ∧ l.OnAfter k ∧ l.On (k + 1)

/-- Nothing clears the latch from the point of the instant `m` where it may be set until the instant
`n`. -/
def Quiet (m n : ℕ) : Prop :=
  ¬ l.clearsAfter m ∧ ∀ k, m < k → k < n → ¬ l.clearsBefore k ∧ ¬ l.clearsAfter k

variable {l}

/-- A quiet time contains every shorter one. -/
lemma Quiet.mono {m n n' : ℕ} (h : l.Quiet m n) (hle : n' ≤ n) : l.Quiet m n' :=
  ⟨h.1, fun k hk hkn => h.2 k hk (lt_of_lt_of_le hkn hle)⟩

/-- A quiet time goes on for one more instant when nothing clears the latch in it. -/
lemma quiet_succ_iff {m n : ℕ} (hm : m ≤ n) :
    l.Quiet m (n + 1) ↔
      (m < n → l.Quiet m n ∧ ¬ l.clearsBefore n) ∧ ¬ l.clearsAfter n := by
  constructor
  · rintro ⟨hfirst, hrest⟩
    constructor
    · intro hlt
      have hold : l.Quiet m n := Quiet.mono ⟨hfirst, hrest⟩ n.le_succ
      exact ⟨hold, (hrest n hlt n.lt_succ_self).1⟩
    · rcases hm.lt_or_eq with hlt | rfl
      · exact (hrest n hlt n.lt_succ_self).2
      · exact hfirst
  · rintro ⟨hold, hlast⟩
    rcases hm.lt_or_eq with hlt | rfl
    · obtain ⟨⟨hfirst, hrest⟩, hclears⟩ := hold hlt
      refine ⟨hfirst, ?_⟩
      intro k hk hkn
      rcases Nat.lt_succ_iff_lt_or_eq.mp hkn with h | rfl
      · exact hrest k hk h
      · exact ⟨hclears, hlast⟩
    · refine ⟨hlast, ?_⟩
      intro k hk hkn
      omega

/-- The latch is on right after an instant may have set it when something has set it and nothing has
cleared it since, given the same for the instants before. -/
lemma onAfter_iff_of_on {n : ℕ} (hon : l.On n ↔ ∃ m < n, l.sets m ∧ l.Quiet m n) :
    l.OnAfter n ↔ ∃ m ≤ n, l.sets m ∧ (m < n → l.Quiet m n ∧ ¬ l.clearsBefore n) := by
  unfold OnAfter OnBefore
  rw [hon]
  constructor
  · rintro (⟨⟨m, hm, hset, hquiet⟩, hclears⟩ | hset)
    · exact ⟨m, hm.le, hset, fun _ => ⟨hquiet, hclears⟩⟩
    · exact ⟨n, le_rfl, hset, fun h => absurd h (lt_irrefl n)⟩
  · rintro ⟨m, hm, hset, hquiet⟩
    rcases hm.lt_or_eq with hlt | rfl
    · obtain ⟨hold, hclears⟩ := hquiet hlt
      exact Or.inl ⟨⟨m, hlt, hset, hold⟩, hclears⟩
    · exact Or.inr hset

/-- The latch is on exactly when something has set it and nothing has cleared it since. -/
lemma on_iff (n : ℕ) : l.On n ↔ ∃ m < n, l.sets m ∧ l.Quiet m n := by
  induction n with
  | zero => exact iff_of_false id fun ⟨m, hm, _⟩ => absurd hm m.not_lt_zero
  | succ n ih =>
    have hstep : l.On (n + 1) ↔ l.OnAfter n ∧ ¬ l.clearsAfter n := Iff.rfl
    rw [hstep, onAfter_iff_of_on ih]
    constructor
    · rintro ⟨⟨m, hm, hset, hquiet⟩, hclears⟩
      exact ⟨m, Nat.lt_succ_of_le hm, hset, (quiet_succ_iff hm).mpr ⟨hquiet, hclears⟩⟩
    · rintro ⟨m, hm, hset, hquiet⟩
      have hle : m ≤ n := Nat.le_of_lt_succ hm
      obtain ⟨hold, hclears⟩ := (quiet_succ_iff hle).mp hquiet
      exact ⟨⟨m, hle, hset, hold⟩, hclears⟩

/-- The latch stays on for a time exactly when something has set it by the start of the time and
nothing clears it from then to the end of the time. -/
lemma held_iff {n d : ℕ} (hd : 0 < d) :
    l.Held n d ↔ ∃ m ≤ n, l.sets m ∧ l.Quiet m (n + d) := by
  constructor
  · rintro ⟨hpoint, hnow, hlater⟩
    obtain ⟨m, hm, hset, hquiet⟩ := (onAfter_iff_of_on (on_iff n)).mp hpoint
    have hfirst : l.Quiet m (n + 1) := (quiet_succ_iff hm).mpr ⟨hquiet, hnow.2⟩
    refine ⟨m, hm, hset, hfirst.1, ?_⟩
    intro k hk hkn
    by_cases hkm : k < n + 1
    · exact hfirst.2 k hk hkm
    · obtain ⟨hbefore, -, hafter⟩ := hlater k (by omega) hkn
      exact ⟨hbefore.2, hafter.2⟩
  · rintro ⟨m, hm, hset, hquiet⟩
    have hon : ∀ k, m < k → k ≤ n + d → l.On k := by
      intro k hk hkn
      exact (on_iff k).mpr ⟨m, hk, hset, hquiet.mono hkn⟩
    have hnow : l.On (n + 1) := hon (n + 1) (by omega) (by omega)
    refine ⟨hnow.1, hnow, ?_⟩
    intro k hk hkn
    have hafter : l.On (k + 1) := hon (k + 1) (by omega) hkn
    have hclears : ¬ l.clearsBefore k := (hquiet.2 k (by omega) hkn).1
    exact ⟨⟨hon k (by omega) hkn.le, hclears⟩, hafter.1, hafter⟩

end Latch
