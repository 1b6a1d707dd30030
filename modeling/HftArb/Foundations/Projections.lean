import HftArb.Foundations.Runs

/-!
# Runs seen from one side

Several parties drive one system by their inputs, and a view says what one of them sees of a state.
If the inputs that do not concern it leave the view alone, and the view after one of the others
depends on the view before it only, then the view after a run is that after the inputs that concern
the party (`view_filter`), however these are interleaved with those of the others.
-/

namespace Runs

variable {σ α ε β : Type*}

/-- What a party sees of a system, and the inputs that concern it, in the states where `I` holds. -/
structure View (step : σ → α → σ × List ε) (I : σ → Prop) (view : σ → β) (concerns : α → Bool) :
    Prop where
  invariant : ∀ s a, I s → I (step s a).1
  keep : ∀ s t a, I s → I t → view s = view t → concerns a = true →
    view (step s a).1 = view (step t a).1
  skip : ∀ s a, I s → concerns a = false → view (step s a).1 = view s

namespace View

variable {step : σ → α → σ × List ε} {I : σ → Prop} {view : σ → β} {concerns : α → Bool}

/-- The inputs that do not concern a party can be left out. -/
lemma view_filter (h : View step I view concerns) {s t : σ} (hs : I s) (ht : I t)
    (heq : view s = view t) (as : List α) :
    view (runState step s as) = view (runState step t (as.filter concerns)) := by
  induction as generalizing s t with
  | nil => exact heq
  | cons a as ih =>
    cases ha : concerns a with
    | true =>
      rw [List.filter_cons_of_pos ha]
      exact ih (h.invariant s a hs) (h.invariant t a ht) (h.keep s t a hs ht heq ha)
    | false =>
      rw [List.filter_cons_of_neg (Bool.not_eq_true _ ▸ ha)]
      exact ih (h.invariant s a hs) ht ((h.skip s a hs ha).trans heq)

end View

end Runs
