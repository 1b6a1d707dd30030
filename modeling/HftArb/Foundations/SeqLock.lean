import Mathlib.Order.Basic

/-!
# Sequence locks

A cell is read without a lock while it may be written.  Its age grows with each write, it is not
settled while a write is under way, and a read is taken back unless it finds the cell settled and of
the same age before and after it.

`Seen` is what such a read knows between its accesses, and `Seen.changed` that it still does after a
change of the cell: a change under way leaves the age and the cell unsettled, and any other makes it
older.
-/

namespace SeqLock

/-- The lowest bit of a sequence word is its parity. -/
lemma and_one_eq_zero_iff (w : UInt64) : w &&& 1 = 0 ↔ w.toNat % 2 = 0 := by
  rw [← UInt64.toNat_inj, UInt64.toNat_and]
  simp [Nat.and_one_is_mod]

variable {F A : Type*} [Preorder A] (age : F → A) (Settled : F → Prop)

/-- A cell is left as it is, or is not settled before and after, or gets older. -/
inductive Changed (f : F) : F → Prop
  | same : Changed f f
  | unsettled {f' : F} (hage : age f' = age f) (hsettled : ¬ Settled f') : Changed f f'
  | older {f' : F} (hage : age f < age f') : Changed f f'

/-- What a read knows that has found a cell of an age: the cell is not younger now, and what the
read has seen is still there if the age is. -/
structure Seen (f : F) (found : A) (view : F → Prop) : Prop where
  le : found ≤ age f
  view : age f = found → Settled f → view f

variable {age Settled} {f f' : F} {found : A} {view view' : F → Prop}

/-- A read begins with the age that it finds. -/
lemma Seen.start (f : F) : Seen age Settled f (age f) fun _ => True :=
  ⟨le_rfl, fun _ _ => trivial⟩

/-- A read sees more of the cell. -/
lemma Seen.imp (h : Seen age Settled f found view) (himp : view f → view' f) :
    Seen age Settled f found view' :=
  ⟨h.le, fun hage hsettled => himp (h.view hage hsettled)⟩

/-- A read is not disturbed by a change. -/
lemma Seen.changed (h : Seen age Settled f found view) (hchanged : Changed age Settled f f') :
    Seen age Settled f' found view := by
  cases hchanged with
  | same => exact h
  | unsettled hage hsettled =>
    exact ⟨hage ▸ h.le, fun _ hsettled' => absurd hsettled' hsettled⟩
  | older hage =>
    refine ⟨h.le.trans hage.le, fun hfound => ?_⟩
    exact absurd hfound (h.le.trans_lt hage).ne'

end SeqLock
