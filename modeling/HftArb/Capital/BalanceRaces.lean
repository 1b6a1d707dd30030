import HftArb.Capital.BalanceAllocator
import HftArb.Foundations.Runs

/-!
# Concurrent changes of local balances

`fetch_sub_balance` and `fetch_add_balance` are called by trades and by the rebalancer at the same
time.  Each makes one atomic access to one word of the balance table, so that an interleaving of
calls is a list of them.

The subtraction is guarded, the addition is not.  The balances are those of the books, for every
pair of exchange and token and at every point of a run, exactly when no addition passes the largest
word and no subtraction of more than the largest word finds it stored (`balances_conserved_iff`).
-/

namespace HftArb

open Runs Saturating

namespace LocalCapitalAllocator

/-- A call that changes a balance. -/
inductive BalanceCall
  | fetchAdd (exchangeId tokenId : ℕ) (amount : Decimal)
  | fetchSub (exchangeId tokenId : ℕ) (amount : Decimal)

/-- An entry of the books of a pair, in micro-units. -/
inductive BookEntry
  | added (exchangeId tokenId : ℕ) (units : ℕ)
  | subtracted (exchangeId tokenId : ℕ) (units : ℕ)

/-- The amount an entry adds to a pair. -/
def BookEntry.addedTo (e t : ℕ) : BookEntry → ℕ
  | .added e' t' units => if e = e' ∧ t = t' then units else 0
  | .subtracted _ _ _ => 0

/-- The amount an entry subtracts from a pair. -/
def BookEntry.subtractedFrom (e t : ℕ) : BookEntry → ℕ
  | .added _ _ _ => 0
  | .subtracted e' t' units => if e = e' ∧ t = t' then units else 0

/-- One call, with its entry in the books: an addition to a pair of the table, or a subtraction that
does not exceed the balance. -/
def balanceStep (a : LocalCapitalAllocator) :
    BalanceCall → LocalCapitalAllocator × List BookEntry
  | .fetchAdd e t amount =>
    (a.fetchAddBalance e t amount,
      if a.InTable e t then [.added e t (microUnits amount)] else [])
  | .fetchSub e t amount =>
    (a.fetchSubBalance e t amount,
      if microUnits amount ≤ (a.storedFp e t).toNat then [.subtracted e t (microUnits amount)]
      else [])

/-- The total added to a pair. -/
def totalAdded (e t : ℕ) (entries : List BookEntry) : ℕ :=
  (entries.map (BookEntry.addedTo e t)).sum

/-- The total subtracted from a pair. -/
def totalSubtracted (e t : ℕ) (entries : List BookEntry) : ℕ :=
  (entries.map (BookEntry.subtractedFrom e t)).sum

/-- The balances are the initial ones with the entries of the books. -/
def BooksAgree (before after : LocalCapitalAllocator) (entries : List BookEntry) : Prop :=
  ∀ e t, (after.storedFp e t).toNat + totalSubtracted e t entries =
    (before.storedFp e t).toNat + totalAdded e t entries

/-- The balances agree with the books at every point of a run. -/
def Conserved (a : LocalCapitalAllocator) (calls : List BalanceCall) : Prop :=
  ∀ before after, calls = before ++ after →
    BooksAgree a (runState balanceStep a before) (runTrace balanceStep a before)

/-- A call stays within the words: an addition does not pass the largest one, and the largest one
is not stored when more than it is to be subtracted. -/
def StaysInWord (a : LocalCapitalAllocator) : BalanceCall → Prop
  | .fetchAdd e t amount =>
    a.InTable e t → (a.storedFp e t).toNat + microUnits amount < 2 ^ 64
  | .fetchSub e t amount => 2 ^ 64 ≤ microUnits amount → a.storedFp e t ≠ maxWord

instance (a : LocalCapitalAllocator) : DecidablePred (StaysInWord a)
  | .fetchAdd e t amount =>
    inferInstanceAs (Decidable (a.InTable e t →
      (a.storedFp e t).toNat + microUnits amount < 2 ^ 64))
  | .fetchSub e t amount =>
    inferInstanceAs (Decidable (2 ^ 64 ≤ microUnits amount → a.storedFp e t ≠ maxWord))

@[simp] lemma totalAdded_append (e t : ℕ) (entries more : List BookEntry) :
    totalAdded e t (entries ++ more) = totalAdded e t entries + totalAdded e t more := by
  simp [totalAdded]

@[simp] lemma totalSubtracted_append (e t : ℕ) (entries more : List BookEntry) :
    totalSubtracted e t (entries ++ more) =
      totalSubtracted e t entries + totalSubtracted e t more := by
  simp [totalSubtracted]

/-! ## One call -/

/-- An addition agrees with the books exactly when it does not pass the largest word. -/
lemma booksAgree_fetchAdd_iff (a : LocalCapitalAllocator) (e t : ℕ) (amount : Decimal) :
    BooksAgree a (balanceStep a (.fetchAdd e t amount)).1 (balanceStep a (.fetchAdd e t amount)).2 ↔
      StaysInWord a (.fetchAdd e t amount) := by
  rw [balanceStep, StaysInWord]
  by_cases hin : a.InTable e t
  · rw [if_pos hin, BooksAgree]
    have hword := (a.storedFp e t).toNat_lt
    have hfp := decimalToFp_toNat amount
    have hsum : (a.storedFp e t + decimalToFp amount).toNat =
        (a.storedFp e t).toNat + microUnits amount ↔
          (a.storedFp e t).toNat + microUnits amount < 2 ^ 64 := by
      rw [UInt64.toNat_add, hfp]
      omega
    simp only [storedFp_fetchAddBalance, hin, and_true, totalAdded, totalSubtracted,
      List.map_cons, List.map_nil, List.sum_cons, List.sum_nil, BookEntry.addedTo,
      BookEntry.subtractedFrom, Nat.add_zero, forall_const]
    constructor
    · intro h
      have hpair := h e t
      rw [if_pos ⟨rfl, rfl⟩, if_pos ⟨rfl, rfl⟩] at hpair
      exact hsum.mp hpair
    · intro h e' t'
      split
      next hpair => rw [hsum.mpr h, hpair.1, hpair.2]
      next => rfl
  · rw [if_neg hin, BooksAgree]
    refine iff_of_true ?_ fun h => absurd h hin
    intro e' t'
    rw [storedFp_fetchAddBalance, if_neg fun h => hin h.2]
    rfl

/-- A subtraction agrees with the books exactly when it does not take the largest word for more. -/
lemma booksAgree_fetchSub_iff (a : LocalCapitalAllocator) (e t : ℕ) (amount : Decimal) :
    BooksAgree a (balanceStep a (.fetchSub e t amount)).1 (balanceStep a (.fetchSub e t amount)).2 ↔
      StaysInWord a (.fetchSub e t amount) := by
  have hword := (a.storedFp e t).toNat_lt
  have hfp := decimalToFp_toNat amount
  have hmax : a.storedFp e t = maxWord ↔ (a.storedFp e t).toNat = 2 ^ 64 - 1 := by
    rw [← UInt64.toNat_inj, maxWord_toNat]
  rw [balanceStep, StaysInWord]
  by_cases hle : microUnits amount ≤ (a.storedFp e t).toNat
  · have hfit : decimalToFp amount ≤ a.storedFp e t := by
      rw [UInt64.le_iff_toNat_le, hfp]
      omega
    rw [if_pos hle]
    refine iff_of_true ?_ fun h => by omega
    intro e' t'
    simp only [storedFp_fetchSubBalance, hfit, and_true, totalAdded, totalSubtracted,
      List.map_cons, List.map_nil, List.sum_cons, List.sum_nil, BookEntry.addedTo,
      BookEntry.subtractedFrom, Nat.add_zero]
    split
    next hpair =>
      rw [UInt64.toNat_sub_of_le _ _ hfit, hfp, hpair.1, hpair.2]
      omega
    next => rfl
  · rw [if_neg hle]
    constructor
    · intro h hbig hstored
      have hpair := h e t
      have hfit : decimalToFp amount ≤ a.storedFp e t := by
        rw [UInt64.le_iff_toNat_le, hfp, hmax.mp hstored]
        exact min_le_right _ _
      rw [storedFp_fetchSubBalance, if_pos ⟨⟨rfl, rfl⟩, hfit⟩, UInt64.toNat_sub_of_le _ _ hfit,
        hfp, hmax.mp hstored] at hpair
      simp only [totalAdded, totalSubtracted, List.map_nil, List.sum_nil, Nat.add_zero] at hpair
      omega
    · intro h e' t'
      have hfit : ¬ decimalToFp amount ≤ a.storedFp e t := by
        intro hfit
        rw [UInt64.le_iff_toNat_le, hfp] at hfit
        exact h (by omega) (hmax.mpr (by omega))
      rw [storedFp_fetchSubBalance, if_neg fun hpair => hfit hpair.2]
      rfl

lemma booksAgree_step_iff (a : LocalCapitalAllocator) (call : BalanceCall) :
    BooksAgree a (balanceStep a call).1 (balanceStep a call).2 ↔ StaysInWord a call := by
  cases call with
  | fetchAdd e t amount => exact booksAgree_fetchAdd_iff a e t amount
  | fetchSub e t amount => exact booksAgree_fetchSub_iff a e t amount

/-! ## Whole runs -/

section Compose

variable {a b c : LocalCapitalAllocator} {entries more : List BookEntry}

lemma BooksAgree.trans (h : BooksAgree a b entries) (h' : BooksAgree b c more) :
    BooksAgree a c (entries ++ more) := by
  intro e t
  have hfirst := h e t
  have hsecond := h' e t
  rw [totalAdded_append, totalSubtracted_append]
  omega

lemma BooksAgree.of_trans (h : BooksAgree a b entries) (h' : BooksAgree a c (entries ++ more)) :
    BooksAgree b c more := by
  intro e t
  have hfirst := h e t
  have hall := h' e t
  rw [totalAdded_append, totalSubtracted_append] at hall
  omega

end Compose

/-- **Local balances are conserved exactly as long as every call stays within the words.** -/
theorem balances_conserved_iff (a : LocalCapitalAllocator) (calls : List BalanceCall) :
    Conserved a calls ↔
      ∀ before call after, calls = before ++ call :: after →
        StaysInWord (runState balanceStep a before) call := by
  constructor
  · rintro h before call after rfl
    have hbefore := h before (call :: after) rfl
    have hnext := h (before ++ [call]) after (by simp)
    rw [runState_append, runTrace_append, runTrace_cons, runTrace_nil, List.append_nil] at hnext
    exact (booksAgree_step_iff _ call).mp (hbefore.of_trans hnext)
  · rintro h before after rfl
    have hstart : BooksAgree a a [] := fun e t => rfl
    refine run_induction (I := BooksAgree a) (C := fun b _ call => StaysInWord b call)
      (fun b entries call hb hcall => hb.trans ((booksAgree_step_iff b call).mpr hcall)) hstart ?_
    rintro first call rest rfl
    exact h first call (rest ++ after) (by simp)

/-- A table of one pair that holds the largest word. -/
def fullTable : LocalCapitalAllocator :=
  { balances := fun _ => maxWord, totalTokens := 1, totalExchanges := 1, symbols := fun _ => none }

/-- Adding one unit to a word of 18446744073709.551615 units wraps to 0.999999. -/
theorem fullTable_not_conserved : ¬ Conserved fullTable [.fetchAdd 0 0 1] := by
  intro h
  have hafter := h [.fetchAdd 0 0 1] [] rfl 0 0
  exact absurd hafter (by decide +kernel)

end LocalCapitalAllocator

end HftArb
