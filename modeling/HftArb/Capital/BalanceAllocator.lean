import HftArb.Decimal

/-!
# The capital allocator and the balance synchroniser

`LocalCapitalAllocator` is the table of balances, in micro-units, of every token on every exchange,
together with the symbols the coin finder has registered.  Identifiers outside the table read as a
zero balance and are not written.

The synchroniser asks every exchange for the balance of one token and overwrites its slot; an
exchange that fails to answer keeps the balance it had.
-/

namespace HftArb

open Saturating

/-- The balance table and the symbol registry. -/
structure LocalCapitalAllocator where
  balances : ℕ → UInt64
  totalTokens : ℕ
  totalExchanges : ℕ
  symbols : UInt16 → Option String

/-- The whole micro-units of an amount. -/
def microUnits (d : Decimal) : ℕ := ⌊d * fpScale⌋.toNat

/-- The fixed-point word of an amount is its micro-units, up to the largest word. -/
lemma decimalToFp_toNat (d : Decimal) :
    (decimalToFp d).toNat = min (microUnits d) (2 ^ 64 - 1) := by
  have hscale : (0 : ℚ) < fpScale := by norm_num [fpScale]
  have hmax : Decimal.ofU64 maxWord = ((2 ^ 64 - 1 : ℕ) : ℚ) := rfl
  rw [decimalToFp, microUnits]
  by_cases hneg : d < 0
  · have hfloor : ⌊d * fpScale⌋ ≤ 0 := by
      rw [← Int.lt_add_one_iff, Int.floor_lt]
      push_cast
      linarith [mul_neg_of_neg_of_pos hneg hscale]
    rw [if_pos hneg, Int.toNat_of_nonpos hfloor]
    rfl
  have hnonneg : 0 ≤ d * fpScale := mul_nonneg (not_lt.mp hneg) hscale.le
  rw [if_neg hneg]
  by_cases hbig : Decimal.ofU64 maxWord < d * fpScale
  · have hle : 2 ^ 64 - 1 ≤ ⌊d * fpScale⌋.toNat := by
      rw [Int.floor_toNat, Nat.le_floor_iff hnonneg, ← hmax]
      exact hbig.le
    rw [if_pos hbig, min_eq_right hle]
    rfl
  · have hle : ⌊d * fpScale⌋.toNat ≤ 2 ^ 64 - 1 := by
      rw [Int.floor_toNat]
      apply Nat.floor_le_of_le
      rw [← hmax]
      exact not_lt.mp hbig
    have hfits : ¬ 2 ^ 64 ≤ ⌊d * fpScale⌋.toNat := by omega
    rw [if_neg hbig, Decimal.toU64, if_neg (not_lt.mpr hnonneg), if_neg hfits, min_eq_left hle]
    exact UInt64.toNat_ofNat_of_lt' (not_le.mp hfits)

lemma microUnits_mono {d d' : Decimal} (h : d ≤ d') : microUnits d ≤ microUnits d' := by
  have hscale : (0 : ℚ) ≤ fpScale := by norm_num [fpScale]
  exact Int.toNat_le_toNat (Int.floor_le_floor (mul_le_mul_of_nonneg_right h hscale))

namespace LocalCapitalAllocator

/-- The slot of an (exchange, token) pair, if it is in the table. -/
def idx (a : LocalCapitalAllocator) (exchangeId tokenId : ℕ) : Option ℕ :=
  if a.totalExchanges ≤ exchangeId ∨ a.totalTokens ≤ tokenId then none
  else some (exchangeId * a.totalTokens + tokenId)

/-- The registered symbol of a token. -/
def getSymbol (a : LocalCapitalAllocator) (id : UInt16) : Option String := a.symbols id

/-- The symbol of a token, or the synthetic one the signal loop falls back to. -/
def symbolOrToken (a : LocalCapitalAllocator) (id : UInt16) : String :=
  (a.getSymbol id).getD ("TOKEN" ++ toString id)

/-- Overwrite a balance. -/
def updateBalanceAtomic (a : LocalCapitalAllocator) (exchangeId tokenId : ℕ)
    (balance : Decimal) : LocalCapitalAllocator :=
  match a.idx exchangeId tokenId with
  | some i => { a with balances := Function.update a.balances i (decimalToFp balance) }
  | none => a

/-- Read a balance. -/
def getBalanceAtomic (a : LocalCapitalAllocator) (exchangeId tokenId : ℕ) : Decimal :=
  match a.idx exchangeId tokenId with
  | some i => fpToDecimal (a.balances i)
  | none => 0

/-- A balance is not negative. -/
lemma getBalanceAtomic_nonneg (a : LocalCapitalAllocator) (exchangeId tokenId : ℕ) :
    0 ≤ a.getBalanceAtomic exchangeId tokenId := by
  unfold getBalanceAtomic
  split
  · exact fpToDecimal_nonneg _
  · exact le_rfl

/-- Subtract an amount, in micro-units, unless the balance is smaller. -/
def fetchSubBalance (a : LocalCapitalAllocator) (exchangeId tokenId : ℕ) (amount : Decimal) :
    LocalCapitalAllocator :=
  let fp := decimalToFp amount
  if fp = 0 then a
  else
    match a.idx exchangeId tokenId with
    | none => a
    | some i =>
      if fp ≤ a.balances i then
        { a with balances := Function.update a.balances i (a.balances i - fp) }
      else a

/-- Add an amount, in micro-units; the sum wraps. -/
def fetchAddBalance (a : LocalCapitalAllocator) (exchangeId tokenId : ℕ) (amount : Decimal) :
    LocalCapitalAllocator :=
  let fp := decimalToFp amount
  if fp = 0 then a
  else
    match a.idx exchangeId tokenId with
    | none => a
    | some i => { a with balances := Function.update a.balances i (a.balances i + fp) }

/-- The balance of a token, capped by a share of the capital. -/
def computeLotSize (a : LocalCapitalAllocator) (exchangeId tokenId : ℕ)
    (maxPct capital : Decimal) : Decimal :=
  let available := a.getBalanceAtomic exchangeId tokenId
  let cap := capital * maxPct
  if available < cap then available else cap

/-! ## Balance synchronisation -/

/-- Ask an exchange for a balance and store the answer. -/
def syncExchangeBalance (a : LocalCapitalAllocator) (exchangeId : UInt16) (tokenId : ℕ)
    (answer : Except String Decimal) : LocalCapitalAllocator :=
  match answer with
  | .ok balance => a.updateBalanceAtomic exchangeId.toNat tokenId balance
  | .error _ => a

/-- One cycle of the periodic synchronisation over the answers of all exchanges. -/
def syncCycle (a : LocalCapitalAllocator) (tokenId : ℕ)
    (answers : List (UInt16 × Except String Decimal)) : LocalCapitalAllocator :=
  answers.foldl (fun a x => a.syncExchangeBalance x.1 tokenId x.2) a

/-! ## The words of the table -/

/-- The pair of identifiers is in the table. -/
def InTable (a : LocalCapitalAllocator) (exchangeId tokenId : ℕ) : Prop :=
  exchangeId < a.totalExchanges ∧ tokenId < a.totalTokens

instance (a : LocalCapitalAllocator) (exchangeId tokenId : ℕ) :
    Decidable (a.InTable exchangeId tokenId) :=
  inferInstanceAs (Decidable (_ ∧ _))

/-- The word of a pair, zero outside the table. -/
def storedFp (a : LocalCapitalAllocator) (exchangeId tokenId : ℕ) : UInt64 :=
  match a.idx exchangeId tokenId with
  | some i => a.balances i
  | none => 0

lemma idx_of_inTable {a : LocalCapitalAllocator} {e t : ℕ} (h : a.InTable e t) :
    a.idx e t = some (e * a.totalTokens + t) :=
  if_neg (by have := h.1; have := h.2; omega)

lemma idx_of_not_inTable {a : LocalCapitalAllocator} {e t : ℕ} (h : ¬ a.InTable e t) :
    a.idx e t = none :=
  if_pos (by rw [InTable] at h; omega)

lemma storedFp_of_inTable {a : LocalCapitalAllocator} {e t : ℕ} (h : a.InTable e t) :
    a.storedFp e t = a.balances (e * a.totalTokens + t) := by
  rw [storedFp, idx_of_inTable h]

lemma storedFp_of_not_inTable {a : LocalCapitalAllocator} {e t : ℕ} (h : ¬ a.InTable e t) :
    a.storedFp e t = 0 := by
  rw [storedFp, idx_of_not_inTable h]

/-- Different pairs of the table have different slots. -/
lemma slot_inj {T e t e' t' : ℕ} (ht : t < T) (ht' : t' < T) (h : e * T + t = e' * T + t') :
    e = e' ∧ t = t' := by
  have hT : 0 < T := by omega
  have hmod := congrArg (· % T) h
  have hdiv := congrArg (· / T) h
  simp only [Nat.mul_add_mod_self_right, Nat.mod_eq_of_lt ht, Nat.mod_eq_of_lt ht'] at hmod
  simp only [Nat.mul_comm _ T, Nat.mul_add_div hT, Nat.div_eq_of_lt ht, Nat.div_eq_of_lt ht',
    Nat.add_zero] at hdiv
  exact ⟨hdiv, hmod⟩

/-- Writing one slot of the table. -/
lemma storedFp_update {a : LocalCapitalAllocator} {e t : ℕ} (h : a.InTable e t) (w : UInt64)
    (e' t' : ℕ) :
    { a with balances := Function.update a.balances (e * a.totalTokens + t) w }.storedFp e' t' =
      if e' = e ∧ t' = t then w else a.storedFp e' t' := by
  by_cases hin : a.InTable e' t'
  · have hin' : InTable { a with balances := Function.update a.balances (e * a.totalTokens + t) w }
        e' t' := hin
    rw [storedFp_of_inTable hin', storedFp_of_inTable hin]
    dsimp only
    by_cases hsame : e' = e ∧ t' = t
    · rw [if_pos hsame, hsame.1, hsame.2, Function.update_self]
    · rw [if_neg hsame, Function.update_of_ne]
      exact fun heq => hsame (slot_inj hin.2 h.2 heq)
  · have hin' : ¬ InTable { a with
        balances := Function.update a.balances (e * a.totalTokens + t) w } e' t' := hin
    rw [storedFp_of_not_inTable hin', storedFp_of_not_inTable hin, if_neg]
    rintro ⟨rfl, rfl⟩
    exact hin h

/-- What a subtraction does to the words of the table. -/
lemma storedFp_fetchSubBalance (a : LocalCapitalAllocator) (e t : ℕ) (amount : Decimal)
    (e' t' : ℕ) :
    (a.fetchSubBalance e t amount).storedFp e' t' =
      if (e' = e ∧ t' = t) ∧ decimalToFp amount ≤ a.storedFp e t then
        a.storedFp e t - decimalToFp amount
      else a.storedFp e' t' := by
  rw [fetchSubBalance]
  by_cases hzero : decimalToFp amount = 0
  · rw [if_pos hzero, hzero, UInt64.sub_zero]
    split
    next h => rw [h.1.1, h.1.2]
    next => rfl
  rw [if_neg hzero]
  by_cases hin : a.InTable e t
  · rw [idx_of_inTable hin, storedFp_of_inTable hin]
    dsimp only
    by_cases hle : decimalToFp amount ≤ a.balances (e * a.totalTokens + t)
    · rw [if_pos hle, storedFp_update hin]
      simp only [hle, and_true]
    · rw [if_neg hle, if_neg fun h => hle h.2]
  · rw [idx_of_not_inTable hin, storedFp_of_not_inTable hin, if_neg]
    rintro ⟨-, hle⟩
    exact hzero (UInt64.le_zero_iff.mp hle)

/-- What an addition does to the words of the table. -/
lemma storedFp_fetchAddBalance (a : LocalCapitalAllocator) (e t : ℕ) (amount : Decimal)
    (e' t' : ℕ) :
    (a.fetchAddBalance e t amount).storedFp e' t' =
      if (e' = e ∧ t' = t) ∧ a.InTable e t then a.storedFp e t + decimalToFp amount
      else a.storedFp e' t' := by
  rw [fetchAddBalance]
  by_cases hzero : decimalToFp amount = 0
  · rw [if_pos hzero, hzero, UInt64.add_zero]
    split
    next h => rw [h.1.1, h.1.2]
    next => rfl
  rw [if_neg hzero]
  by_cases hin : a.InTable e t
  · rw [idx_of_inTable hin, storedFp_of_inTable hin]
    dsimp only
    rw [storedFp_update hin]
    simp only [hin, and_true]
  · rw [idx_of_not_inTable hin, if_neg fun h => hin h.2]

lemma inTable_fetchSubBalance (a : LocalCapitalAllocator) (e t : ℕ) (amount : Decimal)
    (e' t' : ℕ) : (a.fetchSubBalance e t amount).InTable e' t' ↔ a.InTable e' t' := by
  rw [fetchSubBalance]
  split
  · rfl
  · split
    · rfl
    · split
      · rfl
      · rfl

lemma inTable_fetchAddBalance (a : LocalCapitalAllocator) (e t : ℕ) (amount : Decimal)
    (e' t' : ℕ) : (a.fetchAddBalance e t amount).InTable e' t' ↔ a.InTable e' t' := by
  rw [fetchAddBalance]
  split
  · rfl
  · split
    · rfl
    · rfl

end LocalCapitalAllocator

end HftArb
