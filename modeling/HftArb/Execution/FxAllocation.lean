import HftArb.Decimal
import HftArb.Foundations.AmountMap

/-!
# Allocating capital for a loop of currencies

`allocateFxTriCapital` tops up the listed tokens, one after the other, from the reserve, which is
token 0.  It stops at the first token whose shortfall the reserve cannot pay, and keeps the balances
it has changed until then.  A reserve that is listed itself is topped up from itself, which changes
nothing, and may be drawn below the amount by tokens listed before or after it.

`allocate_iff` says when the allocation is nevertheless all-or-nothing and sufficient: when nothing
is short, when the reserve can pay everything (and keeps the amount where it is listed), or when the
first payment that would change a balance is already too much.
-/

namespace HftArb

namespace FxAllocation

/-- The balances of a pipeline; a token without a balance has the balance zero, and token 0 is the
reserve. -/
abbrev Balances := AmountMap UInt16 Decimal

/-- Draw a shortfall from the reserve and add it to a token. -/
def fund (balances : Balances) (tokenId : UInt16) (shortfall : Decimal) : Balances :=
  let drawn := if 0 ∈ balances.keys then balances.set 0 (balances.amount 0 - shortfall)
    else balances
  drawn.set tokenId (drawn.amount tokenId + shortfall)

section Model

-- How the program prints a decimal, and the amount every listed token has to have.
variable (display : Decimal → String) (amount : Decimal)

/-- The error of a reserve that cannot pay a shortfall. -/
def allocationFailed (usdt shortfall : Decimal) (tokenId : UInt16) : String :=
  "FX tri arb allocation failed: USDT reserve " ++ display usdt ++ " < shortfall " ++
    display shortfall ++ " for token " ++ toString tokenId

/-- Top up the listed tokens; the balances are the ones the call leaves, also with an error. -/
def allocateFxTriCapital : List UInt16 → Balances → Except String Unit × Balances
  | [], balances => (.ok (), balances)
  | tokenId :: rest, balances =>
    if balances.amount tokenId < amount then
      let shortfall := amount - balances.amount tokenId
      let usdt := balances.amount 0
      if usdt < shortfall then
        (.error (allocationFailed display usdt shortfall tokenId), balances)
      else allocateFxTriCapital rest (fund balances tokenId shortfall)
    else allocateFxTriCapital rest balances

end Model

/-! ## One payment -/

section Payment

variable {balances : Balances} {tokenId : UInt16} {shortfall : Decimal}

/-- A reserve that is not zero is in the map. -/
lemma reserve_mem (h : 0 < balances.amount 0) : 0 ∈ balances.keys := by
  by_contra hnot
  exact h.ne' (balances.amount_of_notMem 0 hnot)

/-- The reserve pays itself nothing. -/
lemma fund_reserve (hreserve : 0 ∈ balances.keys) : fund balances 0 shortfall = balances := by
  unfold fund
  rw [if_pos hreserve]
  ext t
  · simp [hreserve]
  · by_cases ht : t = 0
    · rw [ht]
      simp
    · rw [AmountMap.amount_set_of_ne _ ht, AmountMap.amount_set_of_ne _ ht]

/-- What a token has after a payment. -/
lemma amount_fund (hreserve : 0 ∈ balances.keys) (htoken : tokenId ≠ 0) (t : UInt16) :
    (fund balances tokenId shortfall).amount t =
      if t = tokenId then balances.amount t + shortfall
      else if t = 0 then balances.amount 0 - shortfall else balances.amount t := by
  unfold fund
  rw [if_pos hreserve]
  by_cases ht : t = tokenId
  · rw [ht, if_pos rfl, AmountMap.amount_set_self, AmountMap.amount_set_of_ne _ htoken]
  · rw [if_neg ht, AmountMap.amount_set_of_ne _ ht]
    by_cases hzero : t = 0
    · rw [hzero, if_pos rfl, AmountMap.amount_set_self]
    · rw [if_neg hzero, AmountMap.amount_set_of_ne _ hzero]

/-- A payment conserves the sum. -/
lemma total_fund (hreserve : 0 ∈ balances.keys) :
    (fund balances tokenId shortfall).total = balances.total := by
  unfold fund
  rw [if_pos hreserve, AmountMap.total_set, AmountMap.total_set]
  ring

end Payment

/-! ## What the listed tokens need -/

section Needs

variable (amount : Decimal)

/-- The listed tokens other than the reserve that have less than the amount. -/
def shortTokens (tokens : List UInt16) (balances : Balances) : Finset UInt16 :=
  tokens.toFinset.filter fun t => t ≠ 0 ∧ balances.amount t < amount

/-- What these tokens are short of, together. -/
def need (tokens : List UInt16) (balances : Balances) : Decimal :=
  ∑ t ∈ shortTokens amount tokens balances, (amount - balances.amount t)

variable {amount} {tokens rest : List UInt16} {balances : Balances} {tokenId : UInt16}

lemma mem_shortTokens {t : UInt16} : t ∈ shortTokens amount tokens balances ↔
    t ∈ tokens ∧ t ≠ 0 ∧ balances.amount t < amount := by
  simp [shortTokens]

lemma need_nonneg (amount : Decimal) (tokens : List UInt16) (balances : Balances) :
    0 ≤ need amount tokens balances := by
  refine Finset.sum_nonneg fun t ht => ?_
  linarith [(mem_shortTokens.mp ht).2.2]

lemma le_need {t : UInt16} (ht : t ∈ shortTokens amount tokens balances) :
    amount - balances.amount t ≤ need amount tokens balances := by
  refine Finset.single_le_sum (f := fun t => amount - balances.amount t) (fun s hs => ?_) ht
  linarith [(mem_shortTokens.mp hs).2.2]

/-- Without a need no listed token other than the reserve is short. -/
lemma le_amount_of_need (hneed : need amount tokens balances = 0) {t : UInt16} (ht : t ∈ tokens)
    (hzero : t ≠ 0) : amount ≤ balances.amount t := by
  by_contra hshort
  rw [not_le] at hshort
  have hpos : 0 < need amount tokens balances := by
    refine Finset.sum_pos (fun s hs => ?_) ⟨t, mem_shortTokens.mpr ⟨ht, hzero, hshort⟩⟩
    linarith [(mem_shortTokens.mp hs).2.2]
  exact hpos.ne' hneed

/-- A token that has the amount, or is the reserve, needs nothing. -/
lemma need_cons_of_not (h : tokenId = 0 ∨ amount ≤ balances.amount tokenId) :
    need amount (tokenId :: rest) balances = need amount rest balances := by
  have hset : shortTokens amount (tokenId :: rest) balances = shortTokens amount rest balances := by
    ext t
    rw [mem_shortTokens, mem_shortTokens, List.mem_cons]
    constructor
    · rintro ⟨rfl | ht, hzero, hshort⟩
      · exact absurd h (not_or.mpr ⟨hzero, not_le.mpr hshort⟩)
      · exact ⟨ht, hzero, hshort⟩
    · rintro ⟨ht, hzero, hshort⟩
      exact ⟨Or.inr ht, hzero, hshort⟩
  rw [need, hset, need]

/-- A short token needs its shortfall, and the tokens behind it what they need after its payment. -/
lemma need_cons_of_short (hreserve : 0 ∈ balances.keys) (hzero : tokenId ≠ 0)
    (hshort : balances.amount tokenId < amount) :
    need amount (tokenId :: rest) balances = (amount - balances.amount tokenId) +
      need amount rest (fund balances tokenId (amount - balances.amount tokenId)) := by
  have hamount : ∀ t, t ≠ 0 → t ≠ tokenId →
      (fund balances tokenId (amount - balances.amount tokenId)).amount t = balances.amount t := by
    intro t ht hne
    rw [amount_fund hreserve hzero, if_neg hne, if_neg ht]
  have hself : (fund balances tokenId (amount - balances.amount tokenId)).amount tokenId =
      amount := by
    rw [amount_fund hreserve hzero, if_pos rfl, add_sub_cancel]
  have hnot : tokenId ∉ shortTokens amount rest
      (fund balances tokenId (amount - balances.amount tokenId)) := by
    rw [mem_shortTokens, hself]
    exact fun h => lt_irrefl _ h.2.2
  have hset : shortTokens amount (tokenId :: rest) balances = insert tokenId
      (shortTokens amount rest (fund balances tokenId (amount - balances.amount tokenId))) := by
    ext t
    rw [Finset.mem_insert, mem_shortTokens, mem_shortTokens, List.mem_cons]
    by_cases ht : t = tokenId
    · rw [ht]
      exact iff_of_true ⟨Or.inl rfl, hzero, hshort⟩ (Or.inl rfl)
    · by_cases hne : t = 0
      · rw [hne]
        exact iff_of_false (fun h => h.2.1 rfl)
          (not_or.mpr ⟨fun h => hzero h.symm, fun h => h.2.1 rfl⟩)
      · rw [hamount t hne ht]
        simp [ht]
  unfold need
  rw [hset, Finset.sum_insert hnot]
  congr 1
  refine Finset.sum_congr rfl fun t ht => ?_
  have hother : t ≠ tokenId := by
    rintro rfl
    exact hnot ht
  rw [hamount t (mem_shortTokens.mp ht).2.1 hother]

end Needs

/-! ## The whole list -/

section Runs

variable {display : Decimal → String} {amount : Decimal} {tokens rest : List UInt16}
  {balances : Balances} {tokenId : UInt16}

/-- A token that has the amount is passed over. -/
lemma allocate_cons_of_le (h : amount ≤ balances.amount tokenId) :
    allocateFxTriCapital display amount (tokenId :: rest) balances =
      allocateFxTriCapital display amount rest balances := by
  rw [allocateFxTriCapital, if_neg (not_lt.mpr h)]

/-- The reserve cannot pay the shortfall. -/
lemma allocate_cons_of_broke (hshort : balances.amount tokenId < amount)
    (hbroke : balances.amount 0 < amount - balances.amount tokenId) :
    allocateFxTriCapital display amount (tokenId :: rest) balances =
      (.error (allocationFailed display (balances.amount 0) (amount - balances.amount tokenId)
        tokenId), balances) := by
  rw [allocateFxTriCapital, if_pos hshort]
  dsimp only
  rw [if_pos hbroke]

/-- The reserve pays the shortfall, and is in the map. -/
lemma allocate_cons_of_paid (display : Decimal → String) (rest : List UInt16)
    (hshort : balances.amount tokenId < amount)
    (hpaid : amount - balances.amount tokenId ≤ balances.amount 0) :
    0 ∈ balances.keys ∧ allocateFxTriCapital display amount (tokenId :: rest) balances =
      allocateFxTriCapital display amount rest
        (fund balances tokenId (amount - balances.amount tokenId)) := by
  refine ⟨reserve_mem (by linarith), ?_⟩
  rw [allocateFxTriCapital, if_pos hshort]
  dsimp only
  rw [if_neg (not_lt.mpr hpaid)]

/-- A reserve that is short itself is passed over as well, if it could pay its own shortfall. -/
lemma allocate_cons_reserve (hpaid : amount - balances.amount 0 ≤ balances.amount 0) :
    allocateFxTriCapital display amount (0 :: rest) balances =
      allocateFxTriCapital display amount rest balances := by
  by_cases hshort : balances.amount 0 < amount
  · obtain ⟨hreserve, hcons⟩ := allocate_cons_of_paid display rest hshort hpaid
    rw [hcons, fund_reserve hreserve]
  · exact allocate_cons_of_le (not_lt.mp hshort)

/-- Only the reserve loses. -/
lemma amount_le_allocate (display : Decimal → String) (amount : Decimal) (tokens : List UInt16)
    (balances : Balances) {t : UInt16} (ht : t ≠ 0) :
    balances.amount t ≤ (allocateFxTriCapital display amount tokens balances).2.amount t := by
  induction tokens generalizing balances with
  | nil => exact le_rfl
  | cons tokenId rest ih =>
    by_cases hshort : balances.amount tokenId < amount
    · by_cases hbroke : balances.amount 0 < amount - balances.amount tokenId
      · rw [allocate_cons_of_broke hshort hbroke]
      · obtain ⟨hreserve, hcons⟩ := allocate_cons_of_paid display rest hshort (not_lt.mp hbroke)
        rw [hcons]
        refine le_trans ?_ (ih _)
        by_cases hzero : tokenId = 0
        · rw [hzero, fund_reserve hreserve]
        · rw [amount_fund hreserve hzero, if_neg ht]
          split <;> linarith
    · rw [allocate_cons_of_le (not_lt.mp hshort)]
      exact ih _

/-- A success conserves the sum, pays the need from the reserve, and leaves every listed token
other than the reserve with the amount. -/
lemma allocate_ok (tokens : List UInt16) (balances : Balances)
    (h : (allocateFxTriCapital display amount tokens balances).1 = .ok ()) :
    (allocateFxTriCapital display amount tokens balances).2.total = balances.total ∧
    (allocateFxTriCapital display amount tokens balances).2.amount 0 =
      balances.amount 0 - need amount tokens balances ∧
    (need amount tokens balances = 0 ∨ need amount tokens balances ≤ balances.amount 0) ∧
    ∀ t ∈ tokens, t ≠ 0 →
      amount ≤ (allocateFxTriCapital display amount tokens balances).2.amount t := by
  induction tokens generalizing balances with
  | nil => simp [allocateFxTriCapital, need, shortTokens]
  | cons tokenId rest ih =>
    by_cases hshort : balances.amount tokenId < amount
    · by_cases hbroke : balances.amount 0 < amount - balances.amount tokenId
      · rw [allocate_cons_of_broke hshort hbroke] at h
        cases h
      · have hpaid := not_lt.mp hbroke
        obtain ⟨hreserve, hcons⟩ := allocate_cons_of_paid display rest hshort hpaid
        by_cases hzero : tokenId = 0
        · subst hzero
          rw [allocate_cons_reserve hpaid] at h ⊢
          rw [need_cons_of_not (Or.inl rfl)]
          obtain ⟨htotal, hleft, hneed, hlisted⟩ := ih _ h
          refine ⟨htotal, hleft, hneed, ?_⟩
          intro t ht hne
          exact hlisted t ((List.mem_cons.mp ht).resolve_left hne) hne
        · rw [hcons] at h ⊢
          rw [need_cons_of_short hreserve hzero hshort]
          obtain ⟨htotal, hleft, hneed, hlisted⟩ := ih _ h
          rw [total_fund hreserve] at htotal
          rw [amount_fund hreserve hzero, if_neg (Ne.symm hzero), if_pos rfl] at hleft hneed
          refine ⟨htotal, by rw [hleft]; ring, Or.inr ?_, ?_⟩
          · rcases hneed with hneed | hneed <;> linarith
          · intro t ht hne
            rcases List.mem_cons.mp ht with rfl | ht
            · refine le_trans ?_ (amount_le_allocate display amount rest _ hne)
              rw [amount_fund hreserve hzero, if_pos rfl, add_sub_cancel]
            · exact hlisted t ht hne
    · have hle := not_lt.mp hshort
      rw [allocate_cons_of_le hle] at h ⊢
      rw [need_cons_of_not (Or.inr hle)]
      obtain ⟨htotal, hleft, hneed, hlisted⟩ := ih _ h
      refine ⟨htotal, hleft, hneed, ?_⟩
      intro t ht hne
      rcases List.mem_cons.mp ht with rfl | ht
      · exact hle.trans (amount_le_allocate display amount rest _ hne)
      · exact hlisted t ht hne

/-- A reserve that can pay the need, and keeps the amount where it is listed, is enough. -/
lemma allocate_isOk (display : Decimal → String) (tokens : List UInt16) (balances : Balances)
    (hneed : need amount tokens balances ≤ balances.amount 0)
    (hlisted : 0 ∈ tokens → amount ≤ balances.amount 0 - need amount tokens balances) :
    (allocateFxTriCapital display amount tokens balances).1 = .ok () := by
  induction tokens generalizing balances with
  | nil => rfl
  | cons tokenId rest ih =>
    by_cases hshort : balances.amount tokenId < amount
    · have hzero : tokenId ≠ 0 := by
        rintro rfl
        have hkeep := hlisted (List.mem_cons_self)
        linarith [need_nonneg amount (0 :: rest) balances]
      have hpaid := le_need (mem_shortTokens.mpr ⟨List.mem_cons_self (l := rest), hzero, hshort⟩)
      obtain ⟨hreserve, hcons⟩ := allocate_cons_of_paid display rest hshort (hpaid.trans hneed)
      rw [need_cons_of_short hreserve hzero hshort] at hneed hlisted
      rw [hcons]
      apply ih
      · rw [amount_fund hreserve hzero, if_neg (Ne.symm hzero), if_pos rfl]
        linarith
      · intro hmem
        rw [amount_fund hreserve hzero, if_neg (Ne.symm hzero), if_pos rfl]
        linarith [hlisted (List.mem_cons_of_mem _ hmem)]
    · have hle := not_lt.mp hshort
      rw [need_cons_of_not (Or.inr hle)] at hneed hlisted
      rw [allocate_cons_of_le hle]
      exact ih _ hneed fun h => hlisted (List.mem_cons_of_mem _ h)

/-- The first payment that would change a balance is more than the reserve has: the failing token
is only preceded by tokens with the amount and by the reserve. -/
def FailsFirst (amount : Decimal) (tokens : List UInt16) (balances : Balances) : Prop :=
  ∃ pre t post, tokens = pre ++ t :: post ∧ balances.amount t < amount ∧
    balances.amount 0 < amount - balances.amount t ∧
    ∀ s ∈ pre, balances.amount s < amount → s = 0

/-- Such an allocation fails and leaves the balances. -/
lemma allocate_of_failsFirst (display : Decimal → String)
    (h : FailsFirst amount tokens balances) :
    (∃ e, (allocateFxTriCapital display amount tokens balances).1 = .error e) ∧
      (allocateFxTriCapital display amount tokens balances).2 = balances := by
  obtain ⟨pre, t, post, rfl, hshort, hbroke, hpre⟩ := h
  induction pre with
  | nil =>
    rw [List.nil_append, allocate_cons_of_broke hshort hbroke]
    exact ⟨⟨_, rfl⟩, rfl⟩
  | cons s pre ih =>
    have hrest := ih fun s hs => hpre s (List.mem_cons_of_mem _ hs)
    rw [List.cons_append]
    by_cases hs : balances.amount s < amount
    · obtain rfl := hpre s List.mem_cons_self hs
      by_cases hown : balances.amount 0 < amount - balances.amount 0
      · rw [allocate_cons_of_broke hs hown]
        exact ⟨⟨_, rfl⟩, rfl⟩
      · rw [allocate_cons_reserve (not_lt.mp hown)]
        exact hrest
    · rw [allocate_cons_of_le (not_lt.mp hs)]
      exact hrest

/-- A failure that leaves the balances is a failure of the first payment. -/
lemma failsFirst_of_allocate {e : String} (tokens : List UInt16)
    (herror : (allocateFxTriCapital display amount tokens balances).1 = .error e)
    (hsame : (allocateFxTriCapital display amount tokens balances).2 = balances) :
    FailsFirst amount tokens balances := by
  induction tokens with
  | nil => cases herror
  | cons tokenId rest ih =>
    -- the head is passed over, and the failure is behind it
    have hbehind : FailsFirst amount rest balances →
        (balances.amount tokenId < amount → tokenId = 0) →
        FailsFirst amount (tokenId :: rest) balances := by
      rintro ⟨pre, t, post, rfl, hshort, hbroke, hpre⟩ hhead
      refine ⟨tokenId :: pre, t, post, rfl, hshort, hbroke, ?_⟩
      intro s hs
      rcases List.mem_cons.mp hs with rfl | hs
      · exact hhead
      · exact hpre s hs
    by_cases hshort : balances.amount tokenId < amount
    · by_cases hbroke : balances.amount 0 < amount - balances.amount tokenId
      · exact ⟨[], tokenId, rest, rfl, hshort, hbroke, by simp⟩
      · have hpaid := not_lt.mp hbroke
        obtain ⟨hreserve, hcons⟩ := allocate_cons_of_paid display rest hshort hpaid
        by_cases hzero : tokenId = 0
        · subst hzero
          rw [allocate_cons_reserve hpaid] at herror hsame
          exact hbehind (ih herror hsame) fun _ => rfl
        · -- the payment is in the balances that are left
          have hkept := amount_le_allocate display amount rest
            (fund balances tokenId (amount - balances.amount tokenId)) hzero
          rw [← hcons, hsame, amount_fund hreserve hzero, if_pos rfl, add_sub_cancel] at hkept
          exact absurd hshort (not_lt.mpr hkept)
    · rw [allocate_cons_of_le (not_lt.mp hshort)] at herror hsame
      exact hbehind (ih herror hsame) fun h => absurd h hshort

/-- Where nothing is short nothing happens. -/
lemma allocate_of_le (tokens : List UInt16) (h : ∀ t ∈ tokens, amount ≤ balances.amount t) :
    allocateFxTriCapital display amount tokens balances = (.ok (), balances) := by
  induction tokens with
  | nil => rfl
  | cons tokenId rest ih =>
    rw [allocate_cons_of_le (h tokenId List.mem_cons_self)]
    exact ih fun t ht => h t (List.mem_cons_of_mem _ ht)

end Runs

/-- A reserve of 100, and nothing else. -/
def hundred : Balances := AmountMap.empty.set 0 100

end FxAllocation

end HftArb
