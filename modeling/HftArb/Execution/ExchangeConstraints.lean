import HftArb.RustDecimal

/-!
# The trading rules of an exchange

An exchange takes prices on a grid of ticks and quantities on a grid of steps, within bounds.
`validateQuantity` compares the quantity it is given with the bounds and rounds it down afterwards.
The rounding divides by the step, takes the integer part and multiplies again, and the first and the
last of these round to 96 bits.

Three things can go wrong.  The grid value below the quantity can fall below the least quantity, it
can have more digits than a decimal keeps, and a quantity that is a little below a multiple of the
step can be divided to that multiple, so that it is rounded up.  `validateQuantity_admissible_iff`
says exactly when none of them happens.
-/

namespace HftArb

open RustDecimal

/-- The rules of an exchange. -/
structure ExchangeConstraints where
  priceTickSize : Decimal
  baseStepSize : Decimal
  minNotional : Decimal
  maxQuantity : Option Decimal
  minQuantity : Decimal

/-- Why a quantity or a notional is refused. -/
inductive ConstraintError
  | quantityBelowMinimum (quantity minimum : Decimal)
  | quantityAboveMaximum (quantity maximum : Decimal)
  | notionalBelowMinimum (notional minimum : Decimal)
  deriving DecidableEq

/-- The text of an error, given how a decimal is printed. -/
def ConstraintError.message (fmt : Decimal → String) : ConstraintError → String
  | .quantityBelowMinimum quantity minimum =>
    "Quantity " ++ fmt quantity ++ " below minimum " ++ fmt minimum
  | .quantityAboveMaximum quantity maximum =>
    "Quantity " ++ fmt quantity ++ " exceeds maximum " ++ fmt maximum
  | .notionalBelowMinimum notional minimum =>
    "Notional " ++ fmt notional ++ " below minimum " ++ fmt minimum

namespace ExchangeConstraints

/-- `ExchangeConstraints::default`. -/
def default : ExchangeConstraints where
  priceTickSize := 1 / 100
  baseStepSize := 1 / 100000
  minNotional := 5
  maxQuantity := none
  minQuantity := 1 / 100000

section Rounding

variable (ops : DecimalOps)

/-- The price of a buy order, rounded down to a tick and at least one tick. -/
def roundPriceBuy (c : ExchangeConstraints) (price : Decimal) : Option Decimal :=
  if c.priceTickSize ≤ 0 then some price
  else do
    let ticks ← ops.div price c.priceTickSize
    let rounded ← ops.mul ⌊ticks⌋ c.priceTickSize
    some (max rounded c.priceTickSize)

/-- The price of a sell order, rounded up to a tick and at least one tick. -/
def roundPriceSell (c : ExchangeConstraints) (price : Decimal) : Option Decimal :=
  if c.priceTickSize ≤ 0 then some price
  else do
    let ticks ← ops.div price c.priceTickSize
    let rounded ← ops.mul ⌈ticks⌉ c.priceTickSize
    some (max rounded c.priceTickSize)

/-- A quantity, rounded down to a step. -/
def roundQuantityDown (c : ExchangeConstraints) (quantity : Decimal) : Option Decimal :=
  if c.baseStepSize ≤ 0 then some quantity
  else do
    let steps ← ops.div quantity c.baseStepSize
    ops.mul ⌊steps⌋ c.baseStepSize

/-- The quantity is above the upper bound, if there is one. -/
def AboveMaximum (c : ExchangeConstraints) (quantity : Decimal) : Prop :=
  ∃ maximum ∈ c.maxQuantity, maximum < quantity

/-- Compare a quantity with the bounds and round it down. -/
def validateQuantity (c : ExchangeConstraints) (quantity : Decimal) :
    Option (Except ConstraintError Decimal) :=
  if quantity < c.minQuantity then some (.error (.quantityBelowMinimum quantity c.minQuantity))
  else
    match c.maxQuantity with
    | some maximum =>
      if maximum < quantity then some (.error (.quantityAboveMaximum quantity maximum))
      else (c.roundQuantityDown ops quantity).map Except.ok
    | none => (c.roundQuantityDown ops quantity).map Except.ok

/-- The value of an order, if it is large enough. -/
def validateNotional (c : ExchangeConstraints) (price quantity : Decimal) :
    Option (Except ConstraintError Decimal) := do
  let notional ← ops.mul price quantity
  if notional < c.minNotional then some (.error (.notionalBelowMinimum notional c.minNotional))
  else some (.ok notional)

/-- The price and the quantity of an order, on the grids of the exchange. -/
def applyExchangeConstraints (rawPrice rawQuantity : Decimal) (isBuy : Bool)
    (c : ExchangeConstraints) : Option (Decimal × Decimal) := do
  let price ← if isBuy then c.roundPriceBuy ops rawPrice else c.roundPriceSell ops rawPrice
  let quantity ← c.roundQuantityDown ops rawQuantity
  some (price, quantity)

end Rounding

/-! ## Rounding -/

section Grid

variable {ops : DecimalOps} {c : ExchangeConstraints} {quantity : Decimal}

/-- The whole steps of a quantity. -/
def wholeSteps (c : ExchangeConstraints) (quantity : Decimal) : ℤ := ⌊quantity / c.baseStepSize⌋

/-- The greatest multiple of the step that is not above the quantity. -/
def gridBelow (c : ExchangeConstraints) (quantity : Decimal) : ℚ :=
  c.wholeSteps quantity * c.baseStepSize

/-- The next multiple of the step. -/
def gridAbove (c : ExchangeConstraints) (quantity : Decimal) : ℚ :=
  (c.wholeSteps quantity + 1) * c.baseStepSize

/-- The quantity lies less than half a unit of the last place of its quotient by the step below the
next multiple, both counted in steps, or just half a unit below it and the unit divides the next
multiple evenly. -/
def DividesToNext (c : ExchangeConstraints) (quantity : Decimal) : Prop :=
  let gap := (c.gridAbove quantity - quantity) * 10 ^ places (quantity / c.baseStepSize)
  gap < c.baseStepSize / 2 ∨ gap = c.baseStepSize / 2 ∧
    Even ((c.wholeSteps quantity + 1) * 10 ^ places (quantity / c.baseStepSize))

instance (c : ExchangeConstraints) (quantity : Decimal) : Decidable (c.DividesToNext quantity) :=
  inferInstanceAs (Decidable (_ ∨ _ ∧ _))

lemma gridBelow_le (hstep : 0 < c.baseStepSize) : c.gridBelow quantity ≤ quantity := by
  rw [gridBelow, ← le_div_iff₀ hstep]
  exact Int.floor_le _

lemma lt_gridAbove (hstep : 0 < c.baseStepSize) : quantity < c.gridAbove quantity := by
  rw [gridAbove, ← div_lt_iff₀ hstep]
  exact Int.lt_floor_add_one _

lemma gridAbove_eq : c.gridAbove quantity = c.gridBelow quantity + c.baseStepSize := by
  rw [gridAbove, gridBelow]
  ring

/-- The one multiple of the step in the last step up to the quantity. -/
lemma eq_gridBelow (hstep : 0 < c.baseStepSize) {k : ℤ}
    (habove : quantity - c.baseStepSize < k * c.baseStepSize)
    (hbelow : k * c.baseStepSize ≤ quantity) : k * c.baseStepSize = c.gridBelow quantity := by
  have hk : c.wholeSteps quantity = k := by
    refine Int.floor_eq_iff.mpr ⟨(le_div_iff₀ hstep).mpr hbelow, (div_lt_iff₀ hstep).mpr ?_⟩
    linarith
  rw [gridBelow, hk]

/-- The quotient reaches the next integer exactly when the quantity divides to it. -/
lemma wholeSteps_add_one_le_nearest_iff (hstep : 0 < c.baseStepSize) :
    ((c.wholeSteps quantity + 1 : ℤ) : ℚ) ≤ nearest (quantity / c.baseStepSize) ↔
      c.DividesToNext quantity := by
  have hgap : ((c.wholeSteps quantity + 1 : ℤ) - quantity / c.baseStepSize) *
      10 ^ places (quantity / c.baseStepSize) =
        (c.gridAbove quantity - quantity) * 10 ^ places (quantity / c.baseStepSize) /
          c.baseStepSize := by
    rw [gridAbove]
    push_cast
    field_simp
  rw [intCast_le_nearest_iff, hgap, div_lt_iff₀ hstep, div_eq_iff hstep.ne', one_div_mul_eq_div,
    DividesToNext]

/-- The whole steps of the rounded quotient. -/
lemma floor_nearest (hstep : 0 < c.baseStepSize) :
    ⌊nearest (quantity / c.baseStepSize)⌋ =
      if c.DividesToNext quantity then c.wholeSteps quantity + 1 else c.wholeSteps quantity := by
  have hlower : c.wholeSteps quantity ≤ ⌊nearest (quantity / c.baseStepSize)⌋ :=
    Int.le_floor.mpr (floor_le_nearest _)
  have hupper : ⌊nearest (quantity / c.baseStepSize)⌋ ≤ c.wholeSteps quantity + 1 := by
    have h := (Int.floor_le _).trans (nearest_le_floor_add_one (quantity / c.baseStepSize))
    exact_mod_cast h
  have hnext : c.wholeSteps quantity + 1 ≤ ⌊nearest (quantity / c.baseStepSize)⌋ ↔
      c.DividesToNext quantity := by
    rw [Int.le_floor, wholeSteps_add_one_le_nearest_iff hstep]
  split_ifs with h
  · exact le_antisymm hupper (hnext.mpr h)
  · have hlt := mt hnext.mp h
    omega

/-- What is left of a positive quantity: nothing when its quotient by the step overflows, the next
multiple when it divides to that, and otherwise the multiple below it. -/
lemma roundQuantityDown_eq (hops : ops.RoundsHalfEven) (hstep : 0 < c.baseStepSize)
    (hgrid : Representable c.baseStepSize) (hq : Representable quantity) (hpos : 0 < quantity) :
    c.roundQuantityDown ops quantity =
      if Overflows (quantity / c.baseStepSize) then none
      else if c.DividesToNext quantity then stored (c.gridAbove quantity)
      else stored (c.gridBelow quantity) := by
  rw [roundQuantityDown, if_neg (not_le.mpr hstep), hops.div_eq hq hgrid hstep.ne']
  by_cases hrange : Overflows (quantity / c.baseStepSize)
  · rw [if_pos hrange, stored_of_overflows hrange]
    rfl
  have hfits : FitsAt (quantity / c.baseStepSize) 0 := not_not.mp hrange
  have hsteps : Representable (⌊nearest (quantity / c.baseStepSize)⌋ : ℚ) := by
    have hlower : 0 ≤ ⌊nearest (quantity / c.baseStepSize)⌋ := by
      have hfloor : 0 ≤ ⌊quantity / c.baseStepSize⌋ := Int.floor_nonneg.mpr (div_pos hpos hstep).le
      exact hfloor.trans (Int.le_floor.mpr (floor_le_nearest _))
    have hupper := (Int.floor_le _).trans
      ((le_abs_self _).trans (representable_nearest hfits).abs_le)
    refine representable_intCast ?_
    rw [abs_of_nonneg hlower]
    exact Int.lt_of_le_sub_one (by exact_mod_cast hupper)
  rw [if_neg hrange, stored_of_fits hfits, Option.bind_eq_bind, Option.bind_some,
    hops.mul_eq hsteps hgrid, floor_nearest hstep]
  split_ifs
  · rw [gridAbove]
    push_cast
    rfl
  · rfl

/-- A quantity is accepted exactly within the bounds. -/
lemma validateQuantity_eq_ok_iff {result : Decimal} :
    c.validateQuantity ops quantity = some (.ok result) ↔
      c.minQuantity ≤ quantity ∧ ¬ c.AboveMaximum quantity ∧
        c.roundQuantityDown ops quantity = some result := by
  unfold validateQuantity AboveMaximum
  by_cases hmin : quantity < c.minQuantity
  · simp [hmin]
  · rw [if_neg hmin, and_iff_right (not_lt.mp hmin)]
    cases hmax : c.maxQuantity with
    | none => simp
    | some maximum =>
      by_cases habove : maximum < quantity
      · simp [habove]
      · simp [habove]

/-! ## Admissible quantities -/

/-- A quantity that the exchange accepts in place of the given one. -/
structure Admissible (c : ExchangeConstraints) (quantity result : Decimal) : Prop where
  multiple : ∃ k : ℤ, result = k * c.baseStepSize
  above : quantity - c.baseStepSize < result
  below : result ≤ quantity
  minimum : c.minQuantity ≤ result
  maximum : ∀ maximum ∈ c.maxQuantity, result ≤ maximum

/-- Within the bounds, the multiple of the step below the quantity is the one quantity that can be
admissible. -/
lemma admissible_iff (hstep : 0 < c.baseStepSize) (hmax : ¬ c.AboveMaximum quantity)
    {result : Decimal} :
    c.Admissible quantity result ↔
      result = c.gridBelow quantity ∧ c.minQuantity ≤ c.gridBelow quantity := by
  constructor
  · rintro ⟨⟨k, rfl⟩, habove, hbelow, hmin, -⟩
    have hk := eq_gridBelow hstep habove hbelow
    exact ⟨hk, hk ▸ hmin⟩
  · rintro ⟨rfl, hmin⟩
    have hlt : quantity < c.gridAbove quantity := lt_gridAbove hstep
    rw [gridAbove_eq] at hlt
    refine ⟨⟨_, rfl⟩, by linarith, gridBelow_le hstep, hmin, fun maximum hmaximum => ?_⟩
    exact (gridBelow_le hstep).trans (not_lt.mp fun hlt => hmax ⟨maximum, hmaximum, hlt⟩)

/-- The next multiple, rounded, is no admissible quantity. -/
lemma not_admissible_of_dividesToNext (hstep : 0 < c.baseStepSize) (hq : Representable quantity)
    (hpos : 0 < quantity) (hmax : ¬ c.AboveMaximum quantity) (hnext : c.DividesToNext quantity)
    {result : Decimal} (hresult : stored (c.gridAbove quantity) = some result) :
    ¬ c.Admissible quantity result := by
  intro h
  have hfits : FitsAt (c.gridAbove quantity) 0 := by
    by_contra hrange
    rw [stored_of_overflows hrange] at hresult
    cases hresult
  rw [stored_of_fits hfits] at hresult
  have hle : quantity ≤ result := by
    rw [← Option.some.inj hresult]
    exact le_nearest hq hpos.le (lt_gridAbove hstep).le
  -- The quantity itself would be the multiple, and the next one a whole step away.
  have hquantity : quantity = c.gridBelow quantity :=
    (hle.antisymm h.below).trans ((admissible_iff hstep hmax).mp h).1
  have hgap : c.gridAbove quantity - quantity = c.baseStepSize := by
    rw [gridAbove_eq]
    linarith
  have hpow : (1 : ℚ) ≤ 10 ^ places (quantity / c.baseStepSize) := one_le_pow₀ (by norm_num)
  have hwhole : c.baseStepSize ≤ c.baseStepSize * 10 ^ places (quantity / c.baseStepSize) :=
    le_mul_of_one_le_right hstep.le hpow
  unfold DividesToNext at hnext
  rw [hgap] at hnext
  rcases hnext with hlt | ⟨heq, -⟩
  · linarith
  · linarith

/-- A quantity that divides to the next multiple is admissible only when no quantity results. -/
lemma admissible_gridAbove_iff (hstep : 0 < c.baseStepSize) (hq : Representable quantity)
    (hpos : 0 < quantity) (hmax : ¬ c.AboveMaximum quantity) (hnext : c.DividesToNext quantity) :
    (∀ result, stored (c.gridAbove quantity) = some result → c.Admissible quantity result) ↔
      Overflows (c.gridAbove quantity) := by
  constructor
  · intro h
    by_contra hfits
    have hstored := stored_of_fits (not_not.mp hfits)
    exact not_admissible_of_dividesToNext hstep hq hpos hmax hnext hstored (h _ hstored)
  · intro hout result hresult
    rw [stored_of_overflows hout] at hresult
    cases hresult

/-- The multiple below a quantity does not overflow, and it is admissible when it is a decimal that
is not below the least quantity. -/
lemma admissible_gridBelow_iff (hstep : 0 < c.baseStepSize) (hq : Representable quantity)
    (hpos : 0 < quantity) (hmax : ¬ c.AboveMaximum quantity) :
    (∀ result, stored (c.gridBelow quantity) = some result → c.Admissible quantity result) ↔
      c.minQuantity ≤ c.gridBelow quantity ∧ Representable (c.gridBelow quantity) := by
  constructor
  · intro h
    have hbelow : 0 ≤ c.gridBelow quantity := by
      have hsteps : 0 ≤ c.wholeSteps quantity := Int.floor_nonneg.mpr (div_pos hpos hstep).le
      exact mul_nonneg (by exact_mod_cast hsteps) hstep.le
    have habs : |c.gridBelow quantity| ≤ mantissaLimit - 1 := by
      rw [abs_of_nonneg hbelow]
      exact (gridBelow_le hstep).trans ((le_abs_self _).trans hq.abs_le)
    have hstored := stored_of_fits (fitsAt_zero_of_abs_le habs)
    obtain ⟨hgridBelow, hle⟩ := (admissible_iff hstep hmax).mp (h _ hstored)
    rw [hgridBelow] at hstored
    exact ⟨hle, stored_eq_self_iff.mp hstored⟩
  · rintro ⟨hle, hrep⟩ result hresult
    rw [stored_eq_self_iff.mpr hrep] at hresult
    exact (admissible_iff hstep hmax).mpr ⟨(Option.some.inj hresult).symm, hle⟩

end Grid

/-- A validated quantity is admissible exactly when the bounds refuse the quantity, or its quotient
by the step overflows, or the quantity divides to the next multiple and that overflows, or it does
not divide to the next multiple and the multiple below it is a decimal that is not below the least
quantity. -/
theorem validateQuantity_admissible_iff (ops : DecimalOps) (hops : ops.RoundsHalfEven)
    (c : ExchangeConstraints) (hstep : 0 < c.baseStepSize) (hgrid : Representable c.baseStepSize)
    (hleast : 0 < c.minQuantity) (quantity : Decimal) (hq : Representable quantity) :
    (∀ result, c.validateQuantity ops quantity = some (.ok result) →
        c.Admissible quantity result) ↔
      quantity < c.minQuantity ∨ c.AboveMaximum quantity ∨
        Overflows (quantity / c.baseStepSize) ∨
        (if c.DividesToNext quantity then Overflows (c.gridAbove quantity)
        else c.minQuantity ≤ c.gridBelow quantity ∧ Representable (c.gridBelow quantity)) := by
  by_cases hmin : quantity < c.minQuantity
  · refine iff_of_true (fun result hresult => ?_) (Or.inl hmin)
    exact absurd (validateQuantity_eq_ok_iff.mp hresult).1 (not_le.mpr hmin)
  by_cases hmax : c.AboveMaximum quantity
  · refine iff_of_true (fun result hresult => ?_) (Or.inr (Or.inl hmax))
    exact absurd hmax (validateQuantity_eq_ok_iff.mp hresult).2.1
  have hpos : 0 < quantity := hleast.trans_le (not_lt.mp hmin)
  have hok : ∀ result, c.validateQuantity ops quantity = some (.ok result) ↔
      c.roundQuantityDown ops quantity = some result := by
    intro result
    rw [validateQuantity_eq_ok_iff, and_iff_right (not_lt.mp hmin), and_iff_right hmax]
  simp only [hok, roundQuantityDown_eq hops hstep hgrid hq hpos, or_iff_right hmin,
    or_iff_right hmax]
  by_cases hrange : Overflows (quantity / c.baseStepSize)
  · refine iff_of_true (fun result hresult => ?_) (Or.inl hrange)
    rw [if_pos hrange] at hresult
    cases hresult
  rw [or_iff_right hrange]
  simp only [if_neg hrange]
  by_cases hnext : c.DividesToNext quantity
  · simp only [if_pos hnext]
    exact admissible_gridAbove_iff hstep hq hpos hmax hnext
  · simp only [if_neg hnext]
    exact admissible_gridBelow_iff hstep hq hpos hmax

/-- The default rules have the least quantity on the grid. -/
theorem validateQuantity_admissible_default :
    default.validateQuantity .halfEven 1 = some (.ok 1) ∧ default.Admissible 1 1 := by
  have hok : default.validateQuantity .halfEven 1 = some (.ok 1) := by decide +kernel
  have hgrid : Representable default.baseStepSize := ⟨⟨false, 5, 1⟩, by decide +kernel⟩
  have hone : Representable 1 := ⟨⟨false, 0, 1⟩, by decide +kernel⟩
  refine ⟨hok, (validateQuantity_admissible_iff .halfEven DecimalOps.halfEven_roundsHalfEven default
    (by decide +kernel) hgrid (by decide +kernel) 1 hone).mpr ?_ 1 hok⟩
  have hnext : ¬ default.DividesToNext 1 := by decide +kernel
  have hbelow : default.gridBelow 1 = 1 := by decide +kernel
  rw [if_neg hnext, hbelow]
  exact Or.inr (Or.inr (Or.inr ⟨by decide +kernel, hone⟩))

/-- Rules with a least quantity between two steps. -/
def offGrid : ExchangeConstraints := ⟨1 / 100, 1 / 1000, 5, some 100, 15 / 10000⟩

/-- With steps of 0.001 and a least quantity of 0.0015, the quantity 0.0019 becomes 0.001. -/
theorem validateQuantity_offGrid_not_admissible :
    offGrid.validateQuantity .halfEven (19 / 10000) = some (.ok (1 / 1000)) ∧
      ¬ offGrid.Admissible (19 / 10000) (1 / 1000) := by
  refine ⟨by decide +kernel, fun h => ?_⟩
  have hmin := h.minimum
  norm_num [offGrid] at hmin

/-- Rules with steps of 0.7. -/
def seventhSteps : ExchangeConstraints := ⟨1 / 100, 7 / 10, 5, none, 1 / 10⟩

/-- What is short of seven by the last place only is rounded up to seven. -/
example : seventhSteps.validateQuantity .halfEven
    (69999999999999999999999999999 / 10 ^ 28) = some (.ok 7) := by
  decide +kernel

end ExchangeConstraints

end HftArb
