import HftArb.Foundations.FloorScaling
import HftArb.Strategies.ArenaUpdates

/-!
# What a triangular signal promises

The profit of a triangular signal is the truncated compound ratio of the loop less one and less
three times the taker fee.

`emitted_triangular` reads a signal back to the six prices behind it.  Two consequences follow.
Truncation only loses, so a signal needs a token whose bid is above its own ask
(`triangular_needs_crossed_book`).  The additive fee is always below what the three fees take from
a profitable loop (`feesUnderstated_pos`), so the reported profit is at most the exact one only
when the truncations have lost at least the difference (`triangular_conservative_iff`).
-/

namespace HftArb

open Saturating FloorScaling

/-! ## The truncated ratio -/

/-- A checked product is the product. -/
lemma toNat_of_checkedMul {a b c : UInt64} (h : checkedMul a b = some c) :
    c.toNat = a.toNat * b.toNat := by
  unfold checkedMul at h
  split_ifs at h with hfits
  rw [← Option.some.inj h, UInt64.toNat_mul, Nat.mod_eq_of_lt hfits]

/-- A price as a fraction, the bid over the ask. -/
def bookFraction (bid ask : UInt64) : ℕ × ℕ := (bid.toNat, ask.toNat)

/-- A ratio that is computed is the basis-point scale scaled by the three books. -/
lemma toNat_of_triRatio {bidA askA bidB askB bidC askC step3 : UInt64}
    (h : triRatio bidA askA bidB askB bidC askC = some step3) :
    step3.toNat =
      floorScale 10000
        [bookFraction bidA askA, bookFraction bidB askB, bookFraction bidC askC] := by
  obtain ⟨product1, h1, h⟩ := Option.bind_eq_some_iff.mp h
  obtain ⟨product2, h2, h⟩ := Option.bind_eq_some_iff.mp h
  obtain ⟨product3, h3, h⟩ := Option.bind_eq_some_iff.mp h
  have hstep3 : product3 / askC = step3 := by
    dsimp only at h
    split_ifs at h
    exact Option.some.inj h
  rw [← hstep3, UInt64.toNat_div, toNat_of_checkedMul h3, UInt64.toNat_div,
    toNat_of_checkedMul h2, UInt64.toNat_div, toNat_of_checkedMul h1, Nat.mul_comm bidA.toNat]
  rfl

namespace MarketArena

variable {a : MarketArena} {updatedExch updatedToken : ℕ} {minSpreadBps minTriProfitBps : UInt64}
  {exchangeId tokenA tokenB tokenC : UInt16} {profitBps : UInt64}

/-- The books of a loop on an exchange. -/
def loopBooks (a : MarketArena) (exchId : ℕ) (tokens : List UInt16) : List (ℕ × ℕ) :=
  tokens.map fun token => bookFraction (a.bid exchId token.toNat) (a.ask exchId token.toNat)

/-- The taker fee of an exchange in basis points, as the evaluation reads it. -/
def takerFeeBps (a : MarketArena) (exchId : ℕ) : ℕ :=
  ((a.feeSchedule.getTaker exchId).getD defaultTakerFeeBps).toNat

/-- A loop that signals: the exchange, and the net profit before it is compared. -/
lemma triLoopSignal_profit {tri : TriangularLoop} {signal : ArbitrageSignal}
    (h : a.triLoopSignal updatedExch updatedToken minTriProfitBps tri = some signal) :
    ∃ step3 net : UInt64,
      signal = .triangular (UInt16.ofNat updatedExch) tri.tokenA tri.tokenB tri.tokenC net ∧
      step3.toNat =
        floorScale 10000 (a.loopBooks updatedExch [tri.tokenA, tri.tokenB, tri.tokenC]) ∧
      10000 < step3.toNat ∧
      a.netOfFees (step3 - arenaBpsScale) (a.feeSchedule.triLegTakerBps updatedExch) = some net ∧
      minTriProfitBps < net := by
  unfold triLoopSignal at h
  simp only at h
  split_ifs at h with htoken hslots hzero hsentinel
  obtain ⟨step3, hratio, h⟩ := Option.bind_eq_some_iff.mp h
  split_ifs at h with hprofit
  obtain ⟨net, hnet, h⟩ := Option.bind_eq_some_iff.mp h
  split_ifs at h with hemit
  exact ⟨step3, net, (Option.some.inj h).symm, toNat_of_triRatio hratio,
    UInt64.lt_iff_toNat_lt.mp (UInt64.not_le.mp hprofit), hnet, hemit.1⟩

/-- A triangular signal comes from a loop of the updated exchange whose truncated ratio is above
one. -/
lemma emitted_triangular
    (h : .triangular exchangeId tokenA tokenB tokenC profitBps ∈
      a.evaluateTick updatedExch updatedToken minSpreadBps minTriProfitBps) :
    (∃ loops, a.triLoops (UInt16.ofNat updatedExch) = some loops ∧
      ⟨tokenA, tokenB, tokenC⟩ ∈ loops) ∧
    ∃ step3 : UInt64,
      step3.toNat = floorScale 10000 (a.loopBooks updatedExch [tokenA, tokenB, tokenC]) ∧
      10000 < step3.toNat ∧
      a.netOfFees (step3 - arenaBpsScale) (a.feeSchedule.triLegTakerBps updatedExch) =
        some profitBps ∧
      minTriProfitBps < profitBps := by
  rcases List.mem_append.mp h with hcross | htri
  · obtain ⟨target, -, buy, sell, net, hsignal, -⟩ := mem_crossSignals hcross
    cases hsignal
  · obtain ⟨loops, hloops, tri, hmem, hloop⟩ := mem_triSignals htri
    obtain ⟨step3, net, hsignal, hstep3, hprofit, hnet, hmin⟩ := triLoopSignal_profit hloop
    cases hsignal
    exact ⟨⟨loops, hloops, hmem⟩, step3, hstep3, hprofit, hnet, hmin⟩

/-! ## A crossed book -/

/-- A loop that signals has a token with its bid above its ask. -/
lemma exists_crossed_of_triangular
    (h : .triangular exchangeId tokenA tokenB tokenC profitBps ∈
      a.evaluateTick updatedExch updatedToken minSpreadBps minTriProfitBps) :
    ∃ token ∈ [tokenA, tokenB, tokenC],
      a.ask updatedExch token.toNat < a.bid updatedExch token.toNat := by
  obtain ⟨-, step3, hstep3, hprofit, -, -⟩ := emitted_triangular h
  by_contra hnone
  have hbooks : ∀ step ∈ a.loopBooks updatedExch [tokenA, tokenB, tokenC], step.1 ≤ step.2 := by
    intro step hstep
    obtain ⟨token, htoken, rfl⟩ := List.mem_map.mp hstep
    refine UInt64.le_iff_toNat_le.mp (UInt64.not_lt.mp ?_)
    exact fun hlt => hnone ⟨token, htoken, hlt⟩
  have hle := floorScale_le_self hbooks 10000
  omega

/-- An exchange without a crossed book has no triangular signal, and a signal names a token whose
bid is above its ask on the exchange. -/
theorem triangular_needs_crossed_book (a : MarketArena) (updatedExch updatedToken : ℕ)
    (minSpreadBps minTriProfitBps : UInt64) :
    ((∀ loops, a.triLoops (UInt16.ofNat updatedExch) = some loops → ∀ tri ∈ loops,
        ∀ token ∈ [tri.tokenA, tri.tokenB, tri.tokenC], token.toNat < a.totalTokens) →
      (∀ tokenId < a.totalTokens, a.bid updatedExch tokenId ≤ a.ask updatedExch tokenId) →
      ∀ exchangeId tokenA tokenB tokenC profitBps,
        .triangular exchangeId tokenA tokenB tokenC profitBps ∉
          a.evaluateTick updatedExch updatedToken minSpreadBps minTriProfitBps) ∧
    ∀ exchangeId tokenA tokenB tokenC profitBps,
      .triangular exchangeId tokenA tokenB tokenC profitBps ∈
          a.evaluateTick updatedExch updatedToken minSpreadBps minTriProfitBps →
        ∃ token ∈ [tokenA, tokenB, tokenC],
          a.ask updatedExch token.toNat < a.bid updatedExch token.toNat := by
  refine ⟨?_, fun _ _ _ _ _ h => exists_crossed_of_triangular h⟩
  intro hloops hbooks exchangeId tokenA tokenB tokenC profitBps h
  obtain ⟨⟨loops, hsome, hmem⟩, -⟩ := emitted_triangular h
  obtain ⟨token, htoken, hcrossed⟩ := exists_crossed_of_triangular h
  have hrange : token.toNat < a.totalTokens := hloops loops hsome _ hmem token htoken
  exact UInt64.not_lt.mpr (hbooks token.toNat hrange) hcrossed

lemma one_le_exchanges : 1 ≤ 64 := by decide

/-- One exchange with a loop over three tokens, of which the first can have a crossed book. -/
def triangleVenue (bid : UInt64) : MarketArena :=
  ((((new 1 3 one_le_exchanges).updatePrice 0 0 bid 2000000000).updatePrice 0 1 2000000000
    2000000000).updatePrice 0 2 2000000000 2000000000).buildTriangularLoops
      [(0, [(0, 1), (1, 2), (2, 0)])]

/-- Ten percent in the book of one token is what its signal reports; with even books there is no
signal. -/
theorem triangular_needs_crossed_book_venue :
    (∃ token ∈ [(0 : UInt16), 1, 2], (triangleVenue 2200000000).ask 0 token.toNat <
      (triangleVenue 2200000000).bid 0 token.toNat) ∧
    ∀ exchangeId tokenA tokenB tokenC profitBps,
      .triangular exchangeId tokenA tokenB tokenC profitBps ∉
        (triangleVenue 2000000000).evaluateTick 0 1 10 10 := by
  constructor
  · exact (triangular_needs_crossed_book (triangleVenue 2200000000) 0 1 10 10).2 0 0 1 2 970
      (by decide +kernel)
  · refine (triangular_needs_crossed_book (triangleVenue 2000000000) 0 1 10 10).1 ?_ ?_
    · intro loops hloops
      have hloop : loops = [⟨0, 1, 2⟩] := by
        refine (Option.some.inj (hloops.symm.trans ?_))
        decide +kernel
      rw [hloop]
      intro tri htri token htoken
      obtain rfl := List.mem_singleton.mp htri
      fin_cases htoken <;> decide +kernel
    · intro tokenId htoken
      have hrange : tokenId < 3 := htoken
      interval_cases tokenId <;> decide +kernel

/-! ## Fees -/

/-- The net return of a loop that pays the fee on each of its three legs. -/
def exactNetReturn (compound : ℚ) (feeBps : ℕ) : ℚ := compound * (1 - (feeBps : ℚ) / 10000) ^ 3 - 1

/-- What three fees take from the proceeds of a loop, in basis points, beyond three times the
fee. -/
def feesUnderstated (compound : ℚ) (feeBps : ℕ) : ℚ :=
  10000 * (compound * (1 - (1 - (feeBps : ℚ) / 10000) ^ 3)) - 3 * feeBps

/-- The reported profit is at most the net return of the loop. -/
def Conservative (a : MarketArena) (exchId : ℕ) (tokens : List UInt16) (profitBps : UInt64) :
    Prop :=
  (profitBps.toNat : ℚ) / 10000 ≤
    exactNetReturn (ratio (a.loopBooks exchId tokens)) (a.takerFeeBps exchId)

/-- On a loop that covers three times its fee, the fees are understated. -/
lemma feesUnderstated_pos {compound : ℚ} {feeBps : ℕ} (hpos : 0 < feeBps) (hfee : feeBps < 10000)
    (hcompound : 1 + 3 * ((feeBps : ℚ) / 10000) ≤ compound) :
    0 < feesUnderstated compound feeBps := by
  obtain ⟨φ, hφ⟩ : ∃ φ : ℚ, φ = (feeBps : ℚ) / 10000 := ⟨_, rfl⟩
  have hφpos : 0 < φ := by
    rw [hφ]
    positivity
  have hφone : φ < 1 := by
    rw [hφ, div_lt_one (by norm_num)]
    exact_mod_cast hfee
  have heq : feesUnderstated compound feeBps =
      10000 * φ * (compound * (3 - 3 * φ + φ ^ 2) - 3) := by
    rw [feesUnderstated, ← hφ, show (feeBps : ℚ) = 10000 * φ by rw [hφ]; ring]
    ring
  have hfactor : 0 < 3 - 3 * φ + φ ^ 2 := by nlinarith
  have hgrowth : (1 + 3 * φ) * (3 - 3 * φ + φ ^ 2) ≤ compound * (3 - 3 * φ + φ ^ 2) := by
    rw [hφ] at *
    exact mul_le_mul_of_nonneg_right hcompound hfactor.le
  have hmore : 3 < (1 + 3 * φ) * (3 - 3 * φ + φ ^ 2) := by
    have hcubic : 0 < φ * (6 - 8 * φ + 3 * φ ^ 2) := by
      refine mul_pos hφpos ?_
      nlinarith [sq_nonneg (3 * φ - 4)]
    linear_combination hcubic
  rw [heq]
  exact mul_pos (by linarith) (by linarith)

/-- With fees deducted a signal reports the truncated ratio less one and less three fees. -/
lemma toNat_profitBps (haware : a.feeAwareEnabled = true)
    (hfee : a.takerFeeBps updatedExch < 10000)
    (h : .triangular exchangeId tokenA tokenB tokenC profitBps ∈
      a.evaluateTick updatedExch updatedToken minSpreadBps minTriProfitBps) :
    profitBps.toNat + 3 * a.takerFeeBps updatedExch + 10000 =
      floorScale 10000 (a.loopBooks updatedExch [tokenA, tokenB, tokenC]) := by
  obtain ⟨-, step3, hstep3, hprofit, hnet, hmin⟩ := emitted_triangular h
  have hfees : (a.feeSchedule.triLegTakerBps updatedExch).toNat =
      3 * a.takerFeeBps updatedExch := by
    unfold takerFeeBps at hfee ⊢
    rw [ExchangeFeeSchedule.triLegTakerBps, satMul_toNat, show (3 : UInt64).toNat = 3 from rfl]
    omega
  have hraw : (step3 - arenaBpsScale).toNat = step3.toNat - 10000 :=
    UInt64.toNat_sub_of_le _ _ (UInt64.le_iff_toNat_le.mpr hprofit.le)
  have hpos : 0 < profitBps.toNat :=
    (Nat.zero_le _).trans_lt (UInt64.lt_iff_toNat_lt.mp hmin)
  unfold netOfFees at hnet
  rw [if_pos haware] at hnet
  split_ifs at hnet
  have hsub := congrArg UInt64.toNat (Option.some.inj hnet)
  rw [satSub_toNat, hraw, hfees] at hsub
  omega

/-- A signal with the fees deducted is conservative exactly when truncation has lost at least what
the additive fee understates, and any fee is understated. -/
theorem triangular_conservative_iff (haware : a.feeAwareEnabled = true)
    (hfee : a.takerFeeBps updatedExch < 10000)
    (h : .triangular exchangeId tokenA tokenB tokenC profitBps ∈
      a.evaluateTick updatedExch updatedToken minSpreadBps minTriProfitBps) :
    (a.Conservative updatedExch [tokenA, tokenB, tokenC] profitBps ↔
      feesUnderstated (ratio (a.loopBooks updatedExch [tokenA, tokenB, tokenC]))
          (a.takerFeeBps updatedExch) ≤
        scalingLoss 10000 (a.loopBooks updatedExch [tokenA, tokenB, tokenC])) ∧
    (0 < a.takerFeeBps updatedExch →
      0 < feesUnderstated (ratio (a.loopBooks updatedExch [tokenA, tokenB, tokenC]))
        (a.takerFeeBps updatedExch)) := by
  have hprofit : (profitBps.toNat : ℚ) + 3 * a.takerFeeBps updatedExch + 10000 =
      floorScale 10000 (a.loopBooks updatedExch [tokenA, tokenB, tokenC]) := by
    exact_mod_cast toNat_profitBps haware hfee h
  have hloss := floorScale_add_scalingLoss 10000
    (a.loopBooks updatedExch [tokenA, tokenB, tokenC])
  push_cast at hloss
  constructor
  · rw [Conservative, exactNetReturn, feesUnderstated, div_le_iff₀ (by norm_num)]
    constructor
    · intro hle
      linarith
    · intro hle
      linarith
  · intro hpos
    refine feesUnderstated_pos hpos hfee ?_
    have hle := floorScale_le 10000 (a.loopBooks updatedExch [tokenA, tokenB, tokenC])
    have hnonneg : (0 : ℚ) ≤ profitBps.toNat := Nat.cast_nonneg _
    push_cast at hle
    linarith

/-- A profit of almost a basis point more than is reported makes up for the fees. -/
theorem triangular_conservative_truncated :
    (triangleVenue 2020180000).Conservative 0 [0, 1, 2] 70 := by
  have hsignal : .triangular 0 0 1 2 70 ∈ (triangleVenue 2020180000).evaluateTick 0 1 10 10 := by
    decide +kernel
  refine (triangular_conservative_iff rfl ?_ hsignal).1.mpr ?_
  · decide +kernel
  · decide +kernel

/-- Ten percent in a book and a fee of ten basis points: the report is above the net return. -/
theorem triangular_overstated :
    ¬ ∀ (a : MarketArena) (updatedExch updatedToken : ℕ) (minSpreadBps minTriProfitBps : UInt64)
      (exchangeId tokenA tokenB tokenC : UInt16) (profitBps : UInt64),
      a.feeAwareEnabled = true → a.takerFeeBps updatedExch < 10000 →
      .triangular exchangeId tokenA tokenB tokenC profitBps ∈
        a.evaluateTick updatedExch updatedToken minSpreadBps minTriProfitBps →
      a.Conservative updatedExch [tokenA, tokenB, tokenC] profitBps := by
  intro h
  have hreport : (triangleVenue 2200000000).Conservative 0 [0, 1, 2] 970 :=
    h (triangleVenue 2200000000) 0 1 10 10 0 0 1 2 970 rfl (by decide +kernel) (by decide +kernel)
  have hover : exactNetReturn (ratio ((triangleVenue 2200000000).loopBooks 0 [0, 1, 2]))
      ((triangleVenue 2200000000).takerFeeBps 0) < 970 / 10000 := by
    decide +kernel
  exact absurd hreport (not_le.mpr hover)

end MarketArena

end HftArb
