import Mathlib.Data.List.DropRight
import HftArb.Decimal
import HftArb.Feeds.TickerParser

/-!
# Fees in basis points

The exchanges write their fees as fractions or percentages, in strings or as numbers.  A string is
read as a decimal and its basis points are truncated; the basis points of a number are rounded.  The
three notations of one fee agree when its fractional basis point is less than a half
(`notations_agree_iff`), up to the ends of the word range: a fee beyond it is no fee at all in the
notation of percentages, and the largest word as a number.

`Decimal::from_str` and the parser of floating-point numbers are parameters.
-/

namespace HftArb

open Numerals Saturating TickerParser

namespace DynamicFees

/-! ## The conversions -/

/-- A floating-point number, without the rounding of its mantissa. -/
inductive F64
  | finite (x : ℚ)
  | infinite (negative : Bool)
  | nan

/-- `f64::round`: to the nearest integer, a tie going away from zero. -/
def roundAway (x : ℚ) : ℤ := if 0 ≤ x then ⌊x + 1 / 2⌋ else ⌈x - 1 / 2⌉

/-- `as u64`, which saturates. -/
def asU64 (z : ℤ) : UInt64 := UInt64.ofNat (min z.toNat (2 ^ 64 - 1))

/-- `(f * 10_000.0).round().max(0.0) as u64`. -/
def roundedBps : F64 → UInt64
  | .finite x => asU64 (max (roundAway (x * 10000)) 0)
  | .infinite negative => if negative then 0 else maxWord
  | .nan => 0

/-- `bps_from_fraction_f64`. -/
def bpsFromFractionF64 (f : F64) : UInt64 :=
  match f with
  | .finite x => if x < 0 then 0 else roundedBps f
  | _ => 0

/-- The characters that `trim` removes. -/
def isWhiteSpace (c : Char) : Bool :=
  let n := c.toNat
  (9 ≤ n && n ≤ 13) || n == 32 || n == 133 || n == 160 || n == 5760 || (8192 ≤ n && n ≤ 8202) ||
    n == 8232 || n == 8233 || n == 8239 || n == 8287 || n == 12288

/-- `trim`. -/
def trim (s : List Char) : List Char := (s.dropWhile isWhiteSpace).rdropWhile isWhiteSpace

/-- `strip_suffix`. -/
def stripSuffix (suffix : Char) (s : List Char) : Option (List Char) :=
  if s.getLast? = some suffix then some s.dropLast else none

section Parser

variable (fromStr : List Char → Option Decimal) (parseF64 : List Char → Option F64)

/-- The last attempt: a floating-point number, or ten basis points. -/
def fallbackBps (trimmed : List Char) : UInt64 :=
  match parseF64 trimmed with
  | some frac => roundedBps frac
  | none => 10

/-- `bps_from_fraction_str`. -/
def bpsFromFractionStr (s : List Char) : UInt64 :=
  let trimmed := trim s
  match (stripSuffix '%' trimmed).bind fromStr with
  | some pct =>
    let bpsDecimal := pct * 100
    if bpsDecimal < 0 then 0 else (Decimal.toU64 (Decimal.trunc bpsDecimal : ℤ)).getD 0
  | none =>
    match fromStr trimmed with
    | some frac =>
      let bpsDecimal := frac * 10000
      if bpsDecimal < 0 then 0
      else (Decimal.toU64 (Decimal.trunc bpsDecimal : ℤ)).getD (fallbackBps parseF64 trimmed)
    | none => fallbackBps parseF64 trimmed

end Parser

/-! ## Plain texts -/

/-- The character of a digit. -/
def digitChar (d : Fin 10) : Char := Char.ofNat (48 + d)

/-- A plain decimal as it is written. -/
def text (n : JsonNumber) : List Char :=
  n.digits.map digitChar ++ if n.fraction = [] then [] else '.' :: n.fraction.map digitChar

/-- The number of digits of a text. -/
def digitCount (n : JsonNumber) : ℕ := n.digits.length + n.fraction.length

/-- A decimal is read exactly from a plain text of at most 28 digits. -/
def ReadsPlain (fromStr : List Char → Option Decimal) : Prop :=
  ∀ n : JsonNumber, digitCount n ≤ 28 → fromStr (text n) = some n.value

lemma value_nonneg (n : JsonNumber) : 0 ≤ n.value :=
  div_nonneg (Nat.cast_nonneg _) (by positivity)

lemma digitChar_plain (d : Fin 10) :
    isWhiteSpace (digitChar d) = false ∧ digitChar d ≠ '%' ∧ digitChar d ≠ '.' := by
  revert d
  decide

/-- A text has no white space and no percent sign. -/
lemma plain_of_mem_text {n : JsonNumber} {c : Char} (hc : c ∈ text n) :
    isWhiteSpace c = false ∧ c ≠ '%' := by
  have hdigits : ∀ ds : List (Fin 10), c ∈ ds.map digitChar → isWhiteSpace c = false ∧ c ≠ '%' := by
    intro ds hmem
    obtain ⟨d, -, rfl⟩ := List.mem_map.mp hmem
    exact ⟨(digitChar_plain d).1, (digitChar_plain d).2.1⟩
  rcases List.mem_append.mp hc with hmem | hmem
  · exact hdigits n.digits hmem
  · split_ifs at hmem
    · cases hmem
    · rcases List.mem_cons.mp hmem with rfl | hmem
      · decide
      · exact hdigits n.fraction hmem

/-- A text without white space stays as it is. -/
lemma trim_eq_self {s : List Char} (h : ∀ c ∈ s, isWhiteSpace c = false) : trim s = s := by
  have hfront : s.dropWhile isWhiteSpace = s := by
    cases s with
    | nil => rfl
    | cons c s => rw [List.dropWhile_cons, h c List.mem_cons_self, if_neg Bool.false_ne_true]
  rw [trim, hfront, List.rdropWhile_eq_self_iff]
  intro hne
  rw [h _ (List.getLast_mem hne)]
  exact Bool.false_ne_true

lemma stripSuffix_text (n : JsonNumber) : stripSuffix '%' (text n) = none := by
  refine if_neg fun hlast => ?_
  exact (plain_of_mem_text (List.mem_of_getLast? hlast)).2 rfl

lemma stripSuffix_append (s : List Char) (c : Char) : stripSuffix c (s ++ [c]) = some s := by
  simp [stripSuffix]

/-! ## Truncating and rounding -/

section Rounding

variable {x : ℚ}

/-- The truncated basis points, where they make a word. -/
lemma toU64_trunc (hx : 0 ≤ x) :
    Decimal.toU64 (Decimal.trunc x : ℤ) =
      if x < 2 ^ 64 then some (UInt64.ofNat ⌊x⌋.toNat) else none := by
  have hfloor : 0 ≤ ⌊x⌋ := Int.floor_nonneg.mpr hx
  have hcast : (0 : ℚ) ≤ (⌊x⌋ : ℤ) := by exact_mod_cast hfloor
  have hbig : 2 ^ 64 ≤ ⌊x⌋.toNat ↔ ¬ x < 2 ^ 64 := by
    rw [Int.floor_toNat, Nat.le_floor_iff hx, not_lt]
    push_cast
    rfl
  rw [Decimal.trunc, if_pos hx, Decimal.toU64, if_neg (not_lt.mpr hcast), Int.floor_intCast]
  by_cases hlt : x < 2 ^ 64
  · rw [if_neg (fun h => hbig.mp h hlt), if_pos hlt]
  · rw [if_pos (hbig.mpr hlt), if_neg hlt]

/-- Rounding goes down or up by the fraction. -/
lemma floor_add_half (x : ℚ) : ⌊x + 1 / 2⌋ = if Int.fract x < 1 / 2 then ⌊x⌋ else ⌊x⌋ + 1 := by
  have hsplit := Int.floor_add_fract x
  have hnonneg := Int.fract_nonneg x
  have hlt := Int.fract_lt_one x
  split_ifs with hhalf
  · rw [Int.floor_eq_iff]
    constructor <;> linarith
  · rw [Int.floor_eq_iff]
    push_cast
    constructor <;> linarith

/-- The rounded basis points of a fee. -/
lemma bpsFromFractionF64_eq {f : ℚ} (hf : 0 ≤ f) :
    bpsFromFractionF64 (.finite f) =
      UInt64.ofNat (min ⌊10000 * f + 1 / 2⌋.toNat (2 ^ 64 - 1)) := by
  have hbps : 0 ≤ 10000 * f := by positivity
  have hround : 0 ≤ ⌊10000 * f + 1 / 2⌋ := Int.floor_nonneg.mpr (by positivity)
  have heq : bpsFromFractionF64 (.finite f) = asU64 (max (roundAway (f * 10000)) 0) :=
    if_neg (not_lt.mpr hf)
  rw [heq, mul_comm f, roundAway, if_pos hbps, max_eq_left hround, asU64]

/-- A truncated and a rounded value make the same word when the fraction is less than a half, or at
the end of the word range. -/
lemma trunc_eq_round_iff (hx : 0 ≤ x) (hlt : x < 2 ^ 64) :
    UInt64.ofNat ⌊x⌋.toNat = UInt64.ofNat (min ⌊x + 1 / 2⌋.toNat (2 ^ 64 - 1)) ↔
      Int.fract x < 1 / 2 ∨ 2 ^ 64 - 1 ≤ x := by
  have hfloor : 0 ≤ ⌊x⌋ := Int.floor_nonneg.mpr hx
  have hword : ⌊x⌋ < 2 ^ 64 := by
    rw [Int.floor_lt]
    exact_mod_cast hlt
  have hend : 2 ^ 64 - 1 ≤ x ↔ 2 ^ 64 - 1 ≤ ⌊x⌋ := by
    rw [Int.le_floor]
    norm_num
  have htrunc : ⌊x⌋.toNat < 2 ^ 64 := by omega
  have hround : min ⌊x + 1 / 2⌋.toNat (2 ^ 64 - 1) < 2 ^ 64 :=
    lt_of_le_of_lt (min_le_right _ _) (by norm_num)
  have hsame : UInt64.ofNat ⌊x⌋.toNat = UInt64.ofNat (min ⌊x + 1 / 2⌋.toNat (2 ^ 64 - 1)) ↔
      ⌊x⌋.toNat = min ⌊x + 1 / 2⌋.toNat (2 ^ 64 - 1) := by
    rw [← UInt64.toNat_inj, UInt64.toNat_ofNat_of_lt' htrunc, UInt64.toNat_ofNat_of_lt' hround]
  rw [hsame, floor_add_half, hend]
  split_ifs with hhalf
  · exact iff_of_true (by omega) (Or.inl hhalf)
  · rw [or_iff_right hhalf]
    omega

end Rounding

/-! ## One fee in three notations -/

section Notations

variable {fromStr : List Char → Option Decimal} (hfromStr : ReadsPlain fromStr)
  (parseF64 : List Char → Option F64)

include hfromStr

/-- The basis points of a percentage. -/
lemma bpsFromFractionStr_percent {p : JsonNumber} (hp : digitCount p ≤ 28) :
    bpsFromFractionStr fromStr parseF64 (text p ++ ['%']) =
      if 100 * p.value < 2 ^ 64 then UInt64.ofNat ⌊100 * p.value⌋.toNat else 0 := by
  have htrim : trim (text p ++ ['%']) = text p ++ ['%'] := by
    refine trim_eq_self fun c hc => ?_
    rcases List.mem_append.mp hc with hmem | hmem
    · exact (plain_of_mem_text hmem).1
    · rw [List.mem_singleton.mp hmem]
      decide
  have hbps : 0 ≤ 100 * p.value := mul_nonneg (by norm_num) (value_nonneg p)
  unfold bpsFromFractionStr
  simp only [htrim, stripSuffix_append, Option.bind_some, hfromStr p hp, if_neg (not_lt.mpr hbps),
    toU64_trunc hbps, mul_comm p.value]
  split_ifs <;> rfl

/-- The basis points of a fraction. -/
lemma bpsFromFractionStr_fraction {n : JsonNumber} (hn : digitCount n ≤ 28)
    (hlt : 10000 * n.value < 2 ^ 64) :
    bpsFromFractionStr fromStr parseF64 (text n) = UInt64.ofNat ⌊10000 * n.value⌋.toNat := by
  have htrim : trim (text n) = text n := trim_eq_self fun c hc => (plain_of_mem_text hc).1
  have hbps : 0 ≤ 10000 * n.value := mul_nonneg (by norm_num) (value_nonneg n)
  unfold bpsFromFractionStr
  simp only [htrim, stripSuffix_text, Option.bind_none, hfromStr n hn, if_neg (not_lt.mpr hbps),
    toU64_trunc hbps, mul_comm n.value, if_pos hlt, Option.getD_some]

/-- A fee is read to the same basis points as a fraction, as a percentage and as a number exactly
when its basis points fit a word and their fraction is less than a half, or they are at the end of
the word range. -/
theorem notations_agree_iff {n p : JsonNumber} (hn : digitCount n ≤ 20) (hp : digitCount p ≤ 28)
    (hvalue : p.value = 100 * n.value) :
    (bpsFromFractionStr fromStr parseF64 (text n) =
        bpsFromFractionStr fromStr parseF64 (text p ++ ['%']) ∧
      bpsFromFractionStr fromStr parseF64 (text n) = bpsFromFractionF64 (.finite n.value)) ↔
    10000 * n.value < 2 ^ 64 ∧
      (Int.fract (10000 * n.value) < 1 / 2 ∨ 2 ^ 64 - 1 ≤ 10000 * n.value) := by
  have hbps : 0 ≤ 10000 * n.value := mul_nonneg (by norm_num) (value_nonneg n)
  have hsame : 100 * p.value = 10000 * n.value := by
    rw [hvalue]
    ring
  rw [bpsFromFractionStr_percent hfromStr parseF64 hp, hsame,
    bpsFromFractionF64_eq (value_nonneg n)]
  by_cases hlt : 10000 * n.value < 2 ^ 64
  · rw [bpsFromFractionStr_fraction hfromStr parseF64 (hn.trans (by norm_num)) hlt, if_pos hlt,
      trunc_eq_round_iff hbps hlt]
    simp only [true_and, hlt]
  · refine iff_of_false ?_ fun h => hlt h.1
    rintro ⟨hpercent, hnumber⟩
    -- as a percentage the fee is lost, as a number it is the largest word
    rw [if_neg hlt] at hpercent
    rw [hpercent] at hnumber
    have hfloor : 2 ^ 64 ≤ ⌊10000 * n.value + 1 / 2⌋ := by
      rw [Int.le_floor]
      push_cast
      linarith [not_lt.mp hlt]
    have hmin : min ⌊10000 * n.value + 1 / 2⌋.toNat (2 ^ 64 - 1) = 2 ^ 64 - 1 := by omega
    rw [hmin] at hnumber
    exact absurd hnumber (by decide)

end Notations

/-! ## A reader of plain texts -/

/-- The value of the digits of a text, with its decimal places. -/
def readPlain (s : List Char) : Option Decimal :=
  some (numeral 0 ((s.filter (· ≠ '.')).map fun c => c.toNat - 48) /
    10 ^ ((s.dropWhile (· ≠ '.')).drop 1).length)

lemma filter_digits (ds : List (Fin 10)) :
    ((ds.map digitChar).filter (· ≠ '.')) = ds.map digitChar := by
  refine List.filter_eq_self.mpr fun c hc => ?_
  obtain ⟨d, -, rfl⟩ := List.mem_map.mp hc
  exact decide_eq_true (digitChar_plain d).2.2

lemma dropWhile_text (n : JsonNumber) :
    ((text n).dropWhile (· ≠ '.')).drop 1 = n.fraction.map digitChar := by
  have hdigits : ∀ c ∈ n.digits.map digitChar, decide (c ≠ '.') = true := by
    intro c hc
    obtain ⟨d, -, rfl⟩ := List.mem_map.mp hc
    exact decide_eq_true (digitChar_plain d).2.2
  rw [text, List.dropWhile_append_of_pos hdigits]
  split_ifs with hfraction
  · rw [hfraction]
    rfl
  · simp

lemma filter_text (n : JsonNumber) :
    (text n).filter (· ≠ '.') = (n.digits ++ n.fraction).map digitChar := by
  rw [text, List.filter_append, filter_digits, List.map_append]
  split_ifs with hfraction
  · rw [hfraction]
    rfl
  · rw [List.filter_cons_of_neg (by simp), filter_digits]

lemma readPlain_readsPlain : ReadsPlain readPlain := by
  intro n _
  have hdigit : ∀ d : Fin 10, (digitChar d).toNat - 48 = d.val := by decide
  have hdigits : (n.digits ++ n.fraction).map ((fun c : Char => c.toNat - 48) ∘ digitChar) =
      (n.digits ++ n.fraction).map Fin.val := List.map_congr_left fun d _ => hdigit d
  rw [readPlain, dropWhile_text, filter_text, List.map_map, List.length_map, hdigits]
  rfl

/-- The digit `0`. -/
def zeroDigit : Fin 10 := ⟨0, zero_lt_ten⟩

/-- The digit `1`. -/
def oneDigit : Fin 10 := ⟨1, one_lt_ten⟩

lemma zeroDigit_ne_nil : [zeroDigit] ≠ [] := List.cons_ne_nil _ _

/-- The number `0.001`. -/
def thousandth : JsonNumber := ⟨[zeroDigit], [zeroDigit, zeroDigit, oneDigit], zeroDigit_ne_nil⟩

/-- The number `0.1`. -/
def tenth : JsonNumber := ⟨[zeroDigit], [oneDigit], zeroDigit_ne_nil⟩

/-- The notations of a fee of a thousandth: `0.001`, `0.1%` and the number. -/
theorem notations_agree_iff_thousandth :
    bpsFromFractionStr readPlain (fun s => (readPlain s).map .finite) (text thousandth) =
        bpsFromFractionStr readPlain (fun s => (readPlain s).map .finite) (text tenth ++ ['%']) ∧
      bpsFromFractionStr readPlain (fun s => (readPlain s).map .finite) (text thousandth) =
        bpsFromFractionF64 (.finite thousandth.value) :=
  (notations_agree_iff readPlain_readsPlain _ (by decide) (by decide) (by decide +kernel)).mpr
    (by decide +kernel)

/-- A fee of 1.8 basis points is one of them in the strings, and two as a number. -/
theorem fee_notations_differ :
    bpsFromFractionStr readPlain (fun s => (readPlain s).map .finite) "0.00018".toList = 1 ∧
      bpsFromFractionStr readPlain (fun s => (readPlain s).map .finite) "0.018%".toList = 1 ∧
      bpsFromFractionF64 (.finite (18 / 100000)) = 2 := by
  decide +kernel

end DynamicFees

end HftArb
