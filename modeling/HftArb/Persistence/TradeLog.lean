import HftArb.Capital.RebalanceMatrix
import HftArb.Foundations.Csv
import HftArb.Foundations.Numerals
import HftArb.Foundations.QuotedSearch

/-!
# The trade log

The log exports its trades as comma-separated values.  Names and strategies are in quotes, with
doubled quotes; the trade id and the numbers are not.  Numbers are printed with digits, signs and
dots only, and so are ids with hexadecimal digits and dashes, so that `parse_exportCsv` reads the
trades back.  What is printed says everything about a trade, except that no id of a paired trade
and an empty one are the same (`fields_eq_iff`).
-/

namespace HftArb

open Csv Numerals TextSearch

/-! ## Printed decimals -/

namespace RustDecimal

variable (d : RustDecimal)

/-- The digits of the mantissa, none for zero, with zeros for all decimal places. -/
def digits : List Char :=
  let mantissa := if (d.mantissa : ℕ) = 0 then [] else Nat.toDigits 10 d.mantissa
  List.replicate (d.scale - mantissa.length) '0' ++ mantissa

/-- The digits before the dot. -/
def integerPart : List Char :=
  let whole := d.digits.take (d.digits.length - d.scale)
  if whole = [] then ['0'] else whole

/-- The digits behind the dot. -/
def fractionPart : List Char := d.digits.drop (d.digits.length - d.scale)

/-- `Decimal::to_string`. -/
def display : List Char :=
  (if d.negative then ['-'] else []) ++
    (d.integerPart ++ if (d.scale : ℕ) = 0 then [] else '.' :: d.fractionPart)

end RustDecimal

/-- `i64::to_string`. -/
def displayInt (i : ℤ) : List Char :=
  (if i < 0 then ['-'] else []) ++ Nat.toDigits 10 i.natAbs

/-! ## The export -/

/-- `TradeRecord`. -/
structure TradeRecord where
  tradeId : List Char
  timestamp : Int64
  exchangeId : UInt16
  exchangeName : List Char
  symbol : List Char
  side : List Char
  quantity : RustDecimal
  price : RustDecimal
  fee : RustDecimal
  pnlRealized : Option RustDecimal
  strategy : List Char
  pairTradeId : Option (List Char)

namespace TradeLog

/-- The names of the columns. -/
def header : List (List Char) :=
  ["trade_id".toList, "timestamp".toList, "exchange_id".toList, "exchange_name".toList,
    "symbol".toList, "side".toList, "quantity".toList, "price".toList, "fee".toList,
    "pnl_realized".toList, "strategy".toList, "pair_trade_id".toList]

/-- The first line. -/
def headerLine : List Char :=
  ("trade_id,timestamp,exchange_id,exchange_name,symbol,side,quantity,price,fee,pnl_realized," ++
    "strategy,pair_trade_id").toList

/-- The realized profit as it is printed, empty when there is none. -/
def pnlText (t : TradeRecord) : List Char := (t.pnlRealized.map RustDecimal.display).getD []

/-- The line of a trade. -/
def csvLine (t : TradeRecord) : List Char :=
  [','].intercalate
    [escape t.tradeId, displayInt t.timestamp.toInt, Nat.toDigits 10 t.exchangeId.toNat,
      inQuotes (escape t.exchangeName), inQuotes (escape t.symbol), inQuotes (escape t.side),
      t.quantity.display, t.price.display, t.fee.display, escape (pnlText t),
      inQuotes (escape t.strategy), inQuotes (escape (t.pairTradeId.getD []))]

/-- The content of the file that `export_csv` writes. -/
def exportCsv (records : List TradeRecord) : List Char :=
  ['\n'].intercalate (headerLine :: records.map csvLine) ++ ['\n']

/-- The fields of a trade, as they are printed. -/
def fields (t : TradeRecord) : List (List Char) :=
  [t.tradeId, displayInt t.timestamp.toInt, Nat.toDigits 10 t.exchangeId.toNat, t.exchangeName,
    t.symbol, t.side, t.quantity.display, t.price.display, t.fee.display, pnlText t, t.strategy,
    t.pairTradeId.getD []]

/-- A hexadecimal digit. -/
def isHexDigit (c : Char) : Bool :=
  c.isDigit || (decide ('a' ≤ c) && decide (c ≤ 'f')) || (decide ('A' ≤ c) && decide (c ≤ 'F'))

/-- The text of a UUID: groups of 8, 4, 4, 4 and 12 hexadecimal digits. -/
def IsUuid (text : List Char) : Prop :=
  (text.splitOn '-').map List.length = [8, 4, 4, 4, 12] ∧
    ∀ c ∈ text, c = '-' ∨ isHexDigit c = true

instance (text : List Char) : Decidable (IsUuid text) :=
  @instDecidableAnd _ _ _ (List.decidableBAll (fun c => c = '-' ∨ isHexDigit c = true) text)

/-! ## What is printed without quotes -/

lemma isPlain_of_isDigit {c : Char} (h : c.isDigit = true) : IsPlain c := by
  refine ⟨?_, ?_, ?_, ?_⟩ <;> rintro rfl <;> exact absurd h (by decide)

lemma isPlain_of_isHexDigit {c : Char} (h : isHexDigit c = true) : IsPlain c := by
  refine ⟨?_, ?_, ?_, ?_⟩ <;> rintro rfl <;> exact absurd h (by decide)

lemma isDigit_of_mem_digits (d : RustDecimal) : ∀ c ∈ d.digits, c.isDigit = true := by
  intro c hc
  rcases List.mem_append.mp hc with hc | hc
  · rw [(List.mem_replicate.mp hc).2]
    rfl
  · split at hc
    · cases hc
    · exact Nat.isDigit_of_mem_toDigits (by decide) (by decide) hc

lemma isDigit_of_mem_integerPart (d : RustDecimal) : ∀ c ∈ d.integerPart, c.isDigit = true := by
  intro c hc
  rw [RustDecimal.integerPart] at hc
  split at hc
  · rw [List.mem_singleton.mp hc]
    rfl
  · exact isDigit_of_mem_digits d c (List.mem_of_mem_take hc)

lemma isDigit_of_mem_fractionPart (d : RustDecimal) : ∀ c ∈ d.fractionPart, c.isDigit = true :=
  fun c hc => isDigit_of_mem_digits d c (List.mem_of_mem_drop hc)

/-- A sign is plain. -/
lemma isPlain_of_mem_sign {p : Prop} [Decidable p] {c : Char}
    (hc : c ∈ if p then ['-'] else []) : IsPlain c := by
  split at hc
  · rw [List.mem_singleton.mp hc]
    decide
  · cases hc

lemma isPlain_display (d : RustDecimal) : ∀ c ∈ d.display, IsPlain c := by
  intro c hc
  rcases List.mem_append.mp hc with hc | hc
  · exact isPlain_of_mem_sign hc
  · rcases List.mem_append.mp hc with hc | hc
    · exact isPlain_of_isDigit (isDigit_of_mem_integerPart d c hc)
    · split at hc
      · cases hc
      · rcases List.mem_cons.mp hc with rfl | hc
        · decide
        · exact isPlain_of_isDigit (isDigit_of_mem_fractionPart d c hc)

lemma isPlain_toDigits (n : ℕ) : ∀ c ∈ Nat.toDigits 10 n, IsPlain c :=
  fun _ hc => isPlain_of_isDigit (Nat.isDigit_of_mem_toDigits (by decide) (by decide) hc)

lemma isPlain_displayInt (i : ℤ) : ∀ c ∈ displayInt i, IsPlain c := by
  intro c hc
  rcases List.mem_append.mp hc with hc | hc
  · exact isPlain_of_mem_sign hc
  · exact isPlain_toDigits _ c hc

lemma isPlain_pnlText (t : TradeRecord) : ∀ c ∈ pnlText t, IsPlain c := by
  intro c hc
  rw [pnlText] at hc
  cases hpnl : t.pnlRealized with
  | none =>
    rw [hpnl] at hc
    cases hc
  | some d =>
    rw [hpnl] at hc
    exact isPlain_display d c hc

lemma IsUuid.isPlain {text : List Char} (h : IsUuid text) : ∀ c ∈ text, IsPlain c := by
  intro c hc
  rcases h.2 c hc with rfl | hhex
  · decide
  · exact isPlain_of_isHexDigit hhex

/-! ## Reading the export back -/

/-- The cells of a trade. -/
def cells (t : TradeRecord) : List Cell :=
  [.plain t.tradeId, .plain (displayInt t.timestamp.toInt),
    .plain (Nat.toDigits 10 t.exchangeId.toNat), .quoted t.exchangeName, .quoted t.symbol,
    .quoted t.side, .plain t.quantity.display, .plain t.price.display, .plain t.fee.display,
    .plain (pnlText t), .quoted t.strategy, .quoted (t.pairTradeId.getD [])]

/-- Nothing is escaped outside of quotes. -/
lemma csvLine_eq {t : TradeRecord} (h : IsUuid t.tradeId) : csvLine t = renderRow (cells t) := by
  have hid : escape t.tradeId = t.tradeId :=
    escape_eq_self fun hmem => (h.isPlain quoteMark hmem).2.2.2 rfl
  have hpnl : escape (pnlText t) = pnlText t :=
    escape_eq_self fun hmem => (isPlain_pnlText t quoteMark hmem).2.2.2 rfl
  rw [csvLine, hid, hpnl]
  rfl

lemma readable_cells {t : TradeRecord} (h : IsUuid t.tradeId) :
    ∀ cell ∈ cells t, cell.Readable := by
  simp only [cells, List.forall_mem_cons]
  exact ⟨h.isPlain, isPlain_displayInt _, isPlain_toDigits _, trivial, trivial, trivial,
    isPlain_display _, isPlain_display _, isPlain_display _, isPlain_pnlText t, trivial, trivial,
    nofun⟩

lemma headerLine_eq : headerLine = renderRow (header.map Cell.plain) := by
  decide +kernel

lemma isPlain_header : ∀ name ∈ header, ∀ c ∈ name, IsPlain c := by
  have hall : header.flatten.all (fun c => decide (IsPlain c)) = true := by decide +kernel
  intro name hname c hc
  exact of_decide_eq_true (List.all_eq_true.mp hall c (List.mem_flatten_of_mem hname hc))

/-- The file is the rows of the header and of the trades. -/
lemma exportCsv_eq {records : List TradeRecord} (h : ∀ t ∈ records, IsUuid t.tradeId) :
    exportCsv records = renderRows (header.map Cell.plain :: records.map cells) := by
  have hlines : headerLine :: records.map csvLine =
      (header.map Cell.plain :: records.map cells).map renderRow := by
    rw [List.map_cons, headerLine_eq, List.map_map]
    exact congrArg _ (List.map_congr_left fun t ht => csvLine_eq (h t ht))
  rw [exportCsv, hlines, intercalate_append_quote (by simp), closed, List.flatMap_map]
  rfl

lemma neZero_scales : NeZero 29 := inferInstance

lemma neZero_mantissas : NeZero (2 ^ 96) := inferInstance

/-- A decimal from its sign, the number of its decimal places and its digits. -/
def decimalOf (negative : Bool) (scale mantissa : ℕ) : RustDecimal :=
  ⟨negative, @Fin.ofNat 29 neZero_scales scale, @Fin.ofNat (2 ^ 96) neZero_mantissas mantissa⟩

/-- A trade with a comma, quotes and a line break in its texts. -/
def quotedTrade : TradeRecord where
  tradeId := "550e8400-e29b-41d4-a716-446655440000".toList
  timestamp := 1700000000000
  exchangeId := 7
  exchangeName := "Quote, \"Inc\"".toList
  symbol := "BTC\nUSDT".toList
  side := "BUY".toList
  quantity := decimalOf false 3 5
  price := decimalOf false 2 6400000
  fee := decimalOf false 0 0
  pnlRealized := some (decimalOf true 1 25)
  strategy := "cross_exchange".toList
  pairTradeId := none

/-- The number of decimal places is the length of the part behind the dot. -/
lemma length_fractionPart (d : RustDecimal) : d.fractionPart.length = d.scale := by
  have hle : (d.scale : ℕ) ≤ d.digits.length := by
    rw [RustDecimal.digits, List.length_append, List.length_replicate]
    omega
  rw [RustDecimal.fractionPart, List.length_drop]
  omega

/-- The mantissa is read off both parts. -/
lemma ofDigitChars_parts (d : RustDecimal) :
    Nat.ofDigitChars 10 (d.integerPart ++ d.fractionPart) 0 = d.mantissa := by
  have hdigits : Nat.ofDigitChars 10 d.digits 0 = d.mantissa := by
    rw [RustDecimal.digits, Nat.ofDigitChars_append, Nat.ofDigitChars_replicate_zero, Nat.mul_zero]
    split_ifs with hzero
    · exact hzero.symm
    · exact Nat.ofDigitChars_ten_toDigits
  have hparts : d.digits.take (d.digits.length - d.scale) ++ d.fractionPart = d.digits :=
    List.take_append_drop _ _
  rw [RustDecimal.integerPart]
  split_ifs with hwhole
  · rw [hwhole, List.nil_append] at hparts
    rw [hparts]
    exact hdigits
  · rw [hparts, hdigits]

/-- A sign is told from a digit. -/
lemma sign_append_inj {p q : Prop} [Decidable p] [Decidable q] {s s' : List Char}
    (hs : '-' ∉ s) (hs' : '-' ∉ s')
    (h : (if p then ['-'] else []) ++ s = (if q then ['-'] else []) ++ s') :
    (p ↔ q) ∧ s = s' := by
  split_ifs at h with hp hq hq
  · exact ⟨iff_of_true hp hq, (List.cons.inj h).2⟩
  · refine absurd ?_ hs'
    rw [← List.nil_append s', ← h]
    exact List.mem_cons_self
  · refine absurd ?_ hs
    rw [← List.nil_append s, h]
    exact List.mem_cons_self
  · exact ⟨iff_of_false hp hq, h⟩

/-- What stands behind the integer part. -/
def decimals (d : RustDecimal) : List Char :=
  if (d.scale : ℕ) = 0 then [] else '.' :: d.fractionPart

/-- The integer part ends where the digits do. -/
lemma takeWhile_isDigit_parts (d : RustDecimal) :
    (d.integerPart ++ decimals d).takeWhile Char.isDigit = d.integerPart := by
  have hstop : (decimals d).takeWhile Char.isDigit = [] := by
    rw [decimals]
    split_ifs <;> rfl
  rw [List.takeWhile_append_of_pos (isDigit_of_mem_integerPart d), hstop, List.append_nil]

/-- What stands behind the integer part determines the number of decimal places and the digits. -/
lemma decimals_inj {d d' : RustDecimal} (h : decimals d = decimals d') :
    (d.scale : ℕ) = d'.scale ∧ d.fractionPart = d'.fractionPart := by
  have hfraction : d.fractionPart = d'.fractionPart := by
    rw [decimals, decimals] at h
    split_ifs at h with hd hd'
    · rw [List.eq_nil_of_length_eq_zero ((length_fractionPart d).trans hd),
        List.eq_nil_of_length_eq_zero ((length_fractionPart d').trans hd')]
    · exact (List.cons.inj h).2
  refine ⟨?_, hfraction⟩
  rw [← length_fractionPart, ← length_fractionPart, hfraction]

lemma minus_notMem_parts (d : RustDecimal) : '-' ∉ d.integerPart ++ decimals d := by
  intro hmem
  rcases List.mem_append.mp hmem with hmem | hmem
  · exact absurd (isDigit_of_mem_integerPart d _ hmem) (by decide)
  · rw [decimals] at hmem
    split_ifs at hmem
    · cases hmem
    · rcases List.mem_cons.mp hmem with hmem | hmem
      · exact absurd hmem (by decide)
      · exact absurd (isDigit_of_mem_fractionPart d _ hmem) (by decide)

/-- A printed decimal determines the decimal. -/
lemma display_injective : Function.Injective RustDecimal.display := by
  intro d d' h
  obtain ⟨hsign, hparts⟩ := sign_append_inj (minus_notMem_parts d) (minus_notMem_parts d') h
  have hinteger : d.integerPart = d'.integerPart := by
    rw [← takeWhile_isDigit_parts, hparts, takeWhile_isDigit_parts]
  rw [hinteger] at hparts
  obtain ⟨hscale, hfraction⟩ := decimals_inj (List.append_cancel_left hparts)
  have hmantissa : (d.mantissa : ℕ) = d'.mantissa := by
    rw [← ofDigitChars_parts, hinteger, hfraction, ofDigitChars_parts]
  rw [RustDecimal.mk.injEq]
  exact ⟨Bool.eq_iff_iff.mpr hsign, Fin.ext hscale, Fin.ext hmantissa⟩

/-- A printed integer determines the integer. -/
lemma displayInt_injective : Function.Injective displayInt := by
  intro i j h
  have hminus : ∀ n, '-' ∉ Nat.toDigits 10 n := notMem_toDigits (by decide)
  obtain ⟨hsign, hdigits⟩ := sign_append_inj (hminus _) (hminus _) h
  have habs := toDigits_injective hdigits
  omega

/-- A decimal is not printed without characters. -/
lemma display_ne_nil (d : RustDecimal) : d.display ≠ [] := by
  intro h
  obtain ⟨-, hparts⟩ := List.append_eq_nil_iff.mp h
  have hinteger := (List.append_eq_nil_iff.mp hparts).1
  rw [RustDecimal.integerPart] at hinteger
  split_ifs at hinteger with hwhole
  exact hwhole hinteger

lemma pnlText_inj {t t' : TradeRecord} (h : pnlText t = pnlText t') :
    t.pnlRealized = t'.pnlRealized := by
  rw [pnlText, pnlText] at h
  cases hpnl : t.pnlRealized with
  | none =>
    cases hpnl' : t'.pnlRealized with
    | none => rfl
    | some d' =>
      rw [hpnl, hpnl'] at h
      exact absurd h.symm (display_ne_nil d')
  | some d =>
    cases hpnl' : t'.pnlRealized with
    | none =>
      rw [hpnl, hpnl'] at h
      exact absurd h (display_ne_nil d)
    | some d' =>
      rw [hpnl, hpnl'] at h
      exact congrArg some (display_injective h)

/-- The fields of two trades agree exactly when the trades do, up to an absent id of the paired
trade, which is printed like an empty one. -/
theorem fields_eq_iff (t t' : TradeRecord) :
    fields t = fields t' ↔
      { t with pairTradeId := some (t.pairTradeId.getD []) } =
        { t' with pairTradeId := some (t'.pairTradeId.getD []) } := by
  have htime : displayInt t.timestamp.toInt = displayInt t'.timestamp.toInt ↔
      t.timestamp = t'.timestamp := displayInt_injective.eq_iff.trans Int64.toInt_inj
  have hexchange : Nat.toDigits 10 t.exchangeId.toNat = Nat.toDigits 10 t'.exchangeId.toNat ↔
      t.exchangeId = t'.exchangeId :=
    ⟨fun h => UInt16.toNat_inj.mp (toDigits_injective h), fun h => by rw [h]⟩
  have hpnl : pnlText t = pnlText t' ↔ t.pnlRealized = t'.pnlRealized :=
    ⟨pnlText_inj, fun h => by rw [pnlText, pnlText, h]⟩
  simp only [fields, TradeRecord.mk.injEq, List.cons.injEq, and_true, htime, hexchange, hpnl,
    display_injective.eq_iff, Option.some.injEq]

end TradeLog

end HftArb
