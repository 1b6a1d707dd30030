import HftArb.Capital.DepositVerification
import HftArb.Execution.DynamicFees
import HftArb.Feeds.BinanceDepth
import HftArb.Feeds.MarketDepth
import HftArb.Foundations.Numerals

/-!
# The depth messages of the exchanges

Every exchange has its own parser for the messages of the order books.  Most of them find two arrays
of pairs of prices and quantities, an update id and a flag for snapshots, and differ in the fields
where these stand; four of them read levels that name their side.  `parseOrderbookUpdate` chooses
the parser by the exchange.

Every delta has some level, and positive prices only, unless it is from a single-level message of
Bitfinex: its price is not compared with zero (`parseOrderbookUpdate_spec`).
-/

namespace HftArb

namespace BinanceDepth.Json

/-- `is_object`. -/
def isObject : Json → Bool
  | .object _ => true
  | _ => false

end BinanceDepth.Json

namespace DepthMessages

open BinanceDepth

/-- A level of one side. -/
structure SidedLevel where
  side : Side
  price : Decimal
  qty : Decimal

/-- The levels of a side with their prices and quantities. -/
def levelsOf (side : Side) (levels : List SidedLevel) : List (Decimal × Decimal) :=
  (levels.filter fun level => decide (level.side = side)).map fun level => (level.price, level.qty)

/-- The text of a field is the given one. -/
def fieldIs (field : Option Json) (text : String) : Bool :=
  decide (field.bind Json.asStr = some text)

/-- The number of a field, zero when there is none. -/
def idOf (field : Option Json) : UInt64 := (field.bind Json.asU64).getD 0

/-- The levels of an array that is given up at the first entry that is no array. -/
def collectLevels (levelOf : List Json → Option SidedLevel) : List Json → Option (List SidedLevel)
  | [] => some []
  | entry :: entries =>
    entry.asArray.bind fun fields =>
      (collectLevels levelOf entries).map fun levels => (levelOf fields).toList ++ levels

/-- A delta of some levels, if there are any. -/
def deltaOf (bidUpdates askUpdates : List (Decimal × Decimal)) (isSnapshot : Bool)
    (lastUpdateId : UInt64) (ts : ℕ) : Option OrderBookDelta :=
  if bidUpdates = [] ∧ askUpdates = [] then none
  else some
    { bidUpdates := bidUpdates
      askUpdates := askUpdates
      isSnapshot := isSnapshot
      lastUpdateId := lastUpdateId.toNat
      lastUpdateNs := ts }

section Model

-- `serde_json::from_str`, the parser of decimals, and `as_f64` followed by `from_f64_retain`.
variable (fromStr : String → Option Json) (parseDecimal : String → Option Decimal)
  (decimalOfNumber : JsonNumber → Option Decimal)

/-- The decimal of a text field, zero when there is none. -/
def textDecimal (field : Option Json) : Decimal :=
  ((field.bind Json.asStr).bind parseDecimal).getD 0

/-- The delta of a message with its bids and its asks in two arrays of pairs.  The flag may depend
on the number of levels that are read. -/
def pairsDelta (bids asks : Option Json) (isSnapshot : ℕ → Bool) (updateId : UInt64) (ts : ℕ) :
    Option OrderBookDelta :=
  (bids.bind Json.asArray).bind fun bidsArr =>
  (asks.bind Json.asArray).bind fun asksArr =>
  let bidUpdates := parsePriceQtyPairs parseDecimal decimalOfNumber bidsArr
  let askUpdates := parsePriceQtyPairs parseDecimal decimalOfNumber asksArr
  deltaOf bidUpdates askUpdates (isSnapshot (bidUpdates.length + askUpdates.length)) updateId ts

/-- `parse_bybit_book`. -/
def parseBybitBook (raw : String) (ts : ℕ) : Option OrderBookDelta :=
  (fromStr raw).bind fun v =>
  if (v.get? "op").isSome then none
  else if fieldIs (v.get? "ret_msg") "pong" then none
  else
    (v.get? "data").bind fun data =>
    pairsDelta parseDecimal decimalOfNumber (data.get? "b") (data.get? "a")
      (fun _ => fieldIs (v.get? "type") "snapshot") (idOf (data.get? "u")) ts

/-- `parse_okx_book`. -/
def parseOkxBook (raw : String) (ts : ℕ) : Option OrderBookDelta :=
  (fromStr raw).bind fun v =>
  if (v.get? "event").isSome then none
  else
    ((v.get? "data").bind Json.asArray).bind fun dataArr =>
    dataArr.head?.bind fun first =>
    let seqId := (first.get? "seqId").bind Json.asStr
    let updateId := (seqId.bind fun s => Numerals.parseU64Text s.toList).getD 0
    pairsDelta parseDecimal decimalOfNumber (first.get? "bids") (first.get? "asks")
      (fun _ => fieldIs (v.get? "action") "snapshot") updateId ts

/-- `parse_gateio_book`. -/
def parseGateioBook (raw : String) (ts : ℕ) : Option OrderBookDelta :=
  (fromStr raw).bind fun v =>
  if fieldIs (v.get? "event") "subscribe" then none
  else
    (v.get? "result").bind fun result =>
    pairsDelta parseDecimal decimalOfNumber (result.get? "bids") (result.get? "asks")
      (fun _ => fieldIs (v.get? "event") "snapshot") (idOf (result.get? "lastUpdateId")) ts

/-- A level of Bitfinex: a bid when its amount is positive, and removed when its count is zero. -/
def bitfinexLevel (price : Decimal) (count : Int64) (amount : Decimal) : SidedLevel where
  side := if 0 < amount then .bid else .ask
  price := price
  qty := if count = 0 then 0 else |amount|

/-- An entry of a multi-level message of Bitfinex. -/
def bitfinexEntry (fields : List Json) : Option SidedLevel :=
  match fields with
  | price :: count :: amount :: _ =>
    let price := (parseDecimalValue parseDecimal decimalOfNumber price).getD 0
    let amount := (parseDecimalValue parseDecimal decimalOfNumber amount).getD 0
    if price ≤ 0 then none else some (bitfinexLevel price (count.asI64.getD 0) amount)
  | _ => none

/-- `parse_bitfinex_book`. -/
def parseBitfinexBook (raw : String) (ts : ℕ) : Option OrderBookDelta :=
  (fromStr raw).bind fun v =>
  v.asArray.bind fun arr =>
  match arr with
  | [] => none
  | first :: rest =>
    if first.isObject then none
    else
      match rest with
      | price :: count :: amount :: _ =>
        -- a single level; its price is taken as it is
        (parseDecimalValue parseDecimal decimalOfNumber price).bind fun price =>
        let amount := (parseDecimalValue parseDecimal decimalOfNumber amount).getD 0
        let level := bitfinexLevel price (count.asI64.getD 0) amount
        deltaOf (levelsOf .bid [level]) (levelsOf .ask [level]) false 0 ts
      | entries :: _ =>
        entries.asArray.bind fun entries =>
        (collectLevels (bitfinexEntry parseDecimal decimalOfNumber) entries).bind fun levels =>
        deltaOf (levelsOf .bid levels) (levelsOf .ask levels) (decide (10 ≤ entries.length)) 0 ts
      | [] => none

/-- `parse_bitget_ticker_book`. -/
def parseBitgetTickerBook (raw : String) (ts : ℕ) : Option OrderBookDelta :=
  (fromStr raw).bind fun v =>
  if (v.get? "op").isSome then none
  else
    (((v.get? "data").bind Json.asArray).or ((v.get? "tickers").bind Json.asArray)).bind
      fun tickers =>
    tickers.head?.bind fun t =>
    let bidPrice := textDecimal parseDecimal ((t.get? "bid1").or (t.get? "bidPr"))
    let askPrice := textDecimal parseDecimal ((t.get? "ask1").or (t.get? "askPr"))
    let bidQty := textDecimal parseDecimal ((t.get? "bidSz1").or (t.get? "bidSz"))
    let askQty := textDecimal parseDecimal ((t.get? "askSz1").or (t.get? "askSz"))
    if bidPrice ≤ 0 ∧ askPrice ≤ 0 then none
    else some
      { bidUpdates := if 0 < bidPrice then [(bidPrice, bidQty)] else []
        askUpdates := if 0 < askPrice then [(askPrice, askQty)] else []
        isSnapshot := true
        lastUpdateId := 0
        lastUpdateNs := ts }

/-- The side that a message names. -/
def sideOf (buy sell : String) (side : String) : Option Side :=
  if side = buy then some .bid else if side = sell then some .ask else none

/-- A level of BitMEX; `delete` removes it. -/
def bitmexLevel (action : String) (level : Json) : Option SidedLevel :=
  let price := textDecimal parseDecimal (level.get? "price")
  let size := idOf (level.get? "size")
  if price ≤ 0 then none
  else
    (sideOf "Buy" "Sell" (((level.get? "side").bind Json.asStr).getD "")).map fun side =>
      ⟨side, price, if action = "delete" then 0 else size.toNat⟩

/-- `parse_bitmex_book`. -/
def parseBitmexBook (raw : String) (ts : ℕ) : Option OrderBookDelta :=
  (fromStr raw).bind fun v =>
  if (v.get? "success").isSome then none
  else
    ((v.get? "table").bind Json.asStr).bind fun table =>
    if ¬ "orderBookL2".toList <+: table.toList then none
    else
      ((v.get? "action").bind Json.asStr).bind fun action =>
      ((v.get? "data").bind Json.asArray).bind fun dataArr =>
      let levels := dataArr.filterMap (bitmexLevel parseDecimal action)
      let maxId := dataArr.foldl (fun maxId level => max maxId (idOf (level.get? "id"))) 0
      deltaOf (levelsOf .bid levels) (levelsOf .ask levels) (decide (action = "partial")) maxId ts

/-- A change of Coinbase. -/
def coinbaseChange (fields : List Json) : Option SidedLevel :=
  match fields with
  | side :: price :: qty :: _ =>
    let price := textDecimal parseDecimal (some price)
    if price ≤ 0 then none
    else
      (sideOf "buy" "sell" (side.asStr.getD "")).map fun side =>
        ⟨side, price, textDecimal parseDecimal (some qty)⟩
  | _ => none

/-- `parse_coinbase_l2`. -/
def parseCoinbaseL2 (raw : String) (ts : ℕ) : Option OrderBookDelta :=
  (fromStr raw).bind fun v =>
  ((v.get? "type").bind Json.asStr).bind fun msgType =>
  if msgType = "snapshot" then
    pairsDelta parseDecimal decimalOfNumber (v.get? "bids") (v.get? "asks") (fun _ => true) 0 ts
  else if msgType = "l2_update" then
    ((v.get? "changes").bind Json.asArray).bind fun changes =>
    (collectLevels (coinbaseChange parseDecimal) changes).bind fun levels =>
    deltaOf (levelsOf .bid levels) (levelsOf .ask levels) false 0 ts
  else none

/-- `parse_htx_depth`. -/
def parseHtxDepth (raw : String) (ts : ℕ) : Option OrderBookDelta :=
  (fromStr raw).bind fun v =>
  if (v.get? "status").isSome then none
  else
    (v.get? "tick").bind fun tick =>
    pairsDelta parseDecimal decimalOfNumber (tick.get? "bids") (tick.get? "asks") (fun _ => false)
      (idOf (tick.get? "id")) ts

/-- `parse_price_qty_pairs_3`. -/
def parsePriceQtyPairs3 (pairs : List Json) : List (Decimal × Decimal) :=
  pairs.filterMap (parsePair parseDecimal decimalOfNumber)

/-- `parse_kraken_book`: the fields of an update win over those of a snapshot. -/
def parseKrakenBook (raw : String) (ts : ℕ) : Option OrderBookDelta :=
  (fromStr raw).bind fun v =>
  v.asArray.bind fun arr =>
  match arr with
  | first :: bookData :: _ =>
    if first.isObject then none
    else
      let field (key : String) := (bookData.get? key).bind Json.asArray
      let pairs := parsePriceQtyPairs3 parseDecimal decimalOfNumber
      let askUpdates := (((field "a").or (field "as")).map pairs).getD []
      let bidUpdates := (((field "b").or (field "bs")).map pairs).getD []
      deltaOf bidUpdates askUpdates ((field "as").isSome || (field "bs").isSome) 0 ts
  | _ => none

/-- `parse_lbank_depth`. -/
def parseLbankDepth (raw : String) (ts : ℕ) : Option OrderBookDelta :=
  (fromStr raw).bind fun v =>
  if fieldIs (v.get? "type") "subscribe" then none
  else
    (v.get? "data").bind fun data =>
    pairsDelta parseDecimal decimalOfNumber (data.get? "bids") (data.get? "asks") (fun _ => false)
      (idOf (data.get? "timestamp")) ts

/-- `parse_bitstamp_book`. -/
def parseBitstampBook (raw : String) (ts : ℕ) : Option OrderBookDelta :=
  (fromStr raw).bind fun v =>
  if ((v.get? "event").bind Json.asStr).any fun event =>
      decide ("subscription".toList <:+: event.toList) then none
  else
    (v.get? "data").bind fun data =>
    pairsDelta parseDecimal decimalOfNumber (data.get? "bids") (data.get? "asks") (fun _ => false)
      (idOf (data.get? "timestamp")) ts

/-- `parse_deribit_book`. -/
def parseDeribitBook (raw : String) (ts : ℕ) : Option OrderBookDelta :=
  (fromStr raw).bind fun v =>
  if (v.get? "result").isSome then none
  else
    (v.get? "params").bind fun params =>
    (params.get? "data").bind fun data =>
    pairsDelta parseDecimal decimalOfNumber (data.get? "bids") (data.get? "asks")
      (fun totalLevels => fieldIs (v.get? "type") "snapshot" || decide (10 < totalLevels))
      (idOf (data.get? "id")) ts

/-- A field at the top, in the field `data` or in the field `result`. -/
def nestedField (v : Json) (key : String) : Option Json :=
  ((v.get? key).or ((v.get? "data").bind fun d => d.get? key)).or
    ((v.get? "result").bind fun r => r.get? key)

/-- `parse_generic_book`. -/
def parseGenericBook (raw : String) (ts : ℕ) : Option OrderBookDelta :=
  (fromStr raw).bind fun v =>
  let updateId := idOf
    (((v.get? "id").or ((v.get? "data").bind fun d => d.get? "id")).or (v.get? "lastUpdateId"))
  pairsDelta parseDecimal decimalOfNumber (nestedField v "bids") (nestedField v "asks")
    (fun totalLevels => fieldIs (v.get? "type") "snapshot" || decide (10 < totalLevels))
    updateId ts

/-- The result of the parser of an exchange. -/
def parseFor (exchangeId : UInt16) (raw : String) (ts : ℕ) : Option OrderBookDelta :=
  match exchangeId.toNat with
  | 0 | 15 => parseBinanceDepth fromStr parseDecimal decimalOfNumber raw ts
  | 1 => parseBybitBook fromStr parseDecimal decimalOfNumber raw ts
  | 2 => parseOkxBook fromStr parseDecimal decimalOfNumber raw ts
  | 3 => parseGateioBook fromStr parseDecimal decimalOfNumber raw ts
  | 5 => parseBitfinexBook fromStr parseDecimal decimalOfNumber raw ts
  | 6 => parseBitgetTickerBook fromStr parseDecimal raw ts
  | 7 => parseBitmexBook fromStr parseDecimal raw ts
  | 8 => parseCoinbaseL2 fromStr parseDecimal decimalOfNumber raw ts
  | 9 => parseHtxDepth fromStr parseDecimal decimalOfNumber raw ts
  | 10 => parseKrakenBook fromStr parseDecimal decimalOfNumber raw ts
  | 11 => parseLbankDepth fromStr parseDecimal decimalOfNumber raw ts
  | 12 => parseBitstampBook fromStr parseDecimal decimalOfNumber raw ts
  | 13 => parseDeribitBook fromStr parseDecimal decimalOfNumber raw ts
  | _ => parseGenericBook fromStr parseDecimal decimalOfNumber raw ts

/-- `parse_orderbook_update`, with the reading of the clock. -/
def parseOrderbookUpdate (exchangeId : UInt16) (raw : String) (ts : ℕ) : Option OrderBookDelta :=
  let text := String.ofList (DynamicFees.trim raw.toList)
  if text = "" then none
  else parseFor fromStr parseDecimal decimalOfNumber exchangeId text ts

end Model

/-! ## What the parsers return -/

/-- The prices of a delta are positive. -/
def PositivePrices (delta : OrderBookDelta) : Prop :=
  ∀ level ∈ delta.bidUpdates ++ delta.askUpdates, 0 < level.1

/-- A result is no delta without levels or with a price that is not positive. -/
def Sound (result : Option OrderBookDelta) : Prop :=
  ∀ delta, result = some delta → delta.HasLevels ∧ PositivePrices delta

lemma sound_none : Sound none := by
  intro delta h
  cases h

lemma Sound.bind {α : Type*} {x : Option α} {f : α → Option OrderBookDelta}
    (h : ∀ a, Sound (f a)) : Sound (x.bind f) := by
  cases x with
  | none => exact sound_none
  | some a => exact h a

/-- A message that a parser skips. -/
lemma Sound.skip {p : Prop} [Decidable p] {result : Option OrderBookDelta} (h : Sound result) :
    Sound (if p then none else result) := by
  split_ifs
  · exact sound_none
  · exact h

lemma deltaOf_spec {bidUpdates askUpdates : List (Decimal × Decimal)} {isSnapshot : Bool}
    {updateId : UInt64} {ts : ℕ} {delta : OrderBookDelta}
    (h : deltaOf bidUpdates askUpdates isSnapshot updateId ts = some delta) :
    delta.HasLevels ∧ delta.bidUpdates = bidUpdates ∧ delta.askUpdates = askUpdates := by
  unfold deltaOf at h
  split_ifs at h with hlevels
  cases h
  exact ⟨hlevels, rfl, rfl⟩

lemma sound_deltaOf {bidUpdates askUpdates : List (Decimal × Decimal)} {isSnapshot : Bool}
    {updateId : UInt64} {ts : ℕ} (hbids : ∀ level ∈ bidUpdates, 0 < level.1)
    (hasks : ∀ level ∈ askUpdates, 0 < level.1) :
    Sound (deltaOf bidUpdates askUpdates isSnapshot updateId ts) := by
  intro delta h
  obtain ⟨hlevels, rfl, rfl⟩ := deltaOf_spec h
  refine ⟨hlevels, fun level hlevel => ?_⟩
  exact (List.mem_append.mp hlevel).elim (hbids level) (hasks level)

/-- The levels of a side are among the levels. -/
lemma pos_of_mem_levelsOf {side : Side} {levels : List SidedLevel} {level : Decimal × Decimal}
    (hpos : ∀ l ∈ levels, 0 < l.price) (h : level ∈ levelsOf side levels) : 0 < level.1 := by
  obtain ⟨l, hl, rfl⟩ := List.mem_map.mp h
  exact hpos l (List.mem_of_mem_filter hl)

lemma sound_deltaOf_levelsOf {levels : List SidedLevel} {isSnapshot : Bool} {updateId : UInt64}
    {ts : ℕ} (hpos : ∀ l ∈ levels, 0 < l.price) :
    Sound (deltaOf (levelsOf .bid levels) (levelsOf .ask levels) isSnapshot updateId ts) :=
  sound_deltaOf (fun _ => pos_of_mem_levelsOf hpos) fun _ => pos_of_mem_levelsOf hpos

/-- The collected levels are those of the entries. -/
lemma exists_of_mem_collectLevels {levelOf : List Json → Option SidedLevel} {entries : List Json}
    {levels : List SidedLevel} (h : collectLevels levelOf entries = some levels) :
    ∀ l ∈ levels, ∃ fields, levelOf fields = some l := by
  induction entries generalizing levels with
  | nil =>
    cases h
    intro l hl
    cases hl
  | cons entry entries ih =>
    obtain ⟨fields, -, h⟩ := Option.bind_eq_some_iff.mp h
    obtain ⟨rest, hrest, rfl⟩ := Option.map_eq_some_iff.mp h
    intro l hl
    rcases List.mem_append.mp hl with hl | hl
    · exact ⟨fields, Option.mem_toList.mp hl⟩
    · exact ih hrest l hl

section Parsers

variable {fromStr : String → Option Json} {parseDecimal : String → Option Decimal}
  {decimalOfNumber : JsonNumber → Option Decimal}

lemma sound_pairsDelta {bids asks : Option Json} {isSnapshot : ℕ → Bool} {updateId : UInt64}
    {ts : ℕ} :
    Sound (pairsDelta parseDecimal decimalOfNumber bids asks isSnapshot updateId ts) := by
  refine Sound.bind fun bidsArr => Sound.bind fun asksArr => ?_
  exact sound_deltaOf (fun _ => pos_of_mem_parsePriceQtyPairs) fun _ =>
    pos_of_mem_parsePriceQtyPairs

lemma sound_parseBinanceDepth (raw : String) (ts : ℕ) :
    Sound (parseBinanceDepth fromStr parseDecimal decimalOfNumber raw ts) := by
  intro delta h
  obtain ⟨v, hv, -⟩ := Option.bind_eq_some_iff.mp h
  exact (parseBinanceDepth_spec hv h).2

lemma sound_parseBybitBook (raw : String) (ts : ℕ) :
    Sound (parseBybitBook fromStr parseDecimal decimalOfNumber raw ts) :=
  Sound.bind fun _ => Sound.skip <| Sound.skip <| Sound.bind fun _ => sound_pairsDelta

lemma sound_parseOkxBook (raw : String) (ts : ℕ) :
    Sound (parseOkxBook fromStr parseDecimal decimalOfNumber raw ts) :=
  Sound.bind fun _ => Sound.skip <| Sound.bind fun _ => Sound.bind fun _ => sound_pairsDelta

lemma sound_parseGateioBook (raw : String) (ts : ℕ) :
    Sound (parseGateioBook fromStr parseDecimal decimalOfNumber raw ts) :=
  Sound.bind fun _ => Sound.skip <| Sound.bind fun _ => sound_pairsDelta

lemma sound_parseHtxDepth (raw : String) (ts : ℕ) :
    Sound (parseHtxDepth fromStr parseDecimal decimalOfNumber raw ts) :=
  Sound.bind fun _ => Sound.skip <| Sound.bind fun _ => sound_pairsDelta

lemma sound_parseLbankDepth (raw : String) (ts : ℕ) :
    Sound (parseLbankDepth fromStr parseDecimal decimalOfNumber raw ts) :=
  Sound.bind fun _ => Sound.skip <| Sound.bind fun _ => sound_pairsDelta

lemma sound_parseBitstampBook (raw : String) (ts : ℕ) :
    Sound (parseBitstampBook fromStr parseDecimal decimalOfNumber raw ts) :=
  Sound.bind fun _ => Sound.skip <| Sound.bind fun _ => sound_pairsDelta

lemma sound_parseDeribitBook (raw : String) (ts : ℕ) :
    Sound (parseDeribitBook fromStr parseDecimal decimalOfNumber raw ts) :=
  Sound.bind fun _ => Sound.skip <| Sound.bind fun _ => Sound.bind fun _ => sound_pairsDelta

lemma sound_parseGenericBook (raw : String) (ts : ℕ) :
    Sound (parseGenericBook fromStr parseDecimal decimalOfNumber raw ts) :=
  Sound.bind fun _ => sound_pairsDelta

lemma sound_parseKrakenBook (raw : String) (ts : ℕ) :
    Sound (parseKrakenBook fromStr parseDecimal decimalOfNumber raw ts) := by
  have hpairs : ∀ {field : Option (List Json)} {level : Decimal × Decimal},
      level ∈ (field.map (parsePriceQtyPairs3 parseDecimal decimalOfNumber)).getD [] →
      0 < level.1 := by
    intro field level h
    cases field with
    | none => cases h
    | some pairs => exact pos_of_mem_parsePriceQtyPairs h
  refine Sound.bind fun v => Sound.bind fun arr => ?_
  split
  · exact Sound.skip (sound_deltaOf (fun _ => hpairs) fun _ => hpairs)
  · exact sound_none

/-- A quote is taken when its price is positive. -/
lemma pos_of_mem_quote {price qty : Decimal} {level : Decimal × Decimal}
    (h : level ∈ if 0 < price then [(price, qty)] else []) : 0 < level.1 := by
  split_ifs at h with hpos
  · rw [List.mem_singleton.mp h]
    exact hpos
  · cases h

lemma sound_parseBitgetTickerBook (raw : String) (ts : ℕ) :
    Sound (parseBitgetTickerBook fromStr parseDecimal raw ts) := by
  refine Sound.bind fun v => Sound.skip <| Sound.bind fun tickers => Sound.bind fun t => ?_
  dsimp only
  generalize textDecimal parseDecimal ((t.get? "bid1").or (t.get? "bidPr")) = bidPrice
  generalize textDecimal parseDecimal ((t.get? "ask1").or (t.get? "askPr")) = askPrice
  intro delta h
  by_cases hnone : bidPrice ≤ 0 ∧ askPrice ≤ 0
  · rw [if_pos hnone] at h
    cases h
  · rw [if_neg hnone] at h
    cases h
    refine ⟨?_, fun level hlevel => (List.mem_append.mp hlevel).elim pos_of_mem_quote
      pos_of_mem_quote⟩
    rintro ⟨hbids, hasks⟩
    rcases not_and_or.mp hnone with hpos | hpos
    · simp [not_le.mp hpos] at hbids
    · simp [not_le.mp hpos] at hasks

lemma sound_parseBitmexBook (raw : String) (ts : ℕ) :
    Sound (parseBitmexBook fromStr parseDecimal raw ts) := by
  refine Sound.bind fun v => Sound.skip <| Sound.bind fun table => Sound.skip <|
    Sound.bind fun action => Sound.bind fun dataArr => sound_deltaOf_levelsOf fun l hl => ?_
  obtain ⟨level, -, hlevel⟩ := List.mem_filterMap.mp hl
  unfold bitmexLevel at hlevel
  dsimp only at hlevel
  by_cases hprice : textDecimal parseDecimal (level.get? "price") ≤ 0
  · rw [if_pos hprice] at hlevel
    cases hlevel
  · rw [if_neg hprice] at hlevel
    obtain ⟨side, -, rfl⟩ := Option.map_eq_some_iff.mp hlevel
    exact not_le.mp hprice

lemma sound_parseCoinbaseL2 (raw : String) (ts : ℕ) :
    Sound (parseCoinbaseL2 fromStr parseDecimal decimalOfNumber raw ts) := by
  refine Sound.bind fun v => Sound.bind fun msgType => ?_
  split_ifs
  · exact sound_pairsDelta
  · refine Sound.bind fun changes => ?_
    intro delta h
    obtain ⟨levels, hlevels, h⟩ := Option.bind_eq_some_iff.mp h
    refine sound_deltaOf_levelsOf (fun l hl => ?_) delta h
    obtain ⟨fields, hfields⟩ := exists_of_mem_collectLevels hlevels l hl
    unfold coinbaseChange at hfields
    split at hfields
    · dsimp only at hfields
      split_ifs at hfields with hprice
      obtain ⟨side, -, rfl⟩ := Option.map_eq_some_iff.mp hfields
      exact not_le.mp hprice
    · cases hfields
  · exact sound_none

/-- The entries of a multi-level message have positive prices. -/
lemma pos_of_bitfinexEntry {fields : List Json} {l : SidedLevel}
    (h : bitfinexEntry parseDecimal decimalOfNumber fields = some l) : 0 < l.price := by
  unfold bitfinexEntry at h
  split at h
  · dsimp only at h
    split_ifs at h with hprice
    cases h
    exact not_le.mp hprice
  · cases h

variable (parseDecimal decimalOfNumber) in
/-- A single-level message of Bitfinex whose price is not positive. -/
def NonpositiveSingle (v : Json) : Prop :=
  ∃ first price count amount rest p, v = .array (first :: price :: count :: amount :: rest) ∧
    parseDecimalValue parseDecimal decimalOfNumber price = some p ∧ p ≤ 0

/-- A multi-level message of Bitfinex. -/
lemma sound_bitfinexEntries {entries : Json} {ts : ℕ} :
    Sound (entries.asArray.bind fun entries =>
      (collectLevels (bitfinexEntry parseDecimal decimalOfNumber) entries).bind fun levels =>
      deltaOf (levelsOf .bid levels) (levelsOf .ask levels) (decide (10 ≤ entries.length)) 0
        ts) := by
  refine Sound.bind fun entries delta h => ?_
  obtain ⟨levels, hlevels, h⟩ := Option.bind_eq_some_iff.mp h
  refine sound_deltaOf_levelsOf (fun l hl => ?_) delta h
  obtain ⟨fields, hfields⟩ := exists_of_mem_collectLevels hlevels l hl
  exact pos_of_bitfinexEntry hfields

lemma not_nonpositiveSingle {arr : List Json} (h : arr.length ≤ 3) :
    ¬ NonpositiveSingle parseDecimal decimalOfNumber (.array arr) := by
  rintro ⟨first, price, count, amount, rest, p, heq, -⟩
  rw [Json.array.inj heq] at h
  simp only [List.length_cons] at h
  omega

/-- A delta of Bitfinex has some level, and positive prices only unless it is of a single level
without one. -/
lemma parseBitfinexBook_spec {raw : String} {ts : ℕ} {v : Json} {delta : OrderBookDelta}
    (hv : fromStr raw = some v)
    (h : parseBitfinexBook fromStr parseDecimal decimalOfNumber raw ts = some delta) :
    delta.HasLevels ∧
      (PositivePrices delta ↔ ¬ NonpositiveSingle parseDecimal decimalOfNumber v) := by
  unfold parseBitfinexBook at h
  rw [hv, Option.bind_some] at h
  obtain ⟨arr, harr, hdelta⟩ := Option.bind_eq_some_iff.mp h
  have hv' : v = .array arr := by
    cases v <;> simp_all [Json.asArray]
  subst hv'
  rcases arr with _ | ⟨first, _ | ⟨price, _ | ⟨count, _ | ⟨amount, rest⟩⟩⟩⟩
  · cases hdelta
  · dsimp only at hdelta
    split_ifs at hdelta
  · dsimp only at hdelta
    split_ifs at hdelta
    have hsound := sound_bitfinexEntries delta hdelta
    exact ⟨hsound.1, iff_of_true hsound.2 (not_nonpositiveSingle (by simp))⟩
  · dsimp only at hdelta
    split_ifs at hdelta
    have hsound := sound_bitfinexEntries delta hdelta
    exact ⟨hsound.1, iff_of_true hsound.2 (not_nonpositiveSingle (by simp))⟩
  · dsimp only at hdelta
    split_ifs at hdelta
    obtain ⟨p, hp, hdelta⟩ := Option.bind_eq_some_iff.mp hdelta
    obtain ⟨hlevels, hbids, hasks⟩ := deltaOf_spec hdelta
    refine ⟨hlevels, ?_⟩
    have hall : PositivePrices delta ↔ 0 < p := by
      unfold PositivePrices
      rw [hbids, hasks]
      by_cases hamount :
          0 < (parseDecimalValue parseDecimal decimalOfNumber amount).getD 0
      · simp [levelsOf, bitfinexLevel, hamount]
      · simp [levelsOf, bitfinexLevel, hamount]
    rw [hall, ← not_le, not_iff_not]
    constructor
    · intro hle
      exact ⟨first, price, count, amount, rest, p, rfl, hp, hle⟩
    · rintro ⟨_, _, _, _, _, q, heq, hq, hle⟩
      cases heq
      rw [hp] at hq
      cases hq
      exact hle

/-- The deltas of all exchanges but Bitfinex are sound. -/
lemma sound_parseFor {exchangeId : UInt16} (hexchange : exchangeId ≠ 5) (raw : String) (ts : ℕ) :
    Sound (parseFor fromStr parseDecimal decimalOfNumber exchangeId raw ts) := by
  unfold parseFor
  split
  · exact sound_parseBinanceDepth raw ts
  · exact sound_parseBinanceDepth raw ts
  · exact sound_parseBybitBook raw ts
  · exact sound_parseOkxBook raw ts
  · exact sound_parseGateioBook raw ts
  · exact absurd (UInt16.toNat_inj.mp ‹_›) hexchange
  · exact sound_parseBitgetTickerBook raw ts
  · exact sound_parseBitmexBook raw ts
  · exact sound_parseCoinbaseL2 raw ts
  · exact sound_parseHtxDepth raw ts
  · exact sound_parseKrakenBook raw ts
  · exact sound_parseLbankDepth raw ts
  · exact sound_parseBitstampBook raw ts
  · exact sound_parseDeribitBook raw ts
  · exact sound_parseGenericBook raw ts

variable (fromStr parseDecimal decimalOfNumber) in
/-- A message of an exchange puts a price into its delta that is not positive. -/
def NonpositivePrice (exchangeId : UInt16) (raw : String) : Prop :=
  exchangeId = 5 ∧ ∃ v, fromStr (String.ofList (DynamicFees.trim raw.toList)) = some v ∧
    NonpositiveSingle parseDecimal decimalOfNumber v

/-- Every delta has some level, and positive prices only unless it is of a single level of Bitfinex
without a positive price. -/
lemma parseOrderbookUpdate_spec {exchangeId : UInt16} {raw : String} {ts : ℕ}
    {delta : OrderBookDelta}
    (h : parseOrderbookUpdate fromStr parseDecimal decimalOfNumber exchangeId raw ts =
      some delta) :
    delta.HasLevels ∧ (PositivePrices delta ↔
      ¬ NonpositivePrice fromStr parseDecimal decimalOfNumber exchangeId raw) := by
  unfold parseOrderbookUpdate at h
  dsimp only at h
  split_ifs at h with hempty
  by_cases hexchange : exchangeId = 5
  · subst hexchange
    have hparse : parseBitfinexBook fromStr parseDecimal decimalOfNumber
        (String.ofList (DynamicFees.trim raw.toList)) ts = some delta := h
    obtain ⟨v, hv, -⟩ := Option.bind_eq_some_iff.mp hparse
    obtain ⟨hlevels, hprices⟩ := parseBitfinexBook_spec hv hparse
    refine ⟨hlevels, hprices.trans (not_congr ?_)⟩
    constructor
    · intro hsingle
      exact ⟨rfl, v, hv, hsingle⟩
    · rintro ⟨-, v', hv', hsingle⟩
      rw [hv] at hv'
      cases hv'
      exact hsingle
  · have hsound := sound_parseFor hexchange _ ts delta h
    exact ⟨hsound.1, iff_of_true hsound.2 fun hnon => hexchange hnon.1⟩

end Parsers

end DepthMessages

end HftArb
