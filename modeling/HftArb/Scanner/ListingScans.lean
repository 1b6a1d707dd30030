import Mathlib.Tactic
import HftArb.Capital.DepositVerification
import HftArb.Scanner.CoinFinder

/-!
# The listings of the exchanges

A scan reads the listing of an exchange, a JSON document, and keeps the pairs that are open for
trading.  Six exchanges differ in where the items are, in their field names and in the flag.  Five
scans keep exactly the open pairs.  That of Coinbase reads `trading_disabled` as if it said that the
pair is tradable: it keeps the suspended pairs and drops the others (`scan_keeps_open_iff`).

The conversion to upper case is a parameter; a text in upper case stays as it is.
-/

namespace HftArb

open BinanceDepth

/-- `as_bool`. -/
def BinanceDepth.Json.asBool : Json → Option Bool
  | .bool b => some b
  | _ => none

namespace ListingScans

/-! ## Scans -/

/-- A text field of an item, empty when it is missing. -/
def textOf (item : Json) (key : String) : String := ((item.index key).asStr).getD ""

/-- `split('-')` into exactly two parts. -/
def splitInstId (instId : String) : Option (String × String) :=
  match instId.toList.splitOn '-' with
  | [base, quote] => some (String.ofList base, String.ofList quote)
  | _ => none

/-- What the scan of an exchange reads. -/
structure ListingFormat where
  /-- Where the items are. -/
  items : Json → Json
  /-- The flag makes the scan skip the item. -/
  skips : Json → Bool
  /-- Base and quote. -/
  pair : Json → Option (String × String)
  /-- The field with the symbol of the exchange. -/
  rawKey : String

section Model

variable {toUppercase : String → String}
  (hupper : ∀ s, toUppercase (toUppercase s) = toUppercase s)

namespace ListingFormat

/-- The pair of an item that is kept. -/
def scanItem (format : ListingFormat) (item : Json) : Option (RawPair toUppercase) :=
  (format.pair item).bind fun parts =>
    if format.skips item = true ∨ parts.1 = "" ∨ parts.2 = "" then none
    else some
      { base := toUppercase parts.1
        quote := toUppercase parts.2
        rawSymbol := toUppercase (textOf item format.rawKey)
        statusOk := true
        base_upper := hupper parts.1 }

/-- A scan: without an answer that is a JSON document there are no pairs. -/
def scan (format : ListingFormat) (exchangeId : UInt16) (response : Option Json) :
    ExchangeScanResult toUppercase where
  exchangeId := exchangeId
  pairs :=
    match response.bind fun body => (format.items body).asArray with
    | some items => items.filterMap (format.scanItem hupper)
    | none => []

end ListingFormat

/-- `scan_binance`. -/
def scanBinance : UInt16 → Option Json → ExchangeScanResult toUppercase :=
  ListingFormat.scan hupper
    { items := fun body => body.index "symbols"
      skips := fun sym => decide (textOf sym "status" ≠ "TRADING")
      pair := fun sym => some (textOf sym "baseAsset", textOf sym "quoteAsset")
      rawKey := "symbol" }

/-- `scan_bybit`. -/
def scanBybit : UInt16 → Option Json → ExchangeScanResult toUppercase :=
  ListingFormat.scan hupper
    { items := fun body => (body.index "result").index "list"
      skips := fun item => decide (textOf item "status" ≠ "Trading")
      pair := fun item => some (textOf item "baseCoin", textOf item "quoteCoin")
      rawKey := "symbol" }

/-- `scan_okx`. -/
def scanOkx : UInt16 → Option Json → ExchangeScanResult toUppercase :=
  ListingFormat.scan hupper
    { items := fun body => body.index "data"
      skips := fun item => decide (textOf item "state" ≠ "live")
      pair := fun item => splitInstId (textOf item "instId")
      rawKey := "instId" }

/-- `scan_gateio`. -/
def scanGateio : UInt16 → Option Json → ExchangeScanResult toUppercase :=
  ListingFormat.scan hupper
    { items := fun body => body
      skips := fun item => decide (textOf item "trade_status" ≠ "tradable")
      pair := fun item => some (textOf item "base", textOf item "quote")
      rawKey := "id" }

/-- `scan_kucoin`. -/
def scanKucoin : UInt16 → Option Json → ExchangeScanResult toUppercase :=
  ListingFormat.scan hupper
    { items := fun body => body.index "data"
      skips := fun item => !((item.index "enableTrading").asBool).getD false
      pair := fun item => some (textOf item "baseCurrency", textOf item "quoteCurrency")
      rawKey := "symbol" }

/-- `scan_coinbase`: the flag `trading_disabled` is taken for its opposite. -/
def scanCoinbase : UInt16 → Option Json → ExchangeScanResult toUppercase :=
  ListingFormat.scan hupper
    { items := fun body => body
      skips := fun item =>
        let tradable := ((item.index "trading_disabled").asBool).getD false
        decide (textOf item "status" ≠ "online") || !tradable
      pair := fun item => some (textOf item "base_currency", textOf item "quote_currency")
      rawKey := "id" }

/-- The six exchanges. -/
inductive ScannedExchange
  | binance | bybit | okx | gateio | kucoin | coinbase

/-- The scan of an exchange. -/
def scanOf : ScannedExchange → UInt16 → Option Json → ExchangeScanResult toUppercase
  | .binance => scanBinance hupper
  | .bybit => scanBybit hupper
  | .okx => scanOkx hupper
  | .gateio => scanGateio hupper
  | .kucoin => scanKucoin hupper
  | .coinbase => scanCoinbase hupper

end Model

/-! ## Listings -/

/-- A pair that an exchange lists: it is online, and its trading may be suspended. -/
structure ListedPair where
  base : String
  quote : String
  symbol : String
  online : Bool
  suspended : Bool

namespace ListedPair

/-- The exchange marks the pair as open for trading. -/
def isOpen (p : ListedPair) : Bool := p.online && !p.suspended

/-- Base and quote are not empty. -/
def isNamed (p : ListedPair) : Bool := decide (p.base ≠ "" ∧ p.quote ≠ "")

end ListedPair

/-- The item has a field with a text. -/
def HasText (item : Json) (key text : String) : Prop := item.get? key = some (.string text)

/-- The item has its symbol, base and quote. -/
def HasNames (item : Json) (p : ListedPair) (symbolKey baseKey quoteKey : String) : Prop :=
  HasText item symbolKey p.symbol ∧ HasText item baseKey p.base ∧ HasText item quoteKey p.quote

/-- The item has a status, by which it is online exactly when it is the given one. -/
def HasStatus (item : Json) (p : ListedPair) (key value : String) : Prop :=
  ∃ status, HasText item key status ∧ (p.online = true ↔ status = value)

/-- The item of a pair, in the format of an exchange. -/
def Describes : ScannedExchange → Json → ListedPair → Prop
  | .binance, item, p =>
    HasNames item p "symbol" "baseAsset" "quoteAsset" ∧ HasStatus item p "status" "TRADING" ∧
      p.suspended = false
  | .bybit, item, p =>
    HasNames item p "symbol" "baseCoin" "quoteCoin" ∧ HasStatus item p "status" "Trading" ∧
      p.suspended = false
  | .okx, item, p =>
    HasText item "instId" p.symbol ∧ p.symbol.toList = p.base.toList ++ '-' :: p.quote.toList ∧
      '-' ∉ p.base.toList ∧ '-' ∉ p.quote.toList ∧ HasStatus item p "state" "live" ∧
      p.suspended = false
  | .gateio, item, p =>
    HasNames item p "id" "base" "quote" ∧ HasStatus item p "trade_status" "tradable" ∧
      p.suspended = false
  | .kucoin, item, p =>
    HasNames item p "symbol" "baseCurrency" "quoteCurrency" ∧
      item.get? "enableTrading" = some (.bool p.online) ∧ p.suspended = false
  | .coinbase, item, p =>
    HasNames item p "id" "base_currency" "quote_currency" ∧ HasStatus item p "status" "online" ∧
      item.get? "trading_disabled" = some (.bool p.suspended)

/-- The place of the items. -/
def location : ScannedExchange → Json → Option Json
  | .binance, body => body.get? "symbols"
  | .bybit, body => (body.get? "result").bind fun result => result.get? "list"
  | .okx, body => body.get? "data"
  | .gateio, body => some body
  | .kucoin, body => body.get? "data"
  | .coinbase, body => some body

/-- A well-formed listing of some pairs. -/
def Listing (exchange : ScannedExchange) (body : Json) (pairs : List ListedPair) : Prop :=
  ∃ items, location exchange body = some (.array items) ∧
    List.Forall₂ (Describes exchange) items pairs

/-! ## What a scan keeps -/

section Scans

variable {toUppercase : String → String}
  (hupper : ∀ s, toUppercase (toUppercase s) = toUppercase s)

/-- A listed pair in upper case. -/
def ListedPair.upper (p : ListedPair) : RawPair toUppercase where
  base := toUppercase p.base
  quote := toUppercase p.quote
  rawSymbol := toUppercase p.symbol
  statusOk := true
  base_upper := hupper p.base

/-- The pairs that the scan of an exchange takes for open ones. -/
def takenForOpen : ScannedExchange → ListedPair → Bool
  | .coinbase, p => p.online && p.suspended
  | _, p => p.isOpen

lemma textOf_eq {item : Json} {key text : String} (h : HasText item key text) :
    textOf item key = text := by
  rw [textOf, Json.index, h]
  rfl

lemma asBool_eq {item : Json} {key : String} {b : Bool} (h : item.get? key = some (.bool b)) :
    ((item.index key).asBool).getD false = b := by
  rw [Json.index, h]
  rfl

lemma online_eq {item : Json} {p : ListedPair} {key value : String}
    (h : HasStatus item p key value) : decide (textOf item key ≠ value) = !p.online := by
  obtain ⟨status, htext, honline⟩ := h
  rw [textOf_eq htext, decide_not]
  congr 1
  rw [Bool.eq_iff_iff, decide_eq_true_iff]
  exact honline.symm

/-- What a scan makes of an item whose fields have been read. -/
lemma scanItem_eq {format : ListingFormat} {item : Json} {p : ListedPair} {keeps : Bool}
    (hpair : format.pair item = some (p.base, p.quote)) (hskips : format.skips item = !keeps)
    (hraw : textOf item format.rawKey = p.symbol) :
    format.scanItem hupper item =
      if (keeps && p.isNamed) = true then some (p.upper hupper) else none := by
  rw [ListingFormat.scanItem, hpair, Option.bind_some, hskips, hraw]
  cases keeps with
  | false => simp
  | true =>
    by_cases hnamed : p.base = "" ∨ p.quote = ""
    · have hfalse : p.isNamed = false := by
        rw [ListedPair.isNamed, decide_eq_false_iff_not]
        tauto
      rw [if_pos (Or.inr hnamed), hfalse]
      rfl
    · have htrue : p.isNamed = true := by
        rw [ListedPair.isNamed, decide_eq_true_iff]
        tauto
      rw [if_neg (by simpa using hnamed), htrue]
      rfl

lemma splitInstId_eq {base quote symbol : String}
    (hsymbol : symbol.toList = base.toList ++ '-' :: quote.toList) (hbase : '-' ∉ base.toList)
    (hquote : '-' ∉ quote.toList) : splitInstId symbol = some (base, quote) := by
  rw [splitInstId, hsymbol, List.splitOn_append_cons_self_of_not_mem hbase,
    List.splitOn_eq_singleton hquote]
  simp

/-- Items related to pairs of which those with a property are kept. -/
lemma filterMap_of_forall₂ {α β γ : Type*} {R : α → β → Prop} {scan : α → Option γ}
    {keeps : β → Bool} {read : β → γ}
    (hscan : ∀ item p, R item p → scan item = if keeps p = true then some (read p) else none)
    {items : List α} {pairs : List β} (h : List.Forall₂ R items pairs) :
    items.filterMap scan = (pairs.filter keeps).map read := by
  induction h with
  | nil => rfl
  | @cons item p items pairs hitem _ ih =>
    rw [List.filterMap_cons, hscan item p hitem, ih]
    by_cases hkeeps : keeps p = true
    · rw [if_pos hkeeps, List.filter_cons_of_pos hkeeps, List.map_cons]
    · rw [if_neg hkeeps, List.filter_cons_of_neg hkeeps]

/-- A scan whose items are read as the format says. -/
lemma scan_pairs_eq {format : ListingFormat} {exchange : ScannedExchange} {body : Json}
    {pairs : List ListedPair} (h : Listing exchange body pairs)
    (hitems : ∀ {list}, location exchange body = some list → format.items body = list)
    (hitem : ∀ item p, Describes exchange item p → format.scanItem hupper item =
      if (takenForOpen exchange p && p.isNamed) = true then some (p.upper hupper) else none)
    (exchangeId : UInt16) :
    (format.scan hupper exchangeId (some body)).pairs =
      (pairs.filter fun p => takenForOpen exchange p && p.isNamed).map
        (ListedPair.upper hupper) := by
  obtain ⟨items, hlocation, hdescribes⟩ := h
  rw [ListingFormat.scan, Option.bind_some, hitems hlocation]
  exact filterMap_of_forall₂ hitem hdescribes

lemma index_eq {v list : Json} {key : String} (h : v.get? key = some list) :
    v.index key = list := by
  rw [Json.index, h]
  rfl

/-- A scan keeps the named pairs that it takes for open ones. -/
lemma scanOf_pairs {exchange : ScannedExchange} {body : Json} {pairs : List ListedPair}
    (h : Listing exchange body pairs) (exchangeId : UInt16) :
    (scanOf hupper exchange exchangeId (some body)).pairs =
      (pairs.filter fun p => takenForOpen exchange p && p.isNamed).map
        (ListedPair.upper hupper) := by
  have hopen : ∀ {p : ListedPair}, p.suspended = false → p.isOpen = p.online := by
    intro p hp
    rw [ListedPair.isOpen, hp, Bool.not_false, Bool.and_true]
  cases exchange with
  | binance =>
    refine scan_pairs_eq hupper h (fun hlist => index_eq hlist) (fun item p hp => ?_) exchangeId
    obtain ⟨⟨hsymbol, hbase, hquote⟩, hstatus, hactive⟩ := hp
    refine scanItem_eq hupper ?_ ?_ (textOf_eq hsymbol)
    · simp only [textOf_eq hbase, textOf_eq hquote]
    · simp only [online_eq hstatus, takenForOpen, hopen hactive]
  | bybit =>
    refine scan_pairs_eq hupper h (fun hlist => ?_) (fun item p hp => ?_) exchangeId
    · obtain ⟨result, hresult, hlist⟩ := Option.bind_eq_some_iff.mp hlist
      simp only [index_eq hresult, index_eq hlist]
    · obtain ⟨⟨hsymbol, hbase, hquote⟩, hstatus, hactive⟩ := hp
      refine scanItem_eq hupper ?_ ?_ (textOf_eq hsymbol)
      · simp only [textOf_eq hbase, textOf_eq hquote]
      · simp only [online_eq hstatus, takenForOpen, hopen hactive]
  | okx =>
    refine scan_pairs_eq hupper h (fun hlist => index_eq hlist) (fun item p hp => ?_) exchangeId
    obtain ⟨hinst, hsymbol, hbase, hquote, hstatus, hactive⟩ := hp
    refine scanItem_eq hupper ?_ ?_ (textOf_eq hinst)
    · simp only [textOf_eq hinst, splitInstId_eq hsymbol hbase hquote]
    · simp only [online_eq hstatus, takenForOpen, hopen hactive]
  | gateio =>
    refine scan_pairs_eq hupper h (fun {list} hlist => show body = list from Option.some.inj hlist)
      (fun item p hp => ?_) exchangeId
    obtain ⟨⟨hsymbol, hbase, hquote⟩, hstatus, hactive⟩ := hp
    refine scanItem_eq hupper ?_ ?_ (textOf_eq hsymbol)
    · simp only [textOf_eq hbase, textOf_eq hquote]
    · simp only [online_eq hstatus, takenForOpen, hopen hactive]
  | kucoin =>
    refine scan_pairs_eq hupper h (fun hlist => index_eq hlist) (fun item p hp => ?_) exchangeId
    obtain ⟨⟨hsymbol, hbase, hquote⟩, henabled, hactive⟩ := hp
    refine scanItem_eq hupper ?_ ?_ (textOf_eq hsymbol)
    · simp only [textOf_eq hbase, textOf_eq hquote]
    · simp only [asBool_eq henabled, takenForOpen, hopen hactive]
  | coinbase =>
    refine scan_pairs_eq hupper h (fun {list} hlist => show body = list from Option.some.inj hlist)
      (fun item p hp => ?_) exchangeId
    obtain ⟨⟨hsymbol, hbase, hquote⟩, hstatus, hdisabled⟩ := hp
    refine scanItem_eq hupper ?_ ?_ (textOf_eq hsymbol)
    · simp only [textOf_eq hbase, textOf_eq hquote]
    · simp only [online_eq hstatus, asBool_eq hdisabled, takenForOpen, Bool.not_and]

/-! ## Scans that keep the open pairs -/

/-- The named pairs that are open for trading, in upper case. -/
def openPairs (pairs : List ListedPair) : List (RawPair toUppercase) :=
  (pairs.filter fun p => p.isOpen && p.isNamed).map (ListedPair.upper hupper)

/-- The named pairs that are online but suspended, in upper case. -/
def suspendedPairs (pairs : List ListedPair) : List (RawPair toUppercase) :=
  (pairs.filter fun p => (p.online && p.suspended) && p.isNamed).map (ListedPair.upper hupper)

/-- Pairs with different symbols: the suspended and the open ones are the same only when there are
none of either. -/
lemma suspendedPairs_eq_openPairs_iff {pairs : List ListedPair}
    (hnodup : (pairs.map fun p => toUppercase p.symbol).Nodup) :
    suspendedPairs hupper pairs = openPairs hupper pairs ↔
      ∀ p ∈ pairs, ¬ (p.online = true ∧ p.isNamed = true) := by
  have hinj : ∀ p ∈ pairs, ∀ p' ∈ pairs, p.upper hupper = p'.upper hupper → p = p' := by
    intro p hp p' hp' heq
    exact List.inj_on_of_nodup_map hnodup hp hp' (congrArg RawPair.rawSymbol heq)
  constructor
  · rintro heq p hp ⟨honline, hnamed⟩
    cases hsuspended : p.suspended with
    | true =>
      have hmem : p.upper hupper ∈ openPairs hupper pairs :=
        heq ▸ List.mem_map_of_mem (List.mem_filter.mpr
          ⟨hp, by rw [honline, hsuspended, hnamed]; rfl⟩)
      obtain ⟨p', hp', hsame⟩ := List.mem_map.mp hmem
      obtain ⟨hmem', hkept⟩ := List.mem_filter.mp hp'
      obtain rfl := hinj p' hmem' p hp hsame
      simp [ListedPair.isOpen, hsuspended] at hkept
    | false =>
      have hmem : p.upper hupper ∈ suspendedPairs hupper pairs :=
        heq ▸ List.mem_map_of_mem (List.mem_filter.mpr
          ⟨hp, by rw [ListedPair.isOpen, honline, hsuspended, hnamed]; rfl⟩)
      obtain ⟨p', hp', hsame⟩ := List.mem_map.mp hmem
      obtain ⟨hmem', hkept⟩ := List.mem_filter.mp hp'
      obtain rfl := hinj p' hmem' p hp hsame
      simp [hsuspended] at hkept
  · intro hnone
    have hfilter : ∀ flag : ListedPair → Bool, (∀ p, flag p = true → p.online = true) →
        (pairs.filter fun p => flag p && p.isNamed) = [] := by
      refine fun flag hflag => List.filter_eq_nil_iff.mpr fun p hp hkept => ?_
      rw [Bool.and_eq_true] at hkept
      exact hnone p hp ⟨hflag p hkept.1, hkept.2⟩
    rw [suspendedPairs, openPairs, hfilter _ fun p hp => (Bool.and_eq_true _ _ ▸ hp).1,
      hfilter _ fun p hp => (Bool.and_eq_true _ _ ▸ hp).1]

/-- The scans keep exactly the open pairs, but for Coinbase, where the suspended pairs would have to
be the open ones: when the symbols are different, no pair may be online. -/
theorem scan_keeps_open_iff {exchange : ScannedExchange} {body : Json} {pairs : List ListedPair}
    (h : Listing exchange body pairs) (exchangeId : UInt16) :
    ((scanOf hupper exchange exchangeId (some body)).pairs = openPairs hupper pairs ↔
      (exchange = .coinbase → suspendedPairs hupper pairs = openPairs hupper pairs)) ∧
    ((pairs.map fun p => toUppercase p.symbol).Nodup →
      ((scanOf hupper exchange exchangeId (some body)).pairs = openPairs hupper pairs ↔
        (exchange = .coinbase → ∀ p ∈ pairs, ¬ (p.online = true ∧ p.isNamed = true)))) := by
  have hgeneral : (scanOf hupper exchange exchangeId (some body)).pairs = openPairs hupper pairs ↔
      (exchange = .coinbase → suspendedPairs hupper pairs = openPairs hupper pairs) := by
    rw [scanOf_pairs hupper h]
    cases exchange with
    | coinbase => exact ⟨fun heq _ => heq, fun heq => heq rfl⟩
    | binance => exact iff_of_true rfl nofun
    | bybit => exact iff_of_true rfl nofun
    | okx => exact iff_of_true rfl nofun
    | gateio => exact iff_of_true rfl nofun
    | kucoin => exact iff_of_true rfl nofun
  refine ⟨hgeneral, fun hnodup => ?_⟩
  rw [hgeneral, suspendedPairs_eq_openPairs_iff hupper hnodup]

end Scans

/-! ## A listing of one pair -/

/-- Upper case of a text of ASCII characters. -/
def asciiUppercase (s : String) : String := String.ofList (s.toList.map Char.toUpper)

/-- No lower-case letter is left behind. -/
lemma toUpper_notLower (c : Char) : ¬ ('a'.val ≤ c.toUpper.val ∧ c.toUpper.val ≤ 'z'.val) := by
  by_cases hlower : 'a'.val ≤ c.val ∧ c.val ≤ 'z'.val
  · have hupper : c.toUpper = _ := dif_pos hlower
    rw [hupper]
    simp only [UInt32.le_iff_toNat_le] at hlower ⊢
    grind [UInt32.toNat_add]
  · have hsame : c.toUpper = c := dif_neg hlower
    rwa [hsame]

lemma asciiUppercase_idem (s : String) :
    asciiUppercase (asciiUppercase s) = asciiUppercase s := by
  have htwice : Char.toUpper ∘ Char.toUpper = Char.toUpper :=
    funext fun c => dif_neg (toUpper_notLower c)
  rw [asciiUppercase, asciiUppercase, String.toList_ofList, List.map_map, htwice]

/-- A pair open for trading. -/
def btcUsd : ListedPair := ⟨"BTC", "USD", "BTC-USD", true, false⟩

/-- Its listing by Coinbase. -/
def btcUsdProducts : Json :=
  .array [.object [("id", .string "BTC-USD"), ("base_currency", .string "BTC"),
    ("quote_currency", .string "USD"), ("status", .string "online"),
    ("trading_disabled", .bool false)]]

/-- Its listing by OKX. -/
def btcUsdInstruments : Json :=
  .object [("data", .array [.object [("instId", .string "BTC-USD"), ("state", .string "live")]])]

lemma btcUsdProducts_listing : Listing .coinbase btcUsdProducts [btcUsd] :=
  ⟨_, rfl, .cons ⟨⟨rfl, rfl, rfl⟩, ⟨"online", rfl, iff_of_true rfl rfl⟩, rfl⟩ .nil⟩

lemma btcUsdInstruments_listing : Listing .okx btcUsdInstruments [btcUsd] :=
  ⟨_, rfl, .cons ⟨rfl, rfl, by decide, by decide, ⟨"live", rfl, iff_of_true rfl rfl⟩, rfl⟩ .nil⟩

/-- OKX's listing is scanned as it should be. -/
theorem scan_keeps_open_iff_okx :
    (scanOf asciiUppercase_idem .okx 2 (some btcUsdInstruments)).pairs =
      openPairs asciiUppercase_idem [btcUsd] :=
  (scan_keeps_open_iff asciiUppercase_idem btcUsdInstruments_listing 2).1.mpr nofun

/-- Coinbase's listing of an open pair is scanned without a pair. -/
theorem coinbase_drops_open :
    Listing .coinbase btcUsdProducts [btcUsd] ∧
      (scanOf asciiUppercase_idem .coinbase 8 (some btcUsdProducts)).pairs = [] ∧
      openPairs asciiUppercase_idem [btcUsd] = [btcUsd.upper asciiUppercase_idem] := by
  refine ⟨btcUsdProducts_listing, ?_, rfl⟩
  rw [scanOf_pairs asciiUppercase_idem btcUsdProducts_listing]
  rfl

end ListingScans

end HftArb
