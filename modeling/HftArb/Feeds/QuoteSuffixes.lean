import HftArb.Feeds.OrderBook
import HftArb.Foundations.SuffixTable

/-!
# Where a symbol is split

A concatenated symbol is split before its quote currency, in two modules and by two tables with the
same entries in different orders.  `USD` stands before `BUSD` and `TUSD` in the table of the order
books, and before `TUSD` in the table of the data feed, and hides them (`quote_split_iff`).

The separator that a symbol gets for some exchanges is removed again by the manager of the order
books, wherever it stands (`bookKey_insertSeparator`).

Symbols are lists of characters.  They are split only when they are ASCII, where a length counts
bytes.
-/

namespace HftArb

open SuffixTable

namespace OrderBookFeed

/-- `QUOTE_SUFFIXES`. -/
def quoteSuffixes : List (List Char) :=
  ["USDT".toList, "USDC".toList, "USD".toList, "BUSD".toList, "TUSD".toList, "DAI".toList,
    "EUR".toList, "GBP".toList, "BTC".toList, "ETH".toList, "BNB".toList]

/-- `KNOWN_QUOTES`. -/
def knownQuotes : List (List Char) :=
  ["USDT".toList, "USDC".toList, "BUSD".toList, "BTC".toList, "ETH".toList, "BNB".toList,
    "USD".toList, "TUSD".toList, "DAI".toList, "EUR".toList, "GBP".toList]

/-- `str::strip_suffix`. -/
def stripSuffix (suffix sym : List Char) : Option (List Char) :=
  if suffix <:+ sym then some (sym.take (sym.length - suffix.length)) else none

/-- Base and quote of a symbol, by the data feed. -/
def splitBaseQuote (sym : List Char) : List Char × List Char :=
  (knownQuotes.findSome? fun quote =>
    (stripSuffix quote sym).bind fun base => if base = [] then none else some (base, quote)).getD
    (sym, [])

section Model

-- `to_uppercase` of the standard library.
variable (toUppercase : List Char → List Char)

/-- Where the quote of a symbol starts, by the order books. -/
def findQuoteSeparator (sym : List Char) : ℕ :=
  let upper := toUppercase sym
  match firstMatch quoteSuffixes upper with
  | some suffix => upper.length - suffix.length
  | none => if 4 < sym.length then sym.length - 4 else if 3 < sym.length then sym.length - 3 else 1

/-- A symbol with a separator before its quote. -/
def insertSeparator (separator : Char) (sym : List Char) : List Char :=
  if 3 < sym.length then
    sym.take (findQuoteSeparator toUppercase sym) ++
      separator :: sym.drop (findQuoteSeparator toUppercase sym)
  else sym

/-- `symbol_to_okx`. -/
def symbolToOkx : List Char → List Char := insertSeparator toUppercase '-'

/-- `symbol_to_gateio`. -/
def symbolToGateio : List Char → List Char := insertSeparator toUppercase '_'

/-- `symbol_to_coinbase`. -/
def symbolToCoinbase : List Char → List Char := symbolToOkx toUppercase

end Model

end OrderBookFeed

/-- The order books of all exchanges, by exchange and normalised symbol. -/
structure L2OrderBookManager where
  books : UInt16 → List Char → Option OrderBook

namespace L2OrderBookManager

section Model

variable (toUppercase : List Char → List Char)

/-- A symbol in upper case without separators. -/
def bookKey (sym : List Char) : List Char :=
  (((toUppercase sym).filter (· ≠ '-')).filter (· ≠ '_')).filter (· ≠ '/')

/-- Apply a delta to the book of an exchange and a symbol, which is created if there is none. -/
def applyDelta (m : L2OrderBookManager) (exchangeId : UInt16) (sym : List Char)
    (delta : OrderBookDelta) : L2OrderBookManager where
  books := Function.update m.books exchangeId
    (Function.update (m.books exchangeId) (bookKey toUppercase sym)
      (some (((m.books exchangeId (bookKey toUppercase sym)).getD OrderBook.new).applyDelta delta)))

/-- The book of an exchange and a symbol. -/
def getBook (m : L2OrderBookManager) (exchangeId : UInt16) (sym : List Char) : Option OrderBook :=
  m.books exchangeId (bookKey toUppercase sym)

end Model

end L2OrderBookManager

namespace OrderBookFeed

/-- A symbol of ASCII characters without lower-case letters. -/
def UpperAscii (sym : List Char) : Prop := ∀ c ∈ sym, c.toNat < 128 ∧ c.isLower = false

/-! ## The split -/

section Split

/-- A quote is split off when it properly ends the symbol. -/
lemma stripSuffix_bind (quote sym : List Char) :
    ((stripSuffix quote sym).bind fun base => if base = [] then none else some (base, quote)) =
      if ProperSuffix quote sym then some (sym.take (sym.length - quote.length), quote)
      else none := by
  unfold stripSuffix
  by_cases hends : quote <:+ sym
  · have hle := hends.length_le
    rw [if_pos hends, Option.bind_some]
    by_cases hlt : quote.length < sym.length
    · have hproper : ProperSuffix quote sym := ⟨hends, hlt⟩
      have hne : sym.take (sym.length - quote.length) ≠ [] := by
        rw [← List.length_pos_iff, List.length_take]
        omega
      rw [if_neg hne, if_pos hproper]
    · have hwhole : ¬ ProperSuffix quote sym := fun h => hlt h.2
      have hnil : sym.take (sym.length - quote.length) = [] := by
        rw [← List.length_eq_zero_iff, List.length_take]
        omega
      rw [if_pos hnil, if_neg hwhole]
  · have hnot : ¬ ProperSuffix quote sym := fun h => hends h.1
    rw [if_neg hends, if_neg hnot, Option.bind_none]

/-- The data feed splits before the first entry of its table. -/
lemma splitBaseQuote_eq {sym suffix : List Char} (h : firstMatch knownQuotes sym = some suffix) :
    splitBaseQuote sym = (sym.take (sym.length - suffix.length), suffix) := by
  have hfind : ∀ table : List (List Char),
      (table.findSome? fun quote => if ProperSuffix quote sym then
        some (sym.take (sym.length - quote.length), quote) else none) =
      (firstMatch table sym).map fun quote => (sym.take (sym.length - quote.length), quote) := by
    intro table
    induction table with
    | nil => rfl
    | cons quote table ih =>
      unfold firstMatch at ih ⊢
      rw [List.findSome?_cons, List.find?_cons]
      by_cases hquote : ProperSuffix quote sym
      · simp [hquote]
      · simpa [hquote] using ih
  unfold splitBaseQuote
  simp only [stripSuffix_bind]
  rw [hfind, h, Option.map_some, Option.getD_some]

/-- The two tables have the same entries. -/
lemma mem_knownQuotes_iff (quote : List Char) : quote ∈ knownQuotes ↔ quote ∈ quoteSuffixes := by
  have hperm : knownQuotes.Perm quoteSuffixes := by decide
  exact hperm.mem_iff

/-- The longest quote is the same by both tables. -/
lemma longestMatch_knownQuotes_iff {sym quote : List Char} :
    LongestMatch knownQuotes sym quote ↔ LongestMatch quoteSuffixes sym quote := by
  constructor
  · rintro ⟨hmem, hproper, hlongest⟩
    exact ⟨(mem_knownQuotes_iff quote).mp hmem, hproper,
      fun s hs => hlongest s ((mem_knownQuotes_iff s).mpr hs)⟩
  · rintro ⟨hmem, hproper, hlongest⟩
    exact ⟨(mem_knownQuotes_iff quote).mpr hmem, hproper,
      fun s hs => hlongest s ((mem_knownQuotes_iff s).mp hs)⟩

/-- A quote that ends in the quote `USD`. -/
def busd : List Char := "BUSD".toList

/-- Another quote that ends in the quote `USD`. -/
def tusd : List Char := "TUSD".toList

/-- The table of the order books hides `BUSD` and `TUSD`. -/
lemma firstMatch_quoteSuffixes_iff {sym : List Char}
    (hquote : ∃ quote ∈ quoteSuffixes, ProperSuffix quote sym) :
    (∃ quote, firstMatch quoteSuffixes sym = some quote ∧ LongestMatch quoteSuffixes sym quote) ↔
      ¬ ProperSuffix busd sym ∧ ¬ ProperSuffix tusd sym := by
  have hordered : quoteSuffixes.Pairwise fun s s' =>
      s <:+ s' → s'.length ≤ s.length ∨ s' ∈ [busd, tusd] := by decide
  have hhidden : ∀ s ∈ [busd, tusd], s ∈ quoteSuffixes ∧ Hidden quoteSuffixes s := by
    simp only [List.forall_mem_cons, List.not_mem_nil, false_imp_iff, implies_true, and_true]
    exact ⟨⟨by decide, quoteSuffixes.take 3, quoteSuffixes.drop 3, by decide⟩,
      ⟨by decide, quoteSuffixes.take 3, quoteSuffixes.drop 3, by decide⟩⟩
  rw [firstMatch_longest_iff hordered hhidden hquote]
  simp

/-- The table of the data feed hides `TUSD`. -/
lemma firstMatch_knownQuotes_iff {sym : List Char}
    (hquote : ∃ quote ∈ knownQuotes, ProperSuffix quote sym) :
    (∃ quote, firstMatch knownQuotes sym = some quote ∧ LongestMatch knownQuotes sym quote) ↔
      ¬ ProperSuffix tusd sym := by
  have hordered : knownQuotes.Pairwise fun s s' =>
      s <:+ s' → s'.length ≤ s.length ∨ s' ∈ [tusd] := by decide
  have hhidden : ∀ s ∈ [tusd], s ∈ knownQuotes ∧ Hidden knownQuotes s := by
    simp only [List.forall_mem_cons, List.not_mem_nil, false_imp_iff, implies_true, and_true]
    exact ⟨by decide, knownQuotes.take 7, knownQuotes.drop 7, by decide⟩
  rw [firstMatch_longest_iff hordered hhidden hquote]
  simp

/-- The order books split an ASCII symbol before the first entry of their table. -/
lemma findQuoteSeparator_eq {toUppercase : List Char → List Char} {sym quote : List Char}
    (hupper : toUppercase sym = sym) (h : firstMatch quoteSuffixes sym = some quote) :
    findQuoteSeparator toUppercase sym = sym.length - quote.length := by
  unfold findQuoteSeparator
  rw [hupper]
  simp only [h]

/-- Both modules split before the longest quote exactly when the symbol ends in none that the table
of the order books hides. -/
lemma splits_longest_iff {toUppercase : List Char → List Char} {sym : List Char}
    (hupper : toUppercase sym = sym)
    (hquote : ∃ quote ∈ quoteSuffixes, ProperSuffix quote sym) :
    (∃ quote, LongestMatch quoteSuffixes sym quote ∧
      findQuoteSeparator toUppercase sym = sym.length - quote.length ∧
      splitBaseQuote sym = (sym.take (sym.length - quote.length), quote)) ↔
    ¬ ProperSuffix busd sym ∧ ¬ ProperSuffix tusd sym := by
  have hquote' : ∃ quote ∈ knownQuotes, ProperSuffix quote sym := by
    obtain ⟨quote, hmem, hproper⟩ := hquote
    exact ⟨quote, (mem_knownQuotes_iff quote).mpr hmem, hproper⟩
  rw [← firstMatch_quoteSuffixes_iff hquote]
  constructor
  · rintro ⟨quote, hlongest, hseparator, -⟩
    obtain ⟨first, hmem, hfirst⟩ := exists_firstMatch hquote
    have hfits : ProperSuffix first sym := by simpa using List.find?_some hfirst
    rw [findQuoteSeparator_eq hupper hfirst] at hseparator
    -- the entry that is found is as long as the longest one
    have hlength : first.length = quote.length := by
      have hlt := hfits.2
      have hlt' := hlongest.properSuffix.2
      omega
    have hsame : first = quote := (List.suffix_of_suffix_length_le hfits.1
      hlongest.properSuffix.1 hlength.le).eq_of_length hlength
    exact ⟨first, hfirst, hsame ▸ hlongest⟩
  · rintro ⟨quote, hfirst, hlongest⟩
    have hnot := ((firstMatch_quoteSuffixes_iff hquote).mp ⟨quote, hfirst, hlongest⟩).2
    obtain ⟨quote', hfirst', hlongest'⟩ := (firstMatch_knownQuotes_iff hquote').mpr hnot
    obtain rfl := (longestMatch_knownQuotes_iff.mp hlongest').unique hlongest
    exact ⟨quote', hlongest, findQuoteSeparator_eq hupper hfirst, splitBaseQuote_eq hfirst'⟩

end Split

/-! ## The separator -/

section Separator

variable {toUppercase : List Char → List Char} {sym : List Char}

/-- The separator stands within the symbol. -/
lemma findQuoteSeparator_le (hupper : toUppercase sym = sym) (hlong : 3 < sym.length) :
    findQuoteSeparator toUppercase sym ≤ sym.length := by
  unfold findQuoteSeparator
  rw [hupper]
  dsimp only
  split
  · exact Nat.sub_le _ _
  · split_ifs <;> omega

/-- Without its separator a converted symbol is the symbol. -/
lemma eraseIdx_insertSeparator (hupper : toUppercase sym = sym) (hlong : 3 < sym.length)
    (separator : Char) :
    (insertSeparator toUppercase separator sym).eraseIdx (findQuoteSeparator toUppercase sym) =
      sym := by
  have hle := findQuoteSeparator_le hupper hlong
  unfold insertSeparator
  rw [if_pos hlong]
  generalize findQuoteSeparator toUppercase sym = k at hle ⊢
  have hlength : (sym.take k).length = k := by rw [List.length_take, min_eq_left hle]
  rw [List.eraseIdx_append_of_length_le hlength.le, hlength, Nat.sub_self, List.eraseIdx_cons_zero,
    List.take_append_drop]

/-- The manager keeps a converted symbol under the key of the symbol. -/
lemma bookKey_insertSeparator (hupper : ∀ s, UpperAscii s → toUppercase s = s)
    (hsym : UpperAscii sym) {separator : Char} (hseparator : separator ∈ ['-', '_', '/']) :
    L2OrderBookManager.bookKey toUppercase (insertSeparator toUppercase separator sym) =
      L2OrderBookManager.bookKey toUppercase sym := by
  have hascii : separator.toNat < 128 ∧ separator.isLower = false := by
    simp only [List.mem_cons, List.not_mem_nil, or_false] at hseparator
    rcases hseparator with rfl | rfl | rfl <;> decide
  unfold insertSeparator
  split
  · have hconverted : UpperAscii (sym.take (findQuoteSeparator toUppercase sym) ++
        separator :: sym.drop (findQuoteSeparator toUppercase sym)) := by
      intro c hc
      rcases List.mem_append.mp hc with hc | hc
      · exact hsym c (List.mem_of_mem_take hc)
      · rcases List.mem_cons.mp hc with rfl | hc
        · exact hascii
        · exact hsym c (List.mem_of_mem_drop hc)
    generalize findQuoteSeparator toUppercase sym = k at hconverted ⊢
    have hfilter : (((sym.take k ++ separator :: sym.drop k).filter (· ≠ '-')).filter
        (· ≠ '_')).filter (· ≠ '/') =
        ((sym.filter (· ≠ '-')).filter (· ≠ '_')).filter (· ≠ '/') := by
      conv_rhs => rw [← List.take_append_drop k sym]
      simp only [List.filter_append]
      congr 1
      simp only [List.mem_cons, List.not_mem_nil, or_false] at hseparator
      rcases hseparator with rfl | rfl | rfl <;> simp
    unfold L2OrderBookManager.bookKey
    rw [hupper _ hconverted, hupper _ hsym, hfilter]
  · rfl

/-- The names of a symbol for other exchanges differ from it by a separator, which the manager does
not see. -/
lemma convert_eq (hupper : ∀ s, UpperAscii s → toUppercase s = s) (hsym : UpperAscii sym)
    (hlong : 3 < sym.length) {convert : List Char → List Char}
    (hmem : convert ∈
      [symbolToOkx toUppercase, symbolToGateio toUppercase, symbolToCoinbase toUppercase]) :
    (convert sym).eraseIdx (findQuoteSeparator toUppercase sym) = sym ∧
      L2OrderBookManager.bookKey toUppercase (convert sym) =
        L2OrderBookManager.bookKey toUppercase sym := by
  have hinsert : ∀ separator ∈ ['-', '_', '/'],
      (insertSeparator toUppercase separator sym).eraseIdx (findQuoteSeparator toUppercase sym) =
          sym ∧
      L2OrderBookManager.bookKey toUppercase (insertSeparator toUppercase separator sym) =
        L2OrderBookManager.bookKey toUppercase sym := fun separator hseparator =>
    ⟨eraseIdx_insertSeparator (hupper sym hsym) hlong separator,
      bookKey_insertSeparator hupper hsym hseparator⟩
  simp only [List.mem_cons, List.not_mem_nil, or_false] at hmem
  rcases hmem with rfl | rfl | rfl
  · exact hinsert '-' (by decide)
  · exact hinsert '_' (by decide)
  · exact hinsert '-' (by decide)

/-- What the manager stores under a name of a symbol it finds under the symbol. -/
lemma getBook_applyDelta (m : L2OrderBookManager) (exchangeId : UInt16) (delta : OrderBookDelta) :
    (m.applyDelta toUppercase exchangeId sym delta).getBook toUppercase exchangeId sym =
      some (((m.getBook toUppercase exchangeId sym).getD OrderBook.new).applyDelta delta) := by
  simp [L2OrderBookManager.applyDelta, L2OrderBookManager.getBook]

end Separator

/-- The two modules split an upper-case ASCII symbol before its longest quote, and its names for
other exchanges lead back to it and to its book, exactly when it ends neither in `BUSD` nor in
`TUSD`, behind a base. -/
theorem quote_split_iff {toUppercase : List Char → List Char}
    (hupper : ∀ s, UpperAscii s → toUppercase s = s) {sym : List Char} (hsym : UpperAscii sym)
    (hquote : ∃ quote ∈ quoteSuffixes, ProperSuffix quote sym) :
    ((∃ quote, LongestMatch quoteSuffixes sym quote ∧
        findQuoteSeparator toUppercase sym = sym.length - quote.length ∧
        splitBaseQuote sym = (sym.take (sym.length - quote.length), quote)) ∧
      ∀ convert ∈ [symbolToOkx toUppercase, symbolToGateio toUppercase,
          symbolToCoinbase toUppercase],
        (convert sym).eraseIdx (findQuoteSeparator toUppercase sym) = sym ∧
        ∀ (m : L2OrderBookManager) (exchangeId : UInt16) (delta : OrderBookDelta),
          m.applyDelta toUppercase exchangeId (convert sym) delta =
            m.applyDelta toUppercase exchangeId sym delta ∧
          m.getBook toUppercase exchangeId (convert sym) =
            m.getBook toUppercase exchangeId sym ∧
          (m.applyDelta toUppercase exchangeId (convert sym) delta).getBook toUppercase exchangeId
              sym =
            some (((m.getBook toUppercase exchangeId sym).getD OrderBook.new).applyDelta delta)) ↔
    ¬ ProperSuffix busd sym ∧ ¬ ProperSuffix tusd sym := by
  rw [splits_longest_iff (hupper sym hsym) hquote]
  refine and_iff_left ?_
  have hlong : 3 < sym.length := by
    obtain ⟨quote, hmem, hproper⟩ := hquote
    have hthree : ∀ quote ∈ quoteSuffixes, 3 ≤ quote.length := by decide
    exact lt_of_le_of_lt (hthree quote hmem) hproper.2
  intro convert hmem
  obtain ⟨herase, hkey⟩ := convert_eq hupper hsym hlong hmem
  refine ⟨herase, fun m exchangeId delta => ?_⟩
  have happly : m.applyDelta toUppercase exchangeId (convert sym) delta =
      m.applyDelta toUppercase exchangeId sym delta := by
    unfold L2OrderBookManager.applyDelta
    rw [hkey]
  have hget : m.getBook toUppercase exchangeId (convert sym) =
      m.getBook toUppercase exchangeId sym := by
    unfold L2OrderBookManager.getBook
    rw [hkey]
  exact ⟨happly, hget, by rw [happly, getBook_applyDelta]⟩

/-- The upper case of ASCII letters. -/
def asciiUppercase (sym : List Char) : List Char := sym.map Char.toUpper

lemma asciiUppercase_eq {sym : List Char} (h : UpperAscii sym) : asciiUppercase sym = sym := by
  have hchar : ∀ c ∈ sym, c.toUpper = c := by
    intro c hc
    have hlower := (h c hc).2
    have hcase : ¬ ('a'.val ≤ c.val ∧ c.val ≤ 'z'.val) := by
      intro hcase
      have hyes : c.isLower = true := by
        unfold Char.isLower
        simpa using hcase
      rw [hyes] at hlower
      cases hlower
    unfold Char.toUpper
    rw [dif_neg hcase]
  unfold asciiUppercase
  exact (List.map_congr_left hchar).trans (List.map_id sym)

/-- `BTCUSDT` is split before `USDT`. -/
theorem quote_split_iff_btcusdt :
    findQuoteSeparator asciiUppercase "BTCUSDT".toList = 3 ∧
    symbolToOkx asciiUppercase "BTCUSDT".toList = "BTC-USDT".toList ∧
    ∃ quote, LongestMatch quoteSuffixes "BTCUSDT".toList quote ∧
      findQuoteSeparator asciiUppercase "BTCUSDT".toList =
        "BTCUSDT".toList.length - quote.length ∧
      splitBaseQuote "BTCUSDT".toList =
        ("BTCUSDT".toList.take ("BTCUSDT".toList.length - quote.length), quote) := by
  refine ⟨by decide, by decide, ?_⟩
  have hsym : UpperAscii "BTCUSDT".toList := by
    have hall : "BTCUSDT".toList.all
        (fun c => decide (c.toNat < 128 ∧ c.isLower = false)) = true := by decide
    intro c hc
    exact of_decide_eq_true (List.all_eq_true.mp hall c hc)
  have hquote : ∃ quote ∈ quoteSuffixes, ProperSuffix quote "BTCUSDT".toList := by decide
  have hnot : ¬ ProperSuffix busd "BTCUSDT".toList ∧ ¬ ProperSuffix tusd "BTCUSDT".toList := by
    decide
  exact ((quote_split_iff (fun s => asciiUppercase_eq) hsym hquote).mpr hnot).1

/-- `ETHBUSD` is split before `USD` by the order books and before `BUSD`, its longest quote, by the
data feed. -/
theorem ethbusd_split :
    LongestMatch quoteSuffixes "ETHBUSD".toList busd ∧
    findQuoteSeparator asciiUppercase "ETHBUSD".toList = 4 ∧
    symbolToOkx asciiUppercase "ETHBUSD".toList = "ETHB-USD".toList ∧
    splitBaseQuote "ETHBUSD".toList = ("ETH".toList, busd) ∧
    splitBaseQuote "ETHTUSD".toList = ("ETHT".toList, "USD".toList) := by
  exact ⟨⟨by decide, by decide, by decide⟩, by decide, by decide, by decide, by decide⟩

end OrderBookFeed

end HftArb
