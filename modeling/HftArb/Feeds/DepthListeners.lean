import HftArb.Feeds.DepthMessages
import HftArb.Feeds.QuoteSuffixes
import HftArb.Foundations.Projections

/-!
# The listeners of the order books

One listener for each exchange connects to the feed of the order books, and applies the deltas of
its messages to the manager that all listeners share.  A message does not say which symbol it is
about: its delta goes to the book of the first symbol of the list that the coin finder publishes.

Whatever the listeners do in turns, a book has at most 500 levels on each side, positive quantities
and, but for Bitfinex, positive prices, and each of its levels was listed by a message that came
while the symbol of the book was the first one (`books_sound`).  The books of an exchange are those
that its own listeners would leave without the others (`books_of_own_actions`).

A listener gives up after more than fifty failures in a row, of which an ended stream is one, and
behind a subscription that cannot be sent (`listener_returned_iff`).
-/

namespace HftArb

open Runs

namespace DepthListeners

open BinanceDepth DepthMessages

/-- `MAX_CONSECUTIVE_FAILURES`. -/
def maxConsecutiveFailures : ℕ := 50

/-- `BASE_DELAY_SECS`. -/
def baseDelaySecs : ℕ := 1

/-- `MAX_DELAY_SECS`. -/
def maxDelaySecs : ℕ := 30

/-- The size of a message above which it is dropped. -/
def maxMessageSize : ℕ := 1048576

/-- Where a listener is. -/
inductive Phase
  | connecting
  | streaming
  | waiting (delaySecs : ℕ)
  | returned
  deriving DecidableEq

/-- What can happen to a listener: the outcome of a connection attempt, with that of sending the
subscription, a frame or the end of a connected stream, the end of a wait. -/
inductive Event
  | connectOk (sent : Bool)
  | connectError
  | connectTimeout
  | text (raw : String) (ts : ℕ)
  | otherFrame
  | closeFrame
  | readError
  | streamEnd
  | wake

/-- `L2OrderBookListener`, with where it is.  It counts no more than 51 failures. -/
structure L2OrderBookListener where
  exchangeId : UInt16
  phase : Phase
  consecutiveFailures : ℕ
  parseErrorCount : UInt32
  appliedDeltaCount : UInt64

namespace L2OrderBookListener

/-- A new listener. -/
def new (exchangeId : UInt16) : L2OrderBookListener := ⟨exchangeId, .connecting, 0, 0, 0⟩

/-- A listener sends a subscription, but for KuCoin. -/
def subscribes (l : L2OrderBookListener) : Bool := decide (l.exchangeId ≠ 4)

/-- The wait before the next attempt. -/
def delaySecs (failures : ℕ) : ℕ := min (baseDelaySecs <<< (failures - 1)) maxDelaySecs

/-- One more failure: give up after too many of them, else wait. -/
def fail (l : L2OrderBookListener) : L2OrderBookListener :=
  { l with
    phase := if maxConsecutiveFailures < l.consecutiveFailures + 1 then .returned
      else .waiting (delaySecs (l.consecutiveFailures + 1))
    consecutiveFailures := l.consecutiveFailures + 1 }

/-- The listener after an event that is no text. -/
def onEvent (l : L2OrderBookListener) (e : Event) : L2OrderBookListener :=
  match l.phase, e with
  | .connecting, .connectOk sent =>
    -- the `break` behind a subscription that is not sent leaves the loop of the attempts
    { l with
      phase := if l.subscribes ∧ ¬ sent then .returned else .streaming
      consecutiveFailures := 0 }
  | .connecting, .connectError => l.fail
  | .connecting, .connectTimeout => l.fail
  | .streaming, .closeFrame => { l with phase := .returned }
  | .streaming, .readError => l.fail
  | .streaming, .streamEnd => l.fail
  | .waiting _, .wake => { l with phase := .connecting }
  | _, _ => l

end L2OrderBookListener

/-- The manager, the published list of symbols, and the listeners. -/
structure Workers where
  manager : L2OrderBookManager
  symbols : List (List Char)
  listeners : List L2OrderBookListener

/-- A new list of symbols, an event of a listener, or the removal of the books of an exchange. -/
inductive Action
  | publish (symbols : List (List Char))
  | event (worker : ℕ) (e : Event)
  | clear (exchangeId : UInt16)

/-- `spawn_ob_workers`. -/
def spawnObWorkers (exchanges : List UInt16) (symbols : List (List Char)) : Workers where
  manager := ⟨fun _ _ => none⟩
  symbols := symbols
  listeners := exchanges.map L2OrderBookListener.new

/-- `clear_exchange`. -/
def clearExchange (m : L2OrderBookManager) (exchangeId : UInt16) : L2OrderBookManager :=
  ⟨Function.update m.books exchangeId fun _ => none⟩

/-- The symbol whose book a message changes. -/
def targetSymbol (symbols : List (List Char)) : List Char :=
  symbols.head?.getD "UNKNOWN".toList

section Model

-- `to_uppercase`, `serde_json::from_str`, the parser of decimals, and `as_f64` followed by
-- `from_f64_retain`.
variable (toUppercase : List Char → List Char) (fromStr : String → Option Json)
  (parseDecimal : String → Option Decimal) (decimalOfNumber : JsonNumber → Option Decimal)

/-- The next state of a listener after an event, with the delta of a message. -/
def react (l : L2OrderBookListener) (e : Event) : L2OrderBookListener × Option OrderBookDelta :=
  match l.phase, e with
  | .streaming, .text raw ts =>
    if maxMessageSize < raw.utf8ByteSize then (l, none)
    else
      match parseOrderbookUpdate fromStr parseDecimal decimalOfNumber l.exchangeId raw ts with
      | some delta => ({ l with appliedDeltaCount := l.appliedDeltaCount + 1 }, some delta)
      | none => ({ l with parseErrorCount := l.parseErrorCount + 1 }, none)
  | _, _ => (l.onEvent e, none)

/-- The manager after a message of an exchange, whose delta goes to the first symbol. -/
def applyTo (m : L2OrderBookManager) (exchangeId : UInt16) (symbols : List (List Char)) :
    Option OrderBookDelta → L2OrderBookManager
  | some delta => m.applyDelta toUppercase exchangeId (targetSymbol symbols) delta
  | none => m

/-- One action; it emits the deltas that are applied. -/
def step (w : Workers) : Action → Workers × List OrderBookDelta
  | .publish symbols => ({ w with symbols := symbols }, [])
  | .clear exchangeId => ({ w with manager := clearExchange w.manager exchangeId }, [])
  | .event worker e =>
    match w.listeners[worker]? with
    | none => (w, [])
    | some l =>
      let next := react fromStr parseDecimal decimalOfNumber l e
      ({ manager := applyTo toUppercase w.manager l.exchangeId w.symbols next.2
         symbols := w.symbols
         listeners := w.listeners.set worker next.1 },
        next.2.toList)

end Model

/-! ## What one action does -/

section Step

variable {toUppercase : List Char → List Char} {fromStr : String → Option Json}
  {parseDecimal : String → Option Decimal} {decimalOfNumber : JsonNumber → Option Decimal}

lemma exchangeId_onEvent (l : L2OrderBookListener) (e : Event) :
    (l.onEvent e).exchangeId = l.exchangeId := by
  unfold L2OrderBookListener.onEvent L2OrderBookListener.fail
  split <;> rfl

lemma exchangeId_react (l : L2OrderBookListener) (e : Event) :
    (react fromStr parseDecimal decimalOfNumber l e).1.exchangeId = l.exchangeId := by
  unfold react
  split
  · split_ifs
    · rfl
    · split <;> rfl
  · exact exchangeId_onEvent l _

/-- A delta is that of a message of a connected listener. -/
lemma of_react_some {l : L2OrderBookListener} {e : Event} {delta : OrderBookDelta}
    (h : (react fromStr parseDecimal decimalOfNumber l e).2 = some delta) :
    ∃ raw ts, e = .text raw ts ∧
      parseOrderbookUpdate fromStr parseDecimal decimalOfNumber l.exchangeId raw ts =
        some delta := by
  unfold react at h
  split at h
  · next raw ts _ =>
    split_ifs at h
    split at h
    · next delta' hdelta =>
      cases h
      exact ⟨raw, ts, rfl, hdelta⟩
    · cases h
  · cases h

lemma step_event_none {w : Workers} {worker : ℕ} (hl : w.listeners[worker]? = none) (e : Event) :
    step toUppercase fromStr parseDecimal decimalOfNumber w (.event worker e) = (w, []) := by
  simp only [step, hl]

lemma step_event_some {w : Workers} {worker : ℕ} {l : L2OrderBookListener}
    (hl : w.listeners[worker]? = some l) (e : Event) :
    (step toUppercase fromStr parseDecimal decimalOfNumber w (.event worker e)).1 =
      { manager := applyTo toUppercase w.manager l.exchangeId w.symbols
          (react fromStr parseDecimal decimalOfNumber l e).2
        symbols := w.symbols
        listeners := w.listeners.set worker
          (react fromStr parseDecimal decimalOfNumber l e).1 } := by
  simp only [step, hl]

/-- The listeners keep their exchanges. -/
lemma exchanges_step (w : Workers) (a : Action) :
    (step toUppercase fromStr parseDecimal decimalOfNumber w a).1.listeners.map
        L2OrderBookListener.exchangeId =
      w.listeners.map L2OrderBookListener.exchangeId := by
  cases a with
  | publish symbols => rfl
  | clear exchangeId => rfl
  | event worker e =>
    cases hl : w.listeners[worker]? with
    | none => rw [step_event_none hl]
    | some l =>
      rw [step_event_some hl, List.map_set, exchangeId_react]
      refine List.ext_getElem? fun i => ?_
      rw [List.getElem?_set]
      split_ifs with hi hlt
      · subst hi
        rw [List.getElem?_map, hl, Option.map_some]
      · subst hi
        rw [eq_comm, List.getElem?_eq_none_iff]
        exact not_lt.mp hlt
      · rfl

/-- The book of a key after a delta. -/
lemma books_applyTo (m : L2OrderBookManager) (exchange exchangeId : UInt16)
    (symbols : List (List Char)) (delta : Option OrderBookDelta) (key : List Char) :
    (applyTo toUppercase m exchange symbols delta).books exchangeId key =
      if exchange = exchangeId ∧
          L2OrderBookManager.bookKey toUppercase (targetSymbol symbols) = key then
        (delta.map ((m.books exchangeId key).getD OrderBook.new).applyDelta).or
          (m.books exchangeId key)
      else m.books exchangeId key := by
  cases delta with
  | none =>
    simp [applyTo]
  | some delta =>
    simp only [applyTo, L2OrderBookManager.applyDelta, Option.map_some, Option.some_or]
    by_cases hexchange : exchange = exchangeId
    · subst hexchange
      rw [Function.update_self]
      by_cases hkey : L2OrderBookManager.bookKey toUppercase (targetSymbol symbols) = key
      · subst hkey
        rw [Function.update_self, if_pos ⟨rfl, rfl⟩]
      · rw [Function.update_of_ne (Ne.symm hkey), if_neg fun h => hkey h.2]
    · rw [Function.update_of_ne (Ne.symm hexchange), if_neg fun h => hexchange h.1]

end Step

/-! ## The books -/

/-- The levels of a side of a book. -/
def sideEntries (book : OrderBook) : Side → List (Decimal × Decimal)
  | .bid => book.bids.entries
  | .ask => book.asks.entries

/-- The levels of a side of a delta. -/
def sideUpdates (delta : OrderBookDelta) : Side → List (Decimal × Decimal)
  | .bid => delta.bidUpdates
  | .ask => delta.askUpdates

/-- A delta leaves levels that were there or that it lists with a positive quantity. -/
lemma mem_sideEntries_applyDelta {book : OrderBook} {delta : OrderBookDelta} {side : Side}
    {level : Decimal × Decimal} (h : level ∈ sideEntries (book.applyDelta delta) side) :
    level ∈ sideEntries book side ∨ level ∈ sideUpdates delta side ∧ 0 < level.2 := by
  by_cases haccepted : book.Accepted delta
  · cases side with
    | bid => exact (OrderBook.mem_applyDelta haccepted level).1 h
    | ask => exact (OrderBook.mem_applyDelta haccepted level).2 h
  · rw [OrderBook.Accepted, not_or, not_and_or, not_not, not_not] at haccepted
    obtain ⟨hsnapshot, hstale | hgap⟩ := haccepted
    · rw [OrderBook.applyDelta_of_stale (Bool.not_eq_true _ ▸ hsnapshot) hstale] at h
      exact Or.inl h
    · unfold OrderBook.applyDelta at h
      rw [if_neg hsnapshot] at h
      split_ifs at h
      · exact Or.inl h
      · cases side <;> cases h

/-- A book has at most 500 levels on each side. -/
def Bounded (book : OrderBook) : Prop :=
  book.bids.size ≤ OrderBook.maxLevelsPerSide ∧ book.asks.size ≤ OrderBook.maxLevelsPerSide

section Runs

variable (toUppercase : List Char → List Char) (fromStr : String → Option Json)
  (parseDecimal : String → Option Decimal) (decimalOfNumber : JsonNumber → Option Decimal)

/-- The state after some actions. -/
def after (w : Workers) (actions : List Action) : Workers :=
  runState (step toUppercase fromStr parseDecimal decimalOfNumber) w actions

/-- In a state, an action is a message of an exchange that lists a level for the book of a key. -/
def Lists (w : Workers) (a : Action) (exchangeId : UInt16) (key : List Char) (side : Side)
    (level : Decimal × Decimal) : Prop :=
  ∃ worker raw ts l delta, a = .event worker (.text raw ts) ∧ w.listeners[worker]? = some l ∧
    l.exchangeId = exchangeId ∧
    L2OrderBookManager.bookKey toUppercase (targetSymbol w.symbols) = key ∧
    parseOrderbookUpdate fromStr parseDecimal decimalOfNumber exchangeId raw ts = some delta ∧
    level ∈ sideUpdates delta side

/-- Some action of a run lists a level. -/
def ListedIn (w : Workers) (actions : List Action) (exchangeId : UInt16) (key : List Char)
    (side : Side) (level : Decimal × Decimal) : Prop :=
  ∃ before a rest, actions = before ++ a :: rest ∧
    Lists toUppercase fromStr parseDecimal decimalOfNumber
      (after toUppercase fromStr parseDecimal decimalOfNumber w before) a exchangeId key side level

end Runs

section Books

variable {toUppercase : List Char → List Char} {fromStr : String → Option Json}
  {parseDecimal : String → Option Decimal} {decimalOfNumber : JsonNumber → Option Decimal}

/-- The prices that a message of another exchange than Bitfinex lists are positive. -/
lemma Lists.pos {w : Workers} {a : Action} {exchangeId : UInt16} {key : List Char} {side : Side}
    {level : Decimal × Decimal} (h : Lists toUppercase fromStr parseDecimal decimalOfNumber w a
      exchangeId key side level) (hexchange : exchangeId ≠ 5) : 0 < level.1 := by
  obtain ⟨worker, raw, ts, l, delta, -, -, -, -, hdelta, hlevel⟩ := h
  have hprices := (parseOrderbookUpdate_spec hdelta).2.mpr fun hnon => hexchange hnon.1
  cases side with
  | bid => exact hprices level (List.mem_append_left _ hlevel)
  | ask => exact hprices level (List.mem_append_right _ hlevel)

/-- The books of a state are bounded, and their levels satisfy a property. -/
def BooksSatisfy (m : L2OrderBookManager)
    (P : UInt16 → List Char → Side → Decimal × Decimal → Prop) : Prop :=
  ∀ exchangeId key book, m.books exchangeId key = some book → Bounded book ∧
    ∀ side, ∀ level ∈ sideEntries book side, 0 < level.2 ∧ P exchangeId key side level

/-- One action keeps the books bounded, and their levels are old or listed by it. -/
lemma booksSatisfy_step {w : Workers} {P : UInt16 → List Char → Side → Decimal × Decimal → Prop}
    (h : BooksSatisfy w.manager P) {a : Action}
    (ha : ∀ exchangeId key side level, Lists toUppercase fromStr parseDecimal decimalOfNumber w a
      exchangeId key side level → P exchangeId key side level) :
    BooksSatisfy (step toUppercase fromStr parseDecimal decimalOfNumber w a).1.manager P := by
  intro exchangeId key book hbook
  cases a with
  | publish symbols => exact h exchangeId key book hbook
  | clear exchange =>
    change Function.update w.manager.books exchange (fun _ => none) exchangeId key = _ at hbook
    by_cases hexchange : exchangeId = exchange
    · subst hexchange
      rw [Function.update_self] at hbook
      cases hbook
    · rw [Function.update_of_ne hexchange] at hbook
      exact h exchangeId key book hbook
  | event worker e =>
    cases hl : w.listeners[worker]? with
    | none =>
      rw [step_event_none hl] at hbook
      exact h exchangeId key book hbook
    | some l =>
      rw [step_event_some hl, books_applyTo] at hbook
      split_ifs at hbook with htarget
      · obtain ⟨rfl, hkey⟩ := htarget
        cases hreact : (react fromStr parseDecimal decimalOfNumber l e).2 with
        | none =>
          rw [hreact] at hbook
          exact h _ key book hbook
        | some delta =>
          rw [hreact, Option.map_some, Option.some_or] at hbook
          cases hbook
          obtain ⟨raw, ts, rfl, hdelta⟩ := of_react_some hreact
          have hold : Bounded ((w.manager.books l.exchangeId key).getD OrderBook.new) ∧
              ∀ side, ∀ level ∈
                sideEntries ((w.manager.books l.exchangeId key).getD OrderBook.new) side,
                0 < level.2 ∧ P l.exchangeId key side level := by
            cases hold : w.manager.books l.exchangeId key with
            | none =>
              refine ⟨⟨Nat.zero_le _, Nat.zero_le _⟩, fun side level hlevel => ?_⟩
              cases side <;> cases hlevel
            | some old => exact h _ key old hold
          refine ⟨OrderBook.size_applyDelta_le hold.1.1 hold.1.2 delta, fun side level hlevel => ?_⟩
          rcases mem_sideEntries_applyDelta hlevel with hlevel | ⟨hlevel, hpos⟩
          · exact hold.2 side level hlevel
          · refine ⟨hpos, ha _ key side level ?_⟩
            exact ⟨worker, raw, ts, l, delta, rfl, hl, rfl, hkey, hdelta, hlevel⟩
      · exact h exchangeId key book hbook

/-- Every book has at most 500 levels on each side.  Each level has a positive quantity, and was
listed with it by a message of the book's own exchange that came while the symbol of the book was
the first of the list.  Its price is positive, unless the exchange is Bitfinex. -/
theorem books_sound (exchanges : List UInt16) (symbols : List (List Char)) (actions : List Action)
    (exchangeId : UInt16) (key : List Char) (book : OrderBook)
    (hbook : (after toUppercase fromStr parseDecimal decimalOfNumber
      (spawnObWorkers exchanges symbols) actions).manager.books exchangeId key = some book) :
    (book.bids.size ≤ OrderBook.maxLevelsPerSide ∧ book.asks.size ≤ OrderBook.maxLevelsPerSide) ∧
      ∀ side, ∀ level ∈ sideEntries book side, 0 < level.2 ∧
        ListedIn toUppercase fromStr parseDecimal decimalOfNumber
          (spawnObWorkers exchanges symbols) actions exchangeId key side level ∧
        (exchangeId ≠ 5 → 0 < level.1) := by
  suffices hrun : BooksSatisfy (after toUppercase fromStr parseDecimal decimalOfNumber
      (spawnObWorkers exchanges symbols) actions).manager
      (ListedIn toUppercase fromStr parseDecimal decimalOfNumber
        (spawnObWorkers exchanges symbols) actions) by
    obtain ⟨hbounded, hlevels⟩ := hrun exchangeId key book hbook
    refine ⟨hbounded, fun side level hlevel => ?_⟩
    obtain ⟨hpos, hlisted⟩ := hlevels side level hlevel
    obtain ⟨before, a, rest, -, hlists⟩ := id hlisted
    exact ⟨hpos, hlisted, hlists.pos⟩
  -- by induction on the run from its end: a level after an action was there or is listed by it
  clear hbook
  induction actions using List.reverseRecOn with
  | nil =>
    intro exchangeId key book hbook
    cases hbook
  | append_singleton actions a ih =>
    unfold after at ih ⊢
    rw [runState_append]
    refine booksSatisfy_step ?_ ?_
    · intro exchangeId key book hbook
      obtain ⟨hbounded, hlevels⟩ := ih exchangeId key book hbook
      refine ⟨hbounded, fun side level hlevel => ?_⟩
      obtain ⟨hpos, before, a', rest, rfl, hlists⟩ := hlevels side level hlevel
      exact ⟨hpos, before, a', rest ++ [a], by simp, hlists⟩
    · intro exchangeId key side level hlists
      exact ⟨actions, a, [], rfl, hlists⟩

end Books

/-! ## One snapshot of Bybit -/

/-- A snapshot of Bybit with a bid at 100. -/
def bybitText : String :=
  "\x7b\"type\":\"snapshot\",\"data\":\x7b\"b\":[[\"100\",\"1\"]],\"a\":[],\"u\":5\x7d\x7d"

/-- The value of the snapshot. -/
def readBybit (raw : String) : Option Json :=
  if raw = bybitText then
    some (.object [("type", .string "snapshot"), ("data", .object
      [("b", .array [.array [.string "100", .string "1"]]), ("a", .array []),
        ("u", .number (.posInt 5))])])
  else none

/-- The delta of the snapshot. -/
def bybitDelta : OrderBookDelta := ⟨[(100, 1)], [], true, 5, 7⟩

/-- The listener of Bybit connects and reads the snapshot. -/
def bybitActions : List Action := [.event 0 (.connectOk true), .event 0 (.text bybitText 7)]

lemma books_bybit :
    (after OrderBookFeed.asciiUppercase readBybit readDecimal (fun _ => none)
      (spawnObWorkers [1] ["BTC-USDT".toList]) bybitActions).manager.books 1 "BTCUSDT".toList =
      some (OrderBook.new.applyDelta bybitDelta) := by
  rfl

/-- The bid of the snapshot is in the book, and was listed by it. -/
theorem books_sound_bybit :
    ((100, 1) : Decimal × Decimal) ∈ sideEntries (OrderBook.new.applyDelta bybitDelta) .bid ∧
      ListedIn OrderBookFeed.asciiUppercase readBybit readDecimal (fun _ => none)
        (spawnObWorkers [1] ["BTC-USDT".toList]) bybitActions 1 "BTCUSDT".toList .bid (100, 1) := by
  have hmem : ((100, 1) : Decimal × Decimal) ∈
      sideEntries (OrderBook.new.applyDelta bybitDelta) .bid := by
    decide +kernel
  obtain ⟨-, hlevels⟩ := books_sound [1] ["BTC-USDT".toList] bybitActions 1 "BTCUSDT".toList _
    books_bybit
  exact ⟨hmem, (hlevels .bid (100, 1) hmem).2.1⟩

/-! ## The books of one exchange -/

/-- An action concerns an exchange: it is of one of its listeners or clears its books, or it
publishes a list of symbols. -/
def concerns (exchanges : List UInt16) (exchangeId : UInt16) : Action → Bool
  | .publish _ => true
  | .event worker _ => decide (exchanges[worker]? = some exchangeId)
  | .clear exchange => decide (exchange = exchangeId)

/-- A listener as an exchange sees it. -/
def visible (exchangeId : UInt16) (l : L2OrderBookListener) : Option L2OrderBookListener :=
  if l.exchangeId = exchangeId then some l else none

/-- What an exchange sees: the symbols, its books and its listeners. -/
def view (exchangeId : UInt16) (w : Workers) :
    List (List Char) × (List Char → Option OrderBook) × List (Option L2OrderBookListener) :=
  (w.symbols, w.manager.books exchangeId, w.listeners.map (visible exchangeId))

section Interleaved

variable {toUppercase : List Char → List Char} {fromStr : String → Option Json}
  {parseDecimal : String → Option Decimal} {decimalOfNumber : JsonNumber → Option Decimal}

/-- The books of another exchange. -/
lemma books_applyTo_of_ne (m : L2OrderBookManager) {exchange exchangeId : UInt16}
    (h : exchange ≠ exchangeId) (symbols : List (List Char)) (delta : Option OrderBookDelta) :
    (applyTo toUppercase m exchange symbols delta).books exchangeId = m.books exchangeId := by
  funext key
  rw [books_applyTo, if_neg fun hboth => h hboth.1]

/-- The books after a message depend on those before it. -/
lemma books_applyTo_congr {m m' : L2OrderBookManager} {exchangeId : UInt16}
    (h : m.books exchangeId = m'.books exchangeId) (exchange : UInt16) (symbols : List (List Char))
    (delta : Option OrderBookDelta) :
    (applyTo toUppercase m exchange symbols delta).books exchangeId =
      (applyTo toUppercase m' exchange symbols delta).books exchangeId := by
  funext key
  rw [books_applyTo, books_applyTo, h]

/-- An exchange sees its own listeners as they are. -/
lemma exists_visible {w : Workers} {exchanges : List UInt16} {exchangeId : UInt16} {worker : ℕ}
    (hw : w.listeners.map L2OrderBookListener.exchangeId = exchanges)
    (h : exchanges[worker]? = some exchangeId) :
    ∃ l, w.listeners[worker]? = some l ∧ l.exchangeId = exchangeId ∧
      (w.listeners.map (visible exchangeId))[worker]? = some (some l) := by
  rw [← hw, List.getElem?_map] at h
  obtain ⟨l, hl, hid⟩ := Option.map_eq_some_iff.mp h
  refine ⟨l, hl, hid, ?_⟩
  rw [List.getElem?_map, hl, Option.map_some, visible, if_pos hid]

/-- Changing a listener of another exchange is not seen. -/
lemma map_visible_set {listeners : List L2OrderBookListener} {worker : ℕ}
    {l l' : L2OrderBookListener} {exchangeId : UInt16} (hl : listeners[worker]? = some l)
    (hid : l.exchangeId ≠ exchangeId) (hid' : l'.exchangeId ≠ exchangeId) :
    (listeners.set worker l').map (visible exchangeId) = listeners.map (visible exchangeId) := by
  have hsame : (listeners.map (visible exchangeId))[worker]? = some none := by
    rw [List.getElem?_map, hl, Option.map_some, visible, if_neg hid]
  rw [List.map_set, visible, if_neg hid']
  obtain ⟨hlt, heq⟩ := List.getElem?_eq_some_iff.mp hsame
  rw [← heq]
  exact List.set_getElem_self hlt

variable (toUppercase fromStr parseDecimal decimalOfNumber) in
/-- An exchange sees what concerns it, and nothing else. -/
lemma view_step (exchanges : List UInt16) (exchangeId : UInt16) :
    View (step toUppercase fromStr parseDecimal decimalOfNumber)
      (fun w => w.listeners.map L2OrderBookListener.exchangeId = exchanges) (view exchangeId)
      (concerns exchanges exchangeId) where
  invariant w a hw := (exchanges_step w a).trans hw
  keep w w' a hw hw' heq ha := by
    obtain ⟨hsymbols, hpair⟩ := Prod.mk.inj heq
    obtain ⟨hbooks, hlisteners⟩ := Prod.mk.inj hpair
    cases a with
    | publish symbols => exact Prod.ext rfl hpair
    | clear exchange =>
      obtain rfl := of_decide_eq_true ha
      refine Prod.ext hsymbols (Prod.ext ?_ hlisteners)
      simp only [step, view, clearExchange, Function.update_self]
    | event worker e =>
      obtain ⟨l, hl, hid, hvis⟩ := exists_visible hw (of_decide_eq_true ha)
      obtain ⟨l', hl', -, hvis'⟩ := exists_visible hw' (of_decide_eq_true ha)
      obtain rfl : l = l' := by
        rw [hlisteners, hvis'] at hvis
        exact (Option.some.inj (Option.some.inj hvis)).symm
      rw [step_event_some hl, step_event_some hl']
      refine Prod.ext hsymbols (Prod.ext ?_ ?_)
      · dsimp only [view]
        rw [hsymbols]
        exact books_applyTo_congr hbooks ..
      · dsimp only [view]
        rw [List.map_set, List.map_set, hlisteners]
  skip w a hw ha := by
    cases a with
    | publish symbols => cases ha
    | clear exchange =>
      refine Prod.ext rfl (Prod.ext ?_ rfl)
      exact Function.update_of_ne (Ne.symm (of_decide_eq_false ha)) ..
    | event worker e =>
      cases hl : w.listeners[worker]? with
      | none => rw [step_event_none hl]
      | some l =>
        have hid : l.exchangeId ≠ exchangeId := by
          intro hid
          apply of_decide_eq_false ha
          rw [← hw, List.getElem?_map, hl, Option.map_some, hid]
        rw [step_event_some hl]
        refine Prod.ext rfl (Prod.ext ?_ ?_)
        · exact books_applyTo_of_ne w.manager hid ..
        · exact map_visible_set hl hid ((exchangeId_react l e).trans_ne hid)

/-- The books of an exchange after a run are those after the actions that concern it, whatever the
other listeners do in between. -/
theorem books_of_own_actions (exchanges : List UInt16) (symbols : List (List Char))
    (actions : List Action) (exchangeId : UInt16) :
    (after toUppercase fromStr parseDecimal decimalOfNumber (spawnObWorkers exchanges symbols)
        actions).manager.books exchangeId =
      (after toUppercase fromStr parseDecimal decimalOfNumber (spawnObWorkers exchanges symbols)
        (actions.filter (concerns exchanges exchangeId))).manager.books exchangeId := by
  have hstart : (spawnObWorkers exchanges symbols).listeners.map
      L2OrderBookListener.exchangeId = exchanges := by
    simp [spawnObWorkers, L2OrderBookListener.new, Function.comp_def]
  have hview := (view_step toUppercase fromStr parseDecimal decimalOfNumber exchanges
    exchangeId).view_filter hstart hstart rfl actions
  exact (Prod.mk.inj (Prod.mk.inj hview).2).1

end Interleaved

/-! ## How long a listener goes on -/

/-- What ends an attempt or begins a stream. -/
inductive Mark
  | connected
  | unsent
  | closed
  | failed
  deriving DecidableEq

/-- The mark of an event. -/
def mark (l : L2OrderBookListener) (e : Event) : List Mark :=
  match l.phase, e with
  | .connecting, .connectOk sent => [if l.subscribes ∧ ¬ sent then .unsent else .connected]
  | .connecting, .connectError => [.failed]
  | .connecting, .connectTimeout => [.failed]
  | .streaming, .closeFrame => [.closed]
  | .streaming, .readError => [.failed]
  | .streaming, .streamEnd => [.failed]
  | _, _ => []

/-- The failures at the end of the marks. -/
def failureStreak (marks : List Mark) : ℕ :=
  (marks.reverse.takeWhile fun m => decide (m = .failed)).length

/-- The marks end in a subscription that is not sent, in a close frame, or in more than fifty
failures. -/
def Ended (marks : List Mark) : Prop :=
  marks.getLast? = some .unsent ∨ marks.getLast? = some .closed ∨
    maxConsecutiveFailures < failureStreak marks

@[simp] lemma failureStreak_append_failed (marks : List Mark) :
    failureStreak (marks ++ [.failed]) = failureStreak marks + 1 := by
  simp [failureStreak]

lemma failureStreak_append_of_ne {m : Mark} (h : m ≠ .failed) (marks : List Mark) :
    failureStreak (marks ++ [m]) = 0 := by
  simp [failureStreak, h]

section Life

variable (fromStr : String → Option Json) (parseDecimal : String → Option Decimal)
  (decimalOfNumber : JsonNumber → Option Decimal)

/-- One event of a listener, with its mark. -/
def live (l : L2OrderBookListener) (e : Event) : L2OrderBookListener × List Mark :=
  ((react fromStr parseDecimal decimalOfNumber l e).1, mark l e)

end Life

/-- What marks have led to a phase. -/
def Phase.After (marks : List Mark) : Phase → Prop
  | .connecting => ¬ Ended marks
  | .streaming => marks.getLast? = some .connected
  | .waiting delay => ¬ Ended marks ∧ marks.getLast? = some .failed ∧
      delay = L2OrderBookListener.delaySecs (failureStreak marks)
  | .returned => Ended marks

/-- The phase and the count of a listener after marks. -/
structure Marked (l : L2OrderBookListener) (marks : List Mark) : Prop where
  failures : l.consecutiveFailures = failureStreak marks
  phase : l.phase.After marks

section Life

variable {fromStr : String → Option Json} {parseDecimal : String → Option Decimal}
  {decimalOfNumber : JsonNumber → Option Decimal}

/-- A listener that is marked as failed gives up or waits. -/
lemma Marked.fail {l : L2OrderBookListener} {marks : List Mark}
    (h : l.consecutiveFailures = failureStreak marks) : Marked l.fail (marks ++ [.failed]) := by
  refine ⟨?_, ?_⟩
  · rw [failureStreak_append_failed, ← h]
    rfl
  · unfold L2OrderBookListener.fail
    dsimp only
    split_ifs with hmany
    · refine Or.inr (Or.inr ?_)
      rwa [failureStreak_append_failed, ← h]
    · refine ⟨?_, by simp, by rw [failureStreak_append_failed, ← h]⟩
      rintro (hlast | hlast | hstreak)
      · simp at hlast
      · simp at hlast
      · rw [failureStreak_append_failed, ← h] at hstreak
        exact hmany hstreak

lemma Marked.congr {l l' : L2OrderBookListener} {marks : List Mark} (h : Marked l marks)
    (hsame : l'.phase = l.phase ∧ l'.consecutiveFailures = l.consecutiveFailures) :
    Marked l' marks :=
  ⟨hsame.2.trans h.failures, hsame.1 ▸ h.phase⟩

variable (fromStr parseDecimal decimalOfNumber) in
/-- A text leaves the phase and the count alone, and other events are those of the listener. -/
lemma phase_react (l : L2OrderBookListener) (e : Event) :
    (react fromStr parseDecimal decimalOfNumber l e).1.phase = (l.onEvent e).phase ∧
      (react fromStr parseDecimal decimalOfNumber l e).1.consecutiveFailures =
        (l.onEvent e).consecutiveFailures := by
  unfold react
  split
  · next raw ts hphase =>
    have hsame : l.onEvent (.text raw ts) = l := by
      unfold L2OrderBookListener.onEvent
      rw [hphase]
    rw [hsame]
    split_ifs
    · exact ⟨rfl, rfl⟩
    · split <;> exact ⟨rfl, rfl⟩
  · exact ⟨rfl, rfl⟩

lemma not_ended_of_connected (marks : List Mark) : ¬ Ended (marks ++ [.connected]) := by
  rintro (hlast | hlast | hstreak)
  · simp at hlast
  · simp at hlast
  · rw [failureStreak_append_of_ne (by decide)] at hstreak
    exact absurd hstreak (Nat.not_lt_zero _)

/-- An event that changes nothing and leaves no mark. -/
lemma Marked.same {l : L2OrderBookListener} {marks : List Mark} (h : Marked l marks) {e : Event}
    (hevent : l.onEvent e = l) (hmark : mark l e = []) :
    Marked (l.onEvent e) (marks ++ mark l e) := by
  rw [hevent, hmark, List.append_nil]
  exact h

/-- One event keeps the marks right. -/
lemma Marked.onEvent {l : L2OrderBookListener} {marks : List Mark} (h : Marked l marks)
    (e : Event) : Marked (l.onEvent e) (marks ++ mark l e) := by
  obtain ⟨id, phase, failures, errors, deltas⟩ := l
  have hsame := h.same (e := e)
  obtain ⟨hfailures, hphase⟩ := h
  cases phase with
  | connecting =>
    cases e with
    | connectOk sent =>
      simp only [L2OrderBookListener.onEvent, mark]
      split_ifs
      · exact ⟨(failureStreak_append_of_ne (by decide) marks).symm, Or.inl (by simp)⟩
      · exact ⟨(failureStreak_append_of_ne (by decide) marks).symm, List.getLast?_concat⟩
    | connectError => exact Marked.fail hfailures
    | connectTimeout => exact Marked.fail hfailures
    | _ => exact hsame rfl rfl
  | streaming =>
    cases e with
    | closeFrame =>
      have hlast : marks.getLast? = some .connected := hphase
      obtain ⟨front, rfl⟩ := List.getLast?_eq_some_iff.mp hlast
      refine ⟨?_, Or.inr (Or.inl (by simp [mark]))⟩
      change failures = failureStreak (front ++ [.connected] ++ [.closed])
      rw [failureStreak_append_of_ne (by decide)]
      exact hfailures.trans (failureStreak_append_of_ne (by decide) front)
    | readError => exact Marked.fail hfailures
    | streamEnd => exact Marked.fail hfailures
    | _ => exact hsame rfl rfl
  | waiting delay =>
    cases e with
    | wake =>
      refine ⟨?_, ?_⟩
      · change failures = failureStreak (marks ++ [])
        rw [List.append_nil]
        exact hfailures
      · change ¬ Ended (marks ++ [])
        rw [List.append_nil]
        exact hphase.1
    | _ => exact hsame rfl rfl
  | returned => exact hsame rfl rfl

variable (fromStr parseDecimal decimalOfNumber) in
/-- The marks of every run of a new listener are right. -/
lemma marked_run (exchangeId : UInt16) (events : List Event) :
    Marked (runState (live fromStr parseDecimal decimalOfNumber) (.new exchangeId) events)
      (runTrace (live fromStr parseDecimal decimalOfNumber) (.new exchangeId) events) := by
  have hstart : Marked (L2OrderBookListener.new exchangeId) [] := by
    refine ⟨rfl, ?_⟩
    rintro (hlast | hlast | hstreak)
    · cases hlast
    · cases hlast
    · exact absurd hstreak (Nat.not_lt_zero _)
  have hrun : Marked (runState (live fromStr parseDecimal decimalOfNumber) (.new exchangeId) events)
      ([] ++ runTrace (live fromStr parseDecimal decimalOfNumber) (.new exchangeId) events) := by
    refine run_induction (C := fun _ _ _ => True) (fun l marks e hl _ => ?_) hstart
      fun _ _ _ _ => trivial
    exact (hl.onEvent e).congr (phase_react fromStr parseDecimal decimalOfNumber l e)
  simpa using hrun

/-- A listener has returned exactly when its attempts and streams end in a subscription that is not
sent, in a close frame, or in more than fifty failures.  A listener that waits does so for the power
of two that belongs to its failures in a row, of which there are at most fifty, but no longer than
thirty seconds. -/
theorem listener_returned_iff (exchangeId : UInt16) (events : List Event) :
    ((runState (live fromStr parseDecimal decimalOfNumber) (.new exchangeId) events).phase =
        .returned ↔
      Ended (runTrace (live fromStr parseDecimal decimalOfNumber) (.new exchangeId) events)) ∧
    ∀ delay, (runState (live fromStr parseDecimal decimalOfNumber) (.new exchangeId)
        events).phase = .waiting delay →
      ∃ k < 50, failureStreak (runTrace (live fromStr parseDecimal decimalOfNumber)
        (.new exchangeId) events) = k + 1 ∧ delay = min (2 ^ k) 30 := by
  obtain ⟨-, hphase⟩ := marked_run fromStr parseDecimal decimalOfNumber exchangeId events
  revert hphase
  generalize runTrace (live fromStr parseDecimal decimalOfNumber) (.new exchangeId) events = marks
  generalize runState (live fromStr parseDecimal decimalOfNumber) (.new exchangeId) events = l
  obtain ⟨id, phase, failures, errors, deltas⟩ := l
  intro hphase
  cases phase with
  | connecting => exact ⟨iff_of_false (by simp) hphase, by simp⟩
  | streaming =>
    have hlast : marks.getLast? = some .connected := hphase
    obtain ⟨front, rfl⟩ := List.getLast?_eq_some_iff.mp hlast
    exact ⟨iff_of_false (by simp) (not_ended_of_connected front), by simp⟩
  | returned => exact ⟨iff_of_true rfl hphase, by simp⟩
  | waiting delay =>
    obtain ⟨hended, hlast, hdelay⟩ := hphase
    refine ⟨iff_of_false (by simp) hended, fun delay' heq => ?_⟩
    obtain rfl := Phase.waiting.inj heq
    obtain ⟨front, rfl⟩ := List.getLast?_eq_some_iff.mp hlast
    rw [failureStreak_append_failed] at hdelay ⊢
    refine ⟨failureStreak front, ?_, rfl, ?_⟩
    · by_contra hmany
      refine hended (Or.inr (Or.inr ?_))
      rw [failureStreak_append_failed, maxConsecutiveFailures]
      omega
    · rw [hdelay, L2OrderBookListener.delaySecs, Nat.add_sub_cancel, Nat.shiftLeft_eq]
      rw [baseDelaySecs, Nat.one_mul, maxDelaySecs]

end Life

end DepthListeners

end HftArb
