import HftArb.Feeds.TickerParser
import HftArb.Foundations.Runs
import HftArb.Strategies.ArenaUpdates

/-!
# The listener of a feed

The listener of an exchange connects to the feed, writes the prices of its messages to the market
arena and waits before it connects again after a failure.  It is a state machine driven by the
events of the socket and by the end of its waits; an event that cannot happen in a phase changes
nothing.

Two of its exits are not like the others.  A close frame ends the listener and leaves the prices in
the arena: `disconnected_row_zero_iff`.  And the `break` behind an ended stream, meant to fall
through to the next attempt, leaves the loop of the attempts: `keeps_reconnecting_iff`.
-/

namespace HftArb

namespace WsListener

/-- `WS_MAX_MESSAGE_SIZE`. -/
def wsMaxMessageSize : ℕ := 65536

/-- `MAX_CONSECUTIVE_FAILURES`. -/
def maxConsecutiveFailures : ℕ := 50

/-- Where the listener is. -/
inductive Phase where
  | connecting
  | streaming
  | waiting
  | returned
  deriving DecidableEq

/-- What can happen to a listener: the outcome of a connection attempt, a frame or the end of a
connected stream, the end of a wait. -/
inductive Event where
  | connectOk
  | connectError
  | connectTimeout
  | text (bytes : List UInt8)
  | otherFrame
  | closeFrame
  | readError
  | streamEnd
  | wake

/-- A listener with the arena it writes to. -/
structure State where
  phase : Phase
  consecutiveFailures : ℕ
  arena : MarketArena

variable (exchangeId : ℕ)

/-- A failed attempt to connect: give up after too many of them, else wait for the next one. -/
def connectFailed (s : State) : State :=
  ⟨if maxConsecutiveFailures < s.consecutiveFailures + 1 then .returned else .waiting,
    s.consecutiveFailures + 1, s.arena.invalidateExchange exchangeId⟩

/-- A text frame: a message in the format of the parser updates the prices. -/
def readText (s : State) (bytes : List UInt8) : State :=
  if wsMaxMessageSize < bytes.length then s
  else
    match TickerParser.parseRawBytesFast bytes with
    | none => s
    | some (tokenId, bid, ask) =>
      { s with arena := s.arena.updatePrice exchangeId tokenId.toNat bid ask }

/-- One event. -/
def step (s : State) (e : Event) : State :=
  match s.phase, e with
  | .connecting, .connectOk => { s with phase := .streaming, consecutiveFailures := 0 }
  | .connecting, .connectError => connectFailed exchangeId s
  | .connecting, .connectTimeout => connectFailed exchangeId s
  | .streaming, .text bytes => readText exchangeId s bytes
  | .streaming, .closeFrame => { s with phase := .returned }
  -- both leave the loop over the frames; the prices are invalidated and the loop over the
  -- attempts is left as well
  | .streaming, .readError =>
    { s with phase := .returned, arena := s.arena.invalidateExchange exchangeId }
  | .streaming, .streamEnd =>
    { s with phase := .returned, arena := s.arena.invalidateExchange exchangeId }
  | .waiting, .wake => { s with phase := .connecting }
  | _, _ => s

/-- A listener that starts on an arena. -/
def start (arena : MarketArena) : State := ⟨.connecting, 0, arena⟩

/-- The listener after some events. -/
def run (s : State) (events : List Event) : State := events.foldl (step exchangeId) s

/-- What an event can do. -/
inductive Outcome (s : State) : Event → State → Prop
  | connected (h : s.phase = .connecting) :
    Outcome s .connectOk { s with phase := .streaming, consecutiveFailures := 0 }
  | failed {e : Event} (h : s.phase = .connecting) (he : e = .connectError ∨ e = .connectTimeout) :
    Outcome s e (connectFailed exchangeId s)
  | read {bytes : List UInt8} (h : s.phase = .streaming) :
    Outcome s (.text bytes) (readText exchangeId s bytes)
  | closed (h : s.phase = .streaming) : Outcome s .closeFrame { s with phase := .returned }
  | ended {e : Event} (h : s.phase = .streaming) (he : e = .readError ∨ e = .streamEnd) :
    Outcome s e { s with phase := .returned, arena := s.arena.invalidateExchange exchangeId }
  | woken (h : s.phase = .waiting) : Outcome s .wake { s with phase := .connecting }
  | ignored {e : Event} (hconnecting : s.phase = .connecting → e ≠ .connectOk ∧
      e ≠ .connectError ∧ e ≠ .connectTimeout)
    (hstreaming : s.phase = .streaming → e ≠ .readError ∧ e ≠ .streamEnd) : Outcome s e s

/-- Every event has one of the outcomes. -/
lemma step_outcome (s : State) (e : Event) : Outcome exchangeId s e (step exchangeId s e) := by
  unfold step
  split
  · exact .connected ‹_›
  · exact .failed ‹_› (Or.inl rfl)
  · exact .failed ‹_› (Or.inr rfl)
  · exact .read ‹_›
  · exact .closed ‹_›
  · exact .ended ‹_› (Or.inl rfl)
  · exact .ended ‹_› (Or.inr rfl)
  · exact .woken ‹_›
  · refine .ignored (fun hphase => ⟨?_, ?_, ?_⟩) fun hphase => ⟨?_, ?_⟩
    all_goals
      rintro rfl
      simp_all

/-- A text frame does not end the stream and does not count. -/
lemma readText_keeps (s : State) (bytes : List UInt8) :
    (readText exchangeId s bytes).phase = s.phase ∧
      (readText exchangeId s bytes).consecutiveFailures = s.consecutiveFailures := by
  unfold readText
  split_ifs
  · exact ⟨rfl, rfl⟩
  · split
    · exact ⟨rfl, rfl⟩
    · exact ⟨rfl, rfl⟩

/-! ## The prices of a disconnected feed -/

/-- Every slot of the exchange is without prices. -/
def RowZero (a : MarketArena) : Prop :=
  exchangeId < a.totalExchanges → ∀ tokenId < a.totalTokens, a.ZeroSlot exchangeId tokenId

variable {exchangeId}

/-- An invalidated exchange has no prices. -/
lemma rowZero_invalidateExchange (a : MarketArena) :
    RowZero exchangeId (a.invalidateExchange exchangeId) := by
  have hsame := MarketArena.sameTables_invalidateExchange a exchangeId
  intro he tokenId ht
  rw [hsame.totalExchanges] at he
  rw [hsame.totalTokens] at ht
  exact MarketArena.zeroSlot_invalidateExchange he ht

/-- The listener waits for its next attempt or has returned. -/
def Disconnected (s : State) : Prop := s.phase = .waiting ∨ s.phase = .returned

variable (exchangeId)

/-- The row of the exchange is zero at every point of the run at which the listener is
disconnected. -/
def DisconnectedRowZero (s : State) (events : List Event) : Prop :=
  ∀ before after, events = before ++ after → Disconnected (run exchangeId s before) →
    RowZero exchangeId (run exchangeId s before).arena

variable {exchangeId}

/-- A disconnected listener without prices stays so, and an event that disconnects a listener zeroes
the row unless it is a close frame. -/
lemma rowZero_step {s : State} {e : Event}
    (h : Disconnected s → RowZero exchangeId s.arena)
    (hclose : e = .closeFrame → s.phase = .streaming → RowZero exchangeId s.arena)
    (hdisc : Disconnected (step exchangeId s e)) :
    RowZero exchangeId (step exchangeId s e).arena := by
  have hout := step_outcome exchangeId s e
  generalize step exchangeId s e = s' at hout hdisc ⊢
  cases hout with
  | connected => rcases hdisc with hphase | hphase <;> cases hphase
  | failed => exact rowZero_invalidateExchange s.arena
  | @read bytes hphase =>
    have hread : (readText exchangeId s bytes).phase = .streaming :=
      (readText_keeps exchangeId s bytes).1.trans hphase
    rcases hdisc with hphase' | hphase'
    · exact absurd (hread.symm.trans hphase') (by decide)
    · exact absurd (hread.symm.trans hphase') (by decide)
  | closed hphase => exact hclose rfl hphase
  | ended => exact rowZero_invalidateExchange s.arena
  | woken => rcases hdisc with hphase | hphase <;> cases hphase
  | ignored => exact h hdisc

/-- A listener has no prices whenever it is disconnected if and only if it has none at each close
frame it receives while connected. -/
theorem disconnected_row_zero_iff (exchangeId : ℕ) (arena : MarketArena) (events : List Event) :
    DisconnectedRowZero exchangeId (start arena) events ↔
      ∀ before after, events = before ++ .closeFrame :: after →
        (run exchangeId (start arena) before).phase = .streaming →
        RowZero exchangeId (run exchangeId (start arena) before).arena := by
  constructor
  · intro h before after heq hphase
    have hstate : run exchangeId (start arena) (before ++ [.closeFrame]) =
        { run exchangeId (start arena) before with phase := .returned } := by
      unfold run at hphase ⊢
      rw [List.foldl_append]
      simp [step, hphase]
    have hzero := h (before ++ [.closeFrame]) after (by rw [heq]; simp)
      (by rw [hstate]; exact Or.inr rfl)
    rw [hstate] at hzero
    exact hzero
  · intro h before
    induction before using List.reverseRecOn with
    | nil =>
      intro after _ hdisc
      rcases hdisc with hphase | hphase <;> cases hphase
    | append_singleton before e ih =>
      intro after heq hdisc
      have hstate : run exchangeId (start arena) (before ++ [e]) =
          step exchangeId (run exchangeId (start arena) before) e := by
        unfold run
        rw [List.foldl_append]
        rfl
      rw [hstate] at hdisc ⊢
      refine rowZero_step (ih (e :: after) (by rw [heq]; simp)) ?_ hdisc
      rintro rfl hphase
      exact h before after (by rw [heq]; simp) hphase

/-- The message `{"t":0,"b":2,"a":3}`. -/
def plainTicker : List UInt8 :=
  [123, 34, 116, 34, 58, 48, 44, 34, 98, 34, 58, 50, 44, 34, 97, 34, 58, 51, 125]

/-- A close frame after a price leaves the price in the arena. -/
theorem close_frame_leaves_prices :
    ¬ DisconnectedRowZero 0 (start (MarketArena.new 1 1 (by decide)))
      [.connectOk, .text plainTicker, .closeFrame] := by
  intro h
  have hzero := h [.connectOk, .text plainTicker, .closeFrame] [] rfl (Or.inr (by decide +kernel))
    (by decide +kernel) 0 (by decide +kernel)
  exact absurd hzero.1 (by decide +kernel)

/-! ## Reconnecting -/

variable (exchangeId : ℕ)

/-- The number of consecutive failures after one more event: failed attempts and ended streams
count, a connection starts over. -/
def failuresBy (s : State) (failures : ℕ) (e : Event) : ℕ :=
  match s.phase, e with
  | .connecting, .connectOk => 0
  | .connecting, .connectError => failures + 1
  | .connecting, .connectTimeout => failures + 1
  | .streaming, .readError => failures + 1
  | .streaming, .streamEnd => failures + 1
  | _, _ => failures

/-- The number of consecutive failures at the end of a run, given their number before it. -/
def failures (s : State) (before : ℕ) : List Event → ℕ
  | [] => before
  | e :: events => failures (step exchangeId s e) (failuresBy s before e) events

/-- The stream of a connected listener ends. -/
def Event.EndsStream (e : Event) : Prop := e = .readError ∨ e = .streamEnd

/-- The listener returns only after more than 50 consecutive failures, and an ended stream is
followed by a wait for another attempt. -/
structure KeepsReconnecting (s : State) (events : List Event) : Prop where
  returned : ∀ before after, events = before ++ after →
    (run exchangeId s before).phase = .returned → 50 < failures exchangeId s 0 before
  reconnects : ∀ before e after, events = before ++ e :: after → e.EndsStream →
    (run exchangeId s before).phase = .streaming →
    (run exchangeId s (before ++ [e])).phase = .waiting

variable {exchangeId}

/-- The counter of the listener is the number of consecutive failures, and it is above 50 once the
listener has returned. -/
structure Counting (s : State) (failures : ℕ) : Prop where
  counter : s.consecutiveFailures = failures
  returned : s.phase = .returned → 50 < failures

/-- An event other than a close frame and the end of a stream keeps the counter. -/
lemma Counting.step {s : State} {count : ℕ} (h : Counting s count) {e : Event}
    (hclose : e ≠ .closeFrame) (hend : e.EndsStream → s.phase ≠ .streaming) :
    Counting (step exchangeId s e) (failuresBy s count e) := by
  have hout := step_outcome exchangeId s e
  generalize WsListener.step exchangeId s e = s' at hout ⊢
  cases hout with
  | connected hphase =>
    refine ⟨?_, fun hreturned => nomatch hreturned⟩
    simp [failuresBy, hphase]
  | failed hphase he =>
    have hcount : failuresBy s count e = count + 1 := by
      rcases he with rfl | rfl <;> simp [failuresBy, hphase]
    rw [hcount]
    refine ⟨congrArg (· + 1) h.counter, ?_⟩
    intro hreturned
    have hcounter := h.counter
    unfold connectFailed maxConsecutiveFailures at hreturned
    split_ifs at hreturned with hmax
    omega
  | @read bytes hphase =>
    have hcount : failuresBy s count (.text bytes) = count := by simp [failuresBy, hphase]
    obtain ⟨hphase', hcounter⟩ := readText_keeps exchangeId s bytes
    rw [hcount]
    exact ⟨hcounter.trans h.counter, fun hreturned => h.returned (hphase'.symm.trans hreturned)⟩
  | closed => exact absurd rfl hclose
  | ended hphase he => exact absurd hphase (hend he)
  | woken hphase =>
    refine ⟨?_, fun hreturned => nomatch hreturned⟩
    simpa [failuresBy, hphase] using h.counter
  | ignored hconnecting hstreaming =>
    have hcount : failuresBy s count e = count := by
      unfold failuresBy
      split
      · exact absurd rfl (hconnecting ‹_›).1
      · exact absurd rfl (hconnecting ‹_›).2.1
      · exact absurd rfl (hconnecting ‹_›).2.2
      · exact absurd rfl (hstreaming ‹_›).1
      · exact absurd rfl (hstreaming ‹_›).2
      · rfl
    rw [hcount]
    exact h

/-- A run without close frames and without ended streams keeps the counter. -/
lemma Counting.run {s : State} {count : ℕ} (h : Counting s count) {events : List Event}
    (hclose : Event.closeFrame ∉ events)
    (hend : ∀ before e after, events = before ++ e :: after → e.EndsStream →
      (run exchangeId s before).phase ≠ .streaming) :
    Counting (run exchangeId s events) (failures exchangeId s count events) := by
  induction events generalizing s count with
  | nil => exact h
  | cons e events ih =>
    obtain ⟨hfirst, hrest⟩ := Runs.forall_split_cons.mp hend
    have he : e ≠ .closeFrame := by
      rintro rfl
      exact hclose (by simp)
    exact ih (h.step he hfirst) (fun hmem => hclose (by simp [hmem])) hrest

/-- Without close frames, a listener keeps reconnecting if and only if no stream ends, in a read
error or otherwise, while it is connected. -/
theorem keeps_reconnecting_iff (exchangeId : ℕ) (arena : MarketArena) (events : List Event)
    (hclose : Event.closeFrame ∉ events) :
    KeepsReconnecting exchangeId (start arena) events ↔
      ∀ before e after, events = before ++ e :: after → e.EndsStream →
        (run exchangeId (start arena) before).phase ≠ .streaming := by
  constructor
  · intro h before e after heq hend hphase
    have hwaiting := h.reconnects before e after heq hend hphase
    have hreturned : (run exchangeId (start arena) (before ++ [e])).phase = .returned := by
      unfold run at hphase ⊢
      rw [List.foldl_append]
      rcases hend with rfl | rfl <;> simp [step, hphase]
    exact absurd (hwaiting.symm.trans hreturned) (by decide)
  · intro h
    constructor
    · rintro before after rfl hreturned
      have hcounting : Counting (run exchangeId (start arena) before)
          (failures exchangeId (start arena) 0 before) := by
        apply Counting.run ⟨rfl, fun hphase => absurd hphase (by simp [start])⟩
        · exact fun hmem => hclose (List.mem_append_left _ hmem)
        · intro pre e post heq
          exact h pre e (post ++ after) (by rw [heq]; simp)
      exact hcounting.returned hreturned
    · intro before e after heq hend hphase
      exact absurd hphase (h before e after heq hend)

/-- A listener that connects at the second attempt and reads a price. -/
theorem keeps_reconnecting_connected :
    Event.closeFrame ∉ [Event.connectError, .wake, .connectOk, .text plainTicker] ∧
      KeepsReconnecting 0 (start (MarketArena.new 1 1 (by decide)))
        [.connectError, .wake, .connectOk, .text plainTicker] := by
  have hclose : Event.closeFrame ∉ [Event.connectError, .wake, .connectOk, .text plainTicker] := by
    simp
  refine ⟨hclose, (keeps_reconnecting_iff 0 _ _ hclose).mpr ?_⟩
  intro before e after heq hend
  have hmem : e ∈ [Event.connectError, .wake, .connectOk, .text plainTicker] := by
    rw [heq]
    simp
  rcases hend with rfl | rfl <;> simp at hmem

/-- The first stream that ends is the last. -/
theorem ended_stream_returns :
    ¬ KeepsReconnecting 0 (start (MarketArena.new 1 1 (by decide))) [.connectOk, .streamEnd] := by
  intro h
  have hwaiting := h.reconnects [.connectOk] .streamEnd [] rfl (Or.inr rfl) rfl
  exact absurd hwaiting (by decide)

end WsListener

end HftArb
