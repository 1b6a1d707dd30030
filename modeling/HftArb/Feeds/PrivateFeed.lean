import HftArb.Feeds.TickerParser
import HftArb.Foundations.Runs
import HftArb.Foundations.Utf8

/-!
# The private feed and its status

The private feed of an exchange reports executions and balances.  `start_listening` sets the status
of the exchange and spawns a task that connects, reads frames, and waits before it connects again.
`stop_listening` resets the status from outside.

The status is written in three places only: at the start, when a connection ends, and by a stop.  It
is not set again when a later connection opens, it stays set when the first connection fails, and a
stop neither ends the task nor keeps it from sending.  `status_truthful_iff` says which runs these
gaps do not show in.

The task is a state machine driven by the events of its socket; an event that cannot happen in a
phase changes nothing.  Sending to the receiver of the events takes one step, and it fails when the
receiver is gone.
-/

namespace HftArb

namespace PrivateFeed

open Runs TickerParser

/-! ## Messages -/

/-- The bytes of a text. -/
def utf8 (text : String) : List UInt8 := text.toByteArray.data.toList

/-- Where the search for a member stands: before a quote, after one, after the letter of the key,
after its closing quote, after the colon. -/
inductive Point
  | seek
  | quote
  | key
  | name
  | colon

/-- A byte at which the search starts again. -/
def restart (c : UInt8) : Point := if c == quote then .quote else .seek

/-- The bytes from the value of a one-letter key on: the first byte behind the colon that is no
space, if it is accepted. -/
def findValue (isSpace accepts : UInt8 → Bool) (key : UInt8) :
    Point → List UInt8 → Option (List UInt8)
  | _, [] => none
  | .seek, c :: rest => findValue isSpace accepts key (restart c) rest
  | .quote, c :: rest => findValue isSpace accepts key (if c == key then .key else restart c) rest
  | .key, c :: rest => findValue isSpace accepts key (if c == quote then .name else .seek) rest
  | .name, c :: rest =>
    findValue isSpace accepts key (if c == colon then .colon else restart c) rest
  | .colon, c :: rest =>
    if isSpace c then findValue isSpace accepts key .colon rest
    else if accepts c then some (c :: rest)
    else findValue isSpace accepts key (restart c) rest

/-- The text up to the next quote. -/
def quotedText (bytes : List UInt8) : Option (List UInt8) :=
  let body := bytes.takeWhile (· ≠ quote)
  if body.length = bytes.length then none else if Utf8.Valid body then some body else none

/-- `extract_json_string`. -/
def extractJsonString (payload : List UInt8) (key : UInt8) : Option (List UInt8) :=
  (findValue (· == 32) (· == quote) key .seek payload).bind fun value => quotedText value.tail

/-- What the parser uses of floating-point numbers. -/
structure FloatOps (F : Type) where
  zero : F
  /-- `str::parse::<f64>`. -/
  parse : List UInt8 → Option F
  /-- The cast to `u64`. -/
  toU64 : F → UInt64

variable {F : Type} (float : FloatOps F)

/-- `extract_json_f64`. -/
def extractJsonF64 (payload : List UInt8) (key : UInt8) : Option F :=
  (findValue (fun c => c == 32 || c == 10) (fun _ => true) key .seek payload).bind fun value =>
    if value.head? = some quote then (quotedText value.tail).bind float.parse
    else float.parse (value.takeWhile fun c => isDigit c || c == dot || c == 45)

/-- A report of an execution; texts are their bytes. -/
structure ExecutionReport (F : Type) where
  orderId : List UInt8
  clientOrderId : Option (List UInt8)
  symbol : List UInt8
  side : List UInt8
  filledQuantity : F
  avgPrice : F
  status : List UInt8
  timestamp : UInt64
  commission : F
  commissionAsset : List UInt8

/-- A new balance of an asset. -/
structure BalanceUpdate (F : Type) where
  asset : List UInt8
  freeBalance : F
  lockedBalance : F
  timestamp : UInt64

/-- `parse_execution_report`, which always answers. -/
def parseExecutionReport (payload : List UInt8) : ExecutionReport F where
  orderId := (extractJsonString payload 105).getD []
  clientOrderId := extractJsonString payload 99
  symbol := (extractJsonString payload 115).getD []
  side := (extractJsonString payload 83).getD []
  filledQuantity := (extractJsonF64 float payload 108).getD float.zero
  avgPrice := (extractJsonF64 float payload 76).getD float.zero
  status := (extractJsonString payload 88).getD []
  timestamp := float.toU64 ((extractJsonF64 float payload 84).getD float.zero)
  commission := (extractJsonF64 float payload 110).getD float.zero
  commissionAsset := (extractJsonString payload 78).getD []

/-- `parse_balance_update`, which always answers. -/
def parseBalanceUpdate (payload : List UInt8) : BalanceUpdate F where
  asset := (extractJsonString payload 97).getD []
  freeBalance := (extractJsonF64 float payload 102).getD float.zero
  lockedBalance := (extractJsonF64 float payload 108).getD float.zero
  timestamp := float.toU64 ((extractJsonF64 float payload 69).getD float.zero)

/-- What the feed sends to the strategy engine. -/
inductive PrivateFeedEvent (F : Type)
  | executionReport (report : ExecutionReport F)
  | balanceUpdate (update : BalanceUpdate F)
  | connected (exchange : String)
  | disconnected (exchange reason : String)

/-- The event reports an execution or a balance. -/
def PrivateFeedEvent.IsReport : PrivateFeedEvent F → Prop
  | .executionReport _ => True
  | .balanceUpdate _ => True
  | .connected _ => False
  | .disconnected _ _ => False

/-- `WS_MAX_MESSAGE_SIZE`. -/
def wsMaxMessageSize : ℕ := 65536

/-- The message is taken for a report of an execution or of a balance. -/
def reportOf (payload : List UInt8) : Option (PrivateFeedEvent F) :=
  if wsMaxMessageSize < payload.length then none
  else
    match extractJsonString payload 101 with
    | none => none
    | some eventType =>
      if eventType = utf8 "executionReport" then
        some (.executionReport (parseExecutionReport float payload))
      else if eventType = utf8 "outboundAccountPosition" ∨ eventType = utf8 "balanceUpdate" then
        some (.balanceUpdate (parseBalanceUpdate float payload))
      else none

/-! ## The task -/

/-- `MAX_CONSECUTIVE_FAILURES`. -/
def maxConsecutiveFailures : ℕ := 100

/-- Where the task is. -/
inductive Phase
  | connecting
  | connected
  | waiting
  | ended
  deriving DecidableEq

/-- The task, the status of every exchange, and whether the receiver of the events is there. -/
structure Feed where
  phase : Phase
  consecutiveFailures : ℕ
  activeConnections : String → Bool
  receiverAlive : Bool

/-- `is_active`. -/
def Feed.isActive (s : Feed) (exchange : String) : Bool := s.activeConnections exchange

/-- What can happen: the outcome of a connection attempt, a frame or the end of the stream, a tick
of the ping timer with its outcome, the end of a wait, a call of `stop_listening`, or that the
receiver of the events goes away. -/
inductive Input
  | connectOk
  | connectError
  | connectTimeout
  | text (payload : List UInt8)
  | ping
  | pong
  | otherFrame
  | close
  | readError
  | endOfStream
  | pingTick (pongTimeout sendFails : Bool)
  | wake
  | stop (exchange reason : String)
  | dropReceiver

/-- What a step shows: a socket opens, or an event is sent. -/
inductive Output (F : Type)
  | opened
  | sent (event : PrivateFeedEvent F)

/-- A report of an execution or a balance is sent. -/
def Output.IsReport : Output F → Prop
  | .opened => False
  | .sent event => event.IsReport

/-- Send an event; nothing arrives without a receiver. -/
def Feed.send (s : Feed) (event : PrivateFeedEvent F) : List (Output F) :=
  if s.receiverAlive then [.sent event] else []

/-- Count a failure, and wait or give up. -/
def Feed.backOff (s : Feed) (exchange : String) : Feed × List (Output F) :=
  if maxConsecutiveFailures < s.consecutiveFailures + 1 then
    ({ s with phase := .ended, consecutiveFailures := s.consecutiveFailures + 1 },
      s.send (.disconnected exchange "max retries exceeded"))
  else ({ s with phase := .waiting, consecutiveFailures := s.consecutiveFailures + 1 }, [])

/-- A connection ends: the status is reset before the task backs off. -/
def Feed.disconnect (s : Feed) (exchange : String) : Feed × List (Output F) :=
  let reset : Feed :=
    { s with activeConnections := Function.update s.activeConnections exchange false }
  let backedOff : Feed × List (Output F) := reset.backOff exchange
  (backedOff.1, s.send (.disconnected exchange "stream ended") ++ backedOff.2)

/-- A text frame; the task ends when it cannot send. -/
def Feed.readText (s : Feed) (payload : List UInt8) : Feed × List (Output F) :=
  match reportOf float payload with
  | none => (s, [])
  | some event => (if s.receiverAlive then s else { s with phase := .ended }, s.send event)

/-- What happens next to the feed of an exchange. -/
def step (exchange : String) (s : Feed) : Input → Feed × List (Output F)
  | .connectOk =>
    if s.phase = .connecting then
      ({ s with phase := .connected, consecutiveFailures := 0 }, [.opened])
    else (s, [])
  | .connectError => if s.phase = .connecting then s.backOff exchange else (s, [])
  | .connectTimeout => if s.phase = .connecting then s.backOff exchange else (s, [])
  | .text payload => if s.phase = .connected then s.readText float payload else (s, [])
  | .ping => (s, [])
  | .pong => (s, [])
  | .otherFrame => (s, [])
  | .close => if s.phase = .connected then s.disconnect exchange else (s, [])
  | .readError => if s.phase = .connected then s.disconnect exchange else (s, [])
  | .endOfStream => if s.phase = .connected then s.disconnect exchange else (s, [])
  | .pingTick pongTimeout sendFails =>
    if s.phase = .connected ∧ (pongTimeout = true ∨ sendFails = true) then s.disconnect exchange
    else (s, [])
  | .wake => if s.phase = .waiting then ({ s with phase := .connecting }, []) else (s, [])
  | .stop other reason =>
    ({ s with activeConnections := Function.update s.activeConnections other false },
      s.send (.disconnected other reason))
  | .dropReceiver => ({ s with receiverAlive := false }, [])

/-- The listener before a feed is started: the exchanges it is configured for. -/
structure PrivateWsFeedListener where
  configs : List String
  activeConnections : String → Bool
  receiverAlive : Bool

/-- `start_listening`: nothing happens for an exchange without a configuration. -/
def PrivateWsFeedListener.startListening (listener : PrivateWsFeedListener) (exchange : String) :
    Option (Feed × List (Output F)) :=
  if exchange ∈ listener.configs then
    let feed : Feed :=
      { phase := .connecting
        consecutiveFailures := 0
        activeConnections := Function.update listener.activeConnections exchange true
        receiverAlive := listener.receiverAlive }
    some (feed, feed.send (.connected exchange))
  else none

/-! ## The status of an exchange -/

section Status

variable (exchange : String)

/-- `stop_listening` was called for the exchange. -/
def Stopped (before : List Input) : Prop := ∃ reason, .stop exchange reason ∈ before

/-- Outside of connection attempts, the exchange is active exactly while its socket is open and it
was not stopped. -/
def Truthful (before : List Input) (s : Feed) : Prop :=
  s.phase ≠ .connecting →
    (s.isActive exchange = true ↔ s.phase = .connected ∧ ¬ Stopped exchange before)

/-- After every part of a run the status is truthful, and no report follows a stop. -/
def StatusHolds (feed : Feed) (inputs : List Input) : Prop :=
  ∀ before after, inputs = before ++ after →
    Truthful exchange before (runState (step float exchange) feed before) ∧
      (Stopped exchange before →
        ∀ out ∈ runTrace (step float exchange) (runState (step float exchange) feed before) after,
          ¬ out.IsReport)

/-- The next input does not meet a gap in how the status is kept, after the inputs `before`, which
emitted `trace` and led to `s`: before a stop, the first connection attempt succeeds and no later
one does; a report is read before a stop, or when nobody is there to receive it after one. -/
def Harmless (before : List Input) (trace : List (Output F)) (s : Feed) : Input → Prop
  | .connectOk => s.phase = .connecting → Stopped exchange before ∨ .opened ∉ trace
  | .connectError => s.phase = .connecting → Stopped exchange before ∨ .opened ∈ trace
  | .connectTimeout => s.phase = .connecting → Stopped exchange before ∨ .opened ∈ trace
  | .text payload =>
    s.phase = .connected → reportOf float payload ≠ none →
      (s.receiverAlive = true ↔ ¬ Stopped exchange before)
  | _ => True

/-- What holds of the status, phase by phase, as long as every input is harmless. -/
def Invariant (before : List Input) (trace : List (Output F)) (s : Feed) : Prop :=
  match s.phase with
  | .connecting => s.isActive exchange = true ↔ ¬ Stopped exchange before ∧ .opened ∉ trace
  | .connected => (s.isActive exchange = true ↔ ¬ Stopped exchange before) ∧ .opened ∈ trace
  | .waiting => s.isActive exchange = false ∧ (¬ Stopped exchange before → .opened ∈ trace)
  | .ended => s.isActive exchange = false

/-- What one step has to keep: the status is truthful after it, and a stopped feed reports
nothing. -/
def StepHolds (before : List Input) (s : Feed) (a : Input) : Prop :=
  Truthful exchange (before ++ [a]) (step float exchange s a).1 ∧
    (Stopped exchange before → ∀ out ∈ (step float exchange s a).2, ¬ out.IsReport)

variable {exchange} {before : List Input} {trace : List (Output F)} {s : Feed} {a : Input}

/-- What the task forwards are reports. -/
lemma isReport_of_reportOf {payload : List UInt8} {event : PrivateFeedEvent F}
    (h : reportOf float payload = some event) : event.IsReport := by
  unfold reportOf at h
  split_ifs at h
  cases htype : extractJsonString payload 101 with
  | none => simp [htype] at h
  | some eventType =>
    simp only [htype] at h
    split_ifs at h <;> obtain rfl := Option.some.inj h <;> trivial

lemma stopped_append_singleton :
    Stopped exchange (before ++ [a]) ↔
      Stopped exchange before ∨ ∃ reason, a = .stop exchange reason := by
  simp only [Stopped, List.mem_append, List.mem_singleton, exists_or, eq_comm]

/-- An input that is no stop of the exchange leaves it stopped or not. -/
lemma stopped_append_of_ne (ha : ∀ reason, a ≠ .stop exchange reason) :
    Stopped exchange (before ++ [a]) ↔ Stopped exchange before := by
  rw [stopped_append_singleton]
  exact or_iff_left fun ⟨reason, heq⟩ => ha reason heq

lemma mem_send_iff {event : PrivateFeedEvent F} {out : Output F} :
    out ∈ s.send event ↔ s.receiverAlive = true ∧ out = .sent event := by
  cases halive : s.receiverAlive <;> simp [Feed.send, halive]

/-- No socket opens and no report is sent. -/
def Quiet (outs : List (Output F)) : Prop := ∀ out ∈ outs, ¬ out.IsReport ∧ out ≠ .opened

lemma quiet_nil : Quiet ([] : List (Output F)) := by simp [Quiet]

lemma quiet_send_disconnected (s : Feed) (exchange reason : String) :
    Quiet (s.send (.disconnected exchange reason) : List (Output F)) := by
  intro out hout
  obtain ⟨-, rfl⟩ := mem_send_iff.mp hout
  exact ⟨id, by simp⟩

lemma Quiet.append {outs outs' : List (Output F)} (h : Quiet outs) (h' : Quiet outs') :
    Quiet (outs ++ outs') := by
  intro out hout
  exact (List.mem_append.mp hout).elim (h out) (h' out)

/-- Quiet events open no socket. -/
lemma Quiet.opened_mem_append {outs : List (Output F)} (h : Quiet outs) :
    Output.opened ∈ trace ++ outs ↔ Output.opened ∈ trace := by
  rw [List.mem_append]
  exact or_iff_left fun hmem => (h _ hmem).2 rfl

lemma quiet_backOff (s : Feed) (exchange : String) :
    Quiet (s.backOff exchange : Feed × List (Output F)).2 := by
  unfold Feed.backOff
  split
  · exact quiet_send_disconnected s exchange _
  · exact quiet_nil

lemma quiet_disconnect (s : Feed) (exchange : String) :
    Quiet (s.disconnect exchange : Feed × List (Output F)).2 :=
  (quiet_send_disconnected s exchange _).append (quiet_backOff _ exchange)

/-- The invariant depends on the inputs only through the stops, on the events only through the
sockets, and on the feed only through its phase and status. -/
lemma Invariant.congr {before' : List Input} {trace' : List (Output F)} {s' : Feed}
    (h : Invariant exchange before trace s) (hphase : s'.phase = s.phase)
    (hactive : s'.isActive exchange = s.isActive exchange)
    (hstopped : Stopped exchange before' ↔ Stopped exchange before)
    (hopened : Output.opened ∈ trace' ↔ Output.opened ∈ trace) :
    Invariant exchange before' trace' s' := by
  simpa only [Invariant, hphase, hactive, hstopped, hopened] using h

/-- A feed that backs off with its status reset. -/
lemma invariant_backOff (hactive : s.isActive exchange = false)
    (hopened : ¬ Stopped exchange before → .opened ∈ trace) :
    Invariant exchange before trace (s.backOff exchange : Feed × List (Output F)).1 := by
  unfold Feed.backOff
  split
  · exact hactive
  · exact ⟨hactive, hopened⟩

/-- A connection that ends resets the status. -/
lemma invariant_disconnect (hopened : .opened ∈ trace) :
    Invariant exchange before trace (s.disconnect exchange : Feed × List (Output F)).1 :=
  invariant_backOff (by simp [Feed.isActive]) fun _ => hopened

/-- The invariant is all that the status needs. -/
lemma Invariant.truthful (h : Invariant exchange before trace s) : Truthful exchange before s := by
  intro hphase
  unfold Invariant at h
  cases hs : s.phase with
  | connecting => exact absurd hs hphase
  | connected =>
    rw [hs] at h
    rw [h.1, and_iff_right rfl]
  | waiting =>
    rw [hs] at h
    simp [h.1]
  | ended =>
    rw [hs] at h
    simp [h]

lemma invariant_of_connecting (hphase : s.phase = .connecting) :
    Invariant exchange before trace s ↔
      (s.isActive exchange = true ↔ ¬ Stopped exchange before ∧ .opened ∉ trace) := by
  simp only [Invariant, hphase]

lemma invariant_of_connected (hphase : s.phase = .connected) :
    Invariant exchange before trace s ↔
      (s.isActive exchange = true ↔ ¬ Stopped exchange before) ∧ .opened ∈ trace := by
  simp only [Invariant, hphase]

lemma invariant_of_waiting (hphase : s.phase = .waiting) :
    Invariant exchange before trace s ↔
      s.isActive exchange = false ∧ (¬ Stopped exchange before → .opened ∈ trace) := by
  simp only [Invariant, hphase]

/-- A step that changes nothing keeps the invariant. -/
lemma Invariant.idle (h : Invariant exchange before trace s)
    (ha : ∀ reason, a ≠ .stop exchange reason) :
    Invariant exchange (before ++ [a]) (trace ++ []) s :=
  h.congr rfl rfl (stopped_append_of_ne ha) (by simp)

/-- A failed connection attempt keeps the invariant if it comes after a stop or a connection. -/
lemma Invariant.backOff (h : Invariant exchange before trace s) (hphase : s.phase = .connecting)
    (ha : ∀ reason, a ≠ .stop exchange reason)
    (hharmless : Stopped exchange before ∨ .opened ∈ trace) :
    Invariant exchange (before ++ [a])
      (trace ++ (s.backOff exchange : Feed × List (Output F)).2)
      (s.backOff exchange : Feed × List (Output F)).1 := by
  have hactive : s.isActive exchange = false := by
    rw [← Bool.not_eq_true, (invariant_of_connecting hphase).mp h]
    tauto
  have hback : Invariant exchange before trace (s.backOff exchange : Feed × List (Output F)).1 :=
    invariant_backOff hactive fun hstopped => hharmless.resolve_left hstopped
  exact hback.congr rfl rfl (stopped_append_of_ne ha) (quiet_backOff s exchange).opened_mem_append

/-- The end of a connection keeps the invariant. -/
lemma Invariant.disconnect (h : Invariant exchange before trace s) (hphase : s.phase = .connected)
    (ha : ∀ reason, a ≠ .stop exchange reason) :
    Invariant exchange (before ++ [a])
      (trace ++ (s.disconnect exchange : Feed × List (Output F)).2)
      (s.disconnect exchange : Feed × List (Output F)).1 := by
  have hreset : Invariant exchange before trace
      (s.disconnect exchange : Feed × List (Output F)).1 :=
    invariant_disconnect ((invariant_of_connected hphase).mp h).2
  exact hreset.congr rfl rfl (stopped_append_of_ne ha)
    (quiet_disconnect s exchange).opened_mem_append

/-- A new socket keeps the invariant if it is the first one, or the exchange is stopped. -/
lemma Invariant.connectOk (h : Invariant exchange before trace s) (hphase : s.phase = .connecting)
    (hharmless : Stopped exchange before ∨ .opened ∉ trace) :
    Invariant exchange (before ++ [.connectOk]) (trace ++ [.opened])
      { s with phase := .connected, consecutiveFailures := 0 } := by
  rw [invariant_of_connecting hphase] at h
  refine ⟨?_, by simp⟩
  rw [stopped_append_of_ne (by simp)]
  refine h.trans ⟨And.left, fun hstopped => ⟨hstopped, hharmless.resolve_left hstopped⟩⟩

/-- The end of a wait keeps the invariant: the status is reset, and it stays so. -/
lemma Invariant.wake (h : Invariant exchange before trace s) (hphase : s.phase = .waiting) :
    Invariant exchange (before ++ [.wake]) (trace ++ []) { s with phase := .connecting } := by
  obtain ⟨hactive, hopened⟩ := (invariant_of_waiting hphase).mp h
  rw [invariant_of_connecting rfl, stopped_append_of_ne (by simp), List.append_nil]
  refine iff_of_false (by simpa [Feed.isActive] using hactive) ?_
  rintro ⟨hstopped, hnot⟩
  exact hnot (hopened hstopped)

/-- A stop resets the status of its exchange in every phase. -/
lemma Invariant.stop (h : Invariant exchange before trace s) (other reason : String) :
    Invariant exchange (before ++ [.stop other reason])
      (trace ++ s.send (.disconnected other reason))
      { s with activeConnections := Function.update s.activeConnections other false } := by
  have hopened : Output.opened ∈ trace ++ s.send (.disconnected other reason) ↔
      Output.opened ∈ trace := (quiet_send_disconnected s other reason).opened_mem_append
  by_cases hother : other = exchange
  · subst hother
    have hstopped : Stopped other (before ++ [.stop other reason]) :=
      stopped_append_singleton.mpr (Or.inr ⟨reason, rfl⟩)
    unfold Invariant at h ⊢
    cases hs : s.phase <;> simp_all [Feed.isActive]
  · refine h.congr rfl ?_ (stopped_append_of_ne ?_) hopened
    · simp [Feed.isActive, Ne.symm hother]
    · simp [hother]

/-- A text frame keeps the invariant unless it is a report that cannot be delivered before a
stop. -/
lemma Invariant.readText {payload : List UInt8} (h : Invariant exchange before trace s)
    (hphase : s.phase = .connected)
    (hharmless : reportOf float payload ≠ none →
      (s.receiverAlive = true ↔ ¬ Stopped exchange before)) :
    Invariant exchange (before ++ [.text payload]) (trace ++ (s.readText float payload).2)
      (s.readText float payload).1 := by
  obtain ⟨hactive, hopened⟩ := (invariant_of_connected hphase).mp h
  unfold Feed.readText
  cases hreport : reportOf float payload with
  | none => exact h.idle (by simp)
  | some event =>
    have halive := hharmless (by simp [hreport])
    have hopened' : Output.opened ∈ trace ++ s.send event := List.mem_append_left _ hopened
    by_cases hs : s.receiverAlive = true
    · simp only [hs, if_true]
      exact h.congr rfl rfl (stopped_append_of_ne (by simp)) (iff_of_true hopened' hopened)
    · have hinactive : s.isActive exchange = false := by
        rw [← Bool.not_eq_true, hactive, ← halive]
        exact hs
      rw [if_neg hs]
      exact hinactive

/-- What a step can do, with the input and the phase it needs. -/
inductive Move (exchange : String) (s : Feed) : Input → Feed × List (Output F) → Prop
  | opens (hphase : s.phase = .connecting) :
    Move exchange s .connectOk
      ({ s with phase := .connected, consecutiveFailures := 0 }, [.opened])
  | fails {a : Input} (hphase : s.phase = .connecting)
      (ha : a = .connectError ∨ a = .connectTimeout) :
    Move exchange s a (s.backOff exchange)
  | reads (payload : List UInt8) (hphase : s.phase = .connected) :
    Move exchange s (.text payload) (s.readText float payload)
  | ends {a : Input} (hphase : s.phase = .connected) (ha : ∀ reason, a ≠ .stop exchange reason) :
    Move exchange s a (s.disconnect exchange)
  | wakes (hphase : s.phase = .waiting) :
    Move exchange s .wake ({ s with phase := .connecting }, [])
  | stops (other reason : String) :
    Move exchange s (.stop other reason)
      ({ s with activeConnections := Function.update s.activeConnections other false },
        s.send (.disconnected other reason))
  | drops : Move exchange s .dropReceiver ({ s with receiverAlive := false }, [])
  | idle {a : Input} (ha : ∀ reason, a ≠ .stop exchange reason) : Move exchange s a (s, [])

lemma step_move (exchange : String) (s : Feed) (a : Input) :
    Move float exchange s a (step float exchange s a) := by
  cases a with
  | stop other reason => exact .stops other reason
  | dropReceiver => exact .drops
  | ping => exact .idle (by simp)
  | pong => exact .idle (by simp)
  | otherFrame => exact .idle (by simp)
  | _ =>
    simp only [step]
    split_ifs with h
    · first
      | exact .opens h
      | exact .fails h (by simp)
      | exact .reads _ h
      | exact .ends h (by simp)
      | exact .ends h.1 (by simp)
      | exact .wakes h
    · exact .idle (by simp)

/-- A harmless input keeps the invariant. -/
lemma Invariant.step (h : Invariant exchange before trace s)
    (ha : Harmless float exchange before trace s a) :
    Invariant exchange (before ++ [a]) (trace ++ (step float exchange s a).2)
      (step float exchange s a).1 := by
  have hmove := step_move float exchange s a
  generalize PrivateFeed.step float exchange s a = result at hmove ⊢
  cases hmove with
  | opens hphase => exact h.connectOk hphase (ha hphase)
  | fails hphase hattempt =>
    rcases hattempt with rfl | rfl
    · exact h.backOff hphase (by simp) (ha hphase)
    · exact h.backOff hphase (by simp) (ha hphase)
  | reads payload hphase => exact h.readText float hphase (ha hphase)
  | ends hphase hstop => exact h.disconnect hphase hstop
  | wakes hphase => exact h.wake hphase
  | stops other reason => exact h.stop other reason
  | drops => exact h.congr rfl rfl (stopped_append_of_ne (by simp)) (by simp)
  | idle hstop => exact h.idle hstop

/-- The only step that sends a report is a frame read while connected. -/
lemma exists_text_of_isReport {out : Output F} (hout : out ∈ (step float exchange s a).2)
    (hreport : out.IsReport) :
    ∃ payload, a = .text payload ∧ s.phase = .connected ∧ reportOf float payload ≠ none ∧
      s.receiverAlive = true := by
  have hquiet : ∀ {outs : List (Output F)}, Quiet outs → out ∉ outs := by
    intro outs hquiet hmem
    exact (hquiet out hmem).1 hreport
  have hmove := step_move float exchange s a
  generalize PrivateFeed.step float exchange s a = result at hmove hout
  cases hmove with
  | opens hphase =>
    rw [List.mem_singleton] at hout
    rw [hout] at hreport
    exact hreport.elim
  | fails hphase hattempt => exact absurd hout (hquiet (quiet_backOff s exchange))
  | reads payload hphase =>
    refine ⟨payload, rfl, hphase, ?_⟩
    unfold Feed.readText at hout
    cases hevent : reportOf float payload with
    | none => simp [hevent] at hout
    | some event =>
      rw [hevent] at hout
      exact ⟨by simp, (mem_send_iff.mp hout).1⟩
  | ends hphase hstop => exact absurd hout (hquiet (quiet_disconnect s exchange))
  | wakes hphase => exact absurd hout (hquiet quiet_nil)
  | stops other reason => exact absurd hout (hquiet (quiet_send_disconnected s other reason))
  | drops => exact absurd hout (hquiet quiet_nil)
  | idle hstop => exact absurd hout (hquiet quiet_nil)

lemma backOff_isActive (s : Feed) (exchange other : String) :
    (s.backOff exchange : Feed × List (Output F)).1.isActive other = s.isActive other := by
  unfold Feed.backOff
  split <;> rfl

lemma backOff_phase (s : Feed) (exchange : String) :
    (s.backOff exchange : Feed × List (Output F)).1.phase = .waiting ∨
      (s.backOff exchange : Feed × List (Output F)).1.phase = .ended := by
  unfold Feed.backOff
  split
  · exact Or.inr rfl
  · exact Or.inl rfl

/-- A feed that waits or has ended is not active, if its status is truthful. -/
lemma Truthful.not_isActive (h : Truthful exchange before s)
    (hphase : s.phase = .waiting ∨ s.phase = .ended) : ¬ s.isActive exchange = true := by
  intro hactive
  rcases hphase with hphase | hphase
  · simpa [hphase] using (h (by simp [hphase])).mp hactive
  · simpa [hphase] using (h (by simp [hphase])).mp hactive

/-- A failed connection attempt after which the status is truthful comes after a stop or a
connection. -/
lemma Invariant.of_truthful_backOff (h : Invariant exchange before trace s)
    (hphase : s.phase = .connecting)
    (htruthful : Truthful exchange (before ++ [a])
      (s.backOff exchange : Feed × List (Output F)).1) :
    Stopped exchange before ∨ .opened ∈ trace := by
  have hinactive := htruthful.not_isActive (backOff_phase s exchange)
  rw [backOff_isActive, (invariant_of_connecting hphase).mp h] at hinactive
  tauto

/-- A report that is read where the status stays truthful, and where a stopped feed is silent, is
received before a stop or lost after one. -/
lemma Invariant.of_stepHolds_readText {payload : List UInt8}
    (h : Invariant exchange before trace s) (hphase : s.phase = .connected)
    (hreport : reportOf float payload ≠ none)
    (hstep : StepHolds float exchange before s (.text payload)) :
    s.receiverAlive = true ↔ ¬ Stopped exchange before := by
  obtain ⟨event, hevent⟩ := Option.ne_none_iff_exists'.mp hreport
  obtain ⟨htruthful, hsilent⟩ := hstep
  simp only [PrivateFeed.step, hphase, if_true, Feed.readText, hevent] at htruthful hsilent
  constructor
  · -- a report of a stopped feed would be received
    intro halive hstopped
    refine hsilent hstopped (.sent event) (mem_send_iff.mpr ⟨halive, rfl⟩) ?_
    exact isReport_of_reportOf float hevent
  · -- the task ends when nobody receives the report, and the status is left as it is
    intro hstopped
    by_contra halive
    rw [if_neg halive] at htruthful
    refine htruthful.not_isActive (Or.inr rfl) ?_
    exact ((invariant_of_connected hphase).mp h).1.mpr hstopped

/-- Where a step keeps the status truthful and a stopped feed silent, the input was harmless. -/
lemma Invariant.harmless_of_stepHolds (h : Invariant exchange before trace s)
    (hstep : StepHolds float exchange before s a) :
    Harmless float exchange before trace s a := by
  cases a with
  | connectOk =>
    intro hphase
    have htruthful := hstep.1
    simp only [PrivateFeed.step, hphase, if_true] at htruthful
    have hactive := htruthful (by simp)
    rw [stopped_append_of_ne (by simp), and_iff_right rfl] at hactive
    have hbefore := (invariant_of_connecting hphase).mp h
    by_cases hstopped : Stopped exchange before
    · exact Or.inl hstopped
    · exact Or.inr (hbefore.mp (hactive.mpr hstopped)).2
  | connectError =>
    intro hphase
    have htruthful := hstep.1
    simp only [PrivateFeed.step, hphase, if_true] at htruthful
    exact h.of_truthful_backOff hphase htruthful
  | connectTimeout =>
    intro hphase
    have htruthful := hstep.1
    simp only [PrivateFeed.step, hphase, if_true] at htruthful
    exact h.of_truthful_backOff hphase htruthful
  | text payload =>
    intro hphase hreport
    exact h.of_stepHolds_readText float hphase hreport hstep
  | _ => trivial

/-- A step keeps the status truthful and a stopped feed silent exactly when its input is
harmless. -/
lemma Invariant.stepHolds_iff (h : Invariant exchange before trace s) :
    StepHolds float exchange before s a ↔ Harmless float exchange before trace s a := by
  refine ⟨h.harmless_of_stepHolds float, fun ha => ⟨(h.step float ha).truthful, ?_⟩⟩
  intro hstopped out hout hreport
  obtain ⟨payload, rfl, hphase, hreport, halive⟩ := exists_text_of_isReport float hout hreport
  exact (ha hphase hreport).mp halive hstopped

/-- The status over a run, step by step. -/
lemma statusHolds_iff_stepHolds {feed : Feed} (hfeed : feed.phase = .connecting)
    (inputs : List Input) :
    StatusHolds float exchange feed inputs ↔
      ∀ before a after, inputs = before ++ a :: after →
        StepHolds float exchange before (runState (step float exchange) feed before) a := by
  constructor
  · rintro h before a after rfl
    refine ⟨?_, ?_⟩
    · have htruthful := (h (before ++ [a]) after (by simp)).1
      rwa [runState_append] at htruthful
    · intro hstopped out hout
      refine (h before (a :: after) rfl).2 hstopped out ?_
      rw [runTrace_cons]
      exact List.mem_append_left _ hout
  · intro h before after heq
    constructor
    · refine (forall_prefix_iff (P := fun before =>
        Truthful exchange before (runState (step float exchange) feed before))).mpr ?_ before
          after heq
      refine ⟨fun hphase => absurd hfeed hphase, ?_⟩
      intro before a after heq
      rw [runState_append]
      exact (h before a after heq).1
    · intro hstopped out hout
      obtain ⟨pre, a, post, rfl, hmem⟩ := mem_runTrace_iff.mp hout
      rw [← runState_append] at hmem
      refine (h (before ++ pre) a post (by simp [heq])).2 ?_ out hmem
      obtain ⟨reason, hreason⟩ := hstopped
      exact ⟨reason, List.mem_append_left _ hreason⟩

/-- A feed that was just started connects, and counts as active. -/
lemma startListening_eq_some {listener : PrivateWsFeedListener} {feed : Feed}
    {sent : List (Output F)} (hstart : listener.startListening exchange = some (feed, sent)) :
    feed.phase = .connecting ∧ feed.isActive exchange = true := by
  unfold PrivateWsFeedListener.startListening at hstart
  split_ifs at hstart with hconfig
  obtain ⟨rfl, -⟩ := Prod.mk.inj (Option.some.inj hstart)
  exact ⟨rfl, by simp [Feed.isActive]⟩

end Status

/-- After `start_listening` the status is truthful along a run, and nothing is reported after a
stop, exactly when every input of the run is harmless where it comes. -/
theorem status_truthful_iff (listener : PrivateWsFeedListener) (exchange : String) {feed : Feed}
    {sent : List (Output F)} (hstart : listener.startListening exchange = some (feed, sent))
    (inputs : List Input) :
    StatusHolds float exchange feed inputs ↔
      ∀ before a after, inputs = before ++ a :: after →
        Harmless float exchange before (runTrace (step float exchange) feed before)
          (runState (step float exchange) feed before) a := by
  obtain ⟨hphase, hactive⟩ := startListening_eq_some hstart
  rw [statusHolds_iff_stepHolds float hphase]
  -- the invariant of the history so far, which the harmless inputs carry along
  let I : List Input → Prop := fun before =>
    Invariant exchange before (runTrace (step float exchange) feed before)
      (runState (step float exchange) feed before)
  refine forall_split_congr (I := I) ?_ ?_ ?_ inputs
  · exact (invariant_of_connecting hphase).mpr (iff_of_true hactive (by simp [Stopped]))
  · intro before a hbefore
    exact hbefore.stepHolds_iff float
  · intro before a hbefore ha
    have hafter := hbefore.step float ha
    simpa only [I, runState_append, runTrace_append, runState_cons, runState_nil, runTrace_cons,
      runTrace_nil, List.append_nil] using hafter

/-- A listener for two exchanges, neither of which was started. -/
def twoExchangeListener : PrivateWsFeedListener where
  configs := ["binance", "bybit"]
  activeConnections := fun _ => false
  receiverAlive := true

/-- Rational numbers in place of floating-point ones, for texts without numbers. -/
def rationalOps : FloatOps ℚ where
  zero := 0
  parse := fun _ => none
  toU64 := fun x => UInt64.ofNat ⌊x⌋₊

/-- A balance update. -/
def balanceMessage : List UInt8 := utf8 "\x7b\"e\":\"balanceUpdate\",\"a\":\"BTC\"\x7d"

lemma reportOf_balanceMessage : reportOf rationalOps balanceMessage ≠ none := by
  have hevent : extractJsonString balanceMessage 101 = some (utf8 "balanceUpdate") := by
    decide +kernel
  have hlength : ¬ wsMaxMessageSize < balanceMessage.length := by decide +kernel
  have hname : utf8 "balanceUpdate" ≠ utf8 "executionReport" := by decide +kernel
  rw [reportOf, if_neg hlength, hevent]
  simp [hname]

/-- A balance update is received, the connection ends, and the exchange is stopped before the task
connects again. -/
theorem status_truthful_iff_stopBeforeReconnect :
    ∃ feed, ∃ sent : List (Output ℚ),
      twoExchangeListener.startListening "binance" = some (feed, sent) ∧
        StatusHolds rationalOps "binance" feed
          [.connectOk, .text balanceMessage, .close, .stop "binance" "shutdown", .wake,
            .connectOk] := by
  refine ⟨_, _, rfl, (status_truthful_iff rationalOps twoExchangeListener "binance" rfl _).mpr ?_⟩
  simp only [forall_split_cons]
  refine ⟨fun _ => Or.inr (by simp), fun _ _ => ?_, trivial, trivial, trivial, fun _ => Or.inl ?_,
    forall_split_nil⟩
  · exact iff_of_true rfl (by simp [Stopped])
  · exact ⟨"shutdown", by simp⟩

/-- The status stays set when the first attempt fails, it is not set when the task connects again,
and a balance update that is read after a stop is sent. -/
theorem status_not_truthful :
    ∃ feed, ∃ sent : List (Output ℚ),
      twoExchangeListener.startListening "binance" = some (feed, sent) ∧
        ¬ StatusHolds rationalOps "binance" feed [.connectError] ∧
        ¬ StatusHolds rationalOps "binance" feed [.connectOk, .close, .wake, .connectOk] ∧
        ¬ StatusHolds rationalOps "binance" feed
          [.connectOk, .stop "binance" "shutdown", .text balanceMessage] := by
  refine ⟨_, _, rfl, ?_, ?_, ?_⟩
  · intro h
    have htruthful := (h [.connectError] [] rfl).1 (by decide)
    have hconnected := (htruthful.mp rfl).1
    exact absurd hconnected (by decide)
  · intro h
    have htruthful := (h [.connectOk, .close, .wake, .connectOk] [] rfl).1 (by decide)
    have hactive := htruthful.mpr ⟨rfl, by simp [Stopped]⟩
    exact absurd hactive (by decide)
  · intro h
    have hsilent := (h [.connectOk, .stop "binance" "shutdown"] [.text balanceMessage] rfl).2
      ⟨"shutdown", by simp⟩
    obtain ⟨event, hevent⟩ := Option.ne_none_iff_exists'.mp reportOf_balanceMessage
    refine hsilent (.sent event) ?_ (isReport_of_reportOf rationalOps hevent)
    simp [PrivateFeed.step, Feed.readText, hevent, Feed.send, twoExchangeListener]

end PrivateFeed

end HftArb
