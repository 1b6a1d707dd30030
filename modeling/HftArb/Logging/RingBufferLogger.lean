import HftArb.Decimal
import HftArb.Foundations.RingWindow
import HftArb.Foundations.Runs

/-!
# The ring buffer logger

`ring_buffer_logger.rs` keeps trade log entries in a ring of 65536 slots.  `write_seq` and
`read_seq` are free-running 64-bit counters; a push takes the next write position, moves the read
position on when it would overwrite an unread entry, and stores the entry, and a pop takes the entry
at the read position.  Arithmetic on the counters wraps, as in the release build.

A run of operations is compared with a queue: `accepted` lists the entries that passed the level
filter, `departed` those returned or overwritten, and `BoundedFifo` says that the accepted entries
are the departed ones followed by the unread ones.  It holds as long as the sum `read_idx + 65536`
of a push does not wrap.
-/

namespace HftArb

open RingWindow Runs

/-- A log entry. -/
structure LogEvent where
  level : UInt8
  logId : UInt64
  timestampMs : UInt64
  deltaProfit : Decimal
  exchangeId : UInt16
  symbol : String
  side : String
  quantity : Decimal
  price : Decimal
  strategy : String
  deriving DecidableEq

/-- The level `LOG_LEVEL_DEBUG`, the initial minimum. -/
def logLevelDebug : UInt8 := 1

/-- The number of slots. -/
def ringBufferSize : UInt64 := 65536

/-- The mask that maps a position to its slot. -/
def ringBufferMask : UInt64 := ringBufferSize - 1

/-- The slots, the two counters and the level filter. -/
structure RingBufferLogger where
  buffer : ℕ → Option LogEvent
  writeSeq : UInt64
  readSeq : UInt64
  minLevel : UInt8

namespace RingBufferLogger

/-- The empty logger. -/
def new : RingBufferLogger :=
  { buffer := fun _ => none, writeSeq := 0, readSeq := 0, minLevel := logLevelDebug }

/-- Sets the minimum level. -/
def setLevel (s : RingBufferLogger) (level : UInt8) : RingBufferLogger :=
  { s with minLevel := level }

/-- The slot of a position. -/
def slot (idx : UInt64) : ℕ := (idx &&& ringBufferMask).toNat

/-- Stores an entry that passes the filter; every path of the source returns `Ok(())`. -/
def push (s : RingBufferLogger) (event : LogEvent) : RingBufferLogger :=
  if event.level < s.minLevel then s
  else
    let writeIdx := s.writeSeq
    let readIdx := s.readSeq
    { s with
      writeSeq := writeIdx + 1
      -- the read position skips the entry that is about to be overwritten
      readSeq :=
        if readIdx + ringBufferSize ≤ writeIdx then writeIdx - ringBufferSize + 1 else readIdx
      buffer := Function.update s.buffer (slot writeIdx) (some event) }

/-- Takes the entry at the read position, if it is behind the write position. -/
def pop (s : RingBufferLogger) : RingBufferLogger × Option LogEvent :=
  if s.writeSeq ≤ s.readSeq then (s, none)
  else
    ({ s with
      buffer := Function.update s.buffer (slot s.readSeq) none
      readSeq := s.readSeq + 1 }, s.buffer (slot s.readSeq))

/-- The number of unread entries, as a difference of the counters. -/
def unreadCount (s : RingBufferLogger) : ℕ := (s.writeSeq - s.readSeq).toNat

lemma pop_of_le {s : RingBufferLogger} (h : s.writeSeq.toNat ≤ s.readSeq.toNat) :
    s.pop = (s, none) :=
  if_pos (UInt64.le_iff_toNat_le.mpr h)

lemma pop_of_lt {s : RingBufferLogger} (h : s.readSeq.toNat < s.writeSeq.toNat) :
    s.pop = ({ s with
      buffer := Function.update s.buffer (slot s.readSeq) none
      readSeq := s.readSeq + 1 }, s.buffer (slot s.readSeq)) :=
  if_neg fun hle => absurd (UInt64.le_iff_toNat_le.mp hle) (by omega)

/-- The successor of a counter that is below another one. -/
lemma toNat_succ_of_lt {a b : UInt64} (h : a.toNat < b.toNat) : (a + 1).toNat = a.toNat + 1 := by
  have hb := b.toNat_lt
  rw [UInt64.toNat_add, UInt64.toNat_one, Nat.mod_eq_of_lt (by omega)]

/-- A pop that returns an entry moves the read position towards the write position. -/
lemma pop_decreases {s : RingBufferLogger} {e : LogEvent} (h : s.pop.2 = some e) :
    s.pop.1.writeSeq.toNat - s.pop.1.readSeq.toNat < s.writeSeq.toNat - s.readSeq.toNat := by
  rcases Nat.lt_or_ge s.readSeq.toNat s.writeSeq.toNat with hlt | hge
  · rw [pop_of_lt hlt]
    dsimp only
    rw [toNat_succ_of_lt hlt]
    omega
  · rw [pop_of_le hge] at h
    exact absurd h (by simp)

/-- Pops until there is nothing to return. -/
def drainAll (s : RingBufferLogger) : RingBufferLogger × List LogEvent :=
  match _h : s.pop.2 with
  | none => (s.pop.1, [])
  | some e => ((drainAll s.pop.1).1, e :: (drainAll s.pop.1).2)
termination_by s.writeSeq.toNat - s.readSeq.toNat
decreasing_by all_goals exact pop_decreases _h

lemma drainAll_of_none {s : RingBufferLogger} (h : s.pop.2 = none) :
    s.drainAll = (s.pop.1, []) := by
  rw [drainAll]
  split
  · rfl
  · simp_all

lemma drainAll_of_some {s : RingBufferLogger} {e : LogEvent} (h : s.pop.2 = some e) :
    s.drainAll = (s.pop.1.drainAll.1, e :: s.pop.1.drainAll.2) := by
  rw [drainAll]
  split
  · simp_all
  · simp_all

/-- The slots from the read position up to the write position. -/
def unread (s : RingBufferLogger) : List (Option LogEvent) :=
  window s.buffer 65536 s.readSeq.toNat s.writeSeq.toNat

/-! ## Runs of operations -/

/-- The operations on a logger. -/
inductive Op
  | push (event : LogEvent)
  | pop
  | drainAll
  | setLevel (level : UInt8)

/-- What an operation did with an entry. -/
inductive Event
  | accepted (event : LogEvent)
  | returned (event : LogEvent)
  | overwritten (event : LogEvent)

/-- The operation is a push. -/
def Op.isPush : Op → Bool
  | .push _ => true
  | _ => false

/-- The entry an event accepts. -/
def Event.accepted? : Event → Option LogEvent
  | .accepted e => some e
  | _ => none

/-- The entry that leaves the buffer with an event. -/
def Event.departed? : Event → Option LogEvent
  | .accepted _ => none
  | .returned e => some e
  | .overwritten e => some e

/-- The entries accepted in a trace, in push order. -/
def accepted (tr : List Event) : List LogEvent := tr.filterMap Event.accepted?

/-- The entries returned or overwritten in a trace, in the order in which they left. -/
def departed (tr : List Event) : List LogEvent := tr.filterMap Event.departed?

/-- The oldest unread entry, when 65536 entries are unread. -/
def crowdedOut (s : RingBufferLogger) : Option LogEvent :=
  if s.unreadCount = 65536 then s.unread.head?.join else none

/-- One operation and its events: a push that passes the filter accepts its entry, and overwrites
the oldest unread one when it finds 65536 of them. -/
def step (s : RingBufferLogger) : Op → RingBufferLogger × List Event
  | .push e =>
    (s.push e, if e.level < s.minLevel then [] else
      s.crowdedOut.toList.map Event.overwritten ++ [.accepted e])
  | .pop => (s.pop.1, s.pop.2.toList.map Event.returned)
  | .drainAll => (s.drainAll.1, s.drainAll.2.map Event.returned)
  | .setLevel level => (s.setLevel level, [])

/-- The logger after a run of operations on an empty one. -/
def after (ops : List Op) : RingBufferLogger := runState step new ops

/-- The events of a run of operations on an empty logger. -/
def history (ops : List Op) : List Event := runTrace step new ops

/-- The logger with this history is a bounded FIFO: the entries that left it are the first accepted
ones, each once and in push order, the others are unread, and the next pops return them in order. -/
structure BoundedFifo (s : RingBufferLogger) (tr : List Event) : Prop where
  order : (accepted tr).map some = (departed tr).map some ++ s.unread
  count : (departed tr).length + s.unreadCount = (accepted tr).length
  bound : s.unreadCount ≤ 65536
  pop_oldest : s.pop.2 = s.unread.head?.join
  drain_all : s.drainAll.2.map some = s.unread

@[simp] lemma accepted_append (tr tr' : List Event) :
    accepted (tr ++ tr') = accepted tr ++ accepted tr' :=
  List.filterMap_append

@[simp] lemma departed_append (tr tr' : List Event) :
    departed (tr ++ tr') = departed tr ++ departed tr' :=
  List.filterMap_append

@[simp] lemma accepted_returned (es : List LogEvent) : accepted (es.map .returned) = [] := by
  rw [accepted, List.filterMap_map]
  exact List.filterMap_none es

@[simp] lemma departed_returned (es : List LogEvent) : departed (es.map .returned) = es := by
  rw [departed, List.filterMap_map]
  exact List.filterMap_some

@[simp] lemma accepted_nil : accepted [] = [] := rfl

@[simp] lemma departed_nil : departed [] = [] := rfl

@[simp] lemma accepted_cons_accepted (e : LogEvent) (tr : List Event) :
    accepted (.accepted e :: tr) = e :: accepted tr := rfl

@[simp] lemma accepted_cons_returned (e : LogEvent) (tr : List Event) :
    accepted (.returned e :: tr) = accepted tr := rfl

@[simp] lemma accepted_cons_overwritten (e : LogEvent) (tr : List Event) :
    accepted (.overwritten e :: tr) = accepted tr := rfl

@[simp] lemma departed_cons_accepted (e : LogEvent) (tr : List Event) :
    departed (.accepted e :: tr) = departed tr := rfl

@[simp] lemma departed_cons_returned (e : LogEvent) (tr : List Event) :
    departed (.returned e :: tr) = e :: departed tr := rfl

@[simp] lemma departed_cons_overwritten (e : LogEvent) (tr : List Event) :
    departed (.overwritten e :: tr) = e :: departed tr := rfl

/-! ## The counters -/

lemma slot_eq (idx : UInt64) : slot idx = idx.toNat % 65536 := by
  rw [slot, UInt64.toNat_and]
  exact Nat.and_two_pow_sub_one_eq_mod idx.toNat 16

/-- The read position is at most one revolution behind the write position. -/
structure WellFormed (s : RingBufferLogger) : Prop where
  read_le : s.readSeq.toNat ≤ s.writeSeq.toNat
  bound : s.writeSeq.toNat - s.readSeq.toNat ≤ 65536

lemma WellFormed.unreadCount_eq {s : RingBufferLogger} (h : s.WellFormed) :
    s.unreadCount = s.unread.length := by
  rw [unreadCount, unread, length_window]
  exact UInt64.toNat_sub_of_le _ _ (UInt64.le_iff_toNat_le.mpr h.read_le)

/-- A pop from a logger whose oldest unread slot holds an entry. -/
lemma WellFormed.pop_cons {s : RingBufferLogger} (h : s.WellFormed) {e : LogEvent}
    {rest : List (Option LogEvent)} (hunread : s.unread = some e :: rest) :
    s.pop.2 = some e ∧ s.pop.1.unread = rest ∧ s.pop.1.WellFormed := by
  have hlt : s.readSeq.toNat < s.writeSeq.toNat := by
    by_contra hge
    rw [unread, window_eq_nil (by omega)] at hunread
    exact absurd hunread (by simp)
  rw [unread, window_cons hlt] at hunread
  obtain ⟨hhead, hrest⟩ := List.cons.inj hunread
  have hbound := h.bound
  rw [pop_of_lt hlt]
  refine ⟨?_, ?_, ?_, ?_⟩
  · rw [slot_eq]
    exact hhead
  · rw [unread]
    dsimp only
    rw [toNat_succ_of_lt hlt, slot_eq, window_clear h.bound]
    exact hrest
  · dsimp only
    rw [toNat_succ_of_lt hlt]
    omega
  · dsimp only
    rw [toNat_succ_of_lt hlt]
    omega

lemma WellFormed.pop_nil {s : RingBufferLogger} (hunread : s.unread = []) :
    s.pop = (s, none) := by
  have hlen : s.unread.length = 0 := by rw [hunread, List.length_nil]
  rw [unread, length_window] at hlen
  exact pop_of_le (by omega)

/-- Draining returns the unread entries and leaves none. -/
lemma WellFormed.drainAll_eq {s : RingBufferLogger} (h : s.WellFormed) {entries : List LogEvent}
    (hunread : s.unread = entries.map some) :
    s.drainAll.2 = entries ∧ s.drainAll.1.unread = [] ∧ s.drainAll.1.WellFormed := by
  induction entries generalizing s with
  | nil =>
    have hpop : s.pop = (s, none) := pop_nil hunread
    rw [drainAll_of_none (by rw [hpop]), hpop]
    exact ⟨rfl, hunread, h⟩
  | cons e entries ih =>
    obtain ⟨hentry, hrest, hwf⟩ := h.pop_cons hunread
    obtain ⟨hreturned, hempty, hwf'⟩ := ih hwf hrest
    rw [drainAll_of_some hentry]
    exact ⟨by rw [hreturned], hempty, hwf'⟩

/-! ## One step -/

/-- What the counters and slots hold after a history in which no push wrapped. -/
structure Refines (s : RingBufferLogger) (tr : List Event) : Prop extends WellFormed s where
  order : (accepted tr).map some = (departed tr).map some ++ s.unread

/-- The unread slots all hold an entry. -/
lemma Refines.exists_entries {s : RingBufferLogger} {tr : List Event} (h : Refines s tr) :
    ∃ entries : List LogEvent, s.unread = entries.map some := by
  refine ⟨(accepted tr).drop (departed tr).length, ?_⟩
  rw [List.map_drop, h.order]
  conv_rhs => rw [← List.length_map some, List.drop_left]

lemma Refines.boundedFifo {s : RingBufferLogger} {tr : List Event} (h : Refines s tr) :
    BoundedFifo s tr := by
  obtain ⟨entries, hentries⟩ := h.exists_entries
  have hcount := h.toWellFormed.unreadCount_eq
  refine ⟨h.order, ?_, ?_, ?_, ?_⟩
  · have hlen := congrArg List.length h.order
    rw [List.length_append, List.length_map, List.length_map] at hlen
    omega
  · rw [hcount, unread, length_window]
    exact h.bound
  · cases entries with
    | nil => rw [WellFormed.pop_nil hentries, hentries]; rfl
    | cons e entries =>
      rw [(h.toWellFormed.pop_cons hentries).1, hentries]
      rfl
  · rw [(h.toWellFormed.drainAll_eq hentries).1, hentries]

/-- A push onto a full buffer takes the place of the oldest unread entry. -/
lemma push_full {s : RingBufferLogger} {e : LogEvent} (hlevel : ¬ e.level < s.minLevel)
    (hfull : s.writeSeq.toNat = s.readSeq.toNat + 65536) (hwrite : s.writeSeq.toNat + 1 < 2 ^ 64) :
    (s.push e).unread = s.unread.tail ++ [some e] ∧ (s.push e).WellFormed := by
  have hcond : s.readSeq + ringBufferSize ≤ s.writeSeq := by
    rw [UInt64.le_iff_toNat_le, UInt64.toNat_add]
    exact (Nat.mod_le _ _).trans hfull.ge
  have hsize : ringBufferSize.toNat = 65536 := rfl
  have hread : (s.writeSeq - ringBufferSize + 1).toNat = s.readSeq.toNat + 1 := by
    have hsub : (s.writeSeq - ringBufferSize).toNat = s.readSeq.toNat := by
      rw [UInt64.toNat_sub_of_le _ _ (UInt64.le_iff_toNat_le.mpr (by omega))]
      omega
    rw [UInt64.toNat_add, hsub, UInt64.toNat_one, Nat.mod_eq_of_lt (by omega)]
  have hsucc : (s.writeSeq + 1).toNat = s.writeSeq.toNat + 1 := by
    rw [UInt64.toNat_add, UInt64.toNat_one, Nat.mod_eq_of_lt hwrite]
  rw [push, if_neg hlevel]
  refine ⟨?_, ?_, ?_⟩
  · rw [unread]
    dsimp only
    rw [if_pos hcond, hread, hsucc, slot_eq, window_overwrite (by norm_num) hfull]
    rfl
  · dsimp only
    rw [if_pos hcond, hread, hsucc]
    omega
  · dsimp only
    rw [if_pos hcond, hread, hsucc]
    omega

/-- A push onto a buffer with room appends its entry. -/
lemma WellFormed.push_room {s : RingBufferLogger} (h : s.WellFormed) {e : LogEvent}
    (hlevel : ¬ e.level < s.minLevel) (hroom : s.writeSeq.toNat < s.readSeq.toNat + 65536)
    (hread : s.readSeq.toNat + 65536 < 2 ^ 64) (hwrite : s.writeSeq.toNat + 1 < 2 ^ 64) :
    (s.push e).unread = s.unread ++ [some e] ∧ (s.push e).WellFormed := by
  have hle := h.read_le
  have hcond : ¬ s.readSeq + ringBufferSize ≤ s.writeSeq := by
    rw [UInt64.le_iff_toNat_le, UInt64.toNat_add]
    have hsize : ringBufferSize.toNat = 65536 := rfl
    rw [hsize, Nat.mod_eq_of_lt hread]
    omega
  have hsucc : (s.writeSeq + 1).toNat = s.writeSeq.toNat + 1 := by
    rw [UInt64.toNat_add, UInt64.toNat_one, Nat.mod_eq_of_lt hwrite]
  rw [push, if_neg hlevel]
  refine ⟨?_, ?_, ?_⟩
  · rw [unread]
    dsimp only
    rw [if_neg hcond, hsucc, slot_eq, window_write hle (by omega)]
    rfl
  · dsimp only
    rw [if_neg hcond, hsucc]
    omega
  · dsimp only
    rw [if_neg hcond, hsucc]
    omega

/-- The sum `read_idx + 65536` of a push that passes the filter does not wrap. -/
def NoWrap (s : RingBufferLogger) : Op → Prop
  | .push e => s.minLevel ≤ e.level → s.readSeq.toNat + 65536 < 2 ^ 64
  | _ => True

lemma Refines.push {s : RingBufferLogger} {tr : List Event} (h : Refines s tr) {e : LogEvent}
    (hwrap : NoWrap s (.push e)) (hwrite : s.writeSeq.toNat + 1 < 2 ^ 64) :
    Refines (step s (.push e)).1 (tr ++ (step s (.push e)).2) := by
  obtain ⟨entries, hentries⟩ := h.exists_entries
  have hcount := h.toWellFormed.unreadCount_eq
  have hlen : s.unread.length = s.writeSeq.toNat - s.readSeq.toNat := by
    rw [unread, length_window]
  by_cases hlevel : e.level < s.minLevel
  · have hsame : step s (.push e) = (s, []) := by
      rw [step, RingBufferLogger.push, if_pos hlevel, if_pos hlevel]
    rw [hsame, List.append_nil]
    exact h
  have hread := hwrap (UInt8.not_lt.mp hlevel)
  have hbound := h.bound
  have hle := h.read_le
  rw [step, if_neg hlevel]
  by_cases hfull : s.writeSeq.toNat = s.readSeq.toNat + 65536
  · obtain ⟨hunread, hwf⟩ := push_full hlevel hfull hwrite
    obtain ⟨oldest, rest, rfl⟩ : ∃ oldest rest, entries = oldest :: rest := by
      cases entries with
      | nil =>
        rw [hentries] at hlen
        rw [List.map_nil, List.length_nil] at hlen
        omega
      | cons oldest rest => exact ⟨oldest, rest, rfl⟩
    have hout : s.crowdedOut = some oldest := by
      rw [crowdedOut, if_pos (by omega), hentries]
      rfl
    refine ⟨hwf, ?_⟩
    rw [hunread, hout, hentries]
    have horder := h.order
    rw [hentries] at horder
    simp [horder]
  · obtain ⟨hunread, hwf⟩ := h.toWellFormed.push_room hlevel (by omega) hread hwrite
    have hout : s.crowdedOut = none := by
      rw [crowdedOut, if_neg (by omega)]
    refine ⟨hwf, ?_⟩
    rw [hunread, hout]
    simp [h.order]

/-- Every operation that does not wrap keeps the queue. -/
lemma Refines.step {s : RingBufferLogger} {tr : List Event} (h : Refines s tr) {op : Op}
    (hwrap : NoWrap s op) (hwrite : op.isPush = true → s.writeSeq.toNat + 1 < 2 ^ 64) :
    Refines (step s op).1 (tr ++ (step s op).2) := by
  obtain ⟨entries, hentries⟩ := h.exists_entries
  cases op with
  | push e => exact h.push hwrap (hwrite rfl)
  | pop =>
    have horder := h.order
    rw [hentries] at horder
    rw [RingBufferLogger.step]
    cases entries with
    | nil =>
      rw [WellFormed.pop_nil hentries]
      refine ⟨h.toWellFormed, ?_⟩
      rw [hentries]
      simpa using horder
    | cons e entries =>
      obtain ⟨hentry, hrest, hwf⟩ := h.toWellFormed.pop_cons hentries
      refine ⟨hwf, ?_⟩
      rw [hentry, hrest]
      simp [horder]
  | drainAll =>
    obtain ⟨hreturned, hempty, hwf⟩ := h.toWellFormed.drainAll_eq hentries
    have horder := h.order
    rw [hentries] at horder
    rw [RingBufferLogger.step]
    refine ⟨hwf, ?_⟩
    rw [hreturned, hempty]
    simp [horder]
  | setLevel level =>
    rw [RingBufferLogger.step, List.append_nil]
    exact ⟨⟨h.read_le, h.bound⟩, h.order⟩

/-! ## Whole runs -/

lemma pop_writeSeq (s : RingBufferLogger) : s.pop.1.writeSeq = s.writeSeq := by
  rw [pop]
  split
  · rfl
  · rfl

lemma drainAll_writeSeq (s : RingBufferLogger) : s.drainAll.1.writeSeq = s.writeSeq := by
  induction s using drainAll.induct with
  | case1 s h => rw [drainAll_of_none h, pop_writeSeq]
  | case2 s e h ih => rw [drainAll_of_some h, ih, pop_writeSeq]

/-- The write position counts the accepted entries. -/
lemma step_writeSeq (s : RingBufferLogger) (op : Op) :
    (step s op).1.writeSeq = s.writeSeq + UInt64.ofNat (accepted (step s op).2).length ∧
      (accepted (step s op).2).length ≤ if op.isPush then 1 else 0 := by
  cases op with
  | push e =>
    rw [step, push]
    by_cases hlevel : e.level < s.minLevel
    · simp [hlevel]
    · have hout : accepted (s.crowdedOut.toList.map .overwritten ++ [.accepted e]) = [e] := by
        cases s.crowdedOut with
        | none => rfl
        | some oldest => rfl
      rw [if_neg hlevel, if_neg hlevel, hout]
      exact ⟨rfl, le_refl 1⟩
  | pop => simp [step, pop_writeSeq, Op.isPush]
  | drainAll => simp [step, drainAll_writeSeq, Op.isPush]
  | setLevel level => simp [step, setLevel, Op.isPush]

lemma after_writeSeq (ops : List Op) :
    (after ops).writeSeq = UInt64.ofNat (accepted (history ops)).length := by
  have hstep : ∀ (s : RingBufferLogger) (tr : List Event) (op : Op),
      s.writeSeq = UInt64.ofNat (accepted tr).length → True →
      (step s op).1.writeSeq = UInt64.ofNat (accepted (tr ++ (step s op).2)).length := by
    intro s tr op hs _
    rw [(step_writeSeq s op).1, hs, accepted_append, List.length_append, UInt64.ofNat_add]
  have hnew : new.writeSeq = UInt64.ofNat (accepted []).length := rfl
  exact run_induction (C := fun _ _ _ => True) hstep hnew fun _ _ _ _ => trivial

lemma accepted_length_le (ops : List Op) :
    (accepted (history ops)).length ≤ ops.countP Op.isPush := by
  rw [history]
  generalize new = s
  induction ops generalizing s with
  | nil => simp
  | cons op ops ih =>
    have hop := (step_writeSeq s op).2
    have hrest := ih (step s op).1
    rw [runTrace_cons, accepted_append, List.length_append, List.countP_cons]
    omega

lemma after_writeSeq_toNat {ops : List Op} (h : ops.countP Op.isPush < 2 ^ 64) :
    (after ops).writeSeq.toNat = (accepted (history ops)).length := by
  rw [after_writeSeq, UInt64.toNat_ofNat']
  exact Nat.mod_eq_of_lt ((accepted_length_le ops).trans_lt h)

/-- A run in which no push wraps keeps the queue. -/
lemma refines_after {ops : List Op} (hpushes : ops.countP Op.isPush < 2 ^ 64)
    (hwrap : ∀ before op rest, ops = before ++ op :: rest → NoWrap (after before) op) :
    Refines (after ops) (history ops) := by
  have hnew : Refines new [] := ⟨⟨le_refl 0, by simp [new]⟩, rfl⟩
  refine run_induction
    (C := fun s tr op => NoWrap s op ∧ (op.isPush = true → s.writeSeq.toNat + 1 < 2 ^ 64))
    (fun s tr op hs hop => hs.step hop.1 hop.2) hnew ?_
  rintro before op rest rfl
  refine ⟨hwrap before op rest rfl, ?_⟩
  intro hop
  rw [List.countP_append, List.countP_cons_of_pos hop] at hpushes
  have hcount : (after before).writeSeq.toNat ≤ before.countP Op.isPush := by
    rw [after_writeSeq_toNat (by omega)]
    exact accepted_length_le before
  exact lt_of_le_of_lt (Nat.add_le_add_right hcount 1) (by omega)

/-- A push whose sum wraps moves the read position back and leaves a count of 65536. -/
lemma push_wrapped {s : RingBufferLogger} {e : LogEvent} (hlevel : ¬ e.level < s.minLevel)
    (hwrap : 2 ^ 64 ≤ s.readSeq.toNat + 65536) (hle : s.readSeq.toNat ≤ s.writeSeq.toNat) :
    (s.push e).unreadCount = 65536 := by
  have hcond : s.readSeq + ringBufferSize ≤ s.writeSeq := by
    have hsize : ringBufferSize.toNat = 65536 := rfl
    have hread := s.readSeq.toNat_lt
    rw [UInt64.le_iff_toNat_le, UInt64.toNat_add, hsize]
    omega
  have hdiff : s.writeSeq + 1 - (s.writeSeq - ringBufferSize + 1) = ringBufferSize := by
    grind
  rw [unreadCount, push, if_neg hlevel]
  dsimp only
  rw [if_pos hcond, hdiff]
  rfl

/-- The queue does not survive a push whose sum wraps. -/
lemma not_boundedFifo_of_wrap {s : RingBufferLogger} {tr : List Event} {e : LogEvent}
    (h : BoundedFifo s tr) (hwrite : s.writeSeq.toNat + 1 < 2 ^ 64) (hwrap : ¬ NoWrap s (.push e)) :
    ¬ BoundedFifo (step s (.push e)).1 (tr ++ (step s (.push e)).2) := by
  intro hafter
  rw [NoWrap, Classical.not_imp] at hwrap
  obtain ⟨hlevel, hwrap⟩ := hwrap
  have hlevel : ¬ e.level < s.minLevel := UInt8.not_lt.mpr hlevel
  have hlen : s.unreadCount = s.writeSeq.toNat - s.readSeq.toNat := by
    have horder := congrArg List.length h.order
    rw [List.length_append, List.length_map, List.length_map, unread, length_window] at horder
    have hcount := h.count
    omega
  have hle : s.readSeq.toNat ≤ s.writeSeq.toNat := by
    by_contra hlt
    have hzero : s.writeSeq - s.readSeq = 0 := by
      apply UInt64.toNat_inj.mp
      rw [← unreadCount, hlen]
      exact Nat.sub_eq_zero_of_le (by omega)
    have heq : s.writeSeq = s.readSeq := by grind
    rw [heq] at hlt
    exact hlt le_rfl
  have hout : s.crowdedOut = none := by
    rw [crowdedOut, if_neg (by omega)]
  have hcount := hafter.count
  rw [step, if_neg hlevel, hout] at hcount
  dsimp only at hcount
  rw [push_wrapped hlevel (by omega) hle] at hcount
  simp only [Option.toList_none, List.map_nil, List.nil_append, departed_append,
    accepted_append, accepted_cons_accepted, departed_cons_accepted, accepted_nil, departed_nil,
    List.append_nil, List.length_append, List.length_singleton] at hcount
  have hbefore := h.count
  omega

/-- **The log is a bounded FIFO as long as no push wraps.**  In a run of fewer than `2 ^ 64` pushes
every state reached is that of a bounded queue exactly when every push that passes the filter finds
a read position below `2 ^ 64 - 65536`. -/
theorem boundedFifo_iff (ops : List Op) (hpushes : ops.countP Op.isPush < 2 ^ 64) :
    (∀ before rest, ops = before ++ rest → BoundedFifo (after before) (history before)) ↔
      ∀ before op rest, ops = before ++ op :: rest → NoWrap (after before) op := by
  constructor
  · rintro h before op rest rfl
    cases op with
    | push e =>
      by_contra hwrap
      rw [List.countP_append, List.countP_cons_of_pos rfl] at hpushes
      have hwrite : (after before).writeSeq.toNat + 1 < 2 ^ 64 := by
        have hle := accepted_length_le before
        rw [after_writeSeq_toNat (by omega)]
        omega
      refine not_boundedFifo_of_wrap (h before (.push e :: rest) rfl) hwrite hwrap ?_
      have hnext := h (before ++ [.push e]) rest (by simp)
      rw [after, history, runState_append, runTrace_append, runTrace_cons, runTrace_nil,
        List.append_nil] at hnext
      exact hnext
    | pop => trivial
    | drainAll => trivial
    | setLevel level => trivial
  · rintro h before rest rfl
    rw [List.countP_append] at hpushes
    refine (refines_after (by omega) ?_).boundedFifo
    rintro first op last rfl
    exact h first op (last ++ rest) (by simp)

/-- An entry of level `LOG_LEVEL_INFO`. -/
def tradeEntry : LogEvent :=
  { level := 2, logId := 1, timestampMs := 1000, deltaProfit := 5 / 2, exchangeId := 0,
    symbol := "BTCUSDT", side := "BUY", quantity := 1 / 10, price := 50000,
    strategy := "cross_exchange" }

theorem boundedFifo_iff_pushPop :
    [Op.push tradeEntry, Op.pop].countP Op.isPush < 2 ^ 64 ∧
      BoundedFifo (after [Op.push tradeEntry, Op.pop]) (history [Op.push tradeEntry, Op.pop]) := by
  have hpushes : [Op.push tradeEntry, Op.pop].countP Op.isPush < 2 ^ 64 := by decide
  refine ⟨hpushes, (boundedFifo_iff _ hpushes).mpr ?_ _ [] (List.append_nil _).symm⟩
  refine forall_split_cons.mpr ⟨?_, forall_split_cons.mpr ⟨trivial, forall_split_nil⟩⟩
  intro _
  decide

/-- Pushes that are popped at once. -/
def pushPops (n : ℕ) : List Op := (List.replicate n [Op.push tradeEntry, Op.pop]).flatten

lemma pushPops_succ (n : ℕ) : pushPops (n + 1) = pushPops n ++ [Op.push tradeEntry, Op.pop] := by
  rw [pushPops, List.replicate_succ', List.flatten_append, List.flatten_singleton, pushPops]

lemma countP_pushPops (n : ℕ) : (pushPops n).countP Op.isPush = n := by
  induction n with
  | zero => rfl
  | succ n ih =>
    rw [pushPops_succ, List.countP_append, ih]
    rfl

lemma pop_minLevel (s : RingBufferLogger) : s.pop.1.minLevel = s.minLevel := by
  rw [pop]
  split
  · rfl
  · rfl

lemma push_minLevel (s : RingBufferLogger) (e : LogEvent) : (s.push e).minLevel = s.minLevel := by
  rw [push]
  split
  · rfl
  · rfl

/-- A push that is popped at once moves both counters by one. -/
lemma Refines.pushPop {s : RingBufferLogger} {tr : List Event} (h : Refines s tr)
    (hunread : s.unread = []) {e : LogEvent} (hlevel : ¬ e.level < s.minLevel)
    (hroom : s.writeSeq.toNat + 65536 < 2 ^ 64) :
    Refines (s.push e).pop.1 (tr ++ runTrace RingBufferLogger.step s [.push e, .pop]) ∧
      (s.push e).pop.1.unread = [] ∧
      (s.push e).pop.1.writeSeq.toNat = s.writeSeq.toNat + 1 := by
  have hle := h.read_le
  have hempty := congrArg List.length hunread
  rw [unread, length_window, List.length_nil] at hempty
  have hpush := h.push (e := e) (fun _ => by omega) (by omega)
  have hwrap : NoWrap (RingBufferLogger.step s (.push e)).1 .pop := trivial
  have hpop := hpush.step hwrap nofun
  obtain ⟨hfilled, hwf⟩ :=
    h.toWellFormed.push_room hlevel (by omega) (by omega) (by omega)
  rw [hunread, List.nil_append] at hfilled
  refine ⟨?_, (hwf.pop_cons hfilled).2.1, ?_⟩
  · rw [List.append_assoc] at hpop
    rw [runTrace_cons, runTrace_cons, runTrace_nil, List.append_nil]
    exact hpop
  · rw [pop_writeSeq, RingBufferLogger.push, if_neg hlevel]
    dsimp only
    rw [UInt64.toNat_add, UInt64.toNat_one, Nat.mod_eq_of_lt (by omega)]

/-- The counters after `n` pushes that are popped at once. -/
lemma refines_pushPops {n : ℕ} (hn : n + 65536 ≤ 2 ^ 64) :
    Refines (after (pushPops n)) (history (pushPops n)) ∧ (after (pushPops n)).unread = [] ∧
      (after (pushPops n)).writeSeq.toNat = n ∧ (after (pushPops n)).minLevel = logLevelDebug := by
  induction n with
  | zero => exact ⟨⟨⟨le_refl 0, by decide⟩, rfl⟩, rfl, rfl, rfl⟩
  | succ n ih =>
    obtain ⟨hrefines, hunread, hwrite, hmin⟩ := ih (by omega)
    have hlevel : ¬ tradeEntry.level < (after (pushPops n)).minLevel := by
      rw [hmin]
      decide
    obtain ⟨hrefines', hunread', hwrite'⟩ := hrefines.pushPop hunread hlevel (by omega)
    rw [pushPops_succ, after, history, runState_append, runTrace_append]
    refine ⟨hrefines', hunread', hwrite'.trans (by rw [hwrite]), ?_⟩
    exact (pop_minLevel _).trans ((push_minLevel _ _).trans hmin)

/-- The push after `2 ^ 64 - 65536` pushes that are popped at once wraps. -/
lemma not_boundedFifo_pushPops {n : ℕ} (hn : n + 65536 = 2 ^ 64) :
    (pushPops n ++ [Op.push tradeEntry]).countP Op.isPush < 2 ^ 64 ∧
      ¬ ∀ before rest, pushPops n ++ [Op.push tradeEntry] = before ++ rest →
        BoundedFifo (after before) (history before) := by
  obtain ⟨hrefines, hunread, hwrite, hmin⟩ := refines_pushPops hn.le
  have hempty := congrArg List.length hunread
  rw [unread, length_window, List.length_nil] at hempty
  have hle := hrefines.read_le
  constructor
  · rw [List.countP_append, countP_pushPops, List.countP_cons_of_pos rfl, List.countP_nil]
    omega
  · intro h
    have hlast := h _ [] (List.append_nil _).symm
    rw [after, history, runState_append, runTrace_append, runTrace_cons, runTrace_nil,
      List.append_nil] at hlast
    refine not_boundedFifo_of_wrap hrefines.boundedFifo (by omega) ?_ hlast
    intro hwrap
    have hread := hwrap (by rw [hmin]; decide)
    omega

theorem wrapped_push_not_boundedFifo :
    (pushPops (2 ^ 64 - 65536) ++ [Op.push tradeEntry]).countP Op.isPush < 2 ^ 64 ∧
      ¬ ∀ before rest, pushPops (2 ^ 64 - 65536) ++ [Op.push tradeEntry] = before ++ rest →
        BoundedFifo (after before) (history before) :=
  not_boundedFifo_pushPops (by norm_num)

end RingBufferLogger

end HftArb
