import HftArb.Feeds.SharedMemory

/-!
# Reads and writes on an arena

The writes and reads on all slots of an arena, in any interleaving.  The numbers of the writes come
from one counter, which is ahead of the words of all frames, so that a write makes its frame older
whatever the other slots do: `Consistent`.

While each slot has one writer, every frame that a read returns is the first one or the data of one
write (`frames_not_torn`).  Of its symbol a read returns at most eleven bytes, up to the first byte
that is zero, and nothing when they are no text, so that the symbol is not always the one that was
written cut to eleven bytes (`symbol_not_kept`).
-/

namespace HftArb

open Runs Interleaving SeqLock

namespace SharedMemory

variable {capacity : ℕ}

/-! ## The arena between two accesses -/

/-- A frame that a read returns is the zeroed one, or the data of a single write to its slot. -/
def Whole (history : List (Event capacity)) : Event capacity → Prop
  | .writes _ _ => True
  | .returns slot d =>
    d = ⟨0, [], 0, 0, 0⟩ ∨ ∃ d', Event.writes slot d' ∈ history ∧ d = d'.asRead

/-- The event is the one of a write. -/
def Event.isWrite : Event capacity → Bool
  | .writes _ _ => true
  | .returns _ _ => false

/-- The call is a write to a slot. -/
def Op.writesTo (slot : Fin capacity) : Op capacity → Bool
  | .fetchSeq slot' _ _ _ => slot' = slot
  | .store slot' _ _ => slot' = slot
  | .load _ _ => false

/-- A write has a number that the counter has passed. -/
structure Assigned (slot : Fin capacity) (d : MarketData) (counter : ℕ)
    (events : List (Event capacity)) : Prop where
  called : Event.writes slot d ∈ events
  pos : 1 ≤ d.seq.toNat
  lt : d.seq.toNat < counter
  small : d.seq.toNat < 2 ^ 63

/-- What a call under way knows of the arena. -/
def Op.Knows (a : SharedMemoryArena capacity) (events : List (Event capacity)) :
    Op capacity → Prop
  | .fetchSeq _ _ _ _ => True
  | .store slot d next =>
    Assigned slot d a.globalSeq.toNat events ∧ next.Knows (a.frames slot) d
  | .load slot next => next.Knows (a.frames slot)

/-- Each slot has at most one write under way, a frame that is not being written is whole, the
counter counts the writes and is ahead of the frames, and every call knows what it should. -/
structure Consistent (s : State (SharedMemoryArena capacity) (Op capacity))
    (events : List (Event capacity)) : Prop where
  writers : ∀ slot, s.inFlight.countP (Op.writesTo slot) ≤ 1
  whole : ∀ slot, Settled (s.shared.frames slot) →
    Whole events (.returns slot (contents (s.shared.frames slot)))
  counter : s.shared.globalSeq.toNat = events.countP Event.isWrite + 1
  ahead : ∀ slot, age (s.shared.frames slot) + 2 ≤ 2 * s.shared.globalSeq.toNat
  knows : ∀ op ∈ s.inFlight, op.Knows s.shared events

lemma Whole.mono {events events' : List (Event capacity)} {e : Event capacity}
    (h : Whole events e) (hevents : events ⊆ events') : Whole events' e := by
  cases e with
  | writes slot d => trivial
  | returns slot d =>
    refine h.imp_right ?_
    rintro ⟨d', hmem, hd⟩
    exact ⟨d', hevents hmem, hd⟩

/-- What a call knows stays true with more events and a higher counter. -/
lemma Op.Knows.mono {a a' : SharedMemoryArena capacity} {events events' : List (Event capacity)}
    {op : Op capacity} (h : op.Knows a events) (hframes : a'.frames = a.frames)
    (hcounter : a.globalSeq.toNat ≤ a'.globalSeq.toNat) (hevents : events ⊆ events') :
    op.Knows a' events' := by
  cases op with
  | fetchSeq slot symbol bid ask => trivial
  | store slot d next =>
    obtain ⟨hassigned, hknows⟩ := h
    refine ⟨⟨hevents hassigned.called, hassigned.pos, hassigned.lt.trans_le hcounter,
      hassigned.small⟩, ?_⟩
    rw [hframes]
    exact hknows
  | load slot next =>
    change next.Knows (a'.frames slot)
    rw [hframes]
    exact h

/-- What a call knows stays true when another call stores in a frame that it does not write to. -/
lemma Op.Knows.update {a : SharedMemoryArena capacity} {events : List (Event capacity)}
    {op : Op capacity} (h : op.Knows a events) {slot : Fin capacity}
    (hother : op.writesTo slot = false) {f : SharedMarketFrame}
    (hchanged : Changed age Settled (a.frames slot) f) :
    op.Knows (a.set slot f) events := by
  cases op with
  | fetchSeq slot' symbol bid ask => trivial
  | store slot' d next =>
    have hne : slot' ≠ slot := of_decide_eq_false hother
    refine ⟨h.1, ?_⟩
    rw [a.set_frames_of_ne hne]
    exact h.2
  | load slot' next =>
    change next.Knows ((a.set slot f).frames slot')
    by_cases heq : slot' = slot
    · subst heq
      rw [a.set_frames_self]
      exact Load.Knows.changed h hchanged
    · rw [a.set_frames_of_ne heq]
      exact h

section Access

variable {s : State (SharedMemoryArena capacity) (Op capacity)} {events : List (Event capacity)}
  {others calls' : List (Op capacity)} {op : Op capacity} {remaining : Option (Op capacity)}

/-- The writes to a slot under way do not get more when the remaining call writes where it did. -/
lemma Consistent.writers_access (h : Consistent s events)
    (hbefore : s.inFlight.Perm (op :: others)) (hafter : calls'.Perm (remaining.toList ++ others))
    (hremaining : ∀ o ∈ remaining, ∀ slot, o.writesTo slot = op.writesTo slot)
    (slot : Fin capacity) : calls'.countP (Op.writesTo slot) ≤ 1 := by
  refine le_trans ?_ (h.writers slot)
  rw [hbefore.countP_eq, hafter.countP_eq, List.countP_append, List.countP_cons]
  cases remaining with
  | none => simp
  | some o => simp [hremaining o rfl slot, Nat.add_comm]

/-- While a write to a slot is under way no other call writes there. -/
lemma Consistent.others_writesTo (h : Consistent s events)
    (hbefore : s.inFlight.Perm (op :: others)) {slot : Fin capacity}
    (hop : op.writesTo slot = true) : ∀ o ∈ others, o.writesTo slot = false := by
  have hwriters := h.writers slot
  rw [hbefore.countP_eq, List.countP_cons_of_pos hop] at hwriters
  have hnone : others.countP (Op.writesTo slot) = 0 := by omega
  intro o ho
  simpa using List.countP_eq_zero.mp hnone o ho

/-- An access of a read keeps the arena consistent. -/
lemma Consistent.load (h : Consistent s events) {slot : Fin capacity} {next : Load}
    (hbefore : s.inFlight.Perm (.load slot next :: others))
    (hafter : calls'.Perm
      (((readStep (s.shared.frames slot) next).1.map (Op.load slot)).toList ++ others)) :
    Consistent ⟨s.shared, calls'⟩
      (events ++ ((readStep (s.shared.frames slot) next).2.map (Event.returns slot)).toList) := by
  have hknows := h.knows _ (hbefore.mem_iff.mpr List.mem_cons_self)
  have hevents := List.subset_append_left events
    ((readStep (s.shared.frames slot) next).2.map (Event.returns slot)).toList
  refine ⟨h.writers_access hbefore hafter ?_, fun slot' hsettled => ?_, ?_, h.ahead, ?_⟩
  · intro o ho slot'
    obtain ⟨ld, -, rfl⟩ := Option.mem_map.mp ho
    rfl
  · exact (h.whole slot' hsettled).mono hevents
  · rw [List.countP_append]
    cases (readStep (s.shared.frames slot) next).2 with
    | none => simpa using h.counter
    | some d => simpa [Event.isWrite] using h.counter
  · refine forall_inFlight_access hbefore hafter h.knows ?_ ?_
    · exact fun o _ ho => ho.mono rfl le_rfl hevents
    · intro o ho
      obtain ⟨ld, hld, rfl⟩ := Option.mem_map.mp ho
      exact knows_readStep hknows ld hld

/-- An access of a write to a frame keeps the arena consistent. -/
lemma Consistent.store (h : Consistent s events) {slot : Fin capacity} {d : MarketData}
    {next : Store} (hbefore : s.inFlight.Perm (.store slot d next :: others))
    (hafter : calls'.Perm
      (((writeStep d (s.shared.frames slot) next).2.map (Op.store slot d)).toList ++ others)) :
    Consistent ⟨s.shared.set slot (writeStep d (s.shared.frames slot) next).1, calls'⟩ events := by
  obtain ⟨hassigned, hknows⟩ := h.knows _ (hbefore.mem_iff.mpr List.mem_cons_self)
  have hwrote := wrote_writeStep hassigned.pos hassigned.small hknows
  have hself : (Op.store slot d next).writesTo slot = true := decide_eq_true rfl
  have hothers := h.others_writesTo hbefore hself
  refine ⟨h.writers_access hbefore hafter ?_, fun slot' hsettled => ?_, h.counter, ?_, ?_⟩
  · intro o ho slot'
    obtain ⟨st, -, rfl⟩ := Option.mem_map.mp ho
    rfl
  · by_cases heq : slot' = slot
    · subst heq
      rw [s.shared.set_frames_self] at hsettled ⊢
      exact Or.inr ⟨d, hassigned.called, hwrote.whole hsettled⟩
    · rw [s.shared.set_frames_of_ne heq] at hsettled ⊢
      exact h.whole slot' hsettled
  · intro slot'
    by_cases heq : slot' = slot
    · subst heq
      have hage := hwrote.age_le
      have hlt := hassigned.lt
      rw [s.shared.set_frames_self]
      change _ ≤ 2 * s.shared.globalSeq.toNat
      omega
    · rw [s.shared.set_frames_of_ne heq]
      exact h.ahead slot'
  · refine forall_inFlight_access hbefore hafter h.knows ?_ ?_
    · exact fun o ho hknows => hknows.update (hothers o ho) hwrote.changed
    · intro o ho
      obtain ⟨st, hst, rfl⟩ := Option.mem_map.mp ho
      refine ⟨hassigned, ?_⟩
      rw [s.shared.set_frames_self]
      exact hwrote.knows st hst

/-- A write that takes its number keeps the arena consistent. -/
lemma Consistent.fetchSeq (h : Consistent s events) {slot : Fin capacity} {symbol : List UInt8}
    {bid ask now : UInt64} (hbefore : s.inFlight.Perm (.fetchSeq slot symbol bid ask :: others))
    (hafter : calls'.Perm (.store slot ⟨s.shared.globalSeq, symbol, bid, ask, now⟩ .odd :: others))
    (hfew : events.countP Event.isWrite + 1 < 2 ^ 63) :
    Consistent ⟨{ s.shared with globalSeq := s.shared.globalSeq + 1 }, calls'⟩
      (events ++ [.writes slot ⟨s.shared.globalSeq, symbol, bid, ask, now⟩]) := by
  have hcounter := h.counter
  have hnext : (s.shared.globalSeq + 1).toNat = s.shared.globalSeq.toNat + 1 := by
    rw [UInt64.toNat_add, UInt64.toNat_one, Nat.mod_eq_of_lt (by omega)]
  have hgoesOn : calls'.Perm
      ((some (Op.store slot ⟨s.shared.globalSeq, symbol, bid, ask, now⟩ .odd)).toList ++ others) :=
    hafter
  refine ⟨h.writers_access hbefore hgoesOn ?_, fun slot' hsettled => ?_, ?_, fun slot' => ?_, ?_⟩
  · rintro o ⟨rfl⟩ slot'
    rfl
  · exact (h.whole slot' hsettled).mono (List.subset_append_left _ _)
  · rw [List.countP_append]
    change (s.shared.globalSeq + 1).toNat = events.countP Event.isWrite + 1 + 1
    omega
  · have hahead := h.ahead slot'
    change age (s.shared.frames slot') + 2 ≤ 2 * (s.shared.globalSeq + 1).toNat
    omega
  · refine forall_inFlight_access hbefore hgoesOn h.knows ?_ ?_
    · intro o _ ho
      refine ho.mono rfl ?_ (List.subset_append_left _ _)
      change s.shared.globalSeq.toNat ≤ (s.shared.globalSeq + 1).toNat
      omega
    · rintro o ⟨rfl⟩
      have hahead := h.ahead slot
      refine ⟨⟨List.mem_append_right _ List.mem_cons_self, ?_, ?_, ?_⟩, ?_⟩
      · change 1 ≤ s.shared.globalSeq.toNat
        omega
      · change s.shared.globalSeq.toNat < (s.shared.globalSeq + 1).toNat
        omega
      · change s.shared.globalSeq.toNat < 2 ^ 63
        omega
      · change age (s.shared.frames slot) + 1 < 2 * s.shared.globalSeq.toNat
        omega

end Access

/-- An access keeps the arena consistent while there are few writes. -/
lemma Consistent.access {s : State (SharedMemoryArena capacity) (Op capacity)}
    {events : List (Event capacity)} (h : Consistent s events) {op : Op capacity}
    {others calls' : List (Op capacity)} {now : UInt64} (hbefore : s.inFlight.Perm (op :: others))
    (hafter : calls'.Perm ((SharedMemory.access s.shared now op).remaining.toList ++ others))
    (hfew : (events ++ (SharedMemory.access s.shared now op).events).countP Event.isWrite <
      2 ^ 63) :
    Consistent ⟨(SharedMemory.access s.shared now op).shared, calls'⟩
      (events ++ (SharedMemory.access s.shared now op).events) := by
  cases op with
  | fetchSeq slot symbol bid ask =>
    rw [List.countP_append] at hfew
    exact h.fetchSeq hbefore hafter hfew
  | store slot d next =>
    rw [SharedMemory.access, List.append_nil]
    exact h.store hbefore hafter
  | load slot next => exact h.load hbefore hafter

/-- The frames that an access returns are whole. -/
lemma Consistent.whole_access {s : State (SharedMemoryArena capacity) (Op capacity)}
    {events : List (Event capacity)} (h : Consistent s events) {op : Op capacity}
    (hop : op ∈ s.inFlight) (now : UInt64) :
    GuardedFrom Whole events (SharedMemory.access s.shared now op).events := by
  have hknows := h.knows op hop
  cases op with
  | fetchSeq slot symbol bid ask => exact ⟨trivial, trivial⟩
  | store slot d next => trivial
  | load slot next =>
    rw [SharedMemory.access]
    cases hread : (readStep (s.shared.frames slot) next).2 with
    | none => trivial
    | some d =>
      obtain ⟨hsettled, rfl⟩ := settled_of_readStep hknows hread
      exact ⟨h.whole slot hsettled, trivial⟩

/-- A write is called only when no write to its slot is under way. -/
def OneWriter (s : State (SharedMemoryArena capacity) (Op capacity)) : Action Call UInt64 → Prop
  | .enter (.write slot _ _ _) =>
    ∀ h : slot < capacity, s.inFlight.countP (Op.writesTo ⟨slot, h⟩) = 0
  | .enter (.read _) => True
  | .access _ _ => True

instance OneWriter.decidable (s : State (SharedMemoryArena capacity) (Op capacity)) :
    ∀ a, Decidable (OneWriter s a)
  | .enter (.write _ _ _ _) => inferInstanceAs (Decidable (∀ _, _))
  | .enter (.read _) => .isTrue trivial
  | .access _ _ => .isTrue trivial

/-- A call begins without events, knowing nothing, and a write at a slot without another. -/
lemma enter_spec {s : State (SharedMemoryArena capacity) (Op capacity)} {call : Call}
    (hone : OneWriter s (.enter call)) (a : SharedMemoryArena capacity)
    (events : List (Event capacity)) :
    (enter call : Option (Op capacity) × List (Event capacity)).2 = [] ∧
      ∀ op ∈ (enter call : Option (Op capacity) × List (Event capacity)).1, op.Knows a events ∧
        ∀ slot, op.writesTo slot = true → s.inFlight.countP (Op.writesTo slot) = 0 := by
  cases call with
  | write slot symbol bid ask =>
    by_cases hslot : slot < capacity
    · rw [enter, dif_pos hslot]
      refine ⟨rfl, ?_⟩
      rintro op ⟨rfl⟩
      refine ⟨trivial, fun slot' hwrites => ?_⟩
      obtain rfl : ⟨slot, hslot⟩ = slot' := of_decide_eq_true hwrites
      exact hone hslot
    · rw [enter, dif_neg hslot]
      exact ⟨rfl, fun op hop => nomatch hop⟩
  | read slot =>
    by_cases hslot : slot < capacity
    · rw [enter, dif_pos hslot]
      refine ⟨rfl, ?_⟩
      rintro op ⟨rfl⟩
      exact ⟨trivial, fun slot' hwrites => absurd hwrites Bool.false_ne_true⟩
    · rw [enter, dif_neg hslot]
      exact ⟨rfl, fun op hop => nomatch hop⟩

/-- A call that begins keeps the arena consistent. -/
lemma Consistent.enter {s : State (SharedMemoryArena capacity) (Op capacity)}
    {events : List (Event capacity)} (h : Consistent s events) {call : Call}
    (hone : OneWriter s (.enter call)) :
    Consistent ⟨s.shared, s.inFlight ++ (SharedMemory.enter call).1.toList⟩
      (events ++ (SharedMemory.enter call).2) := by
  obtain ⟨hevents, hnew⟩ := enter_spec hone s.shared events
  rw [hevents, List.append_nil]
  refine ⟨fun slot => ?_, h.whole, h.counter, h.ahead, fun op hop => ?_⟩
  · rw [List.countP_append]
    cases hcall : (SharedMemory.enter call : Option (Op capacity) × List (Event capacity)).1 with
    | none => simpa using h.writers slot
    | some op =>
      by_cases hwrites : op.writesTo slot = true
      · rw [(hnew op hcall).2 slot hwrites, Nat.zero_add]
        exact List.countP_le_length
      · rw [Option.toList_some, List.countP_cons_of_neg hwrites]
        exact h.writers slot
  · rcases List.mem_append.mp hop with hop | hop
    · exact h.knows op hop
    · exact (hnew op (Option.mem_toList.mp hop)).1

/-! ## Runs -/

/-- The state after some steps on a new arena. -/
def stateAfter (capacity : ℕ) (actions : List (Action Call UInt64)) :
    State (SharedMemoryArena capacity) (Op capacity) :=
  runState (step (arenaSystem capacity)) (new capacity) actions

/-- The events of some steps on a new arena. -/
def eventsOf (capacity : ℕ) (actions : List (Action Call UInt64)) : List (Event capacity) :=
  runTrace (step (arenaSystem capacity)) (new capacity) actions

/-- Each slot has one writer: its writes are called one after the other. -/
def OneWriterPerSlot (capacity : ℕ) (actions : List (Action Call UInt64)) : Prop :=
  ∀ before a after, actions = before ++ a :: after → OneWriter (stateAfter capacity before) a

/-- The number of writes. -/
def writeCount (capacity : ℕ) (actions : List (Action Call UInt64)) : ℕ :=
  (eventsOf capacity actions).countP Event.isWrite

/-- A step keeps the arena consistent and the frames whole. -/
lemma consistent_step {s : State (SharedMemoryArena capacity) (Op capacity)}
    {events : List (Event capacity)} (h : Consistent s events ∧ Guarded Whole events)
    {a : Action Call UInt64}
    (ha : OneWriter s a ∧
      (events ++ (step (arenaSystem capacity) s a).2).countP Event.isWrite < 2 ^ 63) :
    Consistent (step (arenaSystem capacity) s a).1
        (events ++ (step (arenaSystem capacity) s a).2) ∧
      Guarded Whole (events ++ (step (arenaSystem capacity) s a).2) := by
  obtain ⟨hcons, hwhole⟩ := h
  obtain ⟨hone, hfew⟩ := ha
  rcases step_cases (arenaSystem capacity) s a with ⟨call, rfl, hstate, hevents⟩ | ⟨-, hstep⟩ |
    ⟨position, now, op, others, rfl, hop, hbefore, hshared, hafter, hevents⟩
  · refine ⟨hcons.enter hone, (guardedFrom_append _ _ _).mpr ⟨hwhole, ?_⟩⟩
    rw [hevents]
    change GuardedFrom Whole events (enter call).2
    rw [(enter_spec hone s.shared events).1]
    trivial
  · rw [hstep, List.append_nil]
    exact ⟨hcons, hwhole⟩
  · rw [hevents] at hfew ⊢
    have hmem : op ∈ s.inFlight := hbefore.mem_iff.mpr List.mem_cons_self
    refine ⟨?_, (guardedFrom_append _ _ _).mpr ⟨hwhole, hcons.whole_access hmem now⟩⟩
    have haccess := hcons.access hbefore hafter hfew
    generalize step (arenaSystem capacity) s (.access position now) = next at hshared haccess ⊢
    obtain ⟨⟨a', calls'⟩, events'⟩ := next
    obtain rfl : a' = _ := hshared
    exact haccess

lemma contents_zeroed : contents .zeroed = ⟨0, [], 0, 0, 0⟩ := by decide +kernel

lemma consistent_new : Consistent (new capacity) [] where
  writers := fun _ => Nat.zero_le _
  whole := fun _ _ => Or.inl contents_zeroed
  counter := rfl
  ahead := fun _ => le_rfl
  knows := fun _ hop => nomatch hop

/-- **In every interleaving of writes and reads, with one writer for each slot and fewer than
`2 ^ 63` writes, every frame that a read returns is the zeroed one or the data of a single write to
its slot.**  Of the symbol it has the first eleven bytes up to a zero, and nothing if they are no
text. -/
theorem frames_not_torn (capacity : ℕ) (actions : List (Action Call UInt64))
    (hone : OneWriterPerSlot capacity actions) (hfew : writeCount capacity actions < 2 ^ 63) :
    Guarded Whole (eventsOf capacity actions) := by
  refine (run_induction (I := fun s events => Consistent s events ∧ Guarded Whole events)
    (C := fun s events a => OneWriter s a ∧
      (events ++ (step (arenaSystem capacity) s a).2).countP Event.isWrite < 2 ^ 63)
    (fun s events a hs ha => consistent_step hs ha) ⟨consistent_new, trivial⟩ ?_).2
  rintro before a after rfl
  refine ⟨hone before a after rfl, lt_of_le_of_lt ?_ hfew⟩
  rw [writeCount, eventsOf, runTrace_append, runTrace_cons, ← List.append_assoc, List.nil_append]
  exact (List.sublist_append_left _ _).countP_le

/-- A write that a read meets after its first access, and another read after it. -/
def readsAroundWrite (symbol : Text) : List (Action Call UInt64) :=
  [.enter (.write 0 symbol 5 7), .enter (.read 0), .access 1 99] ++
    List.replicate 60 (.access 0 99) ++ .enter (.read 0) :: List.replicate 60 (.access 0 99)

lemma valid_btc : Utf8.Valid [66, 84, 67] := by decide +kernel

/-- `BTC`. -/
def btc : Text := ⟨[66, 84, 67], valid_btc⟩

/-- The first read is given up, and the second returns the data of the write. -/
theorem frames_not_torn_readsAroundWrite :
    eventsOf 1 (readsAroundWrite btc) =
        [.writes 0 ⟨1, btc.bytes, 5, 7, 99⟩, .returns 0 ⟨1, btc.bytes, 5, 7, 99⟩] ∧
      Guarded Whole (eventsOf 1 (readsAroundWrite btc)) := by
  have hone : OneWriterPerSlot 1 (readsAroundWrite btc) := by
    rw [OneWriterPerSlot, forall_split_iff]
    decide +kernel
  have hfew : writeCount 1 (readsAroundWrite btc) < 2 ^ 63 := by decide +kernel
  exact ⟨by decide +kernel, frames_not_torn 1 (readsAroundWrite btc) hone hfew⟩

/-- A frame that a read returns has the symbol that was written, cut to eleven bytes. -/
def WholeCut (history : List (Event capacity)) : Event capacity → Prop
  | .writes _ _ => True
  | .returns slot d =>
    d = ⟨0, [], 0, 0, 0⟩ ∨ ∃ d', Event.writes slot d' ∈ history ∧
      d = { d' with symbol := d'.symbol.take (maxSymbolLen - 1) }

lemma valid_with_zero : Utf8.Valid [65, 0, 66] := by decide +kernel

/-- `A` and `B` with a zero between them. -/
def withZero : Text := ⟨[65, 0, 66], valid_with_zero⟩

lemma valid_long_text : Utf8.Valid [65, 65, 65, 65, 65, 65, 65, 65, 65, 65, 195, 169] := by
  decide +kernel

/-- Ten letters and a character of two bytes. -/
def longText : Text := ⟨[65, 65, 65, 65, 65, 65, 65, 65, 65, 65, 195, 169], valid_long_text⟩

/-- A read that returns after a single write, with another symbol than the one that was written. -/
lemma not_guarded_of_symbol_ne {d d' : MarketData} (hd : d ≠ ⟨0, [], 0, 0, 0⟩)
    (hsymbol : d.symbol ≠ d'.symbol.take (maxSymbolLen - 1)) (slot : Fin capacity) :
    ¬ Guarded WholeCut [.writes slot d', .returns slot d] := by
  rintro ⟨-, hblank | ⟨d'', hmem, heq⟩, -⟩
  · exact hd hblank
  · have hd'' : d'' = d' := by simpa using hmem
    rw [hd''] at heq
    exact hsymbol (congrArg MarketData.symbol heq)

/-- A symbol with a zero is read up to it, and nothing is read of one that is cut within a
character. -/
theorem symbol_not_kept :
    (OneWriterPerSlot 1 (readsAroundWrite withZero) ∧
      writeCount 1 (readsAroundWrite withZero) < 2 ^ 63 ∧
      ¬ Guarded WholeCut (eventsOf 1 (readsAroundWrite withZero))) ∧
    OneWriterPerSlot 1 (readsAroundWrite longText) ∧
      writeCount 1 (readsAroundWrite longText) < 2 ^ 63 ∧
      ¬ Guarded WholeCut (eventsOf 1 (readsAroundWrite longText)) := by
  have hzero : eventsOf 1 (readsAroundWrite withZero) =
      [.writes 0 ⟨1, [65, 0, 66], 5, 7, 99⟩, .returns 0 ⟨1, [65], 5, 7, 99⟩] := by decide +kernel
  have hlong : eventsOf 1 (readsAroundWrite longText) =
      [.writes 0 ⟨1, longText.bytes, 5, 7, 99⟩, .returns 0 ⟨1, [], 5, 7, 99⟩] := by decide +kernel
  refine ⟨⟨?_, by decide +kernel, ?_⟩, ?_, by decide +kernel, ?_⟩
  · rw [OneWriterPerSlot, forall_split_iff]
    decide +kernel
  · rw [hzero]
    exact not_guarded_of_symbol_ne (by decide) (by decide) 0
  · rw [OneWriterPerSlot, forall_split_iff]
    decide +kernel
  · rw [hlong]
    exact not_guarded_of_symbol_ne (by decide) (by decide) 0

end SharedMemory

end HftArb
