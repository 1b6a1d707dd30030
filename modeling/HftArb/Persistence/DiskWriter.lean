import HftArb.Decimal
import HftArb.Foundations.Runs

/-!
# The disk writer

A snapshot is written to a temporary file, synced, and renamed over the state file.  When the rename
fails because the two lie on different devices, the temporary file is copied over the state file and
removed.  A periodic flush saves what it loads.

The worker is a machine that makes one disk operation at a time and writes one byte at a time, so
that a crash at any point is the end of a run.  The rename replaces the whole file, the copy does
not: `survives_iff` says that a crash inside a copy is the only one that loses the state.
The conversion to JSON and back is a parameter.
-/

namespace HftArb

open Runs

/-- The durable state of the bot. -/
structure PersistentState where
  paperUsdBalance : Decimal
  isSystemRiskFrozen : Bool
  sessionPnlCents : ℤ
  totalTrades : UInt64
  timestamp : ℤ
  exchangeHealth : UInt16 → Option UInt32

/-- `PersistentState::default`. -/
def PersistentState.initial : PersistentState where
  paperUsdBalance := 0
  isSystemRiskFrozen := false
  sessionPnlCents := 0
  totalTrades := 0
  timestamp := 0
  exchangeHealth := fun _ => none

namespace AsyncPersistenceWorker

/-- The contents of a file. -/
abbrev Bytes := List UInt8

/-- The state file and the temporary file next to it, each with its contents when it exists. -/
structure Disk where
  main : Option Bytes
  tmp : Option Bytes

/-- How far a save has come. -/
inductive Stage where
  | opening
  | writing (written : ℕ)
  | written
  | synced
  | copying (copied : ℕ)
  | copied

/-- A save under way: the state, its JSON and the stage. -/
structure Save where
  state : PersistentState
  json : Bytes
  stage : Stage

/-- The worker with its disk.  The last state whose save completed is not stored by the worker. -/
structure Worker where
  disk : Disk
  saving : Option Save
  lastSaved : PersistentState

/-- What happens: a snapshot arrives, the flush timer ticks, or the save under way makes its next
disk operation, where a rename fails across devices.  `Order` is the order in which the hash map of
the state is written. -/
inductive Event (Order : Type) where
  | message (state : PersistentState) (order : Order)
  | flush (order : Order)
  | advance (exdev : Bool)

/-! ## Operations -/

section Model

variable {Order : Type} (toStringPretty : Order → PersistentState → Bytes)
variable (fromStr : Bytes → Option PersistentState)

/-- Read the state file; without a file the state is the default, and nothing is returned when the
file cannot be parsed. -/
def loadState (disk : Disk) : Option PersistentState :=
  match disk.main with
  | none => some PersistentState.initial
  | some contents => fromStr contents

/-- The next disk operation of a save. -/
def advance (w : Worker) (save : Save) (exdev : Bool) : Worker :=
  match save.stage with
  | .opening =>
    { w with
      disk := { w.disk with tmp := some [] }
      saving := some { save with stage := .writing 0 } }
  | .writing n =>
    if n < save.json.length then
      { w with
        disk := { w.disk with tmp := some (save.json.take (n + 1)) }
        saving := some { save with stage := .writing (n + 1) } }
    else { w with saving := some { save with stage := .written } }
  | .written => { w with saving := some { save with stage := .synced } }
  | .synced =>
    if exdev then
      { w with
        disk := { w.disk with main := some [] }, saving := some { save with stage := .copying 0 } }
    else
      { w with disk := ⟨w.disk.tmp, none⟩, saving := none, lastSaved := save.state }
  | .copying n =>
    if n < (w.disk.tmp.getD []).length then
      { w with
        disk := { w.disk with main := some ((w.disk.tmp.getD []).take (n + 1)) }
        saving := some { save with stage := .copying (n + 1) } }
    else { w with saving := some { save with stage := .copied } }
  | .copied =>
    { w with disk := { w.disk with tmp := none }, saving := none, lastSaved := save.state }

/-- Begin to save a state. -/
def saveState (w : Worker) (state : PersistentState) (order : Order) : Worker :=
  { w with saving := some ⟨state, toStringPretty order state, .opening⟩ }

/-- One event.  The loop takes in the next one only when its save is over. -/
def step (w : Worker) : Event Order → Worker × List Empty
  | .message state order =>
    match w.saving with
    | none => (saveState toStringPretty w state order, [])
    | some _ => (w, [])
  | .flush order =>
    match w.saving with
    | none =>
      match loadState fromStr w.disk with
      | some state => (saveState toStringPretty w state order, [])
      | none => (w, [])
    | some _ => (w, [])
  | .advance exdev =>
    match w.saving with
    | none => (w, [])
    | some save => (advance w save exdev, [])

/-- The worker at the start of its loop. -/
def idle (disk : Disk) (state : PersistentState) : Worker := ⟨disk, none, state⟩

/-- After a crash here the state file is there and holds the last state whose save completed or the
one being saved. -/
def Survives (w : Worker) : Prop :=
  w.disk.main ≠ none ∧
    (loadState fromStr w.disk = some w.lastSaved ∨
      ∃ save, w.saving = some save ∧ loadState fromStr w.disk = some save.state)

/-- A copy of the temporary file over the state file has begun and not yet written its last byte. -/
def MidCopy (w : Worker) : Prop :=
  ∃ save n, w.saving = some save ∧ save.stage = .copying n ∧ n < save.json.length

/-- The state comes back from its JSON, and no part of the JSON that misses its end can be
parsed. -/
structure Serializable (s : PersistentState) : Prop where
  roundTrip : ∀ order, fromStr (toStringPretty order s) = some s
  truncated : ∀ order n, n < (toStringPretty order s).length →
    fromStr ((toStringPretty order s).take n) = none

end Model

/-! ## The files during a save -/

variable {Order : Type} {toStringPretty : Order → PersistentState → Bytes}
variable {fromStr : Bytes → Option PersistentState} {w : Worker}

/-- The state file holds the last state whose save completed. -/
def KeepsLast (fromStr : Bytes → Option PersistentState) (w : Worker) : Prop :=
  w.disk.main ≠ none ∧ loadState fromStr w.disk = some w.lastSaved

/-- What the files hold at each stage of a save. -/
def StageHolds (fromStr : Bytes → Option PersistentState) (w : Worker) (json : Bytes) :
    Stage → Prop
  | .opening => KeepsLast fromStr w
  | .writing n => KeepsLast fromStr w ∧ n ≤ json.length ∧ w.disk.tmp = some (json.take n)
  | .written => KeepsLast fromStr w ∧ w.disk.tmp = some json
  | .synced => KeepsLast fromStr w ∧ w.disk.tmp = some json
  | .copying n => n ≤ json.length ∧ w.disk.main = some (json.take n) ∧ w.disk.tmp = some json
  | .copied => w.disk.main = some json

/-- Between two saves the state file holds the last state; during one the files are as its stage
has them. -/
structure Sound (toStringPretty : Order → PersistentState → Bytes)
    (fromStr : Bytes → Option PersistentState) (w : Worker) : Prop where
  lastSaved : Serializable toStringPretty fromStr w.lastSaved
  idle : w.saving = none → KeepsLast fromStr w
  saving : ∀ save, w.saving = some save →
    Serializable toStringPretty fromStr save.state ∧
      (∃ order, save.json = toStringPretty order save.state) ∧
      StageHolds fromStr w save.json save.stage

/-- A save that goes on keeps the worker sound when its files are as the new stage has them. -/
lemma Sound.next (hw : Sound toStringPretty fromStr w) {save : Save} (hsave : w.saving = some save)
    {disk : Disk} {stage : Stage}
    (hstage : StageHolds fromStr
      { w with disk := disk, saving := some { save with stage := stage } } save.json stage) :
    Sound toStringPretty fromStr
      { w with disk := disk, saving := some { save with stage := stage } } := by
  obtain ⟨hser, hjson, -⟩ := hw.saving save hsave
  refine ⟨hw.lastSaved, fun h => absurd h (by simp), ?_⟩
  intro next hnext
  obtain rfl := Option.some.inj hnext
  exact ⟨hser, hjson, hstage⟩

/-- A save that ends with its JSON in the state file keeps the worker sound. -/
lemma Sound.finish (hw : Sound toStringPretty fromStr w) {save : Save}
    (hsave : w.saving = some save) {disk : Disk} (hmain : disk.main = some save.json) :
    Sound toStringPretty fromStr ⟨disk, none, save.state⟩ := by
  obtain ⟨hser, ⟨order, hjson⟩, -⟩ := hw.saving save hsave
  refine ⟨hser, fun _ => ⟨by simp [hmain], ?_⟩, fun next h => absurd h (by simp)⟩
  simp only [loadState, hmain, hjson, hser.roundTrip]

/-- Every disk operation of a save keeps the worker sound. -/
lemma Sound.advance (hw : Sound toStringPretty fromStr w) {save : Save}
    (hsave : w.saving = some save) (exdev : Bool) :
    Sound toStringPretty fromStr (advance w save exdev) := by
  obtain ⟨-, -, hstage⟩ := hw.saving save hsave
  unfold AsyncPersistenceWorker.advance
  cases hs : save.stage with
  | opening =>
    rw [hs] at hstage
    exact hw.next hsave ⟨hstage, Nat.zero_le _, by simp⟩
  | writing n =>
    rw [hs] at hstage
    obtain ⟨hlast, hn, htmp⟩ := hstage
    dsimp only
    split
    · next hlt => exact hw.next hsave ⟨hlast, hlt, rfl⟩
    · next hge =>
      have hall : n = save.json.length := by omega
      exact hw.next hsave ⟨hlast, by rw [htmp, hall, List.take_length]⟩
  | written =>
    rw [hs] at hstage
    exact hw.next hsave hstage
  | synced =>
    rw [hs] at hstage
    obtain ⟨hlast, htmp⟩ := hstage
    dsimp only
    split
    · exact hw.next hsave ⟨Nat.zero_le _, by simp, htmp⟩
    · exact hw.finish hsave htmp
  | copying n =>
    rw [hs] at hstage
    obtain ⟨hn, hmain, htmp⟩ := hstage
    dsimp only
    rw [htmp, Option.getD_some]
    split
    · next hlt => exact hw.next hsave ⟨hlt, rfl, rfl⟩
    · next hge =>
      have hall : n = save.json.length := by omega
      have hcopied : w.disk.main = some save.json := by rw [hmain, hall, List.take_length]
      exact hw.next hsave hcopied
  | copied =>
    rw [hs] at hstage
    exact hw.finish hsave hstage

/-- Beginning a save keeps the worker sound. -/
lemma Sound.saveState (hw : Sound toStringPretty fromStr w) (hidle : w.saving = none)
    {state : PersistentState} (hser : Serializable toStringPretty fromStr state) (order : Order) :
    Sound toStringPretty fromStr (saveState toStringPretty w state order) := by
  refine ⟨hw.lastSaved, fun h => absurd h (by simp [AsyncPersistenceWorker.saveState]), ?_⟩
  intro save hsave
  obtain rfl := Option.some.inj hsave
  exact ⟨hser, ⟨order, rfl⟩, hw.idle hidle⟩

/-- The snapshots of an event. -/
def Event.snapshots : Event Order → List PersistentState
  | .message state _ => [state]
  | _ => []

/-- Every event keeps the worker sound. -/
lemma Sound.step (hw : Sound toStringPretty fromStr w) (event : Event Order)
    (hser : ∀ state ∈ event.snapshots, Serializable toStringPretty fromStr state) :
    Sound toStringPretty fromStr (step toStringPretty fromStr w event).1 := by
  cases event with
  | message state order =>
    cases hsaving : w.saving with
    | none =>
      simp only [AsyncPersistenceWorker.step, hsaving]
      exact hw.saveState hsaving (hser state (by simp [Event.snapshots])) order
    | some save => simpa only [AsyncPersistenceWorker.step, hsaving] using hw
  | flush order =>
    cases hsaving : w.saving with
    | none =>
      -- an idle worker loads the last state it saved
      have hload := (hw.idle hsaving).2
      simp only [AsyncPersistenceWorker.step, hsaving, hload]
      exact hw.saveState hsaving hw.lastSaved order
    | some save => simpa only [AsyncPersistenceWorker.step, hsaving] using hw
  | advance exdev =>
    cases hsaving : w.saving with
    | none => simpa only [AsyncPersistenceWorker.step, hsaving] using hw
    | some save =>
      simp only [AsyncPersistenceWorker.step, hsaving]
      exact hw.advance hsaving exdev

/-- A sound worker survives a crash unless it is inside a copy. -/
lemma Sound.survives_iff_not_midCopy (hw : Sound toStringPretty fromStr w) :
    Survives fromStr w ↔ ¬ MidCopy w := by
  have hkeeps : KeepsLast fromStr w → Survives fromStr w := fun h => ⟨h.1, Or.inl h.2⟩
  cases hsaving : w.saving with
  | none =>
    refine iff_of_true (hkeeps (hw.idle hsaving)) ?_
    rintro ⟨save, n, hsave, -⟩
    simp [hsaving] at hsave
  | some save =>
    obtain ⟨hser, ⟨order, hjson⟩, hstage⟩ := hw.saving save hsaving
    have hmid : MidCopy w ↔ ∃ n, save.stage = .copying n ∧ n < save.json.length := by
      simp [MidCopy, hsaving]
    have hnew : w.disk.main = some save.json → Survives fromStr w := by
      intro hmain
      refine ⟨by simp [hmain], Or.inr ⟨save, hsaving, ?_⟩⟩
      simp only [loadState, hmain, hjson, hser.roundTrip]
    rw [hmid]
    cases hs : save.stage with
    | opening =>
      rw [hs] at hstage
      exact iff_of_true (hkeeps hstage) (by simp)
    | writing n =>
      rw [hs] at hstage
      exact iff_of_true (hkeeps hstage.1) (by simp)
    | written =>
      rw [hs] at hstage
      exact iff_of_true (hkeeps hstage.1) (by simp)
    | synced =>
      rw [hs] at hstage
      exact iff_of_true (hkeeps hstage.1) (by simp)
    | copying n =>
      rw [hs] at hstage
      obtain ⟨hn, hmain, -⟩ := hstage
      rcases hn.lt_or_eq with hlt | rfl
      · -- the file ends inside the JSON and cannot be parsed
        have hnone : loadState fromStr w.disk = none := by
          simp only [loadState, hmain, hjson]
          exact hser.truncated order n (hjson ▸ hlt)
        have hlost : ¬ Survives fromStr w := by
          rintro ⟨-, h | ⟨_, -, h⟩⟩
          · simp [hnone] at h
          · simp [hnone] at h
        exact iff_of_false hlost (by simpa using hlt)
      · rw [List.take_length] at hmain
        exact iff_of_true (hnew hmain) (by simp)
    | copied =>
      rw [hs] at hstage
      exact iff_of_true (hnew hstage) (by simp)

/-- From a valid state file the worker is sound after any events. -/
lemma sound_runState {disk : Disk} {state : PersistentState}
    (hmain : disk.main ≠ none) (hload : loadState fromStr disk = some state)
    (hstate : Serializable toStringPretty fromStr state) {events : List (Event Order)}
    (hser : ∀ event ∈ events, ∀ s ∈ event.snapshots, Serializable toStringPretty fromStr s) :
    Sound toStringPretty fromStr
      (runState (step toStringPretty fromStr) (idle disk state) events) := by
  have hinit : Sound toStringPretty fromStr (idle disk state) :=
    ⟨hstate, fun _ => ⟨hmain, hload⟩, fun save h => absurd h (by simp [idle])⟩
  exact runState_induction (fun _ event hw h => hw.step event h) hinit hser

/-- From a valid state file, after any events the state survives a crash exactly when the crash does
not come inside a copy across devices. -/
theorem survives_iff (toStringPretty : Order → PersistentState → Bytes)
    (fromStr : Bytes → Option PersistentState) {disk : Disk} {state : PersistentState}
    (hmain : disk.main ≠ none) (hload : loadState fromStr disk = some state)
    (hstate : Serializable toStringPretty fromStr state) {events : List (Event Order)}
    (hser : ∀ event ∈ events, ∀ s ∈ event.snapshots, Serializable toStringPretty fromStr s) :
    Survives fromStr (runState (step toStringPretty fromStr) (idle disk state) events) ↔
      ¬ MidCopy (runState (step toStringPretty fromStr) (idle disk state) events) :=
  (sound_runState hmain hload hstate hser).survives_iff_not_midCopy

/-! ## A save cut inside the copy -/

/-- A state of a fresh bot after some trades. -/
def afterTrades (trades : UInt64) : PersistentState :=
  { PersistentState.initial with totalTrades := trades }

/-- The JSON of such a state. -/
def tradesJson (_ : Unit) (s : PersistentState) : Bytes :=
  ("\x7b\n  \"paper_usd_balance\": \"0\",\n  \"is_system_risk_frozen\": false,\n" ++
    "  \"session_pnl_cents\": 0,\n  \"total_trades\": " ++ toString s.totalTrades ++
    ",\n  \"timestamp\": 0,\n  \"exchange_health\": \x7b\x7d\n\x7d").toByteArray.data.toList

/-- The states with six and with seven trades, read back from their JSON. -/
def readTrades (bytes : Bytes) : Option PersistentState :=
  if bytes = tradesJson () (afterTrades 6) then some (afterTrades 6)
  else if bytes = tradesJson () (afterTrades 7) then some (afterTrades 7)
  else none

/-- Texts other than the two are not read. -/
lemma readTrades_of_length_ne {bytes : Bytes}
    (h : bytes.length ≠ (tradesJson () (afterTrades 6)).length) : readTrades bytes = none := by
  have hlen : (tradesJson () (afterTrades 7)).length = (tradesJson () (afterTrades 6)).length := by
    decide +kernel
  unfold readTrades
  have hsix : bytes ≠ tradesJson () (afterTrades 6) := fun heq => h (congrArg List.length heq)
  have hseven : bytes ≠ tradesJson () (afterTrades 7) :=
    fun heq => h ((congrArg List.length heq).trans hlen)
  rw [if_neg hsix, if_neg hseven]

/-- Both states can be written and read back. -/
lemma serializable_afterTrades {trades : UInt64} (h : trades = 6 ∨ trades = 7) :
    Serializable tradesJson readTrades (afterTrades trades) := by
  have hlen : (tradesJson () (afterTrades trades)).length =
      (tradesJson () (afterTrades 6)).length := by
    rcases h with rfl | rfl
    · rfl
    · decide +kernel
  constructor
  · rintro ⟨⟩
    rcases h with rfl | rfl
    · exact if_pos rfl
    · have hne : tradesJson () (afterTrades 7) ≠ tradesJson () (afterTrades 6) := by decide +kernel
      rw [readTrades, if_neg hne, if_pos rfl]
  · rintro ⟨⟩ n hn
    apply readTrades_of_length_ne
    rw [List.length_take, min_eq_left hn.le, ← hlen]
    exact hn.ne

/-- A save of seven trades, up to the rename or, across devices, to the begin of the copy. -/
def sevenTrades (exdev : Bool) : List (Event Unit) :=
  .message (afterTrades 7) () ::
    List.replicate ((tradesJson () (afterTrades 7)).length + 4) (.advance exdev)

/-- The disk with a state file of six trades. -/
def sixTrades : Disk := ⟨some (tradesJson () (afterTrades 6)), none⟩

/-- The state file of six trades is valid. -/
lemma loadState_sixTrades : loadState readTrades sixTrades = some (afterTrades 6) :=
  (serializable_afterTrades (Or.inl rfl)).roundTrip ()

/-- The only snapshot of the save has seven trades. -/
lemma serializable_sevenTrades {exdev : Bool} {event : Event Unit} (h : event ∈ sevenTrades exdev)
    {s : PersistentState} (hs : s ∈ event.snapshots) : Serializable tradesJson readTrades s := by
  rcases List.mem_cons.mp h with rfl | h
  · obtain rfl := List.mem_singleton.mp hs
    exact serializable_afterTrades (Or.inr rfl)
  · obtain rfl := List.eq_of_mem_replicate h
    exact absurd hs (by simp [Event.snapshots])

/-- A crash right after the rename leaves the new state. -/
theorem survives_iff_renamed :
    Survives readTrades (runState (step tradesJson readTrades) (idle sixTrades (afterTrades 6))
      (sevenTrades false)) := by
  have hsaving : (runState (step tradesJson readTrades) (idle sixTrades (afterTrades 6))
      (sevenTrades false)).saving.isNone = true := by
    decide +kernel
  refine (survives_iff tradesJson readTrades (by simp [sixTrades]) loadState_sixTrades
    (serializable_afterTrades (Or.inl rfl)) fun _ h _ hs => serializable_sevenTrades h hs).mpr ?_
  rintro ⟨save, n, hsave, -⟩
  simp [hsave] at hsaving

/-- A crash at the begin of a copy across devices leaves an empty state file. -/
theorem not_survives_cut_copy :
    ¬ Survives readTrades (runState (step tradesJson readTrades) (idle sixTrades (afterTrades 6))
      (sevenTrades true)) := by
  have hmain : (runState (step tradesJson readTrades) (idle sixTrades (afterTrades 6))
      (sevenTrades true)).disk.main = some [] := by
    decide +kernel
  have hload : loadState readTrades (runState (step tradesJson readTrades)
      (idle sixTrades (afterTrades 6)) (sevenTrades true)).disk = none := by
    rw [loadState, hmain]
    exact readTrades_of_length_ne (by decide +kernel)
  rintro ⟨-, h | ⟨save, -, h⟩⟩
  · simp [hload] at h
  · simp [hload] at h

end AsyncPersistenceWorker

end HftArb
