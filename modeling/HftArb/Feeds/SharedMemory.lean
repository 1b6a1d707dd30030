import Mathlib.Data.List.GetD
import HftArb.Foundations.Interleaving
import HftArb.Foundations.SeqLock
import HftArb.Foundations.Utf8

/-!
# Market frames in shared memory

Each slot of an arena holds a frame, which is read without a lock.  A write takes a number from the
counter of the arena, sets the sequence word to twice the number and one, stores the symbol byte by
byte and the three words, and sets the sequence word to twice the number.  A read is given up unless
it finds the same even sequence word before and after it.

The odd word of a write comes before the even one, so that the `age` of a frame only grows.
`wrote_writeStep` says what an access of a write leaves in its frame, and `knows_readStep` and
`settled_of_readStep` what an access of a read knows of it and returns.
-/

namespace HftArb

open Runs Interleaving SeqLock

namespace SharedMemory

/-- `MAX_SYMBOL_LEN`. -/
def maxSymbolLen : ℕ := 12

/-- A frame. -/
structure SharedMarketFrame where
  sequenceId : UInt64
  symbol : Vector UInt8 maxSymbolLen
  bestBid : UInt64
  bestAsk : UInt64
  timestamp : UInt64
  deriving DecidableEq

/-- A zeroed frame. -/
def SharedMarketFrame.zeroed : SharedMarketFrame := ⟨0, Vector.replicate maxSymbolLen 0, 0, 0, 0⟩

/-- What is written to a frame, and what is read in one. -/
structure MarketData where
  seq : UInt64
  symbol : List UInt8
  bestBid : UInt64
  bestAsk : UInt64
  timestamp : UInt64
  deriving DecidableEq

/-- A byte of a symbol. -/
def byteAt (symbol : Vector UInt8 maxSymbolLen) (i : ℕ) : UInt8 := symbol[i]?.getD 0

/-! ## Writes and reads, access by access -/

/-- The next access of `SharedMarketFrame::write`. -/
inductive Store
  | odd
  | clearByte (i : ℕ)
  | copyByte (i : ℕ)
  | bestBid
  | bestAsk
  | timestamp
  | even
  deriving DecidableEq

/-- The number of bytes that are copied. -/
def copyLen (symbol : List UInt8) : ℕ := min symbol.length (maxSymbolLen - 1)

/-- The bytes from one on are copied before the bid is stored. -/
def copyFrom (d : MarketData) (i : ℕ) : Store :=
  if i < copyLen d.symbol then .copyByte i else .bestBid

/-- One access of a write, with the next one. -/
def writeStep (d : MarketData) (f : SharedMarketFrame) : Store → SharedMarketFrame × Option Store
  | .odd => ({ f with sequenceId := d.seq * 2 + 1 }, some (.clearByte 0))
  | .clearByte i =>
    ({ f with symbol := f.symbol.setIfInBounds i 0 },
      some (if i + 1 < maxSymbolLen then .clearByte (i + 1) else copyFrom d 0))
  | .copyByte i =>
    ({ f with symbol := f.symbol.setIfInBounds i (d.symbol.getD i 0) }, some (copyFrom d (i + 1)))
  | .bestBid => ({ f with bestBid := d.bestBid }, some .bestAsk)
  | .bestAsk => ({ f with bestAsk := d.bestAsk }, some .timestamp)
  | .timestamp => ({ f with timestamp := d.timestamp }, some .even)
  | .even => ({ f with sequenceId := d.seq * 2 }, none)

/-- The words that a read has loaded. -/
structure Words where
  seq1 : UInt64
  bid : UInt64
  ask : UInt64
  ts : UInt64
  deriving DecidableEq

/-- The next access of `read_consistent`.  The end of the symbol is found first, and then its bytes
are read again. -/
inductive Load
  | first
  | bestBid (seq1 : UInt64)
  | bestAsk (seq1 bid : UInt64)
  | timestamp (seq1 bid ask : UInt64)
  | findEnd (w : Words) (i : ℕ)
  | text (w : Words) (stop : ℕ) (bytes : List UInt8)
  | again (w : Words) (sym : List UInt8)
  deriving DecidableEq

/-- `str::from_utf8`, with the empty text for bytes that are no text. -/
def textOf (bytes : List UInt8) : List UInt8 := if Utf8.Valid bytes then bytes else []

/-- The bytes up to the end are read before the sequence word is loaded again. -/
def textFrom (w : Words) (stop : ℕ) (bytes : List UInt8) : Load :=
  if bytes.length < stop then .text w stop bytes else .again w (textOf bytes)

/-- One access of a read, with the next one or with the result. -/
def readStep (f : SharedMarketFrame) : Load → Option Load × Option MarketData
  | .first =>
    if f.sequenceId &&& 1 ≠ 0 then (none, none) else (some (.bestBid f.sequenceId), none)
  | .bestBid seq1 => (some (.bestAsk seq1 f.bestBid), none)
  | .bestAsk seq1 bid => (some (.timestamp seq1 bid f.bestAsk), none)
  | .timestamp seq1 bid ask => (some (.findEnd ⟨seq1, bid, ask, f.timestamp⟩ 0), none)
  | .findEnd w i =>
    if byteAt f.symbol i = 0 then (some (textFrom w i []), none)
    else if i + 1 < maxSymbolLen then (some (.findEnd w (i + 1)), none)
    else (some (textFrom w maxSymbolLen []), none)
  | .text w stop bytes =>
    (some (textFrom w stop (bytes ++ [byteAt f.symbol bytes.length])), none)
  | .again w sym =>
    if w.seq1 ≠ f.sequenceId ∨ f.sequenceId &&& 1 ≠ 0 then (none, none)
    else (none, some ⟨w.seq1 / 2, sym, w.bid, w.ask, w.ts⟩)

/-! ## The arena -/

/-- The frames and the counter. -/
structure SharedMemoryArena (capacity : ℕ) where
  frames : Fin capacity → SharedMarketFrame
  globalSeq : UInt64

/-- The arena with another frame at a slot. -/
def SharedMemoryArena.set {capacity : ℕ} (a : SharedMemoryArena capacity) (slot : Fin capacity)
    (f : SharedMarketFrame) : SharedMemoryArena capacity :=
  { a with frames := Function.update a.frames slot f }

lemma SharedMemoryArena.set_frames_self {capacity : ℕ} (a : SharedMemoryArena capacity)
    (slot : Fin capacity) (f : SharedMarketFrame) : (a.set slot f).frames slot = f := by
  simp [SharedMemoryArena.set]

lemma SharedMemoryArena.set_frames_of_ne {capacity : ℕ} (a : SharedMemoryArena capacity)
    {slot slot' : Fin capacity} (h : slot' ≠ slot) (f : SharedMarketFrame) :
    (a.set slot f).frames slot' = a.frames slot' := by
  simp [SharedMemoryArena.set, h]

/-- A text. -/
structure Text where
  bytes : List UInt8
  valid : Utf8.Valid bytes

/-- A call of `write_slot`, or of `read_slot` and `read_consistent`. -/
inductive Call
  | write (slot : ℕ) (symbol : Text) (bestBid bestAsk : UInt64)
  | read (slot : ℕ)

/-- A call under way, at its next access. -/
inductive Op (capacity : ℕ)
  | fetchSeq (slot : Fin capacity) (symbol : List UInt8) (bestBid bestAsk : UInt64)
  | store (slot : Fin capacity) (d : MarketData) (next : Store)
  | load (slot : Fin capacity) (next : Load)
  deriving DecidableEq

/-- A write has its number, its time and its data, or a read returns. -/
inductive Event (capacity : ℕ)
  | writes (slot : Fin capacity) (d : MarketData)
  | returns (slot : Fin capacity) (d : MarketData)
  deriving DecidableEq

variable {capacity : ℕ}

/-- What a call does before its first access.  A slot that is out of bounds is an error. -/
def enter : Call → Option (Op capacity) × List (Event capacity)
  | .write slot symbol bestBid bestAsk =>
    if h : slot < capacity then (some (.fetchSeq ⟨slot, h⟩ symbol.bytes bestBid bestAsk), [])
    else (none, [])
  | .read slot => if h : slot < capacity then (some (.load ⟨slot, h⟩ .first), []) else (none, [])

/-- One access.  The clock is read with the number of the write. -/
def access (a : SharedMemoryArena capacity) (now : UInt64) :
    Op capacity → Outcome (SharedMemoryArena capacity) (Op capacity) (Event capacity)
  | .fetchSeq slot symbol bestBid bestAsk =>
    let d : MarketData := ⟨a.globalSeq, symbol, bestBid, bestAsk, now⟩
    ⟨{ a with globalSeq := a.globalSeq + 1 }, some (.store slot d .odd), [.writes slot d]⟩
  | .store slot d next =>
    let r := writeStep d (a.frames slot) next
    ⟨a.set slot r.1, r.2.map (.store slot d), []⟩
  | .load slot next =>
    let r := readStep (a.frames slot) next
    ⟨a, r.1.map (.load slot), (r.2.map (.returns slot)).toList⟩

/-- The calls on an arena. -/
def arenaSystem (capacity : ℕ) :
    System (SharedMemoryArena capacity) Call (Op capacity) UInt64 (Event capacity) where
  enter := enter
  access := access

/-- A new arena with no call under way. -/
def new (capacity : ℕ) : State (SharedMemoryArena capacity) (Op capacity) :=
  ⟨⟨fun _ => .zeroed, 1⟩, []⟩

/-! ## The age of a frame -/

/-- The frame is not being written. -/
def Settled (f : SharedMarketFrame) : Prop := f.sequenceId.toNat % 2 = 0

instance (f : SharedMarketFrame) : Decidable (Settled f) := inferInstanceAs (Decidable (_ = _))

/-- The sequence words in the order in which they are stored: the odd word of a write comes before
the even one. -/
def age (f : SharedMarketFrame) : ℕ :=
  if Settled f then f.sequenceId.toNat else f.sequenceId.toNat - 2

lemma age_of_settled {f : SharedMarketFrame} (h : Settled f) : age f = f.sequenceId.toNat :=
  if_pos h

section Number

variable {f : SharedMarketFrame} {seq : UInt64} (hseq : seq.toNat < 2 ^ 63)

include hseq

lemma toNat_even : (seq * 2).toNat = 2 * seq.toNat := by
  rw [UInt64.toNat_mul]
  change seq.toNat * 2 % 2 ^ 64 = _
  omega

lemma toNat_odd : (seq * 2 + 1).toNat = 2 * seq.toNat + 1 := by
  rw [UInt64.toNat_add, toNat_even hseq, UInt64.toNat_one]
  omega

/-- The odd word of a write. -/
lemma age_odd (h : f.sequenceId = seq * 2 + 1) : ¬ Settled f ∧ age f = 2 * seq.toNat - 1 := by
  have hodd := toNat_odd hseq
  rw [← h] at hodd
  have hnot : ¬ Settled f := by
    unfold Settled
    omega
  refine ⟨hnot, ?_⟩
  rw [age, if_neg hnot]
  omega

/-- The even word of a write. -/
lemma age_even (h : f.sequenceId = seq * 2) :
    Settled f ∧ age f = 2 * seq.toNat ∧ f.sequenceId / 2 = seq := by
  have heven := toNat_even hseq
  rw [← h] at heven
  have hsettled : Settled f := by
    unfold Settled
    omega
  refine ⟨hsettled, (age_of_settled hsettled).trans heven, ?_⟩
  rw [← UInt64.toNat_inj, UInt64.toNat_div, heven]
  change 2 * seq.toNat / 2 = _
  omega

end Number

/-! ## Symbols -/

/-- The first bytes of a symbol. -/
def bytesOf (symbol : Vector UInt8 maxSymbolLen) (k : ℕ) : List UInt8 :=
  (List.range k).map (byteAt symbol)

/-- `SharedMarketFrame::symbol_str` on a symbol that does not change. -/
def symbolStr (symbol : Vector UInt8 maxSymbolLen) : List UInt8 :=
  textOf ((bytesOf symbol maxSymbolLen).takeWhile fun b => b ≠ 0)

/-- The symbol that is read after a text has been written. -/
def shown (text : List UInt8) : List UInt8 :=
  textOf ((text.take (maxSymbolLen - 1)).takeWhile fun b => b ≠ 0)

/-- Where the first byte of a symbol is that is zero. -/
structure Ends (symbol : Vector UInt8 maxSymbolLen) (stop : ℕ) : Prop where
  le : stop ≤ maxSymbolLen
  before : ∀ j < stop, byteAt symbol j ≠ 0
  at_stop : stop = maxSymbolLen ∨ byteAt symbol stop = 0

lemma byteAt_setIfInBounds (symbol : Vector UInt8 maxSymbolLen) {i : ℕ} {b : UInt8}
    (h : i < maxSymbolLen ∨ b = 0) (j : ℕ) :
    byteAt (symbol.setIfInBounds i b) j = if i = j then b else byteAt symbol j := by
  unfold byteAt
  rw [Vector.getElem?_setIfInBounds]
  split_ifs with heq hlt
  · rfl
  · exact (h.resolve_left hlt).symm
  · rfl

lemma byteAt_of_ge (symbol : Vector UInt8 maxSymbolLen) {i : ℕ} (h : maxSymbolLen ≤ i) :
    byteAt symbol i = 0 := by
  unfold byteAt
  rw [Vector.getElem?_eq_none h]
  rfl

lemma bytesOf_succ (symbol : Vector UInt8 maxSymbolLen) (k : ℕ) :
    bytesOf symbol (k + 1) = bytesOf symbol k ++ [byteAt symbol k] := by
  rw [bytesOf, List.range_succ, List.map_append]
  rfl

/-- A read of the bytes up to the end is a read of the symbol. -/
lemma Ends.symbolStr_eq {symbol : Vector UInt8 maxSymbolLen} {stop : ℕ} (h : Ends symbol stop) :
    symbolStr symbol = textOf (bytesOf symbol stop) := by
  have hbefore : ∀ b ∈ bytesOf symbol stop, decide (b ≠ 0) = true := by
    intro b hb
    obtain ⟨j, hj, rfl⟩ := List.mem_map.mp hb
    exact decide_eq_true (h.before j (List.mem_range.mp hj))
  obtain ⟨rest, hrest⟩ := Nat.exists_eq_add_of_le h.le
  have hsplit : bytesOf symbol maxSymbolLen =
      bytesOf symbol stop ++ (List.range rest).map fun j => byteAt symbol (stop + j) := by
    rw [bytesOf, bytesOf, hrest, List.range_add, List.map_append, List.map_map]
    rfl
  rw [symbolStr, hsplit, List.takeWhile_append_of_pos hbefore]
  cases rest with
  | zero => simp
  | succ rest =>
    have hzero : byteAt symbol stop = 0 := h.at_stop.resolve_left (by omega)
    rw [List.range_succ_eq_map, List.map_cons, Nat.add_zero,
      List.takeWhile_cons_of_neg (by simp [hzero]), List.append_nil]

/-- A symbol that a text has been copied to. -/
def Copied (symbol : Vector UInt8 maxSymbolLen) (text : List UInt8) : Prop :=
  ∀ j, byteAt symbol j = (text.take (maxSymbolLen - 1)).getD j 0

/-- What is read of a symbol that a text has been copied to. -/
lemma Copied.symbolStr_eq {symbol : Vector UInt8 maxSymbolLen} {text : List UInt8}
    (h : Copied symbol text) : symbolStr symbol = shown text := by
  have hle : (text.take (maxSymbolLen - 1)).length < maxSymbolLen := by
    rw [List.length_take]
    unfold maxSymbolLen
    omega
  have hat : ∀ j, byteAt symbol j = (text.take (maxSymbolLen - 1)).getD j 0 := h
  unfold symbolStr shown
  congr 1
  generalize text.take (maxSymbolLen - 1) = bytes at hat hle ⊢
  have hbytes : bytesOf symbol maxSymbolLen =
      bytes ++ List.replicate (maxSymbolLen - bytes.length) 0 := by
    apply List.ext_getElem
    · simp [bytesOf]
      omega
    · intro j _ _
      simp only [bytesOf, List.getElem_map, List.getElem_range, List.getElem_append,
        List.getElem_replicate]
      rw [hat]
      split
      · next hj => rw [List.getD_eq_getElem _ _ hj]
      · next hj => rw [List.getD_eq_default _ _ (by omega)]
  rw [hbytes, List.takeWhile_append]
  split
  · next hall =>
    rw [(List.takeWhile_prefix _).eq_of_length hall, List.takeWhile_replicate, if_neg (by simp),
      List.append_nil]
  · rfl

/-! ## One access of a write -/

/-- What a read returns of a frame that does not change. -/
def contents (f : SharedMarketFrame) : MarketData :=
  ⟨f.sequenceId / 2, symbolStr f.symbol, f.bestBid, f.bestAsk, f.timestamp⟩

/-- The data of a write with the symbol as it is read. -/
def MarketData.asRead (d : MarketData) : MarketData := { d with symbol := shown d.symbol }

/-- The first bytes of a text have been copied to a symbol, and the others are zero. -/
def CopiedUpTo (symbol : Vector UInt8 maxSymbolLen) (text : List UInt8) (i : ℕ) : Prop :=
  ∀ j, byteAt symbol j = if j < i then text.getD j 0 else 0

/-- The frame has the odd word of a write. -/
def Marked (f : SharedMarketFrame) (d : MarketData) : Prop := f.sequenceId = d.seq * 2 + 1

/-- What a write knows of its frame before its next access. -/
def Store.Knows (f : SharedMarketFrame) (d : MarketData) : Store → Prop
  | .odd => age f + 1 < 2 * d.seq.toNat
  | .clearByte i => Marked f d ∧ ∀ j < i, byteAt f.symbol j = 0
  | .copyByte i => Marked f d ∧ i < copyLen d.symbol ∧ CopiedUpTo f.symbol d.symbol i
  | .bestBid => Marked f d ∧ Copied f.symbol d.symbol
  | .bestAsk => Marked f d ∧ Copied f.symbol d.symbol ∧ f.bestBid = d.bestBid
  | .timestamp =>
    Marked f d ∧ Copied f.symbol d.symbol ∧ f.bestBid = d.bestBid ∧ f.bestAsk = d.bestAsk
  | .even =>
    Marked f d ∧ Copied f.symbol d.symbol ∧ f.bestBid = d.bestBid ∧ f.bestAsk = d.bestAsk ∧
      f.timestamp = d.timestamp

/-- What an access of a write leaves: a frame that is being written, or the data. -/
structure Wrote (f f' : SharedMarketFrame) (d : MarketData) (next : Option Store) : Prop where
  changed : Changed age Settled f f'
  knows : ∀ st ∈ next, st.Knows f' d
  whole : Settled f' → contents f' = d.asRead
  age_le : age f' ≤ 2 * d.seq.toNat

/-- A text is copied when all its bytes are. -/
lemma CopiedUpTo.knows {f : SharedMarketFrame} {d : MarketData} {i : ℕ} (hmarked : Marked f d)
    (hi : i ≤ copyLen d.symbol) (h : CopiedUpTo f.symbol d.symbol i) :
    (copyFrom d i).Knows f d := by
  unfold copyFrom
  split
  · next hlt => exact ⟨hmarked, hlt, h⟩
  · next hge =>
    obtain rfl : i = copyLen d.symbol := Nat.le_antisymm hi (not_lt.mp hge)
    refine ⟨hmarked, fun j => ?_⟩
    rw [h j]
    split
    · next hj =>
      obtain ⟨hlength, hmax⟩ := lt_min_iff.mp hj
      rw [List.getD_eq_getElem _ _ hlength,
        List.getD_eq_getElem _ _ (by rw [List.length_take]; exact lt_min hmax hlength),
        List.getElem_take]
    · next hj =>
      rw [List.getD_eq_default]
      rw [List.length_take, min_comm]
      exact not_lt.mp hj

section WriteStep

variable {f : SharedMarketFrame} {d : MarketData}

/-- A store between the odd word and the even one. -/
lemma Marked.wrote (h : Marked f d) (hsmall : d.seq.toNat < 2 ^ 63) {st next : Store}
    (hnext : (writeStep d f st).2 = some next)
    (hsame : (writeStep d f st).1.sequenceId = f.sequenceId)
    (hknows : next.Knows (writeStep d f st).1 d) :
    Wrote f (writeStep d f st).1 d (writeStep d f st).2 := by
  obtain ⟨-, hage⟩ := age_odd hsmall h
  obtain ⟨hnot, hage'⟩ := age_odd hsmall (hsame.trans h)
  refine ⟨.unsettled (hage'.trans hage.symm) hnot, ?_, fun hsettled => absurd hsettled hnot, ?_⟩
  · rw [hnext]
    rintro st' ⟨rfl⟩
    exact hknows
  · omega

/-- The odd word is stored. -/
lemma wrote_odd (hsmall : d.seq.toNat < 2 ^ 63) (h : Store.odd.Knows f d) :
    Wrote f (writeStep d f .odd).1 d (writeStep d f .odd).2 := by
  have hmarked : Marked (writeStep d f .odd).1 d := rfl
  have hyounger : age f + 1 < 2 * d.seq.toNat := h
  obtain ⟨hnot, hage⟩ := age_odd hsmall hmarked
  refine ⟨.older (by omega), ?_, fun hsettled => absurd hsettled hnot, by omega⟩
  rintro st ⟨rfl⟩
  exact ⟨hmarked, fun j hj => absurd hj (Nat.not_lt_zero j)⟩

/-- The even word is stored. -/
lemma wrote_even (hpos : 1 ≤ d.seq.toNat) (hsmall : d.seq.toNat < 2 ^ 63)
    (h : Store.even.Knows f d) : Wrote f (writeStep d f .even).1 d (writeStep d f .even).2 := by
  obtain ⟨hmarked, hsymbol, hbid, hask, hts⟩ := h
  have heven : (writeStep d f .even).1.sequenceId = d.seq * 2 := rfl
  obtain ⟨-, hage⟩ := age_odd hsmall hmarked
  obtain ⟨-, hage', hseq⟩ := age_even hsmall heven
  refine ⟨.older (by omega), ?_, fun _ => ?_, hage'.le⟩
  · intro st hst
    cases hst
  change MarketData.mk (d.seq * 2 / 2) (symbolStr f.symbol) f.bestBid f.bestAsk f.timestamp = _
  rw [← heven, hseq, hsymbol.symbolStr_eq, hbid, hask, hts]
  rfl

lemma wrote_clearByte (hsmall : d.seq.toNat < 2 ^ 63) {i : ℕ} (h : (Store.clearByte i).Knows f d) :
    Wrote f (writeStep d f (.clearByte i)).1 d (writeStep d f (.clearByte i)).2 := by
  obtain ⟨hmarked, hclear⟩ := h
  have hbyte : ∀ j < i + 1, byteAt (f.symbol.setIfInBounds i 0) j = 0 := by
    intro j hj
    rw [byteAt_setIfInBounds _ (Or.inr rfl)]
    split
    · rfl
    · next hne => exact hclear j (by omega)
  refine hmarked.wrote hsmall rfl rfl ?_
  split
  · exact ⟨hmarked, hbyte⟩
  · next hlast =>
    refine CopiedUpTo.knows hmarked (Nat.zero_le _) fun j => ?_
    rw [if_neg (Nat.not_lt_zero j)]
    rcases Nat.lt_or_ge j (i + 1) with hj | hj
    · exact hbyte j hj
    · exact byteAt_of_ge _ (by omega)

lemma wrote_copyByte (hsmall : d.seq.toNat < 2 ^ 63) {i : ℕ} (h : (Store.copyByte i).Knows f d) :
    Wrote f (writeStep d f (.copyByte i)).1 d (writeStep d f (.copyByte i)).2 := by
  obtain ⟨hmarked, hlt, hcopied⟩ := h
  have hbound : i < maxSymbolLen := by
    have hmax := (lt_min_iff.mp hlt).2
    omega
  refine hmarked.wrote hsmall rfl rfl (CopiedUpTo.knows hmarked hlt fun j => ?_)
  change byteAt (f.symbol.setIfInBounds i (d.symbol.getD i 0)) j = _
  rw [byteAt_setIfInBounds _ (Or.inl hbound), hcopied j]
  split
  · next heq => rw [heq, if_pos (Nat.lt_succ_self j)]
  · next hne =>
    have hiff : j < i + 1 ↔ j < i := by omega
    simp only [hiff]

/-- Every access of a write. -/
lemma wrote_writeStep (hpos : 1 ≤ d.seq.toNat) (hsmall : d.seq.toNat < 2 ^ 63) {st : Store}
    (h : st.Knows f d) : Wrote f (writeStep d f st).1 d (writeStep d f st).2 := by
  cases st with
  | odd => exact wrote_odd hsmall h
  | clearByte i => exact wrote_clearByte hsmall h
  | copyByte i => exact wrote_copyByte hsmall h
  | bestBid => exact h.1.wrote hsmall rfl rfl ⟨h.1, h.2, rfl⟩
  | bestAsk => exact h.1.wrote hsmall rfl rfl ⟨h.1, h.2.1, h.2.2, rfl⟩
  | timestamp => exact h.1.wrote hsmall rfl rfl ⟨h.1, h.2.1, h.2.2.1, h.2.2.2, rfl⟩
  | even => exact wrote_even hpos hsmall h

end WriteStep

/-! ## One access of a read -/

/-- The words that a read has loaded are the ones of the frame. -/
structure Words.Of (w : Words) (f : SharedMarketFrame) : Prop where
  bid : w.bid = f.bestBid
  ask : w.ask = f.bestAsk
  ts : w.ts = f.timestamp

/-- What a read knows of its frame before its next access. -/
def Load.Knows (f : SharedMarketFrame) : Load → Prop
  | .first => True
  | .bestBid seq1 => Seen age Settled f seq1.toNat fun _ => True
  | .bestAsk seq1 bid => Seen age Settled f seq1.toNat fun f => bid = f.bestBid
  | .timestamp seq1 bid ask =>
    Seen age Settled f seq1.toNat fun f => bid = f.bestBid ∧ ask = f.bestAsk
  | .findEnd w i =>
    Seen age Settled f w.seq1.toNat fun f =>
      w.Of f ∧ i < maxSymbolLen ∧ ∀ j < i, byteAt f.symbol j ≠ 0
  | .text w stop bytes =>
    Seen age Settled f w.seq1.toNat fun f =>
      w.Of f ∧ Ends f.symbol stop ∧ bytes.length < stop ∧ bytes = bytesOf f.symbol bytes.length
  | .again w sym =>
    Seen age Settled f w.seq1.toNat fun f => w.Of f ∧ sym = symbolStr f.symbol

section ReadStep

variable {f f' : SharedMarketFrame} {ld : Load}

/-- A read is not disturbed by the accesses of writes. -/
lemma Load.Knows.changed (h : ld.Knows f) (hchanged : Changed age Settled f f') :
    ld.Knows f' := by
  cases ld with
  | first => trivial
  | bestBid seq1 => exact Seen.changed h hchanged
  | bestAsk seq1 bid => exact Seen.changed h hchanged
  | timestamp seq1 bid ask => exact Seen.changed h hchanged
  | findEnd w i => exact Seen.changed h hchanged
  | text w stop bytes => exact Seen.changed h hchanged
  | again w sym => exact Seen.changed h hchanged

/-- Bytes of a symbol that have been read make its text when they are all. -/
lemma knows_textFrom {w : Words} {stop : ℕ} {bytes : List UInt8}
    (h : Seen age Settled f w.seq1.toNat fun f =>
      w.Of f ∧ Ends f.symbol stop ∧ bytes.length ≤ stop ∧
        bytes = bytesOf f.symbol bytes.length) : (textFrom w stop bytes).Knows f := by
  unfold textFrom
  split
  · next hlt => exact h.imp fun hview => ⟨hview.1, hview.2.1, hlt, hview.2.2.2⟩
  · next hge =>
    refine h.imp fun hview => ⟨hview.1, ?_⟩
    obtain ⟨-, hends, hle, hbytes⟩ := hview
    have hlength : bytes.length = stop := Nat.le_antisymm hle (not_lt.mp hge)
    rw [hends.symbolStr_eq, ← hlength, ← hbytes]

/-- What a read knows after an access. -/
lemma knows_readStep (h : ld.Knows f) : ∀ next ∈ (readStep f ld).1, next.Knows f := by
  intro next hnext
  cases ld with
  | first =>
    simp only [readStep] at hnext
    split_ifs at hnext with hodd
    · cases hnext
    · have hsettled : Settled f := (and_one_eq_zero_iff f.sequenceId).mp (not_not.mp hodd)
      obtain rfl := Option.mem_some_iff.mp hnext
      have hstart : Seen age Settled f (age f) fun _ => True := Seen.start f
      rw [age_of_settled hsettled] at hstart
      exact hstart
  | bestBid seq1 =>
    obtain rfl := Option.mem_some_iff.mp hnext
    exact h.imp fun _ => rfl
  | bestAsk seq1 bid =>
    obtain rfl := Option.mem_some_iff.mp hnext
    exact h.imp fun hbid => ⟨hbid, rfl⟩
  | timestamp seq1 bid ask =>
    obtain rfl := Option.mem_some_iff.mp hnext
    refine h.imp fun hview => ⟨⟨hview.1, hview.2, rfl⟩, by decide, ?_⟩
    exact fun j hj => absurd hj (Nat.not_lt_zero j)
  | findEnd w i =>
    simp only [readStep] at hnext
    split_ifs at hnext with hzero hnotLast
    · obtain rfl := Option.mem_some_iff.mp hnext
      refine knows_textFrom (h.imp fun hview => ⟨hview.1, ?_, Nat.zero_le _, rfl⟩)
      exact ⟨hview.2.1.le, hview.2.2, Or.inr hzero⟩
    · obtain rfl := Option.mem_some_iff.mp hnext
      refine h.imp fun hview => ⟨hview.1, hnotLast, fun j hj => ?_⟩
      rcases Nat.lt_succ_iff_lt_or_eq.mp hj with hj | rfl
      · exact hview.2.2 j hj
      · exact hzero
    · obtain rfl := Option.mem_some_iff.mp hnext
      refine knows_textFrom (h.imp fun hview => ⟨hview.1, ?_, Nat.zero_le _, rfl⟩)
      have hlast : i + 1 = maxSymbolLen := Nat.le_antisymm hview.2.1 (not_lt.mp hnotLast)
      refine ⟨le_rfl, fun j hj => ?_, Or.inl rfl⟩
      rw [← hlast] at hj
      rcases Nat.lt_succ_iff_lt_or_eq.mp hj with hj | rfl
      · exact hview.2.2 j hj
      · exact hzero
  | text w stop bytes =>
    obtain rfl := Option.mem_some_iff.mp hnext
    refine knows_textFrom (h.imp fun hview => ⟨hview.1, hview.2.1, ?_, ?_⟩)
    · rw [List.length_append]
      exact hview.2.2.1
    · rw [List.length_append, List.length_singleton, bytesOf_succ, ← hview.2.2.2]
  | again w sym =>
    simp only [readStep] at hnext
    split_ifs at hnext <;> cases hnext

/-- A read returns what the frame has at its last access. -/
lemma settled_of_readStep (h : ld.Knows f) {d : MarketData} (hd : (readStep f ld).2 = some d) :
    Settled f ∧ d = contents f := by
  cases ld with
  | again w sym =>
    simp only [readStep] at hd
    split_ifs at hd with hgone
    rw [not_or, not_not, not_not] at hgone
    obtain ⟨hseq, heven⟩ := hgone
    have hsettled : Settled f := (and_one_eq_zero_iff f.sequenceId).mp heven
    have hage : age f = w.seq1.toNat := by rw [age_of_settled hsettled, hseq]
    obtain ⟨hwords, rfl⟩ := h.view hage hsettled
    refine ⟨hsettled, (Option.some.inj hd).symm.trans ?_⟩
    rw [contents, hseq, hwords.bid, hwords.ask, hwords.ts]
  | first =>
    simp only [readStep] at hd
    split_ifs at hd
  | findEnd w i =>
    simp only [readStep] at hd
    split_ifs at hd
  | bestBid seq1 => cases hd
  | bestAsk seq1 bid => cases hd
  | timestamp seq1 bid ask => cases hd
  | text w stop bytes => cases hd

end ReadStep

end SharedMemory

end HftArb
