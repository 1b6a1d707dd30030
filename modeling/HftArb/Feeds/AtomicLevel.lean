import HftArb.Decimal
import HftArb.Foundations.Interleaving
import HftArb.Foundations.SeqLock

/-!
# A price level that is read without a lock

The price and the quantity of a level are two words, guarded by a version: a write adds one to the
version, stores the two words and then sets the version to two more than it was, and a read is
repeated until it finds the same even version before and after it.

While writes do not overlap, every pair that is read was written by one call (`loads_not_torn`).
With two writes under way the version is even in between, and a read can return the price of one
with the quantity of the other (`overlapping_writes_tear`).
-/

namespace HftArb

open Runs Saturating Interleaving

namespace AtomicLevel

/-- `FP_SCALE_U64`: nine decimal places. -/
def fpScaleU64 : Decimal := 1000000000

/-- `AtomicLevel::decimal_to_fp`: nine decimal places, with the largest word for what does not fit
and zero for a negative number. -/
def decimalToFp (d : Decimal) : UInt64 :=
  if 0 ≤ d * fpScaleU64 then (Decimal.toU64 (d * fpScaleU64)).getD maxWord else 0

/-- `AtomicLevel::fp_to_decimal`. -/
def fpToDecimal (fp : UInt64) : Decimal := Decimal.ofU64 fp / fpScaleU64

/-- The three words of a level. -/
structure Words where
  priceFp : UInt64
  quantityFp : UInt64
  version : UInt64
  deriving DecidableEq

/-- The words of a new level. -/
def new : Words := ⟨0, 0, 0⟩

/-- A call on a level. -/
inductive Call
  | store (price quantity : Decimal)
  | clear
  | load

/-- A call under way, at its next access.  A write keeps the pair it writes and the version it
found; a read keeps the version it found first and what it has read since. -/
inductive Op
  | bumpVersion (priceFp quantityFp : UInt64)
  | storePrice (priceFp quantityFp v : UInt64)
  | storeQuantity (priceFp quantityFp v : UInt64)
  | storeVersion (priceFp quantityFp v : UInt64)
  | loadVersion
  | loadPrice (v1 : UInt64)
  | loadQuantity (v1 p : UInt64)
  | recheckVersion (v1 p q : UInt64)
  deriving DecidableEq

/-- A write has been called for a pair of words, or a read returns a pair. -/
inductive Event
  | writes (priceFp quantityFp : UInt64)
  | returns (price quantity : Decimal)
  deriving DecidableEq

/-- What a call does before its first access. -/
def enter : Call → Option Op × List Event
  | .store price quantity =>
    (some (.bumpVersion (decimalToFp price) (decimalToFp quantity)),
      [.writes (decimalToFp price) (decimalToFp quantity)])
  | .clear => (some (.bumpVersion 0 0), [.writes 0 0])
  | .load => (some .loadVersion, [])

/-- One access. -/
def access (w : Words) : Op → Outcome Words Op Event
  | .bumpVersion priceFp quantityFp =>
    ⟨{ w with version := w.version + 1 }, some (.storePrice priceFp quantityFp w.version), []⟩
  | .storePrice priceFp quantityFp v =>
    ⟨{ w with priceFp := priceFp }, some (.storeQuantity priceFp quantityFp v), []⟩
  | .storeQuantity priceFp quantityFp v =>
    ⟨{ w with quantityFp := quantityFp }, some (.storeVersion priceFp quantityFp v), []⟩
  | .storeVersion _ _ v => ⟨{ w with version := v + 2 }, none, []⟩
  | .loadVersion =>
    if w.version &&& 1 ≠ 0 then ⟨w, some .loadVersion, []⟩
    else ⟨w, some (.loadPrice w.version), []⟩
  | .loadPrice v1 => ⟨w, some (.loadQuantity v1 w.priceFp), []⟩
  | .loadQuantity v1 p => ⟨w, some (.recheckVersion v1 p w.quantityFp), []⟩
  | .recheckVersion v1 p q =>
    if v1 = w.version then ⟨w, none, [.returns (fpToDecimal p) (fpToDecimal q)]⟩
    else ⟨w, some .loadVersion, []⟩

/-- The calls on a level. -/
def levelSystem : System Words Call Op Unit Event where
  enter := enter
  access := fun w _ op => access w op

/-- A new level with no call under way. -/
def fresh : State Words Op := ⟨new, []⟩

/-! ## The claims of the calls under way -/

/-- A pair of words is the first one or has been written by one call. -/
def Written (events : List Event) (priceFp quantityFp : UInt64) : Prop :=
  priceFp = 0 ∧ quantityFp = 0 ∨ Event.writes priceFp quantityFp ∈ events

/-- The call is a write that has raised the version and not yet set it. -/
def Op.writing : Op → Bool
  | .storePrice _ _ _ | .storeQuantity _ _ _ | .storeVersion _ _ _ => true
  | _ => false

/-- The version is even. -/
def Stable (version : UInt64) : Prop := version.toNat % 2 = 0

/-- The version is one more than the even one that a write has found. -/
def RaisedFrom (w : Words) (v : UInt64) : Prop :=
  Stable v ∧ w.version.toNat = v.toNat + 1 ∧ v.toNat + 2 < 2 ^ 64

/-- What a call under way knows of the level: a write which words it has stored, and a read that
what it has read is still there if the version is. -/
def Op.Knows (w : Words) (events : List Event) : Op → Prop
  | .bumpVersion priceFp quantityFp => .writes priceFp quantityFp ∈ events
  | .storePrice priceFp quantityFp v =>
    .writes priceFp quantityFp ∈ events ∧ RaisedFrom w v
  | .storeQuantity priceFp quantityFp v =>
    .writes priceFp quantityFp ∈ events ∧ RaisedFrom w v ∧ w.priceFp = priceFp
  | .storeVersion priceFp quantityFp v =>
    .writes priceFp quantityFp ∈ events ∧ RaisedFrom w v ∧ w.priceFp = priceFp ∧
      w.quantityFp = quantityFp
  | .loadVersion => True
  | .loadPrice v1 => Stable v1 ∧ v1 ≤ w.version
  | .loadQuantity v1 p => Stable v1 ∧ v1 ≤ w.version ∧ (w.version = v1 → p = w.priceFp)
  | .recheckVersion v1 p q =>
    Stable v1 ∧ v1 ≤ w.version ∧ (w.version = v1 → p = w.priceFp ∧ q = w.quantityFp)

/-- At most one write is under way, the level holds a written pair when the version is even, which
it is when no write is under way, and every call knows what it should. -/
structure Consistent (s : State Words Op) (events : List Event) : Prop where
  writers : s.inFlight.countP Op.writing ≤ 1
  stable : s.inFlight.countP Op.writing = 0 → Stable s.shared.version
  written : Stable s.shared.version → Written events s.shared.priceFp s.shared.quantityFp
  knows : ∀ op ∈ s.inFlight, op.Knows s.shared events

lemma Written.mono {events events' : List Event} {priceFp quantityFp : UInt64}
    (h : Written events priceFp quantityFp) (hevents : events ⊆ events') :
    Written events' priceFp quantityFp :=
  h.imp_right fun hmem => hevents hmem

/-- What a call knows does not depend on later events. -/
lemma Op.Knows.mono {w : Words} {events events' : List Event} {op : Op}
    (h : op.Knows w events) (hevents : events ⊆ events') : op.Knows w events' := by
  cases op with
  | bumpVersion priceFp quantityFp => exact hevents h
  | storePrice priceFp quantityFp v => exact ⟨hevents h.1, h.2⟩
  | storeQuantity priceFp quantityFp v => exact ⟨hevents h.1, h.2⟩
  | storeVersion priceFp quantityFp v => exact ⟨hevents h.1, h.2⟩
  | loadVersion => exact h
  | loadPrice v1 => exact h
  | loadQuantity v1 p => exact h
  | recheckVersion v1 p q => exact h

/-- A read is not disturbed by a change that raises the version, or happens under an odd one. -/
lemma Op.Knows.frame {w w' : Words} {events : List Event} {op : Op} (h : op.Knows w events)
    (hop : op.writing = false) (hle : w.version ≤ w'.version)
    (hsame : w'.version = w.version → Stable w.version →
      w'.priceFp = w.priceFp ∧ w'.quantityFp = w.quantityFp) : op.Knows w' events := by
  -- A read that finds its version again finds the version of before the change.
  have hback : ∀ v1, Stable v1 → v1 ≤ w.version → w'.version = v1 →
      w.version = v1 ∧ w'.priceFp = w.priceFp ∧ w'.quantityFp = w.quantityFp := by
    rintro v1 hv1 hv1le rfl
    have heq : w.version = w'.version := UInt64.le_antisymm hle hv1le
    exact ⟨heq, hsame heq.symm (heq ▸ hv1)⟩
  cases op with
  | bumpVersion priceFp quantityFp => exact h
  | storePrice priceFp quantityFp v => cases hop
  | storeQuantity priceFp quantityFp v => cases hop
  | storeVersion priceFp quantityFp v => cases hop
  | loadVersion => exact h
  | loadPrice v1 => exact ⟨h.1, UInt64.le_trans h.2 hle⟩
  | loadQuantity v1 p =>
    obtain ⟨hv1, hv1le, hread⟩ := h
    refine ⟨hv1, UInt64.le_trans hv1le hle, fun hfound => ?_⟩
    obtain ⟨hversion, hprice, -⟩ := hback v1 hv1 hv1le hfound
    exact (hread hversion).trans hprice.symm
  | recheckVersion v1 p q =>
    obtain ⟨hv1, hv1le, hread⟩ := h
    refine ⟨hv1, UInt64.le_trans hv1le hle, fun hfound => ?_⟩
    obtain ⟨hversion, hprice, hquantity⟩ := hback v1 hv1 hv1le hfound
    exact ⟨(hread hversion).1.trans hprice.symm, (hread hversion).2.trans hquantity.symm⟩

/-! ## One access -/

section Access

variable {s : State Words Op} {events events' : List Event} {op : Op} {others calls' : List Op}
  {remaining : Option Op}

/-- An access that changes no word, of a call that is not writing, keeps the level consistent. -/
lemma Consistent.of_read (h : Consistent s events) (hbefore : s.inFlight.Perm (op :: others))
    (hafter : calls'.Perm (remaining.toList ++ others)) (hevents : events ⊆ events')
    (hop : op.writing = false)
    (hremaining : ∀ o ∈ remaining, o.writing = false ∧ o.Knows s.shared events') :
    Consistent ⟨s.shared, calls'⟩ events' := by
  have hcount : calls'.countP Op.writing = s.inFlight.countP Op.writing := by
    rw [hbefore.countP_eq, hafter.countP_eq, List.countP_append,
      List.countP_cons_of_neg (by simp [hop])]
    cases remaining with
    | none => simp
    | some o => simp [(hremaining o rfl).1]
  refine ⟨hcount.trans_le h.writers, fun hnone => h.stable (hcount.symm.trans hnone), ?_, ?_⟩
  · exact fun hstable => (h.written hstable).mono hevents
  · exact forall_inFlight_access hbefore hafter h.knows (fun _ _ ho => ho.mono hevents)
      fun o ho => (hremaining o ho).2

/-- An access that changes words, when no other call is writing: the version goes up, or stays
odd. -/
lemma Consistent.of_write (h : Consistent s events) (hbefore : s.inFlight.Perm (op :: others))
    (hafter : calls'.Perm (remaining.toList ++ others)) (hothers : others.countP Op.writing = 0)
    {w' : Words} (hle : s.shared.version.toNat ≤ w'.version.toNat)
    (hodd : w'.version = s.shared.version → ¬ Stable s.shared.version)
    (hremaining : ∀ o ∈ remaining, o.Knows w' events)
    (hstable : remaining = none → Stable w'.version)
    (hwritten : Stable w'.version → Written events w'.priceFp w'.quantityFp)
    (hwriting : ∀ o ∈ remaining, o.writing = true) : Consistent ⟨w', calls'⟩ events := by
  have hcount : calls'.countP Op.writing = remaining.toList.length := by
    rw [hafter.countP_eq, List.countP_append, hothers, add_zero, List.countP_eq_length]
    exact fun o ho => hwriting o (Option.mem_toList.mp ho)
  refine ⟨?_, ?_, hwritten, ?_⟩
  · rw [hcount]
    cases remaining <;> simp
  · intro hnone
    rw [hcount] at hnone
    cases remaining with
    | none => exact hstable rfl
    | some o => simp at hnone
  · refine forall_inFlight_access hbefore hafter h.knows ?_ hremaining
    intro o ho hknows
    have hidle : o.writing = false := by
      simpa using List.countP_eq_zero.mp hothers o ho
    exact hknows.frame hidle (UInt64.le_iff_toNat_le.mpr hle)
      fun heq hstable => absurd hstable (hodd heq)

/-- While a write is under way the version is odd, and no other call writes. -/
lemma Consistent.of_writing (h : Consistent s events) (hbefore : s.inFlight.Perm (op :: others))
    (hop : op.writing = true) : others.countP Op.writing = 0 := by
  have hwriters := h.writers
  rw [hbefore.countP_eq, List.countP_cons_of_pos hop] at hwriters
  omega

lemma RaisedFrom.not_stable {w : Words} {v : UInt64} (h : RaisedFrom w v) :
    ¬ Stable w.version := by
  obtain ⟨hv, hversion, -⟩ := h
  unfold Stable at hv ⊢
  omega

end Access

/-- The call is a write that is about to raise the version. -/
def Op.starting : Op → Bool
  | .bumpVersion _ _ => true
  | _ => false

/-- A write raises the version only when no other write is under way, and while the version is more
than two short of the end of the words. -/
def Exclusive (s : State Words Op) : Action Call Unit → Prop
  | .enter _ => True
  | .access position _ => s.inFlight[position]?.any Op.starting = true →
    s.inFlight.countP Op.writing = 0 ∧ s.shared.version.toNat + 2 < 2 ^ 64

instance Exclusive.decidable (s : State Words Op) : ∀ a, Decidable (Exclusive s a)
  | .enter _ => inferInstanceAs (Decidable True)
  | .access _ _ => inferInstanceAs (Decidable (_ → _))

/-- A call begins without writing, and a write with the event of its pair. -/
lemma enter_spec (call : Call) (w : Words) :
    ∀ op ∈ (enter call).1, op.writing = false ∧ op.Knows w (enter call).2 := by
  cases call with
  | store price quantity =>
    rintro op ⟨rfl⟩
    exact ⟨rfl, List.mem_cons_self⟩
  | clear =>
    rintro op ⟨rfl⟩
    exact ⟨rfl, List.mem_cons_self⟩
  | load =>
    rintro op ⟨rfl⟩
    exact ⟨rfl, trivial⟩

/-- A call that begins keeps the level consistent. -/
lemma Consistent.enter {s : State Words Op} {events : List Event} (h : Consistent s events)
    (call : Call) :
    Consistent ⟨s.shared, s.inFlight ++ (AtomicLevel.enter call).1.toList⟩
      (events ++ (AtomicLevel.enter call).2) := by
  have hnew := enter_spec call s.shared
  have hcount : (s.inFlight ++ (AtomicLevel.enter call).1.toList).countP Op.writing =
      s.inFlight.countP Op.writing := by
    rw [List.countP_append, Nat.add_eq_left, List.countP_eq_zero]
    intro op hop
    simp [(hnew op (Option.mem_toList.mp hop)).1]
  refine ⟨hcount.trans_le h.writers, fun hnone => h.stable (hcount.symm.trans hnone), ?_, ?_⟩
  · exact fun hstable => (h.written hstable).mono (List.subset_append_left _ _)
  · intro op hop
    rcases List.mem_append.mp hop with hop | hop
    · exact (h.knows op hop).mono (List.subset_append_left _ _)
    · exact (hnew op (Option.mem_toList.mp hop)).2.mono (List.subset_append_right _ _)

section Writes

variable {s : State Words Op} {events : List Event} {others calls' : List Op}
  {priceFp quantityFp v : UInt64}

/-- A write that is alone may raise the version. -/
lemma Consistent.raise (h : Consistent s events)
    (hbefore : s.inFlight.Perm (.bumpVersion priceFp quantityFp :: others))
    (hafter : calls'.Perm (.storePrice priceFp quantityFp s.shared.version :: others))
    (hnone : s.inFlight.countP Op.writing = 0) (hroom : s.shared.version.toNat + 2 < 2 ^ 64) :
    Consistent ⟨{ s.shared with version := s.shared.version + 1 }, calls'⟩ events := by
  have hwrites := h.knows _ (hbefore.mem_iff.mpr List.mem_cons_self)
  have hversion : (s.shared.version + 1).toNat = s.shared.version.toNat + 1 := by
    rw [UInt64.toNat_add, UInt64.toNat_one, Nat.mod_eq_of_lt (by omega)]
  have hraised : RaisedFrom { s.shared with version := s.shared.version + 1 }
      s.shared.version := ⟨h.stable hnone, hversion, hroom⟩
  have hgoesOn : calls'.Perm
      ((some (Op.storePrice priceFp quantityFp s.shared.version)).toList ++ others) := hafter
  rw [hbefore.countP_eq] at hnone
  refine h.of_write hbefore hgoesOn hnone ?_ ?_ ?_ ?_ ?_ ?_
  · change _ ≤ (s.shared.version + 1).toNat
    omega
  · intro heq
    have hsame := congrArg UInt64.toNat heq
    change (s.shared.version + 1).toNat = _ at hsame
    omega
  · rintro o ⟨rfl⟩
    exact ⟨hwrites, hraised⟩
  · exact fun hcontra => nomatch hcontra
  · exact fun hcontra => absurd hcontra hraised.not_stable
  · rintro o ⟨rfl⟩
    rfl

/-- A write under way may store a word of its pair. -/
lemma Consistent.of_store (h : Consistent s events) {op next : Op}
    (hbefore : s.inFlight.Perm (op :: others)) (hafter : calls'.Perm (next :: others))
    (hop : op.writing = true) (hnext : next.writing = true) {w' : Words}
    (hversion : w'.version = s.shared.version) (hraised : RaisedFrom w' v)
    (hknows : next.Knows w' events) : Consistent ⟨w', calls'⟩ events := by
  have hodd : ¬ Stable w'.version := hraised.not_stable
  have hgoesOn : calls'.Perm ((some next).toList ++ others) := hafter
  refine h.of_write hbefore hgoesOn (h.of_writing hbefore hop) ?_ ?_ ?_ ?_ ?_ ?_
  · rw [hversion]
  · rw [← hversion]
    exact fun _ => hodd
  · rintro o ⟨rfl⟩
    exact hknows
  · exact fun hcontra => nomatch hcontra
  · exact fun hcontra => absurd hcontra hodd
  · rintro o ⟨rfl⟩
    exact hnext

/-- A write that has stored its pair sets the version. -/
lemma Consistent.settle (h : Consistent s events)
    (hbefore : s.inFlight.Perm (.storeVersion priceFp quantityFp v :: others))
    (hafter : calls'.Perm others) :
    Consistent ⟨{ s.shared with version := v + 2 }, calls'⟩ events := by
  obtain ⟨hwrites, hraised, hprice, hquantity⟩ :=
    h.knows _ (hbefore.mem_iff.mpr List.mem_cons_self)
  have hodd := hraised.not_stable
  obtain ⟨hv, hversion, hroom⟩ := hraised
  have hnext : (v + 2).toNat = v.toNat + 2 := by
    rw [UInt64.toNat_add]
    exact Nat.mod_eq_of_lt hroom
  have hends : calls'.Perm ((none : Option Op).toList ++ others) := hafter
  refine h.of_write hbefore hends (h.of_writing hbefore rfl) ?_ ?_ ?_ ?_ ?_ ?_
  · change _ ≤ (v + 2).toNat
    omega
  · exact fun _ => hodd
  · exact fun o ho => nomatch ho
  · intro _
    unfold Stable at hv ⊢
    change (v + 2).toNat % 2 = 0
    omega
  · intro _
    right
    change Event.writes s.shared.priceFp s.shared.quantityFp ∈ events
    rw [hprice, hquantity]
    exact hwrites
  · exact fun o ho => nomatch ho

end Writes

/-- An access keeps the level consistent when a write that starts is alone. -/
lemma Consistent.access {s : State Words Op} {events : List Event} (h : Consistent s events)
    {op : Op} {others calls' : List Op} (hbefore : s.inFlight.Perm (op :: others))
    (hafter : calls'.Perm ((AtomicLevel.access s.shared op).remaining.toList ++ others))
    (hstart : op.starting = true →
      s.inFlight.countP Op.writing = 0 ∧ s.shared.version.toNat + 2 < 2 ^ 64) :
    Consistent ⟨(AtomicLevel.access s.shared op).shared, calls'⟩
      (events ++ (AtomicLevel.access s.shared op).events) := by
  have hknows := h.knows op (hbefore.mem_iff.mpr List.mem_cons_self)
  cases op with
  | bumpVersion priceFp quantityFp =>
    obtain ⟨hnone, hroom⟩ := hstart rfl
    rw [AtomicLevel.access, List.append_nil]
    exact h.raise hbefore hafter hnone hroom
  | storePrice priceFp quantityFp v =>
    obtain ⟨hwrites, hraised⟩ := hknows
    rw [AtomicLevel.access, List.append_nil]
    exact h.of_store hbefore hafter rfl rfl rfl hraised ⟨hwrites, hraised, rfl⟩
  | storeQuantity priceFp quantityFp v =>
    obtain ⟨hwrites, hraised, hprice⟩ := hknows
    rw [AtomicLevel.access, List.append_nil]
    exact h.of_store hbefore hafter rfl rfl rfl hraised ⟨hwrites, hraised, hprice, rfl⟩
  | storeVersion priceFp quantityFp v =>
    rw [AtomicLevel.access, List.append_nil]
    exact h.settle hbefore hafter
  | loadVersion =>
    simp only [AtomicLevel.access] at hafter ⊢
    split_ifs at hafter ⊢ with hodd
    · refine h.of_read hbefore hafter (List.subset_append_left _ _) rfl ?_
      rintro o ⟨rfl⟩
      exact ⟨rfl, trivial⟩
    · have hstable : Stable s.shared.version :=
        (SeqLock.and_one_eq_zero_iff s.shared.version).mp (not_not.mp hodd)
      refine h.of_read hbefore hafter (List.subset_append_left _ _) rfl ?_
      rintro o ⟨rfl⟩
      exact ⟨rfl, hstable, UInt64.le_refl _⟩
  | loadPrice v1 =>
    refine h.of_read hbefore hafter (List.subset_append_left _ _) rfl ?_
    rintro o ⟨rfl⟩
    exact ⟨rfl, hknows.1, hknows.2, fun _ => rfl⟩
  | loadQuantity v1 p =>
    obtain ⟨hv1, hle, hread⟩ := hknows
    refine h.of_read hbefore hafter (List.subset_append_left _ _) rfl ?_
    rintro o ⟨rfl⟩
    exact ⟨rfl, hv1, hle, fun hfound => ⟨hread hfound, rfl⟩⟩
  | recheckVersion v1 p q =>
    simp only [AtomicLevel.access] at hafter ⊢
    split_ifs at hafter ⊢ with hfound
    · exact h.of_read hbefore hafter (List.subset_append_left _ _) rfl fun o ho => nomatch ho
    · refine h.of_read hbefore hafter (List.subset_append_left _ _) rfl ?_
      rintro o ⟨rfl⟩
      exact ⟨rfl, trivial⟩

/-- A pair that an access returns has been written by one call. -/
lemma Consistent.written_of_returns {s : State Words Op} {events : List Event}
    (h : Consistent s events) {op : Op} (hop : op ∈ s.inFlight) {price quantity : Decimal}
    (hreturns : Event.returns price quantity ∈ (AtomicLevel.access s.shared op).events) :
    ∃ priceFp quantityFp, Written events priceFp quantityFp ∧ price = fpToDecimal priceFp ∧
      quantity = fpToDecimal quantityFp := by
  have hknows := h.knows op hop
  cases op with
  | recheckVersion v1 p q =>
    obtain ⟨hv1, -, hread⟩ := hknows
    simp only [AtomicLevel.access] at hreturns
    split_ifs at hreturns with hfound
    · obtain ⟨rfl, rfl⟩ := hread hfound.symm
      simp only [List.mem_singleton, Event.returns.injEq] at hreturns
      rw [hfound] at hv1
      exact ⟨_, _, h.written hv1, hreturns.1, hreturns.2⟩
    · simp at hreturns
  | loadVersion =>
    simp only [AtomicLevel.access] at hreturns
    split_ifs at hreturns <;> simp at hreturns
  | _ => simp [AtomicLevel.access] at hreturns

/-! ## Runs -/

/-- The state after some steps on a new level. -/
def stateAfter (actions : List (Action Call Unit)) : State Words Op :=
  runState (step levelSystem) fresh actions

/-- The events of some steps on a new level. -/
def eventsOf (actions : List (Action Call Unit)) : List Event :=
  runTrace (step levelSystem) fresh actions

/-- A pair that a read returns is the pair of zeros, or one that a single call has written. -/
def Whole (history : List Event) : Event → Prop
  | .writes _ _ => True
  | .returns price quantity =>
    price = 0 ∧ quantity = 0 ∨
      ∃ priceFp quantityFp, Event.writes priceFp quantityFp ∈ history ∧
        price = fpToDecimal priceFp ∧ quantity = fpToDecimal quantityFp

/-- Every write of the run starts when no other is under way. -/
def WritesExclusive (actions : List (Action Call Unit)) : Prop :=
  ∀ before a after, actions = before ++ a :: after → Exclusive (stateAfter before) a

/-- A written pair, read back, is the pair of zeros or one of a single call. -/
lemma Written.whole {events : List Event} {priceFp quantityFp : UInt64}
    (h : Written events priceFp quantityFp) :
    Whole events (.returns (fpToDecimal priceFp) (fpToDecimal quantityFp)) := by
  rcases h with ⟨rfl, rfl⟩ | hmem
  · exact Or.inl ⟨by decide +kernel, by decide +kernel⟩
  · exact Or.inr ⟨priceFp, quantityFp, hmem, rfl, rfl⟩

/-- An access returns at most one pair. -/
lemma access_events (w : Words) (op : Op) :
    (access w op).events = [] ∨ ∃ price quantity, (access w op).events =
      [.returns price quantity] := by
  cases op with
  | recheckVersion v1 p q =>
    simp only [access]
    split_ifs
    · exact Or.inr ⟨_, _, rfl⟩
    · exact Or.inl rfl
  | loadVersion =>
    simp only [access]
    split_ifs <;> exact Or.inl rfl
  | _ => exact Or.inl rfl

/-- The pairs that a step returns are whole. -/
lemma Consistent.whole_step {s : State Words Op} {events : List Event} (h : Consistent s events)
    (a : Action Call Unit) : GuardedFrom Whole events (step levelSystem s a).2 := by
  rcases step_cases levelSystem s a with ⟨call, -, -, hevents⟩ | ⟨-, hstep⟩ |
    ⟨position, choice, op, others, -, -, hbefore, -, -, hevents⟩
  · rw [hevents]
    cases call with
    | store price quantity => exact ⟨trivial, trivial⟩
    | clear => exact ⟨trivial, trivial⟩
    | load => trivial
  · rw [hstep]
    trivial
  · rw [hevents]
    have hop : op ∈ s.inFlight := hbefore.mem_iff.mpr List.mem_cons_self
    change GuardedFrom Whole events (AtomicLevel.access s.shared op).events
    rcases access_events s.shared op with hnone | ⟨price, quantity, hreturns⟩
    · rw [hnone]
      trivial
    · obtain ⟨priceFp, quantityFp, hwritten, rfl, rfl⟩ :=
        h.written_of_returns hop (by rw [hreturns]; exact List.mem_cons_self)
      rw [hreturns]
      exact ⟨hwritten.whole, trivial⟩

/-- A step keeps the level consistent and the pairs whole when a write that starts is alone. -/
lemma consistent_step {s : State Words Op} {events : List Event}
    (h : Consistent s events ∧ Guarded Whole events) {a : Action Call Unit}
    (ha : Exclusive s a) :
    Consistent (step levelSystem s a).1 (events ++ (step levelSystem s a).2) ∧
      Guarded Whole (events ++ (step levelSystem s a).2) := by
  obtain ⟨hcons, hwhole⟩ := h
  refine ⟨?_, (guardedFrom_append _ _ _).mpr ⟨hwhole, hcons.whole_step a⟩⟩
  rcases step_cases levelSystem s a with ⟨call, rfl, -, -⟩ | ⟨-, hstep⟩ |
    ⟨position, choice, op, others, rfl, hop, hbefore, hshared, hafter, hevents⟩
  · exact hcons.enter call
  · rw [hstep, List.append_nil]
    exact hcons
  · have hstart : op.starting = true →
        s.inFlight.countP Op.writing = 0 ∧ s.shared.version.toNat + 2 < 2 ^ 64 := by
      intro hstarting
      exact ha (by rw [hop]; exact hstarting)
    have haccess := hcons.access hbefore hafter hstart
    rw [hevents]
    generalize step levelSystem s (.access position choice) = next at hshared haccess ⊢
    obtain ⟨⟨w', calls'⟩, events'⟩ := next
    obtain rfl : w' = _ := hshared
    exact haccess

/-- In every run whose writes do not overlap, for any number of calls and in any interleaving, every
pair that a read returns was written by one call. -/
theorem loads_not_torn (actions : List (Action Call Unit)) (h : WritesExclusive actions) :
    Guarded Whole (eventsOf actions) := by
  have hfresh : Consistent fresh [] ∧ Guarded Whole [] :=
    ⟨⟨by decide, fun _ => rfl, fun _ => Or.inl ⟨rfl, rfl⟩, fun op hop => nomatch hop⟩, trivial⟩
  refine (run_induction (I := fun s events => Consistent s events ∧ Guarded Whole events)
    (C := fun s _ a => Exclusive s a) (fun s events a hs ha => consistent_step hs ha) hfresh
    ?_).2
  exact h

/-- A read meets a write: it finds an odd version, starts again, and returns the new pair. -/
def readDuringWrite : List (Action Call Unit) :=
  [.enter (.store 50000 2), .enter .load, .access 0 (), .access 1 (), .access 0 (), .access 0 (),
    .access 0 (), .access 0 (), .access 0 (), .access 0 (), .access 0 ()]

theorem loads_not_torn_readDuringWrite :
    Event.returns 50000 2 ∈ eventsOf readDuringWrite ∧
      Guarded Whole (eventsOf readDuringWrite) := by
  have hexclusive : WritesExclusive readDuringWrite := by
    rw [WritesExclusive, forall_split_iff]
    decide +kernel
  exact ⟨by decide +kernel, loads_not_torn readDuringWrite hexclusive⟩

/-- Two writes overlap, and a read comes after the first has stored its price. -/
def readDuringTwoWrites : List (Action Call Unit) :=
  [.enter (.store 50000 2), .enter (.store 60000 3), .enter .load, .access 0 (), .access 1 (),
    .access 0 (), .access 2 (), .access 2 (), .access 2 (), .access 2 ()]

/-- With two writes under way the version is even, and a read returns the price of the first write
with the quantity of before. -/
theorem overlapping_writes_tear : ¬ Guarded Whole (eventsOf readDuringTwoWrites) := by
  have htrace : eventsOf readDuringTwoWrites =
      [.writes 50000000000000 2000000000, .writes 60000000000000 3000000000,
        .returns 50000 0] := by decide +kernel
  rw [htrace]
  rintro ⟨-, -, h, -⟩
  rcases h with ⟨h, -⟩ | ⟨priceFp, quantityFp, hmem, -, hquantity⟩
  · exact absurd h (by norm_num)
  · have hwritten : priceFp = 50000000000000 ∧ quantityFp = 2000000000 ∨
        priceFp = 60000000000000 ∧ quantityFp = 3000000000 := by simpa using hmem
    rcases hwritten with ⟨-, rfl⟩ | ⟨-, rfl⟩
    · exact absurd hquantity (by decide +kernel)
    · exact absurd hquantity (by decide +kernel)

end AtomicLevel

end HftArb
