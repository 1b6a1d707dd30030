import HftArb.Execution.SafetyExecution
import HftArb.Foundations.Interleaving
import HftArb.Foundations.Numerals
import HftArb.Foundations.TextSearch

/-!
# Client order ids

Every order carries an id made of its exchange, the clock, the digits of its price and the value of
a counter that all orders share.  When both the clock and the hash of the price are zero, a UUID
takes the place of the last two.  The counter starts at zero, and a seed replaces it as long as it
is zero.

No two ids are equal (`clientOrderIds_nodup`).  The counter values are distinct because the counter
never comes back to zero: the seeds are below 2^63 and there are at most 2^63 orders.  The texts
keep them apart because a printed number has no dash, so that the last field of an id is its
counter value, and because a UUID stands behind a field that is no number.
-/

namespace HftArb

namespace SafetyExecutionEngine

open Runs Interleaving Numerals TextSearch

/-! ## The texts -/

/-- `ORDER_ID_HASH_MASK`. -/
def orderIdHashMask : UInt64 := 0xFFFFFFFF

/-- The hash of a price, from the text of a million times the price: its digits as a number, or one
when they are none, modulo the mask. -/
def priceHash (scaledPriceText : String) : UInt64 :=
  (parseU64Text (scaledPriceText.toList.filter fun c => c ≠ '.')).getD 1 % orderIdHashMask

/-- `format!("{:08x}")`. -/
def hex8 (n : UInt64) : String := String.ofList ((Nat.toDigits 16 n.toNat).leftpad 8 '0')

/-- The id of a safe order stands on a UUID. -/
def UsesUuid (timestampMs priceHash : UInt64) : Prop := timestampMs = 0 ∧ priceHash = 0

instance (timestampMs priceHash : UInt64) : Decidable (UsesUuid timestampMs priceHash) :=
  inferInstanceAs (Decidable (_ ∧ _))

/-- The client order id of a safe order. -/
def safeClientOrderId (exchangeId : UInt16) (timestampMs priceHash seq : UInt64) (uuid : String) :
    String :=
  if UsesUuid timestampMs priceHash then toString exchangeId ++ "-uuid-" ++ uuid
  else
    toString exchangeId ++ "-" ++ toString timestampMs ++ "-" ++ hex8 priceHash ++ "-" ++
      toString seq

/-! ## The shared counter -/

/-- A call: a safe order with the text of its scaled price, a counter-order, both with their clock
reading, or a seed with its clock reading and the process id. -/
inductive Call
  | safeOrder (req : SafeOrderRequest) (scaledPriceText : String) (timestampMs : UInt64)
  | counterOrder (original : SafeOrderPayload) (adverseNudgeBps : UInt64)
      (filledQuantityOverride : Option Decimal) (timestampMs : UInt64)
  | seedOrderCounter (nanos : UInt64) (processId : UInt32)

/-- The call builds an order. -/
def Call.isBuild : Call → Bool
  | .safeOrder .. => true
  | .counterOrder .. => true
  | .seedOrderCounter .. => false

/-- The value that a seed puts in the place of zero. -/
def seedValue (nanos : UInt64) (processId : UInt32) : UInt64 :=
  nanos + (processId.toUInt64 <<< 48)

/-- An order that was built, with the counter value and the UUID drawn for it. -/
structure Issued where
  payload : SafeOrderPayload
  seq : UInt64
  uuid : Option String

/-- A call makes an access only if it passes its guards; then it has one access to make. -/
def enter (toUppercase : String → String) (call : Call) : Option Call × List Issued :=
  match call with
  | .safeOrder req _ _ => (if (safeOrderError toUppercase req).isSome then none else some call, [])
  | .counterOrder original adverseNudgeBps _ _ =>
    (if rawCounterPrice original adverseNudgeBps ≤ 0 ∨
        rawCounterPrice original adverseNudgeBps < relativeFloor original then none
      else some call, [])
  | .seedOrderCounter _ _ => (some call, [])

/-- The access of a call: an order takes the next value of the counter, a seed replaces a zero.  The
choice is the UUID that a safe order draws if it needs one. -/
def access (toUppercase : String → String) (counter : UInt64) (uuid : String) :
    Call → Outcome UInt64 Call Issued
  | .safeOrder req scaledPriceText timestampMs =>
    let hash := priceHash scaledPriceText
    let id := safeClientOrderId req.exchangeId timestampMs hash counter uuid
    ⟨counter + 1, none,
      match buildSafeOrder toUppercase req timestampMs id with
      | .ok payload => [⟨payload, counter, if UsesUuid timestampMs hash then some uuid else none⟩]
      | .error _ => []⟩
  | .counterOrder original adverseNudgeBps filledQuantityOverride timestampMs =>
    ⟨counter + 1, none,
      match buildCounterOrder original adverseNudgeBps filledQuantityOverride timestampMs
          counter with
      | some payload => [⟨payload, counter, none⟩]
      | none => []⟩
  | .seedOrderCounter nanos processId =>
    ⟨if counter = 0 then seedValue nanos processId else counter, none, []⟩

/-- The tasks that build orders. -/
def system (toUppercase : String → String) : System UInt64 Call Call String Issued where
  enter := enter toUppercase
  access := access toUppercase

/-- A process starts with the counter at zero. -/
def start : State UInt64 Call := ⟨0, []⟩

/-! ## The form of an id -/

/-- The id has a UUID. -/
def UuidForm (id : List Char) : Prop :=
  ∃ (exchangeId : UInt16) (uuid : List Char),
    id = Nat.toDigits 10 exchangeId.toNat ++ '-' :: 'u' :: 'u' :: 'i' :: 'd' :: '-' :: uuid

/-- The id of an order ends in its counter value or in its UUID. -/
inductive HasForm (e : Issued) : Prop
  | counted (front : List Char) : e.uuid = none → ¬ UuidForm e.payload.clientOrderId.toList →
      e.payload.clientOrderId.toList = front ++ '-' :: Nat.toDigits 10 e.seq.toNat → HasForm e
  | drawn (uuid : String) (exchangeId : UInt16) : e.uuid = some uuid →
      e.payload.clientOrderId.toList = Nat.toDigits 10 exchangeId.toNat ++
        '-' :: 'u' :: 'u' :: 'i' :: 'd' :: '-' :: uuid.toList → HasForm e

lemma toList_toString_u64 (n : UInt64) : (toString n).toList = Nat.toDigits 10 n.toNat :=
  Nat.toList_repr

lemma toList_toString_u16 (n : UInt16) : (toString n).toList = Nat.toDigits 10 n.toNat :=
  Nat.toList_repr

/-- Dashes are not printed in numbers. -/
lemma dash_notMem_toDigits (n : ℕ) : '-' ∉ Nat.toDigits 10 n := notMem_toDigits (by decide) n

/-- A number is not printed with a letter at the front. -/
lemma toDigits_append_ne {c : Char} (hc : c.isDigit = false) (n : ℕ) (rest rest' : List Char) :
    Nat.toDigits 10 n ++ rest ≠ c :: rest' := by
  cases hdigits : Nat.toDigits 10 n with
  | nil => exact absurd hdigits Nat.toDigits_ne_nil
  | cons d ds =>
    intro heq
    obtain ⟨rfl, -⟩ := List.cons.inj heq
    exact notMem_toDigits hc n (hdigits ▸ List.mem_cons_self)

/-- The id of a safe order has a UUID, or the counter value in its last field. -/
lemma hasForm_safe {exchangeId : UInt16} {timestampMs hash seq : UInt64} {uuid : String}
    {payload : SafeOrderPayload}
    (hid : payload.clientOrderId = safeClientOrderId exchangeId timestampMs hash seq uuid) :
    HasForm ⟨payload, seq, if UsesUuid timestampMs hash then some uuid else none⟩ := by
  by_cases huuid : UsesUuid timestampMs hash
  · refine .drawn uuid exchangeId (if_pos huuid) ?_
    rw [hid, safeClientOrderId, if_pos huuid]
    simp [toList_toString_u16]
  · have htext : payload.clientOrderId.toList = Nat.toDigits 10 exchangeId.toNat ++ '-' ::
        (Nat.toDigits 10 timestampMs.toNat ++ '-' :: ((hex8 hash).toList ++ '-' ::
          Nat.toDigits 10 seq.toNat)) := by
      rw [hid, safeClientOrderId, if_neg huuid]
      simp [toList_toString_u16, toList_toString_u64]
    refine .counted (Nat.toDigits 10 exchangeId.toNat ++ '-' ::
      (Nat.toDigits 10 timestampMs.toNat ++ '-' :: (hex8 hash).toList)) (if_neg huuid) ?_ ?_
    · -- The second field is the clock, which is a number.
      rintro ⟨exchangeId', uuid', heq⟩
      rw [htext] at heq
      obtain ⟨-, hfield⟩ := eq_of_first_separator (dash_notMem_toDigits _) (dash_notMem_toDigits _)
        heq
      exact toDigits_append_ne (by decide) _ _ _ hfield
    · rw [htext]
      simp

/-- The id of a counter-order has the counter value in its last field. -/
lemma hasForm_counter {original payload : SafeOrderPayload} {nudgeBps timestampMs seq : UInt64}
    {filled : Option Decimal}
    (h : buildCounterOrder original nudgeBps filled timestampMs seq = some payload) :
    HasForm ⟨payload, seq, none⟩ := by
  rw [buildCounterOrder, Option.ite_none_left_eq_some] at h
  obtain ⟨-, h⟩ := h
  obtain rfl := Option.some.inj h
  have htext : ("COUNTER-" ++ toString original.exchangeId ++ "-" ++ toString timestampMs ++ "-" ++
      toString seq).toList = ("COUNTER-".toList ++ (Nat.toDigits 10 original.exchangeId.toNat ++
        '-' :: Nat.toDigits 10 timestampMs.toNat)) ++ '-' :: Nat.toDigits 10 seq.toNat := by
    simp [toList_toString_u16, toList_toString_u64]
  refine .counted _ rfl ?_ htext
  rintro ⟨exchangeId', uuid', heq⟩
  rw [htext] at heq
  exact toDigits_append_ne (c := 'C') (by decide) _ _ _ heq.symm

/-- Orders with different counter values and different UUIDs have different ids. -/
lemma clientOrderId_ne {e e' : Issued} (h : HasForm e) (h' : HasForm e') (hseq : e.seq ≠ e'.seq)
    (huuid : ∀ uuid, e.uuid = some uuid → e'.uuid ≠ some uuid) :
    e.payload.clientOrderId ≠ e'.payload.clientOrderId := by
  intro heq
  cases h with
  | counted front hnone hnot htext =>
    cases h' with
    | counted front' hnone' hnot' htext' =>
      rw [heq, htext'] at htext
      obtain ⟨-, hdigits⟩ := eq_of_last_separator (dash_notMem_toDigits _)
        (dash_notMem_toDigits _) htext
      exact hseq (UInt64.toNat_inj.mp (toDigits_injective hdigits.symm))
    | drawn uuid exchangeId hsome htext' =>
      rw [heq] at hnot
      exact hnot ⟨exchangeId, uuid.toList, htext'⟩
  | drawn uuid exchangeId hsome htext =>
    cases h' with
    | counted front' hnone' hnot' htext' =>
      rw [← heq] at hnot'
      exact hnot' ⟨exchangeId, uuid.toList, htext⟩
    | drawn uuid' exchangeId' hsome' htext' =>
      rw [heq, htext'] at htext
      obtain ⟨-, hrest⟩ := eq_of_first_separator (dash_notMem_toDigits _)
        (dash_notMem_toDigits _) htext
      simp only [List.cons.injEq, true_and] at hrest
      rw [String.toList_inj.mp hrest] at hsome'
      exact huuid uuid hsome hsome'

/-! ## The counter -/

/-- The call is no seed, or one with a value below 2^63. -/
def Call.SeedsBelow : Call → Prop
  | .seedOrderCounter nanos processId => (seedValue nanos processId).toNat < 2 ^ 63
  | .safeOrder .. => True
  | .counterOrder .. => True

/-- What is known of the counter after a number of calls that build orders: the orders have distinct
values below it, and it is at most one above a seed for each of these calls that is over. -/
structure CounterInv (s : State UInt64 Call) (issued : List Issued) (builds : ℕ) : Prop where
  form : ∀ e ∈ issued, HasForm e
  distinct : issued.Pairwise fun e e' => e.seq ≠ e'.seq
  below : ∀ e ∈ issued, e.seq.toNat < s.shared.toNat
  seeds : ∀ call ∈ s.inFlight, call.SeedsBelow
  pending : s.inFlight.countP Call.isBuild ≤ builds
  bounded : ∃ seed < 2 ^ 63, s.shared.toNat + s.inFlight.countP Call.isBuild ≤ seed + builds

/-- A call that builds an order takes one value of the counter. -/
lemma access_build (toUppercase : String → String) (counter : UInt64) (uuid : String) {call : Call}
    (hcall : call.isBuild = true) :
    (access toUppercase counter uuid call).shared = counter + 1 ∧
      (access toUppercase counter uuid call).remaining = none ∧
      ((access toUppercase counter uuid call).events = [] ∨
        ∃ e, (access toUppercase counter uuid call).events = [e] ∧ e.seq = counter ∧
          HasForm e) := by
  cases call with
  | safeOrder req scaledPriceText timestampMs =>
    refine ⟨rfl, rfl, ?_⟩
    simp only [access]
    cases hbuilt : buildSafeOrder toUppercase req timestampMs
        (safeClientOrderId req.exchangeId timestampMs (priceHash scaledPriceText) counter uuid) with
    | error error => exact Or.inl rfl
    | ok payload =>
      have hid : payload.clientOrderId = safeClientOrderId req.exchangeId timestampMs
          (priceHash scaledPriceText) counter uuid := by
        rw [buildSafeOrder] at hbuilt
        split at hbuilt
        · cases hbuilt
        · obtain rfl := Except.ok.inj hbuilt
          rfl
      exact Or.inr ⟨_, rfl, rfl, hasForm_safe hid⟩
  | counterOrder original nudgeBps filled timestampMs =>
    refine ⟨rfl, rfl, ?_⟩
    simp only [access]
    cases hbuilt : buildCounterOrder original nudgeBps filled timestampMs counter with
    | none => exact Or.inl rfl
    | some payload => exact Or.inr ⟨_, rfl, rfl, hasForm_counter hbuilt⟩
  | seedOrderCounter nanos processId => cases hcall

/-- What is under way when a call begins: it, if it passes its guards. -/
lemma enter_cases (toUppercase : String → String) (call : Call) :
    (enter toUppercase call).2 = [] ∧
      ((enter toUppercase call).1 = none ∨ (enter toUppercase call).1 = some call) := by
  cases call with
  | safeOrder req scaledPriceText timestampMs =>
    refine ⟨rfl, ?_⟩
    simp only [enter]
    split_ifs
    · exact Or.inl rfl
    · exact Or.inr rfl
  | counterOrder original nudgeBps filled timestampMs =>
    refine ⟨rfl, ?_⟩
    simp only [enter]
    split_ifs
    · exact Or.inl rfl
    · exact Or.inr rfl
  | seedOrderCounter nanos processId => exact ⟨rfl, Or.inr rfl⟩

section Run

variable {toUppercase : String → String} {s : State UInt64 Call} {issued : List Issued}
  {builds : ℕ}

/-- A call begins. -/
lemma CounterInv.of_enter (h : CounterInv s issued builds) {call : Call} (hcall : call.SeedsBelow) :
    CounterInv ⟨s.shared, s.inFlight ++ (enter toUppercase call).1.toList⟩
      (issued ++ (enter toUppercase call).2) (builds + if call.isBuild then 1 else 0) := by
  obtain ⟨hevents, hunderWay⟩ := enter_cases toUppercase call
  have hcount : (enter toUppercase call).1.toList.countP Call.isBuild ≤
      if call.isBuild then 1 else 0 := by
    rcases hunderWay with hnone | hsome
    · rw [hnone]
      exact Nat.zero_le _
    · rw [hsome, Option.toList_some, List.countP_singleton]
  obtain ⟨seed, hseed, hbounded⟩ := h.bounded
  have hpending := h.pending
  rw [hevents, List.append_nil]
  refine ⟨h.form, h.distinct, h.below, ?_, ?_, seed, hseed, ?_⟩
  · intro op hop
    rcases List.mem_append.mp hop with hop | hop
    · exact h.seeds op hop
    · rcases hunderWay with hnone | hsome
      · rw [hnone] at hop
        exact absurd hop List.not_mem_nil
      · rw [hsome, Option.toList_some, List.mem_singleton] at hop
        rw [hop]
        exact hcall
  · simp only [List.countP_append]
    omega
  · simp only [List.countP_append]
    omega

/-- A call under way makes its access. -/
lemma CounterInv.of_access (h : CounterInv s issued builds) (hbuilds : builds ≤ 2 ^ 63)
    {s' : State UInt64 Call} {call : Call} {others : List Call} {uuid : String}
    (hbefore : s.inFlight.Perm (call :: others))
    (hshared : s'.shared = (access toUppercase s.shared uuid call).shared)
    (hafter : s'.inFlight.Perm
      ((access toUppercase s.shared uuid call).remaining.toList ++ others)) :
    CounterInv s' (issued ++ (access toUppercase s.shared uuid call).events) builds := by
  have hseeds : ∀ op ∈ call :: others, op.SeedsBelow := fun op hop =>
    h.seeds op (hbefore.mem_iff.mpr hop)
  obtain ⟨hcall, hothers⟩ := List.forall_mem_cons.mp hseeds
  obtain ⟨seed, hseed, hbounded⟩ := h.bounded
  have hpending := h.pending
  rw [hbefore.countP_eq, List.countP_cons] at hbounded hpending
  by_cases hbuild : call.isBuild = true
  · -- The counter moves on by one, without coming round to zero.
    obtain ⟨hnext, hremaining, hevents⟩ := access_build toUppercase s.shared uuid hbuild
    rw [hremaining, Option.toList_none, List.nil_append] at hafter
    rw [if_pos hbuild] at hbounded hpending
    have hcounter : s'.shared.toNat = s.shared.toNat + 1 := by
      rw [hshared, hnext, UInt64.toNat_add]
      exact Nat.mod_eq_of_lt (by change s.shared.toNat + 1 < _; omega)
    have hold : ∀ e ∈ issued, e.seq.toNat < s'.shared.toNat := fun e he => by
      have hlt := h.below e he
      omega
    have hpending' : s'.inFlight.countP Call.isBuild ≤ builds := by
      rw [hafter.countP_eq]
      omega
    have hbounded' : s'.shared.toNat + s'.inFlight.countP Call.isBuild ≤ seed + builds := by
      rw [hafter.countP_eq]
      omega
    have hseeds' : ∀ op ∈ s'.inFlight, op.SeedsBelow := fun op hop =>
      hothers op (hafter.mem_iff.mp hop)
    rcases hevents with hnone | ⟨e, hone, hseq, hform⟩
    · rw [hnone, List.append_nil]
      exact ⟨h.form, h.distinct, hold, hseeds', hpending', seed, hseed, hbounded'⟩
    · rw [hone]
      refine ⟨?_, ?_, ?_, hseeds', hpending', seed, hseed, hbounded'⟩
      · intro e' he'
        rcases List.mem_append.mp he' with he' | he'
        · exact h.form e' he'
        · rw [List.mem_singleton.mp he']
          exact hform
      · refine List.pairwise_append.mpr ⟨h.distinct, List.pairwise_singleton _ _, ?_⟩
        intro e₁ he₁ e₂ he₂ heq
        have hlt := h.below e₁ he₁
        rw [heq, List.mem_singleton.mp he₂, hseq] at hlt
        exact lt_irrefl _ hlt
      · intro e' he'
        rcases List.mem_append.mp he' with he' | he'
        · exact hold e' he'
        · rw [List.mem_singleton.mp he', hseq, hcounter]
          exact Nat.lt_succ_self _
  · cases call with
    | safeOrder req scaledPriceText timestampMs => exact absurd rfl hbuild
    | counterOrder original nudgeBps filled timestampMs => exact absurd rfl hbuild
    | seedOrderCounter nanos processId =>
      simp only [access, Option.toList_none, List.nil_append] at hshared hafter
      rw [if_neg hbuild, add_zero] at hbounded hpending
      have hseeds' : ∀ op ∈ s'.inFlight, op.SeedsBelow := fun op hop =>
        hothers op (hafter.mem_iff.mp hop)
      have hevents : (access toUppercase s.shared uuid
          (.seedOrderCounter nanos processId)).events = [] := rfl
      rw [hevents, List.append_nil]
      by_cases hzero : s.shared = 0
      · -- Nothing has been issued while the counter is zero.
        rw [if_pos hzero] at hshared
        have hnone : ∀ e, e ∉ issued := fun e he => by
          have hlt := h.below e he
          rw [hzero] at hlt
          exact Nat.not_lt_zero _ hlt
        refine ⟨h.form, h.distinct, fun e he => absurd he (hnone e), hseeds', ?_,
          (seedValue nanos processId).toNat, hcall, ?_⟩
        · rw [hafter.countP_eq]
          exact hpending
        · rw [hafter.countP_eq, hshared]
          omega
      · rw [if_neg hzero] at hshared
        refine ⟨h.form, h.distinct, ?_, hseeds', ?_, seed, hseed, ?_⟩
        · rw [hshared]
          exact h.below
        · rw [hafter.countP_eq]
          exact hpending
        · rw [hafter.countP_eq, hshared]
          exact hbounded

/-- The step begins a call that builds an order. -/
def beginsBuild : Action Call String → Bool
  | .enter call => call.isBuild
  | .access _ _ => false

/-- One step keeps the invariant. -/
lemma CounterInv.step (h : CounterInv s issued builds) (toUppercase : String → String)
    {a : Action Call String} (hbuilds : builds ≤ 2 ^ 63)
    (hseeds : ∀ call, a = .enter call → call.SeedsBelow) :
    CounterInv (step (system toUppercase) s a).1 (issued ++ (step (system toUppercase) s a).2)
      (builds + if beginsBuild a then 1 else 0) := by
  rcases step_cases (system toUppercase) s a with
    ⟨call, rfl, hstate, hevents⟩ | ⟨⟨position, choice, rfl⟩, hnothing⟩ |
    ⟨position, uuid, call, others, rfl, -, hbefore, hshared, hafter, hevents⟩
  · rw [hstate, hevents]
    exact h.of_enter (hseeds call rfl)
  · rw [hnothing, List.append_nil]
    exact h
  · rw [hevents]
    exact h.of_access hbuilds hbefore hshared hafter

/-- A run keeps the invariant as long as there are at most 2^63 calls that build orders. -/
lemma CounterInv.run (h : CounterInv s issued builds) (toUppercase : String → String)
    {actions : List (Action Call String)}
    (hbuilds : builds + actions.countP beginsBuild ≤ 2 ^ 63)
    (hseeds : ∀ call, .enter call ∈ actions → call.SeedsBelow) :
    CounterInv (runState (Interleaving.step (system toUppercase)) s actions)
      (issued ++ runTrace (Interleaving.step (system toUppercase)) s actions)
      (builds + actions.countP beginsBuild) := by
  induction actions generalizing s issued builds with
  | nil => simpa using h
  | cons a actions ih =>
    rw [List.countP_cons] at hbuilds
    have hnext := h.step toUppercase (a := a) (by omega)
      fun call hcall => hseeds call (hcall ▸ List.mem_cons_self)
    have hrest := ih hnext (by omega) fun call hcall => hseeds call (List.mem_cons_of_mem a hcall)
    rw [runState_cons, runTrace_cons, ← List.append_assoc, List.countP_cons]
    convert hrest using 1
    omega

end Run

/-- The UUIDs drawn for the orders. -/
def drawnUuids (issued : List Issued) : List String := issued.filterMap Issued.uuid

/-- The client order ids of a process are pairwise distinct, in every interleaving of at most 2^63
calls that build orders with any number of seeds below 2^63, if no UUID is drawn twice. -/
theorem clientOrderIds_nodup (toUppercase : String → String) (actions : List (Action Call String))
    (hbuilds : actions.countP beginsBuild ≤ 2 ^ 63)
    (hseeds : ∀ call, .enter call ∈ actions → call.SeedsBelow)
    (huuids : (drawnUuids (runTrace (step (system toUppercase)) start actions)).Nodup) :
    ((runTrace (step (system toUppercase)) start actions).map fun e =>
      e.payload.clientOrderId).Nodup := by
  have hstart : CounterInv start [] 0 :=
    ⟨by simp, List.Pairwise.nil, by simp, by simp [start], by simp [start], 0, by norm_num,
      by simp [start]⟩
  have hrun := hstart.run toUppercase (by omega) hseeds
  rw [List.nil_append] at hrun
  generalize runTrace (step (system toUppercase)) start actions = issued at huuids hrun ⊢
  have hdrawn : issued.Pairwise fun e e' => ∀ uuid, e.uuid = some uuid → e'.uuid ≠ some uuid := by
    refine (List.pairwise_filterMap.mp huuids).imp fun hne uuid huuid huuid' => ?_
    exact hne uuid huuid uuid huuid' rfl
  refine List.pairwise_map.mpr ((hrun.distinct.and hdrawn).imp_of_mem fun he he' hdiff => ?_)
  exact clientOrderId_ne (hrun.form _ he) (hrun.form _ he') hdiff.1 hdiff.2

/-- A seed, an order, a counter-order to it, and an order at a price whose hash is zero while the
clock reads zero.  The first order overtakes the seed. -/
def sampleActions : List (Action Call String) :=
  [.enter (.seedOrderCounter 5 1), .enter (.safeOrder twoCentRequest "20000.00" 1000),
    .access 1 "", .access 0 "",
    .enter (.counterOrder (payloadOf twoCentRequest) 10 (some 40) 1000), .access 0 "",
    .enter (.safeOrder { twoCentRequest with
      price := 4294967295 / 1000000, bestAsk := none } "4294967295.000000" 0), .access 0 "f81d"]

/-- The ids of the sample. -/
theorem clientOrderIds_nodup_sample :
    (runTrace (step (system id)) start sampleActions).map (fun e => e.payload.clientOrderId) =
        ["0-1000-001e8480-0", "COUNTER-0-1000-1", "0-uuid-f81d"] ∧
      ((runTrace (step (system id)) start sampleActions).map fun e =>
        e.payload.clientOrderId).Nodup := by
  refine ⟨by decide +kernel, clientOrderIds_nodup id sampleActions (by decide) ?_
    (by decide +kernel)⟩
  intro call hcall
  simp only [sampleActions, List.mem_cons, Action.enter.injEq, reduceCtorEq, List.not_mem_nil,
    or_false, false_or] at hcall
  rcases hcall with rfl | rfl | rfl | rfl
  · change (seedValue 5 1).toNat < 2 ^ 63
    decide +kernel
  all_goals exact trivial

end SafetyExecutionEngine

end HftArb
