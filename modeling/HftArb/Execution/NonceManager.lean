import HftArb.Foundations.Runs
import HftArb.Foundations.Saturating

/-!
# The nonces of the exchanges

A counter for each exchange issues the nonces of its requests.  Several tasks use the counters at
once: a call looks its counter up under a read lock that it keeps to its end, and works on it with
single atomic accesses, a load or a compare-and-exchange that may fail for no reason.  A
registration takes the write lock and puts a new counter in its place.

Loads and exchanges only ever move a counter up, so its nonces increase.  A registration does not
look at the counter it replaces: `nonces_increase` is about the runs whose registrations start above
what has been issued.
-/

namespace HftArb

open Runs Saturating

namespace ApiNonceManager

/-- A call that is under way, at its next atomic access.  Exchanges are named by their keys. -/
inductive Op where
  | nextLoad (key : String)
  | nextExchange (key : String) (current : UInt64) (h : current ≠ maxWord)
  | minLoad (key : String) (minValue : UInt64)
  | minExchange (key : String) (minValue current : UInt64) (h : current < minValue)

/-- The key of the exchange of a call. -/
def Op.key : Op → String
  | .nextLoad key => key
  | .nextExchange key _ _ => key
  | .minLoad key _ => key
  | .minExchange key _ _ _ => key

/-- The counters of the registered exchanges and the calls under way. -/
structure State where
  nonces : String → Option UInt64
  inFlight : List Op

/-- A manager without exchanges. -/
def new : State := ⟨fun _ => none, []⟩

/-- A nonce that has been returned for an exchange. -/
structure Issued where
  key : String
  nonce : UInt64

/-- What an atomic access leaves: the counter, what remains of the call, and a nonce it returns. -/
structure Access where
  current : UInt64
  remaining : Option Op
  nonce : Option UInt64

/-- `fetch_update` after it has read the counter: it gives up on the largest word. -/
def tryNext (key : String) (current : UInt64) : Option Op :=
  if h : current = maxWord then none else some (.nextExchange key current h)

/-- `ensure_min` after it has read the counter: it is done when the counter is high enough. -/
def tryMin (key : String) (minValue current : UInt64) : Option Op :=
  if h : current < minValue then some (.minExchange key minValue current h) else none

/-- One atomic access to a counter.  A weak exchange may fail although the counter is as
expected. -/
def access (current : UInt64) (spurious : Bool) : Op → Access
  | .nextLoad key => ⟨current, tryNext key current, none⟩
  | .nextExchange key expected _ =>
    if current = expected ∧ spurious = false then ⟨expected + 1, none, some expected⟩
    else ⟨current, tryNext key current, none⟩
  | .minLoad key minValue => ⟨current, tryMin key minValue current, none⟩
  | .minExchange key minValue expected _ =>
    if current = expected ∧ spurious = false then ⟨minValue, none, none⟩
    else ⟨current, some (.minLoad key minValue), none⟩

/-- A step of the tasks that use the manager. -/
inductive Action where
  | registerExchange (exchangeId : String) (initialNonce : UInt64)
  | nextNonce (exchangeId : String)
  | setNonce (exchangeId : String) (value : UInt64)
  | syncWithServer (exchangeId : String) (serverNonce : UInt64)
  | access (call : ℕ) (spurious : Bool)

/-- A call enters, when its exchange is registered. -/
def enter (s : State) (op : Op) : State :=
  match s.nonces op.key with
  | none => s
  | some _ => { s with inFlight := s.inFlight ++ [op] }

/-- One step, with the nonces it returns.  The key of an exchange is its name in lower case, as
given by `toLowercase`; a registration waits for the calls under way. -/
def step (toLowercase : String → String) (s : State) : Action → State × List Issued
  | .registerExchange exchangeId initialNonce =>
    if s.inFlight = [] then
      ({ s with
        nonces := Function.update s.nonces (toLowercase exchangeId) (some initialNonce) }, [])
    else (s, [])
  | .nextNonce exchangeId => (enter s (.nextLoad (toLowercase exchangeId)), [])
  | .setNonce exchangeId value => (enter s (.minLoad (toLowercase exchangeId) value), [])
  | .syncWithServer exchangeId serverNonce =>
    (enter s (.minLoad (toLowercase exchangeId) serverNonce), [])
  | .access call spurious =>
    match s.inFlight[call]? with
    | none => (s, [])
    | some op =>
      match s.nonces op.key with
      | none => (s, [])
      | some current =>
        let done := access current spurious op
        (⟨Function.update s.nonces op.key (some done.current),
          match done.remaining with
          | none => s.inFlight.eraseIdx call
          | some op => s.inFlight.set call op⟩,
          done.nonce.toList.map fun nonce => ⟨op.key, nonce⟩)

/-! ## One step -/

/-- An atomic access does not lower the counter, and a nonce it returns is the counter it raises. -/
lemma access_spec (current : UInt64) (spurious : Bool) (op : Op) :
    current ≤ (access current spurious op).current ∧
      ∀ nonce, (access current spurious op).nonce = some nonce →
        nonce = current ∧ current < (access current spurious op).current := by
  cases op with
  | nextLoad key => exact ⟨UInt64.le_refl current, fun nonce h => nomatch h⟩
  | nextExchange key expected hne =>
    simp only [access]
    split_ifs with h
    · obtain ⟨rfl, -⟩ := h
      have hlt : current < current + 1 := by
        have hmax : current.toNat ≠ 2 ^ 64 - 1 := by
          intro heq
          exact hne (UInt64.toNat_inj.mp (heq.trans maxWord_toNat.symm))
        have hbound := current.toNat_lt
        rw [UInt64.lt_iff_toNat_lt, UInt64.toNat_add, UInt64.toNat_one,
          Nat.mod_eq_of_lt (by omega)]
        exact Nat.lt_succ_self _
      exact ⟨UInt64.le_of_lt hlt, fun nonce h => ⟨(Option.some.inj h).symm, hlt⟩⟩
    · exact ⟨UInt64.le_refl current, fun nonce h => nomatch h⟩
  | minLoad key minValue => exact ⟨UInt64.le_refl current, fun nonce h => nomatch h⟩
  | minExchange key minValue expected hlt =>
    simp only [access]
    split_ifs with h
    · obtain ⟨rfl, -⟩ := h
      exact ⟨UInt64.le_of_lt hlt, fun nonce h => nomatch h⟩
    · exact ⟨UInt64.le_refl current, fun nonce h => nomatch h⟩

/-- Of two nonces of one exchange the later one is greater. -/
def Increasing (trace : List Issued) : Prop :=
  trace.Pairwise fun i j => i.key = j.key → i.nonce < j.nonce

/-- Every nonce issued so far is below the counter of its exchange. -/
def Above (s : State) (trace : List Issued) : Prop :=
  ∀ i ∈ trace, ∃ current, s.nonces i.key = some current ∧ i.nonce < current

variable (toLowercase : String → String)

/-- A registration that takes place starts above every nonce issued for its exchange. -/
def RegistersAbove (s : State) (trace : List Issued) : Action → Prop
  | .registerExchange exchangeId initialNonce =>
    s.inFlight = [] → ∀ i ∈ trace, i.key = toLowercase exchangeId → i.nonce < initialNonce
  | _ => True

/-- Entering leaves the counters. -/
lemma nonces_enter (s : State) (op : Op) : (enter s op).nonces = s.nonces := by
  unfold enter
  split <;> rfl

variable {toLowercase}

/-- The nonces of an exchange are below its counter. -/
lemma Above.lt_current {s : State} {trace : List Issued} (h : Above s trace) {key : String}
    {current : UInt64} (hcurrent : s.nonces key = some current) :
    ∀ i ∈ trace, i.key = key → i.nonce < current := by
  intro i hi hkey
  obtain ⟨c, hc, hlt⟩ := h i hi
  rw [hkey, hcurrent] at hc
  obtain rfl := Option.some.inj hc
  exact hlt

/-- A counter may be set to a value above what has been issued for its exchange. -/
lemma Above.update {s s' : State} {trace : List Issued} (h : Above s trace) {key : String}
    {value : UInt64} (hnonces : s'.nonces = Function.update s.nonces key (some value))
    (hvalue : ∀ i ∈ trace, i.key = key → i.nonce < value) : Above s' trace := by
  intro i hi
  rw [hnonces]
  by_cases hkey : i.key = key
  · exact ⟨value, by rw [hkey]; exact Function.update_self _ _ _, hvalue i hi hkey⟩
  · obtain ⟨current, hcurrent, hlt⟩ := h i hi
    exact ⟨current, (Function.update_of_ne hkey _ _).trans hcurrent, hlt⟩

/-- A nonce may be issued that is above the others of its exchange. -/
lemma Increasing.append_singleton {trace : List Issued} (hinc : Increasing trace) {issued : Issued}
    (hlt : ∀ i ∈ trace, i.key = issued.key → i.nonce < issued.nonce) :
    Increasing (trace ++ [issued]) := by
  refine List.pairwise_append.mpr ⟨hinc, List.pairwise_singleton _ _, ?_⟩
  intro i hi j hj hkey
  rw [List.mem_singleton.mp hj] at hkey ⊢
  exact hlt i hi hkey

/-- A step keeps the nonces increasing and below the counters. -/
lemma Above.step {s : State} {trace : List Issued} (h : Above s trace) (hinc : Increasing trace)
    {a : Action} (ha : RegistersAbove toLowercase s trace a) :
    Above (step toLowercase s a).1 (trace ++ (step toLowercase s a).2) ∧
      Increasing (trace ++ (step toLowercase s a).2) := by
  have hsame : ∀ s' : State, s'.nonces = s.nonces →
      Above s' (trace ++ []) ∧ Increasing (trace ++ []) := by
    intro s' hnonces
    rw [List.append_nil]
    refine ⟨?_, hinc⟩
    intro i hi
    rw [hnonces]
    exact h i hi
  cases a with
  | registerExchange exchangeId initialNonce =>
    unfold ApiNonceManager.step
    split_ifs with hidle
    · rw [List.append_nil]
      exact ⟨h.update rfl (ha hidle), hinc⟩
    · exact hsame s rfl
  | nextNonce exchangeId => exact hsame _ (nonces_enter s _)
  | setNonce exchangeId value => exact hsame _ (nonces_enter s _)
  | syncWithServer exchangeId serverNonce => exact hsame _ (nonces_enter s _)
  | access call spurious =>
    simp only [ApiNonceManager.step]
    split
    · exact hsame s rfl
    · rename_i op hop
      split
      · exact hsame s rfl
      · rename_i current hcurrent
        obtain ⟨hle, hissue⟩ := access_spec current spurious op
        generalize ApiNonceManager.access current spurious op = done at hle hissue ⊢
        have hbelow := h.lt_current hcurrent
        have hraised : ∀ i ∈ trace, i.key = op.key → i.nonce < done.current :=
          fun i hi hkey => UInt64.lt_of_lt_of_le (hbelow i hi hkey) hle
        cases hnonce : done.nonce with
        | none =>
          simp only [Option.toList_none, List.map_nil, List.append_nil]
          exact ⟨h.update rfl hraised, hinc⟩
        | some nonce =>
          obtain ⟨rfl, hlt⟩ := hissue nonce hnonce
          simp only [Option.toList_some, List.map_cons, List.map_nil]
          refine ⟨?_, hinc.append_singleton hbelow⟩
          intro i hi
          rcases List.mem_append.mp hi with hi | hi
          · exact h.update rfl hraised i hi
          · rw [List.mem_singleton.mp hi]
            exact ⟨done.current, Function.update_self _ _ _, hlt⟩

/-! ## Runs -/

/-- Every registration of the run starts above what has been issued for its exchange. -/
def AllRegistersAbove (toLowercase : String → String) (actions : List Action) : Prop :=
  ∀ before a after, actions = before ++ a :: after →
    RegistersAbove toLowercase (runState (step toLowercase) new before)
      (runTrace (step toLowercase) new before) a

/-- A run whose registrations start above what has been issued keeps the nonces increasing. -/
lemma increasing_run {s : State} {trace : List Issued} (h : Above s trace)
    (hinc : Increasing trace) {actions : List Action}
    (hactions : ∀ before a after, actions = before ++ a :: after →
      RegistersAbove toLowercase (runState (step toLowercase) s before)
        (trace ++ runTrace (step toLowercase) s before) a) :
    Increasing (trace ++ runTrace (step toLowercase) s actions) := by
  have hrun := run_induction (I := fun s trace => Above s trace ∧ Increasing trace)
    (C := RegistersAbove toLowercase) (fun s trace a hs ha => hs.1.step hs.2 ha) ⟨h, hinc⟩ hactions
  exact hrun.2

/-- The nonces issued for an exchange, in order. -/
def issuedFor (key : String) (trace : List Issued) : List UInt64 :=
  (trace.filter fun i => i.key = key).map Issued.nonce

/-- For every exchange the nonces issued in the run are strictly increasing. -/
def NoncesIncrease (toLowercase : String → String) (actions : List Action) : Prop :=
  ∀ exchangeId, (issuedFor (toLowercase exchangeId)
    (runTrace (step toLowercase) new actions)).Pairwise (· < ·)

/-- The nonces of each exchange are increasing when they are in the trace of all exchanges. -/
lemma Increasing.issuedFor {trace : List Issued} (h : Increasing trace) (key : String) :
    (issuedFor key trace).Pairwise (· < ·) := by
  unfold ApiNonceManager.issuedFor
  rw [List.pairwise_map]
  refine List.Pairwise.imp_of_mem ?_ (h.filter _)
  intro i j hi hj hij
  have hkey : ∀ {k : Issued}, k ∈ trace.filter (fun i => i.key = key) → k.key = key := by
    intro k hk
    simpa using (List.mem_filter.mp hk).2
  exact hij ((hkey hi).trans (hkey hj).symm)

/-- The call that follows a registration issues the initial nonce. -/
lemma runTrace_register_next {s : State} (hidle : s.inFlight = []) (exchangeId : String)
    {initialNonce : UInt64} (hne : initialNonce ≠ maxWord) :
    runTrace (step toLowercase) s [.registerExchange exchangeId initialNonce,
      .nextNonce exchangeId, .access 0 false, .access 0 false] =
      [⟨toLowercase exchangeId, initialNonce⟩] := by
  simp [step, enter, hidle, access, tryNext, hne, Op.key]

/-- When every registration starts above the nonces issued for its exchange before, the nonces of
every exchange are strictly increasing, whatever the interleaving of the calls.  A registration that
does not, followed by a call for a nonce, breaks the order. -/
theorem nonces_increase (toLowercase : String → String) (actions : List Action) :
    (AllRegistersAbove toLowercase actions → NoncesIncrease toLowercase actions) ∧
    ∀ exchangeId initialNonce, initialNonce ≠ maxWord →
      (runState (step toLowercase) new actions).inFlight = [] →
      (∃ nonce ∈ issuedFor (toLowercase exchangeId) (runTrace (step toLowercase) new actions),
        initialNonce ≤ nonce) →
      ¬ NoncesIncrease toLowercase (actions ++ [.registerExchange exchangeId initialNonce,
        .nextNonce exchangeId, .access 0 false, .access 0 false]) := by
  constructor
  · intro hactions exchangeId
    have hempty : Above new [] := by
      intro i hi
      simp at hi
    have hinc := increasing_run hempty List.Pairwise.nil hactions
    rw [List.nil_append] at hinc
    exact hinc.issuedFor _
  · rintro exchangeId initialNonce hne hidle ⟨nonce, hnonce, hle⟩ h
    have hpairwise := h exchangeId
    have htrace : issuedFor (toLowercase exchangeId) (runTrace (step toLowercase) new
        (actions ++ [.registerExchange exchangeId initialNonce, .nextNonce exchangeId,
          .access 0 false, .access 0 false])) =
        issuedFor (toLowercase exchangeId) (runTrace (step toLowercase) new actions) ++
          [initialNonce] := by
      rw [runTrace_append, runTrace_register_next hidle exchangeId hne]
      simp [issuedFor]
    rw [htrace, List.pairwise_append] at hpairwise
    have hlt := hpairwise.2.2 nonce hnonce initialNonce (by simp)
    exact absurd hle (UInt64.not_le.mpr hlt)

/-- An exchange may be registered again above its last nonce. -/
theorem nonces_increase_registered_above :
    NoncesIncrease (fun name => name)
      [.registerExchange "kraken" 1000, .nextNonce "kraken", .access 0 false, .access 0 false,
        .registerExchange "kraken" 1001, .nextNonce "kraken", .access 0 false,
        .access 0 false] := by
  refine (nonces_increase (fun name => name) _).1 ?_
  have hne : (1000 : UInt64) ≠ maxWord := by decide
  have hfirst : runTrace (step fun name => name) new [.registerExchange "kraken" 1000,
      .nextNonce "kraken", .access 0 false, .access 0 false] = [⟨"kraken", 1000⟩] :=
    runTrace_register_next rfl "kraken" hne
  unfold AllRegistersAbove
  rw [forall_split_cons, forall_split_cons, forall_split_cons, forall_split_cons, forall_split_cons,
    forall_split_cons, forall_split_cons, forall_split_cons]
  refine ⟨?_, trivial, trivial, trivial, ?_, trivial, trivial, trivial, forall_split_nil⟩
  · intro _ i hi
    simp at hi
  · intro _ i hi _
    rw [hfirst, List.mem_singleton] at hi
    rw [hi]
    decide

/-- An exchange that is registered again issues its first nonce again. -/
theorem registered_again_repeats_nonce :
    ¬ NoncesIncrease (fun name => name)
      [.registerExchange "kraken" 1000, .nextNonce "kraken", .access 0 false, .access 0 false,
        .registerExchange "kraken" 1000, .nextNonce "kraken", .access 0 false,
        .access 0 false] := by
  intro h
  have htrace : issuedFor "kraken" (runTrace (step fun name => name) new
      [.registerExchange "kraken" 1000, .nextNonce "kraken", .access 0 false, .access 0 false,
        .registerExchange "kraken" 1000, .nextNonce "kraken", .access 0 false, .access 0 false]) =
      [1000, 1000] := by
    have hne : (1000 : UInt64) ≠ maxWord := by decide
    simp [step, enter, access, tryNext, Op.key, new, issuedFor, hne]
  have hpairwise := h "kraken"
  rw [htrace] at hpairwise
  exact absurd hpairwise (by decide)

end ApiNonceManager

end HftArb
