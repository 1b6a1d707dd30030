import HftArb.Capital.DepositVerification
import HftArb.Foundations.Interleaving

/-!
# The nonces of Kraken and the timestamps of HTX

A private request of Kraken carries a nonce, which `KrakenNonce` counts up under a lock and which
`sync_nonce` moves past the clock of the exchange.  The nonces rise, and pass everything that the
exchange has reported, until the counter is full; but an answer whose time is negative or too large
saturates, and the addition of one then starts the counter again from zero
(`nonces_rise_between_resets`).

A private request of HTX carries a timestamp, which `next_timestamp` takes from the clock or from
the counter, whichever is ahead.  It reads the counter in one access and writes it in another.  The
timestamps rise as long as no call reads between the two accesses of another one
(`timestamps_rise`); two calls that read a counter ahead of the clock before either writes send the
same timestamp (`overlapping_calls_repeat`).
-/

namespace HftArb

open BinanceDepth Saturating Runs

namespace KrakenNonce

/-- A call on the counter: `next` of a private request, and `sync_nonce` with the answer of the
exchange. -/
inductive Action
  | next
  | syncNonce (answer : Json)

/-- A nonce that is sent, and a time of the exchange that is taken over. -/
inductive Event
  | issued (nonce : UInt64)
  | synced (serverNonce : UInt64)

/-- `sync_to`. -/
def syncTo (last serverNonce : UInt64) : UInt64 :=
  if last ≤ serverNonce then serverNonce + 1 else last

section Model

-- `as_f64`, the product with 1000 and the conversion to an integer.
variable (millisOfF64 : Json → Option UInt64)

/-- The time of an answer in milliseconds. -/
def serverTimeMs (answer : Json) : Option UInt64 :=
  let unixtime := (answer.index "result").index "unixtime"
  (unixtime.asI64.map fun t => satMul t.toUInt64 1000).or (millisOfF64 unixtime)

/-- One call, under the lock of the counter. -/
def step (last : UInt64) : Action → UInt64 × List Event
  | .next => (satAdd last 1, [.issued (satAdd last 1)])
  | .syncNonce answer =>
    match serverTimeMs millisOfF64 answer with
    | some st => (syncTo last st, [.synced st])
    | none => (last, [])

/-- The events since the last one, when an event may start anew. -/
def Event.since (events : List Event) : Event → List Event
  | .synced v => if v = maxWord then [] else events ++ [.synced v]
  | e => events ++ [e]

/-- The events since the exchange reported the largest time. -/
def sinceReset (tr : List Event) : List Event := tr.foldl Event.since []

/-- A nonce passes the times and the nonces since the last reset, unless the counter is full. -/
def Rising (history : List Event) : Event → Prop
  | .issued nonce => (∀ v, .synced v ∈ sinceReset history → v < nonce) ∧
      ∀ m, .issued m ∈ sinceReset history → m < nonce ∨ m = maxWord ∧ nonce = maxWord
  | .synced _ => True

/-- The counter and the events so far. -/
structure Sound (last : UInt64) (tr : List Event) : Prop where
  synced : ∀ v, .synced v ∈ sinceReset tr → v < last
  issued : ∀ m, .issued m ∈ sinceReset tr → m ≤ last
  rising : Guarded Rising tr

variable {millisOfF64} {last : UInt64} {tr : List Event}

lemma sinceReset_append_singleton (tr : List Event) (e : Event) :
    sinceReset (tr ++ [e]) = e.since (sinceReset tr) := by
  rw [sinceReset, List.foldl_append]
  rfl

lemma lt_satAdd_one {a b : UInt64} (h : a < b) : a < satAdd b 1 := by
  rw [UInt64.lt_iff_toNat_lt] at h ⊢
  have hb := b.toNat_lt
  rw [satAdd_toNat, UInt64.toNat_one]
  omega

lemma lt_satAdd_one_or_full {a b : UInt64} (h : a ≤ b) :
    a < satAdd b 1 ∨ a = maxWord ∧ satAdd b 1 = maxWord := by
  rw [UInt64.le_iff_toNat_le] at h
  rw [UInt64.lt_iff_toNat_lt, ← UInt64.toNat_inj, ← UInt64.toNat_inj, maxWord_toNat, satAdd_toNat,
    UInt64.toNat_one]
  have hb := b.toNat_lt
  omega

/-- Taking over a time other than the largest one leaves the counter above it, and not below what it
was. -/
lemma lt_syncTo {last v : UInt64} (hv : v ≠ maxWord) :
    v < syncTo last v ∧ last ≤ syncTo last v := by
  have hmax : v.toNat ≠ 2 ^ 64 - 1 := by
    rwa [ne_eq, ← maxWord_toNat, UInt64.toNat_inj]
  have hlt := v.toNat_lt
  have hsucc : (v + 1).toNat = v.toNat + 1 := by
    rw [UInt64.toNat_add, UInt64.toNat_one, Nat.mod_eq_of_lt (by omega)]
  unfold syncTo
  split_ifs with h
  · rw [UInt64.le_iff_toNat_le] at h ⊢
    rw [UInt64.lt_iff_toNat_lt, hsucc]
    omega
  · exact ⟨UInt64.not_le.mp h, UInt64.le_refl last⟩

/-- What one call keeps. -/
lemma Sound.step (h : Sound last tr) (a : Action) :
    Sound (step millisOfF64 last a).1 (tr ++ (step millisOfF64 last a).2) := by
  cases a with
  | next =>
    have hsince : sinceReset (tr ++ [.issued (satAdd last 1)]) =
        sinceReset tr ++ [.issued (satAdd last 1)] := sinceReset_append_singleton ..
    change Sound (satAdd last 1) (tr ++ [.issued (satAdd last 1)])
    refine ⟨fun v hv => ?_, fun m hm => ?_, ?_⟩
    · rw [hsince] at hv
      have hv : .synced v ∈ sinceReset tr := by simpa using hv
      exact lt_satAdd_one (h.synced v hv)
    · rw [hsince] at hm
      have hm : .issued m ∈ sinceReset tr ∨ m = satAdd last 1 := by simpa using hm
      rcases hm with hm | rfl
      · rcases lt_satAdd_one_or_full (h.issued m hm) with hlt | ⟨rfl, heq⟩
        · exact UInt64.le_of_lt hlt
        · exact heq ▸ UInt64.le_refl _
      · exact UInt64.le_refl _
    · refine guarded_append_singleton.mpr ⟨h.rising, fun v hv => ?_, fun m hm => ?_⟩
      · exact lt_satAdd_one (h.synced v hv)
      · exact lt_satAdd_one_or_full (h.issued m hm)
  | syncNonce answer =>
    simp only [KrakenNonce.step]
    cases serverTimeMs millisOfF64 answer with
    | none => simpa using h
    | some st =>
      have hrising : Guarded Rising (tr ++ [.synced st]) :=
        guarded_append_singleton.mpr ⟨h.rising, trivial⟩
      have hsince := sinceReset_append_singleton tr (.synced st)
      by_cases hst : st = maxWord
      · have hnil : sinceReset (tr ++ [.synced st]) = [] := by rw [hsince, Event.since, if_pos hst]
        refine ⟨fun v hv => ?_, fun m hm => ?_, hrising⟩
        · rw [hnil] at hv
          cases hv
        · rw [hnil] at hm
          cases hm
      · obtain ⟨hlt, hle⟩ : st < syncTo last st ∧ last ≤ syncTo last st := lt_syncTo hst
        rw [Event.since, if_neg hst] at hsince
        refine ⟨fun v hv => ?_, fun m hm => ?_, hrising⟩
        · rw [hsince] at hv
          have hv : .synced v ∈ sinceReset tr ∨ v = st := by simpa using hv
          rcases hv with hv | rfl
          · exact UInt64.lt_of_lt_of_le (h.synced v hv) hle
          · exact hlt
        · rw [hsince] at hm
          have hm : .issued m ∈ sinceReset tr := by simpa using hm
          exact UInt64.le_trans (h.issued m hm) hle

/-- The time is the largest one when the answer is negative, or too large. -/
lemma serverTimeMs_full_iff {answer : Json} {t : Int64}
    (ht : ((answer.index "result").index "unixtime").asI64 = some t) :
    serverTimeMs millisOfF64 answer = some maxWord ↔ t < 0 ∨ 18446744073709552 ≤ t := by
  have hint : t.toInt = if 2 * t.toUInt64.toNat < 2 ^ 64 then (t.toUInt64.toNat : ℤ)
      else (t.toUInt64.toNat : ℤ) - (2 ^ 64 : ℕ) := BitVec.toInt_eq_toNat_cond t.toBitVec
  have hlt := t.toUInt64.toNat_lt
  have hthousand : (1000 : UInt64).toNat = 1000 := rfl
  have hlimit : (18446744073709552 : Int64).toInt = 18446744073709552 := by decide
  rw [serverTimeMs, ht, Option.map_some, Option.some_or, Option.some_inj, ← UInt64.toNat_inj,
    satMul_toNat, maxWord_toNat, hthousand, Int64.lt_iff_toInt_lt, Int64.le_iff_toInt_le, hlimit,
    Int64.toInt_zero]
  omega

/-- A time taken over is that of an answer. -/
lemma exists_answer_of_synced {initial v : UInt64} {actions : List Action}
    (h : .synced v ∈ runTrace (step millisOfF64) initial actions) :
    ∃ answer, .syncNonce answer ∈ actions ∧ serverTimeMs millisOfF64 answer = some v := by
  obtain ⟨before, a, after, rfl, hevent⟩ := mem_runTrace_iff.mp h
  cases a with
  | next => simp [step] at hevent
  | syncNonce answer =>
    refine ⟨answer, by simp, ?_⟩
    simp only [step] at hevent
    cases hst : serverTimeMs millisOfF64 answer with
    | none => simp [hst] at hevent
    | some st =>
      rw [hst] at hevent
      have heq : v = st := by simpa using hevent
      rw [heq]

/-- Since the last reset every nonce has passed all times reported and all nonces sent before it,
until the counter is full.  A reset is due to an answer without a time in whole seconds, or with one
that is negative or too large. -/
theorem nonces_rise_between_resets (millisOfF64 : Json → Option UInt64) (initial : UInt64)
    (actions : List Action) :
    Guarded Rising (runTrace (step millisOfF64) initial actions) ∧
      (.synced maxWord ∈ runTrace (step millisOfF64) initial actions →
        ∃ answer, .syncNonce answer ∈ actions ∧
          ∀ t, ((answer.index "result").index "unixtime").asI64 = some t →
            t < 0 ∨ 18446744073709552 ≤ t) := by
  have hstart : Sound initial [] := by
    refine ⟨fun v hv => ?_, fun m hm => ?_, trivial⟩
    · cases hv
    · cases hm
  have hrun : Sound (runState (step millisOfF64) initial actions)
      ([] ++ runTrace (step millisOfF64) initial actions) :=
    run_induction (C := fun _ _ _ => True) (fun _ _ a h _ => h.step a) hstart
      fun _ _ _ _ => trivial
  refine ⟨hrun.rising, fun hreset => ?_⟩
  obtain ⟨answer, hanswer, htime⟩ := exists_answer_of_synced hreset
  exact ⟨answer, hanswer, fun t ht => (serverTimeMs_full_iff ht).mp htime⟩

end Model

end KrakenNonce

namespace HtxTimestamps

open Interleaving

/-- A call on the counter. -/
inductive Call
  | nextTimestamp

/-- What a call of `next_timestamp` does next: the `fetch_max`, or the store of its timestamp. -/
inductive Op
  | fetchMax
  | store (now ts : UInt64)
  deriving DecidableEq

/-- A timestamp that is returned, with the clock reading of its call. -/
structure Returned where
  now : UInt64
  ts : UInt64

/-- One access to the counter, with a clock reading for the first one. -/
def access (counter now : UInt64) : Op → Outcome UInt64 Op Returned
  | .fetchMax =>
    ⟨if counter < now then now else counter,
      some (.store now (if counter < now then now else counter + 1)), []⟩
  | .store now ts => ⟨ts, none, [⟨now, ts⟩]⟩

/-- The calls of `next_timestamp`. -/
def timestampSystem : System UInt64 Call Op UInt64 Returned where
  enter
    | .nextTimestamp => (some .fetchMax, [])
  access := access

/-- A client that has just been made. -/
def start (initial : UInt64) : State UInt64 Op := ⟨initial, []⟩

/-- No call makes an access between the two accesses of another one, and none finds the counter
full. -/
def Unraced (s : State UInt64 Op) : Action Call UInt64 → Prop
  | .enter _ => True
  | .access position _ => s.shared ≠ maxWord ∧
      ∀ op ∈ s.inFlight, op = .fetchMax ∨ s.inFlight[position]? = some op

instance (s : State UInt64 Op) : DecidablePred (Unraced s)
  | .enter _ => .isTrue trivial
  | .access position _ => inferInstanceAs (Decidable (s.shared ≠ maxWord ∧
      ∀ op ∈ s.inFlight, op = .fetchMax ∨ s.inFlight[position]? = some op))

/-- Where the calls of an unraced run stand: none is between its accesses, and the counter is not
below what was returned; or one is, and its timestamp is above that. -/
inductive Phase (initial : UInt64) (s : State UInt64 Op) (tr : List Returned) : Prop
  | quiet (hcalls : ∀ op ∈ s.inFlight, op = .fetchMax) (hinitial : initial ≤ s.shared)
      (habove : ∀ r ∈ tr, r.ts ≤ s.shared)
  | pending (now ts : UInt64) (others : List Op)
      (hcalls : s.inFlight.Perm (.store now ts :: others)) (hothers : ∀ op ∈ others, op = .fetchMax)
      (hnow : now ≤ ts) (hinitial : initial < ts) (habove : ∀ r ∈ tr, r.ts < ts)

/-- The calls and the timestamps so far. -/
structure Kept (initial : UInt64) (s : State UInt64 Op) (tr : List Returned) : Prop where
  rising : tr.Pairwise fun r r' => r.ts < r'.ts
  bounds : ∀ r ∈ tr, r.now ≤ r.ts ∧ initial < r.ts
  phase : Phase initial s tr

/-- The timestamp of a call is ahead of the counter that it has read and not behind its clock. -/
lemma timestamp_spec {counter : UInt64} (hfull : counter ≠ maxWord) (now : UInt64) :
    now ≤ (if counter < now then now else counter + 1) ∧
      counter < if counter < now then now else counter + 1 := by
  have hmax : counter.toNat ≠ 2 ^ 64 - 1 := by
    rwa [ne_eq, ← maxWord_toNat, UInt64.toNat_inj]
  have hlt := counter.toNat_lt
  have hsucc : (counter + 1).toNat = counter.toNat + 1 := by
    rw [UInt64.toNat_add, UInt64.toNat_one, Nat.mod_eq_of_lt (by omega)]
  split_ifs with h
  · exact ⟨UInt64.le_refl now, h⟩
  · rw [UInt64.lt_iff_toNat_lt] at h ⊢
    rw [UInt64.le_iff_toNat_le, hsucc]
    omega

variable {initial : UInt64} {s : State UInt64 Op} {tr : List Returned}

/-- What an unraced step keeps. -/
lemma Kept.step (h : Kept initial s tr) {a : Action Call UInt64} (hunraced : Unraced s a) :
    Kept initial (step timestampSystem s a).1 (tr ++ (step timestampSystem s a).2) := by
  rcases step_cases timestampSystem s a with ⟨call, rfl, hstate, hevents⟩ | ⟨-, hstep⟩ |
    ⟨position, now, op, others, rfl, hop, hbefore, hshared, hafter, hevents⟩
  · rw [hevents, hstate]
    simp only [timestampSystem, List.append_nil, Option.toList_some]
    refine ⟨h.rising, h.bounds, ?_⟩
    cases h.phase with
    | quiet hcalls hinitial habove =>
      refine .quiet (fun op hop => ?_) hinitial habove
      rcases List.mem_append.mp hop with hop | hop
      · exact hcalls op hop
      · exact List.mem_singleton.mp hop
    | pending now ts others hcalls hothers hnow hinitial habove =>
      refine .pending now ts (others ++ [.fetchMax]) (hcalls.append_right _) (fun op hop => ?_)
        hnow hinitial habove
      rcases List.mem_append.mp hop with hop | hop
      · exact hothers op hop
      · exact List.mem_singleton.mp hop
  · rw [hstep]
    simpa using h
  · obtain ⟨hfull, halone⟩ := hunraced
    cases h.phase with
    | quiet hcalls hinitial habove =>
      obtain rfl := hcalls op (List.mem_of_getElem? hop)
      obtain ⟨hnow, hahead⟩ := timestamp_spec hfull now
      have hothers : ∀ o ∈ others, o = .fetchMax := fun o ho =>
        hcalls o (hbefore.mem_iff.mpr (List.mem_cons_of_mem _ ho))
      rw [hevents]
      simp only [timestampSystem, access, List.append_nil] at hafter ⊢
      refine ⟨h.rising, h.bounds, .pending now _ others hafter hothers hnow ?_ fun r hr => ?_⟩
      · exact UInt64.lt_of_le_of_lt hinitial hahead
      · exact UInt64.lt_of_le_of_lt (habove r hr) hahead
    | pending pendingNow ts pendingOthers hcalls hothers hnow hinitial habove =>
      have hmem : Op.store pendingNow ts ∈ s.inFlight := hcalls.mem_iff.mpr List.mem_cons_self
      obtain rfl : op = .store pendingNow ts := by
        rcases halone _ hmem with heq | heq
        · cases heq
        · exact Option.some_inj.mp (hop.symm.trans heq)
      have hperm : others.Perm pendingOthers := (hbefore.symm.trans hcalls).cons_inv
      rw [hevents]
      simp only [timestampSystem, access, Option.toList_none, List.nil_append] at hafter hshared ⊢
      refine ⟨?_, ?_, .quiet (fun o ho => ?_) ?_ ?_⟩
      · rw [List.pairwise_append]
        refine ⟨h.rising, List.pairwise_singleton .., fun r hr r' hr' => ?_⟩
        rw [List.mem_singleton.mp hr']
        exact habove r hr
      · intro r hr
        rcases List.mem_append.mp hr with hr | hr
        · exact h.bounds r hr
        · rw [List.mem_singleton.mp hr]
          exact ⟨hnow, hinitial⟩
      · exact hothers o (hperm.mem_iff.mp (hafter.mem_iff.mp ho))
      · rw [hshared]
        exact UInt64.le_of_lt hinitial
      · rw [hshared]
        intro r hr
        rcases List.mem_append.mp hr with hr | hr
        · exact UInt64.le_of_lt (habove r hr)
        · rw [List.mem_singleton.mp hr]
          exact UInt64.le_refl _

/-- In a run without races every timestamp passes those returned before it and the initial counter,
and is not behind the clock reading of its call. -/
theorem timestamps_rise (initial : UInt64) (actions : List (Action Call UInt64))
    (hunraced : ∀ before a after, actions = before ++ a :: after →
      Unraced (runState (step timestampSystem) (start initial) before) a) :
    (runTrace (step timestampSystem) (start initial) actions).Pairwise
        (fun r r' => r.ts < r'.ts) ∧
      ∀ r ∈ runTrace (step timestampSystem) (start initial) actions,
        r.now ≤ r.ts ∧ initial < r.ts := by
  have hstart : Kept initial (start initial) [] := by
    refine ⟨List.Pairwise.nil, fun r hr => ?_, .quiet (fun op hop => ?_) (UInt64.le_refl _) ?_⟩
    · cases hr
    · cases hop
    · intro r hr
      cases hr
  have hrun : Kept initial (runState (step timestampSystem) (start initial) actions)
      ([] ++ runTrace (step timestampSystem) (start initial) actions) :=
    run_induction (C := fun s _ a => Unraced s a) (fun _ _ _ h ha => h.step ha) hstart hunraced
  exact ⟨hrun.rising, hrun.bounds⟩

/-- Two calls in the same millisecond, one after the other. -/
def twoCalls : List (Action Call UInt64) :=
  [.enter .nextTimestamp, .access 0 5, .access 0 0, .enter .nextTimestamp, .access 0 5,
    .access 0 0]

/-- Their timestamps are one apart. -/
theorem timestamps_rise_twoCalls :
    (runTrace (step timestampSystem) (start 3) twoCalls).map Returned.ts = [5, 6] ∧
      (runTrace (step timestampSystem) (start 3) twoCalls).Pairwise (fun r r' => r.ts < r'.ts) :=
  ⟨by decide, (timestamps_rise 3 twoCalls (forall_split_iff.mpr (by decide))).1⟩

/-- Two calls that read a counter which is not behind their clocks before either of them stores
return the same timestamp. -/
lemma overlapping_calls_repeat {counter now now' : UInt64} (h : now ≤ counter)
    (h' : now' ≤ counter) (x y : UInt64) :
    runTrace (step timestampSystem) (start counter)
        [.enter .nextTimestamp, .enter .nextTimestamp, .access 0 now, .access 1 now',
          .access 0 x, .access 0 y] =
      [⟨now, counter + 1⟩, ⟨now', counter + 1⟩] := by
  have hlt : ¬ counter < now := UInt64.not_lt.mpr h
  have hlt' : ¬ counter < now' := UInt64.not_lt.mpr h'
  simp [step, timestampSystem, access, start, proceed, hlt, hlt']

end HtxTimestamps

end HftArb
