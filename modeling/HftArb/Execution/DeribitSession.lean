import HftArb.Capital.DepositVerification
import HftArb.Execution.RealPipeline
import HftArb.Foundations.Interleaving

/-!
# The sessions of Deribit

A private call of Deribit carries a token.  `call_private` takes the one that `ensure_auth` finds in
the cache, or authenticates and puts the token of the answer there, and it empties the cache when
the answer to the call reports an error of the authentication.  Any number of calls, those of
`call_public` among them, share the counter of the requests, and the cache is not locked between the
look at it and the answer of the authentication.

There are two clients.  They differ in what they keep and in whether they look at the clock, so a
client is a parameter here (`Client`).  In every interleaving a call finds the token that the last
authentication granted, unless an error has been reported since or the token is no longer usable;
as many requests for a token are made as calls find none; and every request carries a granted token
and its own number (`requests_authenticated`).

The number of a request is drawn and the request handed to the connection in one access, so that the
order of the requests in a run is the order in which their numbers are drawn.
-/

namespace HftArb

namespace DeribitSession

open BinanceDepth Saturating Runs Interleaving

/-- What a client keeps of an authentication, in the cache: when this may be used, how it is read
off an answer, its token, and the errors that empty the cache. -/
structure Client (τ : Type) where
  usable : UInt64 → τ → Bool
  granted : UInt64 → Json → Option τ
  token : τ → String
  isAuthError : Json → Bool

/-- The token of an answer without an error. -/
def readToken (json : Json) : Option String :=
  if (json.get? "error").isSome then none
  else ((json.index "result").index "access_token").asStr

/-- The errors after which a client authenticates again; a message that is missing is replaced. -/
def isAuthError (noMessage : String) (error : Json) : Bool :=
  let msg := (error.index "message").asStr.getD noMessage
  decide ((error.index "code").asI64.getD 0 = -32602) || textContains msg "token"
    || textContains msg "auth"

/-- The client of `exchange/deribit.rs`, which keeps the time in microseconds at which a token
expires and does not use a token in the last thirty seconds before it. -/
def deribitExchange : Client (String × UInt64) where
  usable nowUs entry := decide (nowUs + 30000000 < entry.2)
  granted nowUs json := (readToken json).map fun token =>
    let expiresInSecs := ((json.index "result").index "expires_in").asU64.getD 3600
    (token, satAdd nowUs (satMul expiresInSecs 1000000))
  token := Prod.fst
  isAuthError := isAuthError "unknown Deribit RPC error"

/-- The client of `exchanges.rs`, which uses a token until an error is reported. -/
def deribitPrivateClient : Client String where
  usable _ _ := true
  granted _ json := readToken json
  token := id
  isAuthError := isAuthError "unknown RPC error"

/-- What the calls share: `access_token` and `rpc_id`. -/
structure Shared (τ : Type) where
  accessToken : Option τ
  rpcId : UInt64

/-- The method of a call and its parameters. -/
structure Request where
  method : String
  params : Json

/-- `call_private` and `call_public`. -/
inductive Call
  | callPrivate (req : Request)
  | callPublic (req : Request)

/-- What a call does next. -/
inductive Op
  | check (req : Request)
  | authenticate (req : Request)
  | awaitAuth (req : Request)
  | send (req : Request) (token : String)
  | awaitAnswer
  | sendPublic (req : Request)
  | awaitPublic

/-- What an access reads: the clock, and the answer that has come, if it has one that can be
read. -/
structure Input where
  nowUs : UInt64
  answer : Option Json

/-- What happens at the cache and at the exchange. -/
inductive Event (τ : Type)
  | checked (nowUs : UInt64) (found : Option τ)
  | authSent (id : UInt64)
  | granted (entry : τ)
  | refused
  | sent (id : UInt64) (token : String) (req : Request)
  | sentPublic (id : UInt64) (req : Request)
  | cleared
  | returned (result : Option Json)

section Client

variable {τ : Type} (client : Client τ)

/-- One access of a call. -/
def access (s : Shared τ) (input : Input) : Op → Outcome (Shared τ) Op (Event τ)
  | .check req =>
    match s.accessToken.filter (client.usable input.nowUs) with
    | some entry =>
      ⟨s, some (.send req (client.token entry)), [.checked input.nowUs (some entry)]⟩
    | none => ⟨s, some (.authenticate req), [.checked input.nowUs none]⟩
  | .authenticate req =>
    ⟨{ s with rpcId := s.rpcId + 1 }, some (.awaitAuth req), [.authSent s.rpcId]⟩
  | .awaitAuth req =>
    match input.answer.bind (client.granted input.nowUs) with
    | some entry => ⟨{ s with accessToken := some entry },
        some (.send req (client.token entry)), [.granted entry]⟩
    | none => ⟨s, none, [.refused]⟩
  | .send req token =>
    ⟨{ s with rpcId := s.rpcId + 1 }, some .awaitAnswer, [.sent s.rpcId token req]⟩
  | .awaitAnswer =>
    match input.answer.bind fun json => json.get? "error" with
    | some error =>
      if client.isAuthError error then
        ⟨{ s with accessToken := none }, none, [.cleared, .returned none]⟩
      else ⟨s, none, [.returned none]⟩
    | none => ⟨s, none, [.returned input.answer]⟩
  | .sendPublic req =>
    ⟨{ s with rpcId := s.rpcId + 1 }, some .awaitPublic, [.sentPublic s.rpcId req]⟩
  | .awaitPublic =>
    ⟨s, none, [.returned (input.answer.filter fun json => (json.get? "error").isNone)]⟩

/-- What a call does first. -/
def enter : Call → Option Op × List (Event τ)
  | .callPrivate req => (some (.check req), [])
  | .callPublic req => (some (.sendPublic req), [])

/-- The calls of a client. -/
def sessionSystem : System (Shared τ) Call Op Input (Event τ) where
  enter := enter
  access := access client

/-- A client without a token. -/
def start : State (Shared τ) Op := ⟨⟨none, 1⟩, []⟩

/-- What an event leaves in the cache. -/
def Event.cacheAfter (cache : Option τ) : Event τ → Option τ
  | .granted entry => some entry
  | .cleared => none
  | _ => cache

/-- What the cache holds after some events: the last token granted, if no error has been reported
since. -/
def cached (events : List (Event τ)) : Option τ := events.foldl Event.cacheAfter none

/-- The number of a request. -/
def Event.id? : Event τ → Option UInt64
  | .authSent id => some id
  | .sent id _ _ => some id
  | .sentPublic id _ => some id
  | _ => none

/-- What an event shows of the events before it: a look at the cache finds the usable part of what
is there, and a request carries a token that has been granted. -/
def Shown (history : List (Event τ)) : Event τ → Prop
  | .checked nowUs found => found = (cached history).filter (client.usable nowUs)
  | .sent _ token _ => ∃ entry, client.token entry = token ∧ .granted entry ∈ history
  | _ => True

/-- A look at the cache that finds nothing. -/
def Event.isMiss : Event τ → Bool
  | .checked _ none => true
  | _ => false

/-- A request for a token. -/
def Event.isAuthSent : Event τ → Bool
  | .authSent _ => true
  | _ => false

/-- A call that has a token now. -/
def Event.isReady : Event τ → Bool
  | .checked _ (some _) => true
  | .granted _ => true
  | _ => false

/-- A request of a private call. -/
def Event.isSent : Event τ → Bool
  | .sent .. => true
  | _ => false

/-- A call that has yet to ask for a token. -/
def Op.authenticates : Op → Bool
  | .authenticate _ => true
  | _ => false

/-- A call that has yet to send its request. -/
def Op.sends : Op → Bool
  | .send .. => true
  | _ => false

/-- The numbers of the requests so far, in their order. -/
def numbers (n : ℕ) : List UInt64 := (List.range n).map fun k => UInt64.ofNat (k + 1)

/-- The shared state and the events so far. -/
structure Sound (s : Shared τ) (tr : List (Event τ)) : Prop where
  cache : s.accessToken = cached tr
  shown : Guarded (Shown client) tr
  ids : tr.filterMap Event.id? = numbers (tr.filterMap Event.id?).length
  next : s.rpcId = UInt64.ofNat ((tr.filterMap Event.id?).length + 1)

/-- A call that is about to send has a granted token. -/
def OpSound (tr : List (Event τ)) : Op → Prop
  | .send _ token => ∃ entry, client.token entry = token ∧ .granted entry ∈ tr
  | _ => True

variable {client} {s : Shared τ} {tr : List (Event τ)}

lemma numbers_succ (n : ℕ) : numbers (n + 1) = numbers n ++ [UInt64.ofNat (n + 1)] := by
  rw [numbers, List.range_succ, List.map_append]
  rfl

lemma cached_append_singleton (tr : List (Event τ)) (e : Event τ) :
    cached (tr ++ [e]) = e.cacheAfter (cached tr) := by
  rw [cached, List.foldl_append]
  rfl

/-- What is in the cache has been granted. -/
lemma granted_of_cached {entry : τ} (h : cached tr = some entry) : .granted entry ∈ tr := by
  induction tr using List.reverseRecOn with
  | nil => cases h
  | append_singleton tr e ih =>
    rw [cached_append_singleton] at h
    cases e with
    | granted other =>
      cases h
      exact List.mem_append_right _ (List.mem_singleton_self _)
    | cleared => cases h
    | _ => exact List.mem_append_left _ (ih h)

/-- An event without a number that neither grants a token nor reports an error. -/
lemma Sound.inert (h : Sound client s tr) {e : Event τ} (hid : e.id? = none)
    (hcache : cached (tr ++ [e]) = cached tr) (hshown : Shown client tr e) :
    Sound client s (tr ++ [e]) where
  cache := h.cache.trans hcache.symm
  shown := guarded_append_singleton.mpr ⟨h.shown, hshown⟩
  ids := by simpa [List.filterMap_append, hid] using h.ids
  next := by simpa [List.filterMap_append, hid] using h.next

/-- An event after which the cache holds something else. -/
lemma Sound.store (h : Sound client s tr) {e : Event τ} (hid : e.id? = none) {entry : Option τ}
    (hcache : cached (tr ++ [e]) = entry) (hshown : Shown client tr e) :
    Sound client { s with accessToken := entry } (tr ++ [e]) where
  cache := hcache.symm
  shown := guarded_append_singleton.mpr ⟨h.shown, hshown⟩
  ids := by simpa [List.filterMap_append, hid] using h.ids
  next := by simpa [List.filterMap_append, hid] using h.next

/-- A request takes the next number. -/
lemma Sound.number (h : Sound client s tr) {e : Event τ} (hid : e.id? = some s.rpcId)
    (hcache : cached (tr ++ [e]) = cached tr) (hshown : Shown client tr e) :
    Sound client { s with rpcId := s.rpcId + 1 } (tr ++ [e]) := by
  have hids : (tr ++ [e]).filterMap Event.id? = tr.filterMap Event.id? ++ [s.rpcId] := by
    simp [List.filterMap_append, hid]
  refine ⟨h.cache.trans hcache.symm, guarded_append_singleton.mpr ⟨h.shown, hshown⟩, ?_, ?_⟩
  · rw [hids, List.length_append, List.length_singleton, numbers_succ, ← h.ids, ← h.next]
  · rw [hids, List.length_append, List.length_singleton]
    change s.rpcId + 1 = _
    rw [h.next]
    exact (UInt64.ofNat_add _ 1).symm

/-- What one access keeps. -/
lemma sound_access (h : Sound client s tr) {op : Op} (hop : OpSound client tr op) (input : Input) :
    Sound client (access client s input op).shared (tr ++ (access client s input op).events) ∧
      ∀ o ∈ (access client s input op).remaining,
        OpSound client (tr ++ (access client s input op).events) o := by
  cases op with
  | check req =>
    simp only [access, h.cache]
    cases hfound : (cached tr).filter (client.usable input.nowUs) with
    | some entry =>
      refine ⟨h.inert rfl (cached_append_singleton ..) hfound.symm, ?_⟩
      rintro _ ⟨⟩
      have hgranted := granted_of_cached (Option.eq_some_of_filter_eq_some hfound)
      exact ⟨entry, rfl, List.mem_append_left _ hgranted⟩
    | none =>
      refine ⟨h.inert rfl (cached_append_singleton ..) hfound.symm, ?_⟩
      rintro _ ⟨⟩
      trivial
  | authenticate req =>
    refine ⟨h.number rfl (cached_append_singleton ..) trivial, ?_⟩
    rintro _ ⟨⟩
    trivial
  | awaitAuth req =>
    simp only [access]
    cases input.answer.bind (client.granted input.nowUs) with
    | some entry =>
      refine ⟨h.store rfl (cached_append_singleton ..) trivial, ?_⟩
      rintro _ ⟨⟩
      exact ⟨entry, rfl, List.mem_append_right _ (List.mem_singleton_self _)⟩
    | none =>
      refine ⟨h.inert rfl (cached_append_singleton ..) trivial, ?_⟩
      rintro _ ⟨⟩
  | send req token =>
    refine ⟨h.number rfl (cached_append_singleton ..) hop, ?_⟩
    rintro _ ⟨⟩
    trivial
  | awaitAnswer =>
    simp only [access]
    split
    · split_ifs
      · have hcleared := h.store (e := .cleared) rfl (cached_append_singleton ..) trivial
        have hreturned := hcleared.inert (e := .returned none) rfl (cached_append_singleton ..)
          trivial
        rw [List.append_assoc] at hreturned
        refine ⟨hreturned, ?_⟩
        rintro _ ⟨⟩
      · refine ⟨h.inert rfl (cached_append_singleton ..) trivial, ?_⟩
        rintro _ ⟨⟩
    · refine ⟨h.inert rfl (cached_append_singleton ..) trivial, ?_⟩
      rintro _ ⟨⟩
  | sendPublic req =>
    refine ⟨h.number rfl (cached_append_singleton ..) trivial, ?_⟩
    rintro _ ⟨⟩
    trivial
  | awaitPublic =>
    refine ⟨h.inert rfl (cached_append_singleton ..) trivial, ?_⟩
    rintro _ ⟨⟩

lemma sound_start : SoundAt (Sound client) (OpSound client) start [] := by
  refine ⟨⟨rfl, trivial, rfl, rfl⟩, ?_⟩
  rintro _ ⟨⟩

/-- What the shared state and the calls are after every run. -/
lemma sound_run (actions : List (Action Call Input)) :
    SoundAt (Sound client) (OpSound client) (runState (step (sessionSystem client)) start actions)
      (runTrace (step (sessionSystem client)) start actions) := by
  refine run_sound ?_ ?_ ?_ sound_start actions
  · intro tr more op hop
    cases op with
    | send req token =>
      obtain ⟨entry, htoken, hgranted⟩ := hop
      exact ⟨entry, htoken, List.mem_append_left _ hgranted⟩
    | _ => trivial
  · intro s tr call hs
    cases call with
    | callPrivate req =>
      refine ⟨by simpa [sessionSystem, enter] using hs, ?_⟩
      rintro _ ⟨⟩
      trivial
    | callPublic req =>
      refine ⟨by simpa [sessionSystem, enter] using hs, ?_⟩
      rintro _ ⟨⟩
      trivial
  · exact fun input hs hop => sound_access hs hop input

/-- What an access contributes to the counts of the events: the calls that find no token and the
requests for one, and the calls that have one and their requests. -/
lemma access_counts (s : Shared τ) (input : Input) (op : Op) :
    (access client s input op).events.countP Event.isMiss + [op].countP Op.authenticates =
        (access client s input op).events.countP Event.isAuthSent +
          (access client s input op).remaining.toList.countP Op.authenticates ∧
      (access client s input op).events.countP Event.isReady + [op].countP Op.sends =
        (access client s input op).events.countP Event.isSent +
          (access client s input op).remaining.toList.countP Op.sends := by
  cases op with
  | check req =>
    unfold access
    cases s.accessToken.filter (client.usable input.nowUs) <;> exact ⟨rfl, rfl⟩
  | authenticate req => exact ⟨rfl, rfl⟩
  | awaitAuth req =>
    unfold access
    cases input.answer.bind (client.granted input.nowUs) <;> exact ⟨rfl, rfl⟩
  | send req token => exact ⟨rfl, rfl⟩
  | awaitAnswer =>
    unfold access
    cases input.answer.bind fun json => json.get? "error" with
    | some error =>
      dsimp only
      split_ifs <;> exact ⟨rfl, rfl⟩
    | none => exact ⟨rfl, rfl⟩
  | sendPublic req => exact ⟨rfl, rfl⟩
  | awaitPublic => exact ⟨rfl, rfl⟩

/-- However the calls are interleaved, each look at the cache finds the token that was granted last,
if no error has been reported since and it is usable, and nothing otherwise.  As many requests for a
token are made as looks find nothing, up to the calls that are about to make theirs; as many private
requests, each with a granted token, as calls have one, up to those about to send; and the requests
are numbered from one in the order in which their numbers are drawn. -/
theorem requests_authenticated (client : Client τ) (actions : List (Action Call Input)) :
    Guarded (Shown client) (runTrace (step (sessionSystem client)) start actions) ∧
      Balanced Event.isMiss Event.isAuthSent Op.authenticates
        (runState (step (sessionSystem client)) start actions)
        (runTrace (step (sessionSystem client)) start actions) ∧
      Balanced Event.isReady Event.isSent Op.sends
        (runState (step (sessionSystem client)) start actions)
        (runTrace (step (sessionSystem client)) start actions) ∧
      ∃ n, (runTrace (step (sessionSystem client)) start actions).filterMap Event.id? =
        numbers n := by
  obtain ⟨hsound, -⟩ : SoundAt (Sound client) (OpSound client) _ _ := sound_run actions
  refine ⟨hsound.shown, ?_, ?_, _, hsound.ids⟩
  · exact run_balanced (fun call => by cases call <;> rfl)
      (fun s input op => (access_counts s input op).1) rfl actions
  · exact run_balanced (fun call => by cases call <;> rfl)
      (fun s input op => (access_counts s input op).2) rfl actions

end Client

end DeribitSession

end HftArb
