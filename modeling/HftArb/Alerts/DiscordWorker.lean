import HftArb.Alerts.DiscordPayload
import HftArb.Foundations.Runs

/-!
# The Discord worker

Notifications wait in a bounded channel.  The worker takes them out one at a time, lets at least
200 milliseconds pass since its last success, and posts each of them up to three times, with a delay
between the attempts, until a post succeeds.

`episodes_run` says what a run of the worker looks like from outside, whatever the senders and the
webhook do: the accepted notifications are posted one after the other in their order, none is lost,
none is posted again after a success, and none is given up before three posts.  `posts_spaced` is
about the clock: no post follows a success within the rate limit.
-/

namespace HftArb

namespace Discord

open Runs

/-- Maximum number of attempts. -/
def maxRetries : ℕ := 3

/-- The least time between a success and the next notification in nanoseconds. -/
def rateLimitNs : ℕ := 200 * 1000000

/-- `is_valid_discord_webhook_url`. -/
def isValidDiscordWebhookUrl (url : List Char) : Bool :=
  "https://discord.com/api/webhooks/".toList.isPrefixOf url ||
    "https://discordapp.com/api/webhooks/".toList.isPrefixOf url

/-- What a post comes to: a response with a status, or an error. -/
inductive Response
  | status (code : UInt16)
  | error
  deriving DecidableEq

/-- A status of success. -/
def isSuccess (code : UInt16) : Bool := decide (200 ≤ code) && decide (code < 300)

/-- What the worker does next: it receives, lets the rate limit pass, posts an attempt, waits for
the response to one, lets the delay before one pass, or has returned. -/
inductive Phase
  | receiving
  | limited (notification : DiscordNotification) (untilNs : ℕ)
  | ready (notification : DiscordNotification) (attempt : ℕ)
  | posting (notification : DiscordNotification) (attempt : ℕ)
  | delayed (notification : DiscordNotification) (attempt untilNs : ℕ)
  | returned
  deriving DecidableEq

/-- The worker with its channel. -/
structure DiscordWorker where
  webhookUrl : List Char
  capacity : ℕ
  queue : List DiscordNotification
  closed : Bool
  lastSend : ℕ
  phase : Phase

/-- A worker for a URL with a channel of a capacity.  Another URL panics, and so does an empty
channel; the last success is put ten seconds before the start. -/
def DiscordWorker.new (webhookUrl : List Char) (bufferCapacity startNs : ℕ) :
    Option DiscordWorker :=
  if isValidDiscordWebhookUrl webhookUrl ∧ 0 < bufferCapacity then
    some ⟨webhookUrl, bufferCapacity, [], false, startNs - 10 * 1000000000, .receiving⟩
  else none

/-- A sender sends, the last sender is dropped, or the worker does its next step: at a reading of
the clock, with a response if it waits for one and a delay if it has to try again. -/
inductive Action
  | send (notification : DiscordNotification)
  | close
  | worker (nowNs : ℕ) (response : Response) (delayNs : ℕ)

/-- What happens in the channel and at the webhook. -/
inductive Event
  | accepted (notification : DiscordNotification)
  | refused (notification : DiscordNotification)
  | posted (url : List Char) (notification : DiscordNotification) (attempt nowNs : ℕ)
  | delivered (notification : DiscordNotification) (nowNs : ℕ)
  | abandoned (notification : DiscordNotification)
  deriving DecidableEq

/-- `enforce_rate_limit`: the time still to wait. -/
def enforceRateLimit (lastSend nowNs : ℕ) : Option ℕ :=
  if nowNs - lastSend < rateLimitNs then some (rateLimitNs - (nowNs - lastSend)) else none

/-- A post has failed. -/
def onFailure (w : DiscordWorker) (notification : DiscordNotification)
    (attempt nowNs delayNs : ℕ) : DiscordWorker × List Event :=
  if maxRetries ≤ attempt + 1 then ({ w with phase := .receiving }, [.abandoned notification])
  else ({ w with phase := .delayed notification (attempt + 1) (nowNs + delayNs) }, [])

/-- The response to a post.  The status 204 is one of success, so its own branch is never taken. -/
def onResponse (w : DiscordWorker) (notification : DiscordNotification) (attempt nowNs : ℕ)
    (delayNs : ℕ) : Response → DiscordWorker × List Event
  | .status code =>
    if isSuccess code then
      ({ w with lastSend := nowNs, phase := .receiving }, [.delivered notification nowNs])
    else if code = 204 then ({ w with phase := .receiving }, [])
    else onFailure w notification attempt nowNs delayNs
  | .error => onFailure w notification attempt nowNs delayNs

/-- The next step of the worker. -/
def workerStep (w : DiscordWorker) (nowNs : ℕ) (response : Response) (delayNs : ℕ) :
    DiscordWorker × List Event :=
  match w.phase with
  | .receiving =>
    match w.queue with
    | [] => (if w.closed then { w with phase := .returned } else w, [])
    | notification :: queue =>
      match enforceRateLimit w.lastSend nowNs with
      | some wait => ({ w with queue := queue, phase := .limited notification (nowNs + wait) }, [])
      | none => ({ w with queue := queue, phase := .ready notification 0 }, [])
  | .limited notification untilNs =>
    (if untilNs ≤ nowNs then { w with phase := .ready notification 0 } else w, [])
  | .ready notification attempt =>
    ({ w with phase := .posting notification attempt },
      [.posted w.webhookUrl notification attempt nowNs])
  | .posting notification attempt => onResponse w notification attempt nowNs delayNs response
  | .delayed notification attempt untilNs =>
    (if untilNs ≤ nowNs then { w with phase := .ready notification attempt } else w, [])
  | .returned => (w, [])

/-- One step of the senders or of the worker. -/
def step (w : DiscordWorker) : Action → DiscordWorker × List Event
  | .send notification =>
    if ¬ w.closed ∧ w.queue.length < w.capacity then
      ({ w with queue := w.queue ++ [notification] }, [.accepted notification])
    else (w, [.refused notification])
  | .close => ({ w with closed := true }, [])
  | .worker nowNs response delayNs => workerStep w nowNs response delayNs

/-! ## The episodes of a run -/

/-- All that the worker does for one notification: the instants of its posts, and the instant of its
success if there is one. -/
structure Episode where
  notification : DiscordNotification
  posts : List ℕ
  success : Option ℕ

/-- The posts of a notification. -/
def postEvents (url : List Char) (notification : DiscordNotification) (posts : List ℕ) :
    List Event :=
  posts.mapIdx fun attempt nowNs => .posted url notification attempt nowNs

/-- How the posts of a notification end. -/
def outcome (notification : DiscordNotification) : Option ℕ → Event
  | some nowNs => .delivered notification nowNs
  | none => .abandoned notification

/-- The events of an episode. -/
def Episode.events (url : List Char) (e : Episode) : List Event :=
  postEvents url e.notification e.posts ++ [outcome e.notification e.success]

/-- There are up to three posts, and three if none succeeds. -/
structure Episode.Complete (e : Episode) : Prop where
  posts_pos : 0 < e.posts.length
  posts_le : e.posts.length ≤ maxRetries
  all : e.success = none → e.posts.length = maxRetries

/-- The notification that the worker has taken out of the channel. -/
def Phase.current? : Phase → Option DiscordNotification
  | .receiving => none
  | .limited notification _ => some notification
  | .ready notification _ => some notification
  | .posting notification _ => some notification
  | .delayed notification _ _ => some notification
  | .returned => none

/-- The number of posts that have been made for it. -/
def Phase.posted : Phase → ℕ
  | .receiving => 0
  | .limited _ _ => 0
  | .ready _ attempt => attempt
  | .posting _ attempt => attempt + 1
  | .delayed _ attempt _ => attempt
  | .returned => 0

/-- The attempt that the worker makes, or makes next. -/
def Phase.attempt : Phase → ℕ
  | .ready _ attempt => attempt
  | .posting _ attempt => attempt
  | .delayed _ attempt _ => attempt
  | _ => 0

lemma Phase.posted_le {phase : Phase} (h : phase.attempt < maxRetries) :
    phase.posted ≤ maxRetries := by
  cases phase with
  | ready notification attempt => exact h.le
  | posting notification attempt => exact h
  | delayed notification attempt untilNs => exact h.le
  | _ => exact Nat.zero_le _

/-- The events of the episode that is not complete. -/
def Phase.events (url : List Char) (posts : List ℕ) (phase : Phase) : List Event :=
  (phase.current?.map fun notification => postEvents url notification posts).getD []

lemma Phase.events_of_current {phase : Phase} {notification : DiscordNotification}
    (h : phase.current? = some notification) (url : List Char) (posts : List ℕ) :
    phase.events url posts = postEvents url notification posts := by
  rw [Phase.events, h, Option.map_some, Option.getD_some]

/-- The event is one of the webhook. -/
def Event.isWork : Event → Bool
  | .accepted _ => false
  | .refused _ => false
  | _ => true

/-- The notification that is accepted. -/
def Event.accepted? : Event → Option DiscordNotification
  | .accepted notification => some notification
  | _ => none

/-- What a worker has to do with the events so far: they are those of complete episodes and of one
that is not complete, and the accepted notifications are those of the episodes, the current one and
those in the channel. -/
structure Story (url : List Char) (capacity : ℕ) (w : DiscordWorker) (events : List Event)
    (episodes : List Episode) (posts : List ℕ) : Prop where
  sameUrl : w.webhookUrl = url
  sameCapacity : w.capacity = capacity
  complete : ∀ e ∈ episodes, e.Complete
  work : events.filter Event.isWork =
    episodes.flatMap (Episode.events url) ++ w.phase.events url posts
  accepted : events.filterMap Event.accepted? =
    episodes.map Episode.notification ++ w.phase.current?.toList ++ w.queue
  room : w.queue.length ≤ capacity
  posted : posts.length = w.phase.posted
  attempt : w.phase.attempt < maxRetries
  finished : w.phase = .returned → w.closed = true ∧ w.queue = []

variable {url : List Char} {capacity : ℕ} {w w' : DiscordWorker} {events events' : List Event}
  {episodes : List Episode} {posts : List ℕ}

/-- A step of the worker that adds no events and has the same notification at hand. -/
lemma Story.silent (h : Story url capacity w events episodes posts)
    (hchannel : w' = { w with phase := w'.phase }) (hcurrent : w'.phase.current? = w.phase.current?)
    (hposted : w'.phase.posted = w.phase.posted) (hattempt : w'.phase.attempt < maxRetries)
    (hreturned : w'.phase ≠ .returned) :
    Story url capacity w' (events ++ []) episodes posts := by
  rw [List.append_nil]
  obtain ⟨webhookUrl, cap, queue, closed, lastSend, phase⟩ := w'
  cases hchannel
  refine ⟨h.sameUrl, h.sameCapacity, h.complete, ?_, ?_, h.room, h.posted.trans hposted.symm,
    hattempt, fun heq => absurd heq hreturned⟩
  · have hwork := h.work
    rw [Phase.events] at hwork ⊢
    rwa [hcurrent]
  · have haccepted := h.accepted
    rwa [hcurrent]

/-- The worker takes a notification out of the channel. -/
lemma Story.receive (h : Story url capacity w events episodes posts) (hphase : w.phase = .receiving)
    {notification : DiscordNotification} {queue : List DiscordNotification}
    (hqueue : w.queue = notification :: queue) {phase : Phase}
    (hcurrent : phase.current? = some notification) (hposted : phase.posted = 0)
    (hattempt : phase.attempt = 0) :
    Story url capacity { w with queue := queue, phase := phase } (events ++ []) episodes [] := by
  have hreturned : phase ≠ .returned := by
    rintro rfl
    cases hcurrent
  have hwork := h.work
  have haccepted := h.accepted
  have hroom := h.room
  rw [hqueue, List.length_cons] at hroom
  rw [hphase] at hwork
  rw [hphase, hqueue] at haccepted
  refine ⟨h.sameUrl, h.sameCapacity, h.complete, ?_, ?_, Nat.le_of_succ_le hroom, hposted.symm,
    hattempt ▸ by decide, fun heq => absurd heq hreturned⟩
  · rw [List.append_nil, hwork]
    exact congrArg _ (Phase.events_of_current hcurrent url []).symm
  · dsimp only
    rw [List.append_nil, haccepted, hcurrent, Option.toList_some, Phase.current?,
      Option.toList_none, List.append_nil, List.append_assoc, List.singleton_append]

/-- The worker posts. -/
lemma Story.post (h : Story url capacity w events episodes posts)
    {notification : DiscordNotification} {attempt : ℕ}
    (hphase : w.phase = .ready notification attempt) (nowNs : ℕ) :
    Story url capacity { w with phase := .posting notification attempt }
      (events ++ [.posted w.webhookUrl notification attempt nowNs]) episodes
      (posts ++ [nowNs]) := by
  have hposted := h.posted
  have hwork := h.work
  have haccepted := h.accepted
  rw [hphase] at hposted hwork haccepted
  refine ⟨h.sameUrl, h.sameCapacity, h.complete, ?_, ?_, h.room, ?_, ?_, fun heq => by cases heq⟩
  · rw [List.filter_append, hwork, h.sameUrl, List.append_assoc]
    simp [Phase.events, Phase.current?, postEvents, Event.isWork, List.mapIdx_append, hposted,
      Phase.posted]
  · rw [List.filterMap_append, haccepted]
    simp [Event.accepted?, Phase.current?]
  · rw [List.length_append, hposted]
    rfl
  · have hattempt := h.attempt
    rwa [hphase] at hattempt

/-- An episode is complete. -/
lemma Story.settle (h : Story url capacity w events episodes posts)
    {notification : DiscordNotification} {attempt : ℕ}
    (hphase : w.phase = .posting notification attempt) (lastSend : ℕ) (success : Option ℕ)
    (hall : success = none → maxRetries ≤ attempt + 1) :
    Story url capacity { w with lastSend := lastSend, phase := .receiving }
      (events ++ [outcome notification success])
      (episodes ++ [⟨notification, posts, success⟩]) [] := by
  have hposted := h.posted
  have hwork := h.work
  have haccepted := h.accepted
  have hattempt := h.attempt
  rw [hphase] at hposted hwork haccepted hattempt
  have hlength : posts.length = attempt + 1 := hposted
  refine ⟨h.sameUrl, h.sameCapacity, ?_, ?_, ?_, h.room, rfl, Nat.succ_pos 2,
    fun heq => by cases heq⟩
  · intro e he
    rcases List.mem_append.mp he with he | he
    · exact h.complete e he
    · obtain rfl := List.mem_singleton.mp he
      have hle : attempt + 1 ≤ maxRetries := hattempt
      exact ⟨hlength ▸ Nat.succ_pos _, hlength ▸ hle, fun hnone =>
        hlength.trans (hle.antisymm (hall hnone))⟩
  · rw [List.filter_append, hwork, List.flatMap_append]
    cases success <;> simp [Phase.events, Phase.current?, Episode.events, outcome, Event.isWork]
  · rw [List.filterMap_append, haccepted]
    cases success <;> simp [outcome, Event.accepted?, Phase.current?]

/-- A post has failed. -/
lemma Story.failure (h : Story url capacity w events episodes posts)
    {notification : DiscordNotification} {attempt : ℕ}
    (hphase : w.phase = .posting notification attempt) (nowNs delayNs : ℕ) :
    ∃ episodes' posts', Story url capacity (onFailure w notification attempt nowNs delayNs).1
      (events ++ (onFailure w notification attempt nowNs delayNs).2) episodes' posts' := by
  unfold onFailure
  split_ifs with hall
  · exact ⟨_, _, h.settle hphase w.lastSend none fun _ => hall⟩
  · exact ⟨_, _, h.silent rfl (by rw [hphase]; rfl) (by rw [hphase]; rfl) (not_le.mp hall)
      (by simp)⟩

/-- A step of the worker. -/
lemma Story.worker (h : Story url capacity w events episodes posts) (nowNs : ℕ)
    (response : Response) (delayNs : ℕ) :
    ∃ episodes' posts', Story url capacity (workerStep w nowNs response delayNs).1
      (events ++ (workerStep w nowNs response delayNs).2) episodes' posts' := by
  have hattempt := h.attempt
  unfold workerStep
  cases hphase : w.phase with
  | receiving =>
    dsimp only
    cases hqueue : w.queue with
    | nil =>
      dsimp only
      split_ifs with hclosed
      · refine ⟨episodes, posts, h.sameUrl, h.sameCapacity, h.complete, ?_, ?_, Nat.zero_le _, ?_,
          Nat.succ_pos 2, fun _ => ⟨hclosed, rfl⟩⟩
        · rw [List.append_nil, h.work, hphase]
          rfl
        · rw [List.append_nil, h.accepted, hphase, hqueue]
          rfl
        · rw [h.posted, hphase]
          rfl
      · exact ⟨_, _, h.silent rfl rfl rfl h.attempt (by simp [hphase])⟩
    | cons notification queue =>
      dsimp only
      cases enforceRateLimit w.lastSend nowNs with
      | some wait => exact ⟨_, _, h.receive hphase hqueue rfl rfl rfl⟩
      | none => exact ⟨_, _, h.receive hphase hqueue rfl rfl rfl⟩
  | limited notification untilNs =>
    dsimp only
    split_ifs
    · exact ⟨_, _, h.silent rfl (by rw [hphase]; rfl) (by rw [hphase]; rfl) (Nat.succ_pos 2)
        (by simp)⟩
    · exact ⟨_, _, h.silent rfl rfl rfl h.attempt (by simp [hphase])⟩
  | ready notification attempt => exact ⟨_, _, h.post hphase nowNs⟩
  | posting notification attempt =>
    cases response with
    | error => exact h.failure hphase nowNs delayNs
    | status code =>
      dsimp only [onResponse]
      split_ifs with hsuccess hempty
      · exact ⟨_, _, h.settle hphase nowNs (some nowNs) (by simp)⟩
      · -- a status of 204 is a success
        rw [hempty] at hsuccess
        exact absurd rfl hsuccess
      · exact h.failure hphase nowNs delayNs
  | delayed notification attempt untilNs =>
    rw [hphase] at hattempt
    dsimp only
    split_ifs
    · exact ⟨_, _, h.silent rfl (by rw [hphase]; rfl) (by rw [hphase]; rfl) hattempt (by simp)⟩
    · exact ⟨_, _, h.silent rfl rfl rfl h.attempt (by simp [hphase])⟩
  | returned =>
    refine ⟨episodes, posts, ?_⟩
    rw [List.append_nil]
    exact h

/-- A step of a sender or of the worker. -/
lemma Story.step (h : Story url capacity w events episodes posts) (a : Action) :
    ∃ episodes' posts', Story url capacity (step w a).1 (events ++ (step w a).2) episodes'
      posts' := by
  cases a with
  | send notification =>
    simp only [Discord.step]
    split_ifs with hroom
    · refine ⟨episodes, posts, h.sameUrl, h.sameCapacity, h.complete, ?_, ?_, ?_, h.posted,
        h.attempt, fun heq => absurd (h.finished heq).1 hroom.1⟩
      · rw [List.filter_append, h.work]
        exact List.append_nil _
      · rw [List.filterMap_append, h.accepted, ← List.append_assoc]
        rfl
      · rw [List.length_append, ← h.sameCapacity]
        exact hroom.2
    · refine ⟨episodes, posts, h.sameUrl, h.sameCapacity, h.complete, ?_, ?_, h.room, h.posted,
        h.attempt, h.finished⟩
      · rw [List.filter_append, h.work]
        exact List.append_nil _
      · rw [List.filterMap_append, h.accepted]
        exact List.append_nil _
  | close =>
    refine ⟨episodes, posts, h.sameUrl, h.sameCapacity, h.complete, ?_, ?_, h.room, h.posted,
      h.attempt, fun heq => ⟨rfl, (h.finished heq).2⟩⟩
    · simpa only [Discord.step, List.append_nil] using h.work
    · simpa only [Discord.step, List.append_nil] using h.accepted
  | worker nowNs response delayNs => exact h.worker nowNs response delayNs

/-- The story of a new worker. -/
lemma story_new {startNs : ℕ} (h : DiscordWorker.new url capacity startNs = some w) :
    isValidDiscordWebhookUrl url = true ∧ Story url capacity w [] [] [] := by
  unfold DiscordWorker.new at h
  split_ifs at h with hvalid
  obtain rfl := Option.some.inj h
  exact ⟨hvalid.1, rfl, rfl, fun _ he => absurd he List.not_mem_nil, rfl, rfl, Nat.zero_le _, rfl,
    Nat.succ_pos 2, fun heq => by cases heq⟩

/-- In every run of a worker for a valid URL, what happens at the webhook is one complete episode
after the other and the beginning of another one.  The accepted notifications are those of the
episodes in this order, the one at hand, and those in the channel, which has room for them; a worker
that has returned leaves none. -/
theorem episodes_run {startNs : ℕ} (h : DiscordWorker.new url capacity startNs = some w)
    (actions : List Action) :
    isValidDiscordWebhookUrl url = true ∧
    ∃ (episodes : List Episode) (posts : List ℕ),
      (∀ e ∈ episodes, e.Complete) ∧ posts.length ≤ maxRetries ∧
      (runTrace step w actions).filter Event.isWork =
        episodes.flatMap (Episode.events url) ++ (runState step w actions).phase.events url posts ∧
      (runTrace step w actions).filterMap Event.accepted? =
        episodes.map Episode.notification ++ (runState step w actions).phase.current?.toList ++
          (runState step w actions).queue ∧
      (runState step w actions).queue.length ≤ capacity ∧
      ((runState step w actions).phase = .returned → (runTrace step w actions).filterMap
        Event.accepted? = episodes.map Episode.notification) := by
  obtain ⟨hvalid, hstart⟩ := story_new h
  have hrun : ∃ episodes posts, Story url capacity (runState step w actions)
      ([] ++ runTrace step w actions) episodes posts := by
    refine run_induction (C := fun _ _ _ => True)
      (I := fun w events => ∃ episodes posts, Story url capacity w events episodes posts)
      (fun w events a hstory _ => ?_) ⟨[], [], hstart⟩ fun _ _ _ _ => trivial
    obtain ⟨episodes, posts, hstory⟩ := hstory
    exact hstory.step a
  obtain ⟨episodes, posts, hstory⟩ := hrun
  rw [List.nil_append] at hstory
  refine ⟨hvalid, episodes, posts, hstory.complete, ?_, hstory.work, hstory.accepted, hstory.room,
    fun hreturned => ?_⟩
  · rw [hstory.posted]
    exact Phase.posted_le hstory.attempt
  · rw [hstory.accepted, (hstory.finished hreturned).2, hreturned]
    simp [Phase.current?]

/-! ## The rate limit -/

/-- The reading of the clock at an action. -/
def Action.nowNs? : Action → Option ℕ
  | .worker nowNs _ _ => some nowNs
  | _ => none

/-- The readings of the clock in a run, the one at the start first. -/
def readings (startNs : ℕ) (actions : List Action) : List ℕ :=
  startNs :: actions.filterMap Action.nowNs?

/-- A post comes at least the rate limit after a success before it. -/
def Spaced : Event → Event → Prop
  | .delivered _ nowNs, .posted _ _ _ nowNs' => nowNs + rateLimitNs ≤ nowNs'
  | _, _ => True

/-- The worker may post: the clock has been read when the rate limit was over, or will be. -/
def Phase.Due (readings : List ℕ) (lastSend : ℕ) : Phase → Prop
  | .limited _ untilNs => lastSend + rateLimitNs ≤ untilNs
  | .ready _ _ => ∃ r ∈ readings, lastSend + rateLimitNs ≤ r
  | .posting _ _ => ∃ r ∈ readings, lastSend + rateLimitNs ≤ r
  | .delayed _ _ _ => ∃ r ∈ readings, lastSend + rateLimitNs ≤ r
  | _ => True

/-- The posts so far keep the rate limit, and the worker has waited for the next one. -/
structure Paced (readings : List ℕ) (w : DiscordWorker) (events : List Event) : Prop where
  spaced : events.Pairwise Spaced
  last : ∀ notification nowNs, .delivered notification nowNs ∈ events → nowNs ≤ w.lastSend
  read : ∃ r ∈ readings, w.lastSend ≤ r
  due : w.phase.Due readings w.lastSend

lemma Phase.Due.mono {readings readings' : List ℕ} (hsub : readings ⊆ readings') {lastSend : ℕ}
    {phase : Phase} (h : phase.Due readings lastSend) : phase.Due readings' lastSend := by
  have hex : (∃ r ∈ readings, lastSend + rateLimitNs ≤ r) →
      ∃ r ∈ readings', lastSend + rateLimitNs ≤ r := fun ⟨r, hr, hle⟩ => ⟨r, hsub hr, hle⟩
  cases phase with
  | ready | posting | delayed => exact hex h
  | _ => exact h

/-- More readings do not disturb the pace. -/
lemma Paced.mono {readings readings' : List ℕ} (h : Paced readings w events)
    (hsub : readings ⊆ readings') : Paced readings' w events :=
  ⟨h.spaced, h.last, h.read.imp fun _ hr => ⟨hsub hr.1, hr.2⟩, h.due.mono hsub⟩

/-- A step that leaves the last success alone. -/
lemma Paced.quiet {readings : List ℕ} (h : Paced readings w events)
    (hlast : w'.lastSend = w.lastSend) (hdue : w'.phase.Due readings w.lastSend) :
    Paced readings w' events :=
  ⟨h.spaced, hlast ▸ h.last, hlast ▸ h.read, hlast ▸ hdue⟩

/-- An event that may follow anything. -/
lemma pairwise_append_singleton {e : Event} (h : events.Pairwise Spaced)
    (he : ∀ e', Spaced e' e) : (events ++ [e]).Pairwise Spaced := by
  refine List.pairwise_append.mpr ⟨h, List.pairwise_singleton .., fun e' _ e'' he'' => ?_⟩
  rw [List.mem_singleton.mp he'']
  exact he e'

/-- The event is a post or a success. -/
def Event.isTimed : Event → Bool
  | .posted _ _ _ _ => true
  | .delivered _ _ => true
  | _ => false

/-- An event that is neither a post nor a success. -/
lemma Paced.unseen {readings : List ℕ} (h : Paced readings w events) {e : Event}
    (he : e.isTimed = false) : Paced readings w (events ++ [e]) := by
  refine ⟨pairwise_append_singleton h.spaced fun e' => ?_, fun notification nowNs hmem => ?_,
    h.read, h.due⟩
  · cases e with
    | posted | delivered => cases he
    | _ => cases e' <;> trivial
  · rcases List.mem_append.mp hmem with hmem | hmem
    · exact h.last notification nowNs hmem
    · rw [← List.mem_singleton.mp hmem] at he
      cases he

/-- A post after the rate limit. -/
lemma Paced.post {readings : List ℕ} (h : Paced readings w events) {nowNs : ℕ}
    (hclock : ∀ r ∈ readings, r ≤ nowNs) (hdue : ∃ r ∈ readings, w.lastSend + rateLimitNs ≤ r)
    (url : List Char) (notification : DiscordNotification) (attempt : ℕ) :
    Paced readings { w with phase := .posting notification attempt }
      (events ++ [.posted url notification attempt nowNs]) := by
  refine ⟨List.pairwise_append.mpr ⟨h.spaced, List.pairwise_singleton .., ?_⟩, ?_, h.read, hdue⟩
  · intro e he e' he'
    obtain rfl := List.mem_singleton.mp he'
    cases e with
    | delivered notification' nowNs' =>
      obtain ⟨r, hr, hle⟩ := hdue
      calc nowNs' + rateLimitNs ≤ w.lastSend + rateLimitNs :=
            Nat.add_le_add_right (h.last _ _ he) _
        _ ≤ r := hle
        _ ≤ nowNs := hclock r hr
    | _ => trivial
  · intro notification' nowNs' hmem
    rcases List.mem_append.mp hmem with hmem | hmem
    · exact h.last _ _ hmem
    · cases List.mem_singleton.mp hmem

/-- A success. -/
lemma Paced.succeed {readings : List ℕ} (h : Paced readings w events) {nowNs : ℕ}
    (hclock : ∀ r ∈ readings, r ≤ nowNs) (hnow : nowNs ∈ readings)
    (notification : DiscordNotification) :
    Paced readings { w with lastSend := nowNs, phase := .receiving }
      (events ++ [.delivered notification nowNs]) := by
  refine ⟨pairwise_append_singleton h.spaced fun e' => by cases e' <;> trivial, ?_,
    ⟨nowNs, hnow, le_rfl⟩, trivial⟩
  intro notification' nowNs' hmem
  rcases List.mem_append.mp hmem with hmem | hmem
  · obtain ⟨r, hr, hle⟩ := h.read
    exact ((h.last _ _ hmem).trans hle).trans (hclock r hr)
  · obtain ⟨-, rfl⟩ := Event.delivered.inj (List.mem_singleton.mp hmem)
    exact le_rfl

/-- A failure. -/
lemma Paced.failure {readings : List ℕ} (h : Paced readings w events)
    (hdue : ∃ r ∈ readings, w.lastSend + rateLimitNs ≤ r) (notification : DiscordNotification)
    (attempt nowNs delayNs : ℕ) :
    Paced readings (onFailure w notification attempt nowNs delayNs).1
      (events ++ (onFailure w notification attempt nowNs delayNs).2) := by
  unfold onFailure
  split_ifs
  · refine Paced.unseen ?_ rfl
    exact h.quiet rfl trivial
  · rw [List.append_nil]
    exact h.quiet rfl hdue

/-- A step of the worker on a clock that does not go back. -/
lemma Paced.worker {readings : List ℕ} (h : Paced readings w events) {nowNs : ℕ}
    (hclock : ∀ r ∈ readings, r ≤ nowNs) (hnow : nowNs ∈ readings) (response : Response)
    (delayNs : ℕ) :
    Paced readings (workerStep w nowNs response delayNs).1
      (events ++ (workerStep w nowNs response delayNs).2) := by
  have hdue := h.due
  have hlast : w.lastSend ≤ nowNs := by
    obtain ⟨r, hr, hle⟩ := h.read
    exact hle.trans (hclock r hr)
  unfold workerStep
  cases hphase : w.phase with
  | receiving =>
    cases w.queue with
    | nil =>
      dsimp only
      rw [List.append_nil]
      split_ifs
      · exact h.quiet rfl trivial
      · exact h
    | cons notification queue =>
      dsimp only [enforceRateLimit]
      split_ifs with hsoon
      · rw [List.append_nil]
        refine h.quiet rfl ?_
        change w.lastSend + rateLimitNs ≤ nowNs + (rateLimitNs - (nowNs - w.lastSend))
        omega
      · rw [List.append_nil]
        exact h.quiet rfl ⟨nowNs, hnow, by omega⟩
  | limited notification untilNs =>
    rw [hphase] at hdue
    dsimp only
    rw [List.append_nil]
    split_ifs with hover
    · exact h.quiet rfl ⟨nowNs, hnow, le_trans hdue hover⟩
    · exact h
  | ready notification attempt =>
    rw [hphase] at hdue
    exact h.post hclock hdue w.webhookUrl notification attempt
  | posting notification attempt =>
    rw [hphase] at hdue
    cases response with
    | error => exact h.failure hdue notification attempt nowNs delayNs
    | status code =>
      dsimp only [onResponse]
      split_ifs
      · exact h.succeed hclock hnow notification
      · rw [List.append_nil]
        exact h.quiet rfl trivial
      · exact h.failure hdue notification attempt nowNs delayNs
  | delayed notification attempt untilNs =>
    rw [hphase] at hdue
    dsimp only
    rw [List.append_nil]
    split_ifs
    · exact h.quiet rfl hdue
    · exact h
  | returned =>
    rw [List.append_nil]
    exact h

/-- The pace of every run. -/
lemma paced_run {startNs : ℕ} (h : DiscordWorker.new url capacity startNs = some w)
    {actions : List Action} (hclock : (readings startNs actions).Pairwise (· ≤ ·)) :
    Paced (readings startNs actions) (runState step w actions) (runTrace step w actions) := by
  induction actions using List.reverseRecOn with
  | nil =>
    unfold DiscordWorker.new at h
    split_ifs at h
    obtain rfl := Option.some.inj h
    exact ⟨List.Pairwise.nil, fun _ _ hmem => absurd hmem List.not_mem_nil,
      ⟨startNs, List.mem_cons_self, Nat.sub_le _ _⟩, trivial⟩
  | append_singleton actions a ih =>
    have happend : readings startNs (actions ++ [a]) =
        readings startNs actions ++ a.nowNs?.toList := by
      rw [readings, List.filterMap_append]
      cases a <;> rfl
    rw [happend] at hclock ⊢
    have hpaced := (ih (hclock.sublist (List.sublist_append_left ..))).mono
      (List.subset_append_left _ a.nowNs?.toList)
    rw [runState_append, runTrace_append, runState_cons, runState_nil, runTrace_cons, runTrace_nil,
      List.append_nil]
    cases a with
    | send notification =>
      simp only [step]
      split_ifs
      · refine Paced.unseen ?_ rfl
        exact hpaced.quiet rfl hpaced.due
      · exact hpaced.unseen rfl
    | close =>
      simp only [step, List.append_nil]
      exact hpaced.quiet rfl (by simpa only [List.append_nil] using hpaced.due)
    | worker nowNs response delayNs =>
      refine hpaced.worker (fun r hr => ?_) (List.mem_append_right _ (List.mem_singleton_self _))
        response delayNs
      rcases List.mem_append.mp hr with hr | hr
      · exact (List.pairwise_append.mp hclock).2.2 r hr nowNs (List.mem_singleton_self _)
      · exact (List.mem_singleton.mp hr).le

/-- On a clock that does not go back, no post follows a success by less than the rate limit, however
the senders, the responses and the delays are arranged. -/
theorem posts_spaced {startNs : ℕ} (h : DiscordWorker.new url capacity startNs = some w)
    (actions : List Action) (hclock : (readings startNs actions).Pairwise (· ≤ ·)) :
    (runTrace step w actions).Pairwise Spaced :=
  (paced_run h hclock).spaced

/-- The trip that is reported. -/
def depegTrip : DiscordNotification := .riskBreakerTrip "Layer 6".toList "USDT 0.9920".toList

/-- A worker that has just started. -/
def freshWorker : DiscordWorker :=
  ⟨"https://discord.com/api/webhooks/1".toList, 1, [], false, 0, .receiving⟩

lemma new_freshWorker :
    DiscordWorker.new "https://discord.com/api/webhooks/1".toList 1 10000000000 =
      some freshWorker := by
  rw [DiscordWorker.new, if_pos (by decide)]
  rfl

/-- The message that the price is back. -/
def recoveryInfo : DiscordNotification :=
  .systemInfo "Depeg over".toList "USDT 1.0000".toList []

/-- The trip is posted twice and the recovery once, behind the rate limit; the last sender goes, and
the worker returns. -/
def tripActions : List Action :=
  [.send depegTrip, .worker 10000000000 .error 0, .send recoveryInfo, .worker 10000000000 .error 0,
    .worker 10000000001 .error 150000000, .worker 10150000001 .error 0,
    .worker 10150000001 .error 0, .worker 10150000002 (.status 200) 0,
    .worker 10150000003 .error 0, .worker 10200000000 .error 0, .worker 10350000002 .error 0,
    .worker 10350000003 .error 0, .worker 10350000004 (.status 204) 0, .close,
    .worker 10350000005 .error 0]

theorem episodes_run_trip :
    ∃ episodes : List Episode, (∀ e ∈ episodes, e.Complete) ∧
      episodes.map Episode.notification = [depegTrip, recoveryInfo] := by
  obtain ⟨-, episodes, posts, hcomplete, -, -, -, -, hreturned⟩ :=
    episodes_run new_freshWorker tripActions
  exact ⟨episodes, hcomplete, (hreturned rfl).symm⟩

/-- The recovery is posted the rate limit after the success of the trip. -/
theorem posts_spaced_trip :
    Event.delivered depegTrip 10150000002 ∈ runTrace step freshWorker tripActions ∧
      Event.posted freshWorker.webhookUrl recoveryInfo 0 10350000003 ∈
        runTrace step freshWorker tripActions ∧
      (runTrace step freshWorker tripActions).Pairwise Spaced :=
  ⟨by decide, by decide, posts_spaced new_freshWorker tripActions (by decide)⟩

end Discord

end HftArb
