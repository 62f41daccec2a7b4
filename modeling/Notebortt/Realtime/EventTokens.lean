import Mathlib.Algebra.Order.Field.Rat
import Notebortt.Lib.TokenBucket
import Notebortt.Realtime.PayloadBytes

/-! # The token bucket of a socket

    Every client event but the disconnect passes `registerHandler`: without a
    token it is dropped, and the socket gets a notice at most once per window;
    with one, a payload over its cap is refused. Times are in milliseconds, and
    the arithmetic is exact. -/

open TokenBucket

namespace Notebortt.EventTokens

open PayloadBytes (SocketServerEvent Payload payloadExceedsCap)

def SOCKET_EVENT_BUCKET_CAPACITY : ℚ := 240

def SOCKET_EVENT_REFILL_PER_SECOND : ℚ := 120

def SOCKET_THROTTLE_ERROR_SPACING_MS : ℚ := 1000

/-! ### The connection -/

/-- What the handlers of one connection share. -/
structure Connection where
  bucketTokens : ℚ
  bucketUpdatedAt : ℚ
  lastThrottleNoticeAt : ℚ

/-- A socket connects. -/
def connect (now : ℚ) : Connection where
  bucketTokens := SOCKET_EVENT_BUCKET_CAPACITY
  bucketUpdatedAt := now
  lastThrottleNoticeAt := 0

def consumeEventToken (c : Connection) (now : ℚ) : Bool × Connection :=
  let bucketTokens := min SOCKET_EVENT_BUCKET_CAPACITY
    (c.bucketTokens + (now - c.bucketUpdatedAt) / 1000 * SOCKET_EVENT_REFILL_PER_SECOND)
  if bucketTokens < 1 then
    (false, { c with bucketTokens := bucketTokens, bucketUpdatedAt := now })
  else (true, { c with bucketTokens := bucketTokens - 1, bucketUpdatedAt := now })

/-- The events at the given times: their answers, and the connection after them. -/
def consumeEvents : Connection → List ℚ → List (ℚ × Bool) × Connection
  | c, [] => ([], c)
  | c, now :: events =>
    let consumed := consumeEventToken c now
    let rest := consumeEvents consumed.2 events
    ((now, consumed.1) :: rest.1, rest.2)

/-! ### The bucket -/

def eventLimits : Limits ℚ where
  capacity := SOCKET_EVENT_BUCKET_CAPACITY
  rate := SOCKET_EVENT_REFILL_PER_SECOND / 1000

theorem eventLimits_valid : eventLimits.Valid :=
  ⟨by norm_num [eventLimits, SOCKET_EVENT_BUCKET_CAPACITY],
    by norm_num [eventLimits, SOCKET_EVENT_REFILL_PER_SECOND]⟩

def Connection.bucket (c : Connection) : Bucket ℚ := ⟨c.bucketTokens, c.bucketUpdatedAt⟩

theorem consumeEventToken_take (c : Connection) (now : ℚ) :
    c.bucket.take eventLimits now =
      ((consumeEventToken c now).1, (consumeEventToken c now).2.bucket) := by
  have hrefill : eventLimits.rate * (now - c.bucketUpdatedAt) =
      (now - c.bucketUpdatedAt) / 1000 * SOCKET_EVENT_REFILL_PER_SECOND := by
    unfold eventLimits
    ring
  unfold Bucket.take Bucket.refill consumeEventToken
  simp only [Connection.bucket, hrefill]
  show (if min SOCKET_EVENT_BUCKET_CAPACITY _ < 1 then _ else _) = _
  split
  · rfl
  · rfl

theorem consumeEvents_run (c : Connection) (events : List ℚ) :
    Bucket.run eventLimits c.bucket events =
      ((consumeEvents c events).1, (consumeEvents c events).2.bucket) := by
  induction events generalizing c with
  | nil => rfl
  | cons now events ih => rw [run_cons, consumeEventToken_take, ih, consumeEvents]

theorem connect_within (connectedAt : ℚ) : (connect connectedAt).bucket.Within eventLimits :=
  ⟨eventLimits_valid.capacity, le_rfl⟩

/-- Whatever events come, at times that do not decrease, the bucket stays between empty and full,
    and in every window it pays out at most the capacity and what comes in during the window. -/
theorem consumeEvents_bounded {connectedAt : ℚ} {events : List ℚ}
    (hsorted : (connectedAt :: events).Pairwise (· ≤ ·)) :
    (∀ before, before <+: events →
      0 ≤ (consumeEvents (connect connectedAt) before).2.bucketTokens ∧
      (consumeEvents (connect connectedAt) before).2.bucketTokens ≤ SOCKET_EVENT_BUCKET_CAPACITY) ∧
    ∀ start stop, start ≤ stop →
      (acceptedIn start stop (consumeEvents (connect connectedAt) events).1 : ℚ) ≤
        SOCKET_EVENT_BUCKET_CAPACITY +
          SOCKET_EVENT_REFILL_PER_SECOND * ((stop - start) / 1000) := by
  have hrun := consumeEvents_run (connect connectedAt)
  constructor
  · intro before hbefore
    have hsublist : List.Sublist (connectedAt :: before) (connectedAt :: events) :=
      List.cons_sublist_cons.mpr hbefore.sublist
    have hwithin := run_within eventLimits_valid (b := (connect connectedAt).bucket)
      (hsorted.sublist hsublist) (connect_within connectedAt)
    rw [hrun] at hwithin
    exact ⟨hwithin.nonneg, hwithin.le_capacity⟩
  · intro start stop hwindow
    have hle := acceptedIn_le eventLimits_valid hwindow (b := (connect connectedAt).bucket)
      hsorted (connect_within connectedAt)
    rw [hrun] at hle
    calc (acceptedIn start stop (consumeEvents (connect connectedAt) events).1 : ℚ)
        ≤ SOCKET_EVENT_BUCKET_CAPACITY +
            SOCKET_EVENT_REFILL_PER_SECOND / 1000 * (stop - start) := hle
      _ = _ := by ring

/-- Every event is answered, in order. -/
theorem consumeEvents_times (c : Connection) (events : List ℚ) :
    (consumeEvents c events).1.map Prod.fst = events := by
  induction events generalizing c with
  | nil => rfl
  | cons now events ih => rw [consumeEvents, List.map_cons, ih]

/-- As many events as the full bucket pays for and one more come as soon as the socket connects,
    and one of them is refused. -/
theorem consumeEvents_bounded_burst :
    let answers := (consumeEvents (connect 0) (List.replicate 241 0)).1
    acceptedIn 0 0 answers ≤ 240 ∧ ∃ answer ∈ answers, answer.2 = false := by
  intro answers
  have hsorted : ((0 : ℚ) :: List.replicate 241 0).Pairwise (· ≤ ·) :=
    List.pairwise_replicate (n := 242).mpr (.inr le_rfl)
  have hbound := (consumeEvents_bounded hsorted).2 0 0 le_rfl
  norm_num [SOCKET_EVENT_BUCKET_CAPACITY, SOCKET_EVENT_REFILL_PER_SECOND] at hbound
  have haccepted : acceptedIn 0 0 answers ≤ 240 := hbound
  refine ⟨haccepted, ?_⟩
  by_contra hnone
  have hall : acceptedIn 0 0 answers = answers.length := by
    refine List.countP_eq_length.mpr fun answer hanswer => ?_
    have htime : answer.1 ∈ List.replicate 241 (0 : ℚ) := by
      rw [← consumeEvents_times (connect 0) (List.replicate 241 0)]
      exact List.mem_map_of_mem hanswer
    have htoken : answer.2 = true :=
      Bool.of_not_eq_false fun hrefused => hnone ⟨answer, hanswer, hrefused⟩
    simp [htoken, List.eq_of_mem_replicate htime]
  have hlength : answers.length = 241 := by
    have htimes := congrArg List.length
      (consumeEvents_times (connect 0) (List.replicate 241 0))
    rwa [List.length_map, List.length_replicate] at htimes
  omega

/-! ### The events of a connection -/

structure ClientEvent where
  event : SocketServerEvent
  payload : Payload
  now : ℚ
  /-- What the clock reads when the event has got no token. -/
  throttledAt : ℚ

/-- What an event leads to: a SYNC_ERROR, the handler, or neither. -/
structure Reaction where
  syncError : Option String
  handled : Bool

/-- The listener that `registerHandler` puts on an event. -/
def onEvent (c : Connection) (e : ClientEvent) : Reaction × Connection :=
  if e.event = .DISCONNECT then (⟨none, true⟩, c)
  else
    let consumed := consumeEventToken c e.now
    if !consumed.1 then
      if SOCKET_THROTTLE_ERROR_SPACING_MS ≤ e.throttledAt - consumed.2.lastThrottleNoticeAt then
        (⟨some "Too many realtime events", false⟩,
          { consumed.2 with lastThrottleNoticeAt := e.throttledAt })
      else (⟨none, false⟩, consumed.2)
    else if payloadExceedsCap e.event e.payload then
      (⟨some "Realtime payload too large", false⟩, consumed.2)
    else (⟨none, true⟩, consumed.2)

/-- The events with their reactions, and the connection after them. -/
def onEvents : Connection → List ClientEvent → List (ClientEvent × Reaction) × Connection
  | c, [] => ([], c)
  | c, e :: events =>
    let reacted := onEvent c e
    let rest := onEvents reacted.2 events
    ((e, reacted.1) :: rest.1, rest.2)

/-- How many events from `start` to `stop` were handled, disconnects apart. -/
def handledIn (start stop : ℚ) (reactions : List (ClientEvent × Reaction)) : Nat :=
  reactions.countP fun r =>
    r.1.event ≠ .DISCONNECT ∧ r.2.handled ∧ start ≤ r.1.now ∧ r.1.now ≤ stop

/-- When the socket was told that it sends too many events. -/
def noticeTimes (reactions : List (ClientEvent × Reaction)) : List ℚ :=
  (reactions.filter fun r => r.2.syncError = some "Too many realtime events").map
    fun r => r.1.throttledAt

/-- The times at which events ask for a token. -/
def tokenTimes (events : List ClientEvent) : List ℚ :=
  (events.filter fun e => e.event ≠ .DISCONNECT).map ClientEvent.now

section reactions
variable {c : Connection} {e : ClientEvent} {events : List ClientEvent}

theorem onEvent_disconnect (h : e.event = .DISCONNECT) : onEvent c e = (⟨none, true⟩, c) :=
  if_pos h

/-- The bucket is that after the token was asked for. -/
theorem onEvent_bucket (h : e.event ≠ .DISCONNECT) :
    (onEvent c e).2.bucket = (consumeEventToken c e.now).2.bucket := by
  unfold onEvent
  rw [if_neg h]
  dsimp only
  split
  · split
    · rfl
    · rfl
  · split
    · rfl
    · rfl

/-- Only an event with a token is handled. -/
theorem onEvent_handled (h : e.event ≠ .DISCONNECT) (hhandled : (onEvent c e).1.handled = true) :
    (consumeEventToken c e.now).1 = true := by
  unfold onEvent at hhandled
  rw [if_neg h] at hhandled
  dsimp only at hhandled
  split at hhandled
  · split at hhandled
    · cases hhandled
    · cases hhandled
  · next htoken => simpa using htoken

/-- A notice waits for the spacing, and moves the time that the next one is measured from. -/
theorem onEvent_notice :
    (onEvent c e).1.syncError = some "Too many realtime events" ∧
        SOCKET_THROTTLE_ERROR_SPACING_MS ≤ e.throttledAt - c.lastThrottleNoticeAt ∧
        (onEvent c e).2.lastThrottleNoticeAt = e.throttledAt ∨
      (onEvent c e).1.syncError ≠ some "Too many realtime events" ∧
        (onEvent c e).2.lastThrottleNoticeAt = c.lastThrottleNoticeAt := by
  have hlast : (consumeEventToken c e.now).2.lastThrottleNoticeAt = c.lastThrottleNoticeAt := by
    unfold consumeEventToken
    dsimp only
    split
    · rfl
    · rfl
  unfold onEvent
  split
  · exact .inr ⟨nofun, rfl⟩
  dsimp only
  rw [hlast]
  split
  · split
    · next hspaced => exact .inl ⟨rfl, hspaced, rfl⟩
    · exact .inr ⟨nofun, hlast⟩
  · split
    · exact .inr ⟨by simp, hlast⟩
    · exact .inr ⟨nofun, hlast⟩

theorem handledIn_le_acceptedIn {start stop : ℚ} :
    handledIn start stop (onEvents c events).1 ≤
      acceptedIn start stop (Bucket.run eventLimits c.bucket (tokenTimes events)).1 := by
  induction events generalizing c with
  | nil => exact Nat.le_refl 0
  | cons e events ih =>
    rw [onEvents]
    by_cases hdisconnect : e.event = .DISCONNECT
    · rw [onEvent_disconnect hdisconnect]
      simpa [handledIn, tokenTimes, hdisconnect] using ih (c := c)
    · have htimes : tokenTimes (e :: events) = e.now :: tokenTimes events := by
        simp [tokenTimes, hdisconnect]
      have hrest := ih (c := (onEvent c e).2)
      rw [onEvent_bucket hdisconnect] at hrest
      rw [htimes, run_cons, acceptedIn_cons, consumeEventToken_take]
      unfold handledIn at hrest ⊢
      rw [List.countP_cons]
      refine Nat.add_le_add hrest ?_
      split
      · next hcounted =>
        have hin := of_decide_eq_true hcounted
        rw [if_pos ⟨onEvent_handled hdisconnect hin.2.1, hin.2.2⟩]
      · exact Nat.zero_le _

/-- Notices come at least the spacing apart, however many events are dropped. -/
theorem noticeTimes_spaced :
    (noticeTimes (onEvents c events).1).Pairwise
      (fun first second => SOCKET_THROTTLE_ERROR_SPACING_MS ≤ second - first) := by
  -- The times are measured from the last notice, so they stay behind it.
  suffices h : (∀ t ∈ noticeTimes (onEvents c events).1,
      SOCKET_THROTTLE_ERROR_SPACING_MS ≤ t - c.lastThrottleNoticeAt) ∧
      (noticeTimes (onEvents c events).1).Pairwise
        (fun first second => SOCKET_THROTTLE_ERROR_SPACING_MS ≤ second - first) from h.2
  induction events generalizing c with
  | nil => exact ⟨nofun, .nil⟩
  | cons e events ih =>
    obtain ⟨hlater, hpairwise⟩ := ih (c := (onEvent c e).2)
    rw [onEvents]
    rcases onEvent_notice (c := c) (e := e) with ⟨hnotice, hspaced, hlast⟩ | ⟨hnone, hlast⟩
    · have htimes : noticeTimes ((e, (onEvent c e).1) :: (onEvents (onEvent c e).2 events).1) =
          e.throttledAt :: noticeTimes (onEvents (onEvent c e).2 events).1 := by
        simp [noticeTimes, hnotice]
      have hspacing : (0 : ℚ) ≤ SOCKET_THROTTLE_ERROR_SPACING_MS := by
        norm_num [SOCKET_THROTTLE_ERROR_SPACING_MS]
      rw [hlast] at hlater
      rw [htimes]
      refine ⟨List.forall_mem_cons.mpr ⟨hspaced, fun t ht => ?_⟩, .cons hlater hpairwise⟩
      have := hlater t ht
      linarith
    · have htimes : noticeTimes ((e, (onEvent c e).1) :: (onEvents (onEvent c e).2 events).1) =
          noticeTimes (onEvents (onEvent c e).2 events).1 := by
        simp [noticeTimes, hnone]
      rw [hlast] at hlater
      rw [htimes]
      exact ⟨hlater, hpairwise⟩

end reactions

/-- So the handlers of a connection run no more often than the bucket allows. -/
theorem handledIn_le {connectedAt start stop : ℚ} {events : List ClientEvent}
    (hsorted : (connectedAt :: tokenTimes events).Pairwise (· ≤ ·)) (hwindow : start ≤ stop) :
    (handledIn start stop (onEvents (connect connectedAt) events).1 : ℚ) ≤
      SOCKET_EVENT_BUCKET_CAPACITY +
        SOCKET_EVENT_REFILL_PER_SECOND / 1000 * (stop - start) := by
  have haccepted := acceptedIn_le eventLimits_valid hwindow (b := (connect connectedAt).bucket)
    hsorted (connect_within connectedAt)
  have hhandled : handledIn start stop (onEvents (connect connectedAt) events).1 ≤ acceptedIn start
      stop (Bucket.run eventLimits (connect connectedAt).bucket (tokenTimes events)).1 :=
    handledIn_le_acceptedIn
  exact le_trans (Nat.cast_le.mpr hhandled) haccepted

end Notebortt.EventTokens
