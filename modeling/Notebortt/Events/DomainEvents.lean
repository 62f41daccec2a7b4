import Mathlib.Data.List.Nodup
import Mathlib.Logic.Function.Basic
import Notebortt.Lib.ExactNumber

/-! # The consumer of domain events

    A worker hands each job of the queues to `handleDomainEventJob`. Its data is
    any JSON value. Four checks park a job that cannot be decoded on the
    dead-letter queue; any other job is fanned out to the handlers of its event,
    in the context of its traceparent when it carries one. -/

open Js

namespace Notebortt.Events

def APP_EVENT_SCHEMA_VERSION : Nat := 1

/-- The greatest integer that the schemas take. -/
def MAX_SAFE_INTEGER : Nat := 9007199254740991

inductive AppEventName where
  | BOARD_MUTATED
  | BOARD_EDITORS_LEFT
deriving DecidableEq

def AppEventName.text : AppEventName → String
  | .BOARD_MUTATED => "board.mutated"
  | .BOARD_EDITORS_LEFT => "board.editorsLeft"

inductive DeadLetterReason where
  | invalidEnvelope
  | unknownSchemaVersion
  | unknownEvent
  | invalidPayload
deriving DecidableEq

structure Payload where
  boardId : String
deriving DecidableEq

structure AppEventEnvelope (ν : Type) where
  schemaVersion : Nat
  producerId : String
  timestamp : Nat
  data : Value ν

structure Job (ν : Type) where
  queueName : String
  id : Option String
  data : Value ν

structure DeadLetterRecord (ν : Type) where
  originalQueue : String
  originalJobId : Option String
  event : String
  reason : DeadLetterReason
  error : Option String
  envelope : Value ν

/-- What a call of a handler comes to. -/
inductive Outcome where
  | resolves
  | rejects (e : String)
  /-- It throws before it returns a promise. -/
  | throws (e : String)
deriving DecidableEq

/-- Why the handling of a job rejects. -/
inductive Rejection where
  | typeError
  /-- `dlq.add` rejects. -/
  | enqueue (e : String)
  | thrown (e : String)
  | aggregate (event : AppEventName) (failures : List String)

/-! ### State -/

structure DlqWindow where
  total : Nat
  sinceBoot : Nat
  byReason : DeadLetterReason → Nat

structure State (ν H : Type) where
  dlqWindow : DlqWindow
  dlqSummaryTimer : Bool
  /-- Ghost: the calls of `dlq.add`. -/
  added : List (DeadLetterRecord ν)
  /-- Ghost: the calls of handlers. -/
  invoked : List (H × Payload)
  /-- Ghost: how often `dispatch` has begun to fan out. -/
  fanOuts : Nat

/-- What is registered and wired: the handlers of an event in the order of their set. -/
structure Bus (H : Type) where
  handlersByEvent : AppEventName → List H
  nodup : ∀ event, (handlersByEvent event).Nodup
  dlq : Bool

/-- How the calls out of the bus go. -/
structure World (ν H : Type) where
  addFails : Option String
  /-- The handler in the given fan-out. -/
  outcome : H → Payload → Nat → Outcome
  /-- `propagation.extract` throws. -/
  extractFails : String → Bool
  /-- The texts of the issues that a schema finds. -/
  envelopeIssues : Value ν → List String
  payloadIssues : Value ν → List String

section bus
variable {ν H : Type}

/-! ### Schemas -/

/-- `v?.name`, for a name that no prototype has. -/
def optMember (v : Value ν) (name : String) : Value ν :=
  match v with
  | .object members => Value.ownMember members name
  | _ => .undefined

def positiveInt? [Arith ν] (v : Value ν) : Option Nat :=
  match v with
  | .number n => (Arith.toNat? n).filter fun k => 1 ≤ k ∧ k ≤ MAX_SAFE_INTEGER
  | _ => none

def nonEmptyString? (v : Value ν) : Option String :=
  match v with
  | .string s => if s = "" then none else some s
  | _ => none

/-- `appEventEnvelopeSchema.safeParse`. -/
def parseEnvelope [Arith ν] (w : World ν H) (v : Value ν) :
    Except (List String) (AppEventEnvelope ν) :=
  match v with
  | .object members =>
    match positiveInt? (Value.ownMember members "schemaVersion"),
      nonEmptyString? (Value.ownMember members "producerId"),
      positiveInt? (Value.ownMember members "timestamp") with
    | some schemaVersion, some producerId, some timestamp =>
      .ok ⟨schemaVersion, producerId, timestamp, Value.ownMember members "data"⟩
    | _, _, _ => .error (w.envelopeIssues v)
  | _ => .error (w.envelopeIssues v)

/-- `boardRefPayloadSchema.safeParse`. -/
def parseBoardRef (w : World ν H) (v : Value ν) : Except (List String) Payload :=
  match v with
  | .object members =>
    match nonEmptyString? (Value.ownMember members "boardId") with
    | some boardId => .ok ⟨boardId⟩
    | none => .error (w.payloadIssues v)
  | _ => .error (w.payloadIssues v)

def payloadSchemas (w : World ν H) : AppEventName → Value ν → Except (List String) Payload
  | .BOARD_MUTATED => parseBoardRef w
  | .BOARD_EDITORS_LEFT => parseBoardRef w

/-- `isAppEventName`, with the name. -/
def appEventName? (v : Value ν) : Option AppEventName :=
  match v with
  | .string s => [AppEventName.BOARD_MUTATED, .BOARD_EDITORS_LEFT].find? fun event => event.text = s
  | _ => none

def formatIssues (issues : List String) : String := String.intercalate "; " issues

/-! ### Parking -/

def deadLetterRecord (job : Job ν) (reason : DeadLetterReason) (error : Option String) :
    DeadLetterRecord ν where
  originalQueue := job.queueName
  originalJobId := job.id
  event :=
    match optMember job.data "event" with
    | .string event => event
    | _ => "unknown"
  reason := reason
  error := error
  envelope := (optMember job.data "envelope").coalesce .null

def DlqWindow.count (window : DlqWindow) (reason : DeadLetterReason) : DlqWindow where
  total := window.total + 1
  sinceBoot := window.sinceBoot + 1
  byReason := Function.update window.byReason reason (window.byReason reason + 1)

def parkDeadLetter (w : World ν H) (bus : Bus H) (job : Job ν) (reason : DeadLetterReason)
    (error : Option String) (s : State ν H) : Except Rejection Unit × State ν H :=
  let s := { s with dlqWindow := s.dlqWindow.count reason, dlqSummaryTimer := true }
  -- Without a queue the record is logged, and no more.
  if !bus.dlq then (.ok (), s)
  else
    let s := { s with added := s.added ++ [deadLetterRecord job reason error] }
    match w.addFails with
    | some e => (.error (.enqueue e), s)
    | none => (.ok (), s)

/-! ### Fan-out -/

/-- The `map` over the handlers: what is thrown in it leaves it. -/
def invokeAll (w : World ν H) (fanOut : Nat) (payload : Payload) :
    List H → State ν H → Except Rejection (List Outcome) × State ν H
  | [], s => (.ok [], s)
  | h :: hs, s =>
    let s := { s with invoked := s.invoked ++ [(h, payload)] }
    match w.outcome h payload fanOut with
    | .throws e => (.error (.thrown e), s)
    | outcome =>
      match invokeAll w fanOut payload hs s with
      | (.ok outcomes, s) => (.ok (outcome :: outcomes), s)
      | (.error e, s) => (.error e, s)

def failure? : Outcome → Option String
  | .rejects e => some e
  | _ => none

def dispatch (w : World ν H) (bus : Bus H) (event : AppEventName) (payload : Payload)
    (s : State ν H) : Except Rejection Unit × State ν H :=
  let handlers := bus.handlersByEvent event
  if handlers.isEmpty then (.ok (), s)
  else
    match invokeAll w s.fanOuts payload handlers { s with fanOuts := s.fanOuts + 1 } with
    | (.error e, s) => (.error e, s)
    | (.ok outcomes, s) =>
      let failures := outcomes.filterMap failure?
      if failures.isEmpty then (.ok (), s) else (.error (.aggregate event failures), s)

/-- The `catch` is for `propagation.extract`, and takes in `fn` as well. -/
def withJobTraceparent (w : World ν H) (traceparent : Option String)
    (fn : State ν H → Except Rejection Unit × State ν H) (s : State ν H) :
    Except Rejection Unit × State ν H :=
  match traceparent with
  | none => fn s
  | some traceparent =>
    if traceparent = "" then fn s
    else if w.extractFails traceparent then fn s
    else
      match fn s with
      | (.ok (), s) => (.ok (), s)
      | (.error _, s) => fn s

def traceparent? (job : Job ν) : Option String :=
  match optMember job.data "traceparent" with
  | .string traceparent => some traceparent
  | _ => none

def handleDomainEventJob [Arith ν] (w : World ν H) (bus : Bus H) (job : Job ν)
    (s : State ν H) : Except Rejection Unit × State ν H :=
  match parseEnvelope w (optMember job.data "envelope") with
  | .error issues => parkDeadLetter w bus job .invalidEnvelope (some (formatIssues issues)) s
  | .ok envelope =>
    if envelope.schemaVersion ≠ APP_EVENT_SCHEMA_VERSION then
      parkDeadLetter w bus job .unknownSchemaVersion
        (some ("unsupported schemaVersion " ++ toString envelope.schemaVersion)) s
    else
      match appEventName? (optMember job.data "event") with
      | none =>
        -- `String(event)` is computed before anything is parked.
        match (optMember job.data "event").toText with
        | .error _ => (.error .typeError, s)
        | .ok text => parkDeadLetter w bus job .unknownEvent (some ("unknown event " ++ text)) s
      | some event =>
        match payloadSchemas w event envelope.data with
        | .error issues => parkDeadLetter w bus job .invalidPayload (some (formatIssues issues)) s
        | .ok payload => withJobTraceparent w (traceparent? job) (dispatch w bus event payload) s

/-! ### What the checks decide -/

/-- What the four checks make of a job. -/
inductive Verdict where
  | park (reason : DeadLetterReason) (error : String)
  /-- The name of the event has no text. -/
  | unreadable
  | fanOut (event : AppEventName) (payload : Payload)

def verdict [Arith ν] (w : World ν H) (job : Job ν) : Verdict :=
  match parseEnvelope w (optMember job.data "envelope") with
  | .error issues => .park .invalidEnvelope (formatIssues issues)
  | .ok envelope =>
    if envelope.schemaVersion ≠ APP_EVENT_SCHEMA_VERSION then
      .park .unknownSchemaVersion ("unsupported schemaVersion " ++ toString envelope.schemaVersion)
    else
      match appEventName? (optMember job.data "event") with
      | none =>
        match (optMember job.data "event").toText with
        | .error _ => .unreadable
        | .ok text => .park .unknownEvent ("unknown event " ++ text)
      | some event =>
        match payloadSchemas w event envelope.data with
        | .error issues => .park .invalidPayload (formatIssues issues)
        | .ok payload => .fanOut event payload

/-- A job is handled by its verdict. -/
def carryOut (w : World ν H) (bus : Bus H) (job : Job ν) (s : State ν H) :
    Verdict → Except Rejection Unit × State ν H
  | .park reason error => parkDeadLetter w bus job reason (some error) s
  | .unreadable => (.error .typeError, s)
  | .fanOut event payload =>
    withJobTraceparent w (traceparent? job) (dispatch w bus event payload) s

theorem handleDomainEventJob_eq [Arith ν] (w : World ν H) (bus : Bus H) (job : Job ν)
    (s : State ν H) :
    handleDomainEventJob w bus job s = carryOut w bus job s (verdict w job) := by
  unfold handleDomainEventJob verdict
  split
  · rfl
  · split
    · rfl
    · split
      · split <;> rfl
      · split <;> rfl

/-! ### What a fan-out calls -/

section fanOut
variable {w : World ν H} {bus : Bus H} {event : AppEventName} {payload : Payload} {n : Nat}

def Outcome.isThrow : Outcome → Bool
  | .throws _ => true
  | _ => false

/-- The handlers up to the first that throws. -/
def reached (w : World ν H) (payload : Payload) (n : Nat) : List H → List H
  | [] => []
  | h :: hs => if (w.outcome h payload n).isThrow then [h] else h :: reached w payload n hs

theorem head_mem_reached (h : H) (hs : List H) : h ∈ reached w payload n (h :: hs) := by
  unfold reached
  split
  · exact List.mem_singleton_self h
  · exact List.mem_cons_self

/-- All are called exactly if none throws that has another one behind it. -/
theorem reached_eq_iff (hs : List H) :
    reached w payload n hs = hs ↔ ∀ h ∈ hs.dropLast, (w.outcome h payload n).isThrow = false := by
  induction hs with
  | nil => simp [reached]
  | cons h hs ih =>
    cases hs with
    | nil => simp [reached]
    | cons h' hs =>
      rw [List.dropLast_cons_cons, List.forall_mem_cons, ← ih, reached]
      split
      · next hthrow => simp [hthrow]
      · next hthrow => simp [hthrow]

/-- A handler that returns is followed by the others. -/
theorem invokeAll_cons {h : H} (hs : List H) (s : State ν H)
    (hreturns : (w.outcome h payload n).isThrow = false) :
    invokeAll w n payload (h :: hs) s =
      let rest := invokeAll w n payload hs { s with invoked := s.invoked ++ [(h, payload)] }
      (rest.1.map (w.outcome h payload n :: ·), rest.2) := by
  rw [invokeAll]
  split
  · next houtcome =>
    rw [houtcome] at hreturns
    cases hreturns
  · split
    all_goals
      next hrun =>
        rw [hrun]
        rfl

theorem invokeAll_throws {h : H} (hs : List H) (s : State ν H)
    (hthrows : (w.outcome h payload n).isThrow = true) :
    ∃ e, invokeAll w n payload (h :: hs) s =
      (.error (.thrown e), { s with invoked := s.invoked ++ [(h, payload)] }) := by
  rw [invokeAll]
  split
  · next e _ => exact ⟨e, rfl⟩
  · next hother =>
    cases houtcome : w.outcome h payload n with
    | throws e => exact absurd houtcome (hother e)
    | resolves =>
      rw [houtcome] at hthrows
      cases hthrows
    | rejects e =>
      rw [houtcome] at hthrows
      cases hthrows

variable (w payload n) in
theorem invokeAll_state (hs : List H) (s : State ν H) :
    (invokeAll w n payload hs s).2 =
      { s with invoked := s.invoked ++ (reached w payload n hs).map (·, payload) } := by
  induction hs generalizing s with
  | nil => simp [invokeAll, reached]
  | cons h hs ih =>
    rw [reached]
    split
    · next hthrows =>
      obtain ⟨e, hrun⟩ := invokeAll_throws hs s hthrows
      rw [hrun]
      rfl
    · next hreturns =>
      rw [invokeAll_cons hs s (by simpa using hreturns)]
      show (invokeAll w n payload hs _).2 = _
      rw [ih]
      simp

variable (w payload n) in
/-- The `map` comes to its end if no handler throws. -/
theorem invokeAll_ok_iff (hs : List H) (s : State ν H) (outcomes : List Outcome) :
    (invokeAll w n payload hs s).1 = .ok outcomes ↔
      (∀ h ∈ hs, (w.outcome h payload n).isThrow = false) ∧
        hs.map (fun h => w.outcome h payload n) = outcomes := by
  induction hs generalizing s outcomes with
  | nil => simp [invokeAll]
  | cons h hs ih =>
    rw [List.forall_mem_cons, List.map_cons]
    cases hthrow : (w.outcome h payload n).isThrow with
    | true =>
      -- The exception leaves the `map`.
      obtain ⟨e, hrun⟩ := invokeAll_throws hs s hthrow
      rw [hrun]
      simp
    | false =>
      rw [invokeAll_cons hs s hthrow]
      show Except.map _ (invokeAll w n payload hs _).1 = _ ↔ _
      rw [map_eq_ok]
      simp only [ih, true_and]
      constructor
      · intro ⟨rest, ⟨hnone, hrest⟩, hcons⟩
        exact ⟨hnone, hrest ▸ hcons⟩
      · intro ⟨hnone, hcons⟩
        exact ⟨_, ⟨hnone, rfl⟩, hcons⟩

variable (w bus event payload)

/-- What a fan-out leaves, whether it resolves or not. -/
theorem dispatch_state (s : State ν H) : ∃ fanOuts, (dispatch w bus event payload s).2 =
    { s with
      invoked := s.invoked ++
        (reached w payload s.fanOuts (bus.handlersByEvent event)).map (·, payload)
      fanOuts := fanOuts } := by
  have hstate := invokeAll_state w payload s.fanOuts (bus.handlersByEvent event)
    { s with fanOuts := s.fanOuts + 1 }
  unfold dispatch
  dsimp only
  split
  · next hempty =>
    rw [List.isEmpty_iff.mp hempty]
    exact ⟨s.fanOuts, by simp [reached]⟩
  · refine ⟨s.fanOuts + 1, ?_⟩
    split
    · next hrun =>
      rw [hrun] at hstate
      exact hstate
    · next hrun =>
      rw [hrun] at hstate
      split <;> exact hstate

theorem dispatch_invoked (s : State ν H) :
    (dispatch w bus event payload s).2.invoked =
      s.invoked ++ (reached w payload s.fanOuts (bus.handlersByEvent event)).map (·, payload) := by
  obtain ⟨_, hstate⟩ := dispatch_state w bus event payload s
  rw [hstate]

theorem dispatch_added (s : State ν H) : (dispatch w bus event payload s).2.added = s.added := by
  obtain ⟨_, hstate⟩ := dispatch_state w bus event payload s
  rw [hstate]

theorem failure?_eq_none_iff {outcome : Outcome} :
    failure? outcome = none ∧ outcome.isThrow = false ↔ outcome = .resolves := by
  cases outcome <;> simp [failure?, Outcome.isThrow]

/-- A fan-out resolves exactly if every handler does. -/
theorem dispatch_isOk_iff (s : State ν H) :
    (dispatch w bus event payload s).1.isOk = true ↔
      ∀ h ∈ bus.handlersByEvent event, w.outcome h payload s.fanOuts = .resolves := by
  have hresult := invokeAll_ok_iff w payload s.fanOuts (bus.handlersByEvent event)
    { s with fanOuts := s.fanOuts + 1 }
  unfold dispatch
  dsimp only
  split
  · next hempty =>
    rw [List.isEmpty_iff.mp hempty]
    simp [Except.isOk, Except.toBool]
  · split
    · next hrun =>
      -- A handler throws.
      rw [hrun] at hresult
      have hnot : ¬ ∀ h ∈ bus.handlersByEvent event,
          (w.outcome h payload s.fanOuts).isThrow = false := by
        intro hnone
        cases (hresult _).mpr ⟨hnone, rfl⟩
      constructor
      · intro hok
        cases hok
      · intro hall
        exact absurd (fun h hmem => (failure?_eq_none_iff.mpr (hall h hmem)).2) hnot
    · next outcomes _ hrun =>
      rw [hrun] at hresult
      obtain ⟨hnone, rfl⟩ := (hresult outcomes).mp rfl
      have hfailures : ((bus.handlersByEvent event).map
          fun h => w.outcome h payload s.fanOuts).filterMap failure? = [] ↔
          ∀ h ∈ bus.handlersByEvent event, w.outcome h payload s.fanOuts = .resolves := by
        rw [List.filterMap_eq_nil_iff, List.forall_mem_map]
        exact forall₂_congr fun h hmem =>
          ⟨fun hfailure => failure?_eq_none_iff.mp ⟨hfailure, hnone h hmem⟩,
            fun hresolves => (failure?_eq_none_iff.mpr hresolves).1⟩
      rw [← hfailures]
      split
      · next hempty =>
        rw [List.isEmpty_iff.mp hempty]
        simp [Except.isOk, Except.toBool]
      · next hempty =>
        rw [List.isEmpty_iff] at hempty
        constructor
        · intro hok
          cases hok
        · intro hnil
          exact absurd hnil hempty

end fanOut

/-! ### Handled once -/

/-- The job is put on the dead-letter queue once, and no handler is called. -/
structure ParksOnce (w : World ν H) (job : Job ν) (s : State ν H)
    (r : Except Rejection Unit × State ν H) : Prop where
  added : ∃ reason error, r.2.added = s.added ++ [deadLetterRecord job reason error]
  invoked : r.2.invoked = s.invoked
  rejects : r.1.isOk = false → w.addFails.isSome = true

/-- Every handler of the event is called once with the payload. -/
structure FansOut (w : World ν H) (bus : Bus H) (event : AppEventName) (payload : Payload)
    (s : State ν H) (r : Except Rejection Unit × State ν H) : Prop where
  added : r.2.added = s.added
  invoked : r.2.invoked = s.invoked ++ (bus.handlersByEvent event).map (·, payload)
  rejects : r.1.isOk = false ↔
    ∃ h ∈ bus.handlersByEvent event, w.outcome h payload s.fanOuts ≠ .resolves

/-- One of the two, and not both; what is fanned out has passed the checks. -/
def HandledOnce [Arith ν] (w : World ν H) (bus : Bus H) (job : Job ν) (s : State ν H) : Prop :=
  Xor (ParksOnce w job s (handleDomainEventJob w bus job s))
    (∃ event payload, verdict w job = .fanOut event payload ∧
      FansOut w bus event payload s (handleDomainEventJob w bus job s))

/-- The job carries a traceparent that `propagation.extract` takes. -/
def traced (w : World ν H) (job : Job ν) : Bool :=
  match traceparent? job with
  | some traceparent => traceparent ≠ "" && !w.extractFails traceparent
  | none => false

/-- A job that is to be parked needs the queue, and an event that has a text. One that is fanned
    out in the context of its traceparent needs handlers that all resolve; without one no handler
    may throw that has another behind it. -/
def Deliverable [Arith ν] (w : World ν H) (bus : Bus H) (job : Job ν) (n : Nat) : Prop :=
  match verdict w job with
  | .park _ _ => bus.dlq = true
  | .unreadable => False
  | .fanOut event payload =>
    if traced w job then ∀ h ∈ bus.handlersByEvent event, w.outcome h payload n = .resolves
    else ∀ h ∈ (bus.handlersByEvent event).dropLast, (w.outcome h payload n).isThrow = false

section handled
variable {w : World ν H} {bus : Bus H} {job : Job ν} {s : State ν H}

variable (w job) in
theorem not_parksOnce {r : Except Rejection Unit × State ν H} (hadded : r.2.added = s.added) :
    ¬ ParksOnce w job s r := by
  intro h
  obtain ⟨reason, error, hparked⟩ := h.added
  have hlength := congrArg List.length (hadded.symm.trans hparked)
  rw [List.length_append, List.length_singleton] at hlength
  omega

theorem parkDeadLetter_parksOnce (hdlq : bus.dlq = true) (reason : DeadLetterReason)
    (error : Option String) : ParksOnce w job s (parkDeadLetter w bus job reason error s) := by
  unfold parkDeadLetter
  rw [hdlq]
  cases haddFails : w.addFails with
  | none => exact ⟨⟨reason, error, rfl⟩, rfl, fun hok => by cases hok⟩
  | some e => exact ⟨⟨reason, error, rfl⟩, rfl, fun _ => by rw [haddFails]; rfl⟩

variable (w job s) in
theorem parkDeadLetter_added (hdlq : bus.dlq = false) (reason : DeadLetterReason)
    (error : Option String) :
    (parkDeadLetter w bus job reason error s).2.added = s.added := by
  unfold parkDeadLetter
  rw [hdlq]
  rfl

/-! ### Fanned out once -/

section fannedOut
variable {event : AppEventName} {payload : Payload}

/-- The fan-out calls every handler once exactly if no handler throws that has another behind it. -/
theorem dispatch_fansOut_iff : FansOut w bus event payload s (dispatch w bus event payload s) ↔
    ∀ h ∈ (bus.handlersByEvent event).dropLast,
      (w.outcome h payload s.fanOuts).isThrow = false := by
  rw [← reached_eq_iff]
  constructor
  · intro h
    have hcalls := List.append_cancel_left
      ((dispatch_invoked w bus event payload s).symm.trans h.invoked)
    exact List.map_injective_iff.mpr (Prod.mk_left_injective payload) hcalls
  · intro hall
    -- Whether it rejects was settled with the outcomes.
    refine ⟨dispatch_added w bus event payload s, ?_, ?_⟩
    · rw [dispatch_invoked, hall]
    · rw [← Bool.not_eq_true, dispatch_isOk_iff]
      simp only [not_forall, exists_prop, ne_eq]

theorem reached_of_resolves {hs : List H} {n : Nat}
    (hall : ∀ h ∈ hs, w.outcome h payload n = .resolves) : reached w payload n hs = hs := by
  rw [reached_eq_iff]
  intro h hmem
  rw [hall h ((List.dropLast_sublist hs).subset hmem)]
  rfl

/-- Two fan-outs call the first handler twice. -/
theorem reached_append_ne {hs : List H} (hnodup : hs.Nodup) (hne : hs ≠ []) (n n' : Nat) :
    reached w payload n hs ++ reached w payload n' hs ≠ hs := by
  intro heq
  cases hs with
  | nil => exact hne rfl
  | cons h hs =>
    rw [← heq, List.nodup_append] at hnodup
    exact hnodup.2.2 h (head_mem_reached h hs) h (head_mem_reached h hs) rfl

theorem withJobTraceparent_untraced (htraced : traced w job = false)
    (fn : State ν H → Except Rejection Unit × State ν H) :
    withJobTraceparent w (traceparent? job) fn s = fn s := by
  unfold traced at htraced
  unfold withJobTraceparent
  split
  · rfl
  · next traceparent htraceparent =>
    rw [htraceparent] at htraced
    split
    · rfl
    · next hne =>
      have hfails : w.extractFails traceparent = true := by simpa [hne] using htraced
      rw [if_pos hfails]

/-- In the context of a traceparent, what has failed is done again. -/
theorem withJobTraceparent_traced (htraced : traced w job = true)
    (fn : State ν H → Except Rejection Unit × State ν H) :
    withJobTraceparent w (traceparent? job) fn s =
      if (fn s).1.isOk then fn s else fn (fn s).2 := by
  unfold traced at htraced
  unfold withJobTraceparent
  split
  · next hnone =>
    rw [hnone] at htraced
    cases htraced
  · next traceparent htraceparent =>
    rw [htraceparent] at htraced
    have hboth : traceparent ≠ "" ∧ w.extractFails traceparent = false := by simpa using htraced
    rw [if_neg hboth.1, hboth.2]
    cases hrun : fn s with
    | mk result s' =>
      cases result with
      | ok u => rfl
      | error e => rfl

variable (w bus job s event payload) in
theorem withJobTraceparent_added :
    (withJobTraceparent w (traceparent? job) (dispatch w bus event payload) s).2.added =
      s.added := by
  cases htraced : traced w job with
  | false =>
    rw [withJobTraceparent_untraced htraced]
    exact dispatch_added w bus event payload s
  | true =>
    rw [withJobTraceparent_traced htraced]
    split
    · exact dispatch_added w bus event payload s
    · rw [dispatch_added, dispatch_added]

/-- A traced fan-out calls every handler once exactly if all resolve. -/
theorem traced_fansOut_iff (htraced : traced w job = true) :
    FansOut w bus event payload s
        (withJobTraceparent w (traceparent? job) (dispatch w bus event payload) s) ↔
      ∀ h ∈ bus.handlersByEvent event, w.outcome h payload s.fanOuts = .resolves := by
  have hisOk := dispatch_isOk_iff w bus event payload s
  rw [withJobTraceparent_traced htraced]
  constructor
  · intro h
    by_contra hnot
    rw [← hisOk] at hnot
    -- It is run again, and calls the first handler a second time.
    rw [if_neg hnot] at h
    have hcalls := h.invoked
    rw [dispatch_invoked, dispatch_invoked, List.append_assoc, ← List.map_append] at hcalls
    have heq := List.map_injective_iff.mpr (Prod.mk_left_injective payload)
      (List.append_cancel_left hcalls)
    refine reached_append_ne (bus.nodup event) ?_ _ _ heq
    intro hempty
    refine hnot (hisOk.mpr ?_)
    rw [hempty]
    exact List.forall_mem_nil _
  · intro hall
    rw [if_pos (hisOk.mpr hall), dispatch_fansOut_iff, ← reached_eq_iff]
    exact reached_of_resolves hall

end fannedOut

/-! ### By the verdict -/

variable [Arith ν]

/-- A job to be parked is, unless there is nowhere to park it. -/
theorem handledOnce_park {reason : DeadLetterReason} {error : String}
    (hverdict : verdict w job = .park reason error) :
    HandledOnce w bus job s ↔ bus.dlq = true := by
  unfold HandledOnce
  rw [handleDomainEventJob_eq, hverdict]
  show Xor (ParksOnce w job s (parkDeadLetter w bus job reason (some error) s)) _ ↔ _
  have hnoFanOut : ¬ ∃ event payload, Verdict.park reason error = .fanOut event payload ∧
      FansOut w bus event payload s (parkDeadLetter w bus job reason (some error) s) := by
    intro ⟨_, _, heq, _⟩
    cases heq
  cases hdlq : bus.dlq with
  | true => exact iff_of_true (.inl ⟨parkDeadLetter_parksOnce hdlq reason _, hnoFanOut⟩) rfl
  | false =>
    have hnotParked := not_parksOnce w job (parkDeadLetter_added w job s hdlq reason (some error))
    refine iff_of_false ?_ Bool.false_ne_true
    intro hxor
    rcases hxor with ⟨hparked, _⟩ | ⟨hfanOut, _⟩
    · exact hnotParked hparked
    · exact hnoFanOut hfanOut

/-- A job whose event has no text is neither parked nor fanned out. -/
theorem not_handledOnce_unreadable (hverdict : verdict w job = .unreadable) :
    ¬ HandledOnce w bus job s := by
  unfold HandledOnce
  rw [handleDomainEventJob_eq, hverdict]
  intro hxor
  rcases hxor with ⟨hparked, _⟩ | ⟨⟨_, _, heq, _⟩, _⟩
  · exact not_parksOnce w job (r := (.error .typeError, s)) rfl hparked
  · cases heq

theorem handledOnce_fanOut {event : AppEventName} {payload : Payload}
    (hverdict : verdict w job = .fanOut event payload) :
    HandledOnce w bus job s ↔
      if traced w job then
        ∀ h ∈ bus.handlersByEvent event, w.outcome h payload s.fanOuts = .resolves
      else
        ∀ h ∈ (bus.handlersByEvent event).dropLast,
          (w.outcome h payload s.fanOuts).isThrow = false := by
  have hfansOut : HandledOnce w bus job s ↔ FansOut w bus event payload s
      (withJobTraceparent w (traceparent? job) (dispatch w bus event payload) s) := by
    unfold HandledOnce
    rw [handleDomainEventJob_eq, hverdict]
    -- A fan-out puts nothing on the queue, so only one of the two can be.
    have hnotParked := not_parksOnce w job (withJobTraceparent_added w bus job s event payload)
    constructor
    · intro hxor
      rcases hxor with ⟨hparked, _⟩ | ⟨⟨_, _, heq, hfanOut⟩, _⟩
      · exact absurd hparked hnotParked
      · cases heq
        exact hfanOut
    · intro hfanOut
      exact .inr ⟨⟨event, payload, rfl, hfanOut⟩, hnotParked⟩
  rw [hfansOut]
  split
  · next htraced => exact traced_fansOut_iff htraced
  · next htraced =>
    rw [withJobTraceparent_untraced (by simpa using htraced)]
    exact dispatch_fansOut_iff

/-- A job is handled once exactly if it is deliverable. -/
theorem handledOnce_iff (w : World ν H) (bus : Bus H) (job : Job ν) (s : State ν H) :
    HandledOnce w bus job s ↔ Deliverable w bus job s.fanOuts := by
  unfold Deliverable
  split
  · next hverdict => exact handledOnce_park hverdict
  · next hverdict => exact iff_of_false (not_handledOnce_unreadable hverdict) id
  · next hverdict => exact handledOnce_fanOut hverdict

end handled

end bus

/-! ### Jobs -/

/-- A job for `board.mutated` on `b-1`, with further members of its data. -/
def mutatedJob (event : Value Exact) (more : List (String × Value Exact)) : Job Exact where
  queueName := "board-mutations"
  id := some "1"
  data := .object (more ++
    [("event", event),
     ("envelope", .object
       [("schemaVersion", .nat 1), ("producerId", .string "api"), ("timestamp", .nat 1),
        ("data", .object [("boardId", .string "b-1")])])])

def quietState : State Exact Nat where
  dlqWindow := ⟨0, 0, fun _ => 0⟩
  dlqSummaryTimer := false
  added := []
  invoked := []
  fanOuts := 0

/-- Handlers by number, all of both events. -/
def busOf (handlers : List Nat) (h : handlers.Nodup) : Bus Nat where
  handlersByEvent := fun _ => handlers
  nodup := fun _ => h
  dlq := true

def worldOf (outcome : Nat → Nat → Outcome) : World Exact Nat where
  addFails := none
  outcome := fun h _ n => outcome h n
  extractFails := fun _ => false
  envelopeIssues := fun _ => []
  payloadIssues := fun _ => []

/-- A handler fails once, and the job is traced: it is called twice, and the job is done. The first
    of two handlers throws: the second is not called. The event is an object whose `toString` is
    data: the job is not parked. -/
theorem jobs_not_handledOnce :
    (let w := worldOf fun _ n => if n = 0 then .rejects "transient" else .resolves
     let job := mutatedJob (.string "board.mutated") [("traceparent", .string "00-1-1-01")]
     let r := handleDomainEventJob w (busOf [0] (by decide)) job quietState
     r.1.isOk = true ∧ r.2.invoked = [(0, ⟨"b-1"⟩), (0, ⟨"b-1"⟩)] ∧
       ¬ HandledOnce w (busOf [0] (by decide)) job quietState) ∧
    (let w := worldOf fun h _ => if h = 0 then .throws "sync" else .resolves
     let job := mutatedJob (.string "board.mutated") []
     let r := handleDomainEventJob w (busOf [0, 1] (by decide)) job quietState
     r.2.invoked = [(0, ⟨"b-1"⟩)] ∧
       ¬ HandledOnce w (busOf [0, 1] (by decide)) job quietState) ∧
    (let w := worldOf fun _ _ => .resolves
     let job := mutatedJob (.object [("toString", .string "x")]) []
     let r := handleDomainEventJob w (busOf [0] (by decide)) job quietState
     r.1.isOk = false ∧ r.2.added.length = 0 ∧
       ¬ HandledOnce w (busOf [0] (by decide)) job quietState) := by
  refine ⟨⟨rfl, rfl, ?_⟩, ⟨rfl, ?_⟩, ⟨rfl, rfl, ?_⟩⟩
  · rw [handledOnce_fanOut rfl]
    decide
  · rw [handledOnce_fanOut rfl]
    decide
  · exact not_handledOnce_unreadable rfl

end Notebortt.Events
