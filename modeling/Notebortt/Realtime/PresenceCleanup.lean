import Notebortt.Realtime.SocketPresence

/-! # What a disconnected socket leaves behind

    Every entry of the socket is answered for: by its board context, which the
    disconnect detaches, by a detach that has still to remove it, or by a join
    that is to make it the context's. Joins keep this by the checks between
    their awaits, but not at every one of them. -/

open Transition

namespace Notebortt.SocketPresence

/-! ### What one step of a handler does -/

/-- A detach only removes entries. -/
def Effect.removes : Effect → Bool
  | .skip => true
  | .removeClient _ => true
  | .removeParticipant _ => true
  | _ => false

section advance
variable {ρ : Type} {s : State ρ} {answer : Answer} {effect : Effect} {client : String × String}
  {boardId : String}

section detach
variable {detach : Detach} {next : Option Detach}

theorem Detach.advance_removes (h : detach.advance = (effect, next)) : effect.removes = true := by
  revert h
  fun_cases Detach.advance detach <;> intro h <;> cases h <;> rfl

theorem Detach.advance_client (h : detach.advance = (effect, next))
    (hclient : detach.client? = some client) : effect = .removeClient client := by
  obtain ⟨context, point⟩ := detach
  cases point with
  | removingClient =>
    cases h
    cases hclient
    rfl
  | _ => cases hclient

theorem Detach.advance_participant (h : detach.advance = (effect, next))
    (hparticipant : detach.participant? = some boardId) :
    effect = .removeParticipant boardId ∨ next.bind Detach.participant? = some boardId := by
  obtain ⟨context, point⟩ := detach
  cases point with
  | leaving => cases hparticipant
  | removingParticipant =>
    cases h
    cases hparticipant
    exact .inl rfl
  | _ =>
    cases h
    exact .inr hparticipant

end detach

section join
variable {joinAttempt : Nat} {payload : BoardJoinPayload} {point : JoinPoint}
  {next : Option JoinPoint}

theorem JoinPoint.advance_setIdentity {userId : String}
    (h : point.advance s joinAttempt payload answer = (.setIdentity userId, next)) :
    point = .resolvingIdentity ∧ s.isJoinActive joinAttempt = true := by
  revert h
  fun_cases JoinPoint.advance s joinAttempt payload answer point <;> intro h <;> cases h
  · exact ⟨rfl, ‹_›⟩
  all_goals cases Detach.advance_removes ‹_›

/-- A join sets the context at one point, and to what it has tracked. -/
theorem JoinPoint.advance_setBoardContext_some {context : SocketBoardContext}
    (h : point.advance s joinAttempt payload answer = (.setBoardContext (some context), next)) :
    s.isJoinActive joinAttempt = true ∧ context.boardId = payload.boardId ∧
      point.tracked? = some context.userId := by
  revert h
  fun_cases JoinPoint.advance s joinAttempt payload answer point <;> intro h <;> cases h
  rotate_left 2
  · exact ⟨‹_›, rfl, rfl⟩
  all_goals cases Detach.advance_removes ‹_›

/-- Where a join drops the context, it goes on to detach it. -/
theorem JoinPoint.advance_setBoardContext_none
    (h : point.advance s joinAttempt payload answer = (.setBoardContext none, next)) :
    ∃ context point', s.boardContext = some context ∧ next = some point' ∧
      point'.tracked? = none ∧ point'.detach? = some ⟨context, .removingClient⟩ := by
  revert h
  fun_cases JoinPoint.advance s joinAttempt payload answer point <;> intro h <;> cases h
  · next previous hprevious =>
    exact ⟨previous, _, (Option.filter_eq_some_iff.mp hprevious).1, rfl, rfl, rfl⟩
  · cases Detach.advance_removes ‹_›
  · cases Detach.advance_removes ‹_›
  · next context hcontext =>
    exact ⟨context, _, (Option.filter_eq_some_iff.mp hcontext).1, rfl, rfl, rfl⟩
  · cases Detach.advance_removes ‹_›

theorem JoinPoint.advance_trackClient
    (h : point.advance s joinAttempt payload answer = (.trackClient client, next)) :
    ∃ point' userId, next = some point' ∧ point'.tracked? = some userId ∧
      client = (payload.boardId, userId) := by
  revert h
  fun_cases JoinPoint.advance s joinAttempt payload answer point <;> intro h <;> cases h
  · cases Detach.advance_removes ‹_›
  · cases Detach.advance_removes ‹_›
  · exact ⟨_, _, rfl, rfl, rfl⟩
  · cases Detach.advance_removes ‹_›

theorem JoinPoint.advance_admitParticipant
    (h : point.advance s joinAttempt payload answer = (.admitParticipant boardId, next)) :
    point = .admittingParticipant ∧ boardId = payload.boardId ∧
      (boardId ∈ s.participants ∨ answer.full = false) := by
  revert h
  fun_cases JoinPoint.advance s joinAttempt payload answer point <;> intro h <;> cases h
  · cases Detach.advance_removes ‹_›
  · cases Detach.advance_removes ‹_›
  · next hadmitted => exact ⟨rfl, rfl, by simpa using hadmitted⟩
  · cases Detach.advance_removes ‹_›

/-- What becomes of a client a join has tracked. -/
theorem JoinPoint.advance_tracked {userId : String}
    (h : point.advance s joinAttempt payload answer = (effect, next))
    (htracked : point.tracked? = some userId) :
    next.bind JoinPoint.tracked? = some userId ∨
      (∃ context, effect = .setBoardContext (some context) ∧
        context.client = (payload.boardId, userId)) ∨
      s.isJoinActive joinAttempt = false := by
  cases hactive : s.isJoinActive joinAttempt with
  | false => exact .inr (.inr rfl)
  | true =>
    cases point with
    | clientTracked _ permission =>
      cases htracked
      rw [JoinPoint.advance, if_pos hactive] at h
      cases h
      exact .inl rfl
    | touchingViewerSession _ permission =>
      cases htracked
      rw [JoinPoint.advance, if_pos hactive] at h
      cases h
      exact .inr (.inl ⟨_, rfl, rfl⟩)
    | _ => cases htracked

/-- A join at a detach takes the step of the detach. -/
theorem JoinPoint.advance_detach {detach : Detach}
    (h : point.advance s joinAttempt payload answer = (effect, next))
    (hdetach : point.detach? = some detach) :
    ∃ next', detach.advance = (effect, next') ∧
      ∀ detach', next' = some detach' →
        ∃ point', next = some point' ∧ point'.tracked? = none ∧ point'.detach? = some detach' := by
  cases point with
  | detachingPrevious userId permission d =>
    cases hdetach
    cases hadvance : detach.advance with
    | mk effect' next' =>
      rw [JoinPoint.advance, hadvance] at h
      refine ⟨next', ?_, ?_⟩
      · cases next' <;> cases h <;> rfl
      · rintro detach' rfl
        cases h
        exact ⟨_, rfl, rfl, rfl⟩
  | detachingRejected d =>
    cases hdetach
    cases hadvance : detach.advance with
    | mk effect' next' =>
      rw [JoinPoint.advance, hadvance] at h
      cases h
      refine ⟨next', rfl, ?_⟩
      rintro detach' rfl
      exact ⟨_, rfl, rfl, rfl⟩
  | _ => cases hdetach

end join

variable {handler : Handler} {next : Option Handler}

theorem Handler.advance_boardJoin {joinAttempt : Nat} {payload : BoardJoinPayload}
    {point : JoinPoint}
    (h : (Handler.boardJoin joinAttempt payload point).advance s answer = (effect, next)) :
    ∃ next', point.advance s joinAttempt payload answer = (effect, next') ∧
      next = next'.map (.boardJoin joinAttempt payload) := by
  cases hpoint : point.advance s joinAttempt payload answer with
  | mk effect' next' =>
    rw [Handler.advance, hpoint] at h
    cases h
    exact ⟨next', rfl, rfl⟩

theorem Handler.advance_disconnect {detach : Detach}
    (h : (Handler.disconnect detach).advance s answer = (effect, next)) :
    ∃ next', detach.advance = (effect, next') ∧ next = next'.map .disconnect := by
  cases hdetach : detach.advance with
  | mk effect' next' =>
    rw [Handler.advance, hdetach] at h
    cases h
    exact ⟨next', rfl, rfl⟩

theorem Handler.client?_of_detach (joinAttempt : Nat) (payload : BoardJoinPayload)
    {point : JoinPoint} {detach : Detach} (htracked : point.tracked? = none)
    (hdetach : point.detach? = some detach) :
    (Handler.boardJoin joinAttempt payload point).client? = detach.client? := by
  simp only [Handler.client?, htracked, hdetach, Option.bind_some]

/-- A handler that has dropped the context answers for its entries. -/
theorem Handler.advance_setBoardContext_none
    (h : handler.advance s answer = (.setBoardContext none, next)) :
    ∃ context, s.boardContext = some context ∧
      next.bind Handler.client? = some context.client ∧
        next.bind Handler.participant? = some context.boardId := by
  cases handler with
  | boardJoin joinAttempt payload point =>
    obtain ⟨next', hpoint, rfl⟩ := Handler.advance_boardJoin h
    obtain ⟨context, point', hcontext, rfl, htracked, hdetach⟩ :=
      JoinPoint.advance_setBoardContext_none hpoint
    refine ⟨context, hcontext, ?_, ?_⟩
    · exact Handler.client?_of_detach joinAttempt payload htracked hdetach
    · show point'.detach?.bind Detach.participant? = _
      rw [hdetach]
      rfl
  | activity context point => cases point <;> cases h
  | disconnect detach =>
    obtain ⟨next', hdetach, -⟩ := Handler.advance_disconnect h
    cases Detach.advance_removes hdetach

theorem Handler.advance_setBoardContext_some {context : SocketBoardContext}
    (h : handler.advance s answer = (.setBoardContext (some context), next)) :
    ∃ joinAttempt payload point, handler = .boardJoin joinAttempt payload point ∧
      s.isJoinActive joinAttempt = true ∧ context.boardId = payload.boardId ∧
        point.tracked? = some context.userId := by
  cases handler with
  | boardJoin joinAttempt payload point =>
    obtain ⟨next', hpoint, -⟩ := Handler.advance_boardJoin h
    exact ⟨joinAttempt, payload, point, rfl, JoinPoint.advance_setBoardContext_some hpoint⟩
  | activity context point => cases point <;> cases h
  | disconnect detach =>
    obtain ⟨next', hdetach, -⟩ := Handler.advance_disconnect h
    cases Detach.advance_removes hdetach

theorem Handler.advance_setIdentity {userId : String}
    (h : handler.advance s answer = (.setIdentity userId, next)) :
    ∃ joinAttempt payload, handler = .boardJoin joinAttempt payload .resolvingIdentity ∧
      s.isJoinActive joinAttempt = true := by
  cases handler with
  | boardJoin joinAttempt payload point =>
    obtain ⟨next', hpoint, -⟩ := Handler.advance_boardJoin h
    obtain ⟨rfl, hactive⟩ := JoinPoint.advance_setIdentity hpoint
    exact ⟨joinAttempt, payload, rfl, hactive⟩
  | activity context point => cases point <;> cases h
  | disconnect detach =>
    obtain ⟨next', hdetach, -⟩ := Handler.advance_disconnect h
    cases Detach.advance_removes hdetach

/-- A join answers for what it tracks; what an activity handler tracks, it refreshes. -/
theorem Handler.advance_trackClient
    (h : handler.advance s answer = (.trackClient client, next)) :
    next.bind Handler.client? = some client ∨ client ∈ handler.refreshes? := by
  cases handler with
  | boardJoin joinAttempt payload point =>
    obtain ⟨next', hpoint, rfl⟩ := Handler.advance_boardJoin h
    obtain ⟨point', userId, rfl, htracked, rfl⟩ := JoinPoint.advance_trackClient hpoint
    refine .inl ?_
    show (Handler.boardJoin joinAttempt payload point').client? = _
    simp only [Handler.client?, htracked]
  | activity context point =>
    cases point with
    | trackingClient =>
      cases h
      exact .inr rfl
    | _ => cases h
  | disconnect detach =>
    obtain ⟨next', hdetach, -⟩ := Handler.advance_disconnect h
    cases Detach.advance_removes hdetach

theorem Handler.advance_admitParticipant
    (h : handler.advance s answer = (.admitParticipant boardId, next)) :
    boardId ∈ handler.admits? ∧ (boardId ∈ s.participants ∨ answer.full = false) := by
  cases handler with
  | boardJoin joinAttempt payload point =>
    obtain ⟨next', hpoint, -⟩ := Handler.advance_boardJoin h
    obtain ⟨rfl, rfl, hadmitted⟩ := JoinPoint.advance_admitParticipant hpoint
    exact ⟨rfl, hadmitted⟩
  | activity context point => cases point <;> cases h
  | disconnect detach =>
    obtain ⟨next', hdetach, -⟩ := Handler.advance_disconnect h
    cases Detach.advance_removes hdetach

/-- What becomes of the client a handler answers for. -/
theorem Handler.advance_client (h : handler.advance s answer = (effect, next))
    (hclient : handler.client? = some client) :
    effect = .removeClient client ∨ next.bind Handler.client? = some client ∨
      (∃ context, effect = .setBoardContext (some context) ∧ context.client = client) ∨
        handler.givesUp s = true := by
  cases handler with
  | boardJoin joinAttempt payload point =>
    obtain ⟨next', hpoint, rfl⟩ := Handler.advance_boardJoin h
    cases htracked : point.tracked? with
    | some userId =>
      simp only [Handler.client?, htracked, Option.some.injEq] at hclient
      subst hclient
      -- still tracked, made the context's, or given up
      obtain htracked' | hcontext | hinactive := JoinPoint.advance_tracked hpoint htracked
      · obtain ⟨point', rfl, hpoint'⟩ := Option.bind_eq_some_iff.mp htracked'
        refine .inr (.inl ?_)
        show (Handler.boardJoin joinAttempt payload point').client? = _
        simp only [Handler.client?, hpoint']
      · exact .inr (.inr (.inl hcontext))
      · refine .inr (.inr (.inr ?_))
        rw [Handler.givesUp, htracked, hinactive]
        rfl
    | none =>
      simp only [Handler.client?, htracked] at hclient
      obtain ⟨detach, hdetach, hclient⟩ := Option.bind_eq_some_iff.mp hclient
      obtain ⟨next'', hadvance, -⟩ := JoinPoint.advance_detach hpoint hdetach
      exact .inl (Detach.advance_client hadvance hclient)
  | activity context point => cases hclient
  | disconnect detach =>
    obtain ⟨next', hdetach, -⟩ := Handler.advance_disconnect h
    exact .inl (Detach.advance_client hdetach hclient)

/-- What becomes of the participant a handler removes. -/
theorem Handler.advance_participant (h : handler.advance s answer = (effect, next))
    (hparticipant : handler.participant? = some boardId) :
    effect = .removeParticipant boardId ∨ next.bind Handler.participant? = some boardId := by
  obtain ⟨detach, hdetach, hremoves⟩ := Option.bind_eq_some_iff.mp hparticipant
  cases handler with
  | boardJoin joinAttempt payload point =>
    obtain ⟨next', hpoint, rfl⟩ := Handler.advance_boardJoin h
    obtain ⟨next'', hadvance, hnext⟩ := JoinPoint.advance_detach hpoint hdetach
    obtain hremoved | hleft := Detach.advance_participant hadvance hremoves
    · exact .inl hremoved
    · obtain ⟨detach', hdetach', hparticipant'⟩ := Option.bind_eq_some_iff.mp hleft
      obtain ⟨point', rfl, -, hpoint'⟩ := hnext detach' hdetach'
      refine .inr ?_
      show point'.detach?.bind Detach.participant? = _
      rw [hpoint', Option.bind_some, hparticipant']
  | activity context point => cases hdetach
  | disconnect d =>
    cases hdetach
    obtain ⟨next', hadvance, rfl⟩ := Handler.advance_disconnect h
    refine (Detach.advance_participant hadvance hremoves).imp_right fun hleft => ?_
    obtain ⟨detach', rfl, hparticipant'⟩ := Option.bind_eq_some_iff.mp hleft
    exact hparticipant'

end advance

/-! ### The joins and the context -/

/-- The user a join goes on with. -/
def JoinPoint.userId? : JoinPoint → Option String
  | .checkingAccess userId => some userId
  | .gettingAdmissionState userId _ => some userId
  | .admissionStateRead userId .. => some userId
  | .detachingPrevious userId .. => some userId
  | .loadingBoard userId _ => some userId
  | .trackingClient userId _ => some userId
  | .clientTracked userId _ => some userId
  | .touchingViewerSession userId _ => some userId
  | _ => none

/-- The join has detached the context of another board, and has not set its own. -/
def JoinPoint.detached : JoinPoint → Bool
  | .detachingPrevious .. => true
  | .loadingBoard .. => true
  | .trackingClient .. => true
  | .clientTracked .. => true
  | .touchingViewerSession .. => true
  | _ => false

theorem JoinPoint.userId?_of_tracked {point : JoinPoint} {userId : String}
    (h : point.tracked? = some userId) : point.userId? = some userId := by
  cases point with
  | clientTracked _ _ => exact h
  | touchingViewerSession _ _ => exact h
  | _ => cases h

theorem JoinPoint.detached_of_tracked {point : JoinPoint} {userId : String}
    (h : point.tracked? = some userId) : point.detached = true := by
  cases point with
  | clientTracked _ _ => rfl
  | touchingViewerSession _ _ => rfl
  | _ => cases h

section invariant
variable {ρ : Type}

/-- A join works for the identity of the socket, and while it is active no other join touches the
    identity or the context. -/
structure JoinOk (s : State ρ) (joinAttempt : Nat) (payload : BoardJoinPayload)
    (point : JoinPoint) : Prop where
  attempt_le : joinAttempt ≤ s.latestJoinAttempt
  unresolved : point = .resolvingIdentity → s.isJoinActive joinAttempt = true → s.identity = none
  identity : ∀ userId, point.userId? = some userId → s.identity = some userId
  sameBoard : point.detached = true → s.isJoinActive joinAttempt = true →
    ∀ context, s.boardContext = some context → context.boardId = payload.boardId

structure JoinInv (s : State ρ) : Prop where
  disconnected : s.connected = false → s.boardContext = none
  identity : ∀ context, s.boardContext = some context → s.identity = some context.userId
  join : ∀ h joinAttempt payload point,
    s.handlers h = some (.boardJoin joinAttempt payload point) →
      JoinOk s joinAttempt payload point
  attempts : ∀ h h' joinAttempt payload payload' point point',
    s.handlers h = some (.boardJoin joinAttempt payload point) →
      s.handlers h' = some (.boardJoin joinAttempt payload' point') → h = h'

variable {s s' : State ρ} {joinAttempt : Nat} {payload : BoardJoinPayload} {point : JoinPoint}
  {answer : Answer} {effect : Effect}

theorem connected_of_isJoinActive (h : s.isJoinActive joinAttempt = true) : s.connected = true :=
  (Bool.and_eq_true_iff.mp h).1

/-- Only the latest attempt is active. -/
theorem eq_of_isJoinActive {joinAttempt' : Nat} (h : s.isJoinActive joinAttempt = true)
    (h' : s.isJoinActive joinAttempt' = true) : joinAttempt = joinAttempt' := by
  have hlatest : joinAttempt = s.latestJoinAttempt := eq_of_beq (Bool.and_eq_true_iff.mp h).2
  have hlatest' : joinAttempt' = s.latestJoinAttempt := eq_of_beq (Bool.and_eq_true_iff.mp h').2
  exact hlatest.trans hlatest'.symm

@[simp] theorem connected_apply : (s.apply effect).connected = s.connected := by
  cases effect <;> rfl

@[simp] theorem latestJoinAttempt_apply :
    (s.apply effect).latestJoinAttempt = s.latestJoinAttempt := by
  cases effect <;> rfl

@[simp] theorem handlers_apply : (s.apply effect).handlers = s.handlers := by
  cases effect <;> rfl

@[simp] theorem isJoinActive_apply :
    (s.apply effect).isJoinActive joinAttempt = s.isJoinActive joinAttempt := by
  cases effect <;> rfl

theorem identity_apply (h : ∀ userId, effect ≠ .setIdentity userId) :
    (s.apply effect).identity = s.identity := by
  cases effect with
  | setIdentity userId => exact absurd rfl (h userId)
  | _ => rfl

theorem boardContext_apply (h : ∀ next, effect ≠ .setBoardContext next) :
    (s.apply effect).boardContext = s.boardContext := by
  cases effect with
  | setBoardContext next => exact absurd rfl (h next)
  | _ => rfl

theorem boardContext_apply_of_removes (h : effect.removes = true) :
    (s.apply effect).boardContext = s.boardContext := by
  refine boardContext_apply ?_
  rintro next rfl
  cases h

/-! #### One step of a join -/

section join
variable {next : Option JoinPoint} {point' : JoinPoint}

theorem JoinPoint.advance_ne_resolving
    (h : point.advance s joinAttempt payload answer = (effect, next)) (hnext : next = some point') :
    point' ≠ .resolvingIdentity := by
  rintro rfl
  revert h
  fun_cases JoinPoint.advance s joinAttempt payload answer point <;> intro h <;> cases h <;>
    try cases hnext
  -- the detach of a rejected join
  obtain ⟨_, -, hpoint⟩ := Option.map_eq_some_iff.mp hnext
  cases hpoint

theorem JoinPoint.advance_userId {userId : String}
    (h : point.advance s joinAttempt payload answer = (effect, next)) (hnext : next = some point')
    (huserId : point'.userId? = some userId) :
    effect = .setIdentity userId ∨ point.userId? = some userId := by
  revert h
  fun_cases JoinPoint.advance s joinAttempt payload answer point <;> intro h <;> cases h <;>
    try cases hnext
  all_goals try cases huserId
  · exact .inl rfl
  rotate_right
  · obtain ⟨_, -, rfl⟩ := Option.map_eq_some_iff.mp hnext
    cases huserId
  all_goals exact .inr rfl

/-- The context of a join that has detached the previous one: none, or as it was before. -/
theorem JoinPoint.advance_detached
    (h : point.advance s joinAttempt payload answer = (effect, next)) (hnext : next = some point')
    (hdetached : point'.detached = true) :
    (s.apply effect).boardContext = none ∨
      (s.apply effect).boardContext = s.boardContext ∧
        (point.detached = true ∨ s.previousContext payload = none) := by
  revert h
  fun_cases JoinPoint.advance s joinAttempt payload answer point <;> intro h <;> cases h <;>
    try cases hnext
  all_goals try cases hdetached
  · exact .inr ⟨rfl, .inr ‹_›⟩
  · exact .inl rfl
  · exact .inr ⟨boardContext_apply_of_removes (Detach.advance_removes ‹_›), .inl rfl⟩
  · exact .inr ⟨boardContext_apply_of_removes (Detach.advance_removes ‹_›), .inl rfl⟩
  rotate_right
  · obtain ⟨_, -, rfl⟩ := Option.map_eq_some_iff.mp hnext
    cases hdetached
  all_goals exact .inr ⟨rfl, .inl rfl⟩

/-- A step of a join keeps what it relies on. -/
theorem JoinOk.advance (hs : JoinOk s joinAttempt payload point)
    (h : point.advance s joinAttempt payload answer = (effect, next))
    (hnext : next = some point') : JoinOk (s.apply effect) joinAttempt payload point' := by
  refine ⟨?_, ?_, ?_, ?_⟩
  · rw [latestJoinAttempt_apply]
    exact hs.attempt_le
  · intro hpoint
    exact absurd hpoint (JoinPoint.advance_ne_resolving h hnext)
  · intro userId huserId
    obtain rfl | huserId := JoinPoint.advance_userId h hnext huserId
    · rfl
    · rw [identity_apply]
      · exact hs.identity userId huserId
      · -- a join that resolves its identity has none yet
        rintro userId' rfl
        rw [(JoinPoint.advance_setIdentity h).1] at huserId
        cases huserId
  · intro hdetached hactive context hcontext
    rw [isJoinActive_apply] at hactive
    obtain hnone | ⟨hsame, hpoint⟩ := JoinPoint.advance_detached h hnext hdetached
    · rw [hnone] at hcontext
      cases hcontext
    · rw [hsame] at hcontext
      obtain hpoint | hprevious := hpoint
      · exact hs.sameBoard hpoint hactive context hcontext
      · -- there was nothing to detach: the context is of the board and the session
        have hkept : context.boardId = payload.boardId ∧ context.sessionId = payload.sessionId := by
          simpa using Option.filter_eq_none_iff.mp hprevious context hcontext
        exact hkept.1

end join

/-! #### A step of the socket -/

/-- A join that is not active any more relies only on its identity. -/
theorem JoinOk.of_inactive (hattempt : joinAttempt ≤ s.latestJoinAttempt)
    (hinactive : s.isJoinActive joinAttempt = false)
    (hidentity : ∀ userId, point.userId? = some userId → s.identity = some userId) :
    JoinOk s joinAttempt payload point := by
  refine ⟨hattempt, ?_, hidentity, ?_⟩
  · intro _ hactive
    rw [hinactive] at hactive
    cases hactive
  · intro _ hactive
    rw [hinactive] at hactive
    cases hactive

section step
variable {h : ρ} {handler : Handler} {next : Option Handler}

theorem JoinInv.inactive_of_ne (hs : JoinInv s) {h' : ρ} {joinAttempt' : Nat}
    {payload' : BoardJoinPayload} {point' : JoinPoint}
    (hjoin : s.handlers h = some (.boardJoin joinAttempt payload point))
    (hjoin' : s.handlers h' = some (.boardJoin joinAttempt' payload' point')) (hne : h' ≠ h)
    (hactive : s.isJoinActive joinAttempt = true) : s.isJoinActive joinAttempt' = false := by
  refine eq_false_of_ne_true fun hactive' => hne ?_
  obtain rfl := eq_of_isJoinActive hactive hactive'
  exact hs.attempts h' h _ _ _ _ _ hjoin' hjoin

/-- What a handler does leaves the other joins what they rely on. -/
theorem JoinInv.advance_other (hs : JoinInv s) (hhandler : s.handlers h = some handler)
    (hadvance : handler.advance s answer = (effect, next)) {h' : ρ} (hne : h' ≠ h)
    (hjoin : s.handlers h' = some (.boardJoin joinAttempt payload point)) :
    JoinOk (s.apply effect) joinAttempt payload point := by
  have hok := hs.join h' joinAttempt payload point hjoin
  cases effect with
  | setIdentity userId =>
    obtain ⟨_, _, rfl, hactive⟩ := Handler.advance_setIdentity hadvance
    have hnone : s.identity = none := (hs.join h _ _ _ hhandler).unresolved rfl hactive
    refine .of_inactive hok.attempt_le (hs.inactive_of_ne hhandler hjoin hne hactive) ?_
    intro userId' huserId'
    have hidentity := hok.identity userId' huserId'
    rw [hnone] at hidentity
    cases hidentity
  | setBoardContext context =>
    cases context with
    | none =>
      refine ⟨hok.attempt_le, hok.unresolved, hok.identity, ?_⟩
      intro _ _ _ hcontext
      cases hcontext
    | some context =>
      obtain ⟨_, _, _, rfl, hactive, -⟩ := Handler.advance_setBoardContext_some hadvance
      exact .of_inactive hok.attempt_le (hs.inactive_of_ne hhandler hjoin hne hactive) hok.identity
  | _ => exact ⟨hok.attempt_le, hok.unresolved, hok.identity, hok.sameBoard⟩

theorem JoinInv.advance_identity (hs : JoinInv s) (hhandler : s.handlers h = some handler)
    (hadvance : handler.advance s answer = (effect, next)) {context : SocketBoardContext}
    (hcontext : (s.apply effect).boardContext = some context) :
    (s.apply effect).identity = some context.userId := by
  cases effect with
  | setIdentity userId =>
    -- no context is set before the identity is
    obtain ⟨_, _, rfl, hactive⟩ := Handler.advance_setIdentity hadvance
    have hnone : s.identity = none := (hs.join h _ _ _ hhandler).unresolved rfl hactive
    have hidentity := hs.identity context hcontext
    rw [hnone] at hidentity
    cases hidentity
  | setBoardContext next' =>
    obtain rfl : next' = some context := hcontext
    obtain ⟨_, _, _, rfl, -, -, htracked⟩ := Handler.advance_setBoardContext_some hadvance
    exact (hs.join h _ _ _ hhandler).identity _ (JoinPoint.userId?_of_tracked htracked)
  | _ => exact hs.identity context hcontext

theorem JoinInv.advance_disconnected (hs : JoinInv s)
    (hadvance : handler.advance s answer = (effect, next)) (hconnected : s.connected = false) :
    (s.apply effect).boardContext = none := by
  cases effect with
  | setBoardContext next' =>
    cases next' with
    | none => rfl
    | some context =>
      obtain ⟨_, _, _, -, hactive, -⟩ := Handler.advance_setBoardContext_some hadvance
      rw [connected_of_isJoinActive hactive] at hconnected
      cases hconnected
  | _ => exact hs.disconnected hconnected

/-- Who has the entries of the context after a step: a context with the same ones, or the handler
    that has dropped it. -/
theorem JoinInv.advance_context (hs : JoinInv s) (hhandler : s.handlers h = some handler)
    (hadvance : handler.advance s answer = (effect, next)) {context : SocketBoardContext}
    (hcontext : s.boardContext = some context) :
    (∃ context', (s.apply effect).boardContext = some context' ∧
        context'.client = context.client) ∨
      next.bind Handler.client? = some context.client ∧
        next.bind Handler.participant? = some context.boardId := by
  cases effect with
  | setBoardContext next' =>
    cases next' with
    | none =>
      obtain ⟨context', hcontext', hnext⟩ := Handler.advance_setBoardContext_none hadvance
      obtain rfl := Option.some.inj (hcontext.symm.trans hcontext')
      exact .inr hnext
    | some context' =>
      -- a context is only replaced by one of the same board and the same user
      obtain ⟨_, _, _, rfl, hactive, hboard, htracked⟩ :=
        Handler.advance_setBoardContext_some hadvance
      have hok := hs.join h _ _ _ hhandler
      have hboardId : context.boardId = context'.boardId :=
        (hok.sameBoard (JoinPoint.detached_of_tracked htracked) hactive context hcontext).trans
          hboard.symm
      have huserId : some context.userId = some context'.userId :=
        (hs.identity context hcontext).symm.trans
          (hok.identity _ (JoinPoint.userId?_of_tracked htracked))
      refine .inl ⟨context', rfl, ?_⟩
      rw [SocketBoardContext.client, SocketBoardContext.client, hboardId, Option.some.inj huserId]
  | _ => exact .inl ⟨context, hcontext, rfl⟩

variable [DecidableEq ρ]

@[simp] theorem handlers_setHandler_self : (s.setHandler h next).handlers h = next :=
  Function.update_self ..

@[simp] theorem handlers_setHandler_ne {h' : ρ} (hne : h' ≠ h) :
    (s.setHandler h next).handlers h' = s.handlers h' :=
  Function.update_of_ne hne ..

/-- A step starts no join. -/
theorem boardJoin_of_advance (hhandler : s.handlers h = some handler)
    (hadvance : handler.advance s answer = (effect, next)) {h' : ρ}
    (hjoin : ((s.apply effect).setHandler h next).handlers h' =
      some (.boardJoin joinAttempt payload point)) :
    ∃ point₀, s.handlers h' = some (.boardJoin joinAttempt payload point₀) := by
  by_cases hh : h' = h
  · subst hh
    rw [handlers_setHandler_self] at hjoin
    subst hjoin
    cases handler with
    | boardJoin _ _ point₀ =>
      obtain ⟨next', -, hnext⟩ := Handler.advance_boardJoin hadvance
      obtain ⟨_, -, hpoint⟩ := Option.map_eq_some_iff.mp hnext.symm
      cases hpoint
      exact ⟨point₀, hhandler⟩
    | activity context point₀ => cases point₀ <;> cases hadvance
    | disconnect detach =>
      obtain ⟨next', -, hnext⟩ := Handler.advance_disconnect hadvance
      obtain ⟨_, -, hpoint⟩ := Option.map_eq_some_iff.mp hnext.symm
      cases hpoint
  · rw [handlers_setHandler_ne hh, handlers_apply] at hjoin
    exact ⟨point, hjoin⟩

theorem JoinInv.advance (hs : JoinInv s) (hhandler : s.handlers h = some handler)
    (hadvance : handler.advance s answer = (effect, next)) :
    JoinInv ((s.apply effect).setHandler h next) where
  disconnected hconnected := by
    replace hconnected : (s.apply effect).connected = false := hconnected
    rw [connected_apply] at hconnected
    exact hs.advance_disconnected hadvance hconnected
  identity _ hcontext := hs.advance_identity hhandler hadvance hcontext
  join h' joinAttempt payload point hjoin := by
    suffices hok : JoinOk (s.apply effect) joinAttempt payload point from
      ⟨hok.attempt_le, hok.unresolved, hok.identity, hok.sameBoard⟩
    by_cases hh : h' = h
    · subst hh
      obtain ⟨point₀, hpoint₀⟩ := boardJoin_of_advance hhandler hadvance hjoin
      obtain rfl := Option.some.inj (hhandler.symm.trans hpoint₀)
      obtain ⟨next', hadvance', rfl⟩ := Handler.advance_boardJoin hadvance
      rw [handlers_setHandler_self] at hjoin
      obtain ⟨_, hnext, hsame⟩ := Option.map_eq_some_iff.mp hjoin
      cases hsame
      exact (hs.join h' _ _ _ hhandler).advance hadvance' hnext
    · rw [handlers_setHandler_ne hh, handlers_apply] at hjoin
      exact hs.advance_other hhandler hadvance hh hjoin
  attempts h₁ h₂ joinAttempt payload₁ payload₂ point₁ point₂ hjoin₁ hjoin₂ := by
    obtain ⟨_, hjoin₁⟩ := boardJoin_of_advance hhandler hadvance hjoin₁
    obtain ⟨_, hjoin₂⟩ := boardJoin_of_advance hhandler hadvance hjoin₂
    exact hs.attempts h₁ h₂ _ _ _ _ _ hjoin₁ hjoin₂

/-! ### The entries -/

/-- Every entry of the socket is answered for. -/
structure EntriesCovered (s : State ρ) : Prop where
  clients : ∀ client ∈ s.clients, ClientCovered s none client
  participants : ∀ boardId ∈ s.participants, ParticipantCovered s none boardId

section covered
variable {α : Type} {ofContext : SocketBoardContext → α} {ofHandler : Handler → Option α}
  {entry : α} {except : Option ρ}

omit [DecidableEq ρ] in
theorem Covered.of_handler (hentry : (s.handlers h).bind ofHandler = some entry) :
    Covered ofContext ofHandler s none entry :=
  .inr ⟨h, Option.some_ne_none h, hentry⟩

omit [DecidableEq ρ] in
theorem Covered.of_context {context : SocketBoardContext} (hcontext : s.boardContext = some context)
    (hentry : ofContext context = entry) : Covered ofContext ofHandler s except entry :=
  .inl (by rw [hcontext, Option.map_some, hentry])

/-- An entry stays answered for when what the context and the one handler had is handed on. -/
theorem Covered.handOn (hcovered : Covered ofContext ofHandler s except entry)
    (hother : ∀ h', h' ≠ h → s'.handlers h' = s.handlers h')
    (hcontext : ∀ context, s.boardContext = some context → ofContext context = entry →
      Covered ofContext ofHandler s' none entry)
    (hself : except ≠ some h → (s.handlers h).bind ofHandler = some entry →
      Covered ofContext ofHandler s' none entry) :
    Covered ofContext ofHandler s' none entry := by
  obtain hentry | ⟨h', hexcept, hentry⟩ := hcovered
  · obtain ⟨context, hsome, hentry⟩ := Option.map_eq_some_iff.mp hentry
    exact hcontext context hsome hentry
  · by_cases hh : h' = h
    · subst hh
      exact hself hexcept.symm hentry
    · exact .of_handler (h := h') (by rw [hother h' hh, hentry])

end covered

theorem ClientCovered.advance {client : String × String} {except : Option ρ} (hs : JoinInv s)
    (hhandler : s.handlers h = some handler) (hadvance : handler.advance s answer = (effect, next))
    (hcovered : ClientCovered s except client)
    (hself : except ≠ some h → handler.client? = some client →
      ClientCovered ((s.apply effect).setHandler h next) none client) :
    ClientCovered ((s.apply effect).setHandler h next) none client := by
  refine Covered.handOn (h := h) hcovered ?_ ?_ ?_
  · intro h' hne
    rw [handlers_setHandler_ne hne, handlers_apply]
  · rintro context hcontext rfl
    obtain ⟨context', hcontext', hsame⟩ | ⟨hclient, -⟩ :=
      hs.advance_context hhandler hadvance hcontext
    · exact .of_context hcontext' hsame
    · exact .of_handler (h := h) (by rw [handlers_setHandler_self, hclient])
  · intro hexcept hclient
    rw [hhandler] at hclient
    exact hself hexcept hclient

theorem ParticipantCovered.advance {boardId : String} {except : Option ρ} (hs : JoinInv s)
    (hhandler : s.handlers h = some handler) (hadvance : handler.advance s answer = (effect, next))
    (hcovered : ParticipantCovered s except boardId) (hkept : effect ≠ .removeParticipant boardId) :
    ParticipantCovered ((s.apply effect).setHandler h next) none boardId := by
  refine Covered.handOn (h := h) hcovered ?_ ?_ ?_
  · intro h' hne
    rw [handlers_setHandler_ne hne, handlers_apply]
  · rintro context hcontext rfl
    obtain ⟨context', hcontext', hsame⟩ | ⟨-, hparticipant⟩ :=
      hs.advance_context hhandler hadvance hcontext
    · exact .of_context hcontext' (congrArg Prod.fst hsame)
    · exact .of_handler (h := h) (by rw [handlers_setHandler_self, hparticipant])
  · intro _ hparticipant
    rw [hhandler] at hparticipant
    obtain hremoved | hnext := Handler.advance_participant hadvance hparticipant
    · exact absurd hremoved hkept
    · exact .of_handler (h := h) (by rw [handlers_setHandler_self, hnext])

/-- A client in the set stays answered for by a step that leaves it there. -/
theorem EntriesCovered.advance_client (hcovered : EntriesCovered s) (hs : JoinInv s)
    (hhandler : s.handlers h = some handler) (hadvance : handler.advance s answer = (effect, next))
    (hmay : MayAdvance s h answer handler) {client : String × String} (hclient : client ∈ s.clients)
    (hkept : effect ≠ .removeClient client) :
    ClientCovered ((s.apply effect).setHandler h next) none client := by
  refine ClientCovered.advance hs hhandler hadvance (hcovered.clients client hclient) ?_
  intro _ hanswers
  obtain hremoved | hnext | ⟨context, rfl, hcontext⟩ | hgivesUp :=
    Handler.advance_client hadvance hanswers
  · exact absurd hremoved hkept
  · exact .of_handler (h := h) (by rw [handlers_setHandler_self, hnext])
  · exact .of_context rfl hcontext
  · -- the join gives up: somebody else answers for the client, and still does
    have hbeside := (hmay.givesUp hgivesUp).1 client hclient hanswers
    exact ClientCovered.advance hs hhandler hadvance hbeside (fun hne => absurd rfl hne)

omit [DecidableEq ρ] in
theorem mem_clients_apply {client : String × String} (h : client ∈ (s.apply effect).clients) :
    effect ≠ .removeClient client ∧ (client ∈ s.clients ∨ effect = .trackClient client) := by
  cases effect with
  | trackClient client' =>
    obtain rfl | hclient := List.mem_insert_iff.mp h
    · exact ⟨nofun, .inr rfl⟩
    · exact ⟨nofun, .inl hclient⟩
  | removeClient client' =>
    obtain ⟨hclient, hne⟩ := List.mem_filter.mp h
    refine ⟨?_, .inl hclient⟩
    rintro ⟨⟩
    simp at hne
  | _ => exact ⟨nofun, .inl h⟩

omit [DecidableEq ρ] in
theorem mem_participants_apply {boardId : String} (h : boardId ∈ (s.apply effect).participants) :
    effect ≠ .removeParticipant boardId ∧
      (boardId ∈ s.participants ∨ effect = .admitParticipant boardId) := by
  cases effect with
  | admitParticipant boardId' =>
    obtain rfl | hboardId := List.mem_insert_iff.mp h
    · exact ⟨nofun, .inr rfl⟩
    · exact ⟨nofun, .inl hboardId⟩
  | removeParticipant boardId' =>
    obtain ⟨hboardId, hne⟩ := List.mem_filter.mp h
    refine ⟨?_, .inl hboardId⟩
    rintro ⟨⟩
    simp at hne
  | _ => exact ⟨nofun, .inl h⟩

theorem EntriesCovered.advance (hcovered : EntriesCovered s) (hs : JoinInv s)
    (hhandler : s.handlers h = some handler) (hadvance : handler.advance s answer = (effect, next))
    (hmay : MayAdvance s h answer handler) :
    EntriesCovered ((s.apply effect).setHandler h next) where
  clients := by
    intro client hclient
    obtain ⟨hkept, hclient | rfl⟩ := mem_clients_apply hclient
    · exact hcovered.advance_client hs hhandler hadvance hmay hclient hkept
    · obtain hnext | hrefreshes := Handler.advance_trackClient hadvance
      · exact .of_handler (h := h) (by rw [handlers_setHandler_self, hnext])
      · refine ClientCovered.advance hs hhandler hadvance (hmay.refreshes client hrefreshes) ?_
        -- an activity handler answers for nothing
        intro _ hanswers
        cases handler with
        | activity _ _ => cases hanswers
        | _ => cases hrefreshes
  participants := by
    intro boardId hboardId
    obtain ⟨hkept, hboardId | rfl⟩ := mem_participants_apply hboardId
    · exact ParticipantCovered.advance hs hhandler hadvance
        (hcovered.participants boardId hboardId) hkept
    · obtain ⟨hadmits, hboardId | hfull⟩ := Handler.advance_admitParticipant hadvance
      · exact ParticipantCovered.advance hs hhandler hadvance
          (hcovered.participants boardId hboardId) hkept
      · obtain hfull' | hmay := hmay.admits
        · rw [hfull'] at hfull
          cases hfull
        · exact ParticipantCovered.advance hs hhandler hadvance (hmay boardId hadmits) hkept

/-! ### The other steps -/

/-- A handler that is no join changes nothing for the joins. -/
theorem JoinInv.setHandler (hs : JoinInv s)
    (hnext : ∀ joinAttempt payload point, next ≠ some (.boardJoin joinAttempt payload point)) :
    JoinInv (s.setHandler h next) := by
  have hbefore : ∀ {h' joinAttempt payload point},
      (s.setHandler h next).handlers h' = some (.boardJoin joinAttempt payload point) →
        s.handlers h' = some (.boardJoin joinAttempt payload point) := by
    intro h' joinAttempt payload point hjoin
    by_cases hh : h' = h
    · subst hh
      rw [handlers_setHandler_self] at hjoin
      exact absurd hjoin (hnext joinAttempt payload point)
    · rwa [handlers_setHandler_ne hh] at hjoin
  refine ⟨hs.disconnected, hs.identity, ?_, ?_⟩
  · intro h' joinAttempt payload point hjoin
    have hok := hs.join h' joinAttempt payload point (hbefore hjoin)
    exact ⟨hok.attempt_le, hok.unresolved, hok.identity, hok.sameBoard⟩
  · intro h₁ h₂ joinAttempt payload₁ payload₂ point₁ point₂ hjoin₁ hjoin₂
    exact hs.attempts h₁ h₂ _ _ _ _ _ (hbefore hjoin₁) (hbefore hjoin₂)

theorem boardJoin_of_startJoin {h' : ρ} {payload' : BoardJoinPayload}
    (hjoin : (s.startJoin h payload).handlers h' = some (.boardJoin joinAttempt payload' point)) :
    h' = h ∧ joinAttempt = s.latestJoinAttempt + 1 ∧
        (point = .resolvingIdentity ∧ s.identity = none ∨
          ∃ userId, point = .checkingAccess userId ∧ s.identity = some userId) ∨
      h' ≠ h ∧ s.handlers h' = some (.boardJoin joinAttempt payload' point) := by
  by_cases hh : h' = h
  · subst hh
    refine .inl ⟨rfl, ?_⟩
    rw [State.startJoin, handlers_setHandler_self] at hjoin
    obtain ⟨rfl, -, rfl⟩ := Handler.boardJoin.inj (Option.some.inj hjoin)
    refine ⟨rfl, ?_⟩
    cases s.identity with
    | none => exact .inl ⟨rfl, rfl⟩
    | some userId => exact .inr ⟨userId, rfl, rfl⟩
  · rw [State.startJoin, handlers_setHandler_ne hh] at hjoin
    exact .inr ⟨hh, hjoin⟩

/-- A new join is active, and no other join is any more. -/
theorem JoinInv.startJoin (hs : JoinInv s) : JoinInv (s.startJoin h payload) where
  disconnected := hs.disconnected
  identity := hs.identity
  join h' joinAttempt payload' point hjoin := by
    obtain ⟨rfl, rfl, hpoint⟩ | ⟨-, hjoin⟩ := boardJoin_of_startJoin hjoin
    · obtain ⟨rfl, hidentity⟩ | ⟨userId, rfl, hidentity⟩ := hpoint
      · exact ⟨le_refl _, fun _ _ => hidentity, nofun, nofun⟩
      · refine ⟨le_refl _, nofun, ?_, nofun⟩
        rintro _ ⟨⟩
        exact hidentity
    · have hok := hs.join h' joinAttempt payload' point hjoin
      -- the earlier attempts are below the latest now
      have hinactive : (s.startJoin h payload).isJoinActive joinAttempt = false := by
        refine Bool.and_eq_false_iff.mpr (.inr (beq_false_of_ne ?_))
        show joinAttempt ≠ s.latestJoinAttempt + 1
        have := hok.attempt_le
        omega
      exact .of_inactive (Nat.le_succ_of_le hok.attempt_le) hinactive hok.identity
  attempts h₁ h₂ joinAttempt payload₁ payload₂ point₁ point₂ hjoin₁ hjoin₂ := by
    obtain ⟨rfl, hattempt, -⟩ | ⟨-, hjoin₁⟩ := boardJoin_of_startJoin hjoin₁
    · obtain ⟨rfl, -⟩ | ⟨-, hjoin₂⟩ := boardJoin_of_startJoin hjoin₂
      · rfl
      · have := (hs.join h₂ _ _ _ hjoin₂).attempt_le
        omega
    · obtain ⟨-, hattempt, -⟩ | ⟨-, hjoin₂⟩ := boardJoin_of_startJoin hjoin₂
      · have := (hs.join h₁ _ _ _ hjoin₁).attempt_le
        omega
      · exact hs.attempts h₁ h₂ _ _ _ _ _ hjoin₁ hjoin₂

omit [DecidableEq ρ] in
/-- No join is active on a closed socket. -/
theorem JoinInv.close (hs : JoinInv s) :
    JoinInv { s with connected := false, boardContext := none } where
  disconnected _ := rfl
  identity := nofun
  join h joinAttempt payload point hjoin := by
    have hok := hs.join h joinAttempt payload point hjoin
    exact .of_inactive hok.attempt_le rfl hok.identity
  attempts := hs.attempts

theorem JoinInv.startDisconnect (hs : JoinInv s) : JoinInv (s.startDisconnect h) := by
  rw [State.startDisconnect]
  split
  · next hcontext =>
    have hclosed := hs.close
    rw [← hcontext] at hclosed
    exact hclosed
  · exact hs.close.setHandler fun _ _ _ hjoin => nomatch hjoin

/-- What starts a handler leaves who answers for an entry. -/
theorem Covered.start {α : Type} {ofContext : SocketBoardContext → α}
    {ofHandler : Handler → Option α} {entry : α}
    (hcovered : Covered ofContext ofHandler s none entry) (hfree : s.handlers h = none)
    (hother : ∀ h', h' ≠ h → s'.handlers h' = s.handlers h')
    (hcontext : ∀ context, s.boardContext = some context → ofContext context = entry →
      Covered ofContext ofHandler s' none entry) :
    Covered ofContext ofHandler s' none entry := by
  refine hcovered.handOn hother hcontext ?_
  intro _ hentry
  rw [hfree] at hentry
  cases hentry

theorem EntriesCovered.start (hcovered : EntriesCovered s) (hfree : s.handlers h = none) :
    EntriesCovered (s.setHandler h next) where
  clients client hclient :=
    Covered.start (hcovered.clients client hclient) hfree (fun _ => handlers_setHandler_ne)
      fun _ hcontext hentry => .of_context hcontext hentry
  participants boardId hboardId :=
    Covered.start (hcovered.participants boardId hboardId) hfree (fun _ => handlers_setHandler_ne)
      fun _ hcontext hentry => .of_context hcontext hentry

theorem EntriesCovered.startDisconnect (hcovered : EntriesCovered s) (hfree : s.handlers h = none) :
    EntriesCovered (s.startDisconnect h) := by
  rw [State.startDisconnect]
  split
  · exact ⟨hcovered.clients, hcovered.participants⟩
  · next context hcontext =>
    refine ⟨?_, ?_⟩
    · intro client hclient
      refine Covered.start (hcovered.clients client hclient) hfree
        (fun _ => handlers_setHandler_ne) ?_
      rintro context' hcontext' rfl
      obtain rfl := Option.some.inj (hcontext.symm.trans hcontext')
      exact .of_handler (h := h) (by rw [handlers_setHandler_self]; rfl)
    · intro boardId hboardId
      refine Covered.start (hcovered.participants boardId hboardId) hfree
        (fun _ => handlers_setHandler_ne) ?_
      rintro context' hcontext' rfl
      obtain rfl := Option.some.inj (hcontext.symm.trans hcontext')
      exact .of_handler (h := h) (by rw [handlers_setHandler_self]; rfl)

theorem Covered.end {α : Type} {ofContext : SocketBoardContext → α}
    {ofHandler : Handler → Option α} {entry : α} {except : Option ρ}
    (hcovered : Covered ofContext ofHandler s except entry)
    (hself : except ≠ some h → (s.handlers h).bind ofHandler = some entry →
      Covered ofContext ofHandler s (some h) entry) :
    Covered ofContext ofHandler (s.setHandler h none) none entry := by
  have hcontext : ∀ context, s.boardContext = some context → ofContext context = entry →
      Covered ofContext ofHandler (s.setHandler h none) none entry :=
    fun _ hcontext hentry => .of_context hcontext hentry
  refine hcovered.handOn (fun _ => handlers_setHandler_ne) hcontext ?_
  intro hexcept hentry
  exact (hself hexcept hentry).handOn (fun _ => handlers_setHandler_ne) hcontext
    (fun hne => absurd rfl hne)

theorem EntriesCovered.reject (hcovered : EntriesCovered s) (hhandler : s.handlers h = some handler)
    (hmay : MayEnd s h handler) : EntriesCovered (s.setHandler h none) where
  clients client hclient := by
    refine Covered.end (hcovered.clients client hclient) fun _ hanswers => ?_
    rw [hhandler] at hanswers
    exact hmay.1 client hclient hanswers
  participants boardId hboardId := by
    refine Covered.end (hcovered.participants boardId hboardId) fun _ hanswers => ?_
    rw [hhandler] at hanswers
    exact hmay.2 boardId hboardId hanswers

omit [DecidableEq ρ] in
theorem JoinInv.apply_removes (hs : JoinInv s) (heffect : effect.removes = true) :
    JoinInv (s.apply effect) := by
  have hok : ∀ h joinAttempt payload point,
      s.handlers h = some (.boardJoin joinAttempt payload point) →
        JoinOk (s.apply effect) joinAttempt payload point := by
    intro h joinAttempt payload point hjoin
    have hok := hs.join h joinAttempt payload point hjoin
    cases effect with
    | skip => exact hok
    | removeClient _ => exact ⟨hok.attempt_le, hok.unresolved, hok.identity, hok.sameBoard⟩
    | removeParticipant _ => exact ⟨hok.attempt_le, hok.unresolved, hok.identity, hok.sameBoard⟩
    | _ => cases heffect
  cases effect with
  | skip => exact hs
  | removeClient _ => exact ⟨hs.disconnected, hs.identity, hok, hs.attempts⟩
  | removeParticipant _ => exact ⟨hs.disconnected, hs.identity, hok, hs.attempts⟩
  | _ => cases heffect

omit [DecidableEq ρ] in
theorem EntriesCovered.apply_removes (hcovered : EntriesCovered s)
    (heffect : effect.removes = true) : EntriesCovered (s.apply effect) := by
  cases effect with
  | skip => exact hcovered
  | removeClient _ =>
    refine ⟨fun client hclient => ?_, hcovered.participants⟩
    exact hcovered.clients client (List.mem_filter.mp hclient).1
  | removeParticipant _ =>
    refine ⟨hcovered.clients, fun boardId hboardId => ?_⟩
    exact hcovered.participants boardId (List.mem_filter.mp hboardId).1
  | _ => cases heffect

/-! ### Runs -/

structure Inv (s : State ρ) : Prop where
  joins : JoinInv s
  entries : EntriesCovered s

theorem step_inv {l : Label ρ} (hs : Inv s) (hmay : EntriesStayCovered s l)
    (hstep : step s l = some s') : Inv s' := by
  cases l with
  | boardJoin h payload =>
    simp only [step, Option.ite_none_right_eq_some, Bool.and_eq_true, Option.isNone_iff_eq_none,
      Option.some.injEq] at hstep
    obtain ⟨⟨-, hfree⟩, rfl⟩ := hstep
    refine ⟨hs.joins.startJoin, ?_⟩
    have hentries : EntriesCovered { s with latestJoinAttempt := s.latestJoinAttempt + 1 } :=
      ⟨hs.entries.clients, hs.entries.participants⟩
    exact hentries.start hfree
  | activity h event boardId writes =>
    simp only [step] at hstep
    split at hstep
    · next hfree =>
      rw [Bool.and_eq_true, Option.isNone_iff_eq_none] at hfree
      split at hstep
      · exact Option.some.inj hstep ▸ hs
      · split at hstep
        · exact Option.some.inj hstep ▸ hs
        · obtain rfl := Option.some.inj hstep
          refine ⟨hs.joins.setHandler ?_, hs.entries.start hfree.2⟩
          intro _ _ _ hjoin
          cases hjoin
    · cases hstep
  | disconnect h =>
    simp only [step, Option.ite_none_right_eq_some, Bool.and_eq_true, Option.isNone_iff_eq_none,
      Option.some.injEq] at hstep
    obtain ⟨⟨-, hfree⟩, rfl⟩ := hstep
    exact ⟨hs.joins.startDisconnect, hs.entries.startDisconnect hfree⟩
  | advance h answer =>
    simp only [step] at hstep
    split at hstep
    · cases hstep
    · next handler hhandler =>
      cases hadvance : handler.advance s answer with
      | mk effect next =>
        rw [hadvance] at hstep
        obtain rfl := Option.some.inj hstep
        exact ⟨hs.joins.advance hhandler hadvance,
          hs.entries.advance hs.joins hhandler hadvance (hmay handler hhandler)⟩
  | reject h =>
    simp only [step] at hstep
    split at hstep
    · cases hstep
    · next handler hhandler =>
      obtain rfl := Option.some.inj hstep
      refine ⟨hs.joins.setHandler ?_, hs.entries.reject hhandler (hmay handler hhandler)⟩
      intro _ _ _ hjoin
      cases hjoin
  | pruneClient client =>
    obtain rfl := Option.some.inj hstep
    exact ⟨hs.joins.apply_removes rfl, hs.entries.apply_removes rfl⟩
  | pruneParticipant boardId =>
    obtain rfl := Option.some.inj hstep
    exact ⟨hs.joins.apply_removes rfl, hs.entries.apply_removes rfl⟩

omit [DecidableEq ρ] in
theorem connectedSocket_inv : Inv (connectedSocket : State ρ) where
  joins := by
    refine ⟨fun _ => rfl, ?_, ?_, ?_⟩
    · intro _ hcontext
      cases hcontext
    · intro _ _ _ _ hjoin
      cases hjoin
    · intro _ _ _ _ _ _ _ hjoin
      cases hjoin
  entries := ⟨nofun, nofun⟩

omit [DecidableEq ρ] in
theorem Covered.nobody {α : Type} {ofContext : SocketBoardContext → α}
    {ofHandler : Handler → Option α} {entry : α} (hcontext : s.boardContext = none)
    (hfinished : ∀ h, s.handlers h = none) : ¬ Covered ofContext ofHandler s none entry := by
  rintro (hentry | ⟨h, -, hentry⟩)
  · rw [hcontext] at hentry
    cases hentry
  · rw [hfinished] at hentry
    cases hentry

/-- In a run that keeps the entries covered, a disconnected socket whose handlers have finished has
    no entry. -/
theorem disconnected_leaves_nothing (h : (system ρ).ReachableUnder EntriesStayCovered s) :
    NothingLeft s := by
  have hs : Inv s := by
    refine h.invariant (I := Inv) ?_ (fun _ _ _ => step_inv)
    rintro _ rfl
    exact connectedSocket_inv
  intro hdisconnected hfinished
  have hcontext := hs.joins.disconnected hdisconnected
  refine ⟨List.eq_nil_iff_forall_not_mem.mpr ?_, List.eq_nil_iff_forall_not_mem.mpr ?_⟩
  · intro client hclient
    exact Covered.nobody hcontext hfinished (hs.entries.clients client hclient)
  · intro boardId hboardId
    exact Covered.nobody hcontext hfinished (hs.entries.participants boardId hboardId)

end step

end invariant

/-! ### Runs that leave entries -/

/-- Everybody is found, may edit, and the room has space. -/
def granted : Answer := ⟨some "user", some .edit, false⟩

def advances {ρ : Type} (h : ρ) (n : Nat) : List (Label ρ) := List.replicate n (.advance h granted)

/-- A join, an event, a join of another board in the same session, and the disconnect: nothing is
    left. -/
theorem disconnected_leaves_nothing_run :
    ∃ s : State Bool, s.connected = false ∧ (∀ h, s.handlers h = none) ∧ NothingLeft s := by
  obtain ⟨s, hs, hconnected, hfinished⟩ : ∃ s,
      (system Bool).execUnder EntriesStayCovered connectedSocket
        ([.boardJoin true ⟨"first", "session"⟩] ++ advances true 12 ++
          [.activity false .presenceUpdate "first" true] ++ advances false 3 ++
          [.boardJoin true ⟨"second", "session"⟩] ++ advances true 15 ++
          [.disconnect false] ++ advances false 4) = some s ∧
        s.connected = false ∧ ∀ h, s.handlers h = none :=
    ⟨_, rfl, rfl, by decide⟩
  exact ⟨s, hconnected, hfinished, disconnected_leaves_nothing (.execUnder (.init rfl) hs)⟩

/-- The socket closes while a join awaits `trackClient`: the disconnect finds no context, the join
    gives up, and the client stays. It closes while the join awaits `admitParticipant`: the detach
    comes before the admission, and the participant stays. It closes while an event awaits
    `touchViewerSession`: the event tracks the client after the detach. -/
theorem closed_socket_leaves_entries :
    (∃ s : State Bool,
      (system Bool).exec connectedSocket
        ([.boardJoin true ⟨"board", "session"⟩] ++ advances true 6 ++
          [.disconnect false, .advance true granted]) = some s ∧
        s.connected = false ∧ (∀ h, s.handlers h = none) ∧ s.clients = [("board", "user")]) ∧
      (∃ s : State Bool,
        (system Bool).exec connectedSocket
          ([.boardJoin true ⟨"board", "session"⟩] ++ advances true 9 ++ [.disconnect false] ++
            advances false 4 ++ advances true 2) = some s ∧
          s.connected = false ∧ (∀ h, s.handlers h = none) ∧ s.participants = ["board"]) ∧
        ∃ s : State Bool,
          (system Bool).exec connectedSocket
            ([.boardJoin true ⟨"board", "session"⟩] ++ advances true 12 ++
              [.activity true .presenceUpdate "board" true, .disconnect false] ++
                advances false 4 ++ advances true 3) = some s ∧
            s.connected = false ∧ (∀ h, s.handlers h = none) ∧ s.clients = [("board", "user")] :=
  ⟨⟨_, rfl, rfl, by decide, rfl⟩, ⟨_, rfl, rfl, by decide, rfl⟩, _, rfl, rfl, by decide, rfl⟩

end Notebortt.SocketPresence
