import Mathlib.Data.List.Perm.Basic
import Notebortt.Billing.WebhookEvents

/-! # Events of one subscription, in any order

    Stripe does not deliver the events of a subscription in the order it creates
    them. Both writers of the subscription's row overwrite its status and plan,
    and neither looks at the event's creation time. -/

open Table (DbError)

namespace Notebortt.Billing

/-! ### What an event writes -/

/-- The subscription of a subscription event. -/
def EventData.subscription? : EventData → Option Subscription
  | .subscriptionCreated s => some s
  | .subscriptionUpdated s => some s
  | .subscriptionResumed s => some s
  | .subscriptionTrialWillEnd s => some s
  | .subscriptionDeleted s => some s
  | .subscriptionPaused s => some s
  | .checkoutSessionCompleted _ => none
  | .other _ => none

/-- A subscription event about this subscription. -/
def Event.IsAbout (sid : String) (event : Event) : Prop :=
  event.data.subscription?.map Subscription.id = some sid

section system
variable (env : Env)

/-- The status and the plan an event stands for. -/
def Event.statusAndPlan (event : Event) : Option (SubscriptionStatus × BillingPlan) :=
  match event.data with
  | .subscriptionCreated s => some (s.status, planOf env s)
  | .subscriptionUpdated s => some (s.status, planOf env s)
  | .subscriptionResumed s => some (s.status, planOf env s)
  | .subscriptionTrialWillEnd s => some (s.status, planOf env s)
  | .subscriptionDeleted s => some (s.status, .free)
  | .subscriptionPaused s => some (s.status, .free)
  | .checkoutSessionCompleted _ => none
  | .other _ => none

/-- The status and the plan in the subscription's row. -/
def statusAndPlan (sid : String) (db : Db) : Option (SubscriptionStatus × BillingPlan) :=
  (db.subscriptions.find? fun r => r.stripeSubscriptionId == sid).map fun r => (r.status, r.plan)

def deliverAll (db : Db) (order : List Delivery) : Db :=
  order.foldl (fun db d => (d.run env db).2) db

/-- The event a delivery processes: it is not recorded, none of its statements is refused, and the
    delivery does not stop before the last of them. -/
def Delivery.processed? (db : Db) (d : Delivery) : Option Event :=
  d.request.event?.filter fun event =>
    event.id ∉ db.webhookEvents ∧ EffectAccepted env db event ∧
      ∀ n ∈ d.stopsAfter, effectSteps event + 1 ≤ n

/-- The last event processed. -/
def lastProcessed (db : Db) : List Delivery → Option Event
  | [] => none
  | d :: order => (lastProcessed (d.run env db).2 order).or (d.processed? env db)

/-- Every delivery processes its event. -/
def EachProcessed (db : Db) : List Delivery → Prop
  | [] => True
  | d :: order => (d.processed? env db).isSome = true ∧ EachProcessed (d.run env db).2 order

/-! ### The most recently created event -/

def eventsOf (order : List Delivery) : List Event := order.filterMap fun d => d.request.event?

structure MostRecent (events : List Event) (recent : Event) : Prop where
  mem : recent ∈ events
  created_le : ∀ event ∈ events, event.created ≤ recent.created

/-- Each event is delivered once, and none of the deliveries stops. -/
structure Delivers (events : List Event) (order : List Delivery) : Prop where
  perm : (eventsOf order).Perm events
  signed : ∀ d ∈ order, d.request.event?.isSome = true
  undisturbed : ∀ d ∈ order, d.stopsAfter = none

def EndsWithMostRecent (sid : String) (db : Db) (order : List Delivery) : Prop :=
  ∀ recent, MostRecent (eventsOf order) recent →
    statusAndPlan sid (deliverAll env db order) = recent.statusAndPlan env

/-- The last event processed stands for the same status and plan as the most recently created one;
    when none is processed, the row has them already. -/
def LastIsMostRecent (sid : String) (db : Db) (order : List Delivery) : Prop :=
  ∀ recent, MostRecent (eventsOf order) recent →
    match lastProcessed env db order with
    | some last => last.statusAndPlan env = recent.statusAndPlan env
    | none => statusAndPlan sid db = recent.statusAndPlan env

end system

section writes
variable {env : Env} {sid : String}

/-! ### One delivery -/

/-- A statement that writes this status and this plan to the subscription's row. -/
theorem onSubscriptions_statusAndPlan {s : Subscription} (hsid : s.id = sid)
    {set : SubscriptionRow → SubscriptionRow} {row : SubscriptionRow}
    {v : Option (SubscriptionStatus × BillingPlan)} {written : SubscriptionStatus × BillingPlan}
    (hset : ∀ r, isRowOf s r = true →
      isRowOf s (set r) = true ∧ ((set r).status, (set r).plan) = written)
    (hrow : isRowOf s row = true ∧ (row.status, row.plan) = written) :
    Call.Triple (fun db => statusAndPlan sid db = v)
      (onSubscriptions (Table.upsert (subscriptionConstraints env) (isRowOf s) set row))
      (fun _ db => statusAndPlan sid db = some written) (fun db => statusAndPlan sid db = v) := by
  refine onSubscriptions_triple (fun _ h => h) ?_
  intro db rows _ hrows
  subst hsid
  exact Table.map_find?_upsert (fun r => (r.status, r.plan)) hset hrow hrows

theorem upsertSubscription_statusAndPlan {s : Subscription} (hsid : s.id = sid) (now : Nat)
    {v : Option (SubscriptionStatus × BillingPlan)} :
    Call.Triple (fun db => statusAndPlan sid db = v) (upsertSubscription env s now)
      (fun _ db => statusAndPlan sid db = some (s.status, planOf env s))
      (fun db => statusAndPlan sid db = v) := by
  have hlink : Call.Triple (fun db => statusAndPlan sid db = v)
      (upsertCustomerLink env s.customer (getSubscriptionUserId s) (getSubscriptionOrganizationId s)
        none)
      (fun _ db => statusAndPlan sid db = v) (fun db => statusAndPlan sid db = v) :=
    onLinks_triple (fun _ h => h) fun _ _ h _ => h
  refine .bind hlink fun _ => onSubscriptions_statusAndPlan hsid ?_ ?_
  · exact fun r _ => ⟨beq_iff_eq.mpr rfl, rfl⟩
  · exact ⟨beq_iff_eq.mpr rfl, rfl⟩

theorem markSubscriptionCanceled_statusAndPlan {s : Subscription} (hsid : s.id = sid) (now : Nat)
    {v : Option (SubscriptionStatus × BillingPlan)} :
    Call.Triple (fun db => statusAndPlan sid db = v) (markSubscriptionCanceled env s now)
      (fun _ db => statusAndPlan sid db = some (s.status, .free))
      (fun db => statusAndPlan sid db = v) := by
  refine onSubscriptions_statusAndPlan hsid ?_ ?_
  · exact fun r hr => ⟨hr, rfl⟩
  · exact ⟨beq_iff_eq.mpr rfl, rfl⟩

/-- The effect of an event writes its status and its plan when it gets to its end, and leaves those
    of the row else. -/
theorem dispatch_statusAndPlan (env : Env) {event : Event} (habout : event.IsAbout sid) (now : Nat)
    {v : Option (SubscriptionStatus × BillingPlan)} :
    Call.Triple (fun db => statusAndPlan sid db = v) (dispatch env event now)
      (fun _ db => statusAndPlan sid db = event.statusAndPlan env)
      (fun db => statusAndPlan sid db = v) := by
  unfold Event.IsAbout at habout
  unfold dispatch Event.statusAndPlan
  cases hdata : event.data with
  | checkoutSessionCompleted session =>
    rw [hdata] at habout
    cases habout
  | other type =>
    rw [hdata] at habout
    cases habout
  | subscriptionCreated s | subscriptionUpdated s | subscriptionResumed s
  | subscriptionTrialWillEnd s =>
    rw [hdata] at habout
    exact upsertSubscription_statusAndPlan (Option.some.inj habout) now
  | subscriptionDeleted s | subscriptionPaused s =>
    rw [hdata] at habout
    exact markSubscriptionCanceled_statusAndPlan (Option.some.inj habout) now

theorem Delivery.processed?_of_event {d : Delivery} {event : Event} (db : Db)
    (hevent : d.request.event? = some event) :
    d.processed? env db =
      if event.id ∉ db.webhookEvents ∧ EffectAccepted env db event ∧
        ∀ n ∈ d.stopsAfter, effectSteps event + 1 ≤ n then some event else none := by
  simp only [Delivery.processed?, hevent, Option.filter_some, decide_eq_true_eq]

/-- The step lemma: the row has the status and the plan of the event the delivery processes. -/
theorem Delivery.run_statusAndPlan {db : Db} (h : TablesHold env db) (d : Delivery)
    (habout : ∀ event ∈ d.request.event?, event.IsAbout sid) :
    statusAndPlan sid (d.run env db).2 =
      ((d.processed? env db).map fun event => event.statusAndPlan env).getD
        (statusAndPlan sid db) := by
  cases hevent : d.request.event? with
  | none =>
    obtain ⟨e, hrun⟩ := handleWebhook_no_event env d.now hevent ⟨db, d.stopsAfter⟩
    simp only [Delivery.run, hrun, Delivery.processed?, hevent]
    rfl
  | some event =>
    rw [d.processed?_of_event db hevent]
    simp only [Delivery.run, handleWebhook_event d.now hevent]
    by_cases hstop : d.stopsAfter = some 0
    · rw [hstop, processEvent_stopped, if_neg (by simp)]
      rfl
    by_cases hrecorded : event.id ∈ db.webhookEvents
    · rw [processEvent_recorded hrecorded hstop, if_neg fun hc => hc.1 hrecorded,
        (answer_store _ _).1]
      rfl
    have hends : Ends (dispatch env event d.now) (EffectAccepted env db event) (effectSteps event)
        (recorded db event) (d.stopsAfter.map (· - 1)) :=
      dispatch_ends (h.recorded event) event d.now
    have hsteps : (∀ n ∈ d.stopsAfter, effectSteps event + 1 ≤ n) ↔
        Lives (effectSteps event) (d.stopsAfter.map (· - 1)) :=
      (lives_succ_iff (lives_one_iff.mpr hstop)).symm
    have hwrites := dispatch_statusAndPlan env (habout event hevent) d.now
      ⟨recorded db event, d.stopsAfter.map (· - 1)⟩ rfl
    by_cases hdone : EffectAccepted env db event ∧ ∀ n ∈ d.stopsAfter, effectSteps event + 1 ≤ n
    · obtain ⟨db', hrun⟩ := hends.returns hdone.1 (hsteps.mp hdone.2)
      rw [hrun] at hwrites
      rw [(processEvent_returns hrecorded hstop hrun).1, if_pos ⟨hrecorded, hdone⟩]
      exact hwrites
    · obtain ⟨e, w, hrun⟩ := hends.breaks (by rwa [← hsteps])
      rw [hrun] at hwrites
      rw [processEvent_breaks hrecorded hstop hrun, if_neg fun hc => hdone hc.2]
      exact hwrites

/-! ### Any order of deliveries -/

/-- The run lemma. -/
theorem deliverAll_statusAndPlan {order : List Delivery} :
    ∀ {db : Db}, TablesHold env db → (∀ event ∈ eventsOf order, event.IsAbout sid) →
      statusAndPlan sid (deliverAll env db order) =
        ((lastProcessed env db order).map fun event => event.statusAndPlan env).getD
          (statusAndPlan sid db) := by
  induction order with
  | nil => exact fun _ _ => rfl
  | cons d order ih =>
    intro db h habout
    have hhead : ∀ event ∈ d.request.event?, event.IsAbout sid :=
      fun event hevent => habout event (List.mem_filterMap.mpr ⟨d, List.mem_cons_self, hevent⟩)
    have htail : ∀ event ∈ eventsOf order, event.IsAbout sid := by
      intro event hevent
      obtain ⟨d', hd', hevent'⟩ := List.mem_filterMap.mp hevent
      exact habout event (List.mem_filterMap.mpr ⟨d', List.mem_cons_of_mem d hd', hevent'⟩)
    show statusAndPlan sid (deliverAll env (d.run env db).2 order) = _
    rw [ih (h.run d) htail, d.run_statusAndPlan h hhead, lastProcessed]
    cases lastProcessed env (d.run env db).2 order <;> rfl

theorem endsWithMostRecent_iff {db : Db} {order : List Delivery} (h : TablesHold env db)
    (habout : ∀ event ∈ eventsOf order, event.IsAbout sid) :
    EndsWithMostRecent env sid db order ↔ LastIsMostRecent env sid db order := by
  refine forall₂_congr fun recent _ => ?_
  rw [deliverAll_statusAndPlan h habout]
  cases lastProcessed env db order <;> exact Iff.rfl

/-- When every delivery processes its event, the last one processed is the last one delivered. -/
theorem lastProcessed_of_eachProcessed {order : List Delivery} {d : Delivery} {event : Event}
    (hevent : d.request.event? = some event) :
    ∀ {db : Db}, EachProcessed env db (order ++ [d]) →
      lastProcessed env db (order ++ [d]) = some event := by
  induction order with
  | nil =>
    intro db h
    obtain ⟨hsome, -⟩ := h
    rw [d.processed?_of_event db hevent] at hsome
    show (d.processed? env db) = some event
    rw [d.processed?_of_event db hevent]
    split at hsome
    · next hc => rw [if_pos hc]
    · cases hsome
  | cons d' order ih =>
    intro db h
    obtain ⟨-, hrest⟩ := h
    show (lastProcessed env _ (order ++ [d])).or _ = some event
    rw [ih hrest]
    rfl

theorem eventsOf_deliver (events : List Event) :
    eventsOf (events.map fun event => deliver event none) = events := by
  rw [eventsOf, List.filterMap_map]
  exact List.filterMap_some

theorem delivers_deliver {events order : List Event} (h : order.Perm events) :
    Delivers events (order.map fun event => deliver event none) := by
  refine ⟨?_, ?_, ?_⟩
  · rwa [eventsOf_deliver]
  · intro d hd
    obtain ⟨event, -, rfl⟩ := List.mem_map.mp hd
    rfl
  · intro d hd
    obtain ⟨event, -, rfl⟩ := List.mem_map.mp hd
    rfl

theorem MostRecent.perm {events events' : List Event} {recent : Event}
    (h : MostRecent events recent) (hperm : events.Perm events') : MostRecent events' recent :=
  ⟨hperm.mem_iff.mp h.mem, fun event hevent => h.created_le event (hperm.mem_iff.mpr hevent)⟩

/-- Any event may be delivered last: when none is refused, all orders end with the most recently
    created event exactly when all events stand for the same status and plan. -/
theorem everyOrderEndsWithMostRecent_iff {db : Db} {events : List Event} (h : TablesHold env db)
    (habout : ∀ event ∈ events, event.IsAbout sid)
    (hprocessed : ∀ order, Delivers events order → EachProcessed env db order) :
    (∀ order, Delivers events order → EndsWithMostRecent env sid db order) ↔
      ∀ recent, MostRecent events recent →
        ∀ event ∈ events, event.statusAndPlan env = recent.statusAndPlan env := by
  have habout' : ∀ order, Delivers events order → ∀ event ∈ eventsOf order, event.IsAbout sid :=
    fun order hd event hevent => habout event (hd.perm.mem_iff.mp hevent)
  constructor
  · intro hends recent hrecent event hevent
    -- an order that delivers this event last ends with its status and plan
    let order : List Delivery := (events.erase event).map fun event => deliver event none
    have hperm : (events.erase event ++ [event]).Perm events :=
      (List.perm_append_singleton event _).trans (List.perm_cons_erase hevent).symm
    have hd : Delivers events (order ++ [deliver event none]) := by
      have hd := delivers_deliver hperm
      rwa [List.map_append] at hd
    have hlast : lastProcessed env db (order ++ [deliver event none]) = some event :=
      lastProcessed_of_eachProcessed rfl (hprocessed _ hd)
    have hiff := (endsWithMostRecent_iff h (habout' _ hd)).mp (hends _ hd) recent
      (hrecent.perm hd.perm.symm)
    rwa [hlast] at hiff
  · intro hall order hd
    refine (endsWithMostRecent_iff h (habout' _ hd)).mpr fun recent hrecent => ?_
    have hrecent' : MostRecent events recent := hrecent.perm hd.perm
    obtain rfl | ⟨first, d, rfl⟩ := order.eq_nil_or_concat'
    · cases hrecent.mem
    · have hmem : d ∈ first ++ [d] := List.mem_append_right first (List.mem_singleton.mpr rfl)
      obtain ⟨event, hevent⟩ := Option.isSome_iff_exists.mp (hd.signed d hmem)
      rw [lastProcessed_of_eachProcessed hevent (hprocessed _ hd)]
      have hevent' : event ∈ eventsOf (first ++ [d]) := List.mem_filterMap.mpr ⟨d, hmem, hevent⟩
      exact hall recent hrecent' event (hd.perm.mem_iff.mp hevent')

/-! ### Events of one owner -/

/-- New events about one customer and one user, whom the customer may be linked to. -/
structure SameOwner (env : Env) (db : Db) (customerId : String) (userId : Option String)
    (events : List Event) : Prop where
  owner : ∀ event ∈ events, ∃ s, event.data.subscription? = some s ∧ s.customer = customerId ∧
    getSubscriptionUserId s = userId
  accepted : LinkAccepted env db.links customerId userId
  fresh : ∀ event ∈ events, event.id ∉ db.webhookEvents
  distinct : (events.map Event.id).Nodup

theorem effectAccepted_of_owner {db : Db} {s : Subscription} {event : Event}
    (hs : event.data.subscription? = some s)
    (h : LinkAccepted env db.links s.customer (getSubscriptionUserId s)) :
    EffectAccepted env db event := by
  unfold EffectAccepted
  cases hdata : event.data with
  | checkoutSessionCompleted session | other type =>
    rw [hdata] at hs
    cases hs
  | subscriptionCreated s' | subscriptionUpdated s' | subscriptionResumed s'
  | subscriptionTrialWillEnd s' =>
    rw [hdata] at hs
    obtain rfl := Option.some.inj hs
    exact h
  | subscriptionDeleted s' | subscriptionPaused s' =>
    rw [hdata] at hs
    obtain rfl := Option.some.inj hs
    exact .inr h.1

/-- Linking the customer to the user leaves them linkable. -/
theorem upsertCustomerLink_linkAccepted {customerId : String}
    {userId organizationId : Option String} :
    Call.Triple (fun db => LinkAccepted env db.links customerId userId)
      (upsertCustomerLink env customerId userId organizationId none)
      (fun _ db => LinkAccepted env db.links customerId userId)
      (fun db => LinkAccepted env db.links customerId userId) := by
  refine onLinks_triple (fun _ h => h) ?_
  intro db links h hlinks
  refine ⟨h.1, ?_⟩
  intro l hl hsome heq
  obtain ⟨hl, -⟩ | rfl | ⟨l₀, -, htarget, rfl⟩ := Table.mem_upsert hlinks hl
  · exact h.2 l hl hsome heq
  · rfl
  · exact beq_iff_eq.mp htarget

theorem onSubscriptions_linkAccepted {customerId : String} {userId : Option String}
    {f : List SubscriptionRow → Except DbError (List SubscriptionRow)} :
    Call.Triple (fun db => LinkAccepted env db.links customerId userId) (onSubscriptions f)
      (fun _ db => LinkAccepted env db.links customerId userId)
      (fun db => LinkAccepted env db.links customerId userId) :=
  onSubscriptions_triple (fun _ h => h) fun _ _ h _ => h

theorem dispatch_linkAccepted (env : Env) {s : Subscription} {event : Event} (now : Nat)
    (hs : event.data.subscription? = some s) :
    Call.Triple (fun db => LinkAccepted env db.links s.customer (getSubscriptionUserId s))
      (dispatch env event now)
      (fun _ db => LinkAccepted env db.links s.customer (getSubscriptionUserId s))
      (fun db => LinkAccepted env db.links s.customer (getSubscriptionUserId s)) := by
  unfold dispatch
  cases hdata : event.data with
  | checkoutSessionCompleted session | other type =>
    rw [hdata] at hs
    cases hs
  | subscriptionCreated s' | subscriptionUpdated s' | subscriptionResumed s'
  | subscriptionTrialWillEnd s' =>
    rw [hdata] at hs
    obtain rfl := Option.some.inj hs
    exact .bind upsertCustomerLink_linkAccepted fun _ => onSubscriptions_linkAccepted
  | subscriptionDeleted s' | subscriptionPaused s' => exact onSubscriptions_linkAccepted

/-- A delivery that processes its event leaves the events after it acceptable. -/
theorem SameOwner.run {db : Db} {customerId : String} {userId : Option String} {events : List Event}
    {d : Delivery} {event : Event} (h : SameOwner env db customerId userId (event :: events))
    (htables : TablesHold env db) (hevent : d.request.event? = some event)
    (hstops : d.stopsAfter = none) : SameOwner env (d.run env db).2 customerId userId events := by
  obtain ⟨s, hs, rfl, rfl⟩ := h.owner event List.mem_cons_self
  have hfresh : event.id ∉ db.webhookEvents := h.fresh event List.mem_cons_self
  have hgo : d.stopsAfter ≠ some 0 := by rw [hstops]; simp
  have hevents : (d.run env db).2.webhookEvents = db.webhookEvents ++ [event.id] := by
    simp only [Delivery.run, handleWebhook_event d.now hevent]
    exact (processEvent_first d.now htables hfresh hgo).2.1
  refine ⟨fun event' hevent' => h.owner event' (List.mem_cons_of_mem event hevent'), ?_, ?_,
    (List.nodup_cons.mp h.distinct).2⟩
  · refine Delivery.run_of_dispatch
      (P := fun db => LinkAccepted env db.links s.customer (getSubscriptionUserId s))
      (fun db _ _ haccepted => haccepted) ?_ h.accepted
    intro event' hevent' _
    obtain rfl : event = event' := Option.some.inj (hevent.symm.trans hevent')
    exact dispatch_linkAccepted env d.now hs
  · intro event' hevent' hrecorded
    obtain hold | hnew := List.mem_append.mp (hevents ▸ hrecorded)
    · exact h.fresh event' (List.mem_cons_of_mem event hevent') hold
    · refine (List.nodup_cons.mp h.distinct).1 ?_
      rw [← List.mem_singleton.mp hnew]
      exact List.mem_map_of_mem hevent'

/-- None of the events is refused, in any order. -/
theorem eachProcessed_of_sameOwner {customerId : String} {userId : Option String}
    {order : List Delivery} (hsigned : ∀ d ∈ order, d.request.event?.isSome = true)
    (hundisturbed : ∀ d ∈ order, d.stopsAfter = none) :
    ∀ {db : Db}, TablesHold env db → SameOwner env db customerId userId (eventsOf order) →
      EachProcessed env db order := by
  induction order with
  | nil => exact fun _ _ => trivial
  | cons d order ih =>
    intro db htables h
    obtain ⟨event, hevent⟩ := Option.isSome_iff_exists.mp (hsigned d List.mem_cons_self)
    have hstops : d.stopsAfter = none := hundisturbed d List.mem_cons_self
    have hevents : eventsOf (d :: order) = event :: eventsOf order :=
      List.filterMap_cons_some hevent
    rw [hevents] at h
    obtain ⟨s, hs, rfl, rfl⟩ := h.owner event List.mem_cons_self
    refine ⟨?_, ih (fun d' hd' => hsigned d' (List.mem_cons_of_mem d hd'))
      (fun d' hd' => hundisturbed d' (List.mem_cons_of_mem d hd')) (htables.run d)
      (h.run htables hevent hstops)⟩
    rw [d.processed?_of_event db hevent, if_pos ⟨h.fresh event List.mem_cons_self,
      effectAccepted_of_owner hs h.accepted, by simp [hstops]⟩]
    rfl

theorem SameOwner.perm {db : Db} {customerId : String} {userId : Option String}
    {events events' : List Event} (h : SameOwner env db customerId userId events)
    (hperm : events'.Perm events) : SameOwner env db customerId userId events' :=
  ⟨fun event hevent => h.owner event (hperm.mem_iff.mp hevent), h.accepted,
    fun event hevent => h.fresh event (hperm.mem_iff.mp hevent),
    (hperm.map Event.id).nodup_iff.mpr h.distinct⟩

variable (env)

/-- A delivery order ends with the status and the plan of the most recently created event exactly
    when the last event processed stands for the same; all orders of a set of events do, as long as
    none is refused, exactly when all its events stand for the same. -/
theorem ends_with_most_recent_iff :
    (∀ sid db order, TablesHold env db → (∀ event ∈ eventsOf order, event.IsAbout sid) →
      (EndsWithMostRecent env sid db order ↔ LastIsMostRecent env sid db order)) ∧
    (∀ sid db events, TablesHold env db → (∀ event ∈ events, event.IsAbout sid) →
      (∀ order, Delivers events order → EachProcessed env db order) →
      ((∀ order, Delivers events order → EndsWithMostRecent env sid db order) ↔
        ∀ recent, MostRecent events recent →
          ∀ event ∈ events, event.statusAndPlan env = recent.statusAndPlan env)) :=
  ⟨fun _ _ _ h habout => endsWithMostRecent_iff h habout,
    fun _ _ _ h habout hprocessed => everyOrderEndsWithMostRecent_iff h habout hprocessed⟩

end writes

/-! ### A subscription created and deleted -/

def startupSubscription (status : SubscriptionStatus) : Subscription :=
  { id := "sub", customer := "cus", status := status, metadata := {}
    items := [⟨"price_startup", some 100⟩], trialEnd := none, cancelAtPeriodEnd := false,
    created := 1 }

def subscriptionCreated : Event :=
  ⟨"evt_created", 1, .subscriptionCreated (startupSubscription .active)⟩

def subscriptionUpdated : Event :=
  ⟨"evt_updated", 2, .subscriptionUpdated (startupSubscription .active)⟩

def subscriptionDeleted : Event :=
  ⟨"evt_deleted", 3, .subscriptionDeleted (startupSubscription .canceled)⟩

theorem nothingSold_tablesHold : TablesHold buyers nothingSold :=
  ⟨nothingSold_init.links, nothingSold_init.subscriptions⟩

/-- Deleted is processed last; and created and updated may come in any order. -/
theorem ends_with_most_recent_iff_run :
    EndsWithMostRecent buyers "sub" nothingSold
      [deliver subscriptionCreated none, deliver subscriptionDeleted none] ∧
    ∀ order, Delivers [subscriptionCreated, subscriptionUpdated] order →
      EndsWithMostRecent buyers "sub" nothingSold order := by
  constructor
  · refine ((ends_with_most_recent_iff buyers).1 "sub" nothingSold _
      nothingSold_tablesHold ?_).mpr ?_
    · show ∀ event ∈ [subscriptionCreated, subscriptionDeleted], event.IsAbout "sub"
      simp [Event.IsAbout, subscriptionCreated, subscriptionDeleted, EventData.subscription?,
        startupSubscription]
    · intro recent hrecent
      have hmem : recent ∈ [subscriptionCreated, subscriptionDeleted] := hrecent.mem
      have hle : subscriptionDeleted.created ≤ recent.created :=
        hrecent.created_le subscriptionDeleted (List.mem_cons_of_mem _ List.mem_cons_self)
      obtain rfl | rfl : recent = subscriptionCreated ∨ recent = subscriptionDeleted := by
        simpa using hmem
      · exact absurd hle (by decide)
      · rfl
  · refine ((ends_with_most_recent_iff buyers).2 "sub" nothingSold _ nothingSold_tablesHold
      ?_ ?_).mpr ?_
    · simp [Event.IsAbout, subscriptionCreated, subscriptionUpdated, EventData.subscription?,
        startupSubscription]
    · intro order hd
      have howner : SameOwner buyers nothingSold "cus" none
          [subscriptionCreated, subscriptionUpdated] := by
        refine ⟨?_, by decide, by decide, by decide⟩
        simp [subscriptionCreated, subscriptionUpdated, EventData.subscription?,
          startupSubscription, getSubscriptionUserId]
      exact eachProcessed_of_sameOwner hd.signed hd.undisturbed nothingSold_tablesHold
        (howner.perm hd.perm)
    · intro recent hrecent event hevent
      have hall : ∀ event ∈ [subscriptionCreated, subscriptionUpdated],
          event.statusAndPlan buyers = some (.active, .startup) := by decide
      rw [hall event hevent, hall recent hrecent.mem]

/-- The deletion arrives before the creation: the row ends active, with the plan. -/
theorem late_creation_resurrects :
    statusAndPlan "sub" (deliverAll buyers nothingSold
      [deliver subscriptionDeleted none, deliver subscriptionCreated none]) =
        some (.active, .startup) ∧
    statusAndPlan "sub" (deliverAll buyers nothingSold
      [deliver subscriptionCreated none, deliver subscriptionDeleted none]) =
        some (.canceled, .free) ∧
    ¬ EndsWithMostRecent buyers "sub" nothingSold
      [deliver subscriptionDeleted none, deliver subscriptionCreated none] := by
  refine ⟨rfl, rfl, ?_⟩
  intro h
  have hends := h subscriptionDeleted ⟨List.mem_cons_self, by decide⟩
  cases hends

end Notebortt.Billing
