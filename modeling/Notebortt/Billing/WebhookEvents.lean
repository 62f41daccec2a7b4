import Notebortt.Billing.Stripe
import Notebortt.Lib.Transition

/-! # Deliveries of webhook events

    Stripe delivers an event again when a delivery failed. `handleWebhook`
    records the event before it carries out the effect, in statements of their
    own, so what a redelivery does depends on where the first one stopped. -/

open Table (DbError Constraints)
open Transition

namespace Notebortt.Billing

/-! ### Deliveries -/

/-- One delivery: the request, the clock, and where it stops. -/
structure Delivery where
  request : WebhookRequest
  now : Nat
  stopsAfter : Option Nat

/-- The event of a request that passes the signature check. -/
def WebhookRequest.event? (request : WebhookRequest) : Option Event :=
  if !request.configured then none
  else if (request.signature.filter (· ≠ "")).isNone then none
  else request.constructEvent.toOption

/-- A signed delivery of an event. -/
def deliver (event : Event) (stopsAfter : Option Nat) : Delivery :=
  ⟨⟨true, some "signature", .ok event⟩, 0, stopsAfter⟩

@[simp] theorem event?_deliver (event : Event) (stopsAfter : Option Nat) :
    (deliver event stopsAfter).request.event? = some event := rfl

section system
variable (env : Env)

/-- The answer of a delivery, and the tables it leaves. -/
def Delivery.run (d : Delivery) (db : Db) : Except (Call.Failure BillingError) Bool × Db :=
  let result := handleWebhook env d.request d.now ⟨db, d.stopsAfter⟩
  (result.1, result.2.store)

/-- The constraints of the tables hold, and no event was delivered. -/
structure Init (db : Db) : Prop where
  links : (linkConstraints env).Holds db.links
  subscriptions : (subscriptionConstraints env).Holds db.subscriptions
  webhookEvents : db.webhookEvents = []
  processed : db.processed = []

def system : System Db Delivery where
  init := Init env
  step := fun db d => some (d.run env db).2

/-- An event is answered normally only once its effect is carried out, and as a duplicate only when
    an earlier delivery has carried it out. -/
def AnswersProcessed (db : Db) : Prop :=
  ∀ (d : Delivery) (event : Event) (duplicate : Bool), d.request.event? = some event →
    (d.run env db).1 = .ok duplicate →
      event.id ∈ (d.run env db).2.processed ∧ (duplicate = true → event.id ∈ db.processed)

/-! ### The condition -/

/-- The row of a customer may get this user: a user there is, and linked to no other customer. -/
def LinkAccepted (links : List CustomerLink) (customerId : String) (userId : Option String) :
    Prop :=
  userId.all env.hasUser = true ∧
    ∀ l ∈ links, l.userId.isSome = true → l.userId = userId → l.stripeCustomerId = customerId

instance (links : List CustomerLink) (customerId : String) (userId : Option String) :
    Decidable (LinkAccepted env links customerId userId) :=
  inferInstanceAs (Decidable (_ ∧ _))

/-- No statement of the event's effect is refused. -/
def EffectAccepted (db : Db) (event : Event) : Prop :=
  match event.data with
  | .checkoutSessionCompleted session =>
    match session.customer with
    | some customerId =>
      LinkAccepted env db.links customerId (session.metadata.bind Metadata.userId)
    | none => True
  | .subscriptionCreated s => LinkAccepted env db.links s.customer (getSubscriptionUserId s)
  | .subscriptionUpdated s => LinkAccepted env db.links s.customer (getSubscriptionUserId s)
  | .subscriptionResumed s => LinkAccepted env db.links s.customer (getSubscriptionUserId s)
  | .subscriptionTrialWillEnd s => LinkAccepted env db.links s.customer (getSubscriptionUserId s)
  | .subscriptionDeleted s =>
    db.subscriptions.any (isRowOf s) = true ∨ (getSubscriptionUserId s).all env.hasUser = true
  | .subscriptionPaused s =>
    db.subscriptions.any (isRowOf s) = true ∨ (getSubscriptionUserId s).all env.hasUser = true
  | .other _ => True

instance (db : Db) : (event : Event) → Decidable (EffectAccepted env db event)
  | ⟨_, _, .checkoutSessionCompleted ⟨some customerId, metadata, _⟩⟩ =>
    inferInstanceAs
      (Decidable (LinkAccepted env db.links customerId (metadata.bind Metadata.userId)))
  | ⟨_, _, .checkoutSessionCompleted ⟨none, _, _⟩⟩ => inferInstanceAs (Decidable True)
  | ⟨_, _, .subscriptionCreated s⟩ =>
    inferInstanceAs (Decidable (LinkAccepted env db.links s.customer (getSubscriptionUserId s)))
  | ⟨_, _, .subscriptionUpdated s⟩ =>
    inferInstanceAs (Decidable (LinkAccepted env db.links s.customer (getSubscriptionUserId s)))
  | ⟨_, _, .subscriptionResumed s⟩ =>
    inferInstanceAs (Decidable (LinkAccepted env db.links s.customer (getSubscriptionUserId s)))
  | ⟨_, _, .subscriptionTrialWillEnd s⟩ =>
    inferInstanceAs (Decidable (LinkAccepted env db.links s.customer (getSubscriptionUserId s)))
  | ⟨_, _, .subscriptionDeleted s⟩ =>
    inferInstanceAs (Decidable (_ = true ∨ (getSubscriptionUserId s).all env.hasUser = true))
  | ⟨_, _, .subscriptionPaused s⟩ =>
    inferInstanceAs (Decidable (_ = true ∨ (getSubscriptionUserId s).all env.hasUser = true))
  | ⟨_, _, .other _⟩ => inferInstanceAs (Decidable True)

/-- How many statements the effect takes. -/
def effectSteps (event : Event) : Nat :=
  match event.data with
  | .checkoutSessionCompleted session => if session.customer.isSome then 1 else 0
  | .subscriptionCreated _ => 2
  | .subscriptionUpdated _ => 2
  | .subscriptionResumed _ => 2
  | .subscriptionTrialWillEnd _ => 2
  | .subscriptionDeleted _ => 1
  | .subscriptionPaused _ => 1
  | .other _ => 0

/-- The step condition: the delivery that records an event gets to the end of its effect. -/
def EffectFollows (db : Db) (d : Delivery) : Prop :=
  ∀ event ∈ d.request.event?, event.id ∉ db.webhookEvents → d.stopsAfter ≠ some 0 →
    EffectAccepted env db event ∧ ∀ n ∈ d.stopsAfter, effectSteps event < n

instance (db : Db) (d : Delivery) : Decidable (EffectFollows env db d) :=
  inferInstanceAs (Decidable (∀ event ∈ d.request.event?, _ → _ → _ ∧ ∀ n ∈ d.stopsAfter, _))

end system

/-! ### The statements -/

section statements
variable {env : Env}

/-- The upsert of a link is refused exactly when the user may not be linked to the customer. -/
theorem upsertLink_isOk_iff {links : List CustomerLink} (h : (linkConstraints env).Holds links)
    {customerId : String} {userId organizationId email : Option String} :
    (∃ links', Table.upsert (linkConstraints env) (fun l => l.stripeCustomerId == customerId)
      (fun l => { l with userId := userId, organizationId := organizationId, email := email })
      { stripeCustomerId := customerId, userId := userId, organizationId := organizationId
        email := email } links = .ok links') ↔ LinkAccepted env links customerId userId := by
  rw [h.upsert_isOk_iff]
  · -- inserted or updated, the row written has the customer and the user
    generalize hl : Table.upserted (fun l => l.stripeCustomerId == customerId) (fun l =>
      { l with userId := userId, organizationId := organizationId, email := email })
      { stripeCustomerId := customerId, userId := userId, organizationId := organizationId
        email := email } links = l
    obtain ⟨rfl, rfl⟩ : l.stripeCustomerId = customerId ∧ l.userId = userId := by
      rw [← hl]
      exact Table.upserted_cases
        (P := fun l : CustomerLink => l.stripeCustomerId = customerId ∧ l.userId = userId)
        ⟨rfl, rfl⟩ fun _ _ hid => ⟨beq_iff_eq.mp hid, rfl⟩
    constructor
    · rintro ⟨-, huser, hclash⟩
      refine ⟨huser, ?_⟩
      intro l' hl' hsome heq
      by_contra hne
      have hfree := hclash l' hl' (beq_false_of_ne hne)
      rw [heq] at hsome
      simp [linkConstraints, hsome, heq] at hfree
    · rintro ⟨huser, hother⟩
      refine ⟨rfl, huser, ?_⟩
      intro l' hl' hne
      have hid : l'.stripeCustomerId ≠ l.stripeCustomerId := ne_of_beq_false hne
      have huser' : ¬ (l.userId.isSome = true ∧ l.userId = l'.userId) := by
        rintro ⟨hsome, heq⟩
        exact hid (hother l' hl' (heq ▸ hsome) heq.symm)
      simpa [linkConstraints, hid.symm] using huser'
  · intro l _ l' _ hid hid'
    simp [linkConstraints, beq_iff_eq.mp hid, beq_iff_eq.mp hid']

/-- The upsert of a subscription row whose update keeps its key. -/
theorem upsertRow_isOk_iff {rows : List SubscriptionRow}
    (h : (subscriptionConstraints env).Holds rows) {s : Subscription} {row : SubscriptionRow}
    {set : SubscriptionRow → SubscriptionRow} (hrow : row.stripeSubscriptionId = s.id)
    (hset : ∀ r, isRowOf s r = true → isRowOf s (set r) = true) :
    (∃ rows', Table.upsert (subscriptionConstraints env) (isRowOf s) set row rows = .ok rows') ↔
      (Table.upserted (isRowOf s) set row rows).userId.all env.hasUser = true := by
  rw [h.upsert_isOk_iff]
  · have hwritten :
        (Table.upserted (isRowOf s) set row rows).stripeSubscriptionId = s.id :=
      Table.upserted_cases (P := fun r : SubscriptionRow => r.stripeSubscriptionId = s.id) hrow
        fun r _ hr => beq_iff_eq.mp (hset r hr)
    constructor
    · rintro ⟨-, huser, -⟩
      exact huser
    · intro huser
      refine ⟨rfl, huser, ?_⟩
      intro r _ hne
      have hid : r.stripeSubscriptionId ≠ s.id := ne_of_beq_false hne
      simp [subscriptionConstraints, hwritten, hid.symm]
  · intro r _ r' _ hid hid'
    simp only [isRowOf, beq_iff_eq] at hid hid'
    simp [subscriptionConstraints, hid, hid']

/-- The constraints of both tables hold. -/
structure TablesHold (env : Env) (db : Db) : Prop where
  links : (linkConstraints env).Holds db.links
  subscriptions : (subscriptionConstraints env).Holds db.subscriptions

/-- The tables hold, and the events recorded and processed are those of `db₀`. -/
structure Keeps (env : Env) (db₀ db : Db) : Prop extends TablesHold env db where
  webhookEvents : db.webhookEvents = db₀.webhookEvents
  processed : db.processed = db₀.processed

theorem onLinks_keeps {db₀ : Db} {target : CustomerLink → Bool} {set : CustomerLink → CustomerLink}
    {row : CustomerLink} :
    Call.Triple (Keeps env db₀) (onLinks (Table.upsert (linkConstraints env) target set row))
      (fun _ => Keeps env db₀) (Keeps env db₀) := by
  refine onLinks_triple (fun _ h => h) ?_
  intro db links h hlinks
  exact ⟨⟨h.links.upsert hlinks, h.subscriptions⟩, h.webhookEvents, h.processed⟩

theorem onSubscriptions_keeps {db₀ : Db} {target : SubscriptionRow → Bool}
    {set : SubscriptionRow → SubscriptionRow} {row : SubscriptionRow} :
    Call.Triple (Keeps env db₀)
      (onSubscriptions (Table.upsert (subscriptionConstraints env) target set row))
      (fun _ => Keeps env db₀) (Keeps env db₀) := by
  refine onSubscriptions_triple (fun _ h => h) ?_
  intro db rows h hrows
  exact ⟨⟨h.links, h.subscriptions.upsert hrows⟩, h.webhookEvents, h.processed⟩

theorem upsertSubscription_keeps {db₀ : Db} (subscription : Subscription) (now : Nat) :
    Call.Triple (Keeps env db₀) (upsertSubscription env subscription now)
      (fun _ => Keeps env db₀) (Keeps env db₀) :=
  .bind onLinks_keeps fun _ => onSubscriptions_keeps

/-- The effect of an event touches neither the events recorded nor those processed. -/
theorem dispatch_keeps {db₀ : Db} (event : Event) (now : Nat) :
    Call.Triple (Keeps env db₀) (dispatch env event now) (fun _ => Keeps env db₀)
      (Keeps env db₀) := by
  unfold dispatch
  cases event.data with
  | checkoutSessionCompleted session =>
    cases hcustomer : session.customer with
    | some customerId =>
      simp only [hcustomer]
      exact onLinks_keeps
    | none =>
      simp only [hcustomer]
      exact .pure fun _ h => h
  | subscriptionCreated s => exact upsertSubscription_keeps s now
  | subscriptionUpdated s => exact upsertSubscription_keeps s now
  | subscriptionResumed s => exact upsertSubscription_keeps s now
  | subscriptionTrialWillEnd s => exact upsertSubscription_keeps s now
  | subscriptionDeleted s => exact onSubscriptions_keeps
  | subscriptionPaused s => exact onSubscriptions_keeps
  | other type => exact .pure fun _ h => h

/-! ### When the effect gets to its end -/

/-- A call that returns, after this many steps. -/
def Returns (x : BillingCall Unit) (steps : Nat) (db : Db) (stopsAfter : Option Nat) : Prop :=
  ∃ db', x ⟨db, stopsAfter⟩ = (.ok (), ⟨db', stopsAfter.map (· - steps)⟩)

/-- A call that throws or stops. -/
def Breaks {α : Type} (x : BillingCall α) (db : Db) (stopsAfter : Option Nat) : Prop :=
  ∃ e w, x ⟨db, stopsAfter⟩ = (.error e, w)

/-- The call makes at least so many steps. -/
def Lives (steps : Nat) (stopsAfter : Option Nat) : Prop := ∀ n ∈ stopsAfter, steps ≤ n

theorem lives_one_iff {stopsAfter : Option Nat} : Lives 1 stopsAfter ↔ stopsAfter ≠ some 0 := by
  cases stopsAfter with
  | none => simp [Lives]
  | some n =>
    simp only [Lives, Option.mem_def, Option.some.injEq, forall_eq', ne_eq]
    omega

/-- A statement that the table does not refuse. -/
theorem onLinks_returns {f : List CustomerLink → Except DbError (List CustomerLink)} {db : Db}
    {stopsAfter : Option Nat} {links : List CustomerLink} (h : f db.links = .ok links)
    (hlives : Lives 1 stopsAfter) :
    onLinks f ⟨db, stopsAfter⟩ = (.ok (), ⟨{ db with links := links }, stopsAfter.map (· - 1)⟩) :=
  Call.step_ok (by rw [h]) (lives_one_iff.mp hlives)

theorem onLinks_breaks {f : List CustomerLink → Except DbError (List CustomerLink)} {db : Db}
    {stopsAfter : Option Nat} (h : ¬ ((∃ links, f db.links = .ok links) ∧ Lives 1 stopsAfter)) :
    Breaks (onLinks f) db stopsAfter := by
  by_cases hlives : Lives 1 stopsAfter
  · cases hrun : f db.links with
    | ok links => exact absurd ⟨⟨links, hrun⟩, hlives⟩ h
    | error e => exact ⟨_, _, Call.step_error (by rw [hrun]) (lives_one_iff.mp hlives)⟩
  · obtain rfl : stopsAfter = some 0 := not_not.mp fun hne => hlives (lives_one_iff.mpr hne)
    exact ⟨_, _, Call.step_stopped _ db⟩

theorem onSubscriptions_returns {f : List SubscriptionRow → Except DbError (List SubscriptionRow)}
    (db : Db) {stopsAfter : Option Nat} {rows : List SubscriptionRow}
    (h : f db.subscriptions = .ok rows) (hlives : Lives 1 stopsAfter) :
    onSubscriptions f ⟨db, stopsAfter⟩ =
      (.ok (), ⟨{ db with subscriptions := rows }, stopsAfter.map (· - 1)⟩) :=
  Call.step_ok (by rw [h]) (lives_one_iff.mp hlives)

theorem onSubscriptions_breaks
    {f : List SubscriptionRow → Except DbError (List SubscriptionRow)} {db : Db}
    {stopsAfter : Option Nat}
    (h : ¬ ((∃ rows, f db.subscriptions = .ok rows) ∧ Lives 1 stopsAfter)) :
    Breaks (onSubscriptions f) db stopsAfter := by
  by_cases hlives : Lives 1 stopsAfter
  · cases hrun : f db.subscriptions with
    | ok rows => exact absurd ⟨⟨rows, hrun⟩, hlives⟩ h
    | error e => exact ⟨_, _, Call.step_error (by rw [hrun]) (lives_one_iff.mp hlives)⟩
  · obtain rfl : stopsAfter = some 0 := not_not.mp fun hne => hlives (lives_one_iff.mpr hne)
    exact ⟨_, _, Call.step_stopped _ db⟩

/-- The call returns exactly when nothing it writes is refused and it does not stop before. -/
structure Ends (x : BillingCall Unit) (accepted : Prop) (steps : Nat) (db : Db)
    (stopsAfter : Option Nat) : Prop where
  returns : accepted → Lives steps stopsAfter → Returns x steps db stopsAfter
  breaks : ¬ (accepted ∧ Lives steps stopsAfter) → Breaks x db stopsAfter

theorem lives_succ_iff {steps : Nat} {stopsAfter : Option Nat} (h : Lives 1 stopsAfter) :
    Lives steps (stopsAfter.map (· - 1)) ↔ Lives (steps + 1) stopsAfter := by
  cases stopsAfter with
  | none => simp [Lives]
  | some n =>
    have hn : 1 ≤ n := h n rfl
    simp only [Lives, Option.map_some, Option.mem_def, Option.some.injEq, forall_eq']
    omega

variable {db : Db} {stopsAfter : Option Nat}

theorem pure_ends : Ends (pure () : BillingCall Unit) True 0 db stopsAfter := by
  refine ⟨fun _ _ => ⟨db, ?_⟩, fun h => absurd ⟨trivial, fun n _ => Nat.zero_le n⟩ h⟩
  cases stopsAfter <;> rfl

theorem upsertCustomerLink_ends (h : TablesHold env db) {customerId : String}
    {userId organizationId email : Option String} :
    Ends (upsertCustomerLink env customerId userId organizationId email)
      (LinkAccepted env db.links customerId userId) 1 db stopsAfter where
  returns := by
    intro haccepted hlives
    obtain ⟨links, hlinks⟩ := (upsertLink_isOk_iff h.links).mpr haccepted
    exact ⟨_, onLinks_returns hlinks hlives⟩
  breaks := by
    intro hnot
    refine onLinks_breaks fun hcontra => hnot ⟨?_, hcontra.2⟩
    exact (upsertLink_isOk_iff h.links).mp hcontra.1

theorem upsertSubscription_ends (h : TablesHold env db) {s : Subscription} {now : Nat} :
    Ends (upsertSubscription env s now)
      (LinkAccepted env db.links s.customer (getSubscriptionUserId s)) 2 db stopsAfter := by
  have hrows : (getSubscriptionUserId s).all env.hasUser = true → ∃ rows', Table.upsert
      (subscriptionConstraints env) (isRowOf s) (fun _ => subscriptionRow s (planOf env s) now)
      (subscriptionRow s (planOf env s) now) db.subscriptions = .ok rows' := by
    intro huser
    refine (upsertRow_isOk_iff h.subscriptions rfl (fun _ _ => beq_iff_eq.mpr rfl)).mpr ?_
    exact Table.upserted_cases
      (P := fun r : SubscriptionRow => r.userId.all env.hasUser = true) huser
      fun _ _ _ => huser
  have hlink : Ends (upsertCustomerLink env s.customer (getSubscriptionUserId s)
      (getSubscriptionOrganizationId s) none)
      (LinkAccepted env db.links s.customer (getSubscriptionUserId s)) 1 db stopsAfter :=
    upsertCustomerLink_ends h
  refine ⟨?_, ?_⟩
  · intro haccepted hlives
    have hlives₁ : Lives 1 stopsAfter := fun n hn => Nat.le_of_succ_le (hlives n hn)
    obtain ⟨links, hlinks⟩ := (upsertLink_isOk_iff h.links).mpr haccepted
    obtain ⟨rows, hrows⟩ := hrows haccepted.1
    refine ⟨{ db with links := links, subscriptions := rows },
      (Call.bind_ok (onLinks_returns hlinks hlives₁)).trans ?_⟩
    refine (onSubscriptions_returns { db with links := links } hrows
      ((lives_succ_iff hlives₁).mpr hlives)).trans ?_
    cases stopsAfter <;> rfl
  · intro hnot
    by_cases hfirst : LinkAccepted env db.links s.customer (getSubscriptionUserId s) ∧
        Lives 1 stopsAfter
    · -- the link is written, and the call stops before the row
      obtain ⟨links, hlinks⟩ := (upsertLink_isOk_iff h.links).mpr hfirst.1
      have hlater : Breaks (onSubscriptions (Table.upsert (subscriptionConstraints env) (isRowOf s)
          (fun _ => subscriptionRow s (planOf env s) now) (subscriptionRow s (planOf env s) now)))
          { db with links := links } (stopsAfter.map (· - 1)) := by
        refine onSubscriptions_breaks fun hcontra => hnot ⟨hfirst.1, ?_⟩
        exact (lives_succ_iff hfirst.2).mp hcontra.2
      obtain ⟨e, w, hbreak⟩ := hlater
      exact ⟨e, w, (Call.bind_ok (onLinks_returns hlinks hfirst.2)).trans hbreak⟩
    · obtain ⟨e, w, hbreak⟩ := hlink.breaks hfirst
      exact ⟨e, w, Call.bind_error hbreak⟩

theorem markSubscriptionCanceled_ends (h : TablesHold env db) {s : Subscription} {now : Nat} :
    Ends (markSubscriptionCanceled env s now)
      (db.subscriptions.any (isRowOf s) = true ∨ (getSubscriptionUserId s).all env.hasUser = true)
      1 db stopsAfter := by
  have hiff : (∃ rows', Table.upsert (subscriptionConstraints env) (isRowOf s)
      (fun r => { r with status := s.status, plan := .free, updatedAt := now, raw := s })
      (subscriptionRow s .free now) db.subscriptions = .ok rows') ↔
      (db.subscriptions.any (isRowOf s) = true ∨
        (getSubscriptionUserId s).all env.hasUser = true) := by
    refine (upsertRow_isOk_iff h.subscriptions ?_ ?_).trans ?_
    · rfl
    · exact fun _ hid => hid
    · rw [Table.upserted]
      cases hfind : db.subscriptions.find? (isRowOf s) with
      | none =>
        have hnone : ¬ db.subscriptions.any (isRowOf s) = true := by simpa using hfind
        exact ⟨.inr, fun hor => hor.resolve_left hnone⟩
      | some r =>
        -- the row updated keeps its user
        have hr : r ∈ db.subscriptions := List.mem_of_find?_eq_some hfind
        have hany : db.subscriptions.any (isRowOf s) = true :=
          List.any_eq_true.mpr ⟨r, hr, List.find?_some hfind⟩
        exact ⟨fun _ => .inl hany, fun _ => h.subscriptions.references r hr⟩
  refine ⟨?_, ?_⟩
  · intro haccepted hlives
    obtain ⟨rows, hrows⟩ := hiff.mpr haccepted
    exact ⟨_, onSubscriptions_returns db hrows hlives⟩
  · intro hnot
    refine onSubscriptions_breaks fun hcontra => hnot ⟨hiff.mp hcontra.1, hcontra.2⟩

/-- The effect of an event ends exactly when it is accepted and the delivery does not stop. -/
theorem dispatch_ends (h : TablesHold env db) (event : Event) (now : Nat) :
    Ends (dispatch env event now) (EffectAccepted env db event) (effectSteps event) db
      stopsAfter := by
  unfold dispatch EffectAccepted effectSteps
  cases event.data with
  | checkoutSessionCompleted session =>
    cases hcustomer : session.customer with
    | some customerId =>
      simp only [hcustomer, Option.isSome_some, if_true]
      exact upsertCustomerLink_ends h
    | none =>
      simp only [hcustomer, Option.isSome_none]
      exact pure_ends
  | subscriptionCreated s => exact upsertSubscription_ends h
  | subscriptionUpdated s => exact upsertSubscription_ends h
  | subscriptionResumed s => exact upsertSubscription_ends h
  | subscriptionTrialWillEnd s => exact upsertSubscription_ends h
  | subscriptionDeleted s => exact markSubscriptionCanceled_ends h
  | subscriptionPaused s => exact markSubscriptionCanceled_ends h
  | other type => exact pure_ends

/-! ### One delivery -/

theorem handleWebhook_event {request : WebhookRequest} {event : Event} (now : Nat)
    (h : request.event? = some event) : handleWebhook env request now =
      processEvent env event now := by
  simp only [WebhookRequest.event?] at h
  simp only [handleWebhook]
  split at h
  · cases h
  split at h
  · cases h
  next hconfigured hsignature =>
  rw [if_neg hconfigured, if_neg hsignature]
  cases hconstruct : request.constructEvent with
  | error message =>
    rw [hconstruct] at h
    cases h
  | ok event' =>
    rw [hconstruct] at h
    obtain rfl : event' = event := Option.some.inj h
    rfl

/-- A request without an event throws before the first statement. -/
theorem handleWebhook_no_event (env : Env) {request : WebhookRequest} (now : Nat)
    (h : request.event? = none)
    (w : Call.World Db) : ∃ e, handleWebhook env request now w = (.error e, w) := by
  simp only [WebhookRequest.event?] at h
  simp only [handleWebhook]
  split at h
  · next hconfigured => rw [if_pos hconfigured]; exact ⟨_, rfl⟩
  split at h
  · next hconfigured hsignature =>
    rw [if_neg hconfigured, if_pos hsignature]
    exact ⟨_, rfl⟩
  next hconfigured hsignature =>
  rw [if_neg hconfigured, if_neg hsignature]
  cases hconstruct : request.constructEvent with
  | error message => exact ⟨_, rfl⟩
  | ok event =>
    rw [hconstruct] at h
    cases h

/-- The answer is the last step: it leaves the store. -/
theorem answer_store {α : Type} (a : α) (w : Call.World Db) :
    (answer a w).2.store = w.store ∧ ∀ b, (answer a w).1 = .ok b → b = a := by
  obtain ⟨store, stops⟩ := w
  by_cases hstop : stops = some 0
  · subst hstop
    exact ⟨rfl, fun b hb => by cases hb⟩
  · have hrun : (answer a : BillingCall α) ⟨store, stops⟩ = (.ok a, ⟨store, stops.map (· - 1)⟩) :=
      Call.read_ok (f := fun _ => .ok a) rfl hstop
    rw [hrun]
    exact ⟨rfl, fun b hb => (Except.ok.inj hb).symm⟩

/-- A delivery that stops before its first statement. -/
theorem processEvent_stopped (event : Event) (now : Nat) (db : Db) :
    processEvent env event now ⟨db, some 0⟩ = (.error .stopped, ⟨db, some 0⟩) := rfl

/-- A redelivery of a recorded event changes nothing. -/
theorem processEvent_recorded {event : Event} {now : Nat} (hrecorded : event.id ∈ db.webhookEvents)
    (hgo : stopsAfter ≠ some 0) :
    processEvent env event now ⟨db, stopsAfter⟩ = answer true ⟨db, stopsAfter.map (· - 1)⟩ := by
  have hinsert : insertWebhookEvent event ⟨db, stopsAfter⟩ =
      (.ok false, ⟨db, stopsAfter.map (· - 1)⟩) :=
    Call.step_ok (by simp [hrecorded]) hgo
  exact Call.bind_ok hinsert

/-- The store after the INSERT of the event's row. -/
def recorded (db : Db) (event : Event) : Db :=
  { db with webhookEvents := db.webhookEvents ++ [event.id] }

theorem processEvent_fresh {event : Event} {now : Nat} (hfresh : event.id ∉ db.webhookEvents)
    (hgo : stopsAfter ≠ some 0) :
    processEvent env event now ⟨db, stopsAfter⟩ =
      (do dispatch env event now; markProcessed event; answer false : BillingCall Bool)
        ⟨recorded db event, stopsAfter.map (· - 1)⟩ := by
  have hinsert : insertWebhookEvent event ⟨db, stopsAfter⟩ =
      (.ok true, ⟨recorded db event, stopsAfter.map (· - 1)⟩) :=
    Call.step_ok (by simp [hfresh, recorded]) hgo
  exact Call.bind_ok hinsert

theorem processEvent_returns {event : Event} {now : Nat} {db' : Db} {n : Option Nat}
    (hfresh : event.id ∉ db.webhookEvents) (hgo : stopsAfter ≠ some 0)
    (hrun : dispatch env event now ⟨recorded db event, stopsAfter.map (· - 1)⟩ =
      (.ok (), ⟨db', n⟩)) :
    (processEvent env event now ⟨db, stopsAfter⟩).2.store =
        { db' with processed := event.id :: db'.processed } ∧
      ∀ b, (processEvent env event now ⟨db, stopsAfter⟩).1 = .ok b → b = false := by
  have hmark : markProcessed event ⟨db', n⟩ =
      (.ok (), ⟨{ db' with processed := event.id :: db'.processed }, n⟩) := rfl
  rw [processEvent_fresh hfresh hgo, Call.bind_ok hrun, Call.bind_ok hmark]
  exact answer_store false _

theorem processEvent_breaks {event : Event} {now : Nat} {e : Call.Failure BillingError}
    {w : Call.World Db} (hfresh : event.id ∉ db.webhookEvents) (hgo : stopsAfter ≠ some 0)
    (hrun : dispatch env event now ⟨recorded db event, stopsAfter.map (· - 1)⟩ = (.error e, w)) :
    processEvent env event now ⟨db, stopsAfter⟩ = (.error e, w) := by
  rw [processEvent_fresh hfresh hgo, Call.bind_error hrun]

theorem TablesHold.recorded (h : TablesHold env db) (event : Event) :
    TablesHold env (recorded db event) :=
  ⟨h.links, h.subscriptions⟩

/-- Past the INSERT the links are written by the effect alone. -/
theorem processEvent_links {event : Event} (now : Nat) (hfresh : event.id ∉ db.webhookEvents)
    (hgo : stopsAfter ≠ some 0) :
    (processEvent env event now ⟨db, stopsAfter⟩).2.store.links =
      (dispatch env event now ⟨recorded db event, stopsAfter.map (· - 1)⟩).2.store.links := by
  cases hrun : dispatch env event now ⟨recorded db event, stopsAfter.map (· - 1)⟩ with
  | mk result w =>
    cases result with
    | ok a => rw [(processEvent_returns hfresh hgo hrun).1]
    | error e => rw [processEvent_breaks hfresh hgo hrun]

/-- What the effect keeps, whatever the events recorded and processed are, the delivery keeps. -/
theorem Delivery.run_of_dispatch {P : Db → Prop} {d : Delivery}
    (hevents : ∀ db webhookEvents processed, P db →
      P { db with webhookEvents := webhookEvents, processed := processed })
    (hdispatch : ∀ event, d.request.event? = some event → event.id ∉ db.webhookEvents →
      Call.Triple P (dispatch env event d.now) (fun _ => P) P) (h : P db) :
    P (d.run env db).2 := by
  cases hevent : d.request.event? with
  | none =>
    obtain ⟨e, hrun⟩ := handleWebhook_no_event env d.now hevent ⟨db, d.stopsAfter⟩
    simp only [Delivery.run, hrun]
    exact h
  | some event =>
    simp only [Delivery.run, handleWebhook_event d.now hevent]
    by_cases hstop : d.stopsAfter = some 0
    · rw [hstop, processEvent_stopped]
      exact h
    by_cases hrecorded : event.id ∈ db.webhookEvents
    · rw [processEvent_recorded hrecorded hstop, (answer_store _ _).1]
      exact h
    have hkeeps := hdispatch event hevent hrecorded
      ⟨recorded db event, d.stopsAfter.map (· - 1)⟩ (hevents db _ db.processed h)
    cases hrun : dispatch env event d.now ⟨recorded db event, d.stopsAfter.map (· - 1)⟩ with
    | mk result w =>
      rw [hrun] at hkeeps
      cases result with
      | ok a =>
        rw [(processEvent_returns hrecorded hstop hrun).1]
        exact hevents w.store w.store.webhookEvents _ hkeeps
      | error e =>
        rw [processEvent_breaks hrecorded hstop hrun]
        exact hkeeps

/-- What the first delivery past the INSERT leaves: the event is recorded, and processed exactly
    when the effect is accepted and the delivery lives that long; then alone it may be answered. -/
theorem processEvent_first {event : Event} (now : Nat) (h : TablesHold env db)
    (hfresh : event.id ∉ db.webhookEvents) (hgo : stopsAfter ≠ some 0) :
    TablesHold env (processEvent env event now ⟨db, stopsAfter⟩).2.store ∧
      (processEvent env event now ⟨db, stopsAfter⟩).2.store.webhookEvents =
        db.webhookEvents ++ [event.id] ∧
      ((EffectAccepted env db event ∧ ∀ n ∈ stopsAfter, effectSteps event < n) →
        (processEvent env event now ⟨db, stopsAfter⟩).2.store.processed = event.id :: db.processed ∧
        ∀ b, (processEvent env event now ⟨db, stopsAfter⟩).1 = .ok b → b = false) ∧
      (¬ (EffectAccepted env db event ∧ ∀ n ∈ stopsAfter, effectSteps event < n) →
        (processEvent env event now ⟨db, stopsAfter⟩).2.store.processed = db.processed ∧
        ∀ b, (processEvent env event now ⟨db, stopsAfter⟩).1 ≠ .ok b) := by
  -- the INSERT of the event takes one step of those the delivery lives
  have hsteps : (∀ n ∈ stopsAfter, effectSteps event < n) ↔
      Lives (effectSteps event) (stopsAfter.map (· - 1)) :=
    (lives_succ_iff (lives_one_iff.mpr hgo)).symm
  have hkeeps := dispatch_keeps event now ⟨recorded db event, stopsAfter.map (· - 1)⟩
    ⟨h.recorded event, rfl, rfl⟩
  have hends : Ends (dispatch env event now) (EffectAccepted env db event) (effectSteps event)
      (recorded db event) (stopsAfter.map (· - 1)) :=
    dispatch_ends (h.recorded event) event now
  rw [hsteps]
  by_cases hdone : EffectAccepted env db event ∧ Lives (effectSteps event) (stopsAfter.map (· - 1))
  · obtain ⟨db', hrun⟩ := hends.returns hdone.1 hdone.2
    obtain ⟨hstore, hanswer⟩ := processEvent_returns hfresh hgo hrun
    rw [hrun] at hkeeps
    rw [hstore]
    refine ⟨⟨hkeeps.links, hkeeps.subscriptions⟩, hkeeps.webhookEvents, fun _ => ⟨?_, hanswer⟩,
      fun hnot => absurd hdone hnot⟩
    show event.id :: db'.processed = _
    rw [hkeeps.processed]
    rfl
  · obtain ⟨e, w, hrun⟩ := hends.breaks hdone
    rw [hrun] at hkeeps
    rw [processEvent_breaks hfresh hgo hrun]
    exact ⟨hkeeps.toTablesHold, hkeeps.webhookEvents, fun hcontra => absurd hcontra hdone,
      fun _ => ⟨hkeeps.processed, fun b hb => by cases hb⟩⟩

/-! ### Runs of deliveries -/

/-- In every state reached: the tables hold, and what is processed was recorded. -/
structure Recorded (env : Env) (db : Db) : Prop extends TablesHold env db where
  processed_recorded : ∀ id ∈ db.processed, id ∈ db.webhookEvents

/-- A delivery changes nothing, or records a new event, which it processes exactly when the effect
    follows. -/
theorem Delivery.run_cases (h : TablesHold env db) (d : Delivery) :
    ((d.run env db).2 = db ∧ EffectFollows env db d) ∨
      ∃ event, d.request.event? = some event ∧ event.id ∉ db.webhookEvents ∧
        TablesHold env (d.run env db).2 ∧
        (d.run env db).2.webhookEvents = db.webhookEvents ++ [event.id] ∧
        (EffectFollows env db d → (d.run env db).2.processed = event.id :: db.processed) ∧
        (¬ EffectFollows env db d → (d.run env db).2.processed = db.processed) := by
  cases hevent : d.request.event? with
  | none =>
    obtain ⟨e, hrun⟩ := handleWebhook_no_event env d.now hevent ⟨db, d.stopsAfter⟩
    refine .inl ⟨by simp only [Delivery.run, hrun], ?_⟩
    simp [EffectFollows, hevent]
  | some event =>
    have hfollows : EffectFollows env db d ↔ (event.id ∉ db.webhookEvents → d.stopsAfter ≠ some 0 →
        EffectAccepted env db event ∧ ∀ n ∈ d.stopsAfter, effectSteps event < n) := by
      simp only [EffectFollows, hevent, Option.mem_def, Option.some.injEq, forall_eq']
    simp only [Delivery.run, handleWebhook_event d.now hevent]
    by_cases hstop : d.stopsAfter = some 0
    · rw [hstop, processEvent_stopped]
      exact .inl ⟨rfl, hfollows.mpr fun _ hgo => absurd hstop hgo⟩
    by_cases hrecorded : event.id ∈ db.webhookEvents
    · rw [processEvent_recorded hrecorded hstop]
      exact .inl ⟨(answer_store _ _).1, hfollows.mpr fun hfresh => absurd hrecorded hfresh⟩
    · have hends : EffectFollows env db d ↔
          EffectAccepted env db event ∧ ∀ n ∈ d.stopsAfter, effectSteps event < n :=
        hfollows.trans ⟨fun hf => hf hrecorded hstop, fun hf _ _ => hf⟩
      obtain ⟨htables, hevents, hdone, hnot⟩ :=
        processEvent_first d.now h hrecorded hstop
      refine .inr ⟨event, rfl, hrecorded, htables, hevents, ?_, ?_⟩
      · exact fun hf => (hdone (hends.mp hf)).1
      · exact fun hf => (hnot fun hc => hf (hends.mpr hc)).1

theorem TablesHold.run (h : TablesHold env db) (d : Delivery) :
    TablesHold env (d.run env db).2 := by
  obtain ⟨hsame, -⟩ | ⟨event, -, -, htables, -⟩ := d.run_cases h
  · rw [hsame]
    exact h
  · exact htables

theorem Recorded.run (h : Recorded env db) (d : Delivery) : Recorded env (d.run env db).2 := by
  refine ⟨h.toTablesHold.run d, ?_⟩
  obtain ⟨hsame, -⟩ | ⟨event, -, -, -, hevents, hdone, hnot⟩ := d.run_cases h.toTablesHold
  · rw [hsame]
    exact h.processed_recorded
  · intro id hid
    rw [hevents, List.mem_append, List.mem_singleton]
    by_cases hf : EffectFollows env db d
    · rw [hdone hf] at hid
      obtain rfl | hid := List.mem_cons.mp hid
      · exact .inr rfl
      · exact .inl (h.processed_recorded id hid)
    · rw [hnot hf] at hid
      exact .inl (h.processed_recorded id hid)

/-- Every event recorded is processed. -/
def AllProcessed (db : Db) : Prop := ∀ id ∈ db.webhookEvents, id ∈ db.processed

/-- The step lemma: a delivery whose effect follows leaves no event recorded and unprocessed. -/
theorem AllProcessed.run (h : TablesHold env db) (hall : AllProcessed db) {d : Delivery}
    (hfollows : EffectFollows env db d) : AllProcessed (d.run env db).2 := by
  obtain ⟨hsame, -⟩ | ⟨event, -, -, -, hevents, hdone, -⟩ := d.run_cases h
  · rw [hsame]
    exact hall
  · intro id hid
    rw [hevents, List.mem_append, List.mem_singleton] at hid
    rw [hdone hfollows, List.mem_cons]
    exact hid.elim (fun hid => .inr (hall id hid)) .inl

theorem AllProcessed.answers (h : TablesHold env db) (hall : AllProcessed db) :
    AnswersProcessed env db := by
  intro d event duplicate hevent hanswer
  simp only [Delivery.run, handleWebhook_event d.now hevent] at hanswer ⊢
  by_cases hstop : d.stopsAfter = some 0
  · rw [hstop, processEvent_stopped] at hanswer
    cases hanswer
  by_cases hrecorded : event.id ∈ db.webhookEvents
  · rw [processEvent_recorded hrecorded hstop, (answer_store _ _).1]
    exact ⟨hall event.id hrecorded, fun _ => hall event.id hrecorded⟩
  · obtain ⟨-, -, hdone, hnot⟩ := processEvent_first d.now h hrecorded hstop
    by_cases hends : EffectAccepted env db event ∧ ∀ n ∈ d.stopsAfter, effectSteps event < n
    · obtain ⟨hprocessed, hfirst⟩ := hdone hends
      rw [hprocessed]
      refine ⟨List.mem_cons_self, fun hdup => ?_⟩
      -- the first delivery does not answer that it was a duplicate
      have hfalse : duplicate = false := hfirst duplicate hanswer
      rw [hdup] at hfalse
      cases hfalse
    · exact absurd hanswer ((hnot hends).2 duplicate)

/-- The redelivery of an event recorded is answered as a duplicate. -/
theorem AnswersProcessed.recorded_processed (h : AnswersProcessed env db) {request : WebhookRequest}
    {event : Event} (hevent : request.event? = some event)
    (hrecorded : event.id ∈ db.webhookEvents) : event.id ∈ db.processed := by
  have hanswer : (Delivery.run env { request := request, now := 0, stopsAfter := none } db).1 =
      .ok true := by
    simp only [Delivery.run, handleWebhook_event 0 hevent]
    rw [processEvent_recorded hrecorded (by simp)]
    rfl
  exact (h _ event true hevent hanswer).2 rfl

variable (env)

theorem recorded_of_reachable {db : Db} (h : (system env).Reachable db) : Recorded env db := by
  refine h.invariant ?_ ?_
  · intro db hinit
    refine ⟨⟨hinit.links, hinit.subscriptions⟩, ?_⟩
    rw [hinit.processed]
    exact fun id hid => absurd hid List.not_mem_nil
  · intro db d db' hdb hstep
    obtain rfl := Option.some.inj hstep
    exact hdb.run d

/-- While the delivery that records an event gets to the end of its effect, deliveries are answered
    only once the event is processed. A delivery that does not leaves an event whose redelivery is
    answered as a duplicate, and which nothing processes. -/
theorem answered_only_processed :
    (∀ db, (system env).ReachableUnder (EffectFollows env) db → AnswersProcessed env db) ∧
    (∀ db d, (system env).Reachable db → ¬ EffectFollows env db d →
      ¬ AnswersProcessed env (d.run env db).2) := by
  constructor
  · intro db hrun
    have hinv : Recorded env db ∧ AllProcessed db := by
      refine hrun.invariant (I := fun db => Recorded env db ∧ AllProcessed db) ?_ ?_
      · intro db hinit
        refine ⟨recorded_of_reachable env (.init hinit), ?_⟩
        simp [AllProcessed, hinit.webhookEvents]
      · intro db d db' hdb hfollows hstep
        obtain rfl := Option.some.inj hstep
        exact ⟨hdb.1.run d, hdb.2.run hdb.1.toTablesHold hfollows⟩
    exact hinv.2.answers hinv.1.toTablesHold
  · intro db d hreach hnot hanswers
    have hdb : Recorded env db := recorded_of_reachable env hreach
    obtain ⟨-, hfollows⟩ | ⟨event, hevent, hfresh, -, hevents, -, hsame⟩ :=
      d.run_cases hdb.toTablesHold
    · exact hnot hfollows
    · have hrecorded : event.id ∈ (d.run env db).2.webhookEvents := by simp [hevents]
      have hprocessed : event.id ∈ (d.run env db).2.processed :=
        hanswers.recorded_processed hevent hrecorded
      rw [hsame hnot] at hprocessed
      exact hfresh (hdb.processed_recorded event.id hprocessed)

end statements

/-! ### A paid checkout -/

def buyers : Env :=
  { stripePriceStartup := some "price_startup", stripePriceBusiness := none
    users := [⟨"user", "buyer@example.com", "Buyer"⟩] }

def nothingSold : Db := ⟨[], [], [], []⟩

theorem nothingSold_init : Init buyers nothingSold :=
  ⟨⟨by simp [nothingSold], .nil, by simp [nothingSold]⟩,
    ⟨by simp [nothingSold], .nil, by simp [nothingSold]⟩, rfl, rfl⟩

def checkoutCompleted : Event :=
  ⟨"evt_checkout", 1, .checkoutSessionCompleted
    ⟨some "cus", some { userId := some "user" }, some "buyer@example.com"⟩⟩

/-- The first delivery stops before its first statement, the second before its answer. -/
theorem answered_only_processed_run :
    ∃ db : Db, db.processed = ["evt_checkout"] ∧ AnswersProcessed buyers db := by
  obtain ⟨db, hdb, hprocessed⟩ : ∃ db, (system buyers).execUnder (EffectFollows buyers) nothingSold
      [deliver checkoutCompleted (some 0), deliver checkoutCompleted (some 2)] = some db ∧
        db.processed = ["evt_checkout"] :=
    ⟨_, rfl, rfl⟩
  exact ⟨db, hprocessed, (answered_only_processed buyers).1 db
    (.execUnder (.init nothingSold_init) hdb)⟩

/-- The first delivery stops after the INSERT: the second is answered as a duplicate, and the
    customer is never linked. -/
theorem redelivery_answered_unprocessed :
    ∃ db, (system buyers).exec nothingSold [deliver checkoutCompleted (some 1)] = some db ∧
      (deliver checkoutCompleted none).run buyers db = (.ok true, db) ∧ db.links = [] ∧
      ¬ AnswersProcessed buyers db := by
  refine ⟨_, rfl, rfl, rfl, ?_⟩
  intro h
  have hprocessed : "evt_checkout" ∈ ([] : List String) :=
    (h (deliver checkoutCompleted none) checkoutCompleted true rfl rfl).2 rfl
  cases hprocessed

end Notebortt.Billing
