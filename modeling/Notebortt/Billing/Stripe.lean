import Mathlib.Data.List.MinMax
import Notebortt.Lib.Call
import Notebortt.Lib.Table

/-! # Billing

    The billing tables, Stripe's objects as far as the code reads them, and the
    functions of `modules/billing`: `handleWebhook`, `startCheckout` and
    `fetchCurrentBillingProfile` with what they call. None of them runs in a
    transaction, so each is a `Call` of its statements and Stripe requests. -/

open Table (DbError Constraints)

namespace Notebortt.Billing

/-! ### Stripe's objects -/

inductive SubscriptionStatus where
  | incomplete
  | incompleteExpired
  | trialing
  | active
  | pastDue
  | canceled
  | unpaid
  | paused
deriving DecidableEq, Repr

/-- The metadata keys the code reads. -/
structure Metadata where
  userId : Option String := none
  organizationId : Option String := none
  organization_id : Option String := none
deriving DecidableEq, Repr

structure SubscriptionItem where
  priceId : String
  currentPeriodEnd : Option Nat
deriving DecidableEq, Repr

structure Subscription where
  id : String
  customer : String
  status : SubscriptionStatus
  metadata : Metadata
  items : List SubscriptionItem
  trialEnd : Option Nat
  cancelAtPeriodEnd : Bool
  created : Nat
deriving DecidableEq, Repr

structure Customer where
  id : String
  email : Option String
  metadata : Metadata
deriving DecidableEq, Repr

/-- `customer` is `none` unless it is a string. -/
structure CheckoutSession where
  customer : Option String
  metadata : Option Metadata
  customerDetailsEmail : Option String
deriving DecidableEq, Repr

/-- An event's type with its object. -/
inductive EventData where
  | checkoutSessionCompleted (session : CheckoutSession)
  | subscriptionCreated (subscription : Subscription)
  | subscriptionUpdated (subscription : Subscription)
  | subscriptionResumed (subscription : Subscription)
  | subscriptionTrialWillEnd (subscription : Subscription)
  | subscriptionDeleted (subscription : Subscription)
  | subscriptionPaused (subscription : Subscription)
  | other (type : String)
deriving DecidableEq, Repr

structure Event where
  id : String
  created : Nat
  data : EventData
deriving DecidableEq, Repr

/-! ### Tables -/

inductive BillingPlan where
  | free
  | startup
  | business
  | trial
  | dev
deriving DecidableEq, Repr

/-- A row of `billing_customer_links`. -/
structure CustomerLink where
  stripeCustomerId : String
  userId : Option String
  organizationId : Option String
  email : Option String
deriving DecidableEq, Repr

/-- A row of `billing_subscriptions`. -/
structure SubscriptionRow where
  stripeSubscriptionId : String
  stripeCustomerId : String
  organizationId : Option String
  userId : Option String
  status : SubscriptionStatus
  plan : BillingPlan
  priceId : Option String
  trialEnd : Option Nat
  currentPeriodEnd : Option Nat
  cancelAtPeriodEnd : Bool
  raw : Subscription
  updatedAt : Nat
deriving DecidableEq, Repr

structure Db where
  links : List CustomerLink
  subscriptions : List SubscriptionRow
  /-- The `stripe_event_id`s of `billing_webhook_events`. -/
  webhookEvents : List String
  /-- Ghost: the events some delivery of which has carried out their effect. -/
  processed : List String
deriving DecidableEq, Repr

structure User where
  id : String
  email : String
  name : String
deriving DecidableEq, Repr

/-- The configuration, and the users, whom billing reads and never writes. -/
structure Env where
  stripePriceStartup : Option String
  stripePriceBusiness : Option String
  users : List User

inductive BillingError where
  | error (message : String)
  | db (e : DbError)
deriving DecidableEq, Repr

abbrev BillingCall (α : Type) : Type := Call Db BillingError α

section tables
variable (env : Env)

def Env.hasUser (userId : String) : Bool := env.users.any fun u => u.id == userId

/-- `billing_customer_links_stripe_customer_idx`, `billing_customer_links_user_idx` over the rows
    with a user, and the foreign key to `users`. -/
def linkConstraints : Constraints CustomerLink where
  check := fun _ => true
  clash := fun l l' =>
    l.stripeCustomerId == l'.stripeCustomerId || (l.userId.isSome && l.userId == l'.userId)
  references := fun l => l.userId.all env.hasUser
  clash_self := fun l => by simp
  clash_comm := fun l l' => by
    rw [BEq.comm, BEq.comm (a := l.userId)]
    cases h : l'.userId == l.userId with
    | false => simp
    | true => rw [beq_iff_eq.mp h]

/-- `billing_subscriptions_stripe_subscription_idx`, and the foreign key to `users`. -/
def subscriptionConstraints : Constraints SubscriptionRow where
  check := fun _ => true
  clash := fun r r' => r.stripeSubscriptionId == r'.stripeSubscriptionId
  references := fun r => r.userId.all env.hasUser
  clash_self := fun r => by simp
  clash_comm := fun r r' => BEq.comm

/-- A statement on one table, as a step. -/
def onLinks (f : List CustomerLink → Except DbError (List CustomerLink)) : BillingCall Unit :=
  Call.step fun db =>
    match f db.links with
    | .ok links => .ok ((), { db with links := links })
    | .error e => .error (.db e)

def onSubscriptions (f : List SubscriptionRow → Except DbError (List SubscriptionRow)) :
    BillingCall Unit :=
  Call.step fun db =>
    match f db.subscriptions with
    | .ok subscriptions => .ok ((), { db with subscriptions := subscriptions })
    | .error e => .error (.db e)

/-- What holds after a statement on one table: it is refused, or the rows are those it made. -/
theorem onLinks_triple {f : List CustomerLink → Except DbError (List CustomerLink)}
    {P Q E : Db → Prop} (hrefused : ∀ db, P db → E db)
    (hrows : ∀ db links, P db → f db.links = .ok links → Q { db with links := links }) :
    Call.Triple P (onLinks f) (fun _ => Q) E := by
  refine .step hrefused ?_
  intro db a db' hdb hrun
  split at hrun
  · next links hlinks =>
    obtain ⟨-, rfl⟩ := Prod.mk.inj (Except.ok.inj hrun)
    exact hrows db links hdb hlinks
  · cases hrun

theorem onSubscriptions_triple {f : List SubscriptionRow → Except DbError (List SubscriptionRow)}
    {P Q E : Db → Prop} (hrefused : ∀ db, P db → E db)
    (hrows : ∀ db rows, P db → f db.subscriptions = .ok rows →
      Q { db with subscriptions := rows }) :
    Call.Triple P (onSubscriptions f) (fun _ => Q) E := by
  refine .step hrefused ?_
  intro db a db' hdb hrun
  split at hrun
  · next rows hsubscriptions =>
    obtain ⟨-, rfl⟩ := Prod.mk.inj (Except.ok.inj hrun)
    exact hrows db rows hdb hsubscriptions
  · cases hrun

end tables

/-! ### `shared.ts` -/

def getPlanFromPriceId (env : Env) (priceId : Option String) : BillingPlan :=
  match priceId.filter (· ≠ "") with
  | none => .free
  | some priceId =>
    if env.stripePriceBusiness.filter (· ≠ "") = some priceId then .business
    else if env.stripePriceStartup.filter (· ≠ "") = some priceId then .startup
    else .free

def getPlanFromSubscriptionRecord (record : SubscriptionRow) : BillingPlan :=
  if record.status = .trialing then .trial
  else if record.plan = .business then .business
  else if record.plan = .startup then .startup
  else .free

/-- The states in which a subscription gives its plan. -/
def isActive (status : SubscriptionStatus) : Bool :=
  [SubscriptionStatus.trialing, .active, .pastDue, .unpaid].contains status

def pickActiveSubscription (subscriptions : List Subscription) : Option Subscription :=
  (subscriptions.filter fun subscription =>
    isActive subscription.status).argmax Subscription.created

def getSubscriptionUserId (subscription : Subscription) : Option String :=
  subscription.metadata.userId

def getSubscriptionOrganizationId (subscription : Subscription) : Option String :=
  subscription.metadata.organizationId.or subscription.metadata.organization_id

/-- Seconds to milliseconds; 0 is no date. -/
def toDate (value : Option Nat) : Option Nat := (value.filter (· ≠ 0)).map (· * 1000)

def getSubscriptionCurrentPeriodEnd (subscription : Subscription) : Option Nat :=
  (subscription.items.filterMap SubscriptionItem.currentPeriodEnd).max?

def firstPriceId (subscription : Subscription) : Option String :=
  subscription.items.head?.map SubscriptionItem.priceId

/-! ### `customer-domain.ts` -/

/-- What the code asks Stripe for, as answered during one call; a request that fails stops the
    call. -/
structure StripeApi where
  /-- `none`: the customer is deleted. -/
  retrieveCustomer : String → Option Customer
  /-- By email. -/
  listCustomers : String → List Customer
  createCustomer : Customer
  /-- By customer. -/
  listSubscriptions : String → List Subscription
  createSession : Option String

/-- A request to Stripe, as a step. -/
def ask {α : Type} (answer : α) : BillingCall α := Call.read fun _ => .ok answer

section functions
variable (env : Env)

def upsertCustomerLink (customerId : String) (userId organizationId email : Option String) :
    BillingCall Unit :=
  onLinks (Table.upsert (linkConstraints env) (fun l => l.stripeCustomerId == customerId)
    (fun l => { l with userId := userId, organizationId := organizationId, email := email })
    { stripeCustomerId := customerId, userId := userId, organizationId := organizationId
      email := email })

/-- The customer of an address: the one with the user's id in its metadata, else the first. -/
def chooseCustomer (userId : String) (customers : List Customer) : Option Customer :=
  (customers.find? fun item => item.metadata.userId == some userId).or customers.head?

/-- `findStripeCustomerByUser` once the stored link gave no customer. -/
def searchStripeCustomer (stripe : StripeApi) (userId email : String) :
    BillingCall (Option Customer) := do
  let customerList ← ask (stripe.listCustomers email)
  match chooseCustomer userId customerList with
  | some customer =>
    upsertCustomerLink env customer.id (some userId) none customer.email
    return some customer
  | none => return none

def findStripeCustomerByUser (stripe : StripeApi) (userId email : String) :
    BillingCall (Option Customer) := do
  let existingLink ← Call.read fun db => .ok (db.links.find? fun l => l.userId == some userId)
  match existingLink with
  | some link =>
    let customer ← ask (stripe.retrieveCustomer link.stripeCustomerId)
    match customer with
    | some customer => return some customer
    | none => searchStripeCustomer env stripe userId email
  | none => searchStripeCustomer env stripe userId email

def getOrCreateStripeCustomer (stripe : StripeApi) (userId email : String) :
    BillingCall Customer := do
  let existing ← findStripeCustomerByUser env stripe userId email
  match existing with
  | some customer => return customer
  | none =>
    let customer ← ask stripe.createCustomer
    upsertCustomerLink env customer.id (some userId) none (customer.email.or (some email))
    return customer

/-! ### `subscription-domain.ts` -/

/-- The row both writers insert, up to its plan. -/
def subscriptionRow (subscription : Subscription) (plan : BillingPlan) (now : Nat) :
    SubscriptionRow :=
  { stripeSubscriptionId := subscription.id
    stripeCustomerId := subscription.customer
    organizationId := getSubscriptionOrganizationId subscription
    userId := getSubscriptionUserId subscription
    status := subscription.status
    plan := plan
    priceId := firstPriceId subscription
    trialEnd := toDate subscription.trialEnd
    currentPeriodEnd := toDate (getSubscriptionCurrentPeriodEnd subscription)
    cancelAtPeriodEnd := subscription.cancelAtPeriodEnd
    raw := subscription
    updatedAt := now }

/-- The row of the subscription. -/
def isRowOf (subscription : Subscription) (r : SubscriptionRow) : Bool :=
  r.stripeSubscriptionId == subscription.id

/-- The plan `upsertSubscription` stores. -/
def planOf (subscription : Subscription) : BillingPlan :=
  getPlanFromPriceId env (firstPriceId subscription)

def upsertSubscription (subscription : Subscription) (now : Nat) : BillingCall Unit := do
  upsertCustomerLink env subscription.customer (getSubscriptionUserId subscription)
    (getSubscriptionOrganizationId subscription) none
  onSubscriptions (Table.upsert (subscriptionConstraints env) (isRowOf subscription)
    (fun _ => subscriptionRow subscription (planOf env subscription) now)
    (subscriptionRow subscription (planOf env subscription) now))

def markSubscriptionCanceled (subscription : Subscription) (now : Nat) : BillingCall Unit :=
  onSubscriptions (Table.upsert (subscriptionConstraints env) (isRowOf subscription)
    (fun r => { r with
      status := subscription.status, plan := .free, updatedAt := now, raw := subscription })
    (subscriptionRow subscription .free now))

/-! ### `webhook-domain.ts` -/

/-- `INSERT .. ON CONFLICT (stripe_event_id) DO NOTHING RETURNING id`: whether a row came back. -/
def insertWebhookEvent (event : Event) : BillingCall Bool :=
  Call.step fun db =>
    if db.webhookEvents.contains event.id then .ok (false, db)
    else .ok (true, { db with webhookEvents := db.webhookEvents ++ [event.id] })

/-- The switch of `handleWebhook`. -/
def dispatch (event : Event) (now : Nat) : BillingCall Unit :=
  match event.data with
  | .checkoutSessionCompleted session =>
    match session.customer with
    | some customerId =>
      upsertCustomerLink env customerId (session.metadata.bind Metadata.userId)
        ((session.metadata.bind Metadata.organizationId).or
          (session.metadata.bind Metadata.organization_id))
        session.customerDetailsEmail
    | none => pure ()
  | .subscriptionCreated subscription => upsertSubscription env subscription now
  | .subscriptionUpdated subscription => upsertSubscription env subscription now
  | .subscriptionResumed subscription => upsertSubscription env subscription now
  | .subscriptionTrialWillEnd subscription => upsertSubscription env subscription now
  | .subscriptionDeleted subscription => markSubscriptionCanceled env subscription now
  | .subscriptionPaused subscription => markSubscriptionCanceled env subscription now
  | .other _ => pure ()

/-- Ghost: the event's effect is carried out. -/
def markProcessed (event : Event) : BillingCall Unit :=
  Call.ghost fun db => { db with processed := event.id :: db.processed }

/-- The answer, which a delivery may not live to send. -/
def answer {α : Type} (a : α) : BillingCall α := Call.read fun _ => .ok a

/-- `handleWebhook` after the signature check; it answers with `duplicate`. -/
def processEvent (event : Event) (now : Nat) : BillingCall Bool := do
  let inserted ← insertWebhookEvent event
  if inserted then
    dispatch env event now
    markProcessed event
    answer false
  else answer true

/-- A request to the webhook: whether Stripe is configured, the signature header, and what
    `constructEvent` makes of the body. -/
structure WebhookRequest where
  configured : Bool
  signature : Option String
  constructEvent : Except String Event

def handleWebhook (request : WebhookRequest) (now : Nat) : BillingCall Bool :=
  if !request.configured then Call.throw (.error "Stripe webhook is not configured")
  else if (request.signature.filter (· ≠ "")).isNone then
    Call.throw (.error "Missing Stripe signature")
  else
    match request.constructEvent with
    | .error message => Call.throw (.error message)
    | .ok event => processEvent env event now

/-! ### `checkout-domain.ts` and `profile-domain.ts` -/

def getUserById (userId : String) : BillingCall (Option User) :=
  Call.read fun _ => .ok (env.users.find? fun u => u.id == userId)

def startCheckout (stripe : Option StripeApi) (userId : String) (plan : BillingPlan) :
    BillingCall String := do
  match stripe with
  | none => Call.throw (.error "Stripe billing is not configured")
  | some stripe =>
    if plan ≠ .startup ∧ plan ≠ .business then
      Call.throw (.error "Checkout is only available for paid plans")
    else
      let user ← getUserById env userId
      match user with
      | none => Call.throw (.error "User not found")
      | some user =>
        let _ ← getOrCreateStripeCustomer env stripe user.id user.email
        -- the session's metadata carries the user id, the subscription's does not
        let url ← ask stripe.createSession
        match url with
        | none => Call.throw (.error "Stripe checkout URL missing from session")
        | some url => return url

/-- The latest stored subscription of a user. -/
def storedSubscription (userId : String) (db : Db) : Option SubscriptionRow :=
  (db.subscriptions.filter fun r => r.userId == some userId).argmax SubscriptionRow.updatedAt

/-- The part of a `BillingProfile` that Stripe decides on. -/
structure Profile where
  currentPlan : BillingPlan
  trialExpirationTimestamp : Option Nat
deriving DecidableEq, Repr

def freeProfile : Profile := { currentPlan := .free, trialExpirationTimestamp := none }

def storedProfile (r : SubscriptionRow) : Profile :=
  { currentPlan := getPlanFromSubscriptionRecord r, trialExpirationTimestamp := r.trialEnd }

def subscriptionProfile (subscription : Subscription) : Profile :=
  { currentPlan := if subscription.status = .trialing then .trial else planOf env subscription
    trialExpirationTimestamp := toDate subscription.trialEnd }

def fetchCurrentBillingProfile (stripe : Option StripeApi) (isProduction : Bool) (userId : String)
    (now : Nat) : BillingCall Profile := do
  let user ← getUserById env userId
  match user with
  | none => Call.throw (.error "User not found")
  | some user =>
    match stripe with
    | none =>
      return { currentPlan := if isProduction then .free else .dev,
               trialExpirationTimestamp := none }
    | some stripe =>
      let stored ← Call.read fun db => .ok (storedSubscription userId db)
      match stored.filter fun r => isActive r.status with
      | some r => return storedProfile r
      | none =>
        let customer ← findStripeCustomerByUser env stripe user.id user.email
        match customer with
        | none => return freeProfile
        | some customer =>
          let subscriptions ← ask (stripe.listSubscriptions customer.id)
          match pickActiveSubscription subscriptions with
          | none => return freeProfile
          | some activeSubscription =>
            upsertSubscription env activeSubscription now
            return subscriptionProfile env activeSubscription

end functions

end Notebortt.Billing
