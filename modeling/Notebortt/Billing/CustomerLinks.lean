import Notebortt.Billing.SubscriptionOrder

/-! # The users of the customers

    Webhooks, checkouts and profile requests all write a customer's link through
    the one `upsertCustomerLink`, which overwrites the user with what the caller
    knows. A subscription event knows only the subscription's own metadata. -/

open Table (DbError)
open Transition

namespace Notebortt.Billing

/-! ### Requests -/

inductive BillingRequest where
  | handleWebhook (d : Delivery)
  | startCheckout (stripe : Option StripeApi) (userId : String) (plan : BillingPlan)
      (stopsAfter : Option Nat)
  | fetchCurrentBillingProfile (stripe : Option StripeApi) (isProduction : Bool) (userId : String)
      (now : Nat) (stopsAfter : Option Nat)

def BillingRequest.stopsAfter : BillingRequest → Option Nat
  | .handleWebhook d => d.stopsAfter
  | .startCheckout _ _ _ stopsAfter => stopsAfter
  | .fetchCurrentBillingProfile _ _ _ _ stopsAfter => stopsAfter

/-- The row of the customer has a user. -/
def Attached (customerId : String) (db : Db) : Prop :=
  ∃ l ∈ db.links, l.stripeCustomerId = customerId ∧ l.userId ≠ none

instance (customerId : String) (db : Db) : Decidable (Attached customerId db) :=
  inferInstanceAs (Decidable (∃ l ∈ db.links, _))

section system
variable (env : Env)

/-- The tables a request leaves. -/
def BillingRequest.run (db : Db) : BillingRequest → Db
  | .handleWebhook d => (d.run env db).2
  | .startCheckout stripe userId plan stopsAfter =>
    (Billing.startCheckout env stripe userId plan ⟨db, stopsAfter⟩).2.store
  | .fetchCurrentBillingProfile stripe isProduction userId now stopsAfter =>
    (Billing.fetchCurrentBillingProfile env stripe isProduction userId now
      ⟨db, stopsAfter⟩).2.store

/-- The constraints hold, and the customer's row has a user. -/
structure Linked (customerId : String) (db : Db) : Prop extends TablesHold env db where
  attached : Attached customerId db

/-- Any requests, once the customer is attached. -/
def linkSystem (customerId : String) : System Db BillingRequest where
  init := Linked env customerId
  step := fun db request => some (request.run env db)

/-! ### The condition -/

/-- The customer an event links, with the user it links it to. -/
def Event.link? (event : Event) : Option (String × Option String) :=
  match event.data with
  | .checkoutSessionCompleted session =>
    session.customer.map fun customerId => (customerId, session.metadata.bind Metadata.userId)
  | .subscriptionCreated s => some (s.customer, getSubscriptionUserId s)
  | .subscriptionUpdated s => some (s.customer, getSubscriptionUserId s)
  | .subscriptionResumed s => some (s.customer, getSubscriptionUserId s)
  | .subscriptionTrialWillEnd s => some (s.customer, getSubscriptionUserId s)
  | .subscriptionDeleted _ => none
  | .subscriptionPaused _ => none
  | .other _ => none

/-- The customer `findStripeCustomerByUser` gives, unless the link it writes first is refused. -/
def foundCustomer? (stripe : StripeApi) (userId email : String) (db : Db) : Option Customer :=
  ((db.links.find? fun l => l.userId == some userId).bind fun link =>
    stripe.retrieveCustomer link.stripeCustomerId).or
    ((chooseCustomer userId (stripe.listCustomers email)).filter fun customer =>
      LinkAccepted env db.links customer.id (some userId))

/-- The subscription a profile request writes. -/
def profileSubscription? (stripe : Option StripeApi) (userId : String) (db : Db) :
    Option Subscription := do
  let user ← env.users.find? fun u => u.id == userId
  let stripe ← stripe
  match (storedSubscription userId db).filter fun r => isActive r.status with
  | some _ => none
  | none =>
    let customer ← foundCustomer? env stripe user.id user.email db
    pickActiveSubscription (stripe.listSubscriptions customer.id)

/-- The step condition: the request writes no subscription and no checkout session of the customer
    whose metadata has no user. -/
def KeepsUser (customerId : String) (db : Db) : BillingRequest → Prop
  | .handleWebhook d => ∀ event ∈ d.request.event?, event.id ∉ db.webhookEvents →
      event.link? ≠ some (customerId, none)
  | .startCheckout _ _ _ _ => True
  | .fetchCurrentBillingProfile stripe _ userId _ _ =>
    ∀ s ∈ profileSubscription? env stripe userId db,
      s.customer = customerId → getSubscriptionUserId s ≠ none

end system

/-! ### Writers of links -/

section writers
variable {env : Env} {c : String}

theorem profileSubscription?_eq_some_iff {stripe : Option StripeApi} {userId : String} {db : Db}
    {s : Subscription} :
    profileSubscription? env stripe userId db = some s ↔
      ∃ user api customer, env.users.find? (fun u => u.id == userId) = some user ∧
        stripe = some api ∧
        (storedSubscription userId db).filter (fun r => isActive r.status) = none ∧
        foundCustomer? env api user.id user.email db = some customer ∧
        pickActiveSubscription (api.listSubscriptions customer.id) = some s := by
  simp only [profileSubscription?, Option.bind_eq_bind, Option.bind_eq_some_iff]
  constructor
  · rintro ⟨user, huser, api, hstripe, hrest⟩
    split at hrest
    · cases hrest
    · next hstored =>
      obtain ⟨customer, hcustomer, hactive⟩ := Option.bind_eq_some_iff.mp hrest
      exact ⟨user, api, customer, huser, hstripe, hstored, hcustomer, hactive⟩
  · rintro ⟨user, api, customer, huser, hstripe, hstored, hcustomer, hactive⟩
    refine ⟨user, huser, api, hstripe, ?_⟩
    rw [hstored]
    exact Option.bind_eq_some_iff.mpr ⟨customer, hcustomer, hactive⟩

/-- An upsert that sets a user, or is of another customer. -/
theorem Linked.upsertLink {db : Db} {customerId : String} {set : CustomerLink → CustomerLink}
    {row : CustomerLink} {links : List CustomerLink} (hdb : Linked env c db)
    (hlinks : Table.upsert (linkConstraints env) (fun l => l.stripeCustomerId == customerId) set row
      db.links = .ok links)
    (hset : customerId = c → ∀ l,
      (set l).stripeCustomerId = l.stripeCustomerId ∧ (set l).userId ≠ none) :
    Linked env c { db with links := links } := by
  refine ⟨⟨hdb.links.upsert hlinks, hdb.subscriptions⟩, ?_⟩
  obtain ⟨l, hl, rfl, huser⟩ := hdb.attached
  have hmem := Table.mem_of_upsert hlinks hl
  split at hmem
  · next htarget =>
    obtain ⟨hid, huser'⟩ := hset (beq_iff_eq.mp htarget).symm l
    exact ⟨set l, hmem, hid, huser'⟩
  · exact ⟨l, hmem, rfl, huser⟩

theorem upsertCustomerLink_linked {customerId : String}
    {userId organizationId email : Option String} (h : customerId = c → userId ≠ none) :
    Call.Triple (Linked env c) (upsertCustomerLink env customerId userId organizationId email)
      (fun _ => Linked env c) (Linked env c) := by
  refine onLinks_triple (fun _ h => h) ?_
  intro db links hdb hlinks
  exact hdb.upsertLink hlinks fun hid _ => ⟨rfl, h hid⟩

theorem onSubscriptions_linked {target : SubscriptionRow → Bool}
    {set : SubscriptionRow → SubscriptionRow} {row : SubscriptionRow} :
    Call.Triple (Linked env c)
      (onSubscriptions (Table.upsert (subscriptionConstraints env) target set row))
      (fun _ => Linked env c) (Linked env c) := by
  refine onSubscriptions_triple (fun _ h => h) ?_
  intro db rows hdb hrows
  exact ⟨⟨hdb.links, hdb.subscriptions.upsert hrows⟩, hdb.attached⟩

theorem upsertSubscription_linked {s : Subscription} (now : Nat)
    (h : s.customer = c → getSubscriptionUserId s ≠ none) :
    Call.Triple (Linked env c) (upsertSubscription env s now) (fun _ => Linked env c)
      (Linked env c) :=
  .bind (upsertCustomerLink_linked h) fun _ => onSubscriptions_linked

theorem dispatch_linked {event : Event} (now : Nat) (h : event.link? ≠ some (c, none)) :
    Call.Triple (Linked env c) (dispatch env event now) (fun _ => Linked env c) (Linked env c) := by
  have hlink : ∀ customerId userId, event.link? = some (customerId, userId) → customerId = c →
      userId ≠ none := by
    rintro customerId userId hlink rfl rfl
    exact h hlink
  unfold Event.link? at hlink
  unfold dispatch
  cases hdata : event.data with
  | checkoutSessionCompleted session =>
    rw [hdata] at hlink
    cases hcustomer : session.customer with
    | some customerId =>
      simp only [hcustomer]
      exact upsertCustomerLink_linked
        (hlink customerId _ (by simp only [hcustomer, Option.map_some]))
    | none =>
      simp only [hcustomer]
      exact .pure fun _ h => h
  | subscriptionCreated s | subscriptionUpdated s | subscriptionResumed s
  | subscriptionTrialWillEnd s =>
    rw [hdata] at hlink
    exact upsertSubscription_linked now (hlink s.customer _ rfl)
  | subscriptionDeleted s | subscriptionPaused s => exact onSubscriptions_linked
  | other type => exact .pure fun _ h => h

/-! ### Requests that link a user -/

section requests
variable {stripe : StripeApi} {userId email : String} {db₀ : Db} (h : Linked env c db₀)
include h

theorem linked_of_eq : ∀ db, db = db₀ → Linked env c db := by
  rintro db rfl
  exact h

theorem searchStripeCustomer_linked :
    Call.Triple (fun db => db = db₀) (searchStripeCustomer env stripe userId email)
      (fun customer db => Linked env c db ∧ customer =
        (chooseCustomer userId (stripe.listCustomers email)).filter fun customer =>
          LinkAccepted env db₀.links customer.id (some userId)) (Linked env c) := by
  refine .read_bind (linked_of_eq h) (fun _ _ => rfl) ?_
  cases hchoose : chooseCustomer userId (stripe.listCustomers email) with
  | none => exact .pure fun db hdb => ⟨linked_of_eq h db hdb, rfl⟩
  | some customer =>
    refine .bind (Q := fun _ db => Linked env c db ∧
      LinkAccepted env db₀.links customer.id (some userId)) ?_ fun _ => .pure ?_
    · unfold upsertCustomerLink
      refine .step (linked_of_eq h) ?_
      rintro db a db' rfl hrun
      split at hrun
      · next links hlinks =>
        obtain ⟨-, rfl⟩ := Prod.mk.inj (Except.ok.inj hrun)
        exact ⟨h.upsertLink hlinks fun _ _ => ⟨rfl, by simp⟩,
          (upsertLink_isOk_iff h.links).mp ⟨links, hlinks⟩⟩
      · cases hrun
    · rintro db ⟨hdb, haccepted⟩
      refine ⟨hdb, ?_⟩
      rw [Option.filter_some, if_pos (decide_eq_true haccepted)]

theorem findStripeCustomerByUser_linked :
    Call.Triple (fun db => db = db₀) (findStripeCustomerByUser env stripe userId email)
      (fun customer db => Linked env c db ∧ customer = foundCustomer? env stripe userId email db₀)
      (Linked env c) := by
  refine .read_bind (a := db₀.links.find? fun l => l.userId == some userId) (linked_of_eq h)
    (by rintro db rfl; rfl) ?_
  unfold foundCustomer?
  cases hlink : db₀.links.find? fun l => l.userId == some userId with
  | none => exact searchStripeCustomer_linked h
  | some link =>
    refine .read_bind (linked_of_eq h) (fun _ _ => rfl) ?_
    cases hcustomer : stripe.retrieveCustomer link.stripeCustomerId with
    | none =>
      simp only [Option.bind_some, hcustomer, Option.none_or]
      exact searchStripeCustomer_linked h
    | some customer =>
      simp only [Option.bind_some, hcustomer, Option.some_or]
      exact .pure fun db hdb => ⟨linked_of_eq h db hdb, rfl⟩

theorem getOrCreateStripeCustomer_linked :
    Call.Triple (fun db => db = db₀) (getOrCreateStripeCustomer env stripe userId email)
      (fun _ => Linked env c) (Linked env c) := by
  refine .bind (findStripeCustomerByUser_linked h) fun existing => ?_
  cases existing with
  | some customer => exact .pure fun _ hdb => hdb.1
  | none =>
    refine .read_bind (fun _ hdb => hdb.1) (fun _ _ => rfl) ?_
    refine .conseq (fun _ hdb => hdb.1) ?_ fun _ _ hdb => hdb
    exact .bind (upsertCustomerLink_linked fun _ => by simp) fun _ => .pure fun _ hdb => hdb

theorem startCheckout_linked {stripe : Option StripeApi} {plan : BillingPlan} :
    Call.Triple (fun db => db = db₀) (startCheckout env stripe userId plan) (fun _ => Linked env c)
      (Linked env c) := by
  unfold startCheckout
  cases stripe with
  | none => exact .throw (linked_of_eq h)
  | some stripe =>
    dsimp only
    split
    · exact .throw (linked_of_eq h)
    refine .read_bind (linked_of_eq h) (fun _ _ => rfl) ?_
    cases env.users.find? fun u => u.id == userId with
    | none => exact .throw (linked_of_eq h)
    | some user =>
      refine .bind (getOrCreateStripeCustomer_linked h) fun customer => ?_
      refine .read_bind (fun _ hdb => hdb) (fun _ _ => rfl) ?_
      cases stripe.createSession with
      | none => exact .throw fun _ hdb => hdb
      | some url => exact .pure fun _ hdb => hdb

theorem fetchCurrentBillingProfile_linked {stripe : Option StripeApi} {isProduction : Bool}
    {now : Nat} (hkeeps : ∀ s ∈ profileSubscription? env stripe userId db₀,
      s.customer = c → getSubscriptionUserId s ≠ none) :
    Call.Triple (fun db => db = db₀)
      (fetchCurrentBillingProfile env stripe isProduction userId now) (fun _ => Linked env c)
      (Linked env c) := by
  refine .read_bind (linked_of_eq h) (fun _ _ => rfl) ?_
  cases huser : env.users.find? fun u => u.id == userId with
  | none => exact .throw (linked_of_eq h)
  | some user =>
    cases stripe with
    | none => exact .pure (linked_of_eq h)
    | some stripe =>
      refine .read_bind (a := storedSubscription userId db₀) (linked_of_eq h)
        (by rintro db rfl; rfl) ?_
      cases hstored : (storedSubscription userId db₀).filter fun r => isActive r.status with
      | some r => exact .pure (linked_of_eq h)
      | none =>
        refine .bind (findStripeCustomerByUser_linked h) fun customer => ?_
        cases customer with
        | none => exact .pure fun _ hdb => hdb.1
        | some customer =>
          refine .of_and fun hcustomer => ?_
          refine .read_bind (fun _ hdb => hdb) (fun _ _ => rfl) ?_
          cases hactive : pickActiveSubscription (stripe.listSubscriptions customer.id) with
          | none => exact .pure fun _ hdb => hdb
          | some s =>
            have hs : profileSubscription? env (some stripe) userId db₀ = some s :=
              profileSubscription?_eq_some_iff.mpr
                ⟨user, stripe, customer, huser, rfl, hstored, hcustomer.symm, hactive⟩
            exact .bind (upsertSubscription_linked now (hkeeps s hs)) fun _ =>
              .pure fun _ hdb => hdb

end requests

/-- The step lemma. -/
theorem run_linked {db : Db} (h : Linked env c db) {request : BillingRequest}
    (hkeeps : KeepsUser env c db request) : Linked env c (request.run env db) := by
  cases request with
  | handleWebhook d =>
    refine Delivery.run_of_dispatch (P := Linked env c) ?_ ?_ h
    · exact fun db _ _ hdb => ⟨⟨hdb.links, hdb.subscriptions⟩, hdb.attached⟩
    · exact fun event hevent hfresh => dispatch_linked d.now (hkeeps event hevent hfresh)
  | startCheckout stripe userId plan stopsAfter =>
    exact (startCheckout_linked h).final (w := ⟨db, stopsAfter⟩) rfl
  | fetchCurrentBillingProfile stripe isProduction userId now stopsAfter =>
    exact (fetchCurrentBillingProfile_linked h hkeeps).final (w := ⟨db, stopsAfter⟩) rfl

/-! ### Writers that detach -/

/-- A link without a user is never refused, and leaves the customer without one. -/
theorem upsertCustomerLink_detaches {db : Db} (h : TablesHold env db)
    {userId organizationId email : Option String} (huser : userId = none) :
    ∃ links, upsertCustomerLink env c userId organizationId email ⟨db, none⟩ =
        (.ok (), ⟨{ db with links := links }, none⟩) ∧
      ¬ Attached c { db with links := links } := by
  subst huser
  have haccepted : LinkAccepted env db.links c none := by
    refine ⟨rfl, ?_⟩
    intro l _ hsome heq
    rw [heq] at hsome
    cases hsome
  obtain ⟨links, hlinks⟩ := (upsertLink_isOk_iff h.links).mpr haccepted
  refine ⟨links, onLinks_returns hlinks (fun n hn => by cases hn), ?_⟩
  rintro ⟨l, hl, hid, hsome⟩
  obtain ⟨-, htarget⟩ | rfl | ⟨l₀, -, -, rfl⟩ := Table.mem_upsert hlinks hl
  · rw [hid, beq_self_eq_true] at htarget
    cases htarget
  · exact hsome rfl
  · exact hsome rfl

theorem onSubscriptions_links {f : List SubscriptionRow → Except DbError (List SubscriptionRow)}
    (db : Db) : (onSubscriptions f ⟨db, none⟩).2.store.links = db.links := by
  have hlinks : Call.Triple (fun db' => db'.links = db.links) (onSubscriptions f)
      (fun _ db' => db'.links = db.links) (fun db' => db'.links = db.links) :=
    onSubscriptions_triple (fun _ h => h) fun _ _ h _ => h
  exact hlinks.final (w := ⟨db, none⟩) rfl

theorem upsertSubscription_detaches {db : Db} (h : TablesHold env db) {s : Subscription} (now : Nat)
    (huser : getSubscriptionUserId s = none) :
    ¬ Attached s.customer (upsertSubscription env s now ⟨db, none⟩).2.store := by
  obtain ⟨links, hrun, hdetached⟩ := upsertCustomerLink_detaches (c := s.customer) h huser
  unfold upsertSubscription
  rw [Call.bind_ok hrun, Attached, onSubscriptions_links]
  exact hdetached

theorem dispatch_detaches {db : Db} (h : TablesHold env db) {event : Event} (now : Nat)
    (hlink : event.link? = some (c, none)) :
    ¬ Attached c (dispatch env event now ⟨db, none⟩).2.store := by
  unfold Event.link? at hlink
  unfold dispatch
  cases hdata : event.data with
  | checkoutSessionCompleted session =>
    rw [hdata] at hlink
    obtain ⟨customerId, hcustomer, hpair⟩ := Option.map_eq_some_iff.mp hlink
    obtain ⟨rfl, huser⟩ := Prod.mk.inj hpair
    obtain ⟨links, hrun, hdetached⟩ := upsertCustomerLink_detaches (c := customerId) h huser
    simp only [hcustomer]
    rw [hrun]
    exact hdetached
  | subscriptionCreated s | subscriptionUpdated s | subscriptionResumed s
  | subscriptionTrialWillEnd s =>
    rw [hdata] at hlink
    obtain ⟨rfl, huser⟩ := Prod.mk.inj (Option.some.inj hlink)
    exact upsertSubscription_detaches h now huser
  | subscriptionDeleted s | subscriptionPaused s | other type =>
    rw [hdata] at hlink
    cases hlink

theorem searchStripeCustomer_run {stripe : StripeApi} {userId email : String} {db : Db}
    {customer : Customer} (h : TablesHold env db)
    (hchoose : chooseCustomer userId (stripe.listCustomers email) = some customer)
    (haccepted : LinkAccepted env db.links customer.id (some userId)) :
    ∃ db', TablesHold env db' ∧
      searchStripeCustomer env stripe userId email ⟨db, none⟩ =
        (.ok (some customer), ⟨db', none⟩) := by
  obtain ⟨links, hlinks⟩ := (upsertLink_isOk_iff h.links).mpr haccepted
  refine ⟨{ db with links := links }, ⟨h.links.upsert hlinks, h.subscriptions⟩, ?_⟩
  unfold searchStripeCustomer ask
  rw [Call.bind_ok (Call.read_apply _ db), hchoose]
  exact Call.bind_ok (onLinks_returns hlinks fun n hn => by cases hn)

theorem findStripeCustomerByUser_run {stripe : StripeApi} {userId email : String} {db : Db}
    {customer : Customer} (h : TablesHold env db)
    (hfound : foundCustomer? env stripe userId email db = some customer) :
    ∃ db', TablesHold env db' ∧ findStripeCustomerByUser env stripe userId email ⟨db, none⟩ =
      (.ok (some customer), ⟨db', none⟩) := by
  have hsearch : (chooseCustomer userId (stripe.listCustomers email)).filter (fun customer =>
      LinkAccepted env db.links customer.id (some userId)) = some customer →
      ∃ db', TablesHold env db' ∧ searchStripeCustomer env stripe userId email ⟨db, none⟩ =
        (.ok (some customer), ⟨db', none⟩) := by
    intro hfilter
    obtain ⟨hchoose, haccepted⟩ := Option.filter_eq_some_iff.mp hfilter
    exact searchStripeCustomer_run h hchoose (of_decide_eq_true haccepted)
  unfold foundCustomer? at hfound
  unfold findStripeCustomerByUser ask
  rw [Call.bind_ok (Call.read_apply _ db)]
  cases hlink : db.links.find? fun l => l.userId == some userId with
  | none =>
    rw [hlink] at hfound
    exact hsearch hfound
  | some link =>
    rw [hlink, Option.bind_some] at hfound
    dsimp only
    rw [Call.bind_ok (Call.read_apply _ db)]
    cases hcustomer : stripe.retrieveCustomer link.stripeCustomerId with
    | none =>
      rw [hcustomer] at hfound
      exact hsearch hfound
    | some customer' =>
      rw [hcustomer] at hfound
      obtain rfl : customer' = customer := Option.some.inj hfound
      exact ⟨db, h, rfl⟩

theorem fetchCurrentBillingProfile_detaches {stripe : Option StripeApi} {isProduction : Bool}
    {userId : String} {now : Nat} {db : Db} {s : Subscription} (h : TablesHold env db)
    (hs : profileSubscription? env stripe userId db = some s)
    (huser : getSubscriptionUserId s = none) :
    ¬ Attached s.customer
      (fetchCurrentBillingProfile env stripe isProduction userId now ⟨db, none⟩).2.store := by
  obtain ⟨user, api, customer, hfind, rfl, hstored, hcustomer, hactive⟩ :=
    profileSubscription?_eq_some_iff.mp hs
  obtain ⟨db', hdb', hrun⟩ := findStripeCustomerByUser_run h hcustomer
  unfold fetchCurrentBillingProfile getUserById ask
  rw [Call.bind_ok (Call.read_apply _ db), hfind]
  dsimp only
  rw [Call.bind_ok (Call.read_apply _ db), hstored]
  dsimp only
  rw [Call.bind_ok hrun]
  dsimp only
  rw [Call.bind_ok (Call.read_apply _ db'), hactive]
  dsimp only
  rw [Call.bind_pure_store]
  exact upsertSubscription_detaches hdb' now huser

/-- A request that does not stop and does not meet the condition detaches the customer. -/
theorem run_detaches {db : Db} {request : BillingRequest} (h : TablesHold env db)
    (hstops : request.stopsAfter = none) (hnot : ¬ KeepsUser env c db request) :
    ¬ Attached c (request.run env db) := by
  cases request with
  | handleWebhook d =>
    have hstops : d.stopsAfter = none := hstops
    simp only [KeepsUser, not_forall, not_not] at hnot
    obtain ⟨event, hevent, hfresh, hlink⟩ := hnot
    have hgo : (none : Option Nat) ≠ some 0 := by simp
    simp only [BillingRequest.run, Delivery.run, handleWebhook_event d.now hevent, hstops]
    rw [Attached, processEvent_links d.now hfresh hgo]
    exact dispatch_detaches (h.recorded event) d.now hlink
  | startCheckout stripe userId plan stopsAfter => exact absurd trivial hnot
  | fetchCurrentBillingProfile stripe isProduction userId now stopsAfter =>
    obtain rfl : stopsAfter = none := hstops
    simp only [KeepsUser, not_forall, not_not] at hnot
    obtain ⟨s, hs, rfl, huser⟩ := hnot
    exact fetchCurrentBillingProfile_detaches h hs huser

variable (env c)

/-- A customer once attached to a user stays attached while every request meets the condition; an
    undisturbed request that does not meet it detaches the customer. -/
theorem attached_customers_stay_attached :
    (∀ db, (linkSystem env c).ReachableUnder (KeepsUser env c) db → Attached c db) ∧
    (∀ db request, TablesHold env db → request.stopsAfter = none → ¬ KeepsUser env c db request →
      ¬ Attached c (request.run env db)) := by
  constructor
  · intro db hrun
    have hlinked : Linked env c db := by
      refine hrun.invariant (fun _ hinit => hinit) ?_
      intro db request db' hdb hkeeps hstep
      obtain rfl := Option.some.inj hstep
      exact run_linked hdb hkeeps
    exact hlinked.attached
  · exact fun db request h hstops hnot => run_detaches h hstops hnot

end writers

/-! ### A checkout, and the subscription it leads to -/

def buyerLinked : Db := ⟨[⟨"cus", some "user", none, some "buyer@example.com"⟩], [], [], []⟩

theorem buyerLinked_linked : Linked buyers "cus" buyerLinked := by
  refine ⟨⟨⟨?_, ?_, ?_⟩, ⟨?_, ?_, ?_⟩⟩, ?_⟩
  · exact fun _ _ => rfl
  · exact List.pairwise_singleton _ _
  · decide
  · exact fun _ _ => rfl
  · exact .nil
  · decide
  · exact ⟨_, List.mem_cons_self, rfl, by simp⟩

/-- A subscription whose metadata has the user. -/
def taggedCreated : Event :=
  ⟨"evt_tagged", 1, .subscriptionCreated
    { startupSubscription .active with metadata := { userId := some "user" } }⟩

/-- The checkout is completed, and the subscription's metadata has the user. -/
theorem attached_customers_stay_attached_run :
    Attached "cus" ((BillingRequest.handleWebhook (deliver taggedCreated none)).run buyers
      ((BillingRequest.handleWebhook (deliver checkoutCompleted none)).run buyers
        buyerLinked)) := by
  refine (attached_customers_stay_attached buyers "cus").1 _ (.step _ (.step _
    (.init buyerLinked_linked) ?_ rfl) ?_ rfl)
  · intro event hevent _
    obtain rfl := Option.some.inj hevent
    decide
  · intro event hevent _
    obtain rfl := Option.some.inj hevent
    decide

/-- Stripe knows no customer yet. -/
def newCustomer : StripeApi :=
  { retrieveCustomer := fun _ => none, listCustomers := fun _ => []
    createCustomer := ⟨"cus", some "buyer@example.com", { userId := some "user" }⟩
    listSubscriptions := fun _ => [], createSession := some "https://checkout.example.com" }

/-- The checkout links the new customer to the user; the subscription it leads to has no user in
    its metadata, and its creation detaches the customer. -/
theorem subscription_created_detaches :
    ∃ attached detached,
      (linkSystem buyers "cus").exec nothingSold
        [.startCheckout (some newCustomer) "user" .startup none] = some attached ∧
      Attached "cus" attached ∧
      (linkSystem buyers "cus").exec attached
        [.handleWebhook (deliver subscriptionCreated none)] = some detached ∧
      ¬ Attached "cus" detached :=
  ⟨_, _, rfl, by decide, rfl, by decide⟩

end Notebortt.Billing
