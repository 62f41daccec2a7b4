import Mathlib.Data.List.Nodup
import Notebortt.Billing.CustomerLinks

/-! # The plan of the mirrored subscriptions

    `fetchCurrentBillingProfile` takes the stored row that was written last, and
    asks Stripe only when that one is not in an active state; then it takes the
    active subscription that was created last. Here the table has been filled
    from Stripe, one snapshot of each of a user's subscriptions after another. -/

open Table (DbError)

namespace Notebortt.Billing

/-- How many subscriptions the request to Stripe lists. -/
def SUBSCRIPTION_LIST_LIMIT : Nat := 20

/-! ### Mirroring -/

section mirror
variable (env : Env)

/-- A snapshot, and when it is mirrored. -/
abbrev Mirrored : Type := Subscription × Nat

/-- `upsertSubscription` of a snapshot, when nothing of it is refused. -/
def mirror (db : Db) (m : Mirrored) : Option Db :=
  match upsertSubscription env m.1 m.2 ⟨db, none⟩ with
  | (.ok (), w) => some w.store
  | (.error _, _) => none

/-- The row it writes. -/
def mirroredRow (m : Mirrored) : SubscriptionRow := subscriptionRow m.1 (planOf env m.1) m.2

/-- The snapshots of the user's subscriptions are mirrored in this order. -/
structure MirrorRun (user : User) (subscriptions : List Subscription) (order : List Mirrored)
    (db db' : Db) : Prop where
  tables : TablesHold env db
  found : env.users.find? (fun u => u.id == user.id) = some user
  noRow : ∀ r ∈ db.subscriptions, r.userId ≠ some user.id
  owned : ∀ s ∈ subscriptions, getSubscriptionUserId s = some user.id
  created : (subscriptions.map Subscription.created).Nodup
  snapshots : ∀ m ∈ order, m.1 ∈ subscriptions
  covers : ∀ s ∈ subscriptions, ∃ m ∈ order, m.1 = s
  later : order.Pairwise fun m m' => m.2 < m'.2
  mirrored : order.foldlM (mirror env) db = some db'

/-! ### The plan -/

def subscriptionPlan (s : Subscription) : BillingPlan := (subscriptionProfile env s).currentPlan

/-- The plan of the active subscription that was created last. -/
def latestActivePlan (subscriptions : List Subscription) : BillingPlan :=
  match pickActiveSubscription subscriptions with
  | some s => subscriptionPlan env s
  | none => .free

/-- The plan of the profile, when the request is answered. -/
def reportedPlan (stripe : StripeApi) (isProduction : Bool) (userId : String) (now : Nat)
    (db : Db) : Option BillingPlan :=
  match (fetchCurrentBillingProfile env (some stripe) isProduction userId now ⟨db, none⟩).1 with
  | .ok profile => some profile.currentPlan
  | .error _ => none

/-- What Stripe lists of the subscriptions: those created last, up to a limit. -/
structure NewestPage (limit : Nat) (subscriptions page : List Subscription) : Prop where
  mem : ∀ s ∈ page, s ∈ subscriptions
  nodup : page.Nodup
  length_le : page.length ≤ limit
  newest : ∀ s ∈ subscriptions, s ∉ page →
    page.length = limit ∧ ∀ t ∈ page, s.created < t.created

/-- The customer that Stripe has for the user is the one with these subscriptions. -/
def StripeKnows (stripe : StripeApi) (user : User) (db : Db) (subscriptions : List Subscription) :
    Prop :=
  match foundCustomer? env stripe user.id user.email db with
  | some customer =>
    NewestPage SUBSCRIPTION_LIST_LIMIT subscriptions (stripe.listSubscriptions customer.id)
  | none => subscriptions = [] ∧ chooseCustomer user.id (stripe.listCustomers user.email) = none

/-- The last snapshot mirrored, if it is in an active state. -/
def lastActive? (order : List Mirrored) : Option Subscription :=
  (order.getLast?.map Prod.fst).filter fun s => isActive s.status

/-- Both are trials, or neither is and the plan of their prices is the same. -/
def SamePlan (s t : Subscription) : Prop :=
  (s.status = .trialing ↔ t.status = .trialing) ∧
    (s.status ≠ .trialing → planOf env s = planOf env t)

/-- The last snapshot mirrored is active and has the plan of the active subscription created last,
    or it is not active, and Stripe's list reaches that subscription or its plan is free. -/
def PlansAgree (subscriptions : List Subscription) (order : List Mirrored) : Prop :=
  match lastActive? order with
  | some last => ∀ s, pickActiveSubscription subscriptions = some s → SamePlan env last s
  | none => ∀ s, pickActiveSubscription subscriptions = some s →
      (subscriptions.filter fun t => s.created < t.created).length < SUBSCRIPTION_LIST_LIMIT ∨
        subscriptionPlan env s = .free

end mirror

section agreement
variable {env : Env}

/-! ### What mirroring leaves -/

/-- The customer is linked to the user. -/
def HasLink (customerId userId : String) (db : Db) : Prop :=
  ∃ l ∈ db.links, l.stripeCustomerId = customerId ∧ l.userId = some userId

/-- The rows of the user are written by mirroring, and the last one stands as it was written. -/
structure HoldsMirrored (env : Env) (userId : String) (done : List Mirrored) (db : Db) : Prop where
  tables : TablesHold env db
  rows : ∀ r ∈ db.subscriptions, r.userId = some userId → ∃ m ∈ done, r = mirroredRow env m
  last : ∀ m ∈ done.getLast?, mirroredRow env m ∈ db.subscriptions
  linked : ∀ m ∈ done, HasLink m.1.customer userId db

/-- An upsert with the user leaves the customers linked to the user. -/
theorem HasLink.upsert {customerId userId : String} {db : Db} (h : HasLink customerId userId db)
    {target : CustomerLink → Bool} {set : CustomerLink → CustomerLink} {row : CustomerLink}
    {links : List CustomerLink}
    (hlinks : Table.upsert (linkConstraints env) target set row db.links = .ok links)
    (hset : ∀ l, (set l).stripeCustomerId = l.stripeCustomerId ∧ (set l).userId = some userId) :
    ∃ l ∈ links, l.stripeCustomerId = customerId ∧ l.userId = some userId := by
  obtain ⟨l, hl, hcustomer, huser⟩ := h
  have hstays := Table.mem_of_upsert hlinks hl
  split at hstays
  · exact ⟨set l, hstays, (hset l).1.trans hcustomer, (hset l).2⟩
  · exact ⟨l, hstays, hcustomer, huser⟩

variable (env) in
/-- The two statements of an upsert. -/
theorem upsertSubscription_triple (db : Db) (s : Subscription) (now : Nat) :
    Call.Triple (fun d => d = db) (upsertSubscription env s now)
      (fun _ d => ∃ links rows,
        Table.upsert (linkConstraints env) (fun l => l.stripeCustomerId == s.customer)
          (fun l => { l with
            userId := getSubscriptionUserId s, organizationId := getSubscriptionOrganizationId s
            email := none })
          ⟨s.customer, getSubscriptionUserId s, getSubscriptionOrganizationId s, none⟩
          db.links = .ok links ∧
        Table.upsert (subscriptionConstraints env) (isRowOf s)
          (fun _ => mirroredRow env (s, now)) (mirroredRow env (s, now))
          db.subscriptions = .ok rows ∧
        d = { db with links := links, subscriptions := rows })
      fun _ => True := by
  refine .bind (Q := fun _ d => ∃ links,
    Table.upsert (linkConstraints env) (fun l => l.stripeCustomerId == s.customer)
      (fun l => { l with
        userId := getSubscriptionUserId s, organizationId := getSubscriptionOrganizationId s
        email := none })
      ⟨s.customer, getSubscriptionUserId s, getSubscriptionOrganizationId s, none⟩
      db.links = .ok links ∧ d = { db with links := links }) ?_ fun _ => ?_
  · refine onLinks_triple (fun _ _ => trivial) ?_
    intro d links hd hlinks
    subst hd
    exact ⟨links, hlinks, rfl⟩
  · refine onSubscriptions_triple (fun _ _ => trivial) ?_
    intro d rows hd hrows
    obtain ⟨links, hlinks, rfl⟩ := hd
    exact ⟨links, rows, hlinks, hrows, rfl⟩

/-- Mirroring one more snapshot of the user. -/
theorem HoldsMirrored.mirror {userId : String} {done : List Mirrored} {db db' : Db} {m : Mirrored}
    (h : HoldsMirrored env userId done db) (howned : getSubscriptionUserId m.1 = some userId)
    (hm : mirror env db m = some db') : HoldsMirrored env userId (done ++ [m]) db' := by
  have htriple := upsertSubscription_triple env db m.1 m.2 ⟨db, none⟩ rfl
  unfold Billing.mirror at hm
  split at hm
  · next w hrun =>
    rw [hrun] at htriple
    obtain rfl := Option.some.inj hm
    obtain ⟨links, rows, hlinks, hrows, hdb⟩ := htriple
    rw [hdb]
    constructor
    · exact ⟨h.tables.links.upsert hlinks, h.tables.subscriptions.upsert hrows⟩
    · -- A row is as before, or the one written now, inserted or over the old one.
      intro r hr huser
      obtain ⟨hr, -⟩ | rfl | ⟨r₀, -, -, rfl⟩ := Table.mem_upsert hrows hr
      · obtain ⟨m', hm', rfl⟩ := h.rows r hr huser
        exact ⟨m', List.mem_append_left _ hm', rfl⟩
      · exact ⟨m, List.mem_append_right _ (List.mem_singleton_self m), rfl⟩
      · exact ⟨m, List.mem_append_right _ (List.mem_singleton_self m), rfl⟩
    · intro m' hm'
      rw [List.getLast?_concat] at hm'
      obtain rfl := Option.some.inj hm'
      have hfind : (rows.find? (isRowOf m.1)).map id = some (mirroredRow env m) :=
        Table.map_find?_upsert id (fun _ _ => ⟨beq_iff_eq.mpr rfl, rfl⟩)
          ⟨beq_iff_eq.mpr rfl, rfl⟩ hrows
      rw [Option.map_id_fun, id] at hfind
      exact List.mem_of_find?_eq_some hfind
    · intro m' hm'
      rcases List.mem_append.mp hm' with hm' | hm'
      · exact (h.linked m' hm').upsert hlinks fun _ => ⟨rfl, howned⟩
      · -- The customer of this snapshot is linked by its own upsert.
        obtain rfl := List.mem_singleton.mp hm'
        have hfind : (links.find? fun l => l.stripeCustomerId == m'.1.customer).map
            (fun l => (l.stripeCustomerId, l.userId)) = some (m'.1.customer, some userId) := by
          refine Table.map_find?_upsert _ ?_ ?_ hlinks
          · exact fun l hl => ⟨hl, Prod.ext (beq_iff_eq.mp hl) howned⟩
          · exact ⟨beq_iff_eq.mpr rfl, Prod.ext rfl howned⟩
        obtain ⟨l, hl, heq⟩ := Option.map_eq_some_iff.mp hfind
        exact ⟨l, List.mem_of_find?_eq_some hl, (Prod.mk.inj heq).1, (Prod.mk.inj heq).2⟩
  · cases hm

theorem HoldsMirrored.run {userId : String} {order : List Mirrored}
    (howned : ∀ m ∈ order, getSubscriptionUserId m.1 = some userId) :
    ∀ {done : List Mirrored} {db db' : Db}, HoldsMirrored env userId done db →
      order.foldlM (Billing.mirror env) db = some db' →
      HoldsMirrored env userId (done ++ order) db' := by
  induction order with
  | nil =>
    intro done db db' h hrun
    obtain rfl := Option.some.inj hrun
    rwa [List.append_nil]
  | cons m order ih =>
    intro done db db' h hrun
    -- The snapshots still to be mirrored follow one more that is done.
    obtain ⟨db₁, hm, hrest⟩ := Option.bind_eq_some_iff.mp hrun
    have h₁ := h.mirror (howned m List.mem_cons_self) hm
    have hdone := ih (fun m' hm' => howned m' (List.mem_cons_of_mem m hm')) h₁ hrest
    rwa [List.append_assoc, List.singleton_append] at hdone

/-- The stored row that the profile looks at is that of the last snapshot. -/
theorem HoldsMirrored.stored {userId : String} {order : List Mirrored} {db : Db}
    (h : HoldsMirrored env userId order db)
    (howned : ∀ m ∈ order, getSubscriptionUserId m.1 = some userId)
    (hlater : order.Pairwise fun m m' => m.2 < m'.2) :
    storedSubscription userId db = order.getLast?.map (mirroredRow env) := by
  have hrows : ∀ r ∈ db.subscriptions.filter (fun r => r.userId == some userId),
      ∃ m ∈ order, r = mirroredRow env m := by
    intro r hr
    obtain ⟨hr, huser⟩ := List.mem_filter.mp hr
    exact h.rows r hr (beq_iff_eq.mp huser)
  unfold storedSubscription
  rcases List.eq_nil_or_concat order with rfl | ⟨init, last, rfl⟩
  · rw [List.getLast?_nil, Option.map_none, List.argmax_eq_none, List.eq_nil_iff_forall_not_mem]
    intro r hr
    obtain ⟨m, hm, -⟩ := hrows r hr
    cases hm
  · rw [List.concat_eq_append] at *
    have hlast : last ∈ init ++ [last] := List.mem_append_right _ (List.mem_singleton_self last)
    have hmem : mirroredRow env last ∈
        db.subscriptions.filter fun r => r.userId == some userId :=
      List.mem_filter.mpr ⟨h.last last List.getLast?_concat, beq_iff_eq.mpr (howned last hlast)⟩
    rw [List.getLast?_concat, Option.map_some]
    cases hmax : (db.subscriptions.filter fun r => r.userId == some userId).argmax
        SubscriptionRow.updatedAt with
    | none =>
      rw [List.argmax_eq_none.mp hmax] at hmem
      cases hmem
    | some r =>
      -- The row is that of a snapshot, and none but the last was mirrored so late.
      obtain ⟨m, hm, rfl⟩ := hrows r (List.argmax_mem hmax)
      have hle : (mirroredRow env last).updatedAt ≤ (mirroredRow env m).updatedAt :=
        List.le_of_mem_argmax hmem hmax
      have hle : last.2 ≤ m.2 := hle
      rcases List.mem_append.mp hm with hm | hm
      · have hlt := (List.pairwise_append.mp hlater).2.2 m hm last (List.mem_singleton_self last)
        omega
      · rw [List.mem_singleton.mp hm]

/-! ### The subscription that was created last -/

theorem mem_of_pickActiveSubscription {subscriptions : List Subscription} {s : Subscription}
    (h : pickActiveSubscription subscriptions = some s) :
    s ∈ subscriptions ∧ isActive s.status = true :=
  List.mem_filter.mp (List.argmax_mem h)

theorem created_le_of_pickActiveSubscription {subscriptions : List Subscription}
    {s t : Subscription} (h : pickActiveSubscription subscriptions = some s)
    (ht : t ∈ subscriptions) (hactive : isActive t.status = true) : t.created ≤ s.created :=
  List.le_of_mem_argmax (List.mem_filter.mpr ⟨ht, hactive⟩) h

theorem pickActiveSubscription_eq_none_iff {subscriptions : List Subscription} :
    pickActiveSubscription subscriptions = none ↔
      ∀ s ∈ subscriptions, isActive s.status = false := by
  unfold pickActiveSubscription
  rw [List.argmax_eq_none, List.filter_eq_nil_iff]
  simp only [Bool.not_eq_true]

section page
variable {limit : Nat} {subscriptions page : List Subscription}

theorem NewestPage.mem_iff (h : NewestPage limit subscriptions page)
    (hnodup : subscriptions.Nodup) {s : Subscription} (hs : s ∈ subscriptions) :
    s ∈ page ↔ (subscriptions.filter fun t => s.created < t.created).length < limit := by
  constructor
  · intro hpage
    -- What was created after `s` is listed too, and so is `s`.
    have hsub : (s :: subscriptions.filter fun t => s.created < t.created) ⊆ page := by
      refine List.cons_subset.mpr ⟨hpage, ?_⟩
      intro t ht
      obtain ⟨ht, hlt⟩ := List.mem_filter.mp ht
      by_contra hnot
      have hgt := (h.newest t ht hnot).2 s hpage
      simp only [decide_eq_true_eq] at hlt
      omega
    have hcons : (s :: subscriptions.filter fun t => s.created < t.created).Nodup :=
      List.nodup_cons.mpr ⟨fun hmem => by simpa using (List.mem_filter.mp hmem).2,
        hnodup.filter _⟩
    have hle := (List.subperm_of_subset hcons hsub).length_le
    rw [List.length_cons] at hle
    have := h.length_le
    omega
  · intro hlt
    by_contra hnot
    obtain ⟨hlength, hnewer⟩ := h.newest s hs hnot
    -- The page is full of subscriptions created after `s`.
    have hsub : page ⊆ subscriptions.filter fun t => s.created < t.created := by
      intro t ht
      exact List.mem_filter.mpr ⟨h.mem t ht, decide_eq_true (hnewer t ht)⟩
    have hle := (List.subperm_of_subset h.nodup hsub).length_le
    omega

/-- The plan by the list is that by all subscriptions, when the list reaches the one that decides
    or its plan is free. -/
theorem NewestPage.latestActivePlan_eq_iff (h : NewestPage limit subscriptions page)
    (hcreated : (subscriptions.map Subscription.created).Nodup) :
    latestActivePlan env page = latestActivePlan env subscriptions ↔
      ∀ s, pickActiveSubscription subscriptions = some s →
        (subscriptions.filter fun t => s.created < t.created).length < limit ∨
          subscriptionPlan env s = .free := by
  unfold latestActivePlan
  cases hactive : pickActiveSubscription subscriptions with
  | none =>
    have hnone : pickActiveSubscription page = none := by
      refine pickActiveSubscription_eq_none_iff.mpr ?_
      exact fun s hs => pickActiveSubscription_eq_none_iff.mp hactive s (h.mem s hs)
    rw [hnone]
    simp
  | some s =>
    obtain ⟨hs, hstatus⟩ := mem_of_pickActiveSubscription hactive
    simp only [Option.some.injEq, forall_eq', ← h.mem_iff (List.Nodup.of_map _ hcreated) hs]
    by_cases hpage : s ∈ page
    · -- The page's own choice is as late as `s`, and no later.
      have hsame : pickActiveSubscription page = some s := by
        cases hpick : pickActiveSubscription page with
        | none =>
          rw [pickActiveSubscription_eq_none_iff.mp hpick s hpage] at hstatus
          cases hstatus
        | some t =>
          obtain ⟨ht, htstatus⟩ := mem_of_pickActiveSubscription hpick
          have hle := created_le_of_pickActiveSubscription hactive (h.mem t ht) htstatus
          have hge := created_le_of_pickActiveSubscription hpick hpage hstatus
          rw [List.inj_on_of_nodup_map hcreated (h.mem t ht) hs (Nat.le_antisymm hle hge)]
      rw [hsame]
      exact ⟨fun _ => .inl hpage, fun _ => rfl⟩
    · -- What is on the page is newer than `s`, so none of it is active.
      have hnone : pickActiveSubscription page = none := by
        refine pickActiveSubscription_eq_none_iff.mpr ?_
        intro t ht
        by_contra hne
        have hle := created_le_of_pickActiveSubscription hactive (h.mem t ht)
          (Bool.not_eq_false _ ▸ hne)
        have hgt := (h.newest s hs hpage).2 t ht
        omega
      rw [hnone]
      exact ⟨fun heq => .inr heq.symm, fun hor => (hor.resolve_left hpage).symm⟩

end page

theorem planOf_cases (env : Env) (s : Subscription) :
    planOf env s = .business ∨ planOf env s = .startup ∨ planOf env s = .free := by
  unfold planOf getPlanFromPriceId
  split
  · exact .inr (.inr rfl)
  split
  · exact .inl rfl
  split
  · exact .inr (.inl rfl)
  · exact .inr (.inr rfl)

theorem planOf_ne_trial (s : Subscription) : planOf env s ≠ .trial := by
  obtain h | h | h := planOf_cases env s <;> rw [h] <;> nofun

theorem subscriptionPlan_eq (s : Subscription) :
    subscriptionPlan env s = if s.status = .trialing then .trial else planOf env s := rfl

theorem subscriptionPlan_eq_iff {s t : Subscription} :
    subscriptionPlan env s = subscriptionPlan env t ↔ SamePlan env s t := by
  unfold SamePlan
  rw [subscriptionPlan_eq, subscriptionPlan_eq]
  by_cases hs : s.status = .trialing
  · by_cases ht : t.status = .trialing
    · simp [hs, ht]
    · simp [hs, ht, (planOf_ne_trial t).symm]
  · by_cases ht : t.status = .trialing
    · simp [hs, ht, planOf_ne_trial s]
    · simp [hs, ht]

theorem getPlanFromSubscriptionRecord_mirroredRow (m : Mirrored) :
    getPlanFromSubscriptionRecord (mirroredRow env m) = subscriptionPlan env m.1 := by
  show (if m.1.status = .trialing then BillingPlan.trial
    else if planOf env m.1 = .business then .business
    else if planOf env m.1 = .startup then .startup else .free) = _
  rw [subscriptionPlan_eq]
  obtain h | h | h := planOf_cases env m.1 <;> rw [h] <;> rfl

/-! ### The request to Stripe -/

/-- A customer linked to the user may be linked to it again. -/
theorem HasLink.accepted {customerId userId : String} {db : Db} (h : HasLink customerId userId db)
    (htables : TablesHold env db) : LinkAccepted env db.links customerId (some userId) := by
  obtain ⟨l, hl, rfl, huser⟩ := h
  constructor
  · have hreferences : l.userId.all env.hasUser = true := htables.links.references l hl
    rwa [huser] at hreferences
  · intro l' hl' _ huser'
    have hclash : (linkConstraints env).clash l' l = true := by
      simp only [linkConstraints, huser', huser, Option.isSome_some, beq_self_eq_true,
        Bool.and_self, Bool.or_true]
    rw [htables.links.eq_of_clash hl' hl hclash]

/-- The tables hold, and these customers are linked to the user. -/
structure KeepsLinks (env : Env) (userId : String) (customers : List String) (db : Db) : Prop
    extends TablesHold env db where
  linked : ∀ customerId ∈ customers, HasLink customerId userId db

theorem searchStripeCustomer_keepsLinks {stripe : StripeApi} {userId email : String}
    {customers : List String} :
    Call.Triple (KeepsLinks env userId customers) (searchStripeCustomer env stripe userId email)
      (fun _ => KeepsLinks env userId customers) (KeepsLinks env userId customers) := by
  refine .read_bind (fun _ h => h) (fun _ _ => rfl) ?_
  cases chooseCustomer userId (stripe.listCustomers email) with
  | none => exact .pure fun _ h => h
  | some customer =>
    refine .bind (Q := fun _ => KeepsLinks env userId customers) ?_ fun _ => .pure fun _ h => h
    refine onLinks_triple (fun _ h => h) ?_
    intro db links h hlinks
    refine ⟨⟨h.links.upsert hlinks, h.subscriptions⟩, ?_⟩
    exact fun customerId hmem => (h.linked customerId hmem).upsert hlinks fun _ => ⟨rfl, rfl⟩

theorem findStripeCustomerByUser_keepsLinks {stripe : StripeApi} {userId email : String}
    {customers : List String} :
    Call.Triple (KeepsLinks env userId customers)
      (findStripeCustomerByUser env stripe userId email)
      (fun _ => KeepsLinks env userId customers) (KeepsLinks env userId customers) := by
  refine .bind (Q := fun _ => KeepsLinks env userId customers)
    (.read (fun _ h => h) fun _ _ h _ => h) fun existingLink => ?_
  cases existingLink with
  | none => exact searchStripeCustomer_keepsLinks
  | some link =>
    refine .read_bind (fun _ h => h) (fun _ _ => rfl) ?_
    cases stripe.retrieveCustomer link.stripeCustomerId with
    | none => exact searchStripeCustomer_keepsLinks
    | some customer => exact .pure fun _ h => h

theorem findStripeCustomerByUser_none {stripe : StripeApi} {userId email : String} {db : Db}
    (hfound : foundCustomer? env stripe userId email db = none)
    (hchoose : chooseCustomer userId (stripe.listCustomers email) = none) :
    findStripeCustomerByUser env stripe userId email ⟨db, none⟩ = (.ok none, ⟨db, none⟩) := by
  have hsearch : searchStripeCustomer env stripe userId email ⟨db, none⟩ =
      (.ok none, ⟨db, none⟩) := by
    unfold searchStripeCustomer ask
    rw [Call.bind_ok (Call.read_apply _ db), hchoose]
    rfl
  unfold foundCustomer? at hfound
  unfold findStripeCustomerByUser ask
  rw [Call.bind_ok (Call.read_apply _ db)]
  cases hlink : db.links.find? fun l => l.userId == some userId with
  | none => exact hsearch
  | some link =>
    rw [hlink, Option.bind_some] at hfound
    dsimp only
    rw [Call.bind_ok (Call.read_apply _ db), (Option.or_eq_none_iff.mp hfound).1]
    exact hsearch

/-! ### The profile -/

theorem reportedPlan_stored {stripe : StripeApi} {isProduction : Bool} {user : User} {now : Nat}
    {db : Db} {r : SubscriptionRow} (hfind : env.users.find? (fun u => u.id == user.id) = some user)
    (hstored : (storedSubscription user.id db).filter (fun r => isActive r.status) = some r) :
    reportedPlan env stripe isProduction user.id now db =
      some (getPlanFromSubscriptionRecord r) := by
  unfold reportedPlan fetchCurrentBillingProfile getUserById
  rw [Call.bind_ok (Call.read_apply _ db), hfind]
  dsimp only
  rw [Call.bind_ok (Call.read_apply _ db), hstored]
  rfl

/-- What is reported once the customer is asked for. -/
theorem reportedPlan_asked {stripe : StripeApi} {isProduction : Bool} {user : User} {now : Nat}
    {db db' : Db} {customer : Option Customer}
    (hfind : env.users.find? (fun u => u.id == user.id) = some user)
    (hstored : (storedSubscription user.id db).filter (fun r => isActive r.status) = none)
    (hrun : findStripeCustomerByUser env stripe user.id user.email ⟨db, none⟩ =
      (.ok customer, ⟨db', none⟩))
    (hupsert : ∀ c, customer = some c → ∀ s ∈ stripe.listSubscriptions c.id,
      ∃ db'', upsertSubscription env s now ⟨db', none⟩ = (.ok (), ⟨db'', none⟩)) :
    reportedPlan env stripe isProduction user.id now db =
      some (customer.elim .free fun c =>
        latestActivePlan env (stripe.listSubscriptions c.id)) := by
  unfold reportedPlan fetchCurrentBillingProfile getUserById ask latestActivePlan
  rw [Call.bind_ok (Call.read_apply _ db), hfind]
  dsimp only
  rw [Call.bind_ok (Call.read_apply _ db), hstored]
  dsimp only
  rw [Call.bind_ok hrun]
  cases customer with
  | none => rfl
  | some c =>
    dsimp only [Option.elim]
    rw [Call.bind_ok (Call.read_apply _ db')]
    cases hactive : pickActiveSubscription (stripe.listSubscriptions c.id) with
    | none => rfl
    | some s =>
      obtain ⟨db'', hs⟩ := hupsert c rfl s (mem_of_pickActiveSubscription hactive).1
      dsimp only
      rw [Call.bind_ok hs]
      rfl

theorem reportedPlan_noCustomer {stripe : StripeApi} {isProduction : Bool} {user : User}
    {now : Nat} {db : Db} (hfind : env.users.find? (fun u => u.id == user.id) = some user)
    (hstored : (storedSubscription user.id db).filter (fun r => isActive r.status) = none)
    (hfound : foundCustomer? env stripe user.id user.email db = none)
    (hchoose : chooseCustomer user.id (stripe.listCustomers user.email) = none) :
    reportedPlan env stripe isProduction user.id now db = some .free :=
  reportedPlan_asked hfind hstored (findStripeCustomerByUser_none hfound hchoose)
    fun c hc => by cases hc

/-- The plan of what Stripe lists; the subscriptions listed are of customers linked to the user. -/
theorem reportedPlan_customer {stripe : StripeApi} {isProduction : Bool} {user : User}
    {now : Nat} {db : Db} {customer : Customer} {customers : List String}
    (hfind : env.users.find? (fun u => u.id == user.id) = some user)
    (hstored : (storedSubscription user.id db).filter (fun r => isActive r.status) = none)
    (hfound : foundCustomer? env stripe user.id user.email db = some customer)
    (hlinks : KeepsLinks env user.id customers db)
    (hlisted : ∀ s ∈ stripe.listSubscriptions customer.id,
      getSubscriptionUserId s = some user.id ∧ s.customer ∈ customers) :
    reportedPlan env stripe isProduction user.id now db =
      some (latestActivePlan env (stripe.listSubscriptions customer.id)) := by
  obtain ⟨db', -, hrun⟩ := findStripeCustomerByUser_run hlinks.toTablesHold hfound
  have htriple : Call.Triple (KeepsLinks env user.id customers)
      (findStripeCustomerByUser env stripe user.id user.email) _ _ :=
    findStripeCustomerByUser_keepsLinks
  have hkeeps := htriple ⟨db, none⟩ hlinks
  rw [hrun] at hkeeps
  refine reportedPlan_asked hfind hstored hrun ?_
  -- The upsert before the answer is not refused: the customer is the user's already.
  intro c hc s hs
  obtain rfl := Option.some.inj hc
  obtain ⟨howned, hcustomer⟩ := hlisted s hs
  have haccepted : LinkAccepted env db'.links s.customer (getSubscriptionUserId s) := by
    rw [howned]
    exact (hkeeps.linked s.customer hcustomer).accepted hkeeps.toTablesHold
  have hends : Ends (upsertSubscription env s now) _ 2 db' none :=
    upsertSubscription_ends hkeeps.toTablesHold
  exact hends.returns haccepted fun n hn => by cases hn

/-! ### Agreement -/

section runs
variable {user : User} {subscriptions : List Subscription} {order : List Mirrored} {db db' : Db}

theorem MirrorRun.ownedMirrored (h : MirrorRun env user subscriptions order db db') :
    ∀ m ∈ order, getSubscriptionUserId m.1 = some user.id :=
  fun m hm => h.owned m.1 (h.snapshots m hm)

theorem MirrorRun.holds (h : MirrorRun env user subscriptions order db db') :
    HoldsMirrored env user.id order db' := by
  have hstart : HoldsMirrored env user.id [] db := by
    refine ⟨h.tables, ?_, ?_, ?_⟩
    · exact fun r hr huser => absurd huser (h.noRow r hr)
    · intro m hm
      cases hm
    · intro m hm
      cases hm
  exact hstart.run h.ownedMirrored h.mirrored

/-- What Stripe lists belongs to the user, and its customers are linked to the user. -/
theorem MirrorRun.listed (h : MirrorRun env user subscriptions order db db') {limit : Nat}
    {page : List Subscription} (hpage : NewestPage limit subscriptions page) :
    ∀ s ∈ page, getSubscriptionUserId s = some user.id ∧
      s.customer ∈ order.map fun m => m.1.customer := by
  intro s hs
  obtain ⟨m, hm, rfl⟩ := h.covers s (hpage.mem s hs)
  exact ⟨h.ownedMirrored m hm, List.mem_map_of_mem hm⟩

theorem MirrorRun.keepsLinks (h : MirrorRun env user subscriptions order db db') :
    KeepsLinks env user.id (order.map fun m => m.1.customer) db' := by
  refine ⟨h.holds.tables, ?_⟩
  intro customerId hmem
  obtain ⟨m, hm, rfl⟩ := List.mem_map.mp hmem
  exact h.holds.linked m hm

/-- The stored row that decides, and the snapshot it is of. -/
theorem MirrorRun.storedActive (h : MirrorRun env user subscriptions order db db') :
    (storedSubscription user.id db').filter (fun r => isActive r.status) =
      (order.getLast?.filter fun m => isActive m.1.status).map (mirroredRow env) := by
  rw [h.holds.stored h.ownedMirrored h.later, Option.filter_map]
  rfl

theorem lastActive?_eq :
    lastActive? order =
      (order.getLast?.filter fun m => isActive m.1.status).map Prod.fst := by
  unfold lastActive?
  rw [Option.filter_map]
  rfl

/-- From the table that a user's subscriptions were mirrored to, the plan reported is that of the
    active subscription created last exactly when the snapshot mirrored last agrees with it, or is
    not active and Stripe's list reaches that subscription. -/
theorem reportedPlan_eq_latestActivePlan_iff {stripe : StripeApi} {isProduction : Bool} {now : Nat}
    (hrun : MirrorRun env user subscriptions order db db')
    (hknows : StripeKnows env stripe user db' subscriptions) :
    reportedPlan env stripe isProduction user.id now db' =
        some (latestActivePlan env subscriptions) ↔
      PlansAgree env subscriptions order := by
  have hstored := hrun.storedActive
  unfold PlansAgree
  rw [lastActive?_eq]
  cases hlast : order.getLast?.filter fun m => isActive m.1.status with
  | some m =>
    rw [hlast] at hstored
    rw [reportedPlan_stored hrun.found hstored, getPlanFromSubscriptionRecord_mirroredRow,
      Option.some_inj]
    -- The one mirrored last is active, so there is an active one that was created last.
    obtain ⟨hm, hactive⟩ := Option.filter_eq_some_iff.mp hlast
    have hmem := hrun.snapshots m (List.mem_of_getLast? hm)
    unfold latestActivePlan
    cases hpick : pickActiveSubscription subscriptions with
    | none =>
      rw [pickActiveSubscription_eq_none_iff.mp hpick m.1 hmem] at hactive
      cases hactive
    | some s =>
      rw [Option.map_some]
      simp only [Option.some.injEq, forall_eq', subscriptionPlan_eq_iff]
  | none =>
    rw [hlast] at hstored
    unfold StripeKnows at hknows
    cases hfound : foundCustomer? env stripe user.id user.email db' with
    | some customer =>
      rw [hfound] at hknows
      rw [reportedPlan_customer hrun.found hstored hfound hrun.keepsLinks (hrun.listed hknows)]
      exact Option.some_inj.trans (hknows.latestActivePlan_eq_iff hrun.created)
    | none =>
      rw [hfound] at hknows
      obtain ⟨rfl, hchoose⟩ := hknows
      rw [reportedPlan_noCustomer hrun.found hstored hfound hchoose]
      exact iff_of_true rfl fun s hs => by cases hs

end runs

end agreement

/-! ### Two subscriptions -/

def sellers : Env := { buyers with stripePriceBusiness := some "price_business" }

def buyer : User := ⟨"user", "buyer@example.com", "Buyer"⟩

def olderStartup : Subscription :=
  { startupSubscription .active with id := "sub_older", metadata := { userId := some "user" } }

def newerBusiness : Subscription :=
  { olderStartup with id := "sub_newer", items := [⟨"price_business", some 200⟩], created := 2 }

/-- Stripe lists the two, that created last first. -/
def bothListed : StripeApi :=
  { retrieveCustomer := fun id => some ⟨id, some "buyer@example.com", { userId := some "user" }⟩
    listCustomers := fun _ => []
    createCustomer := ⟨"cus", some "buyer@example.com", { userId := some "user" }⟩
    listSubscriptions := fun _ => [newerBusiness, olderStartup], createSession := none }

theorem bothListed_page :
    NewestPage SUBSCRIPTION_LIST_LIMIT [olderStartup, newerBusiness]
      [newerBusiness, olderStartup] where
  mem := by decide
  nodup := by decide
  length_le := by decide
  newest := by
    intro s hs hnot
    exact absurd ((List.Perm.swap olderStartup newerBusiness []).mem_iff.mpr hs) hnot

/-- Both are mirrored, in one order or the other. -/
theorem mirrorBoth {order : List Mirrored} {db' : Db}
    (horder : order = [(olderStartup, 1), (newerBusiness, 2)] ∨
      order = [(newerBusiness, 1), (olderStartup, 2)])
    (hrun : order.foldlM (mirror sellers) nothingSold = some db') :
    MirrorRun sellers buyer [olderStartup, newerBusiness] order nothingSold db' where
  tables := ⟨⟨by simp [nothingSold], .nil, by simp [nothingSold]⟩,
    ⟨by simp [nothingSold], .nil, by simp [nothingSold]⟩⟩
  found := by decide
  noRow := by simp [nothingSold]
  owned := by decide
  created := by decide
  snapshots := by rcases horder with rfl | rfl <;> decide
  covers := by rcases horder with rfl | rfl <;> decide
  later := by rcases horder with rfl | rfl <;> decide
  mirrored := hrun

/-- The subscription created last is mirrored last, and its plan is reported. -/
theorem reportedPlan_eq_latestActivePlan_iff_inOrder :
    ∃ db', [(olderStartup, 1), (newerBusiness, 2)].foldlM (mirror sellers) nothingSold = some db' ∧
      reportedPlan sellers bothListed true "user" 3 db' =
        some (latestActivePlan sellers [olderStartup, newerBusiness]) := by
  obtain ⟨db', hrun, hfound⟩ : ∃ db',
      [(olderStartup, 1), (newerBusiness, 2)].foldlM (mirror sellers) nothingSold = some db' ∧
      foundCustomer? sellers bothListed "user" "buyer@example.com" db' =
        some ⟨"cus", some "buyer@example.com", { userId := some "user" }⟩ := ⟨_, rfl, rfl⟩
  have hknows : StripeKnows sellers bothListed buyer db' [olderStartup, newerBusiness] := by
    unfold StripeKnows
    rw [show foundCustomer? sellers bothListed buyer.id buyer.email db' = _ from hfound]
    exact bothListed_page
  have hagree : PlansAgree sellers [olderStartup, newerBusiness]
      [(olderStartup, 1), (newerBusiness, 2)] := by
    intro s hs
    obtain rfl : newerBusiness = s := Option.some.inj hs
    exact ⟨Iff.rfl, fun _ => rfl⟩
  exact ⟨db', hrun, (reportedPlan_eq_latestActivePlan_iff (mirrorBoth (.inl rfl) hrun)
    hknows).mpr hagree⟩

/-- The subscription created first is mirrored last, and its plan is reported, though the other is
    active too. -/
theorem older_mirrored_last :
    ∃ db', MirrorRun sellers buyer [olderStartup, newerBusiness]
        [(newerBusiness, 1), (olderStartup, 2)] nothingSold db' ∧
      StripeKnows sellers bothListed buyer db' [olderStartup, newerBusiness] ∧
      latestActivePlan sellers [olderStartup, newerBusiness] = .business ∧
      reportedPlan sellers bothListed true buyer.id 3 db' = some .startup := by
  obtain ⟨db', hrun, hfound, hreported⟩ : ∃ db',
      [(newerBusiness, 1), (olderStartup, 2)].foldlM (mirror sellers) nothingSold = some db' ∧
      foundCustomer? sellers bothListed buyer.id buyer.email db' =
        some ⟨"cus", some "buyer@example.com", { userId := some "user" }⟩ ∧
      reportedPlan sellers bothListed true buyer.id 3 db' = some .startup := ⟨_, rfl, rfl, rfl⟩
  refine ⟨db', mirrorBoth (.inr rfl) hrun, ?_, by decide, hreported⟩
  unfold StripeKnows
  rw [hfound]
  exact bothListed_page

end Notebortt.Billing
