import Notebortt.Requests.Guards

/-! # Logins

    Whoever logs in with a Google account is from then on the user of that
    account, also where several first logins with it run at the same time. -/

open Interleaving (Program)

namespace Notebortt.Requests

open Invitations Access

/-! ### Accounts -/

/-- No user has two accounts. -/
def OneAccount (db : Tables) : Prop :=
  ∀ a ∈ db.oauthAccounts, ∀ a' ∈ db.oauthAccounts, a.userId = a'.userId → a = a'

/-- The user of a Google account. -/
structure LoggedIn (googleId : String) (u : User) (db : Tables) : Prop where
  user : u ∈ db.users
  account : ∃ a ∈ db.oauthAccounts,
    a.provider = "google" ∧ a.providerId = googleId ∧ a.userId = u.id

section writes
variable {rt : Runtime} {db db' : Tables}

/-- An account refers to a user, and the one created with a new account is new. -/
theorem OneAccount.ran {write : Write} (hs : Stored rt db) (h : OneAccount db)
    (hran : Ran rt db write db') : OneAccount db' := by
  cases hran with
  | @createGoogleUser email googleId users accounts workspaces members huser haccount hworkspace =>
    have hnew (a : OauthAccount) (ha : a ∈ db.oauthAccounts) : a.userId ≠ db.next rt := by
      intro hid
      have href : (db.env rt).hasUser a.userId = true := hs.valid.oauthAccounts.references a ha
      obtain ⟨u, hu, huid⟩ := List.any_eq_true.mp href
      have hdrawn := hs.drawn.users u hu
      rw [beq_iff_eq.mp huid, hid] at hdrawn
      exact Runtime.not_drawn (Nat.le_refl _) hdrawn
    intro a ha a' ha' hid
    rcases mem_insert haccount ha with ha | rfl
    · rcases mem_insert haccount ha' with ha' | rfl
      · exact h a ha a' ha' hid
      · exact absurd hid (hnew a ha)
    · rcases mem_insert haccount ha' with ha' | rfl
      · exact absurd hid.symm (hnew a' ha')
      · rfl
  | insertRefreshToken
  | createWorkspace | renameWorkspace | deleteWorkspaceMember | insertInvitation
  | acceptInvitation | declineInvitation | createBoard | renameBoard | duplicateNothing
  | duplicateBoard | deleteBoard | setBoardLinkShare | rotateBoardLinkShareToken
  | addBoardFavorite | removeBoardFavorite | upsertBoardMember | updateBoardMemberPermission
  | deleteBoardMember | leaveBoard | insertBoardInvitation | acceptBoardInvitation
  | declineBoardInvitation | revokeBoardInvitation => exact h

variable {googleId googleId' : String} {u u' : User}

/-- Users and accounts stay. -/
theorem LoggedIn.later (h : LoggedIn googleId u db) (hlater : Later rt db db') :
    LoggedIn googleId u db' := by
  obtain ⟨huser, a, ha, hmatch⟩ := h
  exact ⟨hlater.users u huser, a, hlater.oauthAccounts a ha, hmatch⟩

theorem LoggedIn.eq_iff (hs : Stored rt db) (hone : OneAccount db) (h : LoggedIn googleId u db)
    (h' : LoggedIn googleId' u' db) : u = u' ↔ googleId = googleId' := by
  obtain ⟨huser, a, ha, hprovider, rfl, hid⟩ := h
  obtain ⟨huser', a', ha', hprovider', rfl, hid'⟩ := h'
  constructor
  · rintro rfl
    rw [hone a ha a' ha' (hid.trans hid'.symm)]
  · intro hsame
    -- one row for a provider and its id
    have haccount : a = a' := hs.valid.oauthAccounts.eq_of_clash ha ha' <| by
      simp [oauthAccountConstraints, hprovider, hprovider', hsame]
    refine hs.valid.users.eq_of_clash huser huser' ?_
    simp [userConstraints, ← hid, ← hid', haccount]

/-- The user of a new account is inserted in the same transaction. -/
theorem loggedIn_of_createGoogleUser {email : String}
    (h : Write.run rt (.createGoogleUser email googleId) db = .ok db') :
    LoggedIn googleId { id := db.next rt, email := email } db' := by
  cases ran_of_run h with
  | createGoogleUser huser haccount hworkspace =>
    exact ⟨mem_of_insert huser, _, mem_of_insert haccount, rfl, rfl, rfl⟩

/-- `upsertGoogleUser`, whatever the others write between its two statements. -/
theorem follows_upsertGoogleUser {email : String} :
    (upsertGoogleUser rt email googleId).Follows (Write.apply rt)
      (storedWith rt OneAccount fun _ _ => True)
      (fun r db => ∀ u, r = .ok (some u) → LoggedIn googleId u db) db := by
  refine Program.Follows.bind (Program.Follows.read fun db₁ _ _ => ?_)
  dsimp only
  split
  · next account haccount =>
    refine Program.Follows.read fun db₂ _ hlater u hu => ?_
    have hmem := List.mem_of_find?_eq_some haccount
    have hmatch := List.find?_some haccount
    simp only [Bool.and_eq_true, beq_iff_eq] at hmatch
    have huser := Except.ok.inj hu
    have hid := List.find?_some huser
    exact ⟨List.mem_of_find?_eq_some huser, account, hlater.oauthAccounts account hmem,
      hmatch.1, hmatch.2, (beq_iff_eq.mp hid).symm⟩
  · refine Program.Follows.perform fun db₂ _ _ => ⟨trivial, fun u hu => ?_⟩
    obtain ⟨db₃, hrun, hanswer⟩ := map_eq_ok_iff.mp hu
    obtain rfl := Option.some.inj hanswer
    have hafter : Write.apply rt (.createGoogleUser email googleId) db₂ = db₃ := by
      rw [Write.apply, hrun]
    exact hafter ▸ loggedIn_of_createGoogleUser hrun

/-- A login that has answered a session, with the redirect or with an error. -/
def LoginAnswer : Request → Except RequestError Response → Tables → Prop
  | .login _ googleId _, r, db =>
    ∀ status u, r = .ok ⟨status, .session u⟩ → LoggedIn googleId u db
  | _, _, _ => True

theorem follows_handle_login {email : String} {redirects : Bool} :
    (handle rt (.login email googleId redirects)).Follows (Write.apply rt)
      (storedWith rt OneAccount fun _ _ => True) (LoginAnswer (.login email googleId redirects))
      db := by
  refine Program.Follows.orElse (Program.Follows.bind (follows_upsertGoogleUser.mono ?_))
  rintro (e | user) db' hloggedIn
  · exact nofun
  · match user with
    | none => exact nofun
    | some user =>
      refine Program.Follows.perform fun db₂ _ hlater => ⟨trivial, ?_⟩
      -- the refresh token is inserted, or its INSERT is refused and no session is answered
      cases hrun : (Write.insertRefreshToken user.id).run rt db₂ with
      | error e => exact nofun
      | ok db₃ =>
        rintro _ _ ⟨rfl⟩
        exact ((hloggedIn user rfl).later hlater).later (Later.apply rt db₂ _)

end writes

section system
variable {Thread : Type} [DecidableEq Thread] {rt : Runtime} {s : State Thread}

theorem loginAnswer_of_reachable (h : (system Thread rt OneAccount).Reachable s) {t : Thread}
    {email googleId : String} {redirects : Bool} {status : Nat} {u : User}
    (hdone : s.running t =
      some (.login email googleId redirects, .done ⟨status, .session u⟩)) :
    LoggedIn googleId u s.store := by
  have hanswer : LoginAnswer (.login email googleId redirects) (.ok ⟨status, .session u⟩)
      s.store := by
    refine answered_of_reachable (fun _ _ _ hs hone hran => hone.ran hs hran) ?_ ?_ h hdone
    · intro request r db db' _ _ hlater hanswer
      cases request with
      | login => exact fun status u hr => (hanswer status u hr).later hlater
      | action | getBoard | getShared => trivial
    · intro db request _ _ _
      cases request with
      | login email googleId redirects => exact follows_handle_login
      | action | getBoard | getShared =>
        refine (Obeys.handle ?_ ?_).mono fun _ _ _ => trivial
        · exact fun _ _ _ _ _ _ _ _ _ _ => trivial
        · exact fun _ _ _ _ _ => trivial
  exact hanswer status u rfl

theorem oneAccount_of_reachable (h : (system Thread rt OneAccount).Reachable s) :
    Stored rt s.store ∧ OneAccount s.store :=
  invariant_of_reachable (fun _ _ => True) (fun _ _ _ hs hone _ hran => hone.ran hs hran)
    (fun _ _ _ _ _ _ _ _ _ _ => trivial) (fun _ _ _ _ _ => trivial) h

/-- Two logins that have answered, at whatever times and in whatever order of their statements,
    have begun sessions of the same user exactly when they were with the same Google account. -/
theorem session_eq_iff (h : (system Thread rt OneAccount).Reachable s) {t t' : Thread}
    {email email' googleId googleId' : String} {redirects redirects' : Bool}
    {status status' : Nat} {u u' : User}
    (hdone : s.running t =
      some (.login email googleId redirects, .done ⟨status, .session u⟩))
    (hdone' : s.running t' =
      some (.login email' googleId' redirects', .done ⟨status', .session u'⟩)) :
    u = u' ↔ googleId = googleId' := by
  obtain ⟨hs, hone⟩ := oneAccount_of_reachable h
  exact (loginAnswer_of_reachable h hdone).eq_iff hs hone (loginAnswer_of_reachable h hdone')

/-- Somebody logs in for the first time, and then again under a new address. -/
theorem session_eq_iff_twice :
    ∃ s : State Bool, (system Bool .counting OneAccount).exec (idle noTables)
      [.start false (.login "ada" "g" true), .resume false, .resume false, .resume false,
        .start true (.login "eda" "g" true), .resume true, .resume true, .resume true] = some s ∧
      ∃ u u' : User,
        s.running false = some (.login "ada" "g" true, .done ⟨302, .session u⟩) ∧
        s.running true = some (.login "eda" "g" true, .done ⟨302, .session u'⟩) ∧ u = u' := by
  have hstart : (system Bool .counting OneAccount).Reachable (idle noTables) :=
    .init ⟨⟨stored_noTables _, nofun⟩, fun _ => rfl⟩
  have hcalled := hstart.step (.start false (.login "ada" "g" true)) rfl
  have hread := hcalled.step (.resume false) rfl
  have hcreated := hread.step (.resume false) rfl
  have hloggedIn := hcreated.step (.resume false) rfl
  have hagain := hloggedIn.step (.start true (.login "eda" "g" true)) rfl
  have hfound := hagain.step (.resume true) rfl
  have huser := hfound.step (.resume true) rfl
  have hanswered := huser.step (.resume true) rfl
  exact ⟨_, rfl, _, _, rfl, rfl,
    (@session_eq_iff Bool _ _ _ hanswered false true _ _ _ _ _ _ _ _ _ _ rfl rfl).mpr rfl⟩

end system

end Notebortt.Requests
