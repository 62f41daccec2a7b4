import Mathlib.Data.Fintype.Basic
import Mathlib.Data.List.Basic
import Mathlib.Data.List.Nodup
import Mathlib.Logic.Function.Basic
import Notebortt.Lib.Table
import Notebortt.Lib.Transition

/-! # Refresh-token rotation

    `POST /refresh` and `POST /logout` of `session.routes.ts` over the
    `refresh_tokens` table. A `/refresh` request is its separate statements:
    the lookup by hash, the conditional claim, then either the revocation of the
    family or the insertion of the successor. Every statement is one step, and
    any number of requests are under way. -/

open Transition

namespace Notebortt.RefreshTokens

/-! ### The `refresh_tokens` table -/

/-- A row of `refresh_tokens`. -/
structure RefreshToken where
  id : String
  userId : String
  familyId : String
  tokenHash : String
  expiresAt : Nat
  revokedAt : Option Nat
deriving DecidableEq, Repr

/-- The rows an `UPDATE .. WHERE cond AND revoked_at IS NULL` returns. -/
def unrevokedWhere (cond : RefreshToken → Bool) (rows : List RefreshToken) : List RefreshToken :=
  rows.filter fun t => cond t && t.revokedAt.isNone

/-- `UPDATE .. SET revoked_at = now WHERE cond AND revoked_at IS NULL`. -/
def revokeWhere (cond : RefreshToken → Bool) (now : Nat) (rows : List RefreshToken) :
    List RefreshToken :=
  Table.updateRows (fun t => cond t && t.revokedAt.isNone)
    (fun t => { t with revokedAt := some now })
    rows

/-- The tokens of a family that can still be exchanged, whatever their expiry. -/
def liveTokens (familyId : String) (rows : List RefreshToken) : List RefreshToken :=
  unrevokedWhere (fun t => t.familyId == familyId) rows

/-! ### Requests -/

/-- What `/refresh` answers. -/
inductive RefreshAnswer where
  | missing
  | invalid
  | reuseDetected (existingToken : RefreshToken)
  | rotated (existingToken newToken : RefreshToken) (refreshToken : String)
deriving DecidableEq

/-- The `error` of a 401. -/
def RefreshAnswer.error : RefreshAnswer → Option String
  | .missing => some "Missing refresh token"
  | .invalid => some "Invalid or expired refresh token"
  | .reuseDetected _ => some "Refresh token reuse detected; session revoked"
  | .rotated .. => none

/-- Where a `/refresh` request is. -/
inductive Request where
  | idle
  /-- The SELECT gave an unexpired row. -/
  | found (existingToken : RefreshToken) (now : Nat)
  /-- The claim updated the row: the successor is still to be inserted. -/
  | claimed (existingToken : RefreshToken)
  /-- The claim updated nothing: the family is still to be revoked. -/
  | lost (existingToken : RefreshToken) (now : Nat)
  | answered (answer : RefreshAnswer)
  /-- A statement, or the process, failed. -/
  | failed
deriving DecidableEq

/-- The cookie, else the body's token; an empty one counts as missing. -/
def presentedToken (cookie body : Option String) : Option String :=
  match cookie.filter (· ≠ "") with
  | some refreshToken => some refreshToken
  | none => body.filter (· ≠ "")

structure State (Req : Type) where
  rows : List RefreshToken
  request : Req → Request

inductive Label (Req : Type) where
  /-- `/refresh` reads the clock and looks its token up; `pick` is the row LIMIT 1 lets through. -/
  | lookUp (r : Req) (cookie body : Option String) (now pick : Nat)
  /-- The conditional UPDATE of the row found. -/
  | claim (r : Req)
  /-- The UPDATE of the whole family. -/
  | revokeFamily (r : Req)
  /-- The INSERT of the successor, under a generated id. -/
  | insert (r : Req) (id newRefreshToken : String) (expiresAt : Nat)
  /-- The request ends early. -/
  | abort (r : Req)
  /-- `/logout`. -/
  | logout (cookie body : Option String) (now : Nat)

section system
variable {Req : Type} [DecidableEq Req] (hashRefreshToken : String → String)

def State.setRequest (s : State Req) (r : Req) (q : Request) : State Req :=
  { s with request := Function.update s.request r q }

/-- The row the INSERT of a rotation writes. -/
def successor (existingToken : RefreshToken) (id newRefreshToken : String) (expiresAt : Nat) :
    RefreshToken :=
  { id := id, userId := existingToken.userId, familyId := existingToken.familyId
    tokenHash := hashRefreshToken newRefreshToken, expiresAt := expiresAt, revokedAt := none }

def step (s : State Req) : Label Req → Option (State Req)
  | .lookUp r cookie body now pick =>
    match s.request r with
    | .idle =>
      match presentedToken cookie body with
      | none => some (s.setRequest r (.answered .missing))
      | some refreshToken =>
        let found := s.rows.filter fun t => t.tokenHash == hashRefreshToken refreshToken
        if found.isEmpty then some (s.setRequest r (.answered .invalid))
        else
          match found[pick]? with
          | none => none
          | some existingToken =>
            if existingToken.expiresAt ≤ now then some (s.setRequest r (.answered .invalid))
            else some (s.setRequest r (.found existingToken now))
    | _ => none
  | .claim r =>
    match s.request r with
    | .found existingToken now =>
      if (unrevokedWhere (fun t => t.id == existingToken.id) s.rows).isEmpty then
        some (s.setRequest r (.lost existingToken now))
      else
        some ({ s with rows := revokeWhere (fun t => t.id == existingToken.id) now s.rows
          }.setRequest r (.claimed existingToken))
    | _ => none
  | .revokeFamily r =>
    match s.request r with
    | .lost existingToken now =>
      some ({ s with rows := revokeWhere (fun t => t.familyId == existingToken.familyId) now s.rows
        }.setRequest r (.answered (.reuseDetected existingToken)))
    | _ => none
  | .insert r id newRefreshToken expiresAt =>
    match s.request r with
    | .claimed existingToken =>
      -- a second row under one primary key is refused, which fails the request
      if s.rows.any (fun t => t.id == id) then some (s.setRequest r .failed)
      else
        let newToken := successor hashRefreshToken existingToken id newRefreshToken expiresAt
        some ({ s with rows := s.rows ++ [newToken]
          }.setRequest r (.answered (.rotated existingToken newToken newRefreshToken)))
    | _ => none
  | .abort r =>
    match s.request r with
    | .answered _ => none
    | _ => some (s.setRequest r .failed)
  | .logout cookie body now =>
    match presentedToken cookie body with
    | none => some s
    | some refreshToken =>
      some { s with
        rows := revokeWhere (fun t => t.tokenHash == hashRefreshToken refreshToken) now s.rows }

/-- The table keeps its primary key, and no request is under way. -/
structure Init (s : State Req) : Prop where
  ids : (s.rows.map RefreshToken.id).Nodup
  idle : ∀ r, s.request r = .idle

/-- Besides, the token hashes are distinct and one token of the family is unrevoked. -/
structure FamilyInit (familyId : String) (s : State Req) : Prop extends Init s where
  hashes : (s.rows.map RefreshToken.tokenHash).Nodup
  live : (liveTokens familyId s.rows).length = 1

variable (Req) in
def system : System (State Req) (Label Req) where
  init := Init
  step := step hashRefreshToken

variable (Req) in
def familySystem (familyId : String) : System (State Req) (Label Req) where
  init := FamilyInit familyId
  step := step hashRefreshToken

/-- Token hashes distinct: a rotated token hashes to no hash already stored. -/
def FreshHash (s : State Req) : Label Req → Prop
  | .insert _ _ newRefreshToken _ => ∀ t ∈ s.rows, t.tokenHash ≠ hashRefreshToken newRefreshToken
  | _ => True

instance (s : State Req) : (l : Label Req) → Decidable (FreshHash hashRefreshToken s l)
  | .insert _ _ newRefreshToken _ =>
    inferInstanceAs (Decidable (∀ t ∈ s.rows, t.tokenHash ≠ hashRefreshToken newRefreshToken))
  | .lookUp .. | .claim _ | .revokeFamily _ | .abort _ | .logout .. =>
    inferInstanceAs (Decidable True)

/-- The family in which a request that has ended detected a reuse. -/
def Request.detectedFamily? : Request → Option String
  | .answered (.reuseDetected existingToken) => some existingToken.familyId
  | _ => none

/-- The family a request has claimed a token of, and not inserted the successor into. -/
def Request.claimedFamily? : Request → Option String
  | .claimed existingToken => some existingToken.familyId
  | _ => none

/-- The families of the reuses detected hold no unrevoked token. -/
def DetectedFamiliesDead (s : State Req) : Prop :=
  ∀ r familyId, (s.request r).detectedFamily? = some familyId →
    ∀ t ∈ s.rows, t.familyId = familyId → t.revokedAt ≠ none

/-- The step condition: a successor is inserted only while no request has ended with a reuse
    detected in its family. -/
def InsertsBeforeDetection (s : State Req) : Label Req → Prop
  | .insert r _ _ _ =>
    ∀ familyId ∈ (s.request r).claimedFamily?, ∀ r', (s.request r').detectedFamily? ≠ some familyId
  | _ => True

instance [Fintype Req] (s : State Req) : (l : Label Req) → Decidable (InsertsBeforeDetection s l)
  | .insert r _ _ _ =>
    inferInstanceAs (Decidable (∀ familyId ∈ (s.request r).claimedFamily?,
      ∀ r', (s.request r').detectedFamily? ≠ some familyId))
  | .lookUp .. | .claim _ | .revokeFamily _ | .abort _ | .logout .. =>
    inferInstanceAs (Decidable True)

/-- The token a request has been answered a successor for. -/
def Request.exchanged? : Request → Option RefreshToken
  | .answered (.rotated existingToken _ _) => some existingToken
  | _ => none

/-- The token a request has claimed, its successor inserted or not. -/
def Request.exchanging? : Request → Option RefreshToken
  | .claimed existingToken => some existingToken
  | .answered (.rotated existingToken _ _) => some existingToken
  | _ => none

/-- The token a request has found, and not claimed. -/
def Request.found? : Request → Option RefreshToken
  | .found existingToken _ => some existingToken
  | _ => none

end system

/-! ### Updates of the table -/

section table
variable (cond : RefreshToken → Bool) (now : Nat) (rows : List RefreshToken)

theorem mem_unrevokedWhere {t : RefreshToken} :
    t ∈ unrevokedWhere cond rows ↔ t ∈ rows ∧ cond t = true ∧ t.revokedAt = none := by
  simp [unrevokedWhere]

theorem mem_liveTokens {familyId : String} {t : RefreshToken} :
    t ∈ liveTokens familyId rows ↔ t ∈ rows ∧ t.familyId = familyId ∧ t.revokedAt = none := by
  simp [liveTokens, unrevokedWhere]

@[simp] theorem liveTokens_append (familyId : String) (rows' : List RefreshToken) :
    liveTokens familyId (rows ++ rows') =
      liveTokens familyId rows ++ liveTokens familyId rows' := by
  simp [liveTokens, unrevokedWhere]

@[simp] theorem ids_revokeWhere :
    (revokeWhere cond now rows).map RefreshToken.id = rows.map RefreshToken.id :=
  Table.map_updateRows RefreshToken.id fun _ => rfl

@[simp] theorem hashes_revokeWhere :
    (revokeWhere cond now rows).map RefreshToken.tokenHash = rows.map RefreshToken.tokenHash :=
  Table.map_updateRows RefreshToken.tokenHash fun _ => rfl

/-- An update leaves the unrevoked tokens it does not select. -/
theorem liveTokens_revokeWhere (familyId : String) :
    liveTokens familyId (revokeWhere cond now rows) =
      (liveTokens familyId rows).filter fun t => !cond t := by
  induction rows with
  | nil => rfl
  | cons t rows ih =>
    simp only [liveTokens, unrevokedWhere, revokeWhere, Table.updateRows, List.map_cons,
      List.filter_filter] at ih ⊢
    rw [List.filter_cons, List.filter_cons, ih]
    cases hrevoked : t.revokedAt <;> cases cond t <;> simp [hrevoked]

/-- A family without unrevoked tokens stays without. -/
theorem liveTokens_revokeWhere_eq_nil {familyId : String} (h : liveTokens familyId rows = []) :
    liveTokens familyId (revokeWhere cond now rows) = [] := by
  rw [liveTokens_revokeWhere, h, List.filter_nil]

theorem length_liveTokens_revokeWhere_le (familyId : String) :
    (liveTokens familyId (revokeWhere cond now rows)).length ≤
      (liveTokens familyId rows).length := by
  rw [liveTokens_revokeWhere]
  exact List.length_filter_le _ _

theorem liveTokens_revokeFamily (familyId : String) :
    liveTokens familyId (revokeWhere (fun t => t.familyId == familyId) now rows) = [] := by
  rw [liveTokens_revokeWhere, List.filter_eq_nil_iff]
  intro t ht
  simp [((mem_liveTokens rows).mp ht).2.1]

end table

/-- The same token, revoked or not. -/
structure SameToken (t t' : RefreshToken) : Prop where
  id : t.id = t'.id
  familyId : t.familyId = t'.familyId
  tokenHash : t.tokenHash = t'.tokenHash

/-- A row survives an update, and stays revoked once it is. -/
theorem exists_mem_revokeWhere {cond : RefreshToken → Bool} {now : Nat} {rows : List RefreshToken}
    {t : RefreshToken} (ht : t ∈ rows) :
    ∃ t' ∈ revokeWhere cond now rows, SameToken t' t ∧
      (t.revokedAt ≠ none → t'.revokedAt ≠ none) := by
  cases hsel : cond t && t.revokedAt.isNone with
  | true =>
    exact ⟨_, Table.set_mem_updateRows ht hsel, ⟨rfl, rfl, rfl⟩, fun _ => Option.some_ne_none _⟩
  | false => exact ⟨t, Table.mem_updateRows_of_not ht hsel, ⟨rfl, rfl, rfl⟩, id⟩

/-- The row selected is revoked by the update. -/
theorem exists_revoked_mem_revokeWhere (cond : RefreshToken → Bool) (now : Nat)
    {rows : List RefreshToken} {t : RefreshToken} (ht : t ∈ rows) (hcond : cond t = true) :
    ∃ t' ∈ revokeWhere cond now rows, SameToken t' t ∧ t'.revokedAt ≠ none := by
  cases hrevoked : t.revokedAt with
  | none =>
    exact ⟨_, Table.set_mem_updateRows ht (by simp [hcond, hrevoked]), ⟨rfl, rfl, rfl⟩,
      Option.some_ne_none _⟩
  | some revokedAt =>
    exact ⟨t, Table.mem_updateRows_of_not ht (by simp [hrevoked]), ⟨rfl, rfl, rfl⟩,
      by simp [hrevoked]⟩

/-! ### What a step does -/

section system
variable {Req : Type} [DecidableEq Req] {hashRefreshToken : String → String}

@[simp] theorem State.setRequest_rows (s : State Req) (r : Req) (q : Request) :
    (s.setRequest r q).rows = s.rows := rfl

@[simp] theorem State.setRequest_request_self (s : State Req) (r : Req) (q : Request) :
    (s.setRequest r q).request r = q := Function.update_self ..

theorem State.setRequest_request_ne (s : State Req) {r r' : Req} (q : Request) (h : r' ≠ r) :
    (s.setRequest r q).request r' = s.request r' := Function.update_of_ne h ..

/-- What is read off a request that does not move: `q` gives nothing. -/
theorem of_setRequest {α : Type} {get? : Request → Option α} {s : State Req} {r r' : Req}
    {q : Request} {a : α} (hq : get? q = none) (h : get? ((s.setRequest r q).request r') = some a) :
    r' ≠ r ∧ get? (s.request r') = some a := by
  have hne : r' ≠ r := by
    intro heq
    rw [heq, State.setRequest_request_self, hq] at h
    cases h
  rw [State.setRequest_request_ne s q hne] at h
  exact ⟨hne, h⟩

variable (hashRefreshToken) in
/-- A step changes one request, or the table, or both in one of three ways. -/
inductive Effect (s : State Req) : Label Req → State Req → Prop where
  /-- The lookup ends the request, or an early end does. -/
  | ends (l : Label Req) (r : Req) (q : Request) (hbusy : ∀ a, s.request r ≠ .answered a)
      (hq : q = .failed ∨ q = .answered .missing ∨ q = .answered .invalid) :
      Effect s l (s.setRequest r q)
  | finds (l : Label Req) (r : Req) (t : RefreshToken) (now : Nat) (ht : t ∈ s.rows)
      (hidle : s.request r = .idle) : Effect s l (s.setRequest r (.found t now))
  | loses (l : Label Req) (r : Req) (t : RefreshToken) (now : Nat)
      (hfound : s.request r = .found t now) : Effect s l (s.setRequest r (.lost t now))
  | claims (l : Label Req) (r : Req) (t t' : RefreshToken) (now : Nat)
      (hfound : s.request r = .found t now)
      (ht' : t' ∈ s.rows) (hid : t'.id = t.id) (hlive : t'.revokedAt = none) :
      Effect s l ({ s with rows := revokeWhere (fun u => u.id == t.id) now s.rows
        }.setRequest r (.claimed t))
  | detects (l : Label Req) (r : Req) (t : RefreshToken) (now : Nat)
      (hlost : s.request r = .lost t now) :
      Effect s l ({ s with rows := revokeWhere (fun u => u.familyId == t.familyId) now s.rows
        }.setRequest r (.answered (.reuseDetected t)))
  | inserts (r : Req) (t : RefreshToken) (id newRefreshToken : String) (expiresAt : Nat)
      (hclaimed : s.request r = .claimed t) (hid : ∀ u ∈ s.rows, u.id ≠ id) :
      Effect s (.insert r id newRefreshToken expiresAt)
        ({ s with rows := s.rows ++ [successor hashRefreshToken t id newRefreshToken expiresAt]
          }.setRequest r (.answered (.rotated t
            (successor hashRefreshToken t id newRefreshToken expiresAt) newRefreshToken)))
  | logsOut (l : Label Req) (cond : RefreshToken → Bool) (now : Nat) :
      Effect s l { s with rows := revokeWhere cond now s.rows }
  | stays (l : Label Req) : Effect s l s

theorem step_lookUp {s s' : State Req} {r : Req} {cookie body : Option String} {now pick : Nat}
    (h : step hashRefreshToken s (.lookUp r cookie body now pick) = some s') :
    Effect hashRefreshToken s (.lookUp r cookie body now pick) s' := by
  simp only [step] at h
  split at h
  case h_2 => cases h
  case h_1 hidle =>
    have hbusy : ∀ a, s.request r ≠ .answered a := by simp [hidle]
    split at h
    · exact Option.some.inj h ▸ .ends _ r _ hbusy (.inr (.inl rfl))
    · next refreshToken _ =>
      split at h
      · exact Option.some.inj h ▸ .ends _ r _ hbusy (.inr (.inr rfl))
      · split at h
        · cases h
        · next t hpick =>
          have ht : t ∈ s.rows := (List.mem_filter.mp (List.mem_of_getElem? hpick)).1
          split at h
          · exact Option.some.inj h ▸ .ends _ r _ hbusy (.inr (.inr rfl))
          · exact Option.some.inj h ▸ .finds _ r t now ht hidle

theorem step_claim {s s' : State Req} {r : Req}
    (h : step hashRefreshToken s (.claim r) = some s') :
    Effect hashRefreshToken s (.claim r) s' := by
  simp only [step] at h
  split at h
  case h_2 => cases h
  case h_1 t now hfound =>
    split at h
    · exact Option.some.inj h ▸ .loses _ r t now hfound
    · next hclaimed =>
      obtain ⟨t', ht'⟩ := List.exists_mem_of_ne_nil _ (by simpa using hclaimed)
      obtain ⟨hmem, hid, hlive⟩ := (mem_unrevokedWhere _ _).mp ht'
      exact Option.some.inj h ▸ .claims _ r t t' now hfound hmem (by simpa using hid) hlive

theorem step_insert {s s' : State Req} {r : Req} {id newRefreshToken : String} {expiresAt : Nat}
    (h : step hashRefreshToken s (.insert r id newRefreshToken expiresAt) = some s') :
    Effect hashRefreshToken s (.insert r id newRefreshToken expiresAt) s' := by
  simp only [step] at h
  split at h
  case h_2 => cases h
  case h_1 t hclaimed =>
    split at h
    · exact Option.some.inj h ▸ .ends _ r _ (by simp [hclaimed]) (.inl rfl)
    · next hid =>
      have hid' : ∀ u ∈ s.rows, u.id ≠ id := by simpa using hid
      exact Option.some.inj h ▸ .inserts r t id newRefreshToken expiresAt hclaimed hid'

/-- Every step has one of these effects. -/
theorem step_effect {s s' : State Req} {l : Label Req}
    (h : step hashRefreshToken s l = some s') : Effect hashRefreshToken s l s' := by
  cases l with
  | lookUp r cookie body now pick => exact step_lookUp h
  | claim r => exact step_claim h
  | revokeFamily r =>
    simp only [step] at h
    split at h
    · next t now hlost => exact Option.some.inj h ▸ .detects _ r t now hlost
    · cases h
  | insert r id newRefreshToken expiresAt => exact step_insert h
  | abort r =>
    simp only [step] at h
    split at h
    · cases h
    · next hbusy => exact Option.some.inj h ▸ .ends _ r _ hbusy (.inl rfl)
  | logout cookie body now =>
    simp only [step] at h
    split at h
    · exact Option.some.inj h ▸ .stays _
    · exact Option.some.inj h ▸ .logsOut _ _ now

/-! ### Detected families stay revoked -/

omit [DecidableEq Req] in
theorem detectedFamiliesDead_iff {s : State Req} :
    DetectedFamiliesDead s ↔
      ∀ r familyId, (s.request r).detectedFamily? = some familyId →
        liveTokens familyId s.rows = [] := by
  refine forall₃_congr fun r familyId _ => ?_
  simp only [List.eq_nil_iff_forall_not_mem, mem_liveTokens, not_and, ne_eq]

/-- A step under the condition keeps the detected families dead. -/
theorem step_detectedFamiliesDead {s s' : State Req} {l : Label Req} (hs : DetectedFamiliesDead s)
    (hC : InsertsBeforeDetection s l) (h : step hashRefreshToken s l = some s') :
    DetectedFamiliesDead s' := by
  rw [detectedFamiliesDead_iff] at hs ⊢
  intro r' familyId hdetected
  cases step_effect h with
  | stays => exact hs r' familyId hdetected
  | logsOut _ cond now => exact liveTokens_revokeWhere_eq_nil _ _ _ (hs r' familyId hdetected)
  | ends _ r q _ hq =>
    refine hs r' familyId (of_setRequest ?_ hdetected).2
    rcases hq with rfl | rfl | rfl <;> rfl
  | finds _ r t now _ _ => exact hs r' familyId (of_setRequest rfl hdetected).2
  | loses _ r t now _ => exact hs r' familyId (of_setRequest rfl hdetected).2
  | claims _ r t t' now _ _ _ _ =>
    exact liveTokens_revokeWhere_eq_nil _ _ _
      (hs r' familyId (of_setRequest rfl hdetected).2)
  | detects _ r t now _ =>
    -- the family just revoked holds no unrevoked token, the others held none before
    show liveTokens familyId (revokeWhere _ now s.rows) = []
    by_cases hr : r' = r
    · subst hr
      obtain rfl : t.familyId = familyId := by
        simpa [Request.detectedFamily?] using hdetected
      exact liveTokens_revokeFamily _ _ _
    · rw [State.setRequest_request_ne _ _ hr] at hdetected
      exact liveTokens_revokeWhere_eq_nil _ _ _ (hs r' familyId hdetected)
  | inserts r t id newRefreshToken expiresAt hclaimed _ =>
    have hdetected' : (s.request r').detectedFamily? = some familyId :=
      (of_setRequest rfl hdetected).2
    have hfamily : t.familyId ≠ familyId := by
      intro heq
      have hclaims : (s.request r).claimedFamily? = some familyId := by
        rw [hclaimed, ← heq]
        rfl
      exact hC familyId hclaims r' hdetected'
    show liveTokens familyId (s.rows ++ [_]) = []
    rw [liveTokens_append, hs r' familyId hdetected', List.nil_append]
    simp [liveTokens, unrevokedWhere, successor, hfamily]

/-- The condition is exact: an INSERT that does not meet it leaves an unrevoked token in a family
    where a reuse has been detected. -/
theorem insert_after_detection {s s' : State Req} {r : Req} {id newRefreshToken : String}
    {expiresAt : Nat} (hid : ∀ t ∈ s.rows, t.id ≠ id)
    (hC : ¬ InsertsBeforeDetection s (.insert r id newRefreshToken expiresAt))
    (h : step hashRefreshToken s (.insert r id newRefreshToken expiresAt) = some s') :
    ¬ DetectedFamiliesDead s' := by
  intro hdead
  cases hrequest : s.request r with
  | claimed t =>
    simp only [InsertsBeforeDetection, hrequest, Request.claimedFamily?, Option.mem_def,
      Option.some.injEq, forall_eq', not_forall, not_not] at hC
    obtain ⟨r', hdetected⟩ := hC
    have hfresh : s.rows.any (fun u => u.id == id) = false := by simpa using hid
    simp only [step, hrequest, hfresh] at h
    obtain rfl := Option.some.inj h
    have hne : r' ≠ r := by
      intro heq
      rw [heq, hrequest] at hdetected
      cases hdetected
    refine hdead r' t.familyId ?_ (successor hashRefreshToken t id newRefreshToken expiresAt) ?_
      rfl rfl
    · rw [State.setRequest_request_ne _ _ hne]
      exact hdetected
    · simp
  | _ => exact hC (by simp [InsertsBeforeDetection, hrequest, Request.claimedFamily?])

/-- In every run that inserts no successor into a family where a reuse has been detected, the
    families of the reuses detected stay without an unrevoked token. -/
theorem detected_families_stay_dead {s : State Req}
    (h : (system Req hashRefreshToken).ReachableUnder InsertsBeforeDetection s) :
    DetectedFamiliesDead s := by
  refine h.invariant (fun s hinit => ?_) (fun s l s' hs hC hstep => ?_)
  · intro r familyId hdetected
    rw [hinit.idle r] at hdetected
    cases hdetected
  · exact step_detectedFamiliesDead hs hC hstep

end system

/-- The token of a login, and nobody at work. -/
def login : State Bool where
  rows := [⟨"1", "user", "family", "a", 100, none⟩]
  request := fun _ => .idle

theorem login_familyInit : FamilyInit "family" login where
  ids := by decide
  idle := fun _ => rfl
  hashes := by decide
  live := rfl

/-- The token `a` is rotated to `b` and then replayed. -/
def rotateThenReplay : List (Label Bool) :=
  [.lookUp false (some "a") none 1 0, .claim false, .insert false "2" "b" 101,
    .lookUp true (some "a") none 2 0, .claim true, .revokeFamily true]

/-- The replay runs between the claim of `a` and the INSERT of `b`. -/
def replayBeforeInsert : List (Label Bool) :=
  [.lookUp false (some "a") none 1 0, .claim false,
    .lookUp true (some "a") none 2 0, .claim true, .revokeFamily true, .insert false "2" "b" 101]

theorem detected_families_stay_dead_run :
    ∃ s : State Bool, (s.request true).detectedFamily? = some "family" ∧
      DetectedFamiliesDead s := by
  obtain ⟨s, hs, hdetected⟩ : ∃ s, (system Bool id).execUnder InsertsBeforeDetection login
      rotateThenReplay = some s ∧ (s.request true).detectedFamily? = some "family" := ⟨_, rfl, rfl⟩
  exact ⟨s, hdetected, detected_families_stay_dead (.execUnder (.init login_familyInit.toInit) hs)⟩

/-- The successor inserted after the revocation is unrevoked. -/
theorem rotation_survives_detection :
    ¬ ∀ s : State Bool, (system Bool id).Reachable s → DetectedFamiliesDead s := by
  intro hall
  obtain ⟨s, hs, hdetected, hrow⟩ : ∃ s, (system Bool id).exec login replayBeforeInsert = some s ∧
      (s.request true).detectedFamily? = some "family" ∧
        ⟨"2", "user", "family", "b", 101, none⟩ ∈ s.rows := by
    refine ⟨_, rfl, rfl, ?_⟩
    decide
  exact hall s (.exec (.init login_familyInit.toInit) hs) true "family" hdetected _ hrow rfl rfl

section system
variable {Req : Type} [DecidableEq Req] {hashRefreshToken : String → String}

/-! ### Every token is exchanged once -/

/-- No row is lost, and nobody else exchanges a token that a request is exchanging. -/
structure ExchangeInv (s : State Req) : Prop where
  ids : (s.rows.map RefreshToken.id).Nodup
  hashes : (s.rows.map RefreshToken.tokenHash).Nodup
  found : ∀ r t, (s.request r).found? = some t → ∃ u ∈ s.rows, SameToken u t
  exchanging : ∀ r t, (s.request r).exchanging? = some t →
    ∃ u ∈ s.rows, SameToken u t ∧ u.revokedAt ≠ none
  once : ∀ r r' t t', (s.request r).exchanging? = some t → (s.request r').exchanging? = some t' →
    t.id = t'.id → r = r'

theorem SameToken.trans {t t' t'' : RefreshToken} (h : SameToken t t') (h' : SameToken t' t'') :
    SameToken t t'' :=
  ⟨h.id.trans h'.id, h.familyId.trans h'.familyId, h.tokenHash.trans h'.tokenHash⟩

omit [DecidableEq Req] in
theorem ExchangeInv.revoke {s : State Req} (hs : ExchangeInv s) (cond : RefreshToken → Bool)
    (now : Nat) : ExchangeInv { s with rows := revokeWhere cond now s.rows } where
  ids := by rw [ids_revokeWhere]; exact hs.ids
  hashes := by rw [hashes_revokeWhere]; exact hs.hashes
  found := by
    intro r t ht
    obtain ⟨u, hu, hsame⟩ := hs.found r t ht
    obtain ⟨u', hu', hsame', -⟩ := exists_mem_revokeWhere hu
    exact ⟨u', hu', hsame'.trans hsame⟩
  exchanging := by
    intro r t ht
    obtain ⟨u, hu, hsame, hrevoked⟩ := hs.exchanging r t ht
    obtain ⟨u', hu', hsame', hrevoked'⟩ := exists_mem_revokeWhere hu
    exact ⟨u', hu', hsame'.trans hsame, hrevoked' hrevoked⟩
  once := hs.once

/-- A request moves without a claim. -/
theorem ExchangeInv.setRequest {s : State Req} (hs : ExchangeInv s) (r : Req) {q : Request}
    (hq : q.exchanging? = none)
    (hfound : ∀ t, q.found? = some t → ∃ u ∈ s.rows, SameToken u t) :
    ExchangeInv (s.setRequest r q) where
  ids := hs.ids
  hashes := hs.hashes
  found := by
    intro r' t ht
    by_cases hr : r' = r
    · subst hr
      rw [State.setRequest_request_self] at ht
      exact hfound t ht
    · rw [State.setRequest_request_ne s q hr] at ht
      exact hs.found r' t ht
  exchanging := by
    intro r' t ht
    exact hs.exchanging r' t (of_setRequest hq ht).2
  once := by
    intro r₁ r₂ t₁ t₂ h₁ h₂ hid
    exact hs.once r₁ r₂ t₁ t₂ (of_setRequest hq h₁).2 (of_setRequest hq h₂).2 hid

/-- The claim: the row was unrevoked, so nobody else is exchanging it. -/
theorem ExchangeInv.claim {s : State Req} (hs : ExchangeInv s) {r : Req} {t u : RefreshToken}
    {now : Nat} (hfound : s.request r = .found t now) (hu : u ∈ s.rows) (hid : u.id = t.id)
    (hlive : u.revokedAt = none) :
    ExchangeInv ({ s with rows := revokeWhere (fun u => u.id == t.id) now s.rows
      }.setRequest r (.claimed t)) := by
  obtain ⟨v, hv, hsame⟩ := hs.found r t (by rw [hfound]; rfl)
  obtain rfl : v = u := List.inj_on_of_nodup_map hs.ids hv hu (hsame.id.trans hid.symm)
  -- a token some other request is exchanging has a revoked row
  have hfresh : ∀ r' t', (s.request r').exchanging? = some t' → t'.id ≠ t.id := by
    intro r' t' ht' heq
    obtain ⟨w, hw, hsame', hrevoked⟩ := hs.exchanging r' t' ht'
    obtain rfl : w = v :=
      List.inj_on_of_nodup_map hs.ids hw hv ((hsame'.id.trans heq).trans hsame.id.symm)
    exact hrevoked hlive
  have hrevoke := hs.revoke (fun u => u.id == t.id) now
  exact {
    ids := hrevoke.ids
    hashes := hrevoke.hashes
    found := fun r' t' ht' => hrevoke.found r' t' (of_setRequest rfl ht').2
    exchanging := by
      intro r' t' ht'
      by_cases hr : r' = r
      · subst hr
        rw [State.setRequest_request_self] at ht'
        obtain rfl : t = t' := Option.some.inj ht'
        obtain ⟨w, hw, hsame', hrevoked⟩ :=
          exists_revoked_mem_revokeWhere (fun u => u.id == t.id) now hv (by simp [hsame.id])
        exact ⟨w, hw, hsame'.trans hsame, hrevoked⟩
      · rw [State.setRequest_request_ne _ _ hr] at ht'
        exact hrevoke.exchanging r' t' ht'
    once := by
      intro r₁ r₂ t₁ t₂ h₁ h₂ hid
      by_cases hr₁ : r₁ = r <;> by_cases hr₂ : r₂ = r
      · rw [hr₁, hr₂]
      · rw [hr₁, State.setRequest_request_self] at h₁
        rw [State.setRequest_request_ne _ _ hr₂] at h₂
        obtain rfl : t = t₁ := Option.some.inj h₁
        exact absurd hid.symm (hfresh r₂ t₂ h₂)
      · rw [State.setRequest_request_ne _ _ hr₁] at h₁
        rw [hr₂, State.setRequest_request_self] at h₂
        obtain rfl : t = t₂ := Option.some.inj h₂
        exact absurd hid (hfresh r₁ t₁ h₁)
      · rw [State.setRequest_request_ne _ _ hr₁] at h₁
        rw [State.setRequest_request_ne _ _ hr₂] at h₂
        exact hs.once r₁ r₂ t₁ t₂ h₁ h₂ hid }

/-- The successor of a claimed token is inserted: the request goes on exchanging the same token. -/
theorem ExchangeInv.insert {s : State Req} (hs : ExchangeInv s) {r : Req} {t new : RefreshToken}
    (refreshToken : String) (hclaimed : s.request r = .claimed t)
    (hid : ∀ u ∈ s.rows, u.id ≠ new.id) (hhash : ∀ u ∈ s.rows, u.tokenHash ≠ new.tokenHash) :
    ExchangeInv ({ s with rows := s.rows ++ [new]
      }.setRequest r (.answered (.rotated t new refreshToken))) := by
  -- a request that has exchanged its token was exchanging it before
  have hexchanging : ∀ r' t', (({ s with rows := s.rows ++ [new]
      }.setRequest r (.answered (.rotated t new refreshToken))).request r').exchanging? = some t' →
      (s.request r').exchanging? = some t' := by
    intro r' t' ht'
    by_cases hr : r' = r
    · rw [hr, State.setRequest_request_self] at ht'
      rw [hr, hclaimed]
      exact ht'
    · rwa [State.setRequest_request_ne _ _ hr] at ht'
  exact {
    ids := by
      show ((s.rows ++ [new]).map RefreshToken.id).Nodup
      rw [List.map_append, List.nodup_append]
      refine ⟨hs.ids, List.nodup_singleton _, ?_⟩
      intro a ha b hb
      obtain ⟨u, hu, rfl⟩ := List.mem_map.mp ha
      rw [List.mem_singleton.mp hb]
      exact hid u hu
    hashes := by
      show ((s.rows ++ [new]).map RefreshToken.tokenHash).Nodup
      rw [List.map_append, List.nodup_append]
      refine ⟨hs.hashes, List.nodup_singleton _, ?_⟩
      intro a ha b hb
      obtain ⟨u, hu, rfl⟩ := List.mem_map.mp ha
      rw [List.mem_singleton.mp hb]
      exact hhash u hu
    found := by
      intro r' t' ht'
      obtain ⟨u, hu, hsame⟩ := hs.found r' t' (of_setRequest rfl ht').2
      exact ⟨u, List.mem_append_left _ hu, hsame⟩
    exchanging := by
      intro r' t' ht'
      obtain ⟨u, hu, hsame⟩ := hs.exchanging r' t' (hexchanging r' t' ht')
      exact ⟨u, List.mem_append_left _ hu, hsame⟩
    once := by
      intro r₁ r₂ t₁ t₂ h₁ h₂
      exact hs.once r₁ r₂ t₁ t₂ (hexchanging r₁ t₁ h₁) (hexchanging r₂ t₂ h₂) }

theorem step_exchangeInv {s s' : State Req} {l : Label Req} (hs : ExchangeInv s)
    (hC : FreshHash hashRefreshToken s l) (h : step hashRefreshToken s l = some s') :
    ExchangeInv s' := by
  cases step_effect h with
  | stays => exact hs
  | logsOut _ cond now => exact hs.revoke cond now
  | ends _ r q _ hq =>
    rcases hq with rfl | rfl | rfl <;> exact hs.setRequest r rfl (fun t ht => by cases ht)
  | finds _ r t now ht _ =>
    refine hs.setRequest r rfl fun t' ht' => ⟨t, ht, ?_⟩
    obtain rfl : t = t' := Option.some.inj ht'
    exact ⟨rfl, rfl, rfl⟩
  | loses _ r t now _ => exact hs.setRequest r rfl (fun t ht => by cases ht)
  | claims _ r t u now hfound hu hid hlive => exact hs.claim hfound hu hid hlive
  | detects _ r t now _ => exact (hs.revoke _ now).setRequest r rfl (fun t ht => by cases ht)
  | inserts r t id newRefreshToken expiresAt hclaimed hid => exact hs.insert _ hclaimed hid hC

/-! ### One unrevoked token a family -/

/-- The unrevoked tokens of the family and the claims whose successor is still to be inserted are
    at most one together. -/
structure FamilyInv (familyId : String) (s : State Req) : Prop extends ExchangeInv s where
  live : (liveTokens familyId s.rows).length ≤ 1
  claimed : ∀ r, (s.request r).claimedFamily? = some familyId → liveTokens familyId s.rows = []
  oneClaim : ∀ r r', (s.request r).claimedFamily? = some familyId →
    (s.request r').claimedFamily? = some familyId → r = r'

omit [DecidableEq Req] in
/-- What stays of the family's part when tokens are revoked, and one request moves without a
    claim. -/
theorem FamilyInv.of_le {familyId : String} {s s' : State Req} (hs : FamilyInv familyId s)
    (hexchange : ExchangeInv s')
    (hrows : (liveTokens familyId s'.rows).length ≤ (liveTokens familyId s.rows).length)
    (hclaimed : ∀ r, (s'.request r).claimedFamily? = some familyId →
      (s.request r).claimedFamily? = some familyId) : FamilyInv familyId s' where
  toExchangeInv := hexchange
  live := hrows.trans hs.live
  claimed := by
    intro r hr
    have hnil := hs.claimed r (hclaimed r hr)
    rw [hnil] at hrows
    exact List.length_eq_zero_iff.mp (Nat.le_zero.mp hrows)
  oneClaim := by
    intro r r' hr hr'
    exact hs.oneClaim r r' (hclaimed r hr) (hclaimed r' hr')

/-- A claim takes the one unrevoked token of its family. -/
theorem FamilyInv.claim {familyId : String} {s : State Req} (hs : FamilyInv familyId s) {r : Req}
    {t u : RefreshToken} {now : Nat} (hfound : s.request r = .found t now) (hu : u ∈ s.rows)
    (hid : u.id = t.id) (hlive : u.revokedAt = none) :
    FamilyInv familyId ({ s with rows := revokeWhere (fun u => u.id == t.id) now s.rows
      }.setRequest r (.claimed t)) := by
  have hexchange := hs.toExchangeInv.claim hfound hu hid hlive
  have hle := length_liveTokens_revokeWhere_le (fun u => u.id == t.id) now s.rows familyId
  by_cases hfamily : t.familyId = familyId
  · obtain ⟨v, hv, hsame⟩ := hs.found r t (by rw [hfound]; rfl)
    obtain rfl : v = u := List.inj_on_of_nodup_map hs.ids hv hu (hsame.id.trans hid.symm)
    have hmem : v ∈ liveTokens familyId s.rows :=
      (mem_liveTokens _).mpr ⟨hv, hsame.familyId.trans hfamily, hlive⟩
    obtain ⟨w, hw⟩ := List.length_eq_one_iff.mp
      (Nat.le_antisymm hs.live (List.length_pos_of_mem hmem))
    obtain rfl : v = w := List.mem_singleton.mp (hw ▸ hmem)
    have hnil : liveTokens familyId (revokeWhere (fun u => u.id == t.id) now s.rows) = [] := by
      rw [liveTokens_revokeWhere, hw]
      simp [hid]
    -- the token was unrevoked, so no other claim of the family was open
    have hnone : ∀ r', (s.request r').claimedFamily? ≠ some familyId := by
      intro r' hr'
      rw [hs.claimed r' hr'] at hmem
      cases hmem
    exact {
      toExchangeInv := hexchange
      live := by rw [State.setRequest_rows, hnil]; exact Nat.zero_le 1
      claimed := fun _ _ => hnil
      oneClaim := by
        intro r₁ r₂ h₁ h₂
        by_cases hr₁ : r₁ = r <;> by_cases hr₂ : r₂ = r
        · rw [hr₁, hr₂]
        · rw [State.setRequest_request_ne _ _ hr₂] at h₂
          exact absurd h₂ (hnone r₂)
        · rw [State.setRequest_request_ne _ _ hr₁] at h₁
          exact absurd h₁ (hnone r₁)
        · rw [State.setRequest_request_ne _ _ hr₁] at h₁
          exact absurd h₁ (hnone r₁) }
  · refine hs.of_le hexchange hle fun r' hr' => ?_
    by_cases hr : r' = r
    · rw [hr, State.setRequest_request_self] at hr'
      exact absurd (Option.some.inj hr') hfamily
    · rwa [State.setRequest_request_ne _ _ hr] at hr'

/-- The successor takes the place of the token claimed. -/
theorem FamilyInv.insert {familyId : String} {s : State Req} (hs : FamilyInv familyId s) {r : Req}
    {t new : RefreshToken} {refreshToken : String} (hclaimed : s.request r = .claimed t)
    (hnew : new.familyId = t.familyId) (hid : ∀ u ∈ s.rows, u.id ≠ new.id)
    (hhash : ∀ u ∈ s.rows, u.tokenHash ≠ new.tokenHash) :
    FamilyInv familyId ({ s with rows := s.rows ++ [new]
      }.setRequest r (.answered (.rotated t new refreshToken))) := by
  have hexchange := hs.toExchangeInv.insert refreshToken hclaimed hid hhash
  by_cases hfamily : t.familyId = familyId
  · have hr : (s.request r).claimedFamily? = some familyId := by
      rw [hclaimed, ← hfamily]
      rfl
    have hlive : (liveTokens familyId (s.rows ++ [new])).length ≤ 1 := by
      rw [liveTokens_append, hs.claimed r hr, List.nil_append]
      exact List.length_filter_le _ _
    -- the open claim of the family was this one
    have hnone : ∀ r', (({ s with rows := s.rows ++ [new]
        }.setRequest r (.answered (.rotated t new refreshToken))).request r').claimedFamily? ≠
        some familyId := by
      intro r' hr'
      obtain ⟨hne, hr'⟩ := of_setRequest rfl hr'
      exact hne (hs.oneClaim r' r hr' hr)
    exact {
      toExchangeInv := hexchange
      live := hlive
      claimed := fun r' hr' => absurd hr' (hnone r')
      oneClaim := fun r' _ hr' _ => absurd hr' (hnone r') }
  · refine hs.of_le hexchange ?_ fun r' hr' => (of_setRequest rfl hr').2
    show (liveTokens familyId (s.rows ++ [new])).length ≤ _
    rw [liveTokens_append]
    simp [liveTokens, unrevokedWhere, hnew, hfamily]

theorem step_familyInv {familyId : String} {s s' : State Req} {l : Label Req}
    (hs : FamilyInv familyId s) (hC : FreshHash hashRefreshToken s l)
    (h : step hashRefreshToken s l = some s') : FamilyInv familyId s' := by
  have hexchange := step_exchangeInv hs.toExchangeInv hC h
  cases step_effect h with
  | stays => exact hs
  | logsOut _ cond now =>
    exact hs.of_le hexchange (length_liveTokens_revokeWhere_le cond now _ familyId) fun _ hr => hr
  | ends _ r q _ hq =>
    refine hs.of_le hexchange le_rfl fun r' hr' => (of_setRequest ?_ hr').2
    rcases hq with rfl | rfl | rfl <;> rfl
  | finds _ r t now _ _ =>
    exact hs.of_le hexchange le_rfl fun r' hr' => (of_setRequest rfl hr').2
  | loses _ r t now _ =>
    exact hs.of_le hexchange le_rfl fun r' hr' => (of_setRequest rfl hr').2
  | claims _ r t u now hfound hu hid hlive => exact hs.claim hfound hu hid hlive
  | detects _ r t now _ =>
    exact hs.of_le hexchange (length_liveTokens_revokeWhere_le _ now _ familyId)
      fun r' hr' => (of_setRequest rfl hr').2
  | inserts r t id newRefreshToken expiresAt hclaimed hid => exact hs.insert hclaimed rfl hid hC

omit [DecidableEq Req] in
theorem FamilyInit.familyInv {familyId : String} {s : State Req} (h : FamilyInit familyId s) :
    FamilyInv familyId s where
  ids := h.ids
  hashes := h.hashes
  found := by simp [h.idle, Request.found?]
  exchanging := by simp [h.idle, Request.exchanging?]
  once := by simp [h.idle, Request.exchanging?]
  live := h.live.le
  claimed := by simp [h.idle, Request.claimedFamily?]
  oneClaim := by simp [h.idle, Request.claimedFamily?]

omit [DecidableEq Req] in
theorem exchanging_of_exchanged {s : State Req} {r : Req} {t : RefreshToken}
    (h : (s.request r).exchanged? = some t) : (s.request r).exchanging? = some t := by
  cases hrequest : s.request r with
  | answered answer =>
    rw [hrequest] at h
    cases answer with
    | rotated t' new refreshToken => exact h
    | _ => cases h
  | _ => rw [hrequest] at h; cases h

/-- From a family with one unrevoked token, with distinct hashes: at most one token of it is ever
    unrevoked, and no token is exchanged twice. -/
theorem one_unrevoked_token_each_exchanged_once {familyId : String} {s : State Req}
    (h : (familySystem Req hashRefreshToken familyId).ReachableUnder
      (FreshHash hashRefreshToken) s) :
    (liveTokens familyId s.rows).length ≤ 1 ∧
      ∀ r r' t t', (s.request r).exchanged? = some t → (s.request r').exchanged? = some t' →
        t.tokenHash = t'.tokenHash → r = r' := by
  have hs : FamilyInv familyId s :=
    h.invariant (fun _ => FamilyInit.familyInv)
      (fun _ _ _ hs hC hstep => step_familyInv hs hC hstep)
  refine ⟨hs.live, ?_⟩
  intro r r' t t' ht ht' hhash
  have hexchanging := exchanging_of_exchanged ht
  have hexchanging' := exchanging_of_exchanged ht'
  obtain ⟨u, hu, hsame, -⟩ := hs.exchanging r t hexchanging
  obtain ⟨u', hu', hsame', -⟩ := hs.exchanging r' t' hexchanging'
  -- distinct hashes: one hash is one row
  obtain rfl : u = u' := List.inj_on_of_nodup_map hs.hashes hu hu'
    ((hsame.tokenHash.trans hhash).trans hsame'.tokenHash.symm)
  exact hs.once r r' t t' hexchanging hexchanging' (hsame.id.symm.trans hsame'.id)

end system

/-- The token is rotated, the successor revoked by a logout, and the first one replayed. -/
theorem one_unrevoked_token_each_exchanged_once_run :
    ∃ s : State Bool, (s.request false).exchanged? = some ⟨"1", "user", "family", "a", 100, none⟩ ∧
      (liveTokens "family" s.rows).length ≤ 1 ∧
      ∀ r r' t t', (s.request r).exchanged? = some t → (s.request r').exchanged? = some t' →
        t.tokenHash = t'.tokenHash → r = r' := by
  obtain ⟨s, hs, hexchanged⟩ : ∃ s, (familySystem Bool id "family").execUnder (FreshHash id) login
      (rotateThenReplay.insertIdx 3 (.logout none (some "b") 2)) = some s ∧
        (s.request false).exchanged? = some ⟨"1", "user", "family", "a", 100, none⟩ :=
    ⟨_, rfl, rfl⟩
  exact ⟨s, hexchanged,
    one_unrevoked_token_each_exchanged_once (.execUnder (.init login_familyInit) hs)⟩

end Notebortt.RefreshTokens
