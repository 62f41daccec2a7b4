import Mathlib.Logic.Function.Basic
import Notebortt.Auth.SocketIdentity
import Notebortt.Lib.RandomSource
import Notebortt.Lib.Transition

/-! # The login with Google

    `GET /google` and `GET /callback` of `google.routes.ts`, for any number of
    browsers. Between the two a flow lives in the cookies of its browser only:
    the state, the PKCE verifier and the frontend it was begun from. Responses
    are in flight until the browser stores their cookies, in whatever order. -/

open Transition

namespace Notebortt.GoogleLogin

/-! ### Settings -/

structure Config where
  corsOrigin : String
  production : Bool
  enableOauthFragmentTokens : Bool

/-- The random values, the hash of a verifier, and which texts `new URL('/callback', base)` takes
    for a base. -/
structure Runtime extends RandomSource where
  toPkceChallenge : String → String
  isUrl : String → Bool

section runtime
variable (rt : Runtime)

/-- What `generateOAuthState` gives the flow with this number. -/
def oauthState (flow : Nat) : String := rt.random (2 * flow)

/-- What `generatePkceVerifier` gives it. -/
def pkceVerifier (flow : Nat) : String := rt.random (2 * flow + 1)

end runtime

def OAUTH_STATE_COOKIE_NAME : String := "oauthState"
def OAUTH_PKCE_COOKIE_NAME : String := "oauthPkceVerifier"
def OAUTH_ORIGIN_COOKIE_NAME : String := "oauthOrigin"
def REFRESH_TOKEN_COOKIE_NAME : String := "refreshToken"

def accessTokenCookieName (config : Config) : String :=
  if config.production then "__Host-accessToken" else "accessToken"

/-! ### Origins -/

def parseAllowedOrigins (raw : String) : List String :=
  (((raw.toList.splitOn ',').map SocketAuth.trim).filter (!·.isEmpty)).map String.ofList

def isAllowedOrigin (config : Config) (origin : Option String) : Bool :=
  match origin with
  | none => false
  | some origin => origin != "" && (parseAllowedOrigins config.corsOrigin).contains origin

def resolveFrontendOrigin (corsOrigin : String) : String :=
  let allowedOrigins := parseAllowedOrigins corsOrigin
  ((allowedOrigins.find? fun origin => "https://".toList.isPrefixOf origin.toList).or
    allowedOrigins.head?).getD corsOrigin

def resolveFrontendOriginForRequest (config : Config) (requestOrigin : Option String) : String :=
  match requestOrigin with
  | none => resolveFrontendOrigin config.corsOrigin
  | some origin =>
    if isAllowedOrigin config (some origin) then origin
    else resolveFrontendOrigin config.corsOrigin

/-! ### Requests and responses -/

/-- A query parameter: a text, or a list or an object. -/
inductive QueryValue where
  | missing
  | text (s : String)
  | other
deriving DecidableEq, Repr

/-- `typeof value === 'string'`, and not empty. -/
def QueryValue.nonEmpty : QueryValue → Option String
  | .text s => if s = "" then none else some s
  | _ => none

theorem eq_text_of_nonEmpty {value : QueryValue} {s : String} (h : value.nonEmpty = some s) :
    value = .text s := by
  cases value with
  | text s' =>
    rw [QueryValue.nonEmpty] at h
    split at h
    · cases h
    · rw [Option.some.inj h]
  | missing => cases h
  | other => cases h

structure Query where
  error : QueryValue
  code : QueryValue
  state : QueryValue
deriving DecidableEq, Repr

inductive Location where
  | google (state challenge : String)
  /-- `/callback` of a frontend: an error in its query, or tokens in its fragment. -/
  | frontend (origin : String) (error : Option String) (tokens : Option (String × String))
deriving DecidableEq, Repr

inductive Reply where
  | redirect (location : Location)
  | error (status : Nat) (message : String)
deriving DecidableEq, Repr

/-- With the cookies it sets, `none` for one that it clears. -/
structure Response where
  reply : Reply
  cookies : List (String × Option String)
deriving DecidableEq, Repr

def setCookie (jar : Dict String) : String × Option String → Dict String
  | (name, some value) => jar.insert name value
  | (name, none) => jar.erase name

/-- What a browser keeps. -/
def storeCookies (cookies : List (String × Option String)) (jar : Dict String) : Dict String :=
  cookies.foldl setCookie jar

theorem lookup_setCookie (jar : Dict String) (cookie : String × Option String) (name : String) :
    (setCookie jar cookie).lookup name = if name = cookie.1 then cookie.2 else jar.lookup name := by
  obtain ⟨key, _ | value⟩ := cookie
  · exact Dict.lookup_erase_ite jar key name
  · exact Dict.lookup_insert_ite jar key name value

/-- The last word on a cookie counts. -/
theorem lookup_storeCookies (cookies : List (String × Option String)) (jar : Dict String)
    (name : String) :
    (storeCookies cookies jar).lookup name =
      (cookies.reverse.lookup name).getD (jar.lookup name) := by
  induction cookies generalizing jar with
  | nil => rfl
  | cons cookie cookies ih =>
    obtain ⟨key, value⟩ := cookie
    have hstep : storeCookies ((key, value) :: cookies) jar =
        storeCookies cookies (setCookie jar (key, value)) := rfl
    rw [hstep, ih, lookup_setCookie, List.reverse_cons, List.lookup_append]
    cases cookies.reverse.lookup name with
    | some found => rfl
    | none =>
      by_cases hname : name = key
      · rw [if_pos hname, hname, List.lookup_cons_self]
        rfl
      · have hne : (name == key) = false := by simpa using hname
        rw [if_neg hname, List.lookup_cons, hne]
        rfl

/-- A callback whose code is being exchanged. -/
structure Exchange where
  code : String
  state : String
  verifier : String
  flowOrigin : Option String
deriving DecidableEq, Repr

/-- How the exchange, the check of the id token and the statements of the session end. -/
inductive Exchanged where
  | threw
  | noIdToken
  | noPayload
  | session (accessToken refreshToken : String)
deriving DecidableEq, Repr

/-! ### Handlers -/

section handlers
variable (config : Config) (rt : Runtime)

def clearFlow : List (String × Option String) :=
  [(OAUTH_STATE_COOKIE_NAME, none), (OAUTH_PKCE_COOKIE_NAME, none)]

/-- The text of the first issue is left out. -/
def badRequest : Response := ⟨.error 400 "Invalid request", []⟩

/-- `GET /google`, as the flow with this number. -/
def google (flow : Nat) (origin : Option String) : Response where
  reply := .redirect (.google (oauthState rt flow) (rt.toPkceChallenge (pkceVerifier rt flow)))
  cookies :=
    [(OAUTH_STATE_COOKIE_NAME, some (oauthState rt flow)),
      (OAUTH_PKCE_COOKIE_NAME, some (pkceVerifier rt flow))] ++
    if isAllowedOrigin config origin then [(OAUTH_ORIGIN_COOKIE_NAME, origin)] else []

/-- The branch for `?error=...`. -/
def callbackError (jar : Dict String) (oauthError : String) (query : Query) : Response :=
  let errorState := query.state.nonEmpty
  let stateFromCookie := jar.lookup OAUTH_STATE_COOKIE_NAME
  if errorState.isNone || stateFromCookie.isNone || stateFromCookie != errorState then
    ⟨.error 403 "Invalid OAuth state", []⟩
  else
    let cookies := clearFlow ++ [(OAUTH_ORIGIN_COOKIE_NAME, none)]
    let origin := resolveFrontendOriginForRequest config (jar.lookup OAUTH_ORIGIN_COOKIE_NAME)
    if rt.isUrl origin then ⟨.redirect (.frontend origin (some oauthError) none), cookies⟩
    else ⟨.error 500 "Internal server error", cookies⟩

/-- The code and the state of a request that `validateRequestInput` takes. -/
def validated (query : Query) (emptyBody : Bool) : Option (String × String) :=
  if emptyBody then query.code.nonEmpty.bind fun code => query.state.nonEmpty.map (code, ·)
  else none

/-- The verifier of the flow with this state, if the cookies are of that flow. -/
def verifierOf (jar : Dict String) (state : String) : Option String :=
  if jar.lookup OAUTH_STATE_COOKIE_NAME = some state then
    (jar.lookup OAUTH_PKCE_COOKIE_NAME).filter (· != "")
  else none

/-- `GET /callback` up to the exchange of the code. -/
def callback (jar : Dict String) (query : Query) (emptyBody : Bool) : Response ⊕ Exchange :=
  match query.error.nonEmpty with
  | some oauthError => .inl (callbackError config rt jar oauthError query)
  | none =>
    match validated query emptyBody with
    | none => .inl badRequest
    | some (code, state) =>
      match verifierOf jar state with
      | none => .inl ⟨.error 403 "Invalid OAuth state", clearFlow⟩
      | some verifier =>
        .inr {
          code := code, state := state, verifier := verifier
          flowOrigin := jar.lookup OAUTH_ORIGIN_COOKIE_NAME }

/-- The rest of `GET /callback`. -/
def finish (exchange : Exchange) : Exchanged → Response
  | .threw => ⟨.error 500 "Authentication failed", clearFlow⟩
  | .noIdToken => ⟨.error 400 "Missing id_token from Google", []⟩
  | .noPayload => ⟨.error 400 "Invalid Google token payload", []⟩
  | .session accessToken refreshToken =>
    let cookies :=
      [(accessTokenCookieName config, some accessToken),
        (REFRESH_TOKEN_COOKIE_NAME, some refreshToken)] ++
      clearFlow ++ [(OAUTH_ORIGIN_COOKIE_NAME, none)]
    let origin := resolveFrontendOriginForRequest config exchange.flowOrigin
    if rt.isUrl origin then
      let tokens :=
        if config.enableOauthFragmentTokens then some (accessToken, refreshToken) else none
      ⟨.redirect (.frontend origin none tokens), cookies⟩
    else
      -- caught with the cookies already on the response
      ⟨.error 500 "Authentication failed", cookies ++ clearFlow⟩

end handlers

section inversion
variable {config : Config} {rt : Runtime} {jar : Dict String} {query : Query} {emptyBody : Bool}

/-- An error is reflected only where the cookie has the state that comes with it. -/
theorem callbackError_cases (config : Config) (rt : Runtime) (jar : Dict String)
    (oauthError : String) (query : Query) :
    (∃ status message cookies,
      callbackError config rt jar oauthError query = ⟨.error status message, cookies⟩) ∨
    ∃ state, query.state = .text state ∧ jar.lookup OAUTH_STATE_COOKIE_NAME = some state := by
  rw [callbackError]
  dsimp only
  split
  · exact .inl ⟨_, _, _, rfl⟩
  · next hmatch =>
    simp only [Bool.or_eq_true, not_or, Option.isNone_iff_eq_none, bne_iff_ne, not_not] at hmatch
    obtain ⟨state, hstate⟩ := Option.ne_none_iff_exists'.mp hmatch.1.1
    exact .inr ⟨state, eq_text_of_nonEmpty hstate, hmatch.2.trans hstate⟩

theorem callback_eq_inl {response : Response}
    (h : callback config rt jar query emptyBody = .inl response) :
    (∃ oauthError, response = callbackError config rt jar oauthError query) ∨
      response = badRequest ∨ response = ⟨.error 403 "Invalid OAuth state", clearFlow⟩ := by
  rw [callback] at h
  split at h
  · next oauthError _ => exact .inl ⟨oauthError, (Sum.inl.inj h).symm⟩
  · split at h
    · exact .inr (.inl (Sum.inl.inj h).symm)
    · split at h
      · exact .inr (.inr (Sum.inl.inj h).symm)
      · cases h

/-- The code is exchanged for the state that the cookie has, with the verifier beside it. -/
theorem callback_eq_inr {exchange : Exchange}
    (h : callback config rt jar query emptyBody = .inr exchange) :
    ∃ state verifier, query.state = .text state ∧
      jar.lookup OAUTH_STATE_COOKIE_NAME = some state ∧
      jar.lookup OAUTH_PKCE_COOKIE_NAME = some verifier ∧
      exchange.state = state ∧ exchange.verifier = verifier := by
  rw [callback] at h
  split at h
  · cases h
  · split at h
    · cases h
    · next code state hvalidated =>
      split at h
      · cases h
      · next verifier hverifier =>
        obtain rfl := Sum.inr.inj h
        rw [verifierOf] at hverifier
        split at hverifier
        · next hstate =>
          refine ⟨state, verifier, ?_, hstate, (Option.filter_eq_some_iff.mp hverifier).1, rfl, rfl⟩
          rw [validated] at hvalidated
          split at hvalidated
          · obtain ⟨code', -, hmap⟩ := Option.bind_eq_some_iff.mp hvalidated
            obtain ⟨state', hquery, heq⟩ := Option.map_eq_some_iff.mp hmap
            obtain ⟨-, rfl⟩ := Prod.mk.inj heq
            exact eq_text_of_nonEmpty hquery
          · cases hvalidated
        · cases hverifier

end inversion

/-! ### Browsers -/

structure State (Browser Thread : Type) where
  jars : Browser → Dict String
  /-- Who has begun the flows, in the order of their numbers. -/
  flows : List Browser
  /-- The responses whose cookies are not stored yet. -/
  inFlight : List (Browser × Response)
  exchanges : Thread → Option (Browser × Exchange)

inductive Label (Browser Thread : Type) where
  | google (browser : Browser) (origin : Option String) (emptyBody : Bool)
  | callback (t : Thread) (browser : Browser) (query : Query) (emptyBody : Bool)
  | finish (t : Thread) (exchanged : Exchanged)
  /-- The cookies of the response at this place are stored. -/
  | deliver (place : Nat)

section system
variable {Browser Thread : Type} [DecidableEq Browser] [DecidableEq Thread] (config : Config)
  (rt : Runtime)

def step (s : State Browser Thread) : Label Browser Thread → Option (State Browser Thread)
  | .google browser origin emptyBody =>
    some <|
      if emptyBody then
        { s with
          flows := s.flows ++ [browser]
          inFlight := s.inFlight ++ [(browser, google config rt s.flows.length origin)] }
      else { s with inFlight := s.inFlight ++ [(browser, badRequest)] }
  | .callback t browser query emptyBody =>
    match s.exchanges t with
    | some _ => none
    | none =>
      some <|
        match callback config rt (s.jars browser) query emptyBody with
        | .inl response => { s with inFlight := s.inFlight ++ [(browser, response)] }
        | .inr exchange =>
          { s with exchanges := Function.update s.exchanges t (some (browser, exchange)) }
  | .finish t exchanged =>
    (s.exchanges t).map fun (browser, exchange) =>
      { s with
        inFlight := s.inFlight ++ [(browser, finish config rt exchange exchanged)]
        exchanges := Function.update s.exchanges t none }
  | .deliver place =>
    (s.inFlight[place]?).map fun (browser, response) =>
      { s with
        jars := Function.update s.jars browser
          (storeCookies response.cookies (s.jars browser))
        inFlight := s.inFlight.eraseIdx place }

/-- No flow has begun and no browser has cookies of one. -/
structure Init (s : State Browser Thread) : Prop where
  state : ∀ b, (s.jars b).lookup OAUTH_STATE_COOKIE_NAME = none
  verifier : ∀ b, (s.jars b).lookup OAUTH_PKCE_COOKIE_NAME = none
  flows : s.flows = []
  inFlight : s.inFlight = []
  exchanges : ∀ t, s.exchanges t = none

variable (Browser Thread) in
def system : System (State Browser Thread) (Label Browser Thread) where
  init := Init
  step := step config rt

variable {config rt} {s s' : State Browser Thread}

/-- What a step does. -/
theorem step_cases {l : Label Browser Thread} (h : step config rt s l = some s') :
    (∃ b origin, l = .google b origin true ∧ s' = { s with
      flows := s.flows ++ [b]
      inFlight := s.inFlight ++ [(b, google config rt s.flows.length origin)] }) ∨
    (∃ b, s' = { s with inFlight := s.inFlight ++ [(b, badRequest)] }) ∨
    (∃ t b query emptyBody response, l = .callback t b query emptyBody ∧
      callback config rt (s.jars b) query emptyBody = .inl response ∧
      s' = { s with inFlight := s.inFlight ++ [(b, response)] }) ∨
    (∃ t b query emptyBody exchange, l = .callback t b query emptyBody ∧
      callback config rt (s.jars b) query emptyBody = .inr exchange ∧
      s' = { s with exchanges := Function.update s.exchanges t (some (b, exchange)) }) ∨
    (∃ t b exchange exchanged, s.exchanges t = some (b, exchange) ∧
      s' = { s with
        inFlight := s.inFlight ++ [(b, finish config rt exchange exchanged)]
        exchanges := Function.update s.exchanges t none }) ∨
    ∃ place b response, s.inFlight[place]? = some (b, response) ∧
      s' = { s with
        jars := Function.update s.jars b (storeCookies response.cookies (s.jars b))
        inFlight := s.inFlight.eraseIdx place } := by
  cases l with
  | google b origin emptyBody =>
    obtain rfl := Option.some.inj h
    split
    · next hbody =>
      obtain rfl := hbody
      exact .inl ⟨b, origin, rfl, rfl⟩
    · exact .inr (.inl ⟨b, rfl⟩)
  | callback t b query emptyBody =>
    simp only [step] at h
    split at h
    · cases h
    · obtain rfl := Option.some.inj h
      split
      · next response hresponse =>
        exact .inr (.inr (.inl ⟨t, b, query, emptyBody, response, rfl, hresponse, rfl⟩))
      · next exchange hexchange =>
        exact .inr (.inr (.inr (.inl ⟨t, b, query, emptyBody, exchange, rfl, hexchange, rfl⟩)))
  | finish t exchanged =>
    obtain ⟨⟨b, exchange⟩, hat, rfl⟩ := Option.map_eq_some_iff.mp h
    exact .inr (.inr (.inr (.inr (.inl ⟨t, b, exchange, exchanged, hat, rfl⟩))))
  | deliver place =>
    obtain ⟨⟨b, response⟩, hat, rfl⟩ := Option.map_eq_some_iff.mp h
    exact .inr (.inr (.inr (.inr (.inr ⟨place, b, response, hat, rfl⟩))))

/-! ### The cookies of a flow go together -/

/-- The state and the verifier of one flow of the browser. -/
def OwnFlow (rt : Runtime) (flows : List Browser) (b : Browser) (state verifier : String) : Prop :=
  ∃ flow, flows[flow]? = some b ∧ state = oauthState rt flow ∧ verifier = pkceVerifier rt flow

/-- Neither cookie, or those of one flow. -/
def OwnCookies (rt : Runtime) (flows : List Browser) (b : Browser) (jar : Dict String) : Prop :=
  (jar.lookup OAUTH_STATE_COOKIE_NAME = none ∧ jar.lookup OAUTH_PKCE_COOKIE_NAME = none) ∨
    ∃ state verifier, jar.lookup OAUTH_STATE_COOKIE_NAME = some state ∧
      jar.lookup OAUTH_PKCE_COOKIE_NAME = some verifier ∧ OwnFlow rt flows b state verifier

/-- Stored in any jar, the response leaves both cookies as they are or replaces both. -/
def KeepsCookies (rt : Runtime) (flows : List Browser) (b : Browser) (response : Response) : Prop :=
  ∀ jar, ((storeCookies response.cookies jar).lookup OAUTH_STATE_COOKIE_NAME =
        jar.lookup OAUTH_STATE_COOKIE_NAME ∧
      (storeCookies response.cookies jar).lookup OAUTH_PKCE_COOKIE_NAME =
        jar.lookup OAUTH_PKCE_COOKIE_NAME) ∨
    OwnCookies rt flows b (storeCookies response.cookies jar)

section cookies
variable {flows : List Browser} {b b' : Browser}

omit [DecidableEq Browser] in
theorem OwnFlow.mono {state verifier : String} (h : OwnFlow rt flows b state verifier) :
    OwnFlow rt (flows ++ [b']) b state verifier := by
  obtain ⟨flow, hflow, hstate, hverifier⟩ := h
  exact ⟨flow, by rw [List.getElem?_append_left (List.getElem?_eq_some_iff.mp hflow).1, hflow],
    hstate, hverifier⟩

omit [DecidableEq Browser] in
theorem OwnCookies.mono {jar : Dict String} (h : OwnCookies rt flows b jar) :
    OwnCookies rt (flows ++ [b']) b jar := by
  rcases h with hnone | ⟨state, verifier, hstate, hverifier, hown⟩
  · exact .inl hnone
  · exact .inr ⟨state, verifier, hstate, hverifier, hown.mono⟩

omit [DecidableEq Browser] in
theorem KeepsCookies.mono {response : Response} (h : KeepsCookies rt flows b response) :
    KeepsCookies rt (flows ++ [b']) b response := fun jar => (h jar).imp_right OwnCookies.mono

omit [DecidableEq Browser] in
theorem KeepsCookies.store {response : Response} {jar : Dict String}
    (h : KeepsCookies rt flows b response) (hjar : OwnCookies rt flows b jar) :
    OwnCookies rt flows b (storeCookies response.cookies jar) := by
  rcases h jar with ⟨hstate, hverifier⟩ | hown
  · rw [OwnCookies, hstate, hverifier]
    exact hjar
  · exact hown

omit [DecidableEq Browser] in
/-- A response that clears both. -/
theorem KeepsCookies.of_cleared {response : Response}
    (hstate : response.cookies.reverse.lookup OAUTH_STATE_COOKIE_NAME = some none)
    (hverifier : response.cookies.reverse.lookup OAUTH_PKCE_COOKIE_NAME = some none) :
    KeepsCookies rt flows b response := by
  intro jar
  refine .inr (.inl ⟨?_, ?_⟩)
  · rw [lookup_storeCookies, hstate, Option.getD_some]
  · rw [lookup_storeCookies, hverifier, Option.getD_some]

omit [DecidableEq Browser] in
theorem KeepsCookies.of_nil {reply : Reply} : KeepsCookies rt flows b ⟨reply, []⟩ :=
  fun _ => .inl ⟨rfl, rfl⟩

omit [DecidableEq Browser] in
theorem keepsCookies_google {origin : Option String} :
    KeepsCookies rt (flows ++ [b]) b (google config rt flows.length origin) := by
  intro jar
  refine .inr (.inr ⟨oauthState rt flows.length, pkceVerifier rt flows.length, ?_, ?_,
    flows.length, List.getElem?_concat_length, rfl, rfl⟩)
  · rw [lookup_storeCookies]
    cases h : isAllowedOrigin config origin <;> simp only [google, h] <;> rfl
  · rw [lookup_storeCookies]
    cases h : isAllowedOrigin config origin <;> simp only [google, h] <;> rfl

omit [DecidableEq Browser] in
theorem keepsCookies_callback {jar : Dict String} {query : Query} {emptyBody : Bool}
    {response : Response} (h : callback config rt jar query emptyBody = .inl response) :
    KeepsCookies rt flows b response := by
  rcases callback_eq_inl h with ⟨oauthError, rfl⟩ | rfl | rfl
  · rw [callbackError]
    dsimp only
    split
    · exact .of_nil
    · split
      · exact .of_cleared rfl rfl
      · exact .of_cleared rfl rfl
  · exact .of_nil
  · exact .of_cleared rfl rfl

omit [DecidableEq Browser] in
theorem keepsCookies_finish {exchange : Exchange} {exchanged : Exchanged} :
    KeepsCookies rt flows b (finish config rt exchange exchanged) := by
  cases exchanged with
  | threw => exact .of_cleared rfl rfl
  | noIdToken => exact .of_nil
  | noPayload => exact .of_nil
  | session accessToken refreshToken =>
    rw [finish]
    dsimp only
    split
    · exact .of_cleared rfl rfl
    · exact .of_cleared rfl rfl

omit [DecidableEq Browser] in
/-- An exchange is begun with what the jar has. -/
theorem ownFlow_of_callback {jar : Dict String} {query : Query} {emptyBody : Bool}
    {exchange : Exchange} (hjar : OwnCookies rt flows b jar)
    (h : callback config rt jar query emptyBody = .inr exchange) :
    OwnFlow rt flows b exchange.state exchange.verifier := by
  obtain ⟨state, verifier, -, hstate, hverifier, hexchange, hexchange'⟩ := callback_eq_inr h
  rcases hjar with ⟨hnone, -⟩ | ⟨state', verifier', hstate', hverifier', hown⟩
  · rw [hstate] at hnone
    cases hnone
  · obtain rfl := Option.some.inj (hstate.symm.trans hstate')
    obtain rfl := Option.some.inj (hverifier.symm.trans hverifier')
    rw [hexchange, hexchange']
    exact hown

end cookies

/-! ### Every run -/

structure Inv (rt : Runtime) (s : State Browser Thread) : Prop where
  jars : ∀ b, OwnCookies rt s.flows b (s.jars b)
  inFlight : ∀ b response, (b, response) ∈ s.inFlight → KeepsCookies rt s.flows b response
  exchanges : ∀ t b exchange, s.exchanges t = some (b, exchange) →
    OwnFlow rt s.flows b exchange.state exchange.verifier

omit [DecidableEq Browser] [DecidableEq Thread] in
/-- One more response in flight. -/
theorem Inv.respond {b : Browser} {response : Response} (h : Inv rt s)
    (hresponse : KeepsCookies rt s.flows b response) :
    Inv rt { s with inFlight := s.inFlight ++ [(b, response)] } := by
  refine { h with inFlight := ?_ }
  intro b' response' hmem
  rcases List.mem_append.mp hmem with hmem | hmem
  · exact h.inFlight b' response' hmem
  · obtain ⟨rfl, rfl⟩ := Prod.mk.inj (List.mem_singleton.mp hmem)
    exact hresponse

omit [DecidableEq Browser] in
/-- One exchange begins or ends. -/
theorem Inv.exchange {t : Thread} {next : Option (Browser × Exchange)} (h : Inv rt s)
    (hnext : ∀ b exchange, next = some (b, exchange) →
      OwnFlow rt s.flows b exchange.state exchange.verifier) :
    Inv rt { s with exchanges := Function.update s.exchanges t next } := by
  refine { h with exchanges := ?_ }
  intro t' b exchange hat
  replace hat : Function.update s.exchanges t next t' = some (b, exchange) := hat
  by_cases ht : t' = t
  · rw [ht, Function.update_self] at hat
    exact hnext b exchange hat
  · rw [Function.update_of_ne ht] at hat
    exact h.exchanges t' b exchange hat

theorem inv_step {l : Label Browser Thread} (h : Inv rt s)
    (hstep : step config rt s l = some s') : Inv rt s' := by
  rcases step_cases hstep with ⟨b, origin, -, rfl⟩ | ⟨b, rfl⟩ |
    ⟨t, b, query, emptyBody, response, -, hresponse, rfl⟩ |
    ⟨t, b, query, emptyBody, exchange, -, hexchange, rfl⟩ |
    ⟨t, b, exchange, exchanged, -, rfl⟩ | ⟨place, b, response, hat, rfl⟩
  · have hgrown : Inv rt { s with flows := s.flows ++ [b] } :=
      ⟨fun b' => (h.jars b').mono, fun b' response hmem => (h.inFlight b' response hmem).mono,
        fun t b' exchange hat => (h.exchanges t b' exchange hat).mono⟩
    exact hgrown.respond keepsCookies_google
  · exact h.respond .of_nil
  · exact h.respond (keepsCookies_callback hresponse)
  · refine h.exchange ?_
    rintro _ _ ⟨⟩
    exact ownFlow_of_callback (h.jars b) hexchange
  · exact (h.respond keepsCookies_finish).exchange nofun
  · refine ⟨?_, ?_, h.exchanges⟩
    · intro b'
      by_cases hb : b' = b
      · rw [hb]
        simp only [Function.update_self]
        exact (h.inFlight b response (List.mem_of_getElem? hat)).store (h.jars b)
      · simp only [Function.update_of_ne hb]
        exact h.jars b'
    · exact fun b' response' hmem => h.inFlight b' response' (List.mem_of_mem_eraseIdx hmem)

theorem inv_of_reachable (h : (system Browser Thread config rt).Reachable s) : Inv rt s := by
  refine h.invariant (I := Inv rt) ?_ fun s l s' hs hstep => inv_step hs hstep
  intro s hs
  refine ⟨fun b => .inl ⟨hs.state b, hs.verifier b⟩, ?_, ?_⟩
  · rw [hs.inFlight]
    exact nofun
  · intro t b exchange hat
    rw [hs.exchanges t] at hat
    cases hat

/-- A callback that is not answered with an error at once presents the state of a flow that its own
    browser has begun, and a code is exchanged with the verifier of the flow whose state has come
    with it. -/
theorem callback_of_own_flow (h : (system Browser Thread config rt).Reachable s) :
    (∀ b query emptyBody,
      (∃ status message cookies,
        callback config rt (s.jars b) query emptyBody = .inl ⟨.error status message, cookies⟩) ∨
      ∃ flow, s.flows[flow]? = some b ∧ query.state = .text (oauthState rt flow)) ∧
    ∀ t b exchange, s.exchanges t = some (b, exchange) →
      ∃ flow, s.flows[flow]? = some b ∧ exchange.state = oauthState rt flow ∧
        exchange.verifier = pkceVerifier rt flow := by
  have hinv := inv_of_reachable h
  refine ⟨?_, hinv.exchanges⟩
  intro b query emptyBody
  cases hcallback : callback config rt (s.jars b) query emptyBody with
  | inl response =>
    rcases callback_eq_inl hcallback with ⟨oauthError, rfl⟩ | rfl | rfl
    · rcases callbackError_cases config rt (s.jars b) oauthError query with
        ⟨status, message, cookies, hreply⟩ | ⟨state, hquery, hstate⟩
      · exact .inl ⟨status, message, cookies, by rw [hreply]⟩
      · rcases hinv.jars b with ⟨hnone, -⟩ | ⟨state', verifier, hstate', -, flow, hflow, hown, -⟩
        · rw [hstate] at hnone
          cases hnone
        · obtain rfl := Option.some.inj (hstate.symm.trans hstate')
          exact .inr ⟨flow, hflow, hown ▸ hquery⟩
    · exact .inl ⟨_, _, _, rfl⟩
    · exact .inl ⟨_, _, _, rfl⟩
  | inr exchange =>
    obtain ⟨state, verifier, hquery, -, -, hstate, -⟩ := callback_eq_inr hcallback
    obtain ⟨flow, hflow, hown, -⟩ := ownFlow_of_callback (hinv.jars b) hcallback
    exact .inr ⟨flow, hflow, by rw [hquery, ← hstate, hown]⟩

/-! ### Redirects -/

/-- The first https origin of the list, without one the first of the list, and the setting itself
    where it lists none. -/
inductive DefaultOrigin (corsOrigin origin : String) : Prop where
  | https {before after : List String}
      (hlist : parseAllowedOrigins corsOrigin = before ++ origin :: after)
      (hhttps : "https://".toList <+: origin.toList)
      (hfirst : ∀ o ∈ before, ¬"https://".toList <+: o.toList)
  | first {rest : List String} (hlist : parseAllowedOrigins corsOrigin = origin :: rest)
      (hnone : ∀ o ∈ parseAllowedOrigins corsOrigin, ¬"https://".toList <+: o.toList)
  | setting (hlist : parseAllowedOrigins corsOrigin = []) (heq : origin = corsOrigin)

/-- The listed origin that the cookie names, and without one the default. -/
inductive GoesTo (config : Config) (cookie : Option String) (origin : String) : Prop where
  | named (hcookie : cookie = some origin)
      (hlisted : origin ∈ parseAllowedOrigins config.corsOrigin)
  | default (hcookie : ∀ named, cookie = some named → named ∉ parseAllowedOrigins config.corsOrigin)
      (hdefault : DefaultOrigin config.corsOrigin origin)

/-- A redirect to a frontend for this origin cookie: it takes tokens along only where the setting
    says so, and never beside an error. -/
def Response.Safe (config : Config) (cookie : Option String) (response : Response) : Prop :=
  ∀ origin error tokens, response.reply = .redirect (.frontend origin error tokens) →
    GoesTo config cookie origin ∧
    (tokens.isSome = true → config.enableOauthFragmentTokens = true ∧ error = none)

theorem defaultOrigin_resolveFrontendOrigin (corsOrigin : String) :
    DefaultOrigin corsOrigin (resolveFrontendOrigin corsOrigin) := by
  rw [resolveFrontendOrigin]
  cases hfind : (parseAllowedOrigins corsOrigin).find? fun origin =>
      "https://".toList.isPrefixOf origin.toList with
  | some origin =>
    obtain ⟨hhttps, before, after, hlist, hfirst⟩ := List.find?_eq_some_iff_append.mp hfind
    refine .https hlist (List.isPrefixOf_iff_prefix.mp hhttps) ?_
    intro o ho hprefix
    have hnot := hfirst o ho
    rw [List.isPrefixOf_iff_prefix.mpr hprefix] at hnot
    cases hnot
  | none =>
    have hnone := List.find?_eq_none.mp hfind
    cases hlist : parseAllowedOrigins corsOrigin with
    | nil => exact .setting hlist rfl
    | cons first rest =>
      exact .first hlist fun o ho hprefix => hnone o ho (List.isPrefixOf_iff_prefix.mpr hprefix)

/-- Empty entries are filtered out of the list. -/
theorem empty_notMem_parseAllowedOrigins (raw : String) : "" ∉ parseAllowedOrigins raw := by
  intro hmem
  obtain ⟨cs, hcs, hempty⟩ := List.mem_map.mp hmem
  have hnil : cs = [] := String.ofList_eq_empty_iff.mp hempty
  have hkept := (List.mem_filter.mp hcs).2
  rw [hnil] at hkept
  cases hkept

theorem isAllowedOrigin_iff {config : Config} {origin : String} :
    isAllowedOrigin config (some origin) = true ↔
      origin ∈ parseAllowedOrigins config.corsOrigin := by
  simp only [isAllowedOrigin, Bool.and_eq_true, bne_iff_ne, List.contains_iff_mem]
  refine ⟨And.right, fun hmem => ⟨?_, hmem⟩⟩
  rintro rfl
  exact empty_notMem_parseAllowedOrigins _ hmem

theorem goesTo_resolveFrontendOriginForRequest (config : Config) (requestOrigin : Option String) :
    GoesTo config requestOrigin (resolveFrontendOriginForRequest config requestOrigin) := by
  cases requestOrigin with
  | none => exact .default nofun (defaultOrigin_resolveFrontendOrigin _)
  | some origin =>
    simp only [resolveFrontendOriginForRequest]
    split
    · next hallowed => exact .named rfl (isAllowedOrigin_iff.mp hallowed)
    · next hallowed =>
      refine .default ?_ (defaultOrigin_resolveFrontendOrigin _)
      rintro _ ⟨⟩ hmem
      exact hallowed (isAllowedOrigin_iff.mpr hmem)

theorem Response.Safe.error {cookie : Option String} {status : Nat} {message : String}
    {cookies : List (String × Option String)} :
    (⟨.error status message, cookies⟩ : Response).Safe config cookie := fun _ _ _ => nofun

theorem safe_callback {jar : Dict String} {query : Query} {emptyBody : Bool} {response : Response}
    (h : callback config rt jar query emptyBody = .inl response) :
    response.Safe config (jar.lookup OAUTH_ORIGIN_COOKIE_NAME) := by
  rcases callback_eq_inl h with ⟨oauthError, rfl⟩ | rfl | rfl
  · rw [callbackError]
    dsimp only
    split
    · exact .error
    · split
      · rintro _ _ _ ⟨⟩
        exact ⟨goesTo_resolveFrontendOriginForRequest config _, nofun⟩
      · exact .error
  · exact .error
  · exact .error

theorem safe_finish {exchange : Exchange} {exchanged : Exchanged} :
    (finish config rt exchange exchanged).Safe config exchange.flowOrigin := by
  cases exchanged with
  | threw => exact .error
  | noIdToken => exact .error
  | noPayload => exact .error
  | session accessToken refreshToken =>
    rw [finish]
    dsimp only
    split
    · rintro _ _ _ ⟨⟩
      refine ⟨goesTo_resolveFrontendOriginForRequest config _, ?_⟩
      cases config.enableOauthFragmentTokens with
      | true => exact fun _ => ⟨rfl, rfl⟩
      | false => nofun
    · exact .error

theorem flowOrigin_of_callback {jar : Dict String} {query : Query} {emptyBody : Bool}
    {exchange : Exchange} (h : callback config rt jar query emptyBody = .inr exchange) :
    exchange.flowOrigin = jar.lookup OAUTH_ORIGIN_COOKIE_NAME := by
  rw [callback] at h
  split at h
  · cases h
  · split at h
    · cases h
    · split at h
      · cases h
      · rw [← Sum.inr.inj h]

/-! ### Where the origin cookie comes from -/

/-- The response sets the origin cookie to this origin. -/
def Response.Names (response : Response) (origin : String) : Prop :=
  response.cookies.reverse.lookup OAUTH_ORIGIN_COOKIE_NAME = some (some origin)

theorem google_names {flow : Nat} {origin : Option String} {named : String}
    (h : (google config rt flow origin).Names named) : origin = some named := by
  rw [Response.Names, google] at h
  cases hallowed : isAllowedOrigin config origin with
  | true =>
    rw [hallowed] at h
    exact Option.some.inj h
  | false =>
    rw [hallowed] at h
    cases h

theorem callback_not_names {jar : Dict String} {query : Query} {emptyBody : Bool}
    {response : Response} (h : callback config rt jar query emptyBody = .inl response)
    (named : String) : ¬response.Names named := by
  rcases callback_eq_inl h with ⟨oauthError, rfl⟩ | rfl | rfl
  · rw [callbackError]
    dsimp only
    split
    · exact nofun
    · split <;> exact nofun
  · exact nofun
  · exact nofun

theorem finish_not_names {exchange : Exchange} {exchanged : Exchanged} (named : String) :
    ¬(finish config rt exchange exchanged).Names named := by
  cases exchanged with
  | threw => exact nofun
  | noIdToken => exact nofun
  | noPayload => exact nofun
  | session accessToken refreshToken =>
    rw [finish]
    dsimp only
    split <;> exact nofun

section runs
variable {s₀ : State Browser Thread} {ls : List (Label Browser Thread)} {b : Browser}

/-- The browser has begun a flow at this origin in the run, or had its cookie before. -/
def BegunAt (s₀ : State Browser Thread) (ls : List (Label Browser Thread)) (b : Browser)
    (origin : String) : Prop :=
  (s₀.jars b).lookup OAUTH_ORIGIN_COOKIE_NAME = some origin ∨ .google b (some origin) true ∈ ls

/-- The browser has come back in the run with this origin cookie. -/
def CameBack (config : Config) (rt : Runtime) (s₀ : State Browser Thread)
    (ls : List (Label Browser Thread)) (b : Browser) (cookie : Option String) : Prop :=
  ∃ before t query emptyBody after s,
    ls = before ++ .callback t b query emptyBody :: after ∧
    (system Browser Thread config rt).exec s₀ before = some s ∧
    (s.jars b).lookup OAUTH_ORIGIN_COOKIE_NAME = cookie ∧
    ∀ origin, cookie = some origin → BegunAt s₀ before b origin

/-- What the run has left behind of the origins. -/
structure OriginsKnown (config : Config) (rt : Runtime) (s₀ : State Browser Thread)
    (ls : List (Label Browser Thread)) (s : State Browser Thread) : Prop where
  jars : ∀ b origin, (s.jars b).lookup OAUTH_ORIGIN_COOKIE_NAME = some origin →
    BegunAt s₀ ls b origin
  inFlight : ∀ b response, (b, response) ∈ s.inFlight →
    ∀ origin, response.Names origin → BegunAt s₀ ls b origin
  redirects : ∀ b response, (b, response) ∈ s.inFlight →
    ∀ origin error tokens, response.reply = .redirect (.frontend origin error tokens) →
      ∃ cookie, CameBack config rt s₀ ls b cookie ∧ response.Safe config cookie
  exchanges : ∀ t b exchange, s.exchanges t = some (b, exchange) →
    CameBack config rt s₀ ls b exchange.flowOrigin

omit [DecidableEq Browser] [DecidableEq Thread] in
theorem BegunAt.mono {origin : String} {l : Label Browser Thread} (h : BegunAt s₀ ls b origin) :
    BegunAt s₀ (ls ++ [l]) b origin := h.imp_right (List.mem_append_left _)

theorem CameBack.mono {cookie : Option String} {l : Label Browser Thread}
    (h : CameBack config rt s₀ ls b cookie) : CameBack config rt s₀ (ls ++ [l]) b cookie := by
  obtain ⟨before, t, query, emptyBody, after, s, rfl, hcookie⟩ := h
  exact ⟨before, t, query, emptyBody, after ++ [l], s, by rw [List.append_assoc]; rfl, hcookie⟩

/-- A longer history alone. -/
theorem OriginsKnown.mono {l : Label Browser Thread} (h : OriginsKnown config rt s₀ ls s) :
    OriginsKnown config rt s₀ (ls ++ [l]) s where
  jars := fun b origin hcookie => (h.jars b origin hcookie).mono
  inFlight := fun b response hmem origin hnames => (h.inFlight b response hmem origin hnames).mono
  redirects := fun b response hmem origin error tokens hreply => by
    obtain ⟨cookie, hback, hsafe⟩ := h.redirects b response hmem origin error tokens hreply
    exact ⟨cookie, hback.mono, hsafe⟩
  exchanges := fun t b exchange hat => (h.exchanges t b exchange hat).mono

omit [DecidableEq Browser] [DecidableEq Thread] in
/-- One more response in flight. -/
theorem forall_inFlight_append {P : Browser → Response → Prop} {response : Response}
    (h : ∀ b' response', (b', response') ∈ s.inFlight → P b' response') (hnew : P b response) :
    ∀ b' response', (b', response') ∈ s.inFlight ++ [(b, response)] → P b' response' := by
  intro b' response' hmem
  rcases List.mem_append.mp hmem with hmem | hmem
  · exact h b' response' hmem
  · obtain ⟨rfl, rfl⟩ := Prod.mk.inj (List.mem_singleton.mp hmem)
    exact hnew

theorem OriginsKnown.respond {response : Response} (h : OriginsKnown config rt s₀ ls s)
    (hnames : ∀ origin, response.Names origin → BegunAt s₀ ls b origin)
    (hredirect : ∀ origin error tokens, response.reply = .redirect (.frontend origin error tokens) →
      ∃ cookie, CameBack config rt s₀ ls b cookie ∧ response.Safe config cookie) :
    OriginsKnown config rt s₀ ls { s with inFlight := s.inFlight ++ [(b, response)] } :=
  { h with
    inFlight := forall_inFlight_append h.inFlight hnames
    redirects := forall_inFlight_append h.redirects hredirect }

/-- The step that comes back. -/
theorem cameBack_of_callback (hrun : (system Browser Thread config rt).exec s₀ ls = some s)
    (h : OriginsKnown config rt s₀ ls s) {t : Thread} {query : Query} {emptyBody : Bool} :
    CameBack config rt s₀ (ls ++ [.callback t b query emptyBody]) b
      ((s.jars b).lookup OAUTH_ORIGIN_COOKIE_NAME) :=
  ⟨ls, t, query, emptyBody, [], s, rfl, hrun, rfl, h.jars b⟩

theorem originsKnown_step {l : Label Browser Thread}
    (hrun : (system Browser Thread config rt).exec s₀ ls = some s)
    (h : OriginsKnown config rt s₀ ls s) (hstep : step config rt s l = some s') :
    OriginsKnown config rt s₀ (ls ++ [l]) s' := by
  have hmono : OriginsKnown config rt s₀ (ls ++ [l]) s := h.mono
  rcases step_cases hstep with ⟨b, origin, rfl, rfl⟩ | ⟨b, rfl⟩ |
    ⟨t, b, query, emptyBody, response, rfl, hcallback, rfl⟩ |
    ⟨t, b, query, emptyBody, exchange, rfl, hcallback, rfl⟩ |
    ⟨t, b, exchange, exchanged, hat, rfl⟩ | ⟨place, b, response, hat, rfl⟩
  · have hgrown : OriginsKnown config rt s₀ (ls ++ [.google b origin true])
        { s with flows := s.flows ++ [b] } := { hmono with }
    refine hgrown.respond (fun named hnames => ?_) ?_
    · obtain rfl := google_names hnames
      exact .inr (List.mem_append_right _ (List.mem_singleton.mpr rfl))
    · rintro _ _ _ ⟨⟩
  · exact hmono.respond (fun _ => nofun) fun _ _ _ => nofun
  · refine hmono.respond (fun named hnames => absurd hnames (callback_not_names hcallback named)) ?_
    exact fun _ _ _ _ => ⟨_, cameBack_of_callback hrun h, safe_callback hcallback⟩
  · refine { hmono with exchanges := ?_ }
    intro t' b' exchange' hat
    replace hat :
      Function.update s.exchanges t (some (b, exchange)) t' = some (b', exchange') := hat
    by_cases ht : t' = t
    · rw [ht, Function.update_self] at hat
      obtain ⟨rfl, rfl⟩ := Prod.mk.inj (Option.some.inj hat)
      rw [flowOrigin_of_callback hcallback]
      exact cameBack_of_callback hrun h
    · rw [Function.update_of_ne ht] at hat
      exact hmono.exchanges t' b' exchange' hat
  · have hsent : OriginsKnown config rt s₀ (ls ++ [l])
        { s with inFlight := s.inFlight ++ [(b, finish config rt exchange exchanged)] } :=
      hmono.respond (fun named hnames => absurd hnames (finish_not_names named))
        fun _ _ _ _ => ⟨_, hmono.exchanges t b exchange hat, safe_finish⟩
    refine { hsent with exchanges := ?_ }
    intro t' b' exchange' hat'
    replace hat' : Function.update s.exchanges t none t' = some (b', exchange') := hat'
    by_cases ht : t' = t
    · rw [ht, Function.update_self] at hat'
      cases hat'
    · rw [Function.update_of_ne ht] at hat'
      exact hmono.exchanges t' b' exchange' hat'
  · have hkept {b' : Browser} {response' : Response}
        (hmem : (b', response') ∈ s.inFlight.eraseIdx place) : (b', response') ∈ s.inFlight :=
      List.mem_of_mem_eraseIdx hmem
    refine ⟨?_, fun b' response' hmem => hmono.inFlight b' response' (hkept hmem),
      fun b' response' hmem => hmono.redirects b' response' (hkept hmem), hmono.exchanges⟩
    intro b' origin hcookie
    by_cases hb : b' = b
    · subst hb
      simp only [Function.update_self, lookup_storeCookies] at hcookie
      -- the last cookie stored for the name, or what the jar had
      cases hset : response.cookies.reverse.lookup OAUTH_ORIGIN_COOKIE_NAME with
      | none =>
        rw [hset] at hcookie
        exact hmono.jars b' origin hcookie
      | some value =>
        rw [hset, Option.getD_some] at hcookie
        have hnames : response.Names origin := hset.trans (congrArg some hcookie)
        exact hmono.inFlight b' response (List.mem_of_getElem? hat) origin hnames
    · simp only [Function.update_of_ne hb] at hcookie
      exact hmono.jars b' origin hcookie

/-- Wherever a browser is sent in any run, whatever headers, cookies and queries have come with the
    requests: it has come back with some origin cookie, of a flow that it has begun at that origin,
    and it goes to the listed origin that the cookie names, without one to the default. -/
theorem redirect_to_allowed (hinit : Init s₀)
    (hrun : (system Browser Thread config rt).exec s₀ ls = some s) {response : Response}
    (hmem : (b, response) ∈ s.inFlight) {origin : String} {error : Option String}
    {tokens : Option (String × String)}
    (hreply : response.reply = .redirect (.frontend origin error tokens)) :
    ∃ cookie, CameBack config rt s₀ ls b cookie ∧ GoesTo config cookie origin ∧
      (tokens.isSome = true → config.enableOauthFragmentTokens = true ∧ error = none) := by
  have hknown : OriginsKnown config rt s₀ ls s := by
    refine System.exec_history (M := system Browser Thread config rt) ?_
      (fun ls s l s' hrun h hstep => originsKnown_step hrun h hstep) hrun
    refine ⟨fun b origin hcookie => .inl hcookie, ?_, ?_, ?_⟩
    · rw [hinit.inFlight]
      exact nofun
    · rw [hinit.inFlight]
      exact nofun
    · intro t b exchange hat
      rw [hinit.exchanges t] at hat
      cases hat
  obtain ⟨cookie, hback, hsafe⟩ := hknown.redirects b response hmem origin error tokens hreply
  exact ⟨cookie, hback, hsafe origin error tokens hreply⟩

end runs

end system

/-! ### One login -/

def oneFrontend : Config where
  corsOrigin := "https://a.example, https://b.example"
  production := true
  enableOauthFragmentTokens := false

def anyUrl : Runtime := { RandomSource.counting with toPkceChallenge := id, isUrl := fun _ => true }

/-- No cookies, no flows. -/
def nobody : State Bool Unit where
  jars := fun _ => ∅
  flows := []
  inFlight := []
  exchanges := fun _ => none

theorem init_nobody : Init nobody := ⟨fun _ => rfl, fun _ => rfl, rfl, rfl, fun _ => rfl⟩

/-- A browser begins a flow at its second frontend and comes back with a code. -/
theorem callback_of_own_flow_begun :
    ∃ s : State Bool Unit, (system Bool Unit oneFrontend anyUrl).exec nobody
      [.google true (some "https://b.example") true, .deliver 0,
        .callback () true ⟨.missing, .text "code", .text (oauthState anyUrl 0)⟩ true] = some s ∧
      ∃ exchange, s.exchanges () = some (true, exchange) ∧
        ∃ flow, s.flows[flow]? = some true ∧ exchange.state = oauthState anyUrl flow ∧
          exchange.verifier = pkceVerifier anyUrl flow := by
  have hstart : (system Bool Unit oneFrontend anyUrl).Reachable nobody := .init init_nobody
  have hbegun := hstart.step (.google true (some "https://b.example") true) rfl
  have hstored := hbegun.step (.deliver 0) rfl
  have hback := hstored.step
    (.callback () true ⟨.missing, .text "code", .text (oauthState anyUrl 0)⟩ true) rfl
  exact ⟨_, rfl, _, rfl, (callback_of_own_flow hback).2 () true _ rfl⟩

/-- It is sent back to its second frontend. -/
theorem redirect_to_allowed_begun :
    let run : List (Label Bool Unit) :=
      [.google true (some "https://b.example") true, .deliver 0,
        .callback () true ⟨.missing, .text "code", .text (oauthState anyUrl 0)⟩ true,
        .finish () (.session "access" "refresh")]
    ∃ s : State Bool Unit, (system Bool Unit oneFrontend anyUrl).exec nobody run = some s ∧
      ∃ response, (true, response) ∈ s.inFlight ∧
        response.reply = .redirect (.frontend "https://b.example" none none) ∧
        ∃ cookie, CameBack oneFrontend anyUrl nobody run true cookie ∧
          GoesTo oneFrontend cookie "https://b.example" ∧
          ((none : Option (String × String)).isSome = true →
            oneFrontend.enableOauthFragmentTokens = true ∧ (none : Option String) = none) := by
  intro run
  obtain ⟨s, hrun⟩ : ∃ s, (system Bool Unit oneFrontend anyUrl).exec nobody run = some s := ⟨_, rfl⟩
  have hsent : (true, finish oneFrontend anyUrl
      ⟨"code", oauthState anyUrl 0, pkceVerifier anyUrl 0, some "https://b.example"⟩
      (.session "access" "refresh")) ∈ s.inFlight := by
    obtain rfl := Option.some.inj hrun
    exact List.mem_singleton.mpr rfl
  exact ⟨s, hrun, _, hsent, rfl, redirect_to_allowed init_nobody hrun hsent rfl⟩

end Notebortt.GoogleLogin
