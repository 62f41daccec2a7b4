import Notebortt.Lib.Dict

/-! # Authentication of a socket

    A socket shows its tokens twice: to the gate of `socketio/server.ts` when
    it connects, and to `resolveSocketIdentity` of `socketio/identity.ts` when
    it joins its first board. -/

namespace Notebortt.SocketAuth

/-! ### Cookies -/

/-- What `String.prototype.trim` takes off. -/
def isWhitespace (c : Char) : Bool :=
  ['\t', '\n', '\x0b', '\x0c', '\r', ' ', '\xa0', '\u1680', '\u2028', '\u2029', '\u202f', '\u205f',
    '\u3000', '\ufeff'].contains c || ('\u2000' ≤ c && c ≤ '\u200a')

def trim (cs : List Char) : List Char :=
  ((cs.dropWhile isWhitespace).reverse.dropWhile isWhitespace).reverse

def hexDigit? (c : Char) : Option Nat :=
  if '0' ≤ c ∧ c ≤ '9' then some (c.toNat - '0'.toNat)
  else if 'a' ≤ c ∧ c ≤ 'f' then some (c.toNat - 'a'.toNat + 10)
  else if 'A' ≤ c ∧ c ≤ 'F' then some (c.toNat - 'A'.toNat + 10)
  else none

def decodeUtf8 (bytes : List UInt8) : Option (List Char) :=
  if bytes.isEmpty then some [] else (String.fromUTF8? ⟨bytes.toArray⟩).map String.toList

/-- The second argument: the escaped bytes read since the last plain character, last one first. -/
def decodeFrom : List Char → List UInt8 → Option (List Char)
  | [], escaped => decodeUtf8 escaped.reverse
  | '%' :: hi :: lo :: rest, escaped =>
    match hexDigit? hi, hexDigit? lo with
    | some hi, some lo => decodeFrom rest (UInt8.ofNat (16 * hi + lo) :: escaped)
    | _, _ => none
  | '%' :: _, _ => none
  | c :: rest, escaped =>
    match decodeUtf8 escaped.reverse, decodeFrom rest [] with
    | some decoded, some rest => some (decoded ++ c :: rest)
    | _, _ => none

/-- `none` where it throws: an incomplete escape, or bytes that are no UTF-8. -/
def decodeURIComponent (cs : List Char) : Option (List Char) := decodeFrom cs []

/-- One segment of a cookie header: what stands before and after the first `=`. -/
def parseSegment (segment : List Char) : Option (String × String) :=
  let name := (trim segment).takeWhile (· != '=')
  match (trim segment).drop name.length with
  | [] => none
  | _ :: rest =>
    if name.isEmpty then none
    else some (String.ofList name, String.ofList ((decodeURIComponent (trim rest)).getD rest))

def parseCookieHeader (raw : Option String) : Dict String :=
  match raw with
  | none => ∅
  | some raw => Dict.insertAll ∅ ((raw.toList.splitOn ';').filterMap parseSegment)

/-! ### Handshakes -/

/-- What a client put into its handshake: a string, or anything else. -/
inductive JsValue where
  | str (s : String)
  | other (truthy : Bool)
deriving DecidableEq, Repr

/-- The parts of a handshake that are read: the tokens of the auth payload and the query, and two
    headers. -/
structure Handshake where
  authToken : JsValue
  authShareToken : JsValue
  queryShareToken : JsValue
  authorization : Option String
  cookie : Option String
deriving DecidableEq, Repr

structure User where
  id : String
  name : String
  avatarUrl : Option String
deriving DecidableEq, Repr

/-- What both steps ask. A verifier that throws answers `none`, and so does a lookup without a row
    or one that fails: the caller goes on to the next token. -/
structure Services where
  verifyAccessToken : String → Option String
  getUserById : String → Option User

/-- The names the access token is read under; production sets the first. -/
def ACCESS_TOKEN_COOKIE_NAMES : List String := ["__Host-accessToken", "accessToken"]

def Handshake.cookies (h : Handshake) : Dict String := parseCookieHeader h.cookie

def startsWithBearer (header : String) : Bool := "Bearer ".toList.isPrefixOf header.toList

/-- `authorization.slice(7)` behind `Bearer `. -/
def Handshake.bearerToken (h : Handshake) : Option String :=
  h.authorization.bind fun header =>
    if startsWithBearer header then some (String.ofList (header.toList.drop 7)) else none

/-! ### The gate -/

def LINK_SHARE_TOKEN_LENGTH : Nat := 48

def isValidLinkShareToken : JsValue → Bool
  | .str s =>
    s.toList.length == LINK_SHARE_TOKEN_LENGTH &&
      s.toList.all fun c => ('0' ≤ c && c ≤ '9') || ('a' ≤ c && c ≤ 'f')
  | .other _ => false

def JsValue.string? : JsValue → Option String
  | .str s => some s
  | .other _ => none

/-- A source that is a non-empty string. -/
def given (source : Option String) : Option String := source.filter (· != "")

def gateCandidates (h : Handshake) : List String :=
  ([h.authToken.string?, h.bearerToken] ++ ACCESS_TOKEN_COOKIE_NAMES.map h.cookies.lookup).filterMap
    given

inductive Admission where
  | byToken (token : String)
  | byShareToken
  | unauthorized
deriving DecidableEq, Repr

def Handshake.shareToken (h : Handshake) : JsValue :=
  match h.queryShareToken with
  | .str s => .str s
  | .other _ => h.authShareToken

section steps
variable (services : Services)

def authGate (h : Handshake) : Admission :=
  match (gateCandidates h).find? fun token => (services.verifyAccessToken token).isSome with
  | some token => .byToken token
  | none => if isValidLinkShareToken h.shareToken then .byShareToken else .unauthorized

/-! ### `resolveSocketIdentity` -/

structure SocketIdentity where
  authUserId : Option String
  runtimeUserId : String
  userName : String
  avatarUrl : Option String
deriving DecidableEq, Repr

def authenticated (user : User) : SocketIdentity :=
  { authUserId := some user.id, runtimeUserId := user.id, userName := user.name
    avatarUrl := user.avatarUrl }

def guest (socketId : String) : SocketIdentity :=
  { authUserId := none, runtimeUserId := "anonymous:" ++ socketId, userName := "Guest"
    avatarUrl := none }

/-- The first cookie with a value. -/
def readCookieToken (cookies : Dict String) : Option String :=
  ACCESS_TOKEN_COOKIE_NAMES.findSome? fun name => given (cookies.lookup name)

def JsValue.truthy : JsValue → Bool
  | .str s => s != ""
  | .other truthy => truthy

/-- A source that is `undefined` is falsy. -/
def ofToken (token : Option String) : JsValue := token.elim (.other false) .str

def tokenSources (h : Handshake) : List JsValue :=
  [h.authToken, ofToken h.bearerToken, ofToken (readCookieToken h.cookies)].filter JsValue.truthy

/-- The user a token names: it verifies, and its subject has a row. A token that is no string does
    not verify. -/
def userOf (token : JsValue) : Option User :=
  token.string?.bind fun token => (services.verifyAccessToken token).bind services.getUserById

def resolveSocketIdentity (socketId : String) (h : Handshake) : SocketIdentity :=
  match (tokenSources h).findSome? (userOf services) with
  | some user => authenticated user
  | none => guest socketId

end steps

/-! ### Agreement -/

section agreement
variable (services : Services) (socketId : String) (h : Handshake)

/-- A verifying token of an existing user. -/
def NamesUser (token : String) : Prop := ∃ user, userOf services (.str token) = some user

/-- If a candidate of the gate names a user, the identity is that of a user whom a candidate
    names. -/
def IdentityAgrees : Prop :=
  (∃ token ∈ gateCandidates h, NamesUser services token) →
    ∃ token ∈ gateCandidates h, ∃ user, userOf services (.str token) = some user ∧
      resolveSocketIdentity services socketId h = authenticated user

/-- A source that is a non-empty string and names a user. -/
def SourceNames (source : Option String) : Prop :=
  ∃ token, given source = some token ∧ NamesUser services token

/-- Of all sources only the plain cookie names a user, and the `__Host-` cookie has a value. -/
structure PlainCookieHidden : Prop where
  plain : SourceNames services (h.cookies.lookup "accessToken")
  hostGiven : given (h.cookies.lookup "__Host-accessToken") ≠ none
  host : ¬ SourceNames services (h.cookies.lookup "__Host-accessToken")
  auth : ¬ SourceNames services h.authToken.string?
  bearer : ¬ SourceNames services h.bearerToken

variable {services socketId h}

theorem given_eq_some {source : Option String} {token : String} :
    given source = some token ↔ source = some token ∧ token ≠ "" := by
  rw [given, Option.filter_eq_some_iff, bne_iff_ne]

theorem mem_gateCandidates {token : String} :
    token ∈ gateCandidates h ↔
      given h.authToken.string? = some token ∨ given h.bearerToken = some token ∨
        given (h.cookies.lookup "__Host-accessToken") = some token ∨
          given (h.cookies.lookup "accessToken") = some token := by
  simp [gateCandidates, ACCESS_TOKEN_COOKIE_NAMES]

/-- The gate admits by a token exactly when a candidate verifies. -/
theorem authGate_byToken_iff :
    (∃ token, authGate services h = .byToken token) ↔
      ∃ token ∈ gateCandidates h, (services.verifyAccessToken token).isSome = true := by
  unfold authGate
  cases hfind : (gateCandidates h).find? fun token => (services.verifyAccessToken token).isSome with
  | some token =>
    have hverifies := List.find?_some hfind
    exact iff_of_true ⟨token, rfl⟩ ⟨token, List.mem_of_find?_eq_some hfind, hverifies⟩
  | none =>
    refine iff_of_false ?_ ?_
    · rintro ⟨token, hgate⟩
      dsimp only at hgate
      split at hgate <;> cases hgate
    · rintro ⟨token, hmem, hverifies⟩
      exact absurd hverifies (List.find?_eq_none.mp hfind token hmem)

theorem mem_tokenSources {token : String} :
    .str token ∈ tokenSources h ↔
      given h.authToken.string? = some token ∨ given h.bearerToken = some token ∨
        given (readCookieToken h.cookies) = some token := by
  have hauth : .str token = h.authToken ↔ h.authToken.string? = some token := by
    cases h.authToken with
    | str s => simp [JsValue.string?, eq_comm]
    | other truthy => simp [JsValue.string?]
  have hof : ∀ source : Option String, .str token = ofToken source ↔ source = some token := by
    intro source
    cases source with
    | none => simp [ofToken]
    | some s => simp [ofToken, eq_comm]
  simp only [tokenSources, List.mem_filter, List.mem_cons, List.not_mem_nil, or_false, hauth, hof,
    JsValue.truthy, bne_iff_ne, given_eq_some, or_and_right]

theorem readCookieToken_eq (cookies : Dict String) :
    readCookieToken cookies =
      (given (cookies.lookup "__Host-accessToken")).or (given (cookies.lookup "accessToken")) := by
  simp only [readCookieToken, ACCESS_TOKEN_COOKIE_NAMES, List.findSome?_cons, List.findSome?_nil]
  cases given (cookies.lookup "__Host-accessToken") with
  | some token => rfl
  | none => cases given (cookies.lookup "accessToken") <;> rfl

@[simp] theorem given_given (source : Option String) : given (given source) = given source := by
  cases source with
  | none => rfl
  | some s => by_cases hs : s = "" <;> simp [given, hs]

theorem given_readCookieToken (cookies : Dict String) :
    given (readCookieToken cookies) = readCookieToken cookies := by
  rw [readCookieToken_eq]
  cases hhost : given (cookies.lookup "__Host-accessToken") with
  | some token => rw [Option.some_or, ← hhost, given_given]
  | none => rw [Option.none_or, given_given]

/-- The cookie read is the `__Host-` one where it has a value, else the plain one. -/
theorem sourceNames_readCookieToken :
    SourceNames services (readCookieToken h.cookies) ↔
      SourceNames services (h.cookies.lookup "__Host-accessToken") ∨
        given (h.cookies.lookup "__Host-accessToken") = none ∧
          SourceNames services (h.cookies.lookup "accessToken") := by
  unfold SourceNames
  rw [given_readCookieToken, readCookieToken_eq]
  cases given (h.cookies.lookup "__Host-accessToken") <;> simp

theorem exists_candidate_iff :
    (∃ token ∈ gateCandidates h, NamesUser services token) ↔
      SourceNames services h.authToken.string? ∨ SourceNames services h.bearerToken ∨
        SourceNames services (h.cookies.lookup "__Host-accessToken") ∨
          SourceNames services (h.cookies.lookup "accessToken") := by
  simp only [mem_gateCandidates, or_and_right, exists_or, SourceNames]

/-- A user whom some source names is resolved, and one who is resolved is named by a source. -/
theorem resolveSocketIdentity_iff :
    (∃ token ∈ gateCandidates h, ∃ user, userOf services (.str token) = some user ∧
        resolveSocketIdentity services socketId h = authenticated user) ↔
      SourceNames services h.authToken.string? ∨ SourceNames services h.bearerToken ∨
        SourceNames services (readCookieToken h.cookies) := by
  have hsources : (SourceNames services h.authToken.string? ∨ SourceNames services h.bearerToken ∨
      SourceNames services (readCookieToken h.cookies)) ↔
        ∃ token, .str token ∈ tokenSources h ∧ NamesUser services token := by
    simp only [mem_tokenSources, or_and_right, exists_or, SourceNames]
  rw [hsources]
  unfold resolveSocketIdentity
  cases hfind : (tokenSources h).findSome? (userOf services) with
  | none =>
    -- the guest is nobody's identity
    refine iff_of_false ?_ ?_
    · rintro ⟨token, -, user, -, hguest⟩
      cases hguest
    · rintro ⟨token, hmem, user, huser⟩
      rw [List.findSome?_eq_none_iff.mp hfind _ hmem] at huser
      cases huser
  | some user =>
    obtain ⟨source, hmem, huser⟩ := List.exists_of_findSome?_eq_some hfind
    cases source with
    | other truthy => cases huser
    | str token =>
      refine iff_of_true ⟨token, ?_, user, huser, rfl⟩ ⟨token, hmem, user, huser⟩
      rw [mem_gateCandidates]
      rcases mem_tokenSources.mp hmem with hauth | hbearer | hcookie
      · exact .inl hauth
      · exact .inr (.inl hbearer)
      · -- whichever cookie was read, the gate has it among its candidates
        rw [given_readCookieToken, readCookieToken_eq] at hcookie
        rcases Option.or_eq_some_iff.mp hcookie with hhost | ⟨-, hplain⟩
        · exact .inr (.inr (.inl hhost))
        · exact .inr (.inr (.inr hplain))

variable (services socketId h) in
/-- The two steps agree exactly when the plain cookie is not hidden by the `__Host-` one. -/
theorem identityAgrees_iff :
    IdentityAgrees services socketId h ↔ ¬ PlainCookieHidden services h := by
  unfold IdentityAgrees
  rw [exists_candidate_iff, resolveSocketIdentity_iff, sourceNames_readCookieToken]
  have hhidden : PlainCookieHidden services h ↔
      SourceNames services (h.cookies.lookup "accessToken") ∧
        ¬ given (h.cookies.lookup "__Host-accessToken") = none ∧
        ¬ SourceNames services (h.cookies.lookup "__Host-accessToken") ∧
        ¬ SourceNames services h.authToken.string? ∧ ¬ SourceNames services h.bearerToken :=
    ⟨fun ⟨h₁, h₂, h₃, h₄, h₅⟩ => ⟨h₁, h₂, h₃, h₄, h₅⟩,
      fun ⟨h₁, h₂, h₃, h₄, h₅⟩ => ⟨h₁, h₂, h₃, h₄, h₅⟩⟩
  rw [hhidden]
  tauto

/-- A browser that still sends a stale production cookie beside a valid plain one. -/
def staleHostCookie : Handshake where
  authToken := .other false
  authShareToken := .other false
  queryShareToken := .other false
  authorization := none
  cookie := some "__Host-accessToken=stale; accessToken=fresh"

def oneUser : Services where
  verifyAccessToken := fun token => if token = "fresh" then some "ada" else none
  getUserById := fun id => if id = "ada" then some ⟨"ada", "Ada", none⟩ else none

/-- It is admitted by a token of an existing user, and resolved as a guest. -/
theorem stale_host_cookie_guest :
    authGate oneUser staleHostCookie = .byToken "fresh" ∧
      userOf oneUser (.str "fresh") = some ⟨"ada", "Ada", none⟩ ∧
      resolveSocketIdentity oneUser "s" staleHostCookie = guest "s" ∧
      ¬ IdentityAgrees oneUser "s" staleHostCookie := by
  have hguest : resolveSocketIdentity oneUser "s" staleHostCookie = guest "s" := by decide
  refine ⟨by decide, by decide, hguest, ?_⟩
  intro hagrees
  obtain ⟨token, -, user, -, hauthenticated⟩ := hagrees ⟨"fresh", by decide, _, rfl⟩
  rw [hguest] at hauthenticated
  cases hauthenticated

end agreement

end Notebortt.SocketAuth
