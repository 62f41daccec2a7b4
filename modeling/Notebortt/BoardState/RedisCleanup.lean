import Notebortt.BoardState.Eviction

/-! # Which boards a cleanup run finds

    `redis-cleanup.service.ts` reads board ids out of the texts of keys. The key
    builders put ids of boards, mutations and clients between colons as they
    are, so a key of one purpose can have the text of another. -/

namespace Notebortt.RedisCleanup

def LAST_ACTIVE_KEY_PATTERN : String := "board:*:last_active"
def BOARD_SEQ_KEY_PATTERN : String := "board:*:seq"

/-! ### Ids in the texts of keys -/

/-- What `.` does not match in a regular expression. -/
def isLineTerminator (c : Char) : Bool :=
  c == '\n' || c == '\r' || c == Char.ofNat 0x2028 || c == Char.ofNat 0x2029

/-- The group of `/^board:(.+)<suffix>$/`: both ends are fixed, so it is all that stands between. -/
def boardIdBefore (suffix key : String) : Option String :=
  let rest := key.toList.drop "board:".length
  let group := rest.take (rest.length - suffix.length)
  if key.toList = "board:".toList ++ group ++ suffix.toList ∧ group ≠ [] ∧
      group.any isLineTerminator = false then
    some (String.ofList group)
  else none

def extractBoardIdFromLastActiveKey (key : String) : Option String :=
  boardIdBefore ":last_active" key

def extractBoardIdFromSeqKey (key : String) : Option String := boardIdBefore ":seq" key

/-- Does a SCAN with the pattern find the key? -/
def isFoundBy (pattern key : String) : Bool := Glob.globMatch (keyBytes pattern) (keyBytes key)

/-! ### Keys -/

/-- The limiters of `RATE_LIMIT_STORE_PREFIXES`. -/
inductive RateLimiter where
  | global | auth | probe
  deriving DecidableEq

def RateLimiter.prefixText : RateLimiter → String
  | .global => "rl:"
  | .auth => "rl:auth:"
  | .probe => "rl:probe:"

/-- A key, by what it was written for. -/
inductive WrittenKey where
  | board (k : StoredKey)
  | dirtyBoards | dirtyBoardsByAge | activeBoards
  | rateLimit (limiter : RateLimiter) (client : String)
  deriving DecidableEq

def WrittenKey.key : WrittenKey → String
  | .board k => k.key
  | .dirtyBoards => "boards:dirty"
  | .dirtyBoardsByAge => "boards:dirty_by_age"
  | .activeBoards => "boards:active"
  | .rateLimit limiter client => limiter.prefixText ++ client

/-! ### A run -/

/-- What Redis answers to the commands of one run, and the state service to its calls. -/
structure Answers where
  /-- The pages of the two SCANs. -/
  lastActivePages : List (List String)
  seqPages : List (List String)
  /-- SRANDMEMBER of `boards:active`. -/
  activeIndexedBoards : List String
  /-- GET and `parseInt`: no value, no number, or a number. -/
  get : String → Option (Option Int)
  /-- OBJECT IDLETIME, where it is a number. -/
  idleSeconds : String → Option Int
  clientCount : String → Nat
  viewerCount : String → Nat
  /-- `persistBoard` throws. -/
  persistThrows : String → Bool

section run
variable (a : Answers) (now idleTtlMs : Int) (limit : Nat)

def scanLastActiveBoardIds : List String → List String → List String
  | [], boardIds => boardIds
  | key :: keys, boardIds =>
    match extractBoardIdFromLastActiveKey key, a.get key with
    | some boardId, some (some lastActive) =>
      if now - idleTtlMs < lastActive then scanLastActiveBoardIds keys boardIds
      else if limit ≤ (boardIds ++ [boardId]).length then boardIds ++ [boardId]
      else scanLastActiveBoardIds keys (boardIds ++ [boardId])
    | _, _ => scanLastActiveBoardIds keys boardIds

def scanKeysByPattern (limit : Nat) : List (List String) → List String → List String
  | [], keys => keys
  | found :: pages, keys =>
    if limit ≤ (keys ++ found).length then (keys ++ found).take limit
    else scanKeysByPattern limit pages (keys ++ found)

/-- `candidates.add`. -/
def addCandidate (candidates : List String) (boardId : String) : List String :=
  if boardId ∈ candidates then candidates else candidates ++ [boardId]

def activeCandidates : List String → List String → List String
  | [], candidates => candidates
  | boardId :: boardIds, candidates =>
    match a.get (boardLastActiveKey boardId) with
    | none => activeCandidates boardIds candidates
    | some lastActive =>
      let candidates := match lastActive with
        | some lastActive =>
          if idleTtlMs ≤ now - lastActive then addCandidate candidates boardId else candidates
        | none => candidates
      if limit ≤ candidates.length then candidates else activeCandidates boardIds candidates

def toIdleSeconds (idleTtlMs : Int) : Int := max 0 (idleTtlMs / 1000)

def isIdleBeyondThreshold (key : String) : Bool :=
  match a.idleSeconds key with
  | some idleSeconds => toIdleSeconds idleTtlMs ≤ idleSeconds
  | none => false

/-- A board found by its sequence counter is inactive. -/
def isInactiveSeqBoard (seqKey boardId : String) : Bool :=
  match a.get (boardLastActiveKey boardId) with
  | some (some lastActive) => idleTtlMs ≤ now - lastActive
  | some none => true
  | none => isIdleBeyondThreshold a idleTtlMs seqKey

def seqCandidates : List String → List String → List String
  | [], candidates => candidates
  | seqKey :: seqKeys, candidates =>
    match extractBoardIdFromSeqKey seqKey with
    | none => seqCandidates seqKeys candidates
    | some boardId =>
      if boardId ∈ candidates ∨ isInactiveSeqBoard a now idleTtlMs seqKey boardId = false then
        seqCandidates seqKeys candidates
      else if limit ≤ (candidates ++ [boardId]).length then candidates ++ [boardId]
      else seqCandidates seqKeys (candidates ++ [boardId])

def findInactiveBoardCandidates (useActiveIndex : Bool) : List String :=
  let candidates :=
    if useActiveIndex then activeCandidates a now idleTtlMs limit a.activeIndexedBoards [] else []
  let candidates :=
    if candidates.length < limit then
      (scanLastActiveBoardIds a now idleTtlMs limit a.lastActivePages.flatten []).foldl addCandidate
        candidates
    else candidates
  if limit ≤ candidates.length then candidates.take limit
  else seqCandidates a now idleTtlMs limit (scanKeysByPattern (limit * 2) a.seqPages []) candidates

/-- The boards handed to `persistBoard`, one after another; each but the last is then evicted, and
    the last unless its `persistBoard` throws. -/
def persistInactiveBoards : List String → List String
  | [] => []
  | boardId :: boardIds =>
    if 0 < a.clientCount boardId ∨ 0 < a.viewerCount boardId then persistInactiveBoards boardIds
    else if a.persistThrows boardId then [boardId]
    else boardId :: persistInactiveBoards boardIds

def cleanupInactiveBoards (useActiveIndex : Bool) : List String :=
  persistInactiveBoards a (findInactiveBoardCandidates a now idleTtlMs limit useActiveIndex)

end run

/-! ### The property -/

/-- The answers are about these keys: a SCAN returns keys that are there and match its pattern. -/
structure AnswersFor (keys : List WrittenKey) (a : Answers) : Prop where
  lastActive : ∀ key ∈ a.lastActivePages.flatten,
    ∃ k ∈ keys, k.key = key ∧ isFoundBy LAST_ACTIVE_KEY_PATTERN key = true
  seq : ∀ key ∈ a.seqPages.flatten,
    ∃ k ∈ keys, k.key = key ∧ isFoundBy BOARD_SEQ_KEY_PATTERN key = true

/-- An id read out of a key is that of the board the key was written for, and a run persists no
    board but these and those of `boards:active`. -/
structure FindsOnlyBoards (keys : List WrittenKey) : Prop where
  lastActive : ∀ k ∈ keys, isFoundBy LAST_ACTIVE_KEY_PATTERN k.key = true → ∀ boardId,
    extractBoardIdFromLastActiveKey k.key = some boardId → k = .board ⟨boardId, .lastActive⟩
  seq : ∀ k ∈ keys, isFoundBy BOARD_SEQ_KEY_PATTERN k.key = true → ∀ boardId,
    extractBoardIdFromSeqKey k.key = some boardId → k = .board ⟨boardId, .seq⟩
  run : ∀ a, AnswersFor keys a → ∀ now idleTtlMs limit useActiveIndex,
    ∀ boardId ∈ cleanupInactiveBoards a now idleTtlMs limit useActiveIndex,
      boardId ∈ a.activeIndexedBoards ∨ .board ⟨boardId, .lastActive⟩ ∈ keys ∨
        .board ⟨boardId, .seq⟩ ∈ keys

/-- The end of a key that its writer takes from outside: a mutation id, or a client's name. -/
def freePart : KeyName → Option String
  | .seen mutationId => some mutationId
  | .clientLease member => some member
  | _ => none

/-- The text is a marker, or ends with one after a colon. -/
def EndsInMarker (free : String) : Prop :=
  ∃ marker ∈ ["last_active", "seq"], (":" ++ marker).toList <:+ (":" ++ free).toList

def HasLineTerminator (key : String) : Prop := key.toList.any isLineTerminator = true

/-- No mutation id and no client's name ends in a marker, unless `.` stops at its key. -/
def NoMarkerAtTheEnd (keys : List WrittenKey) : Prop :=
  ∀ k, .board k ∈ keys → ∀ free, freePart k.name = some free → EndsInMarker free →
    HasLineTerminator k.key

/-! ### Texts -/

/-- A separator that the last part lacks: what ends with both ends in the last part. -/
theorem separator_suffix_iff {c : Char} {w a f : List Char} (hw : c ∉ w) :
    (c :: w) <:+ a ++ c :: f ↔ (c :: w) <:+ (c :: f) := by
  constructor
  · intro h
    rcases List.suffix_or_suffix_of_suffix h (List.suffix_append a (c :: f)) with hin | hin
    · exact hin
    · -- a longer one would have the separator in its last part
      rcases List.suffix_cons_iff.mp hin with heq | hin
      · exact heq ▸ List.suffix_rfl
      · exact absurd (hin.mem List.mem_cons_self) hw
  · intro h
    exact h.trans (List.suffix_append a _)

theorem toList_ofList (cs : List Char) : (String.ofList cs).toList = cs := String.toList_ofList

theorem boardIdBefore_eq_some {suffix key boardId : String} :
    boardIdBefore suffix key = some boardId ↔
      key.toList = "board:".toList ++ boardId.toList ++ suffix.toList ∧ boardId.toList ≠ [] ∧
        boardId.toList.any isLineTerminator = false := by
  unfold boardIdBefore
  constructor
  · intro h
    dsimp only at h
    generalize List.take _ (key.toList.drop _) = group at h
    split at h
    · next hc =>
      obtain rfl := Option.some.inj h
      rw [toList_ofList group]
      exact hc
    · cases h
  · rintro ⟨hkey, hne, hterm⟩
    have hgroup : (key.toList.drop "board:".length).take
        ((key.toList.drop "board:".length).length - suffix.length) = boardId.toList := by
      have hhead : "board:".length = "board:".toList.length := rfl
      rw [hkey, List.append_assoc, hhead, List.drop_left, List.length_append, String.length_toList,
        String.length_toList, Nat.add_sub_cancel, ← String.length_toList, List.take_left]
    simp only [hgroup]
    rw [if_pos ⟨hkey, hne, hterm⟩, String.ofList_toList]

/-- A key that has the form is found by the SCAN. -/
theorem isFoundBy_between {suffix key : String} (hlit : Glob.Literal (keyBytes suffix))
    {boardId : String} (hkey : key.toList = "board:".toList ++ boardId.toList ++ suffix.toList) :
    isFoundBy ("board:*" ++ suffix) key = true := by
  have htext : key = "board:" ++ boardId ++ suffix := by
    apply String.toList_injective
    rw [hkey, String.toList_append, String.toList_append]
  have hstar : keyBytes "board:*" = keyBytes "board:" ++ [Glob.star] := by decide
  unfold isFoundBy
  rw [htext, keyBytes_append, keyBytes_append, keyBytes_append, hstar]
  exact Glob.globMatch_between (by decide) hlit _

/-! ### Keys of boards -/

/-- What stands behind the last colon that a key builder writes. -/
def lastPart : KeyName → String
  | .seq => "seq"
  | .elements => "elements"
  | .seen mutationId => mutationId
  | .changes => "changes"
  | .clients => "clients"
  | .clientLease member => member
  | .viewerSessions => "viewer_sessions"
  | .lastActive => "last_active"
  | .dirtyElementIds => "dirty_element_ids"
  | .deletedElementIds => "deleted_element_ids"
  | .dirtySince => "dirty_since"
  | .dirtyEpoch => "dirty_epoch"
  | .lastFlushedSeq => "last_flushed_seq"
  | .lastFlushedAt => "last_flushed_at"
  | .lastFlushDuration => "last_flush_duration_ms"
  | .collabModeUntil => "collab_mode_until"
  | .loadLock => "load_lock"
  | .evictionLock => "eviction_lock"
  | .mutationLock => "mutation_lock"
  | .participants => "participants"
  | .participantsExpiry => "participants_expiry"

theorem toList_key_of_fixed {k : StoredKey} (h : freePart k.name = none) :
    k.key.toList = "board:".toList ++ k.board.toList ++ (":" ++ lastPart k.name).toList := by
  obtain ⟨board, name⟩ := k
  have hkey : StoredKey.key ⟨board, name⟩ = "board:" ++ board ++ (":" ++ lastPart name) := by
    cases name with
    | seen mutationId => cases h
    | clientLease member => cases h
    | _ => rfl
  rw [hkey, String.toList_append, String.toList_append]

theorem toList_key_of_free {k : StoredKey} {free : String} (h : freePart k.name = some free) :
    ∃ head, head ≠ [] ∧ k.key.toList = "board:".toList ++ head ++ (":" ++ free).toList := by
  obtain ⟨board, name⟩ := k
  have hkey : ∃ purpose, purpose ≠ "" ∧
      StoredKey.key ⟨board, name⟩ = "board:" ++ (board ++ purpose) ++ (":" ++ free) := by
    cases name with
    | seen mutationId =>
      obtain rfl := Option.some.inj h
      refine ⟨":seen", by decide, ?_⟩
      show "board:" ++ board ++ ":seen:" ++ mutationId = _
      have hsplit : ":seen:" = ":seen" ++ ":" := rfl
      rw [hsplit]
      simp only [String.append_assoc]
    | clientLease member =>
      obtain rfl := Option.some.inj h
      refine ⟨":client_lease", by decide, ?_⟩
      show "board:" ++ board ++ ":client_lease:" ++ member = _
      have hsplit : ":client_lease:" = ":client_lease" ++ ":" := rfl
      rw [hsplit]
      simp only [String.append_assoc]
    | _ => cases h
  obtain ⟨purpose, hpurpose, hkey⟩ := hkey
  refine ⟨(board ++ purpose).toList, ?_, by rw [hkey, String.toList_append, String.toList_append]⟩
  rw [String.toList_append]
  intro hnil
  exact hpurpose (String.toList_eq_nil_iff.mp (List.append_eq_nil_iff.mp hnil).2)

/-- Of the fixed ends only the markers end in a marker. -/
theorem lastPart_of_suffix {name : KeyName} (hname : freePart name = none) {marker : String}
    (hmarker : marker ∈ ["last_active", "seq"])
    (h : (":" ++ marker).toList <:+ (":" ++ lastPart name).toList) : lastPart name = marker := by
  revert marker
  cases name with
  | seen mutationId => cases hname
  | clientLease member => cases hname
  | _ => decide

theorem not_mem_marker {marker : String} (hmarker : marker ∈ ["last_active", "seq"]) :
    ':' ∉ marker.toList := by
  revert marker
  decide

theorem any_marker {marker : String} (hmarker : marker ∈ ["last_active", "seq"]) :
    (":" ++ marker).toList.any isLineTerminator = false := by
  revert marker
  decide

theorem literal_marker {marker : String} (hmarker : marker ∈ ["last_active", "seq"]) :
    Glob.Literal (keyBytes (":" ++ marker)) := by
  revert marker
  decide

/-- An id read out of a board's key is the board's own, unless the key's free part ends in a
    marker. -/
theorem eq_of_decoded {k : StoredKey} {marker boardId : String}
    (hmarker : marker ∈ ["last_active", "seq"])
    (hfree : ∀ free, freePart k.name = some free → EndsInMarker free → HasLineTerminator k.key)
    (h : boardIdBefore (":" ++ marker) k.key = some boardId) :
    freePart k.name = none ∧ lastPart k.name = marker ∧ k.board = boardId := by
  obtain ⟨hkey, hne, hterm⟩ := boardIdBefore_eq_some.mp h
  have hcolon (text : String) : (":" ++ text).toList = ':' :: text.toList := String.toList_append
  have hends : (":" ++ marker).toList <:+ k.key.toList := ⟨_, hkey.symm⟩
  cases hname : freePart k.name with
  | some free =>
    -- such a key is decoded only with a line terminator, which the group cannot hold
    obtain ⟨head, -, hshape⟩ := toList_key_of_free hname
    rw [hshape, hcolon, hcolon, separator_suffix_iff (not_mem_marker hmarker), ← hcolon,
      ← hcolon] at hends
    have hline := hfree free hname ⟨marker, hmarker, hends⟩
    have hmarkerLine := any_marker hmarker
    unfold HasLineTerminator at hline
    rw [hkey, List.any_append, List.any_append, hterm, hmarkerLine] at hline
    exact absurd hline (by decide)
  | none =>
    -- the last part is the marker, and what stands before it is the board's id
    have hshape := toList_key_of_fixed hname
    have hlast : lastPart k.name = marker := by
      rw [hshape, hcolon, hcolon, separator_suffix_iff (not_mem_marker hmarker), ← hcolon,
        ← hcolon] at hends
      exact lastPart_of_suffix hname hmarker hends
    refine ⟨rfl, hlast, ?_⟩
    rw [hlast] at hshape
    have hgroups := List.append_cancel_right (hshape.symm.trans hkey)
    exact String.toList_injective (List.append_cancel_left hgroups)

/-- A free part that ends in a marker is read as a board id. -/
theorem decoded_of_marker {k : StoredKey} {free marker : String}
    (hname : freePart k.name = some free) (hmarker : marker ∈ ["last_active", "seq"])
    (hends : (":" ++ marker).toList <:+ (":" ++ free).toList)
    (hline : ¬ HasLineTerminator k.key) :
    ∃ boardId, boardIdBefore (":" ++ marker) k.key = some boardId ∧
      isFoundBy ("board:*" ++ (":" ++ marker)) k.key = true := by
  obtain ⟨head, hhead, hshape⟩ := toList_key_of_free hname
  obtain ⟨front, hfront⟩ := hends
  have hkey : k.key.toList =
      "board:".toList ++ (String.ofList (head ++ front)).toList ++ (":" ++ marker).toList := by
    rw [hshape, ← hfront, toList_ofList (head ++ front)]
    simp only [List.append_assoc]
  -- the id that is read runs from behind `board:` into the free part
  refine ⟨String.ofList (head ++ front), boardIdBefore_eq_some.mpr ⟨hkey, ?_, ?_⟩,
    isFoundBy_between (literal_marker hmarker) hkey⟩
  · rw [toList_ofList]
    intro hnil
    exact hhead (List.append_eq_nil_iff.mp hnil).1
  · unfold HasLineTerminator at hline
    rw [hkey, List.any_append, List.any_append] at hline
    rw [Bool.eq_false_iff]
    intro hterm
    rw [hterm, Bool.or_true, Bool.true_or] at hline
    exact hline rfl

/-- No key but those of boards begins with `board:`. -/
theorem boardIdBefore_others {k : WrittenKey} (hk : ∀ stored, k ≠ .board stored) (suffix : String) :
    boardIdBefore suffix k.key = none := by
  rw [Option.eq_none_iff_forall_ne_some]
  intro boardId h
  obtain ⟨hkey, -, -⟩ := boardIdBefore_eq_some.mp h
  have hhead : "board:".toList <+: k.key.toList := by
    rw [hkey, List.append_assoc]
    exact List.prefix_append _ _
  cases k with
  | board stored => exact hk stored rfl
  | dirtyBoards => exact absurd hhead (by decide)
  | dirtyBoardsByAge => exact absurd hhead (by decide)
  | activeBoards => exact absurd hhead (by decide)
  | rateLimit limiter client =>
    -- whatever the client is called, the key begins with the limiter's prefix
    have hlimiter : "rl:".toList <+: (limiter.prefixText ++ client).toList := by
      rw [String.toList_append]
      cases limiter with
      | global => exact List.prefix_append _ _
      | auth => exact List.prefix_append "rl:".toList ("auth:".toList ++ client.toList)
      | probe => exact List.prefix_append "rl:".toList ("probe:".toList ++ client.toList)
    rcases List.prefix_or_prefix_of_prefix hhead hlimiter with h | h
    · exact absurd h (by decide)
    · exact absurd h (by decide)

/-! ### Where the ids of a run come from -/

section origin
variable {a : Answers} {now idleTtlMs : Int} {limit : Nat} {boardId : String}

/-- What is read out of a later key is read out of one of the keys. -/
theorem decoded_later {extract : String → Option String} {key : String} {keys ids : List String}
    (h : boardId ∈ ids ∨ ∃ key' ∈ keys, extract key' = some boardId) :
    boardId ∈ ids ∨ ∃ key' ∈ key :: keys, extract key' = some boardId :=
  h.imp_right fun ⟨key', hkey', hid⟩ => ⟨key', List.mem_cons_of_mem _ hkey', hid⟩

/-- So is what is read out of this one. -/
theorem decoded_found {extract : String → Option String} {key found : String}
    {keys ids : List String} (hextract : extract key = some found) (h : boardId ∈ ids ++ [found]) :
    boardId ∈ ids ∨ ∃ key' ∈ key :: keys, extract key' = some boardId := by
  rcases List.mem_append.mp h with hmem | hmem
  · exact .inl hmem
  · obtain rfl := List.mem_singleton.mp hmem
    exact .inr ⟨key, List.mem_cons_self, hextract⟩

theorem mem_scanLastActiveBoardIds {keys boardIds : List String}
    (h : boardId ∈ scanLastActiveBoardIds a now idleTtlMs limit keys boardIds) :
    boardId ∈ boardIds ∨ ∃ key ∈ keys, extractBoardIdFromLastActiveKey key = some boardId := by
  induction keys generalizing boardIds with
  | nil => exact .inl h
  | cons key keys ih =>
    unfold scanLastActiveBoardIds at h
    split at h
    · next found lastActive hextract hget =>
      split at h
      · exact decoded_later (ih h)
      · -- the scan ends here when the limit is reached
        split at h
        · exact decoded_found hextract h
        · rcases ih h with hmem | hlater
          · exact decoded_found hextract hmem
          · exact decoded_later (.inr hlater)
    · exact decoded_later (ih h)

theorem mem_scanKeysByPattern {pages : List (List String)} {keys : List String} {key : String}
    (h : key ∈ scanKeysByPattern limit pages keys) : key ∈ keys ∨ key ∈ pages.flatten := by
  induction pages generalizing keys with
  | nil => exact .inl h
  | cons found pages ih =>
    rw [List.flatten_cons, List.mem_append, ← or_assoc, ← List.mem_append]
    unfold scanKeysByPattern at h
    split at h
    · exact .inl (List.mem_of_mem_take h)
    · exact ih h

theorem mem_addCandidate {candidates : List String} {added : String}
    (h : boardId ∈ addCandidate candidates added) : boardId ∈ candidates ∨ boardId = added := by
  unfold addCandidate at h
  split at h
  · exact .inl h
  · rcases List.mem_append.mp h with h | h
    · exact .inl h
    · exact .inr (List.mem_singleton.mp h)

theorem mem_foldl_addCandidate {added candidates : List String}
    (h : boardId ∈ added.foldl addCandidate candidates) : boardId ∈ candidates ∨
      boardId ∈ added := by
  induction added generalizing candidates with
  | nil => exact .inl h
  | cons first added ih =>
    rcases ih h with h | h
    · rcases mem_addCandidate h with h | rfl
      · exact .inl h
      · exact .inr List.mem_cons_self
    · exact .inr (List.mem_cons_of_mem _ h)

theorem mem_activeCandidates {boardIds candidates : List String}
    (h : boardId ∈ activeCandidates a now idleTtlMs limit boardIds candidates) :
    boardId ∈ candidates ∨ boardId ∈ boardIds := by
  induction boardIds generalizing candidates with
  | nil => exact .inl h
  | cons first boardIds ih =>
    unfold activeCandidates at h
    split at h
    · exact (ih h).imp_right (List.mem_cons_of_mem _)
    · next lastActive hget =>
      have hadded : ∀ {b}, b ∈ (match lastActive with
          | some lastActive =>
            if idleTtlMs ≤ now - lastActive then addCandidate candidates first else candidates
          | none => candidates) → b ∈ candidates ∨ b ∈ first :: boardIds := by
        intro b hb
        split at hb
        · split at hb
          · rcases mem_addCandidate hb with hb | rfl
            · exact .inl hb
            · exact .inr List.mem_cons_self
          · exact .inl hb
        · exact .inl hb
      dsimp only at h
      generalize (match lastActive with
          | some lastActive =>
            if idleTtlMs ≤ now - lastActive then addCandidate candidates first else candidates
          | none => candidates) = added at hadded h
      split at h
      · exact hadded h
      · rcases ih h with h | h
        · exact hadded h
        · exact .inr (List.mem_cons_of_mem _ h)

theorem mem_seqCandidates {seqKeys candidates : List String}
    (h : boardId ∈ seqCandidates a now idleTtlMs limit seqKeys candidates) :
    boardId ∈ candidates ∨ ∃ key ∈ seqKeys, extractBoardIdFromSeqKey key = some boardId := by
  induction seqKeys generalizing candidates with
  | nil => exact .inl h
  | cons seqKey seqKeys ih =>
    unfold seqCandidates at h
    split at h
    · exact decoded_later (ih h)
    · next found hextract =>
      split at h
      · exact decoded_later (ih h)
      · split at h
        · exact decoded_found hextract h
        · rcases ih h with hmem | hlater
          · exact decoded_found hextract hmem
          · exact decoded_later (.inr hlater)

theorem mem_persistInactiveBoards {boardIds : List String}
    (h : boardId ∈ persistInactiveBoards a boardIds) : boardId ∈ boardIds := by
  induction boardIds with
  | nil => exact h
  | cons first boardIds ih =>
    unfold persistInactiveBoards at h
    split at h
    · exact List.mem_cons_of_mem _ (ih h)
    · split at h
      · exact List.mem_cons.mpr (.inl (List.mem_singleton.mp h))
      · rcases List.mem_cons.mp h with rfl | h
        · exact List.mem_cons_self
        · exact List.mem_cons_of_mem _ (ih h)

/-- A run persists what it took from `boards:active`, or read out of a key. -/
theorem mem_cleanupInactiveBoards {useActiveIndex : Bool}
    (h : boardId ∈ cleanupInactiveBoards a now idleTtlMs limit useActiveIndex) :
    boardId ∈ a.activeIndexedBoards ∨
      (∃ key ∈ a.lastActivePages.flatten, extractBoardIdFromLastActiveKey key = some boardId) ∨
      ∃ key ∈ a.seqPages.flatten, extractBoardIdFromSeqKey key = some boardId := by
  -- the run is read backwards: what is persisted was a candidate, and each of the three sources
  -- adds candidates of its own
  have hfound := mem_persistInactiveBoards h
  have hactive : ∀ {b}, b ∈ (if useActiveIndex = true then
      activeCandidates a now idleTtlMs limit a.activeIndexedBoards [] else []) →
      b ∈ a.activeIndexedBoards := by
    intro b hb
    split at hb
    · rcases mem_activeCandidates hb with hb | hb
      · cases hb
      · exact hb
    · cases hb
  unfold findInactiveBoardCandidates at hfound
  dsimp only at hfound
  generalize (if useActiveIndex = true then
    activeCandidates a now idleTtlMs limit a.activeIndexedBoards [] else []) = active
    at hactive hfound
  have hscanned : ∀ {b}, b ∈ (if active.length < limit then
      (scanLastActiveBoardIds a now idleTtlMs limit a.lastActivePages.flatten []).foldl addCandidate
        active else active) →
      b ∈ a.activeIndexedBoards ∨
        ∃ key ∈ a.lastActivePages.flatten, extractBoardIdFromLastActiveKey key = some b := by
    intro b hb
    split at hb
    · rcases mem_foldl_addCandidate hb with hb | hb
      · exact .inl (hactive hb)
      · rcases mem_scanLastActiveBoardIds hb with hb | hb
        · cases hb
        · exact .inr hb
    · exact .inl (hactive hb)
  generalize (if active.length < limit then
      (scanLastActiveBoardIds a now idleTtlMs limit a.lastActivePages.flatten []).foldl addCandidate
        active else active) = candidates at hscanned hfound
  have hcandidate : boardId ∈ candidates ∨
      ∃ key ∈ a.seqPages.flatten, extractBoardIdFromSeqKey key = some boardId := by
    split at hfound
    · exact .inl (List.mem_of_mem_take hfound)
    · rcases mem_seqCandidates hfound with hmem | ⟨key, hkey, hid⟩
      · exact .inl hmem
      · rcases mem_scanKeysByPattern hkey with hkey | hkey
        · cases hkey
        · exact .inr ⟨key, hkey, hid⟩
  rcases hcandidate with hmem | hseq
  · exact (hscanned hmem).imp_right .inl
  · exact .inr (.inr hseq)

end origin

/-! ### Which key spaces are read right -/

theorem eq_key_of_decoded {keys : List WrittenKey} (hkeys : NoMarkerAtTheEnd keys) {k : WrittenKey}
    (hk : k ∈ keys) {marker boardId : String} (hmarker : marker ∈ ["last_active", "seq"])
    (h : boardIdBefore (":" ++ marker) k.key = some boardId) :
    ∃ name, k = .board ⟨boardId, name⟩ ∧ freePart name = none ∧ lastPart name = marker := by
  by_cases hboard : ∃ stored, k = .board stored
  · obtain ⟨stored, rfl⟩ := hboard
    obtain ⟨hname, hlast, rfl⟩ := eq_of_decoded hmarker (hkeys stored hk) h
    exact ⟨stored.name, rfl, hname, hlast⟩
  · have hnone := boardIdBefore_others (fun stored heq => hboard ⟨stored, heq⟩) (":" ++ marker)
    rw [hnone] at h
    cases h

/-- A marker is the last part of one key only. -/
theorem name_of_lastPart {name : KeyName} (hname : freePart name = none) :
    (lastPart name = "last_active" → name = .lastActive) ∧
      (lastPart name = "seq" → name = .seq) := by
  cases name with
  | seen mutationId => cases hname
  | clientLease member => cases hname
  | _ => decide

/-- A cleanup run finds boards only, exactly when no mutation id and no client's name ends in a
    marker. -/
theorem findsOnlyBoards_iff (keys : List WrittenKey) :
    FindsOnlyBoards keys ↔ NoMarkerAtTheEnd keys := by
  constructor
  · intro hfinds k hk free hname hends
    obtain ⟨marker, hmarker, hsuffix⟩ := hends
    by_contra hline
    obtain ⟨boardId, hdecoded, hfound⟩ := decoded_of_marker hname hmarker hsuffix hline
    -- the key would be the marker of that board, which has no free part
    have hfixed : freePart k.name = none := by
      simp only [List.mem_cons, List.not_mem_nil, or_false] at hmarker
      rcases hmarker with rfl | rfl
      · have hkey := hfinds.lastActive _ hk hfound boardId hdecoded
        rw [WrittenKey.board.inj hkey]
        rfl
      · have hkey := hfinds.seq _ hk hfound boardId hdecoded
        rw [WrittenKey.board.inj hkey]
        rfl
    rw [hname] at hfixed
    cases hfixed
  · intro hkeys
    have lastActive_mem : "last_active" ∈ ["last_active", "seq"] := by decide
    have seq_mem : "seq" ∈ ["last_active", "seq"] := by decide
    have hlastActive : ∀ k ∈ keys, ∀ boardId,
        extractBoardIdFromLastActiveKey k.key = some boardId →
          k = .board ⟨boardId, .lastActive⟩ := by
      intro k hk boardId hid
      obtain ⟨name, rfl, hname, hlast⟩ :=
        eq_key_of_decoded hkeys hk lastActive_mem hid
      rw [(name_of_lastPart hname).1 hlast]
    have hseq : ∀ k ∈ keys, ∀ boardId,
        extractBoardIdFromSeqKey k.key = some boardId → k = .board ⟨boardId, .seq⟩ := by
      intro k hk boardId hid
      obtain ⟨name, rfl, hname, hlast⟩ := eq_key_of_decoded hkeys hk seq_mem hid
      rw [(name_of_lastPart hname).2 hlast]
    constructor
    · intro k hk _
      exact hlastActive k hk
    · intro k hk _
      exact hseq k hk
    · intro a ha now idleTtlMs limit useActiveIndex boardId hmem
      rcases mem_cleanupInactiveBoards hmem with hactive | ⟨key, hkey, hid⟩ | ⟨key, hkey, hid⟩
      · exact .inl hactive
      · obtain ⟨k, hk, rfl, -⟩ := ha.lastActive key hkey
        exact .inr (.inl (hlastActive k hk boardId hid ▸ hk))
      · obtain ⟨k, hk, rfl, -⟩ := ha.seq key hkey
        exact .inr (.inr (hseq k hk boardId hid ▸ hk))

/-- The seen marker of a mutation with the id `note:seq`. -/
theorem mutation_id_read_as_board : ¬ ∀ keys, FindsOnlyBoards keys := by
  intro h
  have hfinds := h [.board ⟨"3f2504e0-4f89-41d3-9a0c-0305e82c3301", .seen "note:seq"⟩]
  have hread := hfinds.seq _ List.mem_cons_self (by decide)
    "3f2504e0-4f89-41d3-9a0c-0305e82c3301:seen:note" (by decide)
  revert hread
  decide

end Notebortt.RedisCleanup
