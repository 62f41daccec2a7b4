import Notebortt.Lib.Glob

/-! # Redis keys

    The key builders of `board-state/keys.ts` and of `socketio/participants.ts`.
    A Redis key is a byte string, so patterns and prefixes are read on the bytes
    of a key (`keyBytes`); a key name (`KeyName`) records for which purpose a
    key was written, next to the board it was written for. -/

namespace Notebortt

def CHANGE_LOG_MAX_LENGTH : Nat := 2000

/-! ### Bytes of a string -/

def keyBytes (s : String) : List UInt8 := s.toByteArray.data.toList

theorem keyBytes_append (a b : String) : keyBytes (a ++ b) = keyBytes a ++ keyBytes b := by
  simp [keyBytes, String.toByteArray_append]

theorem keyBytes_injective : Function.Injective keyBytes := by
  intro a b h
  apply String.toByteArray_inj.mp
  apply ByteArray.ext
  exact Array.toList_inj.mp h

/-- The order of the dictionary, on bytes or on code units. -/
def notAfter : List Nat → List Nat → Bool
  | [], _ => true
  | _ :: _, [] => false
  | u :: us, v :: vs => if u = v then notAfter us vs else u < v

/-! ### Key builders -/

def boardSeqKey (boardId : String) : String := "board:" ++ boardId ++ ":seq"
def boardElementsKey (boardId : String) : String := "board:" ++ boardId ++ ":elements"
def boardSeenKey (boardId mutationId : String) : String :=
  "board:" ++ boardId ++ ":seen:" ++ mutationId
def boardChangeLogKey (boardId : String) : String := "board:" ++ boardId ++ ":changes"
def boardClientsKey (boardId : String) : String := "board:" ++ boardId ++ ":clients"
def boardClientLeaseKey (boardId member : String) : String :=
  "board:" ++ boardId ++ ":client_lease:" ++ member
def boardViewerSessionsKey (boardId : String) : String := "board:" ++ boardId ++ ":viewer_sessions"
def boardLastActiveKey (boardId : String) : String := "board:" ++ boardId ++ ":last_active"
def boardDirtyElementIdsKey (boardId : String) : String :=
  "board:" ++ boardId ++ ":dirty_element_ids"
def boardDeletedElementIdsKey (boardId : String) : String :=
  "board:" ++ boardId ++ ":deleted_element_ids"
def boardDirtySinceKey (boardId : String) : String := "board:" ++ boardId ++ ":dirty_since"
def boardDirtyEpochKey (boardId : String) : String := "board:" ++ boardId ++ ":dirty_epoch"
def boardLastFlushedSequenceKey (boardId : String) : String :=
  "board:" ++ boardId ++ ":last_flushed_seq"
def boardLastFlushedAtKey (boardId : String) : String := "board:" ++ boardId ++ ":last_flushed_at"
def boardLastFlushDurationKey (boardId : String) : String :=
  "board:" ++ boardId ++ ":last_flush_duration_ms"
def boardCollabModeUntilKey (boardId : String) : String :=
  "board:" ++ boardId ++ ":collab_mode_until"
def boardLoadLockKey (boardId : String) : String := "board:" ++ boardId ++ ":load_lock"
def boardEvictionLockKey (boardId : String) : String := "board:" ++ boardId ++ ":eviction_lock"
def boardMutationLockKey (boardId : String) : String := "board:" ++ boardId ++ ":mutation_lock"
def participantsHashKey (boardId : String) : String := "board:" ++ boardId ++ ":participants"
def participantsExpiryKey (boardId : String) : String :=
  "board:" ++ boardId ++ ":participants_expiry"

/-- What a key of a board holds. -/
inductive KeyName where
  | seq | elements | seen (mutationId : String) | changes
  | clients | clientLease (member : String) | viewerSessions | lastActive
  | dirtyElementIds | deletedElementIds | dirtySince | dirtyEpoch
  | lastFlushedSeq | lastFlushedAt | lastFlushDuration | collabModeUntil
  | loadLock | evictionLock | mutationLock | participants | participantsExpiry
  deriving DecidableEq

/-- The key builder of every key name. -/
def KeyName.key (boardId : String) : KeyName → String
  | .seq => boardSeqKey boardId
  | .elements => boardElementsKey boardId
  | .seen mutationId => boardSeenKey boardId mutationId
  | .changes => boardChangeLogKey boardId
  | .clients => boardClientsKey boardId
  | .clientLease member => boardClientLeaseKey boardId member
  | .viewerSessions => boardViewerSessionsKey boardId
  | .lastActive => boardLastActiveKey boardId
  | .dirtyElementIds => boardDirtyElementIdsKey boardId
  | .deletedElementIds => boardDeletedElementIdsKey boardId
  | .dirtySince => boardDirtySinceKey boardId
  | .dirtyEpoch => boardDirtyEpochKey boardId
  | .lastFlushedSeq => boardLastFlushedSequenceKey boardId
  | .lastFlushedAt => boardLastFlushedAtKey boardId
  | .lastFlushDuration => boardLastFlushDurationKey boardId
  | .collabModeUntil => boardCollabModeUntilKey boardId
  | .loadLock => boardLoadLockKey boardId
  | .evictionLock => boardEvictionLockKey boardId
  | .mutationLock => boardMutationLockKey boardId
  | .participants => participantsHashKey boardId
  | .participantsExpiry => participantsExpiryKey boardId

/-! ### The pattern of an eviction -/

/-- The pattern of the SCAN in `flushBoard`, the board id put in unescaped. -/
def flushPattern (boardId : String) : String := "board:" ++ boardId ++ ":*"

/-- Does the SCAN of `flushBoard boardId` find the key? -/
def scanFinds (boardId key : String) : Bool :=
  Glob.globMatch (keyBytes (flushPattern boardId)) (keyBytes key)

/-- The id has no byte that is special in a pattern. -/
def IsLiteralId (boardId : String) : Prop := Glob.Literal (keyBytes boardId)

instance (boardId : String) : Decidable (IsLiteralId boardId) := by
  unfold IsLiteralId; infer_instance

/-- The bytes every key of a board begins with. -/
def boardPrefix (boardId : String) : List UInt8 := keyBytes ("board:" ++ boardId ++ ":")

theorem boardPrefix_literal {boardId : String} (h : IsLiteralId boardId) :
    Glob.Literal (boardPrefix boardId) := by
  unfold boardPrefix
  rw [keyBytes_append, keyBytes_append]
  have hhead : Glob.Literal (keyBytes "board:") := by decide
  have hcolon : Glob.Literal (keyBytes ":") := by decide
  exact (hhead.append h).append hcolon

/-- For a literal id the SCAN finds exactly the keys that begin with `board:<id>:`. -/
theorem scanFinds_iff {boardId : String} (h : IsLiteralId boardId) (key : String) :
    scanFinds boardId key = true ↔ boardPrefix boardId <+: keyBytes key := by
  have hstar : keyBytes ":*" = keyBytes ":" ++ [Glob.star] := by decide
  have hpattern : keyBytes (flushPattern boardId) = boardPrefix boardId ++ [Glob.star] := by
    unfold flushPattern boardPrefix
    rw [keyBytes_append, hstar, keyBytes_append _ ":", List.append_assoc]
  unfold scanFinds
  rw [hpattern]
  exact Glob.globMatch_literal_star (boardPrefix_literal h) _

theorem boardPrefix_isPrefix_append (boardId tail : String) (h : keyBytes ":" <+: keyBytes tail) :
    boardPrefix boardId <+: keyBytes ("board:" ++ boardId ++ tail) := by
  unfold boardPrefix
  rw [keyBytes_append _ ":", keyBytes_append _ tail]
  exact (List.prefix_append_right_inj _).mpr h

/-- Every key of a board begins with the board's prefix. -/
theorem boardPrefix_isPrefix (boardId : String) (name : KeyName) :
    boardPrefix boardId <+: keyBytes (name.key boardId) := by
  cases name with
  | seen mutationId =>
    have h := boardPrefix_isPrefix_append boardId ":seen:" (by decide)
    exact h.trans (by rw [KeyName.key, boardSeenKey, keyBytes_append]; exact List.prefix_append _ _)
  | clientLease member =>
    have h := boardPrefix_isPrefix_append boardId ":client_lease:" (by decide)
    exact h.trans
      (by rw [KeyName.key, boardClientLeaseKey, keyBytes_append]; exact List.prefix_append _ _)
  | _ => exact boardPrefix_isPrefix_append boardId _ (by decide)

/-- The SCAN for a literal id finds every key of that board. -/
theorem scanFinds_own {boardId : String} (h : IsLiteralId boardId) (name : KeyName) :
    scanFinds boardId (name.key boardId) = true :=
  (scanFinds_iff h _).mpr (boardPrefix_isPrefix boardId name)

/-! ### Ids without a colon -/

/-- No colon in the id, as in every id of the `boards` table. -/
def IsPlainId (boardId : String) : Prop := (58 : UInt8) ∉ keyBytes boardId

instance (boardId : String) : Decidable (IsPlainId boardId) := by
  unfold IsPlainId; infer_instance

/-- Two byte strings without a separator that begin one list up to the separator agree. -/
private theorem prefix_separator_eq {c : UInt8} {l₁ l₂ r : List UInt8}
    (h₁ : c ∉ l₁) (h₂ : c ∉ l₂) (hp₁ : l₁ ++ [c] <+: r) (hp₂ : l₂ ++ [c] <+: r) : l₁ = l₂ := by
  induction l₁ generalizing l₂ r with
  | nil =>
    cases l₂ with
    | nil => rfl
    | cons d l₂ =>
      obtain ⟨r₁, rfl⟩ := hp₁
      obtain ⟨r₂, heq⟩ := hp₂
      simp only [List.cons_append, List.nil_append, List.cons.injEq] at heq
      exact absurd heq.1 (by rintro rfl; simp at h₂)
  | cons d l₁ ih =>
    cases l₂ with
    | nil =>
      obtain ⟨r₁, rfl⟩ := hp₁
      obtain ⟨r₂, heq⟩ := hp₂
      simp only [List.cons_append, List.nil_append, List.cons.injEq] at heq
      exact absurd heq.1 (by rintro rfl; simp at h₁)
    | cons e l₂ =>
      obtain ⟨r₁, rfl⟩ := hp₁
      simp only [List.cons_append, List.cons_prefix_cons] at hp₂
      obtain ⟨rfl, hp₂⟩ := hp₂
      simp only [List.mem_cons, not_or] at h₁ h₂
      rw [ih h₁.2 h₂.2 (List.prefix_append _ _) hp₂]

/-- A key found for a literal plain id belongs to no other plain id. -/
theorem scanFinds_plain {boardId other : String} (hlit : IsLiteralId boardId)
    (hplain : IsPlainId boardId) (hother : IsPlainId other) (name : KeyName)
    (h : scanFinds boardId (name.key other) = true) : other = boardId := by
  have hmine := (scanFinds_iff hlit _).mp h
  have htheirs := boardPrefix_isPrefix other name
  have split : ∀ id, boardPrefix id = keyBytes "board:" ++ (keyBytes id ++ [58]) := by
    intro id
    unfold boardPrefix
    rw [keyBytes_append, keyBytes_append, List.append_assoc]
    rfl
  rw [split] at hmine htheirs
  obtain ⟨r₁, h₁⟩ := hmine
  obtain ⟨r₂, h₂⟩ := htheirs
  have hrest : keyBytes other ++ ([58] ++ r₂) = keyBytes boardId ++ ([58] ++ r₁) := by
    have heq := h₂.trans h₁.symm
    simpa only [List.append_assoc, List.append_right_inj] using heq
  have hp₁ : keyBytes boardId ++ [58] <+: keyBytes boardId ++ [58] ++ r₁ := List.prefix_append _ _
  have hp₂ : keyBytes other ++ [58] <+: keyBytes boardId ++ [58] ++ r₁ :=
    ⟨r₂, by rw [List.append_assoc, List.append_assoc]; exact hrest⟩
  exact keyBytes_injective (prefix_separator_eq hother hplain hp₂ hp₁)

end Notebortt
