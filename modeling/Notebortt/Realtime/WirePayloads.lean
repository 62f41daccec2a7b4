import Notebortt.Mutations.PayloadValues
import Notebortt.Realtime.RealtimeTicks

/-! # The payloads of the socket events

    A client may send any value with an event. The parsers of
    `socketio/payloads.ts` make a payload of it whose fields are within their
    bounds, or turn it away: an id list or the moves are cut, a field of no use
    is dropped, and a missing board or a broken cursor refuses the event.

    `ReadFrom` says field by field what a payload has of the value, and
    `Acceptable` which values a payload is made of. -/

namespace Notebortt.WirePayloads

open Payloads (bind_eq_ok textLength)
open QueuedMoves (Position)
open RealtimeTicks (PresenceState RealtimeTickPayload TypingField)

/-! ### Values on the wire -/

inductive WireValue where
  | undefined
  | null
  | bool (b : Bool)
  /-- `none`: a number that is not finite. -/
  | number (n : Option Rat)
  | string (s : String)
  /-- A `Buffer`. -/
  | binary (bytes : List UInt8)
  | array (items : List WireValue)
  /-- One value a key. -/
  | object (members : List (String × WireValue))

/-- A value without a primitive one: the conversion to a string throws. -/
inductive ConversionError where
  | typeError
deriving DecidableEq

namespace WireValue

def isRecord : WireValue → Bool
  | .binary _ | .array _ | .object _ => true
  | _ => false

/-- A member by a name that neither arrays nor buffers have. -/
def member (v : WireValue) (key : String) : WireValue :=
  match v with
  | .object members => ((members.find? fun m => m.1 == key).map (·.2)).getD .undefined
  | _ => .undefined

def asString : WireValue → Option String
  | .string s => if s = "" then none else some s
  | _ => none

def isFiniteNumber? : WireValue → Option Rat
  | .number n => n
  | _ => none

end WireValue

/-! ### Payloads -/

def MAX_MUTATION_BATCH : Nat := 100
def MAX_BOARD_ID_LENGTH : Nat := 200
def MAX_ID_LENGTH : Nat := 200
def MAX_ID_LIST_LENGTH : Nat := 100
def MAX_MOVES : Nat := 500
def MAX_PRESENCE_MESSAGE_LENGTH : Nat := 280

/-- The display name of a visitor is left out. -/
structure BoardJoinPayload where
  boardId : String
  lastSequence : Rat
  sessionId : String
  shareToken : Option String

structure MutationBatchPayload where
  boardId : String
  mutations : List WireValue

structure CrdtUpdatePayload where
  boardId : String
  update : List UInt8

structure PresenceUpdatePayload where
  boardId : String
  cursor : Option Position
  selectedIds : List String
  draggedIds : List String
  focusedElementId : Option String
  typingField : Option TypingField

inductive ClientPayload where
  | boardJoin (payload : BoardJoinPayload)
  | mutationBatch (payload : MutationBatchPayload)
  | crdtUpdate (payload : CrdtUpdatePayload)
  | presenceUpdate (payload : PresenceUpdatePayload)
  | realtimeTick (payload : RealtimeTickPayload)

/-- The events that carry a payload. -/
inductive ClientEvent where
  | boardJoin
  | mutationBatch
  | crdtUpdate
  | presenceUpdate
  | realtimeTick
deriving DecidableEq

/-! ### Fields -/

/-- A string that is not empty and no longer than the limit, in UTF-16 units. -/
def asId (limit : Nat) (v : WireValue) : Option String :=
  v.asString.filter fun s => textLength s ≤ limit

/-- The loop of `parseIdList`: whether the list is full is asked after a push. -/
def pushIds : List WireValue → List String → List String
  | [], ids => ids
  | item :: items, ids =>
    match asId MAX_ID_LENGTH item with
    | some id =>
      if MAX_ID_LIST_LENGTH ≤ (ids ++ [id]).length then ids ++ [id] else pushIds items (ids ++ [id])
    | none => pushIds items ids

def parseIdList : WireValue → List String
  | .array items => pushIds items []
  | _ => []

/-- An object with finite coordinates. -/
def parsePosition (v : WireValue) : Option Position := do
  if !v.isRecord then none
  else
    let x ← (v.member "x").isFiniteNumber?
    let y ← (v.member "y").isFiniteNumber?
    return ⟨x, y⟩

def parseMove (item : WireValue) : Option (String × Position) := do
  if !item.isRecord then none
  else
    let id ← asId MAX_ID_LENGTH (item.member "id")
    let position ← parsePosition item
    return (id, position)

/-- The loop of `parseMoves`: whether the list is full is asked before an item is looked at. -/
def pushMoves : List WireValue → List (String × Position) → List (String × Position)
  | [], moves => moves
  | item :: items, moves =>
    if MAX_MOVES ≤ moves.length then moves
    else
      match parseMove item with
      | some move => pushMoves items (moves ++ [move])
      | none => pushMoves items moves

def parseMoves : WireValue → List (String × Position)
  | .array items => pushMoves items []
  | _ => []

/-- The outer `none`: the event is refused. -/
def parseCursor : WireValue → Option (Option Position)
  | .undefined | .null => some none
  | v => (parsePosition v).map some

def parseTypingField : WireValue → Option TypingField
  | .string "title" => some .title
  | .string "body" => some .body
  | _ => none

def parsePresenceState : WireValue → PresenceState
  | .string "away" => .away
  | .string "interacting" => .interacting
  | _ => .active

def byte? : WireValue → Option UInt8
  | .number (some n) =>
    if n.den = 1 ∧ 0 ≤ n ∧ n ≤ 255 then some (UInt8.ofNat n.num.toNat) else none
  | _ => none

def normalizeUpdate : WireValue → Option (List UInt8)
  | .binary bytes => some bytes
  | .array items => items.mapM byte?
  | _ => none

/-- Finite and not negative, or zero. -/
def orZero (n : Option Rat) : Rat :=
  match n with
  | some n => if 0 ≤ n then n else 0
  | none => 0

/-! ### Parsers -/

section parsers
-- what `Number.parseInt(String(value), 10)` makes of a value that is no number
variable (parseInt : WireValue → Except ConversionError (Option Rat))

def normalizeSequence : WireValue → Except ConversionError Rat
  | .number n => .ok (orZero n)
  | .undefined | .null => .ok 0
  | v => (parseInt v).map orZero

def parseBoardId (payload : WireValue) : Option String :=
  asId MAX_BOARD_ID_LENGTH (payload.member "boardId")

def parseShareToken : WireValue → Option String
  | .string s => some s
  | _ => none

def parseBoardJoinPayload (payload : WireValue) :
    Except ConversionError (Option BoardJoinPayload) := do
  if !payload.isRecord then return none
  else
    match parseBoardId payload, asId MAX_ID_LENGTH (payload.member "sessionId") with
    | some boardId, some sessionId =>
      let lastSequence ← normalizeSequence parseInt (payload.member "lastSequence")
      return some {
        boardId := boardId, lastSequence := lastSequence, sessionId := sessionId
        shareToken := parseShareToken (payload.member "shareToken") }
    | _, _ => return none

def parseMutationBatchPayload (payload : WireValue) : Option MutationBatchPayload := do
  if !payload.isRecord then none
  else
    let boardId ← parseBoardId payload
    match payload.member "mutations" with
    | .array mutations =>
      if 0 < mutations.length ∧ mutations.length ≤ MAX_MUTATION_BATCH then
        return { boardId := boardId, mutations := mutations }
      else none
    | _ => none

def parseCrdtUpdatePayload (payload : WireValue) : Option CrdtUpdatePayload := do
  if !payload.isRecord then none
  else
    let boardId ← parseBoardId payload
    let update ← normalizeUpdate (payload.member "update")
    if update.isEmpty then none
    else return { boardId := boardId, update := update }

def parsePresenceUpdatePayload (payload : WireValue) : Option PresenceUpdatePayload := do
  if !payload.isRecord then none
  else
    let boardId ← parseBoardId payload
    let cursor ← parseCursor (payload.member "cursor")
    return {
      boardId := boardId
      cursor := cursor
      selectedIds := parseIdList (payload.member "selectedIds")
      draggedIds := parseIdList (payload.member "draggedIds")
      focusedElementId := asId MAX_ID_LENGTH (payload.member "focusedElementId")
      typingField := parseTypingField (payload.member "typingField") }

def parseRealtimeTickPayload (payload : WireValue) :
    Except ConversionError (Option RealtimeTickPayload) := do
  if !payload.isRecord then return none
  else
    match parseBoardId payload with
    | none => return none
    | some boardId =>
      let tickId ← normalizeSequence parseInt (payload.member "tickId")
      match parseCursor (payload.member "cursor") with
      | none => return none
      | some cursor =>
        return some {
          boardId := boardId
          tickId := tickId
          cursor := cursor
          selectedIds := parseIdList (payload.member "selectedIds")
          draggedIds := parseIdList (payload.member "draggedIds")
          focusedElementId := asId MAX_ID_LENGTH (payload.member "focusedElementId")
          typingField := parseTypingField (payload.member "typingField")
          presenceState := parsePresenceState (payload.member "presenceState")
          presenceMessage :=
            asId MAX_PRESENCE_MESSAGE_LENGTH (payload.member "presenceMessage")
          moves := parseMoves (payload.member "moves") }

/-- What the handler of the event makes of a value first. -/
def parse (event : ClientEvent) (payload : WireValue) :
    Except ConversionError (Option ClientPayload) :=
  match event with
  | .boardJoin => do return (← parseBoardJoinPayload parseInt payload).map .boardJoin
  | .mutationBatch => .ok ((parseMutationBatchPayload payload).map .mutationBatch)
  | .crdtUpdate => .ok ((parseCrdtUpdatePayload payload).map .crdtUpdate)
  | .presenceUpdate => .ok ((parsePresenceUpdatePayload payload).map .presenceUpdate)
  | .realtimeTick => do return (← parseRealtimeTickPayload parseInt payload).map .realtimeTick

end parsers

/-! ### Well-formed payloads -/

/-- Not empty, and within the limit. -/
def IsId (limit : Nat) (s : String) : Prop := s ≠ "" ∧ textLength s ≤ limit

structure IsIdList (ids : List String) : Prop where
  length : ids.length ≤ MAX_ID_LIST_LENGTH
  ids : ∀ id ∈ ids, IsId MAX_ID_LENGTH id

structure IsMoves (moves : List (String × Position)) : Prop where
  length : moves.length ≤ MAX_MOVES
  ids : ∀ move ∈ moves, IsId MAX_ID_LENGTH move.1

structure BoardJoinPayload.WellFormed (p : BoardJoinPayload) : Prop where
  boardId : IsId MAX_BOARD_ID_LENGTH p.boardId
  lastSequence : 0 ≤ p.lastSequence
  sessionId : IsId MAX_ID_LENGTH p.sessionId

structure MutationBatchPayload.WellFormed (p : MutationBatchPayload) : Prop where
  boardId : IsId MAX_BOARD_ID_LENGTH p.boardId
  mutations : 0 < p.mutations.length ∧ p.mutations.length ≤ MAX_MUTATION_BATCH

structure CrdtUpdatePayload.WellFormed (p : CrdtUpdatePayload) : Prop where
  boardId : IsId MAX_BOARD_ID_LENGTH p.boardId
  update : p.update ≠ []

structure PresenceUpdatePayload.WellFormed (p : PresenceUpdatePayload) : Prop where
  boardId : IsId MAX_BOARD_ID_LENGTH p.boardId
  selectedIds : IsIdList p.selectedIds
  draggedIds : IsIdList p.draggedIds
  focusedElementId : ∀ id ∈ p.focusedElementId, IsId MAX_ID_LENGTH id

structure TickWellFormed (p : RealtimeTickPayload) : Prop where
  boardId : IsId MAX_BOARD_ID_LENGTH p.boardId
  tickId : 0 ≤ p.tickId
  selectedIds : IsIdList p.selectedIds
  draggedIds : IsIdList p.draggedIds
  focusedElementId : ∀ id ∈ p.focusedElementId, IsId MAX_ID_LENGTH id
  presenceMessage : ∀ message ∈ p.presenceMessage, IsId MAX_PRESENCE_MESSAGE_LENGTH message
  moves : IsMoves p.moves

def ClientPayload.event : ClientPayload → ClientEvent
  | .boardJoin _ => .boardJoin
  | .mutationBatch _ => .mutationBatch
  | .crdtUpdate _ => .crdtUpdate
  | .presenceUpdate _ => .presenceUpdate
  | .realtimeTick _ => .realtimeTick

def ClientPayload.WellFormed : ClientPayload → Prop
  | .boardJoin p => p.WellFormed
  | .mutationBatch p => p.WellFormed
  | .crdtUpdate p => p.WellFormed
  | .presenceUpdate p => p.WellFormed
  | .realtimeTick p => TickWellFormed p

/-! ### Payloads as they are sent -/

def ofText (s : Option String) : WireValue := s.elim .null .string

def ofIds (ids : List String) : WireValue := .array (ids.map .string)

def ofPosition (p : Position) : WireValue :=
  .object [("x", .number (some p.x)), ("y", .number (some p.y))]

def ofMove (move : String × Position) : WireValue :=
  .object [("id", .string move.1), ("x", .number (some move.2.x)), ("y", .number (some move.2.y))]

def ofTypingField : Option TypingField → WireValue
  | some .title => .string "title"
  | some .body => .string "body"
  | none => .null

def ofPresenceState : PresenceState → WireValue
  | .active => .string "active"
  | .away => .string "away"
  | .interacting => .string "interacting"

def ClientPayload.toWire : ClientPayload → WireValue
  | .boardJoin p => .object [("boardId", .string p.boardId), ("sessionId", .string p.sessionId),
      ("shareToken", ofText p.shareToken), ("lastSequence", .number (some p.lastSequence))]
  | .mutationBatch p =>
    .object [("boardId", .string p.boardId), ("mutations", .array p.mutations)]
  | .crdtUpdate p => .object [("boardId", .string p.boardId), ("update", .binary p.update)]
  | .presenceUpdate p => .object [("boardId", .string p.boardId),
      ("cursor", p.cursor.elim .null ofPosition), ("selectedIds", ofIds p.selectedIds),
      ("draggedIds", ofIds p.draggedIds), ("focusedElementId", ofText p.focusedElementId),
      ("typingField", ofTypingField p.typingField)]
  | .realtimeTick p => .object [("boardId", .string p.boardId),
      ("tickId", .number (some p.tickId)), ("cursor", p.cursor.elim .null ofPosition),
      ("selectedIds", ofIds p.selectedIds), ("draggedIds", ofIds p.draggedIds),
      ("focusedElementId", ofText p.focusedElementId),
      ("typingField", ofTypingField p.typingField),
      ("presenceState", ofPresenceState p.presenceState),
      ("presenceMessage", ofText p.presenceMessage), ("moves", .array (p.moves.map ofMove))]

/-! ### What a field says -/

/-- A string, if the field is one. -/
def TextField (v : WireValue) (s : Option String) : Prop := ∀ t, s = some t ↔ v = .string t

/-- A string that may stand for an id. -/
def IdField (limit : Nat) (v : WireValue) (s : Option String) : Prop :=
  ∀ t, s = some t ↔ v = .string t ∧ IsId limit t

/-- What the accepted ones among the items come to, in their order. -/
inductive Picks {α : Type} (Accepts : WireValue → α → Prop) : List WireValue → List α → Prop where
  | nil : Picks Accepts [] []
  | take {item : WireValue} {a : α} {items : List WireValue} {as : List α} (h : Accepts item a)
      (rest : Picks Accepts items as) : Picks Accepts (item :: items) (a :: as)
  | skip {item : WireValue} {items : List WireValue} {as : List α} (h : ∀ a, ¬Accepts item a)
      (rest : Picks Accepts items as) : Picks Accepts (item :: items) as

/-- Of a list all that is accepted, or the first of it when it is too long. -/
inductive ListField {α : Type} (Accepts : WireValue → α → Prop) (limit : Nat) :
    WireValue → List α → Prop where
  | all {items : List WireValue} {as : List α} (h : Picks Accepts items as)
      (hlength : as.length ≤ limit) : ListField Accepts limit (.array items) as
  | cut {before after : List WireValue} {as : List α} (h : Picks Accepts before as)
      (hlength : as.length = limit) : ListField Accepts limit (.array (before ++ after)) as
  | noList {v : WireValue} (h : ∀ items, v ≠ .array items) : ListField Accepts limit v []

def IdItem (v : WireValue) (id : String) : Prop := v = .string id ∧ IsId MAX_ID_LENGTH id

/-- An object whose coordinates are finite numbers. -/
def IsPosition (v : WireValue) (p : Position) : Prop :=
  v.member "x" = .number (some p.x) ∧ v.member "y" = .number (some p.y)

def MoveItem (v : WireValue) (move : String × Position) : Prop :=
  IdItem (v.member "id") move.1 ∧ IsPosition v move.2

/-- No cursor, or a position; anything else says nothing. -/
def CursorField (v : WireValue) (cursor : Option Position) : Prop :=
  (v = .undefined ∨ v = .null) ∧ cursor = none ∨ ∃ p, cursor = some p ∧ IsPosition v p

def TypedField (v : WireValue) (field : Option TypingField) : Prop :=
  ∀ f, field = some f ↔ v = ofTypingField (some f)

/-- Active, unless the field says otherwise. -/
def StateField (v : WireValue) (state : PresenceState) : Prop :=
  ∀ other, other ≠ .active → (state = other ↔ v = ofPresenceState other)

def ofByte (byte : UInt8) : WireValue := .number (some (byte.toNat : Rat))

def UpdateField (v : WireValue) (bytes : List UInt8) : Prop :=
  v = .binary bytes ∨ v = .array (bytes.map ofByte)

section numbers
variable (parseInt : WireValue → Except ConversionError (Option Rat))

/-- The value as a number, `none` where it is not finite. -/
def numberOf : WireValue → Except ConversionError (Option Rat)
  | .number n => .ok n
  | .undefined | .null => .ok (some 0)
  | v => parseInt v

/-- The number if it is not negative, and zero without such a one. -/
def SequenceField (v : WireValue) (n : Rat) : Prop :=
  ∃ r, numberOf parseInt v = .ok r ∧
    (r = some n ∧ 0 ≤ n ∨ n = 0 ∧ ∀ m, r = some m → m < 0)

structure BoardJoinPayload.ReadFrom (v : WireValue) (p : BoardJoinPayload) : Prop where
  boardId : v.member "boardId" = .string p.boardId
  lastSequence : SequenceField parseInt (v.member "lastSequence") p.lastSequence
  sessionId : v.member "sessionId" = .string p.sessionId
  shareToken : TextField (v.member "shareToken") p.shareToken

structure MutationBatchPayload.ReadFrom (v : WireValue) (p : MutationBatchPayload) : Prop where
  boardId : v.member "boardId" = .string p.boardId
  mutations : v.member "mutations" = .array p.mutations

structure CrdtUpdatePayload.ReadFrom (v : WireValue) (p : CrdtUpdatePayload) : Prop where
  boardId : v.member "boardId" = .string p.boardId
  update : UpdateField (v.member "update") p.update

structure PresenceUpdatePayload.ReadFrom (v : WireValue) (p : PresenceUpdatePayload) : Prop where
  boardId : v.member "boardId" = .string p.boardId
  cursor : CursorField (v.member "cursor") p.cursor
  selectedIds : ListField IdItem MAX_ID_LIST_LENGTH (v.member "selectedIds") p.selectedIds
  draggedIds : ListField IdItem MAX_ID_LIST_LENGTH (v.member "draggedIds") p.draggedIds
  focusedElementId : IdField MAX_ID_LENGTH (v.member "focusedElementId") p.focusedElementId
  typingField : TypedField (v.member "typingField") p.typingField

structure TickReadFrom (v : WireValue) (p : RealtimeTickPayload) : Prop where
  boardId : v.member "boardId" = .string p.boardId
  tickId : SequenceField parseInt (v.member "tickId") p.tickId
  cursor : CursorField (v.member "cursor") p.cursor
  selectedIds : ListField IdItem MAX_ID_LIST_LENGTH (v.member "selectedIds") p.selectedIds
  draggedIds : ListField IdItem MAX_ID_LIST_LENGTH (v.member "draggedIds") p.draggedIds
  focusedElementId : IdField MAX_ID_LENGTH (v.member "focusedElementId") p.focusedElementId
  typingField : TypedField (v.member "typingField") p.typingField
  presenceState : StateField (v.member "presenceState") p.presenceState
  presenceMessage :
    IdField MAX_PRESENCE_MESSAGE_LENGTH (v.member "presenceMessage") p.presenceMessage
  moves : ListField MoveItem MAX_MOVES (v.member "moves") p.moves

/-- What the payload says is what the value says. -/
def ClientPayload.ReadFrom (v : WireValue) : ClientPayload → Prop
  | .boardJoin p => p.ReadFrom parseInt v
  | .mutationBatch p => p.ReadFrom v
  | .crdtUpdate p => p.ReadFrom v
  | .presenceUpdate p => p.ReadFrom v
  | .realtimeTick p => TickReadFrom parseInt v p

/-- Whether the number of the event can be made of what stands for it. -/
def Converts (event : ClientEvent) (v : WireValue) : Prop :=
  match event with
  | .boardJoin => ∃ r, numberOf parseInt (v.member "lastSequence") = .ok r
  | .realtimeTick => ∃ r, numberOf parseInt (v.member "tickId") = .ok r
  | _ => True

end numbers

/-- A board, and what the event cannot do without. -/
structure Acceptable (event : ClientEvent) (v : WireValue) : Prop where
  boardId : ∃ boardId, v.member "boardId" = .string boardId ∧ IsId MAX_BOARD_ID_LENGTH boardId
  needed :
    match event with
    | .boardJoin => ∃ sessionId, v.member "sessionId" = .string sessionId ∧
        IsId MAX_ID_LENGTH sessionId
    | .mutationBatch => ∃ mutations, v.member "mutations" = .array mutations ∧
        0 < mutations.length ∧ mutations.length ≤ MAX_MUTATION_BATCH
    | .crdtUpdate => ∃ update, UpdateField (v.member "update") update ∧ update ≠ []
    | .presenceUpdate | .realtimeTick => ∃ cursor, CursorField (v.member "cursor") cursor

/-! ### Fields as they are parsed -/

section fields
variable {limit : Nat} {v : WireValue}

theorem asId_eq_some_iff {s : String} : asId limit v = some s ↔ v = .string s ∧ IsId limit s := by
  cases v with
  | string t =>
    by_cases ht : t = ""
    · refine iff_of_false (by simp [asId, WireValue.asString, ht]) ?_
      rintro ⟨hs, hne, -⟩
      exact hne (WireValue.string.inj hs ▸ ht)
    · simp only [asId, WireValue.asString, if_neg ht, Option.filter_eq_some_iff,
        Option.some.injEq, decide_eq_true_eq, WireValue.string.injEq, IsId]
      constructor
      · rintro ⟨rfl, hlength⟩
        exact ⟨rfl, ht, hlength⟩
      · rintro ⟨rfl, -, hlength⟩
        exact ⟨rfl, hlength⟩
  | _ => simp [asId, WireValue.asString]

/-- A field that is settled by what it is when it is there. -/
theorem eq_iff_of_some_iff {α : Type} {s s' : Option α} {P : α → Prop}
    (h : ∀ a, s = some a ↔ P a) : s' = s ↔ ∀ a, s' = some a ↔ P a := by
  refine ⟨fun hs => hs ▸ h, fun h' => Option.ext fun a => ?_⟩
  exact (h' a).trans (h a).symm

theorem asId_iff {s : Option String} : s = asId limit v ↔ IdField limit v s :=
  eq_iff_of_some_iff fun _ => asId_eq_some_iff

theorem parseShareToken_iff {s : Option String} : s = parseShareToken v ↔ TextField v s :=
  eq_iff_of_some_iff fun t => by cases v <;> simp [parseShareToken]

theorem parseTypingField_iff {field : Option TypingField} :
    field = parseTypingField v ↔ TypedField v field := by
  refine eq_iff_of_some_iff fun f => ?_
  unfold parseTypingField
  split
  · cases f <;> simp [ofTypingField]
  · cases f <;> simp [ofTypingField]
  · next htitle hbody =>
    refine iff_of_false nofun fun hv => ?_
    cases f with
    | title => exact htitle hv
    | body => exact hbody hv

theorem parsePresenceState_iff {state : PresenceState} :
    state = parsePresenceState v ↔ StateField v state := by
  have hparsed : StateField v (parsePresenceState v) := by
    intro other hother
    unfold parsePresenceState
    split
    · cases other <;> simp_all [ofPresenceState]
    · cases other <;> simp_all [ofPresenceState]
    · next haway hinteracting =>
      refine iff_of_false (Ne.symm hother) fun hv => ?_
      cases other with
      | active => exact hother rfl
      | away => exact haway hv
      | interacting => exact hinteracting hv
  refine ⟨fun h => h ▸ hparsed, fun h => ?_⟩
  cases hstate : parsePresenceState v with
  | active =>
    -- neither of the other two
    cases hother : state with
    | active => rfl
    | away | interacting =>
      have hv := (h state (by rw [hother]; nofun)).mp rfl
      have hsame := (hparsed state (by rw [hother]; nofun)).mpr hv
      rw [← hother, ← hsame, hstate]
  | away | interacting =>
    rw [← hstate]
    exact (h _ (by rw [hstate]; nofun)).mpr ((hparsed _ (by rw [hstate]; nofun)).mp rfl)

theorem isFiniteNumber_eq_some_iff {n : Rat} :
    v.isFiniteNumber? = some n ↔ v = .number (some n) := by
  cases v <;> simp [WireValue.isFiniteNumber?]

/-- Only objects have members. -/
theorem isRecord_of_member {key : String} (h : v.member key ≠ .undefined) : v.isRecord = true := by
  cases v with
  | object members => rfl
  | _ => exact absurd rfl h

theorem parsePosition_eq_some_iff {p : Position} : parsePosition v = some p ↔ IsPosition v p := by
  rw [parsePosition]
  split
  · next hrecord =>
    refine iff_of_false nofun fun h => ?_
    have hx : v.member "x" ≠ .undefined := by
      rw [h.1]
      nofun
    rw [isRecord_of_member hx] at hrecord
    cases hrecord
  · obtain ⟨x, y⟩ := p
    simp [Option.bind_eq_some_iff, isFiniteNumber_eq_some_iff, IsPosition]

theorem parseMove_eq_some_iff {move : String × Position} :
    parseMove v = some move ↔ MoveItem v move := by
  rw [parseMove]
  split
  · next hrecord =>
    refine iff_of_false nofun fun h => ?_
    have hx : v.member "id" ≠ .undefined := by
      rw [h.1.1]
      nofun
    rw [isRecord_of_member hx] at hrecord
    cases hrecord
  · obtain ⟨id, p⟩ := move
    simp [Option.bind_eq_some_iff, asId_eq_some_iff, parsePosition_eq_some_iff, MoveItem, IdItem]

theorem parseCursor_eq_some_iff {cursor : Option Position} :
    parseCursor v = some cursor ↔ CursorField v cursor := by
  have hposition {p : Position} (hx : v.member "x" = .undefined) : ¬IsPosition v p := by
    intro h
    rw [h.1] at hx
    cases hx
  unfold parseCursor
  split
  · simp only [Option.some.injEq, CursorField]
    refine ⟨fun h => .inl ⟨.inl trivial, h.symm⟩, ?_⟩
    rintro (⟨-, rfl⟩ | ⟨p, -, h⟩)
    · rfl
    · exact absurd h (hposition rfl)
  · simp only [Option.some.injEq, CursorField]
    refine ⟨fun h => .inl ⟨.inr trivial, h.symm⟩, ?_⟩
    rintro (⟨-, rfl⟩ | ⟨p, -, h⟩)
    · rfl
    · exact absurd h (hposition rfl)
  · next hundefined hnull =>
    simp only [Option.map_eq_some_iff, parsePosition_eq_some_iff, CursorField]
    constructor
    · rintro ⟨p, hp, rfl⟩
      exact .inr ⟨p, rfl, hp⟩
    · rintro (⟨hmissing, -⟩ | ⟨p, rfl, hp⟩)
      · rcases hmissing with rfl | rfl
        · exact absurd rfl hundefined
        · exact absurd rfl hnull
      · exact ⟨p, hp, rfl⟩

/-! ### Lists -/

section lists
variable {α : Type} {accept : WireValue → Option α} {Accepts : WireValue → α → Prop}
  (haccept : ∀ item a, accept item = some a ↔ Accepts item a)

include haccept

theorem picks_iff_filterMap {items : List WireValue} {as : List α} :
    Picks Accepts items as ↔ items.filterMap accept = as := by
  constructor
  · intro h
    induction h with
    | nil => rfl
    | take h rest ih => rw [List.filterMap_cons_some ((haccept _ _).mpr h), ih]
    | skip h rest ih =>
      rw [List.filterMap_cons_none, ih]
      exact Option.eq_none_iff_forall_ne_some.mpr fun a ha => h a ((haccept _ _).mp ha)
  · rintro rfl
    induction items with
    | nil => exact .nil
    | cons item items ih =>
      cases hitem : accept item with
      | none =>
        rw [List.filterMap_cons_none hitem]
        refine .skip (fun a ha => ?_) ih
        rw [(haccept item a).mpr ha] at hitem
        cases hitem
      | some a =>
        rw [List.filterMap_cons_some hitem]
        exact .take ((haccept item a).mp hitem) ih

omit haccept in
/-- A list that is full after some of the items is full for all of them. -/
theorem exists_cut {items : List WireValue} (h : limit ≤ (items.filterMap accept).length) :
    ∃ before after, items = before ++ after ∧
      before.filterMap accept = (items.filterMap accept).take limit := by
  induction items generalizing limit with
  | nil => exact ⟨[], [], rfl, by rw [List.filterMap_nil, List.take_nil]⟩
  | cons item items ih =>
    cases hitem : accept item with
    | none =>
      rw [List.filterMap_cons_none hitem] at h ⊢
      obtain ⟨before, after, rfl, hbefore⟩ := ih h
      exact ⟨item :: before, after, rfl, by rw [List.filterMap_cons_none hitem, hbefore]⟩
    | some a =>
      rw [List.filterMap_cons_some hitem] at h ⊢
      cases limit with
      | zero => exact ⟨[], item :: items, rfl, rfl⟩
      | succ limit =>
        obtain ⟨before, after, rfl, hbefore⟩ := ih (Nat.le_of_succ_le_succ h)
        exact ⟨item :: before, after, rfl, by
          rw [List.filterMap_cons_some hitem, hbefore, List.take_succ_cons]⟩

/-- What a list field says is the first of what is accepted. -/
theorem listField_array_iff {items : List WireValue} {as : List α} :
    ListField Accepts limit (.array items) as ↔ as = (items.filterMap accept).take limit := by
  constructor
  · generalize hv : WireValue.array items = v
    rintro (⟨h, hlength⟩ | ⟨h, hlength⟩ | h)
    · obtain rfl := WireValue.array.inj hv
      rw [(picks_iff_filterMap haccept).mp h, List.take_of_length_le hlength]
    · obtain rfl := WireValue.array.inj hv
      rw [List.filterMap_append, (picks_iff_filterMap haccept).mp h, ← hlength, List.take_left']
      rfl
    · exact absurd hv.symm (h items)
  · rintro rfl
    rcases Nat.le_total (items.filterMap accept).length limit with hle | hle
    · rw [List.take_of_length_le hle]
      exact .all ((picks_iff_filterMap haccept).mpr rfl) hle
    · obtain ⟨before, after, rfl, hbefore⟩ := exists_cut hle
      refine .cut ((picks_iff_filterMap haccept).mpr hbefore) ?_
      rw [List.length_take, Nat.min_eq_left hle]

end lists

theorem listField_iff_of_not_array {α : Type} {Accepts : WireValue → α → Prop} {as : List α}
    (h : ∀ items, v ≠ .array items) : ListField Accepts limit v as ↔ as = [] := by
  constructor
  · rintro (⟨-, -⟩ | ⟨-, -⟩ | -)
    · exact absurd rfl (h _)
    · exact absurd rfl (h _)
    · rfl
  · rintro rfl
    exact .noList h

/-- The loop over the ids, with `ids` pushed so far. -/
theorem pushIds_eq {items : List WireValue} {ids : List String}
    (hroom : ids.length < MAX_ID_LIST_LENGTH) :
    pushIds items ids =
      ids ++ (items.filterMap (asId MAX_ID_LENGTH)).take (MAX_ID_LIST_LENGTH - ids.length) := by
  induction items generalizing ids with
  | nil => rw [pushIds, List.filterMap_nil, List.take_nil, List.append_nil]
  | cons item items ih =>
    rw [pushIds]
    split
    · next id hid =>
      rw [List.filterMap_cons_some hid]
      split
      · next hfull =>
        have hlast : MAX_ID_LIST_LENGTH - ids.length = 1 := by
          rw [List.length_append, List.length_singleton] at hfull
          omega
        rw [hlast, List.take_succ_cons, List.take_zero]
      · next hfull =>
        obtain ⟨n, hn⟩ : ∃ n, MAX_ID_LIST_LENGTH - ids.length = n + 1 :=
          ⟨MAX_ID_LIST_LENGTH - ids.length - 1, by omega⟩
        rw [ih (Nat.lt_of_not_le hfull), List.length_append, List.length_singleton, ← Nat.sub_sub,
          hn, List.take_succ_cons, Nat.add_sub_cancel, List.append_assoc, List.singleton_append]
    · next hid => rw [ih hroom, List.filterMap_cons_none hid]

/-- The loop over the moves. -/
theorem pushMoves_eq {items : List WireValue} {moves : List (String × Position)}
    (hroom : moves.length ≤ MAX_MOVES) :
    pushMoves items moves =
      moves ++ (items.filterMap parseMove).take (MAX_MOVES - moves.length) := by
  induction items generalizing moves with
  | nil => rw [pushMoves, List.filterMap_nil, List.take_nil, List.append_nil]
  | cons item items ih =>
    rw [pushMoves]
    split
    · next hfull => rw [Nat.sub_eq_zero_of_le hfull, List.take_zero, List.append_nil]
    · next hfull =>
      split
      · next move hmove =>
        obtain ⟨n, hn⟩ : ∃ n, MAX_MOVES - moves.length = n + 1 :=
          ⟨MAX_MOVES - moves.length - 1, by omega⟩
        have hroom' : (moves ++ [move]).length ≤ MAX_MOVES := by
          rw [List.length_append, List.length_singleton]
          omega
        rw [ih hroom', List.filterMap_cons_some hmove, List.length_append, List.length_singleton,
          ← Nat.sub_sub, hn, List.take_succ_cons, Nat.add_sub_cancel, List.append_assoc,
          List.singleton_append]
      · next hmove => rw [ih hroom, List.filterMap_cons_none hmove]

theorem parseIdList_iff {ids : List String} :
    ids = parseIdList v ↔ ListField IdItem MAX_ID_LIST_LENGTH v ids := by
  unfold parseIdList
  split
  · next items =>
    have haccept (item : WireValue) (id : String) :
        asId MAX_ID_LENGTH item = some id ↔ IdItem item id := asId_eq_some_iff
    rw [listField_array_iff haccept, pushIds_eq (by decide)]
    rfl
  · next h => exact (listField_iff_of_not_array h).symm

theorem parseMoves_iff {moves : List (String × Position)} :
    moves = parseMoves v ↔ ListField MoveItem MAX_MOVES v moves := by
  unfold parseMoves
  split
  · next items =>
    rw [listField_array_iff fun _ _ => parseMove_eq_some_iff, pushMoves_eq (by decide)]
    rfl
  · next h => exact (listField_iff_of_not_array h).symm

/-! ### Bounds -/

theorem IdField.isId {s : Option String} (h : IdField limit v s) : ∀ t ∈ s, IsId limit t :=
  fun t ht => ((h t).mp ht).2

theorem Picks.accepts {α : Type} {Accepts : WireValue → α → Prop} {items : List WireValue}
    {as : List α} (h : Picks Accepts items as) : ∀ a ∈ as, ∃ item, Accepts item a := by
  induction h with
  | nil => exact nofun
  | take h rest ih =>
    intro a ha
    rcases List.mem_cons.mp ha with rfl | ha
    · exact ⟨_, h⟩
    · exact ih a ha
  | skip h rest ih => exact ih

theorem ListField.accepts {α : Type} {Accepts : WireValue → α → Prop} {as : List α}
    (h : ListField Accepts limit v as) : ∀ a ∈ as, ∃ item, Accepts item a := by
  cases h with
  | all h hlength => exact h.accepts
  | cut h hlength => exact h.accepts
  | noList h => exact nofun

theorem ListField.length_le {α : Type} {Accepts : WireValue → α → Prop} {as : List α}
    (h : ListField Accepts limit v as) : as.length ≤ limit := by
  cases h with
  | all h hlength => exact hlength
  | cut h hlength => exact Nat.le_of_eq hlength
  | noList h => exact Nat.zero_le _

theorem isIdList_of_listField {ids : List String} (h : ListField IdItem MAX_ID_LIST_LENGTH v ids) :
    IsIdList ids where
  length := h.length_le
  ids := fun id hid => by
    obtain ⟨item, -, hitem⟩ := h.accepts id hid
    exact hitem

theorem isMoves_of_listField {moves : List (String × Position)}
    (h : ListField MoveItem MAX_MOVES v moves) : IsMoves moves where
  length := h.length_le
  ids := fun move hmove => by
    obtain ⟨item, hitem⟩ := h.accepts move hmove
    exact hitem.1.2

/-! ### Numbers -/

variable {parseInt : WireValue → Except ConversionError (Option Rat)}

theorem normalizeSequence_eq : normalizeSequence parseInt v = (numberOf parseInt v).map orZero := by
  cases v <;> rfl

theorem orZero_eq_iff {r : Option Rat} {n : Rat} :
    orZero r = n ↔ r = some n ∧ 0 ≤ n ∨ n = 0 ∧ ∀ m, r = some m → m < 0 := by
  cases r with
  | none => simp [orZero, eq_comm]
  | some m =>
    rw [orZero]
    split
    · next hm =>
      simp only [Option.some.injEq, forall_eq']
      constructor
      · rintro rfl
        exact .inl ⟨rfl, hm⟩
      · rintro (⟨rfl, -⟩ | ⟨-, hneg⟩)
        · rfl
        · exact absurd hm (Rat.not_le.mpr hneg)
    · next hm =>
      simp only [Option.some.injEq, forall_eq']
      constructor
      · rintro rfl
        exact .inr ⟨rfl, Rat.not_le.mp hm⟩
      · rintro (⟨rfl, hn⟩ | ⟨rfl, -⟩)
        · exact absurd hn hm
        · rfl

theorem normalizeSequence_eq_ok_iff {n : Rat} :
    normalizeSequence parseInt v = .ok n ↔ SequenceField parseInt v n := by
  rw [normalizeSequence_eq, SequenceField]
  cases numberOf parseInt v with
  | error e => simp [Except.map]
  | ok r => simp [Except.map, orZero_eq_iff]

theorem SequenceField.nonneg {n : Rat} (h : SequenceField parseInt v n) : 0 ≤ n := by
  obtain ⟨r, -, ⟨-, hn⟩ | ⟨rfl, -⟩⟩ := h
  · exact hn
  · exact Rat.le_refl

theorem exists_sequence {r : Option Rat} (h : numberOf parseInt v = .ok r) :
    normalizeSequence parseInt v = .ok (orZero r) := by
  rw [normalizeSequence_eq, h]
  rfl

/-! ### Updates -/

theorem byte_eq_some_iff {byte : UInt8} : byte? v = some byte ↔ v = ofByte byte := by
  have hbyte : byte.toNat < 256 := byte.toNat_lt
  constructor
  · intro h
    unfold byte? at h
    split at h
    · next n =>
      split at h
      · next hn =>
        obtain ⟨hden, hnonneg, hle⟩ := hn
        obtain rfl := Option.some.inj h
        have hnum : (n.num : Rat) = n := Rat.ext rfl hden.symm
        have hnum_nonneg : 0 ≤ n.num := Rat.num_nonneg.mpr hnonneg
        have hnum_le : n.num ≤ 255 := by
          rw [← hnum] at hle
          exact_mod_cast hle
        have hnat : (UInt8.ofNat n.num.toNat).toNat = n.num.toNat := by
          rw [UInt8.toNat_ofNat', Nat.mod_eq_of_lt (by omega)]
        rw [ofByte, hnat]
        congr 2
        rw [← hnum]
        exact_mod_cast (Int.toNat_of_nonneg hnum_nonneg).symm
      · cases h
    · cases h
  · rintro rfl
    have hnonneg : (0 : Rat) ≤ (byte.toNat : Rat) := by exact_mod_cast Nat.zero_le _
    have hle : (byte.toNat : Rat) ≤ 255 := by exact_mod_cast Nat.le_of_lt_succ hbyte
    rw [ofByte, byte?, if_pos ⟨Rat.den_natCast _, hnonneg, hle⟩, Rat.num_natCast, Int.toNat_natCast,
      UInt8.ofNat_toNat]

theorem mapM_byte_eq_some_iff {items : List WireValue} {bytes : List UInt8} :
    items.mapM byte? = some bytes ↔ items = bytes.map ofByte := by
  induction items generalizing bytes with
  | nil => cases bytes <;> simp
  | cons item items ih =>
    cases bytes with
    | nil => simp [List.mapM_cons, Option.bind_eq_some_iff]
    | cons byte bytes =>
      simp [List.mapM_cons, Option.bind_eq_some_iff, byte_eq_some_iff, ih]

theorem normalizeUpdate_eq_some_iff {bytes : List UInt8} :
    normalizeUpdate v = some bytes ↔ UpdateField v bytes := by
  cases v <;> simp [normalizeUpdate, UpdateField, mapM_byte_eq_some_iff]

end fields

/-! ### What a parser lets through -/

section parsed
variable {parseInt : WireValue → Except ConversionError (Option Rat)} {v : WireValue}

theorem not_isRecord {key s : String} (h : v.member key = .string s) : (!v.isRecord) = false := by
  have hdefined : v.member key ≠ .undefined := by
    rw [h]
    nofun
  rw [isRecord_of_member hdefined]
  rfl

theorem parseBoardId_eq_some_iff {boardId : String} :
    parseBoardId v = some boardId ↔
      v.member "boardId" = .string boardId ∧ IsId MAX_BOARD_ID_LENGTH boardId :=
  asId_eq_some_iff

theorem parseBoardJoinPayload_iff {p : BoardJoinPayload} :
    parseBoardJoinPayload parseInt v = .ok (some p) ↔ p.ReadFrom parseInt v ∧ p.WellFormed := by
  constructor
  · intro h
    unfold parseBoardJoinPayload at h
    split at h
    · cases h
    · split at h
      · next boardId sessionId hboard hsession =>
        obtain ⟨hboardId, hboardBound⟩ := parseBoardId_eq_some_iff.mp hboard
        obtain ⟨hsessionId, hsessionBound⟩ := asId_eq_some_iff.mp hsession
        obtain ⟨n, hn, hp⟩ := bind_eq_ok.mp h
        have hsequence := normalizeSequence_eq_ok_iff.mp hn
        cases hp
        exact ⟨⟨hboardId, hsequence, hsessionId, parseShareToken_iff.mp rfl⟩,
          ⟨hboardBound, hsequence.nonneg, hsessionBound⟩⟩
      · cases h
  · rintro ⟨hread, hwell⟩
    rw [parseBoardJoinPayload, not_isRecord hread.boardId,
      parseBoardId_eq_some_iff.mpr ⟨hread.boardId, hwell.boardId⟩,
      asId_eq_some_iff.mpr ⟨hread.sessionId, hwell.sessionId⟩,
      normalizeSequence_eq_ok_iff.mpr hread.lastSequence,
      ← parseShareToken_iff.mpr hread.shareToken]
    rfl

theorem parseMutationBatchPayload_iff {p : MutationBatchPayload} :
    parseMutationBatchPayload v = some p ↔ p.ReadFrom v ∧ p.WellFormed := by
  constructor
  · intro h
    unfold parseMutationBatchPayload at h
    split at h
    · cases h
    · obtain ⟨boardId, hboard, h⟩ := Option.bind_eq_some_iff.mp h
      obtain ⟨hboardId, hbound⟩ := parseBoardId_eq_some_iff.mp hboard
      split at h
      · next hmutations =>
        split at h
        · next hlength =>
          cases h
          exact ⟨⟨hboardId, hmutations⟩, ⟨hbound, hlength⟩⟩
        · cases h
      · cases h
  · rintro ⟨hread, hwell⟩
    rw [parseMutationBatchPayload, not_isRecord hread.boardId,
      parseBoardId_eq_some_iff.mpr ⟨hread.boardId, hwell.boardId⟩]
    simp [hread.mutations, hwell.mutations]

theorem parseCrdtUpdatePayload_iff {p : CrdtUpdatePayload} :
    parseCrdtUpdatePayload v = some p ↔ p.ReadFrom v ∧ p.WellFormed := by
  constructor
  · intro h
    unfold parseCrdtUpdatePayload at h
    split at h
    · cases h
    · obtain ⟨boardId, hboard, h⟩ := Option.bind_eq_some_iff.mp h
      obtain ⟨hboardId, hbound⟩ := parseBoardId_eq_some_iff.mp hboard
      obtain ⟨update, hupdate, h⟩ := Option.bind_eq_some_iff.mp h
      split at h
      · cases h
      · next hempty =>
        cases h
        exact ⟨⟨hboardId, normalizeUpdate_eq_some_iff.mp hupdate⟩,
          ⟨hbound, fun hnil => hempty (List.isEmpty_iff.mpr hnil)⟩⟩
  · rintro ⟨hread, hwell⟩
    rw [parseCrdtUpdatePayload, not_isRecord hread.boardId,
      parseBoardId_eq_some_iff.mpr ⟨hread.boardId, hwell.boardId⟩,
      normalizeUpdate_eq_some_iff.mpr hread.update]
    simp [hwell.update]

theorem parsePresenceUpdatePayload_iff {p : PresenceUpdatePayload} :
    parsePresenceUpdatePayload v = some p ↔ p.ReadFrom v ∧ p.WellFormed := by
  constructor
  · intro h
    unfold parsePresenceUpdatePayload at h
    split at h
    · cases h
    · obtain ⟨boardId, hboard, h⟩ := Option.bind_eq_some_iff.mp h
      obtain ⟨hboardId, hbound⟩ := parseBoardId_eq_some_iff.mp hboard
      obtain ⟨cursor, hcursor, h⟩ := Option.bind_eq_some_iff.mp h
      cases h
      have hselected := parseIdList_iff.mp (Eq.refl (parseIdList (v.member "selectedIds")))
      have hdragged := parseIdList_iff.mp (Eq.refl (parseIdList (v.member "draggedIds")))
      have hfocused := asId_iff.mp (Eq.refl (asId MAX_ID_LENGTH (v.member "focusedElementId")))
      exact ⟨⟨hboardId, parseCursor_eq_some_iff.mp hcursor, hselected, hdragged, hfocused,
          parseTypingField_iff.mp rfl⟩,
        ⟨hbound, isIdList_of_listField hselected, isIdList_of_listField hdragged, hfocused.isId⟩⟩
  · rintro ⟨hread, hwell⟩
    rw [parsePresenceUpdatePayload, not_isRecord hread.boardId,
      parseBoardId_eq_some_iff.mpr ⟨hread.boardId, hwell.boardId⟩,
      parseCursor_eq_some_iff.mpr hread.cursor, ← parseIdList_iff.mpr hread.selectedIds,
      ← parseIdList_iff.mpr hread.draggedIds, ← asId_iff.mpr hread.focusedElementId,
      ← parseTypingField_iff.mpr hread.typingField]
    rfl

theorem parseRealtimeTickPayload_iff {p : RealtimeTickPayload} :
    parseRealtimeTickPayload parseInt v = .ok (some p) ↔
      TickReadFrom parseInt v p ∧ TickWellFormed p := by
  constructor
  · intro h
    unfold parseRealtimeTickPayload at h
    split at h
    · cases h
    · split at h
      · cases h
      · next boardId hboard =>
        obtain ⟨hboardId, hbound⟩ := parseBoardId_eq_some_iff.mp hboard
        obtain ⟨tickId, htick, h⟩ := bind_eq_ok.mp h
        have hsequence := normalizeSequence_eq_ok_iff.mp htick
        split at h
        · cases h
        · next cursor hcursor =>
          cases h
          have hselected := parseIdList_iff.mp (Eq.refl (parseIdList (v.member "selectedIds")))
          have hdragged := parseIdList_iff.mp (Eq.refl (parseIdList (v.member "draggedIds")))
          have hfocused := asId_iff.mp (Eq.refl (asId MAX_ID_LENGTH (v.member "focusedElementId")))
          have hmessage :=
            asId_iff.mp (Eq.refl (asId MAX_PRESENCE_MESSAGE_LENGTH (v.member "presenceMessage")))
          have hmoves := parseMoves_iff.mp (Eq.refl (parseMoves (v.member "moves")))
          exact ⟨⟨hboardId, hsequence, parseCursor_eq_some_iff.mp hcursor, hselected, hdragged,
              hfocused, parseTypingField_iff.mp rfl, parsePresenceState_iff.mp rfl, hmessage,
              hmoves⟩,
            ⟨hbound, hsequence.nonneg, isIdList_of_listField hselected,
              isIdList_of_listField hdragged, hfocused.isId, hmessage.isId,
              isMoves_of_listField hmoves⟩⟩
  · rintro ⟨hread, hwell⟩
    rw [parseRealtimeTickPayload, not_isRecord hread.boardId,
      parseBoardId_eq_some_iff.mpr ⟨hread.boardId, hwell.boardId⟩,
      normalizeSequence_eq_ok_iff.mpr hread.tickId, parseCursor_eq_some_iff.mpr hread.cursor,
      ← parseIdList_iff.mpr hread.selectedIds, ← parseIdList_iff.mpr hread.draggedIds,
      ← asId_iff.mpr hread.focusedElementId, ← parseTypingField_iff.mpr hread.typingField,
      ← parsePresenceState_iff.mpr hread.presenceState, ← asId_iff.mpr hread.presenceMessage,
      ← parseMoves_iff.mpr hread.moves]
    rfl

section wrapped
variable {α : Type} {wrap : α → ClientPayload} {p : ClientPayload} {P : α → Prop}

theorem ok_map_iff {x : Option α} (hx : ∀ a, x = some a ↔ P a) :
    (.ok (x.map wrap) : Except ConversionError (Option ClientPayload)) = .ok (some p) ↔
      ∃ a, P a ∧ wrap a = p := by
  simp [Option.map_eq_some_iff, hx]

theorem bind_map_iff {x : Except ConversionError (Option α)}
    (hx : ∀ a, x = .ok (some a) ↔ P a) :
    (do return (← x).map wrap : Except ConversionError (Option ClientPayload)) = .ok (some p) ↔
      ∃ a, P a ∧ wrap a = p := by
  cases x with
  | error e =>
    refine iff_of_false nofun ?_
    rintro ⟨a, ha, -⟩
    exact absurd ((hx a).mpr ha) nofun
  | ok x => exact ok_map_iff fun a => by rw [← hx, Except.ok.injEq]

end wrapped

/-- The payload that an event makes of a value. -/
theorem parse_eq_some_iff {event : ClientEvent} {p : ClientPayload} :
    parse parseInt event v = .ok (some p) ↔
      p.event = event ∧ p.ReadFrom parseInt v ∧ p.WellFormed := by
  cases event with
  | boardJoin =>
    refine (bind_map_iff fun _ => parseBoardJoinPayload_iff).trans ⟨?_, fun ⟨hevent, h⟩ => ?_⟩
    · rintro ⟨payload, h, rfl⟩
      exact ⟨rfl, h⟩
    · cases p with
      | boardJoin payload => exact ⟨payload, h, rfl⟩
      | _ => cases hevent
  | mutationBatch =>
    refine (ok_map_iff fun _ => parseMutationBatchPayload_iff).trans ⟨?_, fun ⟨hevent, h⟩ => ?_⟩
    · rintro ⟨payload, h, rfl⟩
      exact ⟨rfl, h⟩
    · cases p with
      | mutationBatch payload => exact ⟨payload, h, rfl⟩
      | _ => cases hevent
  | crdtUpdate =>
    refine (ok_map_iff fun _ => parseCrdtUpdatePayload_iff).trans ⟨?_, fun ⟨hevent, h⟩ => ?_⟩
    · rintro ⟨payload, h, rfl⟩
      exact ⟨rfl, h⟩
    · cases p with
      | crdtUpdate payload => exact ⟨payload, h, rfl⟩
      | _ => cases hevent
  | presenceUpdate =>
    refine (ok_map_iff fun _ => parsePresenceUpdatePayload_iff).trans ⟨?_, fun ⟨hevent, h⟩ => ?_⟩
    · rintro ⟨payload, h, rfl⟩
      exact ⟨rfl, h⟩
    · cases p with
      | presenceUpdate payload => exact ⟨payload, h, rfl⟩
      | _ => cases hevent
  | realtimeTick =>
    refine (bind_map_iff fun _ => parseRealtimeTickPayload_iff).trans ⟨?_, fun ⟨hevent, h⟩ => ?_⟩
    · rintro ⟨payload, h, rfl⟩
      exact ⟨rfl, h⟩
    · cases p with
      | realtimeTick payload => exact ⟨payload, h, rfl⟩
      | _ => cases hevent

/-- The values that a payload is made of. -/
theorem exists_parse_iff {event : ClientEvent} :
    (∃ p, parse parseInt event v = .ok (some p)) ↔
      Acceptable event v ∧ Converts parseInt event v := by
  constructor
  · rintro ⟨p, hp⟩
    obtain ⟨rfl, hread, hwell⟩ := parse_eq_some_iff.mp hp
    cases p with
    | boardJoin p =>
      obtain ⟨r, hr, -⟩ := hread.lastSequence
      exact ⟨⟨⟨_, hread.boardId, hwell.boardId⟩, _, hread.sessionId, hwell.sessionId⟩, r, hr⟩
    | mutationBatch p =>
      exact ⟨⟨⟨_, hread.boardId, hwell.boardId⟩, _, hread.mutations, hwell.mutations⟩, trivial⟩
    | crdtUpdate p =>
      exact ⟨⟨⟨_, hread.boardId, hwell.boardId⟩, _, hread.update, hwell.update⟩, trivial⟩
    | presenceUpdate p =>
      exact ⟨⟨⟨_, hread.boardId, hwell.boardId⟩, _, hread.cursor⟩, trivial⟩
    | realtimeTick p =>
      obtain ⟨r, hr, -⟩ := hread.tickId
      exact ⟨⟨⟨_, hread.boardId, hwell.boardId⟩, _, hread.cursor⟩, r, hr⟩
  · rintro ⟨⟨⟨boardId, hmember, hbound⟩, hneeded⟩, hconverts⟩
    have hrecord := not_isRecord hmember
    have hboard := parseBoardId_eq_some_iff.mpr ⟨hmember, hbound⟩
    cases event with
    | boardJoin =>
      obtain ⟨sessionId, hsession, hsessionBound⟩ := hneeded
      obtain ⟨r, hr⟩ := hconverts
      rw [parse, parseBoardJoinPayload, hrecord, hboard,
        asId_eq_some_iff.mpr ⟨hsession, hsessionBound⟩, exists_sequence hr]
      exact ⟨_, rfl⟩
    | mutationBatch =>
      obtain ⟨mutations, hmutations, hlength⟩ := hneeded
      refine ⟨.mutationBatch ⟨boardId, mutations⟩, parse_eq_some_iff.mpr ⟨rfl, ?_, ?_⟩⟩
      · exact ⟨hmember, hmutations⟩
      · exact ⟨hbound, hlength⟩
    | crdtUpdate =>
      obtain ⟨update, hupdate, hempty⟩ := hneeded
      refine ⟨.crdtUpdate ⟨boardId, update⟩, parse_eq_some_iff.mpr ⟨rfl, ?_, ?_⟩⟩
      · exact ⟨hmember, hupdate⟩
      · exact ⟨hbound, hempty⟩
    | presenceUpdate =>
      obtain ⟨cursor, hcursor⟩ := hneeded
      rw [parse, parsePresenceUpdatePayload, hrecord, hboard, parseCursor_eq_some_iff.mpr hcursor]
      exact ⟨_, rfl⟩
    | realtimeTick =>
      obtain ⟨cursor, hcursor⟩ := hneeded
      obtain ⟨r, hr⟩ := hconverts
      rw [parse, parseRealtimeTickPayload, hrecord, hboard, exists_sequence hr,
        parseCursor_eq_some_iff.mpr hcursor]
      exact ⟨_, rfl⟩

/-! ### Round trip -/

theorem idField_ofText {limit : Nat} {s : Option String} (h : ∀ t ∈ s, IsId limit t) :
    IdField limit (ofText s) s := by
  intro t
  cases s with
  | none => simp [ofText]
  | some t' =>
    simp only [ofText, Option.elim, Option.some.injEq, WireValue.string.injEq]
    exact ⟨fun ht => ⟨ht, ht ▸ h t' rfl⟩, And.left⟩

theorem picks_map {α : Type} {Accepts : WireValue → α → Prop} {send : α → WireValue} {as : List α}
    (h : ∀ a ∈ as, Accepts (send a) a) : Picks Accepts (as.map send) as := by
  induction as with
  | nil => exact .nil
  | cons a as ih =>
    exact .take (h a List.mem_cons_self) (ih fun b hb => h b (List.mem_cons_of_mem a hb))

theorem listField_ofIds {ids : List String} (h : IsIdList ids) :
    ListField IdItem MAX_ID_LIST_LENGTH (ofIds ids) ids :=
  .all (picks_map fun id hid => ⟨rfl, h.ids id hid⟩) h.length

theorem listField_ofMoves {moves : List (String × Position)} (h : IsMoves moves) :
    ListField MoveItem MAX_MOVES (.array (moves.map ofMove)) moves :=
  .all (picks_map fun move hmove => ⟨⟨rfl, h.ids move hmove⟩, rfl, rfl⟩) h.length

theorem cursorField_toWire (cursor : Option Position) :
    CursorField (cursor.elim .null ofPosition) cursor := by
  cases cursor with
  | none => exact .inl ⟨.inr rfl, rfl⟩
  | some p => exact .inr ⟨p, rfl, rfl, rfl⟩

theorem textField_ofText (s : Option String) : TextField (ofText s) s := by
  intro t
  cases s <;> simp [ofText]

theorem typedField_ofTypingField (field : Option TypingField) :
    TypedField (ofTypingField field) field := by
  intro f
  rcases field with - | (- | -) <;> cases f <;> simp [ofTypingField]

theorem stateField_ofPresenceState (state : PresenceState) :
    StateField (ofPresenceState state) state := by
  intro other _
  cases state <;> cases other <;> simp [ofPresenceState]

theorem sequenceField_number {n : Rat} (h : 0 ≤ n) :
    SequenceField parseInt (.number (some n)) n := ⟨some n, rfl, .inl ⟨rfl, h⟩⟩

/-- A well-formed payload that is sent says what it says. -/
theorem readFrom_toWire {p : ClientPayload} (h : p.WellFormed) :
    p.ReadFrom parseInt p.toWire := by
  cases p with
  | boardJoin p => exact ⟨rfl, sequenceField_number h.lastSequence, rfl, textField_ofText _⟩
  | mutationBatch p => exact ⟨rfl, rfl⟩
  | crdtUpdate p => exact ⟨rfl, .inl rfl⟩
  | presenceUpdate p =>
    exact {
      boardId := rfl
      cursor := cursorField_toWire _
      selectedIds := listField_ofIds h.selectedIds
      draggedIds := listField_ofIds h.draggedIds
      focusedElementId := idField_ofText h.focusedElementId
      typingField := typedField_ofTypingField _ }
  | realtimeTick p =>
    exact {
      boardId := rfl
      tickId := sequenceField_number h.tickId
      cursor := cursorField_toWire _
      selectedIds := listField_ofIds h.selectedIds
      draggedIds := listField_ofIds h.draggedIds
      focusedElementId := idField_ofText h.focusedElementId
      typingField := typedField_ofTypingField _
      presenceState := stateField_ofPresenceState _
      presenceMessage := idField_ofText h.presenceMessage
      moves := listField_ofMoves h.moves }

end parsed

end Notebortt.WirePayloads
