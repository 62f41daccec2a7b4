import Mathlib.Data.List.Basic

/-! # The byte caps of socket events

    `measurePayloadBytes` estimates how large the payload of an event was on the
    wire, and `payloadExceedsCap` refuses what is over the cap of its event. The
    estimate descends eight arrays and objects deep: what lies inside one that is
    deeper counts as a fixed number of bytes. -/

namespace Notebortt.PayloadBytes

def MAX_MEASURE_DEPTH : Nat := 8
def MAX_MEASURE_DEPTH_BYTES : Nat := 8

inductive SocketServerEvent where
  | BOARD_JOIN
  | MUTATION_BATCH
  | CRDT_UPDATE
  | PRESENCE_UPDATE
  | REALTIME_TICK
  | DISCONNECT
deriving DecidableEq

def SOCKET_EVENT_BYTE_CAPS : SocketServerEvent → Option Nat
  | .MUTATION_BATCH => some (256 * 1024)
  | .CRDT_UPDATE => some (128 * 1024)
  | .REALTIME_TICK => some (32 * 1024)
  | .PRESENCE_UPDATE => some (8 * 1024)
  | .BOARD_JOIN => some (4 * 1024)
  | .DISCONNECT => none

/-- The payload of an event. -/
inductive Payload where
  | null
  | undefined
  | string (s : String)
  /-- A number, by what `String` makes of it. -/
  | number (text : String)
  | boolean (b : Bool)
  /-- A `Buffer` or another `Uint8Array`. -/
  | binary (bytes : List UInt8)
  | array (items : List Payload)
  | object (entries : List (String × Payload))
  /-- A value of any other type. -/
  | other

/-! ### The measure -/

mutual

def measurePayloadBytes : Payload → Nat → Nat
  | .null, _ => 4
  | .undefined, _ => 4
  | .string s, _ => s.utf8ByteSize + 2
  | .number text, _ => text.length
  | .boolean b, _ => if b then 4 else 5
  | .binary bytes, _ => bytes.length
  | .array items, depth =>
    if MAX_MEASURE_DEPTH ≤ depth then MAX_MEASURE_DEPTH_BYTES
    else 2 + measureItems items (depth + 1)
  | .object entries, depth =>
    if MAX_MEASURE_DEPTH ≤ depth then MAX_MEASURE_DEPTH_BYTES
    else 2 + measureEntries entries (depth + 1)
  | .other, _ => 8

def measureItems : List Payload → Nat → Nat
  | [], _ => 0
  | item :: items, depth => measurePayloadBytes item depth + 1 + measureItems items depth

def measureEntries : List (String × Payload) → Nat → Nat
  | [], _ => 0
  | (key, item) :: entries, depth =>
    key.utf8ByteSize + 4 + measurePayloadBytes item depth + measureEntries entries depth

end

def payloadExceedsCap (event : SocketServerEvent) (payload : Payload) : Bool :=
  match SOCKET_EVENT_BYTE_CAPS event with
  | none => false
  | some cap => decide (cap < measurePayloadBytes payload 0)

/-! ### The content -/

mutual

/-- The bytes of all strings, keys and binary values. -/
def contentBytes : Payload → Nat
  | .string s => s.utf8ByteSize
  | .binary bytes => bytes.length
  | .array items => itemsContent items
  | .object entries => entriesContent entries
  | _ => 0

def itemsContent : List Payload → Nat
  | [] => 0
  | item :: items => contentBytes item + itemsContent items

def entriesContent : List (String × Payload) → Nat
  | [] => 0
  | (key, item) :: entries => key.utf8ByteSize + contentBytes item + entriesContent entries

end

mutual

/-- The bytes of the strings, keys and binary values that lie in no array or object at
    `MAX_MEASURE_DEPTH` or deeper. -/
def reachedBytes : Payload → Nat → Nat
  | .string s, _ => s.utf8ByteSize
  | .binary bytes, _ => bytes.length
  | .array items, depth => if MAX_MEASURE_DEPTH ≤ depth then 0 else reachedItems items (depth + 1)
  | .object entries, depth =>
    if MAX_MEASURE_DEPTH ≤ depth then 0 else reachedEntries entries (depth + 1)
  | _, _ => 0

def reachedItems : List Payload → Nat → Nat
  | [], _ => 0
  | item :: items, depth => reachedBytes item depth + reachedItems items depth

def reachedEntries : List (String × Payload) → Nat → Nat
  | [], _ => 0
  | (key, item) :: entries, depth =>
    key.utf8ByteSize + reachedBytes item depth + reachedEntries entries depth

end

mutual

/-- How many arrays and objects lie inside one another. -/
def nesting : Payload → Nat
  | .array items => 1 + itemsNesting items
  | .object entries => 1 + entriesNesting entries
  | _ => 0

def itemsNesting : List Payload → Nat
  | [] => 0
  | item :: items => max (nesting item) (itemsNesting items)

def entriesNesting : List (String × Payload) → Nat
  | [] => 0
  | (_, item) :: entries => max (nesting item) (entriesNesting entries)

end

/-! ### What the measure covers -/

mutual

theorem reachedBytes_le_measure (payload : Payload) (depth : Nat) :
    reachedBytes payload depth ≤ measurePayloadBytes payload depth := by
  cases payload with
  | null => simp [reachedBytes]
  | undefined => simp [reachedBytes]
  | number => simp [reachedBytes]
  | boolean => simp [reachedBytes]
  | other => simp [reachedBytes]
  | string s =>
    rw [reachedBytes, measurePayloadBytes]
    omega
  | binary bytes => simp [reachedBytes, measurePayloadBytes]
  | array items =>
    -- Both are cut off at the same depth.
    have hitems := reachedItems_le_measure items (depth + 1)
    rw [reachedBytes, measurePayloadBytes]
    split <;> omega
  | object entries =>
    have hentries := reachedEntries_le_measure entries (depth + 1)
    rw [reachedBytes, measurePayloadBytes]
    split <;> omega

theorem reachedItems_le_measure (items : List Payload) (depth : Nat) :
    reachedItems items depth ≤ measureItems items depth := by
  cases items with
  | nil => simp [reachedItems]
  | cons item items =>
    have hitem := reachedBytes_le_measure item depth
    have hitems := reachedItems_le_measure items depth
    rw [reachedItems, measureItems]
    omega

theorem reachedEntries_le_measure (entries : List (String × Payload)) (depth : Nat) :
    reachedEntries entries depth ≤ measureEntries entries depth := by
  cases entries with
  | nil => simp [reachedEntries]
  | cons entry entries =>
    have hitem := reachedBytes_le_measure entry.2 depth
    have hentries := reachedEntries_le_measure entries depth
    rw [reachedEntries, measureEntries]
    omega

end

mutual

/-- Nothing is cut off in a payload that does not nest too deep. -/
theorem reachedBytes_of_nesting_le (payload : Payload) (depth : Nat)
    (h : depth + nesting payload ≤ MAX_MEASURE_DEPTH) :
    reachedBytes payload depth = contentBytes payload := by
  cases payload with
  | null => simp [reachedBytes, contentBytes]
  | undefined => simp [reachedBytes, contentBytes]
  | number => simp [reachedBytes, contentBytes]
  | boolean => simp [reachedBytes, contentBytes]
  | other => simp [reachedBytes, contentBytes]
  | string s => rw [reachedBytes, contentBytes]
  | binary bytes => rw [reachedBytes, contentBytes]
  | array items =>
    -- The items lie one level deeper, and nest one level less.
    rw [nesting] at h
    rw [reachedBytes, contentBytes, if_neg (by omega)]
    exact reachedItems_of_nesting_le items (depth + 1) (by omega)
  | object entries =>
    rw [nesting] at h
    rw [reachedBytes, contentBytes, if_neg (by omega)]
    exact reachedEntries_of_nesting_le entries (depth + 1) (by omega)

theorem reachedItems_of_nesting_le (items : List Payload) (depth : Nat)
    (h : depth + itemsNesting items ≤ MAX_MEASURE_DEPTH) :
    reachedItems items depth = itemsContent items := by
  cases items with
  | nil => rw [reachedItems, itemsContent]
  | cons item items =>
    rw [itemsNesting] at h
    rw [reachedItems, itemsContent, reachedBytes_of_nesting_le item depth (by omega),
      reachedItems_of_nesting_le items depth (by omega)]

theorem reachedEntries_of_nesting_le (entries : List (String × Payload)) (depth : Nat)
    (h : depth + entriesNesting entries ≤ MAX_MEASURE_DEPTH) :
    reachedEntries entries depth = entriesContent entries := by
  cases entries with
  | nil => rw [reachedEntries, entriesContent]
  | cons entry entries =>
    rw [entriesNesting] at h
    rw [reachedEntries, entriesContent, reachedBytes_of_nesting_le entry.2 depth (by omega),
      reachedEntries_of_nesting_le entries depth (by omega)]

end

theorem payloadExceedsCap_of_lt {event : SocketServerEvent} {cap : Nat} {payload : Payload}
    (hcap : SOCKET_EVENT_BYTE_CAPS event = some cap) (h : cap < reachedBytes payload 0) :
    payloadExceedsCap event payload = true := by
  have hmeasure := reachedBytes_le_measure payload 0
  simp only [payloadExceedsCap, hcap, decide_eq_true_eq]
  omega

/-- The measure covers all content that is not cut off, which is all of it in a payload that nests
    no deeper than the bound, and the caps hold for what it covers. -/
theorem measure_covers (payload : Payload) :
    reachedBytes payload 0 ≤ measurePayloadBytes payload 0 ∧
      (nesting payload ≤ MAX_MEASURE_DEPTH → reachedBytes payload 0 = contentBytes payload) ∧
      ∀ event cap, SOCKET_EVENT_BYTE_CAPS event = some cap → cap < reachedBytes payload 0 →
        payloadExceedsCap event payload = true := by
  refine ⟨reachedBytes_le_measure payload 0, ?_, ?_⟩
  · intro h
    exact reachedBytes_of_nesting_le payload 0 (by omega)
  · intro event cap hcap h
    exact payloadExceedsCap_of_lt hcap h

theorem contentBytes_singleton (bytes : List UInt8) :
    contentBytes (.array [.binary bytes]) = bytes.length := by
  simp [contentBytes, itemsContent]

/-- Five kilobytes in an array are over the cap of `BOARD_JOIN`. -/
theorem measure_covers_join :
    contentBytes (.array [.binary (List.replicate 5000 0)]) = 5000 ∧
      payloadExceedsCap .BOARD_JOIN (.array [.binary (List.replicate 5000 0)]) = true := by
  have hcontent : contentBytes (.array [.binary (List.replicate 5000 0)]) = 5000 :=
    (contentBytes_singleton _).trans List.length_replicate
  obtain ⟨-, hall, hexceeds⟩ := measure_covers (.array [.binary (List.replicate 5000 0)])
  have hreached := hall (by decide)
  refine ⟨hcontent, hexceeds .BOARD_JOIN _ rfl ?_⟩
  rw [hreached, hcontent]
  decide

/-! ### Below the bound -/

/-- The payload inside `n` arrays. -/
def nested : Nat → Payload → Payload
  | 0, payload => payload
  | n + 1, payload => .array [nested n payload]

theorem contentBytes_nested (n : Nat) (payload : Payload) :
    contentBytes (nested n payload) = contentBytes payload := by
  induction n with
  | zero => rfl
  | succ n ih =>
    show contentBytes (nested n payload) + 0 = contentBytes payload
    omega

/-- Whatever an array under eight others holds, no event refuses it. -/
theorem payloadExceedsCap_nested (items : List Payload) (event : SocketServerEvent) :
    payloadExceedsCap event (nested MAX_MEASURE_DEPTH (.array items)) = false := by
  -- Three for each of the eight arrays, and a fixed charge for the one where the walk stops.
  have hmeasure : measurePayloadBytes (nested MAX_MEASURE_DEPTH (.array items)) 0 = 32 := rfl
  unfold payloadExceedsCap
  rw [hmeasure]
  cases event <;> rfl

/-- The same five kilobytes under nine arrays pass. -/
theorem deep_payload_passes :
    ∃ payload, contentBytes payload = 5000 ∧ measurePayloadBytes payload 0 = 32 ∧
      SOCKET_EVENT_BYTE_CAPS .BOARD_JOIN = some 4096 ∧
      payloadExceedsCap .BOARD_JOIN payload = false := by
  refine ⟨nested 8 (.array [.binary (List.replicate 5000 0)]), ?_, rfl, rfl,
    payloadExceedsCap_nested _ _⟩
  rw [contentBytes_nested, contentBytes_singleton, List.length_replicate]

end Notebortt.PayloadBytes
