import Notebortt.Lib.Dict
import Mathlib.Data.Rat.Defs

/-! # Elements, operations and mutations

    The data of `mutations/types.ts`. A board element is a JSON object with a
    string `id` and any other fields; a patch (`Partial<BoardElement>`) is the
    same with the `id` optional.

    The time stamps `updatedAt`, `clientTimestamp` and `serverTimestamp` are
    left out: nothing modelled here reads one.

    A JS string is a list of UTF-16 units and may hold a surrogate without its
    pair, which no Lean string does: the 2048 private characters from U+10D800
    on stand for such surrogates. An id has none. -/

namespace Notebortt

/-! ### JSON values -/

inductive Json where
  | null
  | bool (b : Bool)
  | num (n : Rat)
  | str (s : String)
  | arr (items : List Json)
  | obj (members : List (String × Json))

mutual

def jsonEq : Json → Json → Bool
  | .null, .null => true
  | .bool a, .bool b => a == b
  | .num a, .num b => a == b
  | .str a, .str b => a == b
  | .arr a, .arr b => itemsEq a b
  | .obj a, .obj b => membersEq a b
  | _, _ => false

def itemsEq : List Json → List Json → Bool
  | [], [] => true
  | a :: as, b :: bs => jsonEq a b && itemsEq as bs
  | _, _ => false

def membersEq : List (String × Json) → List (String × Json) → Bool
  | [], [] => true
  | (k, a) :: as, (k', b) :: bs => k == k' && jsonEq a b && membersEq as bs
  | _, _ => false

end

mutual

theorem jsonEq_iff : ∀ a b : Json, jsonEq a b = true ↔ a = b
  | .null, b => by cases b <;> simp [jsonEq]
  | .bool _, b => by cases b <;> simp [jsonEq]
  | .num _, b => by cases b <;> simp [jsonEq]
  | .str _, b => by cases b <;> simp [jsonEq]
  | .arr as, b => by
    cases b with
    | arr bs => simpa [jsonEq] using itemsEq_iff as bs
    | _ => simp [jsonEq]
  | .obj as, b => by
    cases b with
    | obj bs => simpa [jsonEq] using membersEq_iff as bs
    | _ => simp [jsonEq]

theorem itemsEq_iff : ∀ as bs : List Json, itemsEq as bs = true ↔ as = bs
  | [], bs => by cases bs <;> simp [itemsEq]
  | a :: as, bs => by
    cases bs with
    | nil => simp [itemsEq]
    | cons b bs => simp [itemsEq, jsonEq_iff a b, itemsEq_iff as bs]

theorem membersEq_iff : ∀ as bs : List (String × Json), membersEq as bs = true ↔ as = bs
  | [], bs => by cases bs <;> simp [membersEq]
  | (k, a) :: as, bs => by
    cases bs with
    | nil => simp [membersEq]
    | cons b bs =>
      obtain ⟨k', b⟩ := b
      simp [membersEq, jsonEq_iff a b, membersEq_iff as bs]

end

instance : DecidableEq Json := fun a b => decidable_of_iff _ (jsonEq_iff a b)

/-- The character stands for a surrogate without its pair. -/
def isLoneSurrogate (c : Char) : Bool := 0x10D800 ≤ c.toNat && c.toNat < 0x10E000

def wellFormedText (s : String) : Bool := !s.toList.any isLoneSurrogate

/-- Postgres refuses the character `\u0000` in a `text` column. -/
def storableText (s : String) : Bool := !s.toList.contains '\x00'

mutual

/-- Everything the JSON text of the value spells: its strings and the names of its members. -/
def Json.texts : Json → List String
  | .null => []
  | .bool _ => []
  | .num _ => []
  | .str s => [s]
  | .arr items => textsOfItems items
  | .obj members => textsOfMembers members

def textsOfItems : List Json → List String
  | [] => []
  | v :: vs => v.texts ++ textsOfItems vs

def textsOfMembers : List (String × Json) → List String
  | [] => []
  | (k, v) :: kvs => k :: v.texts ++ textsOfMembers kvs

end

/-- A `jsonb` column refuses `\u0000` and lone surrogates. -/
def storableJsonText (s : String) : Bool := storableText s && wellFormedText s

/-- Can the value be written to a `jsonb` column? -/
def Json.storable (v : Json) : Bool := v.texts.all storableJsonText

/-- The members of a JSON object, one value a key. -/
abbrev Fields := Dict Json

/-- `{ ...fields, key: v }`, which JSON drops when `v` is `undefined`. -/
def setMember (fields : Fields) (key : String) : Option Json → Fields
  | some v => fields.insert key v
  | none => fields.erase key

theorem lookup_setMember (fields : Fields) (key key' : String) (v : Option Json) :
    (setMember fields key v).lookup key' = if key' = key then v else fields.lookup key' := by
  cases v with
  | none => rw [setMember, Dict.lookup_erase_ite]
  | some v => rw [setMember, Dict.lookup_insert_ite]

theorem lookup_setMember_of_ne {fields : Fields} {key key' : String} (v : Option Json)
    (h : key' ≠ key) : (setMember fields key v).lookup key' = fields.lookup key' := by
  rw [lookup_setMember, if_neg h]

/-! ### Board elements -/

/-- `BoardElement`: its `id`, and every other field by name. -/
structure BoardElement where
  id : String
  fields : Fields

/-- `Partial<BoardElement>`. -/
structure ElementFields where
  id : Option String := none
  fields : Fields := ∅

/-- `{ ...existing, ...fields }`. -/
def BoardElement.patch (existing : BoardElement) (p : ElementFields) : BoardElement where
  id := p.id.getD existing.id
  fields := p.fields ∪ existing.fields

/-- The field when it holds a string (`typeof record[key] === 'string'`). -/
def BoardElement.str? (e : BoardElement) (key : String) : Option String :=
  match e.fields.lookup key with
  | some (.str s) => some s
  | _ => none

def ElementFields.str? (p : ElementFields) (key : String) : Option String :=
  match p.fields.lookup key with
  | some (.str s) => some s
  | _ => none

/-! ### Operations -/

/-- The coordinates are written unread, whatever they hold; `none` is `undefined`. -/
structure Move where
  elementId : String
  x : Option Json
  y : Option Json

structure Update where
  elementId : String
  fields : ElementFields

inductive Operation where
  | createElement (elementId : String) (data : BoardElement)
  | updateElement (elementId : String) (fields : ElementFields)
  | deleteElements (elementIds : List String)
  | moveElements (moves : List Move) (transient : Bool)
  | updateElements (updates : List Update)
  | reorderElement (elementId : String) (zIndex : Rat)
  | reconcileMonthRange (metaId : String) (upserts : List BoardElement) (deletes : List String)

structure Mutation where
  mutationId : String
  boardId : String
  operation : Operation

/-- A transient move is only passed on to the other sockets. -/
def Mutation.isTransient (m : Mutation) : Bool :=
  match m.operation with
  | .moveElements _ transient => transient
  | _ => false

/-! ### Results -/

inductive MutationStatus where
  | applied
  | alreadyApplied
  | broadcastOnly
  deriving DecidableEq

/-- `ElementChangeSet`. -/
structure ElementChangeSet where
  upserts : List BoardElement
  deletes : List String

/-- `PersistedElementChange`. -/
structure PersistedElementChange where
  sequence : Nat
  upserts : List BoardElement
  deletes : List String

structure MutationResult where
  mutationId : String
  status : MutationStatus
  sequence : Option Nat := none
  change : Option PersistedElementChange := none

/-- `'solo' | 'collab'`. -/
inductive BoardSyncWriteMode where
  | solo
  | collab
  deriving DecidableEq

/-! ### Lookups through a patch -/

theorem BoardElement.patch_lookup (e : BoardElement) (p : ElementFields) (key : String) :
    (e.patch p).fields.lookup key = (p.fields.lookup key).or (e.fields.lookup key) :=
  Dict.lookup_union _ _ _

end Notebortt
