import Notebortt.Mutations.Types

/-! # Values of a payload

    The entry points check a payload only in part, so the code behind them may
    meet any JSON value where its types promise another. This is what property
    access, iteration and spreading make of such a value.

    Objects are compared by content where the code compares references. -/

namespace Notebortt.Payloads

/-- A value the code handles: `none` is `undefined`. -/
abbrev Value := Option Json

inductive TypeError where
  | noProperties
  | notIterable
  | notAFunction
deriving DecidableEq, Repr

/-! ### Equality -/

/-- `a === b`. -/
def sameValue : Value → Value → Bool
  | none, none => true
  | some a, some b => jsonEq a b
  | _, _ => false

/-! ### Reading a value -/

def isRecord : Value → Bool
  | some (.arr _) => true
  | some (.obj _) => true
  | _ => false

def truthy : Value → Bool
  | none => false
  | some .null => false
  | some (.bool b) => b
  | some (.num n) => n != 0
  | some (.str s) => s != ""
  | some (.arr _) => true
  | some (.obj _) => true

/-- `typeof v === 'string'`. -/
def asString : Value → Option String
  | some (.str s) => some s
  | _ => none

/-- `s.length`, in UTF-16 units. -/
def textLength (s : String) : Nat :=
  s.toList.foldl
    (fun length c => length + if c.toNat < 65536 || isLoneSurrogate c then 1 else 2) 0

/-- The own members: what `{ ...v }` copies. -/
def spread : Value → Fields
  | some (.obj members) => Dict.insertAll ∅ members
  | some (.arr items) => Dict.insertAll ∅ (items.zipIdx.map fun item => (toString item.2, item.1))
  | some (.str s) =>
    Dict.insertAll ∅ (s.toList.zipIdx.map fun c => (toString c.2, .str c.1.toString))
  | _ => ∅

/-- `v[key]` of a value that is neither `undefined` nor `null`, as a member. -/
def member (v : Value) (key : String) : Value := (spread v).lookup key

/-- `v[key]`. -/
def prop (v : Value) (key : String) : Except TypeError Value :=
  match v with
  | none => .error .noProperties
  | some .null => .error .noProperties
  | some (.arr items) => .ok (if key = "length" then some (.num items.length) else member v key)
  | some (.str s) => .ok (if key = "length" then some (.num (textLength s)) else member v key)
  | _ => .ok (member v key)

/-- The values a `for .. of` loop visits. -/
def items : Value → List Value
  | some (.arr values) => values.map some
  | some (.str s) => s.toList.map fun c => some (.str c.toString)
  | _ => []

def iterate (v : Value) : Except TypeError (List Value) :=
  match v with
  | some (.arr _) => .ok (items v)
  | some (.str _) => .ok (items v)
  | _ => .error .notIterable

/-- The items of `v.some(..)` and `v.map(..)`. -/
def arrayItems (v : Value) : Except TypeError (List Value) :=
  match v with
  | some (.arr _) => .ok (items v)
  | none => .error .noProperties
  | some .null => .error .noProperties
  | _ => .error .notAFunction

/-! ### Sets and maps -/

/-- `set.has(v)`. -/
def hasValue (set : List Value) (v : Value) : Bool := set.any fun v' => sameValue v' v

/-- `new Set(values)`: first occurrences, in order. -/
def toValueSet (values : List Value) : List Value :=
  values.foldl (fun set v => if hasValue set v then set else set ++ [v]) []

/-- A `Map` from ids to elements, in insertion order. -/
abbrev ElementMap := List (Value × Fields)

def mapGet (map : ElementMap) (id : Value) : Option Fields :=
  (map.find? fun entry => sameValue entry.1 id).map (·.2)

def mapSet (map : ElementMap) (id : Value) (element : Fields) : ElementMap :=
  if map.any fun entry => sameValue entry.1 id then
    map.map fun entry => if sameValue entry.1 id then (entry.1, element) else entry
  else map ++ [(id, element)]

def mapDelete (map : ElementMap) (id : Value) : ElementMap :=
  map.filter fun entry => !sameValue entry.1 id

/-! ### Elements of a map -/

section maps
variable {P : Fields → Prop} {map : ElementMap} {id : Value} {element : Fields}

/-- Every element of the map has `P`. -/
def AllElements (P : Fields → Prop) (map : ElementMap) : Prop := ∀ entry ∈ map, P entry.2

theorem AllElements.nil : AllElements P [] := fun _ hentry => absurd hentry List.not_mem_nil

theorem AllElements.get (h : AllElements P map) (hget : mapGet map id = some element) :
    P element := by
  obtain ⟨entry, hfind, rfl⟩ := Option.map_eq_some_iff.mp hget
  exact h entry (List.mem_of_find?_eq_some hfind)

theorem AllElements.set (h : AllElements P map) (helement : P element) :
    AllElements P (mapSet map id element) := by
  intro entry hentry
  unfold mapSet at hentry
  split at hentry
  · obtain ⟨old, hold, rfl⟩ := List.mem_map.mp hentry
    split
    · exact helement
    · exact h old hold
  · obtain hentry | hentry := List.mem_append.mp hentry
    · exact h entry hentry
    · rw [List.mem_singleton.mp hentry]
      exact helement

theorem AllElements.delete (h : AllElements P map) : AllElements P (mapDelete map id) :=
  fun entry hentry => h entry (List.mem_filter.mp hentry).1

end maps

/-! ### What a value that is read is -/

theorem asString_isSome {v : Value} (h : (asString v).isSome = true) : ∃ s, v = some (.str s) := by
  unfold asString at h
  split at h
  · next s => exact ⟨s, rfl⟩
  · cases h

/-- A property that is read, `length` apart, is a member. -/
theorem member_of_prop {v value : Value} {key : String} (hkey : key ≠ "length")
    (h : prop v key = .ok value) : member v key = value := by
  unfold prop at h
  split at h
  · cases h
  · cases h
  · rw [if_neg hkey] at h
    exact Except.ok.inj h
  · rw [if_neg hkey] at h
    exact Except.ok.inj h
  · exact Except.ok.inj h

theorem items_of_iterate {v : Value} {values : List Value} (h : iterate v = .ok values) :
    items v = values := by
  unfold iterate at h
  split at h
  · exact Except.ok.inj h
  · exact Except.ok.inj h
  · cases h

theorem items_of_arrayItems {v : Value} {values : List Value} (h : arrayItems v = .ok values) :
    items v = values := by
  unfold arrayItems at h
  split at h
  · exact Except.ok.inj h
  · cases h
  · cases h
  · cases h

/-- A computation that does not throw, step by step. -/
theorem bind_eq_ok {ε α β : Type} {x : Except ε α} {f : α → Except ε β} {b : β} :
    (x >>= f) = .ok b ↔ ∃ a, x = .ok a ∧ f a = .ok b := by
  cases x with
  | error e =>
    constructor
    · intro h
      cases h
    · rintro ⟨a, h, -⟩
      cases h
  | ok a =>
    constructor
    · exact fun h => ⟨a, rfl, h⟩
    · rintro ⟨a', h, hf⟩
      obtain rfl := Except.ok.inj h
      exact hf

end Notebortt.Payloads
