import Mathlib.Data.Rat.Defs
import Mathlib.Data.List.Forall2

/-! # Values of an untyped language

    What a program computes with when its data has any shape: values with the
    conversions its operators make first. A `+` adds numbers and joins texts, a
    `*` turns both sides into numbers, a missing member is `undefined`, and what
    has no meaning at all ends the computation. Numbers are any type with an
    arithmetic, so that no result depends on how it rounds. -/

namespace Js

/-! ### Computations -/

/-- Why a computation has no result: a `TypeError`, a `RangeError`, or it does not return. -/
inductive Abrupt where
  | typeError
  | rangeError
  | endless
deriving DecidableEq, Repr

theorem bind_eq_ok {α β : Type} {x : Except Abrupt α} {f : α → Except Abrupt β} {b : β} :
    x >>= f = .ok b ↔ ∃ a, x = .ok a ∧ f a = .ok b := by
  cases x with
  | ok a => simp [bind, Except.bind]
  | error e => simp [bind, Except.bind]

theorem map_eq_ok {ε α β : Type} {x : Except ε α} {f : α → β} {b : β} :
    x.map f = .ok b ↔ ∃ a, x = .ok a ∧ f a = b := by
  cases x with
  | ok a => simp [Except.map]
  | error e => simp [Except.map]

theorem mapM_eq_ok {α β : Type} {f : α → Except Abrupt β} {as : List α} {bs : List β} :
    as.mapM f = .ok bs ↔ List.Forall₂ (fun a b => f a = .ok b) as bs := by
  induction as generalizing bs with
  | nil =>
    rw [List.mapM_nil, List.forall₂_nil_left_iff]
    constructor
    · intro h
      cases h
      rfl
    · intro h
      rw [h]
      rfl
  | cons a as ih =>
    rw [List.mapM_cons, bind_eq_ok, List.forall₂_cons_left_iff]
    constructor
    · intro h
      obtain ⟨b, hb, hrest⟩ := h
      obtain ⟨bs', hbs', hpure⟩ := bind_eq_ok.mp hrest
      cases hpure
      exact ⟨b, bs', hb, ih.mp hbs', rfl⟩
    · intro h
      obtain ⟨b, bs', hb, hbs', heq⟩ := h
      refine ⟨b, hb, bind_eq_ok.mpr ⟨bs', ih.mpr hbs', ?_⟩⟩
      rw [heq]
      rfl

theorem forall₂_exists_left {α β : Type} {R : α → β → Prop} {as : List α} {bs : List β}
    (h : List.Forall₂ R as bs) {b : β} (hb : b ∈ bs) : ∃ a ∈ as, R a b := by
  obtain ⟨i, hi, rfl⟩ := List.mem_iff_getElem.mp hb
  have hlen : i < as.length := h.length_eq ▸ hi
  exact ⟨as[i], List.getElem_mem hlen, List.forall₂_iff_get.mp h |>.2 i hlen hi⟩

theorem forall₂_exists_right {α β : Type} {R : α → β → Prop} {as : List α} {bs : List β}
    (h : List.Forall₂ R as bs) {a : α} (ha : a ∈ as) : ∃ b ∈ bs, R a b :=
  forall₂_exists_left h.flip ha

/-- A computation along a list that is known item by item. -/
theorem eq_map_of_mapM {α β : Type} {f : α → Except Abrupt β} {g : α → β} {as : List α}
    {bs : List β} (h : as.mapM f = .ok bs) (hg : ∀ a ∈ as, ∀ b, f a = .ok b → b = g a) :
    bs = as.map g := by
  have hall := mapM_eq_ok.mp h
  clear h
  induction hall with
  | nil => rfl
  | @cons a b as bs hab _ ih =>
    rw [List.map_cons, hg a List.mem_cons_self b hab,
      ih fun a' ha' => hg a' (List.mem_cons_of_mem _ ha')]

/-- Lists computed along a list, put together. -/
theorem map_flatten_of_mapM {α β γ δ : Type} {f : α → Except Abrupt (List β)} {as : List α}
    {bss : List (List β)} {g : β → γ} {h : α → List δ} {k : δ → γ} (hall : as.mapM f = .ok bss)
    (hf : ∀ a ∈ as, ∀ bs, f a = .ok bs → bs.map g = (h a).map k) :
    bss.flatten.map g = (as.flatMap h).map k := by
  have hpairs := mapM_eq_ok.mp hall
  clear hall
  induction hpairs with
  | nil => rfl
  | @cons a bs as bss hab _ ih =>
    rw [List.flatten_cons, List.map_append, List.flatMap_cons, List.map_append,
      hf a List.mem_cons_self bs hab, ih fun a' ha' => hf a' (List.mem_cons_of_mem _ ha')]

/-! ### Numbers -/

/-- The characters in the text of a number: digits, a sign, a point, an exponent, and the letters of
    `NaN` and `Infinity`. -/
def isNumberChar (c : Char) : Bool := c.isDigit || "+-.eNaInfity".toList.contains c

/-- The numbers of the language, with what is written of them. -/
class Arith (ν : Type) where
  ofRat : Rat → ν
  nan : ν
  add : ν → ν → ν
  sub : ν → ν → ν
  mul : ν → ν → ν
  div : ν → ν → ν
  max : ν → ν → ν
  min : ν → ν → ν
  /-- `a < b`; not for `NaN`. -/
  lt : ν → ν → Bool
  /-- Equal as keys of a map. -/
  same : ν → ν → Bool
  isFinite : ν → Bool
  /-- The natural number that it is. -/
  toNat? : ν → Option Nat
  /-- How often `for (let i = 0; i < n; i++)` runs, if it ends. -/
  below : ν → Option Nat
  toText : ν → String
  ofText : String → ν
  toText_chars : ∀ a, ∀ c ∈ (toText a).toList, isNumberChar c = true

section
variable {ν : Type} [Arith ν]

def Arith.ofNat (n : Nat) : ν := ofRat (n : Rat)

/-- Neither zero nor `NaN`. -/
def Arith.truthy (a : ν) : Bool := lt a (ofNat 0) || lt (ofNat 0) a

end

/-! ### Values -/

inductive Value (ν : Type) where
  | undefined
  | null
  | bool (b : Bool)
  | number (n : ν)
  | string (s : String)
  | array (items : List (Value ν))
  | object (members : List (String × Value ν))
  /-- A function of the language, by its name. -/
  | function (name : String)

/-- What is left of a value when an operator asks for a primitive one. -/
inductive Prim (ν : Type) where
  | undefined
  | null
  | bool (b : Bool)
  | number (n : ν)
  | string (s : String)

def functionText (name : String) : String := "function " ++ name ++ "() \x7b [native code] \x7d"

section
variable {ν : Type} [Arith ν]

def Prim.toText : Prim ν → String
  | .undefined => "undefined"
  | .null => "null"
  | .bool b => if b then "true" else "false"
  | .number n => Arith.toText n
  | .string s => s

def Prim.toNumber : Prim ν → ν
  | .undefined => Arith.nan
  | .null => Arith.ofNat 0
  | .bool b => Arith.ofNat (if b then 1 else 0)
  | .number n => n
  | .string s => Arith.ofText s

/-- The text of an item in a joined array. -/
def Prim.joined : Prim ν → String
  | .undefined => ""
  | .null => ""
  | p => p.toText

mutual

/-- An object whose `toString` is data, and so no function, has no primitive value. -/
def Value.toPrimitive : Value ν → Except Abrupt (Prim ν)
  | .undefined => .ok .undefined
  | .null => .ok .null
  | .bool b => .ok (.bool b)
  | .number n => .ok (.number n)
  | .string s => .ok (.string s)
  | .array items => (itemTexts items).map fun texts => .string (String.intercalate "," texts)
  | .object members =>
    if members.any fun member => member.1 == "toString" then .error .typeError
    else .ok (.string "[object Object]")
  | .function name => .ok (.string (functionText name))

def itemTexts : List (Value ν) → Except Abrupt (List String)
  | [] => .ok []
  | v :: vs => do
    let p ← v.toPrimitive
    let texts ← itemTexts vs
    .ok (p.joined :: texts)

end

namespace Value

/-- `String(v)`, and the text in a template. -/
def toText (v : Value ν) : Except Abrupt String := v.toPrimitive.map Prim.toText

/-- `Number(v)`. -/
def toNumber (v : Value ν) : Except Abrupt ν := v.toPrimitive.map Prim.toNumber

def nat (n : Nat) : Value ν := .number (Arith.ofNat n)

/-- `null` or `undefined`. -/
def nullish : Value ν → Bool
  | .undefined => true
  | .null => true
  | _ => false

/-- `a + b`, of primitive values. -/
def addPrim : Prim ν → Prim ν → Value ν
  | .string s, b => .string (s ++ b.toText)
  | a, .string t => .string (a.toText ++ t)
  | a, b => .number (Arith.add a.toNumber b.toNumber)

/-- `a + b`. -/
def add (a b : Value ν) : Except Abrupt (Value ν) := do
  let a ← a.toPrimitive
  let b ← b.toPrimitive
  .ok (addPrim a b)

theorem nullish_add {a b c : Value ν} (h : a.add b = .ok c) : c.nullish = false := by
  obtain ⟨p, _, hrest⟩ := bind_eq_ok.mp h
  obtain ⟨q, _, hsum⟩ := bind_eq_ok.mp hrest
  cases hsum
  cases p with
  | string s => rfl
  | _ =>
    cases q with
    | string t => rfl
    | _ => rfl

/-- `a - b`. -/
def sub (a b : Value ν) : Except Abrupt ν := do
  let a ← a.toNumber
  let b ← b.toNumber
  .ok (Arith.sub a b)

/-- `a * b`. -/
def mul (a b : Value ν) : Except Abrupt ν := do
  let a ← a.toNumber
  let b ← b.toNumber
  .ok (Arith.mul a b)

/-- `a / b`. -/
def div (a b : Value ν) : Except Abrupt ν := do
  let a ← a.toNumber
  let b ← b.toNumber
  .ok (Arith.div a b)

def truthy : Value ν → Bool
  | .undefined => false
  | .null => false
  | .bool b => b
  | .number n => Arith.truthy n
  | .string s => s != ""
  | .array _ => true
  | .object _ => true
  | .function _ => true

/-- `a ?? b`. -/
def coalesce (a b : Value ν) : Value ν := if a.nullish then b else a

/-- `a ?? b`, where `b` is computed only if it is needed. -/
def coalesceM (a : Value ν) (b : Except Abrupt (Value ν)) : Except Abrupt (Value ν) :=
  if a.nullish then b else .ok a

/-- `v === s`, for a text `s`. -/
def isText (v : Value ν) (s : String) : Bool :=
  match v with
  | .string t => t == s
  | _ => false

/-- Equal keys of a map, unless they are one and the same array or object. -/
def sameKey : Value ν → Value ν → Bool
  | .undefined, .undefined => true
  | .null, .null => true
  | .bool a, .bool b => a == b
  | .number a, .number b => Arith.same a b
  | .string a, .string b => a == b
  | _, _ => false

/-! ### Members -/

/-- The member of an object with this name: of several the last one. -/
def ownMember (members : List (String × Value ν)) (name : String) : Value ν :=
  match members.reverse.find? fun member => member.1 == name with
  | some member => member.2
  | none => .undefined

/-- `s.length`, in units of 16 bits. -/
def textLength (s : String) : Nat :=
  s.toList.foldl (fun length c => length + if c.toNat < 65536 then 1 else 2) 0

/-- `v.name`, for a name that no prototype has. -/
def member (v : Value ν) (name : String) : Except Abrupt (Value ν) :=
  match v with
  | .undefined => .error .typeError
  | .null => .error .typeError
  | .object members => .ok (ownMember members name)
  | .array items => .ok (if name = "length" then nat items.length else .undefined)
  | .string s => .ok (if name = "length" then nat (textLength s) else .undefined)
  | .bool _ => .ok .undefined
  | .number _ => .ok .undefined
  | .function _ => .ok .undefined

/-- The items of an array; of any other value its methods are missing. -/
def items : Value ν → Except Abrupt (List (Value ν))
  | .array items => .ok items
  | _ => .error .typeError

omit [Arith ν] in
theorem eq_array_of_items {v : Value ν} {xs : List (Value ν)} (h : v.items = .ok xs) :
    v = .array xs := by
  cases v with
  | array items =>
    cases h
    rfl
  | _ => cases h

/-- The functions that every array has. -/
def ARRAY_METHODS : List String :=
  ["at", "concat", "copyWithin", "entries", "every", "fill", "filter", "find", "findIndex",
   "findLast", "findLastIndex", "flat", "flatMap", "forEach", "includes", "indexOf", "join", "keys",
   "lastIndexOf", "map", "pop", "push", "reduce", "reduceRight", "reverse", "shift", "slice",
   "some", "sort", "splice", "toLocaleString", "toReversed", "toSorted", "toSpliced", "toString",
   "unshift", "values", "with", "hasOwnProperty", "isPrototypeOf", "propertyIsEnumerable",
   "valueOf",
   "__defineGetter__", "__defineSetter__", "__lookupGetter__", "__lookupSetter__"]

/-- `xs[key]`, for a text. -/
def itemNamed (xs : List (Value ν)) (key : String) : Value ν :=
  match (List.range xs.length).find? fun i => toString i == key with
  | some i => (xs[i]?).getD .undefined
  | none =>
    if key = "length" then nat xs.length
    else if key = "constructor" then .function "Array"
    else if key = "__proto__" then .array []
    else if key ∈ ARRAY_METHODS then .function key
    else .undefined

/-- `xs[i]`. -/
def itemAt (xs : List (Value ν)) (i : Nat) : Value ν := (xs[i]?).getD .undefined

/-- `xs[key]`. -/
def item (xs : List (Value ν)) (key : Value ν) : Except Abrupt (Value ν) := do
  match ← key.toPrimitive with
  | .number n => .ok (((Arith.toNat? n).map (itemAt xs)).getD .undefined)
  | key => .ok (itemNamed xs key.toText)

end Value

/-! ### Sorting -/

/-- `[...xs].sort((a, b) => key(a) - key(b))`. Only two items make it look at a key. Where the
    differences are no order (a key is `NaN`) the language does not fix the result; it does not
    depend on anything but the list. -/
def sortByNumber {α : Type} (key : α → Value ν) (xs : List α) : Except Abrupt (List α) :=
  if xs.length < 2 then .ok xs
  else do
    let keys ← xs.mapM fun x => (key x).toNumber
    .ok (((xs.zip keys).mergeSort fun a b =>
      !Arith.lt (Arith.ofNat 0) (Arith.sub a.2 b.2)).map Prod.fst)

/-! ### Serialization -/

def hexDigits (n width : Nat) : List Char :=
  let digits := Nat.toDigits 16 n
  List.replicate (width - digits.length) '0' ++ digits

def quotedChar (c : Char) : List Char :=
  if c = '"' then ['\\', '"']
  else if c = '\\' then ['\\', '\\']
  else if c = '\n' then ['\\', 'n']
  else if c = '\r' then ['\\', 'r']
  else if c = '\t' then ['\\', 't']
  else if c.toNat = 8 then ['\\', 'b']
  else if c.toNat = 12 then ['\\', 'f']
  else if c.toNat < 32 then ['\\', 'u'] ++ hexDigits c.toNat 4
  else [c]

def quoted (s : String) : String := "\"" ++ String.ofList (s.toList.flatMap quotedChar) ++ "\""

mutual

/-- `JSON.stringify(v)`; nothing for what JSON does not have. -/
def Value.stringify : Value ν → Option String
  | .undefined => none
  | .function _ => none
  | .null => some "null"
  | .bool b => some (if b then "true" else "false")
  | .number n => some (if Arith.isFinite n then Arith.toText n else "null")
  | .string s => some (quoted s)
  | .array items => some ("[" ++ String.intercalate "," (stringifyItems items) ++ "]")
  | .object members => some ("\x7b" ++ String.intercalate "," (stringifyMembers members) ++ "\x7d")

def stringifyItems : List (Value ν) → List String
  | [] => []
  | v :: vs => v.stringify.getD "null" :: stringifyItems vs

def stringifyMembers : List (String × Value ν) → List String
  | [] => []
  | (k, v) :: kvs =>
    match v.stringify with
    | none => stringifyMembers kvs
    | some text => (quoted k ++ ":" ++ text) :: stringifyMembers kvs

end

end

/-! ### The characters of a text -/

/-- The characters in the texts of the language itself: numbers, constants, functions. -/
def isWordChar (c : Char) : Bool := c.isAlphanum || "+-.,_ []()\x7b\x7d".toList.contains c

theorem isWordChar_of_isNumberChar {c : Char} (h : isNumberChar c = true) :
    isWordChar c = true := by
  unfold isNumberChar at h
  rcases Bool.or_eq_true_iff.mp h with hdigit | hother
  · simp [isWordChar, Char.isAlphanum, hdigit]
  · have hall : "+-.eNaInfity".toList.all isWordChar = true := by decide
    exact List.all_eq_true.mp hall c (List.contains_iff_mem.mp hother)

/-- Every character of the text is among those allowed. -/
def AllChars (ok : Char → Bool) (s : String) : Prop := ∀ c ∈ s.toList, ok c = true

theorem allChars_append {ok : Char → Bool} {s t : String} :
    AllChars ok (s ++ t) ↔ AllChars ok s ∧ AllChars ok t := by
  unfold AllChars
  rw [String.toList_append]
  simp only [List.mem_append, or_imp, forall_and]

section
variable {ν : Type} [Arith ν] {ok : Char → Bool}

/-- The text of the value, if it has one, is of these characters. -/
def Value.Over (ok : Char → Bool) (v : Value ν) : Prop :=
  ∀ text, v.toText = .ok text → AllChars ok text

/-- What is a text already is all that can bring in another character. -/
def Prim.isString : Prim ν → Bool
  | .string _ => true
  | _ => false

theorem Value.over_iff {v : Value ν} :
    v.Over ok ↔ ∀ p, v.toPrimitive = .ok p → AllChars ok p.toText := by
  unfold Value.Over Value.toText
  constructor
  · intro h p hp
    exact h _ (map_eq_ok.mpr ⟨p, hp, rfl⟩)
  · intro h text htext
    obtain ⟨p, hp, rfl⟩ := map_eq_ok.mp htext
    exact h p hp

theorem Value.over_of_ok {v : Value ν} {p : Prim ν} (hp : v.toPrimitive = .ok p) :
    v.Over ok ↔ AllChars ok p.toText := by
  rw [Value.over_iff]
  constructor
  · intro h
    exact h p hp
  · intro h p' hp'
    rw [hp] at hp'
    cases hp'
    exact h

theorem Value.over_string {s : String} :
    (Value.string s : Value ν).Over ok ↔ AllChars ok s :=
  Value.over_of_ok (p := .string s) rfl

variable (hok : ∀ c, isWordChar c = true → ok c = true)
include hok

theorem allChars_of_word {s : String} (h : s.toList.all isWordChar = true) : AllChars ok s := by
  intro c hc
  exact hok c (List.all_eq_true.mp h c hc)

theorem allChars_toText (n : ν) : AllChars ok (Arith.toText n) := by
  intro c hc
  exact hok c (isWordChar_of_isNumberChar (Arith.toText_chars n c hc))

theorem Prim.allChars_of_not_string {p : Prim ν} (h : p.isString = false) :
    AllChars ok p.toText := by
  cases p with
  | undefined =>
    show AllChars ok "undefined"
    exact allChars_of_word hok (by decide)
  | null =>
    show AllChars ok "null"
    exact allChars_of_word hok (by decide)
  | bool b =>
    cases b with
    | false =>
      show AllChars ok "false"
      exact allChars_of_word hok (by decide)
    | true =>
      show AllChars ok "true"
      exact allChars_of_word hok (by decide)
  | number n => exact allChars_toText hok n
  | string s => cases h

theorem Value.over_number (n : ν) : (Value.number n).Over ok :=
  (Value.over_of_ok (p := .number n) rfl).mpr (allChars_toText hok n)

theorem Value.over_undefined : (Value.undefined : Value ν).Over ok :=
  (Value.over_of_ok (p := .undefined) rfl).mpr (Prim.allChars_of_not_string hok rfl)

theorem Value.over_function {name : String} (h : name.toList.all isWordChar = true) :
    (Value.function name : Value ν).Over ok := by
  rw [Value.over_of_ok (p := .string (functionText name)) rfl]
  show AllChars ok (functionText name)
  unfold functionText
  rw [allChars_append, allChars_append]
  exact ⟨⟨allChars_of_word hok (by decide), allChars_of_word hok h⟩,
    allChars_of_word hok (by decide)⟩

omit hok in
theorem Value.addPrim_text {a b : Prim ν} (h : a.isString = true ∨ b.isString = true) :
    Value.addPrim a b = .string (a.toText ++ b.toText) := by
  cases a with
  | string s => rfl
  | _ =>
    cases b with
    | string t => rfl
    | _ => simp [Prim.isString] at h

omit hok in
theorem Value.addPrim_number {a b : Prim ν} (ha : a.isString = false) (hb : b.isString = false) :
    Value.addPrim a b = .number (Arith.add a.toNumber b.toNumber) := by
  cases a with
  | string s => cases ha
  | _ =>
    cases b with
    | string t => cases hb
    | _ => rfl

/-- A sum has the characters of both sides: a number that is added brings in none. -/
theorem Value.over_addPrim (a b : Prim ν) :
    (Value.addPrim a b).Over ok ↔ AllChars ok a.toText ∧ AllChars ok b.toText := by
  by_cases h : a.isString = true ∨ b.isString = true
  · rw [Value.addPrim_text h, Value.over_string, allChars_append]
  · rw [not_or, Bool.not_eq_true, Bool.not_eq_true] at h
    rw [Value.addPrim_number h.1 h.2]
    exact iff_of_true (Value.over_number hok _)
      ⟨Prim.allChars_of_not_string hok h.1, Prim.allChars_of_not_string hok h.2⟩

theorem Value.over_add {a b c : Value ν} (h : a.add b = .ok c) :
    c.Over ok ↔ a.Over ok ∧ b.Over ok := by
  obtain ⟨p, hp, hrest⟩ := bind_eq_ok.mp h
  obtain ⟨q, hq, hsum⟩ := bind_eq_ok.mp hrest
  cases hsum
  rw [Value.over_addPrim hok, Value.over_of_ok hp, Value.over_of_ok hq]

omit hok in
theorem Value.over_coalesce {a b : Value ν} (ha : a.Over ok) (hb : b.Over ok) :
    (a.coalesce b).Over ok := by
  unfold Value.coalesce
  split
  · exact hb
  · exact ha

theorem Value.over_itemAt {xs : List (Value ν)} (h : ∀ x ∈ xs, x.Over ok) (i : Nat) :
    (Value.itemAt xs i).Over ok := by
  unfold Value.itemAt
  cases hi : xs[i]? with
  | none => exact Value.over_undefined hok
  | some x => exact h x (List.mem_of_getElem? hi)

theorem Value.over_itemNamed {xs : List (Value ν)} (h : ∀ x ∈ xs, x.Over ok) (key : String) :
    (Value.itemNamed xs key).Over ok := by
  unfold Value.itemNamed
  split
  · exact Value.over_itemAt hok h _
  · split
    · exact Value.over_number hok _
    · split
      · exact Value.over_function hok (by decide)
      · split
        · rw [Value.over_of_ok (p := .string "") rfl]
          show AllChars ok ""
          exact allChars_of_word hok (by decide)
        · split
          · rename_i hmem
            have hall : ARRAY_METHODS.all (fun name => name.toList.all isWordChar) = true := by
              decide
            exact Value.over_function hok (List.all_eq_true.mp hall key hmem)
          · exact Value.over_undefined hok

/-- What is found in an array under any key: one of its items, or a part of the language. -/
theorem Value.over_item {xs : List (Value ν)} (h : ∀ x ∈ xs, x.Over ok) {key v : Value ν}
    (hv : Value.item xs key = .ok v) : v.Over ok := by
  obtain ⟨p, _, hrest⟩ := bind_eq_ok.mp hv
  cases p with
  | number n =>
    cases hrest
    cases Arith.toNat? n with
    | none => exact Value.over_undefined hok
    | some i => exact Value.over_itemAt hok h i
  | _ =>
    cases hrest
    exact Value.over_itemNamed hok h _

end

end Js
