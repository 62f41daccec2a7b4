import Notebortt.Lib.Js
import Mathlib.Algebra.Order.Floor.Ring
import Mathlib.Data.Rat.Floor

/-! # Exact numbers

    The arithmetic of the language without rounding: rational numbers, the two
    infinities and `NaN`. There is one zero. -/

namespace Js

inductive Exact where
  | nan
  | posInf
  | negInf
  | rat (q : Rat)
deriving DecidableEq, Repr

namespace Exact

/-! ### Operations -/

def neg : Exact → Exact
  | .nan => .nan
  | .posInf => .negInf
  | .negInf => .posInf
  | .rat q => .rat (-q)

def add : Exact → Exact → Exact
  | .rat a, .rat b => .rat (a + b)
  | .posInf, .rat _ | .rat _, .posInf | .posInf, .posInf => .posInf
  | .negInf, .rat _ | .rat _, .negInf | .negInf, .negInf => .negInf
  | _, _ => .nan

def sub (a b : Exact) : Exact := add a (neg b)

/-- An infinity with the sign of the product. -/
def infinity (sign : Rat) : Exact :=
  if sign < 0 then .negInf else if 0 < sign then .posInf else .nan

def sign : Exact → Rat
  | .nan => 0
  | .posInf => 1
  | .negInf => -1
  | .rat q => if q < 0 then -1 else if 0 < q then 1 else 0

def mul : Exact → Exact → Exact
  | .rat a, .rat b => .rat (a * b)
  | .nan, _ | _, .nan => .nan
  | a, b => infinity (a.sign * b.sign)

def div : Exact → Exact → Exact
  | .rat a, .rat b => if b = 0 then infinity (sign (.rat a)) else .rat (a / b)
  | .rat _, .posInf | .rat _, .negInf => .rat 0
  | .posInf, .rat b => if b < 0 then .negInf else .posInf
  | .negInf, .rat b => if b < 0 then .posInf else .negInf
  | _, _ => .nan

def lt : Exact → Exact → Bool
  | .rat a, .rat b => decide (a < b)
  | .negInf, .rat _ | .negInf, .posInf | .rat _, .posInf => true
  | _, _ => false

def max (a b : Exact) : Exact :=
  match a, b with
  | .nan, _ | _, .nan => .nan
  | a, b => if lt a b then b else a

def min (a b : Exact) : Exact :=
  match a, b with
  | .nan, _ | _, .nan => .nan
  | a, b => if lt b a then b else a

def isFinite : Exact → Bool
  | .rat _ => true
  | _ => false

def toNat? : Exact → Option Nat
  | .rat q => if q.den = 1 ∧ 0 ≤ q.num then some q.num.toNat else none
  | _ => none

/-- A loop over the naturals below `q` runs `⌈q⌉` times, below infinity for ever. -/
def below : Exact → Option Nat
  | .rat q => some q.ceil.toNat
  | .posInf => none
  | _ => some 0

/-! ### Texts -/

/-- The digits of a fraction below 1 behind the point, at most this many. -/
def fractionDigits : Nat → Rat → List Char
  | 0, _ => []
  | places + 1, q =>
    if q = 0 then []
    else Nat.toDigits 10 (q * 10).floor.toNat ++
      fractionDigits places (q * 10 - ((q * 10).floor : Int))

/-- Without an exponent, and with at most 17 places. -/
def ratChars (q : Rat) : List Char :=
  let whole := Nat.toDigits 10 (|q|.floor.toNat)
  let fraction := fractionDigits 17 (|q| - (|q|.floor : Int))
  (if q < 0 then ['-'] else []) ++ whole ++ (if fraction = [] then [] else '.' :: fraction)

def toText : Exact → String
  | .nan => "NaN"
  | .posInf => "Infinity"
  | .negInf => "-Infinity"
  | .rat q => String.ofList (ratChars q)

def digitOf (base : Nat) (c : Char) : Option Nat :=
  let d :=
    if c.isDigit then some (c.toNat - '0'.toNat)
    else if 'a' ≤ c ∧ c ≤ 'f' then some (c.toNat - 'a'.toNat + 10)
    else if 'A' ≤ c ∧ c ≤ 'F' then some (c.toNat - 'A'.toNat + 10)
    else none
  d.filter (· < base)

def natOf (base : Nat) (cs : List Char) : Option Nat :=
  (cs.mapM (digitOf base)).map fun ds => ds.foldl (fun n d => n * base + d) 0

/-- Split at the first character of the kind. -/
def splitFirst (p : Char → Bool) (cs : List Char) : List Char × Option (List Char) :=
  match cs.span fun c => !p c with
  | (before, []) => (before, none)
  | (before, _ :: after) => (before, some after)

def exponentOf : Option (List Char) → Option Int
  | none => some 0
  | some [] => none
  | some ('-' :: c :: cs) => (natOf 10 (c :: cs)).map fun n => -(n : Int)
  | some ('+' :: c :: cs) => (natOf 10 (c :: cs)).map fun n => (n : Int)
  | some cs => (natOf 10 cs).map fun n => (n : Int)

def unsignedDecimal (cs : List Char) : Option Rat := do
  let (mantissa, exponent) := splitFirst (fun c => c == 'e' || c == 'E') cs
  let (whole, fraction) := splitFirst (· == '.') mantissa
  let places := fraction.getD []
  if whole.isEmpty && places.isEmpty then none
  else do
    let n ← natOf 10 (whole ++ places)
    let e ← exponentOf exponent
    some ((n : Rat) * (10 : Rat) ^ (e - (places.length : Int)))

def unsignedNumber (cs : List Char) : Exact :=
  if cs = "Infinity".toList then .posInf
  else match unsignedDecimal cs with
    | some q => .rat q
    | none => .nan

def natNumber (base : Nat) (cs : List Char) : Exact :=
  match if cs.isEmpty then none else natOf base cs with
  | some n => .rat n
  | none => .nan

def isSpace (c : Char) : Bool :=
  c.isWhitespace || [0x0b, 0x0c, 0xa0, 0x1680, 0x2028, 0x2029, 0x202f, 0x205f, 0x3000,
    0xfeff].contains c.toNat || (0x2000 ≤ c.toNat && c.toNat ≤ 0x200a)

/-- `Number(text)`. -/
def ofText (s : String) : Exact :=
  let cs := ((s.toList.dropWhile isSpace).reverse.dropWhile isSpace).reverse
  match cs with
  | [] => .rat 0
  | '0' :: 'x' :: ds | '0' :: 'X' :: ds => natNumber 16 ds
  | '0' :: 'o' :: ds | '0' :: 'O' :: ds => natNumber 8 ds
  | '0' :: 'b' :: ds | '0' :: 'B' :: ds => natNumber 2 ds
  | '-' :: ds => (unsignedNumber ds).neg
  | '+' :: ds => unsignedNumber ds
  | ds => unsignedNumber ds

theorem isNumberChar_of_mem_toDigits {n : Nat} {c : Char} (h : c ∈ Nat.toDigits 10 n) :
    isNumberChar c = true := by
  have hdigit : c.isDigit = true := Nat.isDigit_of_mem_toDigits (by omega) (by omega) h
  simp [isNumberChar, hdigit]

theorem isNumberChar_of_mem_fractionDigits {places : Nat} {q : Rat} {c : Char}
    (h : c ∈ fractionDigits places q) : isNumberChar c = true := by
  induction places generalizing q with
  | zero => simp [fractionDigits] at h
  | succ places ih =>
    unfold fractionDigits at h
    by_cases hq : q = 0
    · simp [hq] at h
    · rw [if_neg hq] at h
      rcases List.mem_append.mp h with hd | hrest
      · exact isNumberChar_of_mem_toDigits hd
      · exact ih hrest

theorem isNumberChar_of_mem_ratChars {q : Rat} {c : Char} (h : c ∈ ratChars q) :
    isNumberChar c = true := by
  unfold ratChars at h
  simp only [List.mem_append] at h
  -- The sign, the digits before the point, and the point with the digits behind it.
  rcases h with (hsign | hwhole) | hfraction
  · by_cases hq : q < 0
    · rw [if_pos hq, List.mem_singleton] at hsign
      rw [hsign]
      decide
    · simp [hq] at hsign
  · exact isNumberChar_of_mem_toDigits hwhole
  · split at hfraction
    · cases hfraction
    · rcases List.mem_cons.mp hfraction with hpoint | hdigits
      · rw [hpoint]
        decide
      · exact isNumberChar_of_mem_fractionDigits hdigits

theorem toText_chars (a : Exact) : ∀ c ∈ a.toText.toList, isNumberChar c = true := by
  cases a with
  | nan => exact List.all_eq_true.mp (by decide : "NaN".toList.all isNumberChar = true)
  | posInf => exact List.all_eq_true.mp (by decide : "Infinity".toList.all isNumberChar = true)
  | negInf => exact List.all_eq_true.mp (by decide : "-Infinity".toList.all isNumberChar = true)
  | rat q =>
    intro c hc
    rw [toText, String.toList_ofList] at hc
    exact isNumberChar_of_mem_ratChars hc

instance : Arith Exact where
  ofRat := .rat
  nan := .nan
  add := add
  sub := sub
  mul := mul
  div := div
  max := max
  min := min
  lt := lt
  same a b := decide (a = b)
  isFinite := isFinite
  toNat? := toNat?
  below := below
  toText := toText
  ofText := ofText
  toText_chars := toText_chars

end Exact

end Js
