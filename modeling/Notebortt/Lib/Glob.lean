import Mathlib.Data.List.Infix

/-! # Glob patterns over byte strings

    The pattern language of key-value stores: `*` stands for any bytes, `?` for
    one byte, `[...]` for a class (with `^` to negate it, `a-z` ranges and `\`
    escapes), and `\` takes the special meaning off the next byte. An
    unterminated class ends with the pattern, and a final `\` stands for itself.

    A pattern is read into tokens once (`tokens`) and the tokens are matched by
    structural recursion (`matchToks`), so that concrete matches evaluate. -/

namespace Glob

/-! ### Special bytes -/

def star : UInt8 := 42
def question : UInt8 := 63
def openBracket : UInt8 := 91
def backslash : UInt8 := 92
def closeBracket : UInt8 := 93
def caret : UInt8 := 94
def dash : UInt8 := 45

/-- The bytes with a meaning of their own outside a class. -/
def isMeta (c : UInt8) : Bool :=
  c == star || c == question || c == openBracket || c == backslash

/-! ### Patterns -/

/-- One entry of a class. -/
inductive Item where
  | one (c : UInt8)
  | range (lo hi : UInt8)
  deriving DecidableEq

/-- A range written backwards is read forwards. -/
def Item.has (c : UInt8) : Item → Bool
  | .one d => d == c
  | .range lo hi => (lo ≤ c && c ≤ hi) || (hi ≤ c && c ≤ lo)

inductive Tok where
  | any
  | single
  | cls (negated : Bool) (items : List Item)
  | lit (c : UInt8)
  deriving DecidableEq

/-- The entries of a class and the pattern left behind it. -/
def classItems : List UInt8 → List Item × List UInt8
  | [] => ([], [])
  | [c] => if c = closeBracket then ([], []) else ([.one c], [])
  | c :: d :: rest =>
    if c = backslash then
      let r := classItems rest
      (.one d :: r.1, r.2)
    else if c = closeBracket then ([], d :: rest)
    else
      match rest with
      | hi :: rest' =>
        if d = dash then
          let r := classItems rest'
          (.range c hi :: r.1, r.2)
        else
          let r := classItems (d :: hi :: rest')
          (.one c :: r.1, r.2)
      | [] =>
        let r := classItems [d]
        (.one c :: r.1, r.2)

/-- Read a pattern with `n` bytes of fuel; every token takes at least one. -/
def tokensN : Nat → List UInt8 → List Tok
  | 0, _ => []
  | _ + 1, [] => []
  | n + 1, c :: rest =>
    if c = star then .any :: tokensN n rest
    else if c = question then .single :: tokensN n rest
    else if c = openBracket then
      let negated := rest.head? == some caret
      let r := classItems (if negated then rest.tail else rest)
      .cls negated r.1 :: tokensN n r.2
    else if c = backslash then .lit (rest.head?.getD backslash) :: tokensN n rest.tail
    else .lit c :: tokensN n rest

def tokens (p : List UInt8) : List Tok := tokensN p.length p

/-! ### Matching -/

def matchToks : List Tok → List UInt8 → Bool
  | [], s => s.isEmpty
  | .any :: ts, s => s.tails.any (matchToks ts)
  | .single :: ts, _ :: s => matchToks ts s
  | .cls negated items :: ts, c :: s => (negated ^^ items.any (·.has c)) && matchToks ts s
  | .lit d :: ts, c :: s => c == d && matchToks ts s
  | _ :: _, [] => false

/-- Does the byte string `s` match the pattern `p`? -/
def globMatch (p s : List UInt8) : Bool := matchToks (tokens p) s

/-! ### Literal prefixes -/

/-- Bytes that stand for themselves in a pattern. -/
def Literal (l : List UInt8) : Prop := ∀ c ∈ l, isMeta c = false

instance (l : List UInt8) : Decidable (Literal l) :=
  List.decidableBAll (isMeta · = false) l

theorem Literal.append {l₁ l₂ : List UInt8} (h₁ : Literal l₁) (h₂ : Literal l₂) :
    Literal (l₁ ++ l₂) := by
  intro c hc
  rcases List.mem_append.mp hc with h | h
  · exact h₁ c h
  · exact h₂ c h

theorem tokensN_literal {l : List UInt8} (hl : Literal l) (n : Nat) (r : List UInt8) :
    tokensN (l.length + n) (l ++ r) = l.map .lit ++ tokensN n r := by
  induction l with
  | nil => simp
  | cons c l ih =>
    have hc : isMeta c = false := hl c (by simp)
    have hrest := ih fun d hd => hl d (by simp [hd])
    simp only [isMeta, Bool.or_eq_false_iff, beq_eq_false_iff_ne] at hc
    obtain ⟨⟨⟨h1, h2⟩, h3⟩, h4⟩ := hc
    have hlen : (c :: l).length + n = (l.length + n) + 1 := by simp; omega
    rw [hlen, List.cons_append, tokensN]
    simp [h1, h2, h3, h4, hrest]

theorem matchToks_literal (l : List UInt8) (ts : List Tok) (s : List UInt8) :
    matchToks (l.map .lit ++ ts) s = true ↔ ∃ r, s = l ++ r ∧ matchToks ts r = true := by
  induction l generalizing s with
  | nil => simp
  | cons c l ih =>
    cases s with
    | nil => simp [matchToks]
    | cons d s =>
      simp only [List.map_cons, List.cons_append, matchToks, Bool.and_eq_true, beq_iff_eq, ih]
      constructor
      · rintro ⟨rfl, r, rfl, hr⟩
        exact ⟨r, rfl, hr⟩
      · rintro ⟨r, heq, hr⟩
        obtain ⟨rfl, rfl⟩ := List.cons.inj heq
        exact ⟨rfl, r, rfl, hr⟩

theorem matchToks_any (s : List UInt8) : matchToks [.any] s = true := by
  simp only [matchToks, List.any_eq_true]
  exact ⟨[], (List.mem_tails _ _).mpr List.nil_suffix, rfl⟩

/-- A literal followed by one `*` matches exactly the strings it begins. -/
theorem globMatch_literal_star {l : List UInt8} (hl : Literal l) (s : List UInt8) :
    globMatch (l ++ [star]) s = true ↔ l <+: s := by
  have htoks : tokens (l ++ [star]) = l.map .lit ++ [.any] := by
    unfold tokens
    rw [List.length_append, tokensN_literal hl]
    rfl
  unfold globMatch
  rw [htoks, matchToks_literal]
  constructor
  · rintro ⟨r, rfl, _⟩
    exact List.prefix_append l r
  · rintro ⟨r, rfl⟩
    exact ⟨r, rfl, matchToks_any r⟩

/-- A literal between two literals and a `*`: the middle can be anything. -/
theorem globMatch_wildcard {l m : List UInt8} (hl : Literal l) (hm : Literal m)
    (w r : List UInt8) :
    globMatch (l ++ [star] ++ m ++ [star]) (l ++ w ++ m ++ r) = true := by
  have htoks : tokens (l ++ [star] ++ m ++ [star]) =
      l.map .lit ++ (.any :: (m.map .lit ++ [.any])) := by
    have hlen : (l ++ [star] ++ m ++ [star]).length = l.length + (1 + (m.length + 1)) := by
      simp; omega
    unfold tokens
    rw [hlen, List.append_assoc, List.append_assoc, tokensN_literal hl]
    have hstar : tokensN (1 + (m.length + 1)) ([star] ++ (m ++ [star]))
        = .any :: tokensN (m.length + 1) (m ++ [star]) := by
      rw [Nat.add_comm 1]; rfl
    rw [hstar, tokensN_literal hm]
    rfl
  unfold globMatch
  rw [htoks, List.append_assoc, List.append_assoc, matchToks_literal]
  refine ⟨w ++ (m ++ r), rfl, ?_⟩
  simp only [matchToks, List.any_eq_true]
  refine ⟨m ++ r, (List.mem_tails _ _).mpr (List.suffix_append w _), ?_⟩
  exact (matchToks_literal m _ _).mpr ⟨r, rfl, matchToks_any r⟩

/-- One `*` between two literals: the strings that begin with the one and end with the other
    match. -/
theorem globMatch_between {l m : List UInt8} (hl : Literal l) (hm : Literal m) (w : List UInt8) :
    globMatch (l ++ [star] ++ m) (l ++ w ++ m) = true := by
  have htoks : tokens (l ++ [star] ++ m) = l.map .lit ++ (.any :: m.map .lit) := by
    have hlen : (l ++ [star] ++ m).length = l.length + (1 + m.length) := by
      simp; omega
    unfold tokens
    rw [hlen, List.append_assoc, tokensN_literal hl]
    have hstar : tokensN (1 + m.length) ([star] ++ m) = .any :: tokensN m.length m := by
      rw [Nat.add_comm 1]; rfl
    have hrest : tokensN m.length m = m.map .lit := by
      have h := tokensN_literal hm 0 []
      simpa [tokensN] using h
    rw [hstar, hrest]
  unfold globMatch
  rw [htoks, List.append_assoc, matchToks_literal]
  refine ⟨w ++ m, rfl, ?_⟩
  simp only [matchToks, List.any_eq_true]
  refine ⟨m, (List.mem_tails _ _).mpr (List.suffix_append w m), ?_⟩
  have hlast := (matchToks_literal m [] m).mpr ⟨[], (List.append_nil m).symm, rfl⟩
  simpa using hlast

end Glob
