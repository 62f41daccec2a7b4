import Mathlib.Algebra.Order.Field.Basic
import Mathlib.Tactic.Ring
import Mathlib.Tactic.Linarith
import Mathlib.Tactic.FieldSimp

/-! # Fitting boxes to a page

    A drawing is scaled and moved so that a rectangle around it, with a margin,
    lies in the middle of a page and fills it in one direction. What the page
    shows of the plane is a rectangle too, the frame: a box is on the page
    exactly if it is in the frame. -/

namespace Fit

structure Box (K : Type u) where
  left : K
  top : K
  width : K
  height : K

/-- A rectangle by its sides. -/
structure Bounds (K : Type u) where
  left : K
  right : K
  top : K
  bottom : K

structure Page (K : Type u) where
  width : K
  height : K
  margin : K

variable {K : Type u} [Field K] [LinearOrder K] [IsStrictOrderedRing K]

structure Bounds.Encloses (b : Bounds K) (box : Box K) : Prop where
  left : b.left ≤ box.left
  right : box.left + box.width ≤ b.right
  top : b.top ≤ box.top
  bottom : box.top + box.height ≤ b.bottom

/-- The sides are in order. -/
structure Bounds.Valid (b : Bounds K) : Prop where
  across : b.left ≤ b.right
  down : b.top ≤ b.bottom

structure Page.Valid (p : Page K) : Prop where
  width : 0 < p.width
  height : 0 < p.height
  margin : 0 < p.margin

namespace Page

variable (p : Page K) (b : Bounds K)

/-! ### The transform -/

def sourceWidth : K := b.right - b.left + 2 * p.margin

def sourceHeight : K := b.bottom - b.top + 2 * p.margin

def scale : K := min (p.width / p.sourceWidth b) (p.height / p.sourceHeight b)

/-- One axis: the margin goes to the start of the page, half of what is left over before it. -/
def translate (size source scale low : K) : K :=
  (size - source * scale) / 2 - (low - p.margin) * scale

def tx : K := p.translate p.width (p.sourceWidth b) (p.scale b) b.left

def ty : K := p.translate p.height (p.sourceHeight b) (p.scale b) b.top

/-- Drawn with the transform the box is on the page. -/
structure Shows (box : Box K) : Prop where
  left : 0 ≤ p.scale b * box.left + p.tx b
  right : p.scale b * (box.left + box.width) + p.tx b ≤ p.width
  top : 0 ≤ p.scale b * box.top + p.ty b
  bottom : p.scale b * (box.top + box.height) + p.ty b ≤ p.height

/-! ### The frame -/

/-- How much of the plane one unit of the page shows. -/
def unit : K := max (p.sourceWidth b / p.width) (p.sourceHeight b / p.height)

/-- What the page shows: around the middle of the bounds, with the sides of the page. -/
def frame : Bounds K where
  left := (b.left + b.right) / 2 - p.width / 2 * p.unit b
  right := (b.left + b.right) / 2 + p.width / 2 * p.unit b
  top := (b.top + b.bottom) / 2 - p.height / 2 * p.unit b
  bottom := (b.top + b.bottom) / 2 + p.height / 2 * p.unit b

/-- The middle of the bounds goes to the middle of the page. -/
theorem image_eq (size low high s x : K) :
    s * x + p.translate size (high - low + 2 * p.margin) s low
      = size / 2 + s * (x - (low + high) / 2) := by
  unfold translate
  ring

/-- One axis: an interval is on the page exactly if it is in the frame. -/
theorem image_mem_iff {u : K} (hu : 0 < u) (size low high first last : K) :
    (0 ≤ u⁻¹ * first + p.translate size (high - low + 2 * p.margin) u⁻¹ low ∧
      u⁻¹ * last + p.translate size (high - low + 2 * p.margin) u⁻¹ low ≤ size) ↔
    (low + high) / 2 - size / 2 * u ≤ first ∧ last ≤ (low + high) / 2 + size / 2 * u := by
  rw [image_eq, image_eq]
  -- Both inequalities are multiplied by the unit.
  have hfirst : 0 ≤ size / 2 + u⁻¹ * (first - (low + high) / 2) ↔
      (low + high) / 2 - size / 2 * u ≤ first := by
    have hscaled : (size / 2 + u⁻¹ * (first - (low + high) / 2)) * u
        = size / 2 * u + (first - (low + high) / 2) := by
      rw [add_mul, mul_right_comm, inv_mul_cancel₀ hu.ne', one_mul]
    rw [← mul_nonneg_iff_of_pos_right hu, hscaled]
    constructor
    · intro h
      linarith
    · intro h
      linarith
  have hlast : size / 2 + u⁻¹ * (last - (low + high) / 2) ≤ size ↔
      last ≤ (low + high) / 2 + size / 2 * u := by
    have hscaled : (size / 2 + u⁻¹ * (last - (low + high) / 2)) * u
        = size / 2 * u + (last - (low + high) / 2) := by
      rw [add_mul, mul_right_comm, inv_mul_cancel₀ hu.ne', one_mul]
    rw [← mul_le_mul_iff_left₀ hu, hscaled]
    constructor
    · intro h
      linarith
    · intro h
      linarith
  rw [hfirst, hlast]

variable {p b}

theorem sourceWidth_pos (hp : p.Valid) (hb : b.Valid) : 0 < p.sourceWidth b := by
  have := hp.margin
  have := hb.across
  unfold sourceWidth
  linarith

theorem sourceHeight_pos (hp : p.Valid) (hb : b.Valid) : 0 < p.sourceHeight b := by
  have := hp.margin
  have := hb.down
  unfold sourceHeight
  linarith

theorem unit_pos (hp : p.Valid) (hb : b.Valid) : 0 < p.unit b :=
  lt_max_of_lt_left (div_pos (sourceWidth_pos hp hb) hp.width)

theorem scale_pos (hp : p.Valid) (hb : b.Valid) : 0 < p.scale b :=
  lt_min (div_pos hp.width (sourceWidth_pos hp hb)) (div_pos hp.height (sourceHeight_pos hp hb))

theorem scale_eq (hp : p.Valid) (hb : b.Valid) : p.scale b = (p.unit b)⁻¹ := by
  have hw : 0 < p.sourceWidth b / p.width := div_pos (sourceWidth_pos hp hb) hp.width
  have hh : 0 < p.sourceHeight b / p.height := div_pos (sourceHeight_pos hp hb) hp.height
  unfold scale unit
  rw [← inv_div (p.sourceWidth b), ← inv_div (p.sourceHeight b)]
  rcases le_total (p.sourceWidth b / p.width) (p.sourceHeight b / p.height) with h | h
  · rw [max_eq_right h, min_eq_right ((inv_le_inv₀ hh hw).mpr h)]
  · rw [max_eq_left h, min_eq_left ((inv_le_inv₀ hw hh).mpr h)]

/-- The page shows a box exactly if the box is in the frame. -/
theorem shows_iff (hp : p.Valid) (hb : b.Valid) (box : Box K) :
    p.Shows b box ↔ (p.frame b).Encloses box := by
  have hu := unit_pos hp hb
  have hx := p.image_mem_iff hu p.width b.left b.right box.left (box.left + box.width)
  have hy := p.image_mem_iff hu p.height b.top b.bottom box.top (box.top + box.height)
  -- The two axes are the same statement.
  rw [← scale_eq hp hb] at hx hy
  constructor
  · intro h
    obtain ⟨hleft, hright⟩ := hx.mp ⟨h.left, h.right⟩
    obtain ⟨htop, hbottom⟩ := hy.mp ⟨h.top, h.bottom⟩
    exact ⟨hleft, hright, htop, hbottom⟩
  · intro h
    obtain ⟨hleft, hright⟩ := hx.mpr ⟨h.left, h.right⟩
    obtain ⟨htop, hbottom⟩ := hy.mpr ⟨h.top, h.bottom⟩
    exact ⟨hleft, hright, htop, hbottom⟩

/-- What is inside the bounds is in the frame. -/
theorem frame_encloses (hp : p.Valid) {box : Box K} (h : b.Encloses box) :
    (p.frame b).Encloses box := by
  -- The unit is at least as large as each axis needs.
  have hm := hp.margin
  have hwidth : p.sourceWidth b ≤ p.width * p.unit b := by
    have hle : p.sourceWidth b / p.width ≤ p.unit b := le_max_left _ _
    rw [div_le_iff₀ hp.width] at hle
    linarith
  have hheight : p.sourceHeight b ≤ p.height * p.unit b := by
    have hle : p.sourceHeight b / p.height ≤ p.unit b := le_max_right _ _
    rw [div_le_iff₀ hp.height] at hle
    linarith
  unfold sourceWidth at hwidth
  unfold sourceHeight at hheight
  have := h.left
  have := h.right
  have := h.top
  have := h.bottom
  constructor
  · show (b.left + b.right) / 2 - p.width / 2 * p.unit b ≤ box.left
    linarith
  · show box.left + box.width ≤ (b.left + b.right) / 2 + p.width / 2 * p.unit b
    linarith
  · show (b.top + b.bottom) / 2 - p.height / 2 * p.unit b ≤ box.top
    linarith
  · show box.top + box.height ≤ (b.top + b.bottom) / 2 + p.height / 2 * p.unit b
    linarith

end Page

end Fit
