import Kulua.Foundation.Binary64

/-! `toVideoCoords` of the fusion page (`fusion.html`): from the place of a pointer event to a
place in the video, which the canvas shows scaled to fit and centred. -/

namespace Kulua.Fusion.Page
open Foundation.Binary64 Foundation.Binary64.Number

/-- The resolution of the video. -/
structure Canvas where
  width : BitVec 32
  height : BitVec 32

/-- `getBoundingClientRect()`. -/
structure Rect where
  left : ℚ
  top : ℚ
  width : ℚ
  height : ℚ
  width_nonneg : 0 ≤ width
  height_nonneg : 0 ≤ height

/-- A pointer event, with the canvas as it is at that time. -/
structure PointerEvent where
  canvas : Canvas
  rect : Rect
  clientX : ℚ
  clientY : ℚ

namespace PointerEvent

def vw (e : PointerEvent) : Number := .finite e.canvas.width.toNat
def vh (e : PointerEvent) : Number := .finite e.canvas.height.toNat

def scale (e : PointerEvent) : Number :=
  Number.min (div (.finite e.rect.width) e.vw) (div (.finite e.rect.height) e.vh)

def dispW (e : PointerEvent) : Number := mul e.vw e.scale
def dispH (e : PointerEvent) : Number := mul e.vh e.scale
def offX (e : PointerEvent) : Number := div (sub (.finite e.rect.width) e.dispW) (.finite 2)
def offY (e : PointerEvent) : Number := div (sub (.finite e.rect.height) e.dispH) (.finite 2)
def x (e : PointerEvent) : Number := sub (sub (.finite e.clientX) (.finite e.rect.left)) e.offX
def y (e : PointerEvent) : Number := sub (sub (.finite e.clientY) (.finite e.rect.top)) e.offY

/-- Beside the area in which the video is shown. -/
def outside (e : PointerEvent) : Bool :=
  lt e.x (.finite 0) || lt e.y (.finite 0) || lt e.dispW e.x || lt e.dispH e.y

def toVideoCoords (e : PointerEvent) : Option (Number × Number) :=
  if e.canvas.width = 0 ∨ e.canvas.height = 0 then none
  else if e.outside then none
  else some (Number.round (div e.x e.scale), Number.round (div e.y e.scale))

/-- The place is one of the video. -/
def InVideo (e : PointerEvent) : Prop :=
  e.canvas.width ≠ 0 ∧ e.canvas.height ≠ 0 ∧ e.outside = false

instance (e : PointerEvent) : Decidable e.InVideo := inferInstanceAs (Decidable (_ ∧ _ ∧ _))

/-- The canvas has a size on the screen from which a place can be computed. -/
def Shown (e : PointerEvent) : Prop :=
  e.scale ≠ .finite 0 ∧ e.offX.isFinite = true ∧ e.offY.isFinite = true

/-- A pixel of the screen, or its far edge. -/
def InRange (size : BitVec 32) (a : Number) : Prop := ∃ k : ℕ, a = .finite k ∧ k ≤ size.toNat

end PointerEvent

/-- The scale is no negative number, and it has been rounded. -/
def Scale (s : Number) : Prop := s = .infinite false ∨ ∃ q, s = .finite q ∧ 0 ≤ q ∧ Multiple q

theorem scale_div {length : ℚ} (h : 0 ≤ length) (n : ℕ) (hn : 0 < n) :
    Scale (div (.finite length) (.finite n)) := by
  have hpos : (0 : ℚ) < n := Nat.cast_pos.mpr hn
  have hquot : 0 ≤ length / n := div_nonneg h hpos.le
  simp only [div, if_pos hpos.ne', ofRat]
  split
  · left
    simp [hquot]
  · right
    exact ⟨_, rfl, nearest_nonneg hquot, multiple_nearest _⟩

theorem Scale.ne_nan {a : Number} (h : Scale a) : a ≠ .nan := by
  rintro rfl
  rcases h with h | ⟨q, h, -⟩ <;> cases h

theorem scale_min {a b : Number} (ha : Scale a) (hb : Scale b) : Scale (Number.min a b) := by
  rcases min_choice ha.ne_nan hb.ne_nan with h | h
  · rwa [h]
  · rwa [h]

theorem div_size {length : ℚ} (h : 1 / 2 ^ 64 ≤ length ∧ length ≤ 2 ^ 64) {n : ℕ}
    (hn : n < 2 ^ 32) (hpos : 0 < n) :
    ∃ q, div (.finite length) (.finite n) = .finite q ∧ 0 < q ∧ q ≤ 2 ^ 66 := by
  have hn₁ : (1 : ℚ) ≤ n := Nat.one_le_cast.mpr hpos
  have hn₂ : (n : ℚ) < 2 ^ 32 := by exact_mod_cast hn
  have hlength : 0 ≤ length := le_trans (by positivity) h.1
  have hquot : 0 ≤ length / n := by positivity
  have hupper : length / n ≤ 2 ^ 64 := (div_le_self hlength hn₁).trans h.2
  have hlower : 1 / 2 ^ 200 ≤ length / n := by
    rw [le_div_iff₀ (by linarith)]
    linarith
  have hnearest := abs_nearest_le (length / n)
  rw [abs_of_nonneg hquot] at hnearest
  refine ⟨nearest (length / n), ?_, nearest_pos hlower, ?_⟩
  · rw [div, if_pos (by linarith), ofRat_of_le]
    rw [abs_of_nonneg hquot]
    linarith
  · have := le_abs_self (nearest (length / n))
    linarith

theorem isFinite_margin {length : ℚ} (hle : length ≤ 2 ^ 64) (hlength : 0 ≤ length) {n : ℕ}
    (hn : n < 2 ^ 32) {s : ℚ} (hs : 0 ≤ s) (hs' : s ≤ 2 ^ 66) :
    (div (sub (.finite length) (mul (.finite n) (.finite s))) (.finite 2)).isFinite = true := by
  have hn' : (n : ℚ) < 2 ^ 32 := by exact_mod_cast hn
  have hproduct : 0 ≤ n * s := by positivity
  have hproduct' : n * s ≤ 2 ^ 98 := by nlinarith
  have hdisp : mul (.finite n) (.finite s) = .finite (nearest (n * s)) := by
    refine ofRat_of_le ?_
    rw [abs_of_nonneg hproduct]
    linarith
  have hbound := abs_nearest_le (n * s)
  rw [abs_of_nonneg hproduct] at hbound
  have hdiff : |length - nearest (n * s)| ≤ 2 ^ 100 := by
    have htriangle := abs_sub length (nearest (n * s))
    rw [abs_of_nonneg hlength] at htriangle
    linarith
  have hsub : sub (.finite length) (.finite (nearest (n * s))) =
      .finite (nearest (length - nearest (n * s))) := ofRat_of_le (by linarith)
  have hbound' := abs_nearest_le (length - nearest (n * s))
  rw [hdisp, hsub, div, if_pos two_ne_zero, ofRat_of_le]
  · rfl
  · rw [abs_div, abs_two]
    linarith

/-- One axis. A place between the edges of the shown video is a pixel of the screen if and only
if the scale is not zero and the margin is a number. -/
theorem inRange_round_iff {size : BitVec 32} (hsize : size ≠ 0) {scale : Number}
    (hscale : Scale scale) {length client start : ℚ} {off x : Number}
    (hoff : off = div (sub (.finite length) (mul (.finite size.toNat) scale)) (.finite 2))
    (hx : x = sub (sub (.finite client) (.finite start)) off)
    (hlow : lt x (.finite 0) = false)
    (hhigh : lt (mul (.finite size.toNat) scale) x = false) :
    PointerEvent.InRange size (Number.round (div x scale)) ↔
      scale ≠ .finite 0 ∧ off.isFinite = true := by
  have hpos : 0 < size.toNat := BitVec.toNat_pos_of_ne_zero hsize
  constructor
  · rintro ⟨k, hk, -⟩
    have hfinite : (div x scale).isFinite = true := by
      rw [← isFinite_round, hk]
      rfl
    constructor
    · rintro rfl
      rw [isFinite_div_zero] at hfinite
      cases hfinite
    · apply isFinite_sub_right
      rw [← hx]
      exact isFinite_div_left hfinite
  · rintro ⟨hzero, hmargin⟩
    have hn : ((size.toNat : ℕ) : ℚ) ≠ 0 := Nat.cast_ne_zero.mpr hpos.ne'
    have hdisp : (mul (.finite size.toNat) scale).isFinite = true := by
      rw [hoff] at hmargin
      exact isFinite_sub_right (isFinite_div_left hmargin)
    obtain ⟨s, rfl, hs, hmultiple⟩ : ∃ s, scale = .finite s ∧ 0 ≤ s ∧ Multiple s := by
      refine hscale.resolve_left ?_
      rintro rfl
      cases isFinite_mul_right hn hdisp
    have hspos : 0 < s := lt_of_le_of_ne hs fun h => hzero (by rw [← h])
    obtain ⟨d, hd⟩ := isFinite_iff.mp hdisp
    have hnearest : d = nearest (size.toNat * s) := eq_nearest_of_ofRat hd
    have hnum : x ≠ .nan := hx ▸ sub_ne_nan (ofRat_ne_nan _) hmargin
    rw [hd] at hhigh
    obtain ⟨q, rfl, hq, hle⟩ := finite_of_between hnum hlow hhigh
    rw [hnearest] at hle
    exact round_div_of_le_mul size.isLt hspos hmultiple hq hle

namespace PointerEvent

theorem scale_spec {e : PointerEvent} (h : e.InVideo) : Scale e.scale := by
  have hw : 0 < e.canvas.width.toNat := BitVec.toNat_pos_of_ne_zero h.1
  have hh : 0 < e.canvas.height.toNat := BitVec.toNat_pos_of_ne_zero h.2.1
  exact scale_min (scale_div e.rect.width_nonneg _ hw) (scale_div e.rect.height_nonneg _ hh)

theorem toVideoCoords_of_inVideo {e : PointerEvent} (h : e.InVideo) :
    e.toVideoCoords = some (Number.round (div e.x e.scale), Number.round (div e.y e.scale)) := by
  obtain ⟨hw, hh, hin⟩ := h
  rw [toVideoCoords, if_neg (not_or.mpr ⟨hw, hh⟩), if_neg (by simp [hin])]

theorem toVideoCoords_of_not_inVideo {e : PointerEvent} (h : ¬e.InVideo) :
    e.toVideoCoords = none := by
  unfold toVideoCoords
  split
  · rfl
  · next hsize =>
      rw [not_or] at hsize
      rw [if_pos]
      by_contra hin
      exact h ⟨hsize.1, hsize.2, Bool.eq_false_of_not_eq_true hin⟩

/-- The place in the video is one of the screen where the canvas is shown in a size. -/
theorem inRange_coords_iff {e : PointerEvent} (h : e.InVideo) :
    InRange e.canvas.width (Number.round (div e.x e.scale)) ∧
      InRange e.canvas.height (Number.round (div e.y e.scale)) ↔ e.Shown := by
  have hin := h.2.2
  simp only [outside, Bool.or_eq_false_iff] at hin
  obtain ⟨⟨⟨hx, hy⟩, hx'⟩, hy'⟩ := hin
  have hwidth : InRange e.canvas.width (Number.round (div e.x e.scale)) ↔
      e.scale ≠ .finite 0 ∧ e.offX.isFinite = true :=
    inRange_round_iff h.1 (scale_spec h) rfl rfl hx hx'
  have hheight : InRange e.canvas.height (Number.round (div e.y e.scale)) ↔
      e.scale ≠ .finite 0 ∧ e.offY.isFinite = true :=
    inRange_round_iff h.2.1 (scale_spec h) rfl rfl hy hy'
  rw [hwidth, hheight, Shown]
  tauto

/-- A canvas of any size that a window can have is shown in a size. -/
theorem shown_of_size {e : PointerEvent} (h : e.InVideo)
    (hwidth : 1 / 2 ^ 64 ≤ e.rect.width ∧ e.rect.width ≤ 2 ^ 64)
    (hheight : 1 / 2 ^ 64 ≤ e.rect.height ∧ e.rect.height ≤ 2 ^ 64) : e.Shown := by
  have hw : 0 < e.canvas.width.toNat := BitVec.toNat_pos_of_ne_zero h.1
  have hh : 0 < e.canvas.height.toNat := BitVec.toNat_pos_of_ne_zero h.2.1
  obtain ⟨s, hs, hpos, hle⟩ : ∃ s, e.scale = .finite s ∧ 0 < s ∧ s ≤ 2 ^ 66 := by
    obtain ⟨a, ha, ha'⟩ := div_size hwidth e.canvas.width.isLt hw
    obtain ⟨b, hb, hb'⟩ := div_size hheight e.canvas.height.isLt hh
    have hmin : e.scale = .finite a ∨ e.scale = .finite b := by
      rw [scale, vw, vh, ha, hb]
      exact min_choice Number.noConfusion Number.noConfusion
    rcases hmin with hmin | hmin
    · exact ⟨a, hmin, ha'⟩
    · exact ⟨b, hmin, hb'⟩
  refine ⟨?_, ?_, ?_⟩
  · rw [hs]
    exact fun hzero => hpos.ne' (Number.finite.inj hzero)
  · rw [offX, dispW, vw, hs]
    exact isFinite_margin hwidth.2 e.rect.width_nonneg e.canvas.width.isLt hpos.le hle
  · rw [offY, dispH, vh, hs]
    exact isFinite_margin hheight.2 e.rect.height_nonneg e.canvas.height.isLt hpos.le hle

/-- All that the handlers need to know of it. -/
theorem toVideoCoords_spec (e : PointerEvent) :
    (e.InVideo ∧ ∃ c, e.toVideoCoords = some c ∧
      (InRange e.canvas.width c.1 ∧ InRange e.canvas.height c.2 ↔ e.Shown)) ∨
    ¬e.InVideo ∧ e.toVideoCoords = none := by
  by_cases h : e.InVideo
  · exact Or.inl ⟨h, _, toVideoCoords_of_inVideo h, inRange_coords_iff h⟩
  · exact Or.inr ⟨h, toVideoCoords_of_not_inVideo h⟩

end PointerEvent
end Kulua.Fusion.Page
