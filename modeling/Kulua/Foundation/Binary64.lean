import Mathlib.Data.Int.Log
import Mathlib.Tactic

/-! Floating point numbers of double precision, over the rationals: an operation gives the exact
result, rounded to the nearest multiple of the unit in its last place, ties to the even one. From
`2 ^ 1024` on the result is infinite. Zeros have no sign here; a zero divisor is a positive one. -/

namespace Kulua.Foundation.Binary64

inductive Number where
  | finite (q : ℚ)
  | infinite (negative : Bool)
  | nan
  deriving DecidableEq, Repr

/-- 53 significant bits, and none below `2 ^ -1074`. -/
def unitExponent (q : ℚ) : ℤ := max (Int.log 2 |q| - 52) (-1074)

def unit (q : ℚ) : ℚ := 2 ^ unitExponent q

def roundEven (q : ℚ) : ℤ :=
  if q - ⌊q⌋ < 1 / 2 then ⌊q⌋
  else if 1 / 2 < q - ⌊q⌋ then ⌊q⌋ + 1
  else if ⌊q⌋ % 2 = 0 then ⌊q⌋
  else ⌊q⌋ + 1

def nearest (q : ℚ) : ℚ := roundEven (q / unit q) * unit q

def ofRat (q : ℚ) : Number :=
  if 2 ^ 1024 ≤ |nearest q| then .infinite (decide (q < 0)) else .finite (nearest q)

namespace Number

def sub : Number → Number → Number
  | .finite a, .finite b => ofRat (a - b)
  | .infinite a, .infinite b => if a = b then .nan else .infinite a
  | .infinite a, .finite _ => .infinite a
  | .finite _, .infinite b => .infinite !b
  | .nan, _ | _, .nan => .nan

def mul : Number → Number → Number
  | .finite a, .finite b => ofRat (a * b)
  | .infinite a, .infinite b => .infinite (a ^^ b)
  | .infinite a, .finite b | .finite b, .infinite a =>
    if b = 0 then .nan else .infinite (a ^^ decide (b < 0))
  | .nan, _ | _, .nan => .nan

def div : Number → Number → Number
  | .finite a, .finite b =>
    if b ≠ 0 then ofRat (a / b) else if a = 0 then .nan else .infinite (decide (a < 0))
  | .infinite _, .infinite _ => .nan
  | .infinite a, .finite b => .infinite (a ^^ decide (b < 0))
  | .finite _, .infinite _ => .finite 0
  | .nan, _ | _, .nan => .nan

/-- Nothing is below or above a number that is none. -/
def lt : Number → Number → Bool
  | .finite a, .finite b => decide (a < b)
  | .infinite a, .infinite b => a && !b
  | .infinite a, .finite _ => a
  | .finite _, .infinite b => !b
  | .nan, _ | _, .nan => false

/-- `Math.min`. -/
def min : Number → Number → Number
  | .nan, _ | _, .nan => .nan
  | a, b => if lt a b then a else b

/-- `Math.round`: the nearest integer, ties upwards. -/
def round : Number → Number
  | .finite q => .finite ⌊q + 1 / 2⌋
  | a => a

theorem min_choice {a b : Number} (ha : a ≠ .nan) (hb : b ≠ .nan) : min a b = a ∨ min a b = b := by
  have hmin : min a b = if lt a b then a else b := by
    cases a <;> cases b <;> first | rfl | contradiction
  rw [hmin]
  exact ite_eq_or_eq ..

def isFinite : Number → Bool
  | .finite _ => true
  | .infinite _ | .nan => false

theorem isFinite_iff {a : Number} : a.isFinite = true ↔ ∃ q, a = .finite q := by
  cases a <;> simp [isFinite]

@[simp] theorem isFinite_round (a : Number) : a.round.isFinite = a.isFinite := by
  cases a <;> rfl

theorem isFinite_sub_right {a b : Number} (h : (sub a b).isFinite = true) :
    b.isFinite = true := by
  cases b with
  | finite q => rfl
  | infinite n =>
      cases a with
      | finite q => exact h
      | infinite m =>
          simp only [sub] at h
          split at h <;> exact h
      | nan => exact h
  | nan => cases a <;> exact h

theorem isFinite_div_left {a b : Number} (h : (div a b).isFinite = true) :
    a.isFinite = true := by
  cases a with
  | finite q => rfl
  | infinite n => cases b <;> exact h
  | nan => cases b <;> exact h

theorem isFinite_div_zero (a : Number) : (div a (.finite 0)).isFinite = false := by
  cases a with
  | finite q =>
      by_cases h : q = 0
      · simp [div, h, isFinite]
      · simp [div, h, isFinite]
  | infinite n => rfl
  | nan => rfl

end Number

theorem abs_roundEven_sub_le (q : ℚ) : |(roundEven q : ℚ) - q| ≤ 1 / 2 := by
  have hlo := Int.floor_le q
  have hhi := Int.lt_floor_add_one q
  unfold roundEven
  rw [abs_le]
  split_ifs with h₁ h₂ h₃
  all_goals
    push_cast
    constructor <;> linarith

theorem roundEven_intCast (n : ℤ) : roundEven n = n := by simp [roundEven]

theorem roundEven_nonneg {q : ℚ} (h : 0 ≤ q) : 0 ≤ roundEven q := by
  have hfloor : 0 ≤ ⌊q⌋ := Int.floor_nonneg.mpr h
  unfold roundEven
  split_ifs <;> omega

theorem unit_pos (q : ℚ) : 0 < unit q := zpow_pos (by norm_num) _

theorem abs_nearest_sub_le (q : ℚ) : |nearest q - q| ≤ unit q / 2 := by
  have hunit := unit_pos q
  have hsplit : nearest q - q = (roundEven (q / unit q) - q / unit q) * unit q := by
    rw [nearest, sub_mul, div_mul_cancel₀ q hunit.ne']
  rw [hsplit, abs_mul, abs_of_pos hunit]
  have := mul_le_mul_of_nonneg_right (abs_roundEven_sub_le (q / unit q)) hunit.le
  linarith

theorem nearest_nonneg {q : ℚ} (h : 0 ≤ q) : 0 ≤ nearest q := by
  have hround : (0 : ℚ) ≤ roundEven (q / unit q) :=
    Int.cast_nonneg (roundEven_nonneg (div_nonneg h (unit_pos q).le))
  exact mul_nonneg hround (unit_pos q).le

/-- The smallest positive number. -/
def tiny : ℚ := 2 ^ (-1074 : ℤ)

def Multiple (q : ℚ) : Prop := ∃ k : ℤ, q = k * tiny

theorem unit_cases {q : ℚ} (hq : q ≠ 0) : unit q = tiny ∨ unit q ≤ |q| / 2 ^ 52 := by
  rcases max_choice (Int.log 2 |q| - 52) (-1074) with h | h
  · have hlog : (2 : ℚ) ^ Int.log 2 |q| ≤ |q| := by
      simpa using Int.zpow_log_le_self (R := ℚ) (b := 2) (by norm_num) (abs_pos.mpr hq)
    right
    rw [unit, unitExponent, h, zpow_sub₀ (by norm_num)]
    exact div_le_div_of_nonneg_right hlog (by positivity)
  · left
    rw [unit, unitExponent, h, tiny]

theorem multiple_nearest (q : ℚ) : Multiple (nearest q) := by
  obtain ⟨d, hd⟩ : ∃ d : ℕ, unitExponent q = d + (-1074 : ℤ) :=
    ⟨(unitExponent q + 1074).toNat, by have : -1074 ≤ unitExponent q := le_max_right _ _; omega⟩
  have hunit : unit q = 2 ^ d * tiny := by
    rw [unit, hd, zpow_add₀ (by norm_num), zpow_natCast, tiny]
  refine ⟨roundEven (q / unit q) * 2 ^ d, ?_⟩
  rw [nearest, mul_comm, hunit]
  push_cast
  ring

@[simp] theorem nearest_zero : nearest 0 = 0 := by simp [nearest, roundEven]

/-- Where the exact result is a multiple of the smallest number, the error is relative. -/
theorem abs_nearest_sub_le_of_multiple {q : ℚ} (h : Multiple q) :
    |nearest q - q| ≤ |q| / 2 ^ 53 := by
  by_cases hq : q = 0
  · simp [hq]
  · rcases unit_cases hq with hunit | hunit
    · obtain ⟨k, hk⟩ := h
      have htiny : tiny ≠ 0 := hunit ▸ (unit_pos q).ne'
      have hexact : nearest q = q := by
        rw [nearest, hunit, hk, mul_div_cancel_right₀ _ htiny, roundEven_intCast]
      rw [hexact, sub_self, abs_zero]
      positivity
    · have herror := abs_nearest_sub_le q
      linarith

theorem abs_nearest_sub_le_add (q : ℚ) : |nearest q - q| ≤ |q| / 2 ^ 53 + tiny := by
  have htiny : 0 < tiny := zpow_pos (by norm_num) _
  by_cases hq : q = 0
  · simpa [hq] using htiny.le
  · have herror := abs_nearest_sub_le q
    have hrel : 0 ≤ |q| / 2 ^ 53 := by positivity
    rcases unit_cases hq with hunit | hunit
    · linarith
    · linarith

theorem ofRat_of_lt {q : ℚ} (h : |nearest q| < 2 ^ 1024) : ofRat q = .finite (nearest q) :=
  if_neg (not_le.mpr h)

/-- Rounding finds no number that is none. -/
theorem ofRat_ne_nan (q : ℚ) : ofRat q ≠ .nan := by
  unfold ofRat
  split <;> exact Number.noConfusion

theorem sub_ne_nan {a b : Number} (ha : a ≠ .nan) (hb : b.isFinite = true) : a.sub b ≠ .nan := by
  obtain ⟨r, rfl⟩ := Number.isFinite_iff.mp hb
  cases a with
  | finite q => exact ofRat_ne_nan (q - r)
  | infinite n => exact Number.noConfusion
  | nan => exact absurd rfl ha

theorem finite_of_between {a : Number} (hnum : a ≠ .nan) {lo hi : ℚ}
    (hlo : Number.lt a (.finite lo) = false) (hhi : Number.lt (.finite hi) a = false) :
    ∃ q, a = .finite q ∧ lo ≤ q ∧ q ≤ hi := by
  cases a with
  | finite q =>
      exact ⟨q, rfl, not_lt.mp (of_decide_eq_false hlo), not_lt.mp (of_decide_eq_false hhi)⟩
  | infinite n =>
      obtain rfl : n = false := hlo
      cases hhi
  | nan => exact absurd rfl hnum

theorem eq_nearest_of_ofRat {q r : ℚ} (h : ofRat q = .finite r) : r = nearest q := by
  unfold ofRat at h
  split at h
  · cases h
  · exact (Number.finite.inj h).symm

theorem isFinite_mul_right {n : ℚ} (hn : n ≠ 0) {a : Number}
    (h : (Number.mul (.finite n) a).isFinite = true) : a.isFinite = true := by
  cases a with
  | finite q => rfl
  | infinite m =>
      simp only [Number.mul, if_neg hn] at h
      cases h
  | nan => exact h

theorem tiny_le : tiny ≤ 1 / 8 := by
  have h : tiny ≤ (2 : ℚ) ^ (-3 : ℤ) := zpow_le_zpow_right₀ (by norm_num) (by norm_num)
  exact h.trans (by norm_num)

theorem abs_nearest_le (q : ℚ) : |nearest q| ≤ 2 * |q| + 1 := by
  have herror := abs_nearest_sub_le_add q
  have htriangle := abs_sub_abs_le_abs_sub (nearest q) q
  have hq := abs_nonneg q
  have htiny := tiny_le
  linarith

/-- Far below the limit nothing becomes infinite. -/
theorem ofRat_of_le {q : ℚ} (h : |q| ≤ 2 ^ 200) : ofRat q = .finite (nearest q) := by
  have hpow : (2 : ℚ) ^ 202 ≤ 2 ^ 1024 := pow_le_pow_right₀ (by norm_num) (by norm_num)
  have hle := abs_nearest_le q
  refine ofRat_of_lt (lt_of_lt_of_le ?_ hpow)
  linarith

theorem nearest_pos {q : ℚ} (h : 1 / 2 ^ 200 ≤ q) : 0 < nearest q := by
  have htiny : tiny ≤ (2 : ℚ) ^ (-202 : ℤ) := zpow_le_zpow_right₀ (by norm_num) (by norm_num)
  rw [show (2 : ℚ) ^ (-202 : ℤ) = 1 / 2 ^ 202 by norm_num] at htiny
  have herror := (abs_le.mp (abs_nearest_sub_le_add q)).1
  rw [abs_of_nonneg (le_trans (by positivity) h)] at herror
  linarith

/-- What the multiplication by a number brings up to `x`, the division brings back below the
factor, up to the rounding to an integer. -/
theorem floor_nearest_div_le {n : ℕ} (hn : n < 2 ^ 32) {s x : ℚ} (hs : 0 < s)
    (hmultiple : Multiple s) (hx : 0 ≤ x) (hle : x ≤ nearest (n * s)) :
    ⌊nearest (x / s) + 1 / 2⌋ ≤ n := by
  obtain ⟨k, hk⟩ := hmultiple
  have hproduct : Multiple (n * s) := ⟨n * k, by rw [hk]; push_cast; ring⟩
  have hns : 0 ≤ n * s := by positivity
  have hmul := (abs_le.mp (abs_nearest_sub_le_of_multiple hproduct)).2
  rw [abs_of_nonneg hns] at hmul
  have hquot : x / s ≤ n * (1 + 1 / 2 ^ 53) := by
    rw [div_le_iff₀ hs]
    linarith
  have hdiv := (abs_le.mp (abs_nearest_sub_le_add (x / s))).2
  rw [abs_of_nonneg (div_nonneg hx hs.le)] at hdiv
  have hsize : (n : ℚ) < 2 ^ 32 := by exact_mod_cast hn
  have htiny := tiny_le
  rw [← Int.lt_add_one_iff, Int.floor_lt]
  push_cast
  linarith

/-- The quotient is an integer from 0 to the factor. -/
theorem round_div_of_le_mul {n : ℕ} (hn : n < 2 ^ 32) {s x : ℚ} (hs : 0 < s)
    (hmultiple : Multiple s) (hx : 0 ≤ x) (hle : x ≤ nearest (n * s)) :
    ∃ k : ℕ, Number.round (Number.div (.finite x) (.finite s)) = .finite k ∧ k ≤ n := by
  have hquot : 0 ≤ nearest (x / s) := nearest_nonneg (div_nonneg hx hs.le)
  have hfloor := floor_nearest_div_le hn hs hmultiple hx hle
  have hnonneg : 0 ≤ ⌊nearest (x / s) + 1 / 2⌋ := Int.floor_nonneg.mpr (by linarith)
  have hsmall : |nearest (x / s)| < 2 ^ 1024 := by
    have hlt := Int.lt_floor_add_one (nearest (x / s) + 1 / 2)
    have hfloor' : ((⌊nearest (x / s) + 1 / 2⌋ : ℤ) : ℚ) ≤ n := by exact_mod_cast hfloor
    have hsize : (n : ℚ) < 2 ^ 32 := by exact_mod_cast hn
    have hpow : (2 : ℚ) ^ 33 ≤ 2 ^ 1024 := pow_le_pow_right₀ (by norm_num) (by norm_num)
    rw [abs_of_nonneg hquot]
    refine lt_of_lt_of_le ?_ hpow
    linarith
  refine ⟨⌊nearest (x / s) + 1 / 2⌋.toNat, ?_, by omega⟩
  rw [Number.div, if_pos hs.ne', ofRat_of_lt hsmall, Number.round]
  congr 1
  exact_mod_cast (Int.toNat_of_nonneg hnonneg).symm

end Kulua.Foundation.Binary64
